import TsToPhp.Proofs.PrintedLists

/-! Object literals. Members that PHP has nothing for are reported and leave no gap between the others. -/

namespace TsToPhp

open Php Pieces

variable {ctx : Context} {helper : String}

def Key.written (ctx : Context) (helper : String) : Key → String
  | .name id => Php.quote id.name
  | .hidden n => Php.quote n
  | .computed e => e.written ctx helper

namespace ObjectMember

/-- The entry that is printed for a member, if PHP has one for it. -/
def written? (ctx : Context) (helper : String) : ObjectMember → Option String
  | .spread e => some ("..." ++ e.written ctx helper)
  | .shorthand id => some (Php.quote id.name ++ " => " ++ (Expr.ident id).written ctx helper)
  | .keyValue key value => some (key.written ctx helper ++ " => " ++ value.written ctx helper)
  | .unsupported .. => none

/-- What is reported for a member: what its parts report, or that there is no entry for it. -/
def reports (ctx : Context) : ObjectMember → List Diagnostic
  | .spread e => (emitExpr ctx .value e).diagnostics
  | .shorthand _ => []
  | .keyValue key value => (emitKey ctx key).diagnostics ++ (emitExpr ctx .value value).diagnostics
  | .unsupported span kind =>
    [.error .unsupportedExpression (ctx.region span) (notSupported kind.what)]

theorem written?_eq (m : ObjectMember) :
    m.written? ctx helper =
      if m.isSupported then some (String.ofList ((m.pieces ctx).code helper)) else none := by
  cases m with
  | unsupported => rfl
  | spread e =>
    simp only [written?, isSupported, pieces, Expr.written_eq, code, String.ofList_append,
      String.ofList_toList, if_true]
  | shorthand id =>
    simp only [written?, isSupported, pieces, Expr.written_eq, emitExpr, quoted, List.cons_append,
      List.nil_append, code, String.ofList_append, String.ofList_toList, String.append_assoc, if_true]
  | keyValue key value =>
    cases key <;>
      simp only [written?, isSupported, pieces, Key.written, Expr.written_eq, quoted, code, code_append,
        String.ofList_append, String.ofList_toList, String.append_assoc, if_true]

theorem entries_eq (ms : List ObjectMember) :
    ms.filterMap (written? ctx helper) =
      (printed ctx ms).map fun p => String.ofList (code helper p) := by
  induction ms with
  | nil => rfl
  | cons m ms ih =>
    rw [List.filterMap_cons, written?_eq, ih]
    cases h : m.isSupported <;> simp [printed, h]

theorem written?_ne_empty (m : ObjectMember) : m.written? ctx helper ≠ some "" := by
  cases m <;> simp [written?]

theorem reports_eq {m : ObjectMember} (h : m.isSupported = true) :
    m.reports ctx = (m.pieces ctx).diagnostics := by
  have htext (s : String) (ps : Pieces) : diagnostics (.text s :: ps) = ps.diagnostics := rfl
  cases m with
  | unsupported => cases h
  | spread e => rfl
  | shorthand id =>
    rw [reports, pieces]
    unfold variableNamed
    split <;> rfl
  | keyValue key value =>
    cases key with
    | name | hidden => rfl
    | computed e => rw [pieces, diagnostics_append, htext]; rfl

theorem printed_isListIn (hh : helper.toList.all isWordChar = true) (ctx : Context)
    {ms : List ObjectMember} (hm : ∀ n ∈ listNames ms, isName n = true) :
    IsListIn ('[', ']') (lexemes ('[' :: ((Pieces.list (printed ctx ms)).code helper ++ [']'])))
      ((printed ctx ms).map fun p => lexemes (code helper p)) := by
  have hnames {m : ObjectMember} (hmem : m ∈ ms) : ∀ n ∈ m.names, isName n = true := fun n hn =>
    hm n (names_subset_listNames hmem hn)
  refine list_isListIn hh ?_ ?_ (b := ('[', ']')) (by decide)
  · refine List.forall_mem_map.mpr fun m hmem => ?_
    exact pieces_phrase ctx m (isIdentifier_of_isName (hnames (List.mem_filter.mp hmem).1))
  · refine List.forall_mem_map.mpr fun m hmem => ?_
    obtain ⟨hmem, hs⟩ := List.mem_filter.mp hmem
    -- That something stands there is known for the items of arrays, whether they are constants or not.
    have hitem : Item false (.array false) (m.shown ctx helper) (m.isConstant ctx false) :=
      (member_item hh hs (hnames hmem) fun e he =>
        emitMembers_fit hh ctx false ms hm e (List.mem_flatMap.mpr ⟨m, hmem, he⟩)).2
    exact hitem.ne_nil rfl

end ObjectMember

theorem emitMembers_diagnostics (ctx : Context) (isFirst : Bool) (ms : List ObjectMember) :
    (emitMembers ctx isFirst ms).diagnostics = ms.flatMap (ObjectMember.reports ctx) := by
  -- Whether an entry stands in front decides on a comma and on nothing that is reported.
  induction ms generalizing isFirst with
  | nil => rfl
  | cons m ms ih =>
    rw [List.flatMap_cons]
    obtain hm | ⟨span, kind, rfl⟩ := m.supported_or
    · have hseparator : diagnostics (if isFirst then [] else [.text ", "]) = [] := by
        cases isFirst <;> rfl
      rw [emitMembers_supported hm, diagnostics_append, diagnostics_append, hseparator, ih,
        ObjectMember.reports_eq hm, List.nil_append]
    · exact congrArg (List.cons _) (ih isFirst)

/-- An object literal is written as the entries of its members, in their order and with commas between
them. A member that has no entry leaves nothing behind but its report, which comes where the member stands.
No entry is empty, and what PHP reads between the commas are just the entries. -/
theorem object_literal_written (ctx : Context) (helper : String) (hint : Hint) (span : Span)
    (members : List ObjectMember) (w : Writer) :
    let entries := members.filterMap (ObjectMember.written? ctx helper)
    let literal := "[" ++ ", ".intercalate entries ++ "]"
    let printed := emitExpr ctx hint (.object span members)
    w.putAll helper printed = w.write literal ∧ "" ∉ entries ∧
      printed.diagnostics = members.flatMap (ObjectMember.reports ctx) ∧
      (helper.toList.all isWordChar = true →
        (∀ n ∈ ObjectMember.listNames members, isName n = true) →
        IsListIn ('[', ']') (lexemes literal.toList) (entries.map fun s => lexemes s.toList)) := by
  intro entries literal printed
  have hliteral : literal.toList =
      '[' :: ((Pieces.list (ObjectMember.printed ctx members)).code helper ++ [']']) := by
    simp [literal, entries, ObjectMember.entries_eq, ← code_list]
  refine ⟨?_, ?_, ?_, fun hh hm => ?_⟩
  · rw [Writer.putAll_of_ink (emitExpr_isInk ctx hint _), code_object, ← hliteral, String.ofList_toList]
  · simp only [entries, List.mem_filterMap, not_exists, not_and]
    exact fun m _ => m.written?_ne_empty
  · have hbrackets (ps : Pieces) :
        diagnostics (.text "[" :: ps ++ [Piece.text "]"]) = ps.diagnostics := by
      simp [diagnostics]
    simp only [printed, emitExpr]
    rw [hbrackets, emitMembers_diagnostics]
  · have hentries : (entries.map fun s => lexemes s.toList) =
        (ObjectMember.printed ctx members).map fun p => lexemes (code helper p) := by
      simp [entries, ObjectMember.entries_eq]
    rw [hentries, hliteral]
    exact ObjectMember.printed_isListIn hh ctx hm

/-- Members without entries in front, next to each other and behind, and a value without PHP form. -/
theorem object_literal_written_gaps :
    let v (name : String) : Expr := .ident ⟨name, .none⟩
    let gap (kind : UnsupportedMember) : ObjectMember := .unsupported .none kind
    let members : List ObjectMember := [gap .getter, .shorthand ⟨"a", .none⟩, gap .method, gap .defaultValue,
      .keyValue (.name ⟨"k", .none⟩) (.unsupported .none .await),
      .spread (.array .none [.value (v "b"), .value (v "c")]), gap .setter]
    let entries := ["\"a\" => $a", "\"k\" => null", "...[$b, $c]"]
    let literal := "[\"a\" => $a, \"k\" => null, ...[$b, $c]]"
    let printed := emitExpr .bare .value (.object .none members)
    let reported (what : String) : Diagnostic := .error .unsupportedExpression .dummy (notSupported what)
    Writer.empty.putAll "" printed = Writer.empty.write literal ∧
      printed.diagnostics = [reported "object literal getter", reported "object literal method",
        reported "default value in object literal", reported "await", reported "object literal setter"] ∧
      IsListIn ('[', ']') (lexemes literal.toList) (entries.map fun s => lexemes s.toList) := by
  intro v gap members entries literal printed reported
  have hentries : members.filterMap (ObjectMember.written? .bare "") = entries := by rfl
  have hliteral : "[" ++ ", ".intercalate entries ++ "]" = literal := by rfl
  obtain ⟨hwritten, -, hreports, hlist⟩ :=
    object_literal_written .bare "" .value .none members .empty
  rw [hentries, hliteral] at hwritten hlist
  exact ⟨hwritten, hreports, hlist (by decide) (by decide)⟩

end TsToPhp
