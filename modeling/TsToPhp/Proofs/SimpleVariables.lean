import TsToPhp.Proofs.Options
import TsToPhp.Proofs.PartNames
import TsToPhp.Proofs.Signs

/-! Every variable of a printed module is simple, unless a name has a sign of its own. -/

namespace TsToPhp

open Php Php.Variables

variable {helper : String} {ok : String → Prop}

/-- Names that stand behind a sign without a name of the module. -/
def fixedVariables : List String := ["this", "_"]

/-- In front of the text of a line stands at most indentation. -/
theorem layout_eq (helper : String) {p : Pieces} (hp : p.all Piece.isInk = true) (level : Nat)
    (fresh : Bool) :
    ∃ blank, blank.all isUnsigned = true ∧
      p.layout helper level fresh = blank ++ p.code helper := by
  rw [(layout_of_line hp level fresh).1, indented]
  split
  · exact ⟨spaces level, by simp [spaces, isUnsigned], rfl⟩
  · exact ⟨[], rfl, rfl⟩

/-- Wherever the pieces are laid out, behind each sign stands such a name. -/
def Pieces.Signed (helper : String) (ok : String → Prop) (p : Pieces) : Prop :=
  ∀ level fresh, Signs ok (p.layout helper level fresh)

namespace Pieces.Signed

variable {p q : Pieces}

theorem nil : Signed helper ok [] := fun _ _ => .nil

theorem append (hp : p.Signed helper ok) (hq : q.Signed helper ok) : (p ++ q).Signed helper ok := by
  intro level fresh
  rw [layout_append]
  exact (hp level fresh).append (hq _ _)

theorem ink (hp : p.all Piece.isInk = true) (h : Signs ok (p.code helper)) :
    p.Signed helper ok := by
  intro level fresh
  obtain ⟨blank, hblank, hline⟩ := layout_eq helper hp level fresh
  rw [hline]
  exact (Signs.plain hblank).append h

theorem text {s : String} (h : Signs ok s.toList) : Signed helper ok [.text s] :=
  ink rfl (by simpa [code] using h)

theorem helperPrefix (h : helper.toList.all isUnsigned = true) : Signed helper ok [.helperPrefix] :=
  text (s := helper) (.plain h)

theorem report (d : Diagnostic) : Signed helper ok [.report d] := fun _ _ => .nil

theorem newline : Signed helper ok [.newline] := by
  have hplain : ['\n'].all isUnsigned = true := by decide
  exact fun _ _ => .plain hplain

theorem indented (hp : p.Signed helper ok) : Signed helper ok (.indent :: p ++ [Piece.dedent]) := by
  intro level fresh
  simpa [layout, layout_append] using hp (level + 1) fresh

theorem between {before after : String} (hb : before.toList.all isUnsigned = true)
    (ha : after.toList.all isUnsigned = true) (hp : p.Signed helper ok) :
    Signed helper ok (.text before :: p ++ [Piece.text after]) :=
  append (p := [_] ++ p) (append (.text (.plain hb)) hp) (.text (.plain ha))

theorem braces (hp : p.Signed helper ok) : p.braces.Signed helper ok := by
  have hopen : "\x7b".toList.all isUnsigned = true := by decide
  have hclose : "\x7d".toList.all isUnsigned = true := by decide
  simpa [Pieces.braces] using between hopen hclose (newline.append hp.indented)

end Pieces.Signed

/-- A name without a sign, which may stand behind one. -/
structure IsUnsigned (ok : String → Prop) (n : String) : Prop where
  chars : n.toList.all isLabelChar = true
  known : ok n

theorem IsUnsigned.all {n : String} (h : IsUnsigned ok n) : n.toList.all isUnsigned = true := by
  refine List.all_eq_true.mpr fun c hc => ?_
  have hlabel := List.all_eq_true.mp h.chars c hc
  simp only [isUnsigned, Bool.and_eq_true, bne_iff_ne]
  constructor
  · rintro rfl
    cases hlabel
  · rintro rfl
    cases hlabel

theorem signs_symbol (hfixed : ∀ n ∈ fixedVariables, ok n) :
    ∀ s ∈ symbols, Signs ok s.toList := by
  have hsymbols : ∀ s ∈ symbols, s.toList.all isUnsigned = true ∨
      ∃ n ∈ fixedVariables, s = "$" ++ n := by decide
  intro s hs
  rcases hsymbols s hs with h | ⟨n, hn, rfl⟩
  · exact .plain h
  · have hall : ∀ n ∈ fixedVariables, n.toList.all isUnsigned = true := by decide
    simpa using Signs.variable (hfixed n hn) (hall n hn)

theorem numeral_unsigned {s : String} (h : ∀ c ∈ s.toList, isNumeralChar c = true) :
    s.toList.all isUnsigned = true := by
  refine List.all_eq_true.mpr fun c hc => ?_
  have hplain : ['"', '$'].any isNumeralChar = false := by decide
  have hnone : c ∉ ['"', '$'] := fun hm => List.any_eq_false.mp hplain c hm (h c hc)
  simpa [isUnsigned] using hnone

theorem variable_signed {s n : String} (hs : s ∈ variableSigns ++ bindingMarks)
    (hn : IsUnsigned ok n) : Pieces.Signed helper ok [.text s, .text n] := by
  have hsigns : ∀ s ∈ variableSigns ++ bindingMarks, s.toList.dropLast.all isUnsigned = true ∧
      s.toList = s.toList.dropLast ++ ['$'] := by decide
  obtain ⟨hplain, hsplit⟩ := hsigns s hs
  have hall : Signs ok (s.toList.dropLast ++ '$' :: n.toList) :=
    .append (.plain hplain) (.variable hn.known hn.all)
  refine .ink rfl ?_
  rw [Pieces.code, hsplit]
  simpa [Pieces.code] using hall

theorem Phrase.signed (hh : helper.toList.all isUnsigned = true)
    (hfixed : ∀ n ∈ fixedVariables, ok n) {listed : Bool} {p : Pieces}
    (h : Phrase (IsUnsigned ok) listed p) : p.Signed helper ok := by
  induction h with
  | nil => exact .nil
  | append _ _ hp hq => exact hp.append hq
  | symbol hs _ => exact .text (signs_symbol hfixed _ hs)
  | name hn => exact .text (.plain hn.all)
  | «variable» hs hn => exact variable_signed (List.mem_append_left _ hs) hn
  | quoted s => exact .text (.quote s)
  | number x => exact .text (.plain (numeral_unsigned (number_chars x)))
  | integer n => exact .text (.plain (numeral_unsigned (integer_chars n)))
  | helperCall hn _ hp =>
    have hname := signs_symbol hfixed _ (helperNames_subset hn)
    have hopen : "(".toList.all isUnsigned = true := by decide
    have hclose : ")".toList.all isUnsigned = true := by decide
    exact (Pieces.Signed.helperPrefix hh).append ((Pieces.Signed.text hname).append
      (.between hopen hclose hp))
  | report d => exact .report d
  | group hb _ hp =>
    have hbrackets : ∀ b ∈ TsToPhp.brackets, b.1.toList.all isUnsigned = true ∧
        b.2.toList.all isUnsigned = true := by decide
    exact .between (hbrackets _ hb).1 (hbrackets _ hb).2 hp
  | conditional _ _ _ hp hq hr =>
    have hyes : Pieces.Signed helper ok [.text " ? "] := .text (.plain (by decide))
    have hno : Pieces.Signed helper ok [.text " : "] := .text (.plain (by decide))
    exact (hp.append (hyes.append hq)).append (hno.append hr)

mutual

theorem Row.signed (hh : helper.toList.all isUnsigned = true)
    (hfixed : ∀ n ∈ fixedVariables, ok n) {p : Pieces} : Row (IsUnsigned ok) p → p.Signed helper ok
  | .inline h => h.signed hh hfixed
  | .append hp hq => (hp.signed hh hfixed).append (hq.signed hh hfixed)
  | .mark hs => by
    have hmarks : ∀ s ∈ marks, s.toList.all isUnsigned = true := by decide
    exact .text (.plain (hmarks _ hs))
  | .binding hs hn => variable_signed (List.mem_append_right _ hs) hn
  | .head hb hp => by
    have hheads : ∀ b ∈ heads, b.1.toList.all isUnsigned = true ∧
        b.2.toList.all isUnsigned = true := by decide
    exact .between (hheads _ hb).1 (hheads _ hb).2 (hp.signed hh hfixed)
  | @Row.promoted _ n hn => by
    have hthis : Signs ok "$this".toList := signs_symbol hfixed _ (by decide)
    have hname := Signs.variable hn.known hn.all
    have harrow : Signs ok ("->".toList ++ n.toList) := .append (.plain (by decide)) (.plain hn.all)
    have hequals : Signs ok " = ".toList := .plain (by decide)
    have hend : Signs ok ";".toList := .plain (by decide)
    refine .text ?_
    simpa using (hthis.append (harrow.append hequals)).append (hname.append hend)
  | .braces hp => (hp.signed hh hfixed).braces

theorem Lines.signed (hh : helper.toList.all isUnsigned = true)
    (hfixed : ∀ n ∈ fixedVariables, ok n) {p : Pieces} :
    Lines (IsUnsigned ok) p → p.Signed helper ok
  | .nil => .nil
  | .append hp hq => (hp.signed hh hfixed).append (hq.signed hh hfixed)
  | .report d => .report d
  | .line hp => (hp.signed hh hfixed).append .newline
  | .indented hp => (hp.signed hh hfixed).indented

end

/-! ### Where a printed identifier stands -/

/-- A whole literal, or a text without any part of one. -/
def Piece.IsClosed : Piece → Prop
  | .text s => (∃ t, s = Php.quote t) ∨ '"' ∉ s.toList
  | _ => True

def Pieces.AllClosed (p : Pieces) : Prop := ∀ x ∈ p, x.IsClosed

namespace Pieces.AllClosed

variable {p q : Pieces}

theorem append (hp : p.AllClosed) (hq : q.AllClosed) : (p ++ q).AllClosed :=
  List.forall_mem_append.mpr ⟨hp, hq⟩

theorem text {s : String} (h : '"' ∉ s.toList) : AllClosed [.text s] :=
  List.forall_mem_singleton.mpr (.inr h)

theorem between {before after : String} (hb : '"' ∉ before.toList) (ha : '"' ∉ after.toList)
    (hp : p.AllClosed) : AllClosed (.text before :: p ++ [Piece.text after]) :=
  append (p := [_] ++ p) (append (text hb) hp) (text ha)

theorem plain {x : Piece} (h : x.IsClosed) : AllClosed [x] := List.forall_mem_singleton.mpr h

end Pieces.AllClosed

theorem Phrase.allClosed {listed : Bool} {p : Pieces} (h : Phrase (fun n => '"' ∉ n.toList) listed p) :
    p.AllClosed := by
  have hsymbols : ∀ s ∈ symbols ++ variableSigns, '"' ∉ s.toList := by decide
  have hnumeral {s : String} (h : ∀ c ∈ s.toList, isNumeralChar c = true) : '"' ∉ s.toList := by
    intro hm
    cases h _ hm
  induction h with
  | nil => exact List.forall_mem_nil _
  | append _ _ hp hq => exact hp.append hq
  | symbol hs _ => exact .text (hsymbols _ (List.mem_append_left _ hs))
  | name hn => exact .text hn
  | «variable» hs hn =>
    exact .append (p := [_]) (.text (hsymbols _ (List.mem_append_right _ hs))) (.text hn)
  | quoted s => exact .plain (.inl ⟨s, rfl⟩)
  | number x => exact .text (hnumeral (number_chars x))
  | integer n => exact .text (hnumeral (integer_chars n))
  | helperCall hn _ hp =>
    have hname := hsymbols _ (List.mem_append_left _ (helperNames_subset hn))
    have hopen : '"' ∉ "(".toList := by decide
    have hclose : '"' ∉ ")".toList := by decide
    exact .append (p := [_, _]) (.append (p := [_]) (.plain trivial) (.text hname))
      (.between hopen hclose hp)
  | report d => exact .plain trivial
  | group hb _ hp =>
    have hbrackets : ∀ b ∈ TsToPhp.brackets, '"' ∉ b.1.toList ∧ '"' ∉ b.2.toList := by decide
    exact .between (hbrackets _ hb).1 (hbrackets _ hb).2 hp
  | conditional _ _ _ hp hq hr =>
    have hyes : Pieces.AllClosed [.text " ? "] := .text (by decide)
    have hno : Pieces.AllClosed [.text " : "] := .text (by decide)
    exact (hp.append (hyes.append hq)).append (hno.append hr)

theorem Pieces.AllClosed.braces {p : Pieces} (hp : p.AllClosed) : p.braces.AllClosed := by
  have hopen : AllClosed [.text "\x7b", .newline, .indent] :=
    .append (p := [_]) (.text (by decide)) (.append (p := [_]) (.plain trivial) (.plain trivial))
  have hclose : AllClosed [.dedent, .text "\x7d"] :=
    .append (p := [_]) (.plain trivial) (.text (by decide))
  exact (hopen.append hp).append hclose

mutual

theorem Row.allClosed {p : Pieces} : Row (fun n => '"' ∉ n.toList) p → p.AllClosed
  | .inline h => h.allClosed
  | .append hp hq => hp.allClosed.append hq.allClosed
  | .mark hs => by
    have hmarks : ∀ s ∈ marks, '"' ∉ s.toList := by decide
    exact .text (hmarks _ hs)
  | .binding hs hn => by
    have hmarks : ∀ s ∈ bindingMarks, '"' ∉ s.toList := by decide
    exact .append (p := [_]) (.text (hmarks _ hs)) (.text hn)
  | .head hb hp => by
    have hheads : ∀ b ∈ heads, '"' ∉ b.1.toList ∧ '"' ∉ b.2.toList := by decide
    exact .between (hheads _ hb).1 (hheads _ hb).2 hp.allClosed
  | .promoted hn => .text (by simpa using hn)
  | .braces hp => hp.allClosed.braces

theorem Lines.allClosed {p : Pieces} : Lines (fun n => '"' ∉ n.toList) p → p.AllClosed
  | .nil => List.forall_mem_nil _
  | .append hp hq => hp.allClosed.append hq.allClosed
  | .report d => .plain trivial
  | .line hp => hp.allClosed.append (.plain trivial)
  | .indented hp =>
    have hindent : Pieces.AllClosed [.indent] := .plain trivial
    have hdedent : Pieces.AllClosed [.dedent] := .plain trivial
    (hindent.append hp.allClosed).append hdedent

end

theorem Pieces.AllClosed.closes {p : Pieces} (hh : '"' ∉ helper.toList) (hp : p.AllClosed)
    (level : Nat) (fresh : Bool) : Closes (p.layout helper level fresh) := by
  induction p generalizing level fresh with
  | nil => exact .nil
  | cons x p ih =>
    have hink (hx : x.isInk = true) (hcode : Closes (code helper [x])) :
        Closes (layout helper level fresh [x]) := by
      obtain ⟨blank, hblank, hline⟩ := layout_eq helper (p := [x]) (by simpa using hx) level fresh
      rw [hline]
      exact (Closes.plain hblank).append hcode
    have hx : Closes (layout helper level fresh [x]) := by
      cases x with
      | text s =>
        refine hink rfl ?_
        rw [code_text]
        rcases hp _ (.head _) with ⟨t, rfl⟩ | hs
        · exact .quote t
        · exact .unquoted hs
      | helperPrefix => exact hink rfl (.unquoted (by simpa [code] using hh))
      | newline =>
        have hplain : '"' ∉ ['\n'] := by decide
        exact .unquoted hplain
      | indent | dedent | report => exact .nil
    rw [← List.singleton_append, layout_append]
    exact hx.append (ih (fun y hy => hp y (.tail _ hy)) _ _)

/-- Is the name written behind a sign? -/
def Pieces.NamesVariable (p : Pieces) (n : String) : Prop :=
  ∃ s ∈ variableSigns ++ bindingMarks, [.text s, .text n] <:+: p

theorem Pieces.NamesVariable.stands {p : Pieces} {n : String} (h : p.NamesVariable n)
    (hp : p.AllClosed) (hh : '"' ∉ helper.toList) (level : Nat) (fresh : Bool) :
    ∃ front rest, Closes front ∧
      p.layout helper level fresh = front ++ '$' :: (n.toList ++ rest) := by
  have hsigns : ∀ s ∈ variableSigns ++ bindingMarks, '"' ∉ s.toList.dropLast ∧
      s.toList = s.toList.dropLast ++ ['$'] := by decide
  obtain ⟨s, hs, before, behind, rfl⟩ := h
  obtain ⟨hplain, hsplit⟩ := hsigns s hs
  have hbefore : AllClosed before := fun x hx =>
    hp x (List.mem_append_left _ (List.mem_append_left _ hx))
  have hcode : code helper [.text s, .text n] = s.toList.dropLast ++ '$' :: n.toList := by
    rw [code, hsplit]
    simp [code]
  obtain ⟨blank, hblank, hline⟩ := layout_eq helper (p := [.text s, .text n]) rfl
    (levelAfter level before) (freshAfter helper fresh before)
  have hfront : Closes (layout helper level fresh before ++ (blank ++ s.toList.dropLast)) :=
    (hbefore.closes hh level fresh).append ((Closes.plain hblank).append (.unquoted hplain))
  rw [layout_append, layout_append, hline, hcode]
  exact ⟨_, layout helper (levelAfter level (before ++ [Piece.text s, .text n]))
    (freshAfter helper fresh (before ++ [Piece.text s, .text n])) behind, hfront,
    by simp only [List.append_assoc, List.cons_append]⟩

/-- An identifier that does not begin with a digit. -/
def isName (s : String) : Bool := isIdentifier s && s.toList.head?.any (!·.isDigit)

theorem isLabel_of_isName {n : String} (h : isName n = true) (hsign : '$' ∉ n.toList) :
    isLabel n = true ∧ ∀ rest, n.toList <+: rest → rest.head?.any isLabelStart = true := by
  simp only [isName, isIdentifier, Bool.and_eq_true] at h
  cases hn : n.toList with
  | nil => simp [hn] at h
  | cons c cs =>
    have hchars : ∀ d ∈ c :: cs, isLabelChar d = true := fun d hd => by
      have hd' : d ≠ '$' := fun he => hsign (hn ▸ he ▸ hd)
      simpa [isLabelChar, hd'] using List.all_eq_true.mp h.1 d (hn ▸ hd)
    have hc : isLabelStart c = true := by
      simpa [isLabelStart, hchars c (.head _), hn] using h.2
    refine ⟨by simpa [isLabel, hn] using hchars, ?_⟩
    rintro _ ⟨rest, rfl⟩
    simpa using hc

/-- A reader of a name stops at a sign. -/
theorem takeWhile_isLabelChar_ne {cs : List Char} (h : '$' ∈ cs) (rest : List Char) :
    (cs ++ rest).takeWhile isLabelChar ≠ cs := by
  intro he
  have hmem : '$' ∈ (cs ++ rest).takeWhile isLabelChar := by rwa [he]
  cases List.all_eq_true.mp List.all_takeWhile _ hmem

theorem names_sign_iff {n : String} (h : isName n = true) :
    Variables.names .code ('$' :: n.toList) = [n] ↔ '$' ∉ n.toList := by
  constructor
  · intro hnames hmem
    rw [Variables.names] at hnames
    have hhead := (List.cons.inj hnames).1
    refine takeWhile_isLabelChar_ne hmem [] ?_
    rw [List.append_nil, ← String.toList_ofList (l := n.toList.takeWhile isLabelChar), hhead]
  · intro hsign
    have hone := names_variable (isLabel_of_isName h hsign).1 breaks_nil
    simpa [Variables.names] using hone

/-- The names of global constants, which are no variables. -/
def constantNames : List String := ["undefined", "NaN", "Infinity"]

theorem variableNamed_eq {name : String} (h : name ∉ constantNames) :
    variableNamed name = [.text "$", .text name] := by
  simp only [constantNames, List.mem_cons, List.not_mem_nil, or_false, not_or] at h
  unfold variableNamed
  split <;> simp_all

/-- A constant mentions no variable, any other identifier its own. -/
theorem variableNamed_names (helper : String) {name : String} (h : isName name = true)
    (hsign : '$' ∉ name.toList) :
    ∀ x ∈ Variables.names .code ((variableNamed name).code helper), x = name := by
  by_cases hc : name ∈ constantNames
  · have hnone : ∀ name ∈ constantNames,
        Variables.names .code ((variableNamed name).code "") = [] := by
      decide
    have hcode : (variableNamed name).code helper = (variableNamed name).code "" := by
      unfold variableNamed
      split <;> rfl
    rw [hcode, hnone name hc]
    exact fun x hx => absurd hx List.not_mem_nil
  · rw [variableNamed_eq hc]
    have hnames := (names_sign_iff h).mpr hsign
    simp [Pieces.code, hnames]

theorem Options.opening_unsigned {options : Options}
    (h : ∀ name ∈ options.namespace, name.toList.all isUnsigned = true) :
    options.opening.toList.all isUnsigned = true := by
  unfold Options.opening
  cases hname : options.namespace with
  | none => rfl
  | some name =>
    have hplain := h name hname
    simp only [String.toList_append, List.all_append, hplain]
    rfl

section Printed

variable {isInstance : Expr → Bool} {ruleCopies : Nat} {options : Options} {source : Source}
  {m : Module} (hh : options.helperNamespace.toList.all isUnsigned = true)
  (ho : ∀ name ∈ options.namespace, name.toList.all isUnsigned = true)
  (hm : ∀ n ∈ m.names, isName n = true)

include hh ho hm

theorem transpileWith_signs (hsign : ∀ n ∈ m.names, '$' ∉ n.toList) :
    Signs (· ∈ fixedVariables ++ m.names)
      (transpileWith isInstance ruleCopies options source m).php.toList := by
  have hnames : ∀ n ∈ m.names, IsUnsigned (· ∈ fixedVariables ++ m.names) n := by
    intro n hn
    have hlabel := (isLabel_of_isName (hm n hn) (hsign n hn)).1
    rw [isLabel, Bool.and_eq_true] at hlabel
    exact ⟨hlabel.2, List.mem_append_right _ hn⟩
  rw [transpileWith_php]
  exact (Signs.plain (Options.opening_unsigned ho)).append
    ((emitModule_lines _ m hnames).signed hh (fun n hn => List.mem_append_left _ hn) 0 true)

theorem transpileWith_simple (hsign : ∀ n ∈ m.names, '$' ∉ n.toList) :
    isSimple (transpileWith isInstance ruleCopies options source m).php = true := by
  have hfixed : ∀ n ∈ fixedVariables, isName n = true ∧ '$' ∉ n.toList := by decide
  refine List.all_eq_true.mpr fun rest hr => ?_
  obtain ⟨n, hn, hbegins⟩ := (transpileWith_signs hh ho hm hsign).behind .code rfl rest hr
  rcases List.mem_append.mp hn with hn | hn
  · exact (isLabel_of_isName (hfixed n hn).1 (hfixed n hn).2).2 rest hbegins
  · exact (isLabel_of_isName (hm n hn) (hsign n hn)).2 rest hbegins

theorem transpileWith_behindSigns {n : String}
    (hn : (emitModule (.ofModule source isInstance ruleCopies m) m).NamesVariable n) :
    ∃ rest, n.toList ++ rest ∈
      behindSigns .code (transpileWith isInstance ruleCopies options source m).php.toList := by
  have hquoted : '"' ∉ options.helperNamespace.toList := fun hquote =>
    absurd (List.all_eq_true.mp hh _ hquote) (by decide)
  have hnames : ∀ n ∈ m.names, '"' ∉ n.toList := by
    intro n hn hquote
    have hall := hm n hn
    rw [isName, isIdentifier, Bool.and_eq_true] at hall
    exact absurd (List.all_eq_true.mp hall.1 _ hquote) (by decide)
  obtain ⟨front, rest, hfront, htext⟩ :=
    hn.stands (emitModule_lines _ m hnames).allClosed hquoted 0 true
  refine ⟨rest, ?_⟩
  rw [transpileWith_php, htext, ← List.append_assoc]
  exact ((Closes.plain (Options.opening_unsigned ho)).append hfront).mem_behindSigns _

end Printed

/-- Where the names of a module have no sign, every sign outside of literals begins a simple
variable that is called like a name of the module, and different identifiers are different
variables. Wherever a name is written behind a sign it stands there as it is: PHP reads another name
if there is a sign in it, and a variable variable if the sign comes first. -/
theorem variables_simple_unless_signed (isInstance : Expr → Bool) (ruleCopies : Nat)
    (options : Options) (source : Source) (m : Module)
    (hh : options.helperNamespace.toList.all isUnsigned = true)
    (ho : ∀ name ∈ options.namespace, name.toList.all isUnsigned = true)
    (hm : ∀ n ∈ m.names, isName n = true) :
    let ctx : Context := .ofModule source isInstance ruleCopies m
    let php := (transpileWith isInstance ruleCopies options source m).php
    let mentioned (hint : Hint) (id : Ident) :=
      Variables.names .code ((emitExpr ctx hint (.ident id)).code options.helperNamespace)
    ((∀ n ∈ m.names, '$' ∉ n.toList) →
      isSimple php = true ∧
        (∀ rest ∈ behindSigns .code php.toList,
          ∃ n ∈ fixedVariables ++ m.names, n.toList <+: rest) ∧
        ∀ hint hint' id id', m.Prints ctx (.expr hint (.ident id)) →
          m.Prints ctx (.expr hint' (.ident id')) →
          ∀ x ∈ mentioned hint id, x ∈ mentioned hint' id' → id.name = id'.name) ∧
    (∀ n, (emitModule ctx m).NamesVariable n →
      ∃ rest, n.toList ++ rest ∈ behindSigns .code php.toList ∧
        ('$' ∈ n.toList → (n.toList ++ rest).takeWhile isLabelChar ≠ n.toList) ∧
        (n.toList.head? = some '$' → isSimple php = false)) ∧
    ∀ hint id, m.Prints ctx (.expr hint (.ident id)) → id.name ∉ constantNames →
      (emitModule ctx m).NamesVariable id.name ∧
        (mentioned hint id = [id.name] ↔ '$' ∉ id.name.toList) := by
  intro ctx php mentioned
  have hident (hint : Hint) (id : Ident) :
      emitExpr ctx hint (.ident id) = variableNamed id.name := by
    rw [emitExpr]
  refine ⟨fun hsign => ⟨transpileWith_simple hh ho hm hsign,
    (transpileWith_signs hh ho hm hsign).behind .code rfl, ?_⟩, ?_, ?_⟩
  · intro hint hint' id id' h h' x hx hx'
    have hown (hint : Hint) (id : Ident) (h : m.Prints ctx (.expr hint (.ident id))) :
        ∀ x ∈ mentioned hint id, x = id.name := by
      have hn : id.name ∈ m.names := h.names (.head _)
      simp only [mentioned, hident]
      exact variableNamed_names _ (hm _ hn) (hsign _ hn)
    rw [← hown hint id h x hx, ← hown hint' id' h' x hx']
  · intro n hn
    obtain ⟨rest, hrest⟩ := transpileWith_behindSigns hh ho hm hn
    refine ⟨rest, hrest, fun hsign => takeWhile_isLabelChar_ne hsign rest, fun hhead => ?_⟩
    refine List.all_eq_false.mpr ⟨_, hrest, ?_⟩
    rw [List.head?_append, hhead, Option.some_or]
    decide
  · intro hint id hprints hconstant
    have hpieces := (hident hint id).trans (variableNamed_eq hconstant)
    have hcode : (emitExpr ctx hint (.ident id)).code options.helperNamespace =
        '$' :: id.name.toList := by
      rw [hpieces]
      simp [Pieces.code]
    refine ⟨⟨"$", by decide, hpieces ▸ hprints.standsIn⟩, ?_⟩
    simp only [mentioned, hcode]
    exact names_sign_iff (hm _ (hprints.names (.head _)))

/-- `x; y;`. -/
theorem variables_simple_unless_signed_plain :
    let x : Ident := ⟨"x", .none⟩
    let m : Module := [.stmt (.expr .none (.ident x)), .stmt (.expr .none (.ident ⟨"y", .none⟩))]
    let ctx : Context := .ofModule ⟨"", 0, 1⟩ (fun _ => false) 1 m
    let php := (transpileWith (fun _ => false) 1 .default ⟨"", 0, 1⟩ m).php
    Options.default.helperNamespace.toList.all isUnsigned = true ∧
      (∀ name ∈ Options.default.namespace, name.toList.all isUnsigned = true) ∧
      (∀ n ∈ m.names, isName n = true ∧ '$' ∉ n.toList) ∧
      m.Prints ctx (.expr .discarded (.ident x)) ∧ isSimple php = true ∧
      Variables.names .code ((emitExpr ctx .discarded (.ident x)).code "\\") = ["x"] ∧
      ∃ rest, "x".toList ++ rest ∈ behindSigns .code php.toList := by
  intro x m ctx php
  have hh : Options.default.helperNamespace.toList.all isUnsigned = true := by decide
  have ho : ∀ name ∈ Options.default.namespace, name.toList.all isUnsigned = true := by
    rintro name ⟨⟩
  have hm : ∀ n ∈ m.names, isName n = true ∧ '$' ∉ n.toList := by decide
  have hprints : m.Prints ctx (.expr .discarded (.ident x)) :=
    ⟨_, .head _, _, rfl, .single (.head _)⟩
  obtain ⟨hplain, hstands, hidentifier⟩ := variables_simple_unless_signed (fun _ => false) 1 .default
    ⟨"", 0, 1⟩ m hh ho fun n hn => (hm n hn).1
  obtain ⟨hsimple, -, -⟩ := hplain fun n hn => (hm n hn).2
  obtain ⟨hnamed, hmentioned⟩ := hidentifier .discarded x hprints (by decide)
  obtain ⟨rest, hrest, -, -⟩ := hstands "x" hnamed
  exact ⟨hh, ho, hm, hprints, hsimple, hmentioned.mpr (by decide), rest, hrest⟩

/-- `$x;` prints a variable variable. -/
theorem variable_variable_printed :
    let m : Module := [.stmt (.expr .none (.ident ⟨"$x", .none⟩))]
    (∀ n ∈ m.names, isName n = true) ∧
      transpile .default ⟨"", 0, 1⟩ m = ⟨"<?php\n\n$$x;\n", []⟩ ∧
      isSimple "<?php\n\n$$x;\n" = false := by
  exact ⟨by decide, rfl, by decide⟩

end TsToPhp
