import Mathlib.Algebra.GroupWithZero.Nat
import TsToPhp.Diagnostic.Render
import TsToPhp.Proofs.FaultsStatement
import TsToPhp.Proofs.Numerals
import TsToPhp.Proofs.ObjectReports
import TsToPhp.Proofs.SourceText

/-! Which messages take more than one line, and how many lines a list of reports takes with one line
for each. -/

namespace TsToPhp

namespace Node

variable (ctx : Context) (n : Node)

/-- The place of an access to `prototype`. -/
def prototypePlace? : Node → Option Span
  | .access span _ (.name id) | .call _ _ span _ (.name id) | .superAccess span id =>
    if ctx.nameText id = "prototype" then some span else none
  | _ => none

/-- The text that the report on an access to `prototype` quotes. -/
def quoted? : Option String := (n.prototypePlace? ctx).bind ctx.textOf

/-- An access to `prototype` that the object rule reports and that the source breaks over several
lines. -/
def isBroken : Bool := !n.bypassesRule ctx && (n.quoted? ctx).any hasBreak

theorem prototypeFault?_eq :
    n.prototypeFault? ctx = (n.prototypePlace? ctx).map fun span =>
      .error .prototypeAccess (ctx.region span)
        (notSupported ((ctx.textOf span).getD "prototype access")) := by
  have hname (id : Ident) (span : Span) (d : Diagnostic) (f : Span → Diagnostic) (hf : f span = d) :
      (if ctx.nameText id = "prototype" then some d else none) =
        (if ctx.nameText id = "prototype" then some span else none).map f := by
    split <;> simp [hf]
  cases n with
  | access span receiver key | call span position methodSpan receiver key =>
    cases key with
    | name id => exact hname id _ _ _ rfl
    | hidden | computed => rfl
  | superAccess span id => exact hname id span _ _ rfl
  | parameter | «variable» | field | classNamed => rfl

theorem quoted?_of_prototypeFault?_none (h : n.prototypeFault? ctx = none) :
    n.quoted? ctx = none := by
  rw [prototypeFault?_eq, Option.map_eq_none_iff] at h
  rw [quoted?, h, Option.bind_none]

theorem message_of_prototypeFault? {d : Diagnostic} (h : n.prototypeFault? ctx = some d) :
    d.message = notSupported ((n.quoted? ctx).getD "prototype access") := by
  rw [prototypeFault?_eq, Option.map_eq_some_iff] at h
  obtain ⟨span, hspan, rfl⟩ := h
  rw [quoted?, hspan, Option.bind_some]
  rfl

theorem hasBreak_message {d : Diagnostic} (h : n.prototypeFault? ctx = some d) :
    hasBreak d.message = (n.quoted? ctx).any hasBreak := by
  have hdot : hasBreak " is not supported." = false := by decide
  have hdefault : hasBreak "prototype access" = false := by decide
  rw [message_of_prototypeFault? ctx n h, notSupported, hasBreak_append, hdot, Bool.or_false]
  cases n.quoted? ctx with
  | none => exact hdefault
  | some t => rfl

end Node

def newlines (s : String) : Nat := s.toList.count '\n'

theorem newlines_append (s t : String) : newlines (s ++ t) = newlines s + newlines t := by
  simp [newlines]

theorem newlines_join (ss : List String) : newlines (String.join ss) = (ss.map newlines).sum := by
  induction ss with
  | nil => rfl
  | cons s ss ih => rw [String.join_cons, newlines_append, ih, List.map_cons, List.sum_cons]

theorem IsLine.newlines {s : String} (h : IsLine s) : newlines s = 0 := by
  refine List.count_eq_zero.mpr fun hmem => ?_
  have hbreak : hasBreak s = true := List.any_eq_true.mpr ⟨'\n', hmem, rfl⟩
  exact absurd (h.symm.trans hbreak) (by decide)

theorem newlines_natText (n : Nat) : newlines (toString n) = 0 := by
  refine List.count_eq_zero.mpr fun hmem => ?_
  have hdigit := digits_isDigit n '\n' (by simpa using hmem)
  exact absurd hdigit (by decide)

theorem newlines_notSupported (what : String) : newlines (notSupported what) = newlines what := by
  have hdot : newlines " is not supported." = 0 := by decide
  rw [notSupported, newlines_append, hdot, Nat.add_zero]

theorem Location.newlines_text (l : Location) : newlines l.text = newlines l.file := by
  have hcolon : newlines ":" = 0 := by decide
  simp only [Location.text, newlines_append, newlines_natText, hcolon, Nat.add_zero]

theorem SourceCache.newlines_location {cache : SourceCache}
    (hpaths : ∀ f ∈ cache.files, IsLine f.path.text) (r : Region) :
    ∀ l ∈ cache.location? r, newlines l.text = 0 := by
  intro l hl
  obtain ⟨f, hf, rfl⟩ := Option.map_eq_some_iff.mp hl
  have hmem : f ∈ cache.files := by
    unfold SourceCache.regionFile? at hf
    split at hf
    · cases hf
    · exact List.mem_of_getElem? hf
  rw [Location.newlines_text]
  exact (hpaths f hmem).newlines

/-- A report takes a line, and one more for each newline in its message. -/
theorem Simple.newlines_diagnostic {cache : SourceCache}
    (hpaths : ∀ f ∈ cache.files, IsLine f.path.text) (d : Diagnostic) :
    newlines (Simple.diagnostic cache d) = newlines d.message + 1 := by
  have hplace := SourceCache.newlines_location hpaths d.region
  have hseverity : newlines d.severity.text = 0 := by cases d.severity <;> decide
  have hcode : newlines d.code.text = 0 := by cases d.code <;> decide
  have hempty : newlines "" = 0 := by decide
  have hcolon : newlines ": " = 0 := by decide
  have hopen : newlines " [" = 0 := by decide
  have hclose : newlines "]\n" = 1 := by decide
  unfold Simple.diagnostic
  cases hl : cache.location? d.region with
  | none =>
    simp only [newlines_append, hempty, hseverity, hcode, hcolon, hopen, hclose]
    omega
  | some l =>
    simp only [newlines_append, hplace l hl, hseverity, hcode, hcolon, hopen, hclose]
    omega

theorem Format.newlines_simple {cache : SourceCache}
    (hpaths : ∀ f ∈ cache.files, IsLine f.path.text) (ds : List Diagnostic) :
    newlines (Format.simple.diagnostics cache ds) =
      ds.length + (ds.map fun d => newlines d.message).sum := by
  rw [Format.diagnostics, newlines_join]
  induction ds with
  | nil => rfl
  | cons d ds ih =>
    have hd : newlines (Format.simple.diagnostic cache d) = newlines d.message + 1 :=
      Simple.newlines_diagnostic hpaths d
    simp only [List.map_cons, List.sum_cons, List.length_cons, ih, hd]
    omega

/-- Messages without breaks add nothing. -/
theorem sum_newlines_filter (ds : List Diagnostic) :
    ((ds.filter (hasBreak ·.message)).map fun d => newlines d.message).sum =
      (ds.map fun d => newlines d.message).sum := by
  induction ds with
  | nil => rfl
  | cons d ds ih =>
    cases hd : hasBreak d.message with
    | true => simp [hd, ih]
    | false => simp [hd, IsLine.newlines hd, ih]

theorem broken_reports (ctx : Context) (ns : List Node) :
    (ns.filterMap fun n => if !n.bypassesRule ctx then n.prototypeFault? ctx else none).filter
        (hasBreak ·.message) =
      (ns.filter (Node.isBroken ctx)).filterMap (Node.prototypeFault? ctx) := by
  induction ns with
  | nil => rfl
  | cons n ns ih =>
    rw [List.filterMap_cons, List.filter_cons, Node.isBroken]
    cases hb : n.bypassesRule ctx with
    | true => exact ih
    | false =>
      cases hf : n.prototypeFault? ctx with
      | none => simpa [n.quoted?_of_prototypeFault?_none ctx hf] using ih
      | some d =>
        have hbreak := n.hasBreak_message ctx hf
        cases hd : hasBreak d.message with
        | true => simpa [hf, hd, ← hbreak] using ih
        | false => simpa [hd, ← hbreak] using ih

theorem newlines_broken (ctx : Context) (ns : List Node) :
    ((ns.filterMap (Node.prototypeFault? ctx)).map fun d => newlines d.message).sum =
      (ns.map fun n => newlines ((n.quoted? ctx).getD "")).sum := by
  induction ns with
  | nil => rfl
  | cons n ns ih =>
    cases hf : n.prototypeFault? ctx with
    | none =>
      have hq := n.quoted?_of_prototypeFault?_none ctx hf
      have hempty : newlines "" = 0 := rfl
      simp [hf, hq, ih, hempty]
    | some d =>
      have hm := n.message_of_prototypeFault? ctx hf
      have hdefault : newlines "prototype access" = newlines "" := by decide
      have hd : newlines d.message = newlines ((n.quoted? ctx).getD "") := by
        rw [hm, newlines_notSupported]
        cases n.quoted? ctx with
        | none => exact hdefault
        | some t => rfl
      simp [hf, hd, ih]

/-- In a module whose names have no line breaks, the messages with a line break are those on the
accesses to `prototype` that the source breaks over lines. With these exceptions each report takes
one line. -/
theorem messages_break_at_broken_accesses (isInstance : Expr → Bool) (options : Options)
    {source : Source} {m : Module} (hs : source.Spells m) (hn : ∀ id ∈ m.accesses, IsLine id.name) :
    let ctx : Context := .ofModule source isInstance 1 m
    let diagnostics := (transpileWith isInstance 1 options source m).diagnostics
    let broken := (m.sites ctx).printed.filter (Node.isBroken ctx)
    (diagnostics.filter (hasBreak ·.message)).Perm
        (broken.filterMap (Node.prototypeFault? ctx)) ∧
      ∀ cache : SourceCache, (∀ f ∈ cache.files, IsLine f.path.text) →
        newlines (Format.simple.diagnostics cache diagnostics) =
          diagnostics.length + (broken.map fun n => newlines ((n.quoted? ctx).getD "")).sum := by
  intro ctx diagnostics broken
  have hnames : ∀ id ∈ m.accesses, IsLine (ctx.nameText id) := by
    intro id hid
    rw [hs.nameText isInstance 1 hid]
    exact hn id hid
  have hother : ∀ d ∈ diagnostics, hasBreak d.message = true → d.code = .prototypeAccess := by
    intro d hd hbreak
    have hfault := transpileWith_faults isInstance 1 options source m d hd
    by_contra hcode
    have hline : hasBreak d.message = false := hfault.isLine hnames hcode
    rw [hline] at hbreak
    cases hbreak
  have hperm : (diagnostics.filter (hasBreak ·.message)).Perm
      (broken.filterMap (Node.prototypeFault? ctx)) := by
    have hreports := transpileWith_reports isInstance options source m rfl
      (Node.reports_prototype ctx)
    have hbroken := hreports.filter (hasBreak ·.message)
    rw [broken_reports, List.filter_filter] at hbroken
    refine .trans (.of_eq (List.filter_congr ?_)) hbroken
    intro d hd
    cases hbreak : hasBreak d.message with
    | true => simp [hother d hd hbreak]
    | false => rfl
  refine ⟨hperm, fun cache hpaths => ?_⟩
  rw [Format.newlines_simple hpaths, ← sum_newlines_filter, (hperm.map _).sum_nat, newlines_broken]

/-- `o\n.prototype;` and `o.prototype;`: the first access is quoted with its line break, and the two
reports take three lines. -/
theorem messages_break_at_broken_accesses_prototype :
    let access (start dot name stop : Nat) : ModuleItem :=
      .stmt (.expr ⟨start, stop + 1⟩ (.member ⟨start, stop⟩ (.ident ⟨"o", ⟨start, dot⟩⟩)
        (.name ⟨"prototype", ⟨name, stop⟩⟩)))
    let m : Module := [access 1 2 4 13, access 15 16 17 26]
    let source : Source := ⟨"o\n.prototype;\no.prototype;", 0, 1⟩
    let cache : SourceCache := (SourceCache.empty.add ⟨"a.ts"⟩ source.text).1
    let diagnostics := (transpileWith (fun _ => false) 1 .default source m).diagnostics
    source.Spells m ∧ (∀ id ∈ m.accesses, IsLine id.name) ∧
      (diagnostics.filter (hasBreak ·.message)).Perm
        [.error .prototypeAccess ⟨0, 0, 12⟩ "o\n.prototype is not supported."] ∧
      diagnostics.length = 2 ∧ newlines (Format.simple.diagnostics cache diagnostics) = 3 := by
  intro access m source cache diagnostics
  have hs : source.Spells m := by decide
  have hn : ∀ id ∈ m.accesses, IsLine id.name := by decide
  have hpaths : ∀ f ∈ cache.files, IsLine f.path.text := by decide
  let ctx : Context := .ofModule source (fun _ => false) 1 m
  let broken := (m.sites ctx).printed.filter (Node.isBroken ctx)
  have hfaults : broken.filterMap (Node.prototypeFault? ctx) =
      [.error .prototypeAccess ⟨0, 0, 12⟩ "o\n.prototype is not supported."] := by decide
  have hquoted : (broken.map fun n => newlines ((n.quoted? ctx).getD "")).sum = 1 := by decide
  have hlength : diagnostics.length = 2 := by decide
  obtain ⟨hperm, hlines⟩ := messages_break_at_broken_accesses (fun _ => false) .default hs hn
  refine ⟨hs, hn, ?_, hlength, ?_⟩
  · rw [← hfaults]
    exact hperm
  · have hcount := hlines cache hpaths
    rwa [hquoted, hlength] at hcount

/-- `o\n.prototype;` alone: the message takes two lines. -/
theorem message_of_broken_access :
    let m : Module := [.stmt (.expr ⟨1, 14⟩ (.member ⟨1, 13⟩ (.ident ⟨"o", ⟨1, 2⟩⟩)
      (.name ⟨"prototype", ⟨4, 13⟩⟩)))]
    let source : Source := ⟨"o\n.prototype;", 0, 1⟩
    source.Spells m ∧ (∀ id ∈ m.accesses, IsLine id.name) ∧
      transpile .default source m =
        ⟨"<?php\n\n$o[\"prototype\"];\n",
          [.error .prototypeAccess ⟨0, 0, 12⟩ "o\n.prototype is not supported."]⟩ ∧
      ¬IsLine "o\n.prototype is not supported." := by
  exact ⟨by decide, by decide, rfl, by decide⟩

end TsToPhp
