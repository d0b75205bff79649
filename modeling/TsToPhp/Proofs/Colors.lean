import TsToPhp.Diagnostic.Render
import TsToPhp.Proofs.Numerals
import TsToPhp.Proofs.Utf8

/-! Colours on a terminal. A coloured text is read as marks, which are the control sequences and the
characters between them. Without the control sequences the coloured reports are the plain ones, and
no colour is left on at the end of a line. -/

namespace TsToPhp.Terminal

def escape : Char := '\x1b'

/-- The digits of the control sequence that a text begins with. -/
def sequence? : List Char → Option (List Char)
  | e :: '[' :: cs =>
    let digits := cs.takeWhile Char.isDigit
    if e = escape ∧ digits ≠ [] ∧ cs[digits.length]? = some 'm' then some digits else none
  | _ => none

inductive Mark where
  /-- A control sequence with its digits. -/
  | paint (digits : List Char)
  | shown (c : Char)
  deriving DecidableEq, Repr

namespace Mark

def shown? : Mark → Option Char
  | paint _ => none
  | shown c => some c

/-- Ends all colours. -/
def reset : Mark := paint ['0']

/-- Whether a colour is on behind a mark. A line does not end while a colour is on. -/
def step (on : Bool) : Mark → Option Bool
  | paint digits => some (digits != ['0'])
  | shown c => if on && c == '\n' then none else some on

/-- Whether a colour is on behind marks. -/
def run (on : Bool) (marks : List Mark) : Option Bool := marks.foldlM step on

end Mark

/-- The marks of a text behind the first characters, which are skipped. -/
def marksBehind : Nat → List Char → List Mark
  | _, [] => []
  | n + 1, _ :: cs => marksBehind n cs
  | 0, c :: cs =>
    match sequence? (c :: cs) with
    | some digits => .paint digits :: marksBehind (digits.length + 2) cs
    | none => .shown c :: marksBehind 0 cs

def marks (s : String) : List Mark := marksBehind 0 s.toList

/-- A text without its control sequences. -/
def uncolored (s : String) : String := .ofList ((marks s).filterMap Mark.shown?)

theorem marksBehind_append (cs ds : List Char) :
    marksBehind cs.length (cs ++ ds) = marksBehind 0 ds := by
  induction cs with
  | nil => rfl
  | cons c cs ih => exact ih

theorem marksBehind_shown {c : Char} (h : c ≠ escape) (cs : List Char) :
    marksBehind 0 (c :: cs) = .shown c :: marksBehind 0 cs := by
  have hnone : sequence? (c :: cs) = none := by
    cases cs with
    | nil => rfl
    | cons d cs =>
      unfold sequence?
      split
      · next heq =>
        obtain ⟨rfl, -⟩ := List.cons.inj heq
        exact if_neg fun hseq => h hseq.1
      · rfl
  rw [marksBehind, hnone]

theorem marksBehind_plain {cs : List Char} (h : escape ∉ cs) (ds : List Char) :
    marksBehind 0 (cs ++ ds) = cs.map .shown ++ marksBehind 0 ds := by
  induction cs with
  | nil => rfl
  | cons c cs ih =>
    obtain ⟨hc, hcs⟩ := not_or.mp (mt List.mem_cons.mpr h)
    rw [List.cons_append, marksBehind_shown (Ne.symm hc), ih hcs]
    rfl

theorem marksBehind_paint {digits : List Char} (hne : digits ≠ [])
    (hdigits : ∀ c ∈ digits, c.isDigit) (cs : List Char) :
    marksBehind 0 (escape :: '[' :: (digits ++ 'm' :: cs)) =
      .paint digits :: marksBehind 0 cs := by
  have hwhile : (digits ++ 'm' :: cs).takeWhile Char.isDigit = digits := by
    rw [List.takeWhile_append_of_pos hdigits]
    simp [show 'm'.isDigit = false from rfl]
  have hsequence : sequence? (escape :: '[' :: (digits ++ 'm' :: cs)) = some digits := by
    simp [sequence?, hwhile, hne]
  have hskip := marksBehind_append ('[' :: (digits ++ ['m'])) cs
  rw [marksBehind, hsequence]
  simpa using hskip

/-- The first text is the second with colours put in, whatever follows. A colour may be on in front
of it and behind it, but not where a line ends. -/
def Colors (on off : Bool) (colored plain : String) : Prop :=
  ∃ ms, (∀ rest, marksBehind 0 (colored.toList ++ rest) = ms ++ marksBehind 0 rest) ∧
    ms.filterMap Mark.shown? = plain.toList ∧ Mark.run on ms = some off

namespace Colors

variable {on off last : Bool} {s t s' t' : String}

theorem append (h : Colors on off s t) (h' : Colors off last s' t') :
    Colors on last (s ++ s') (t ++ t') := by
  obtain ⟨ms, hmarks, hshown, hrun⟩ := h
  obtain ⟨ms', hmarks', hshown', hrun'⟩ := h'
  refine ⟨ms ++ ms', fun rest => ?_, ?_, ?_⟩
  · rw [String.toList_append, List.append_assoc, hmarks, hmarks', List.append_assoc]
  · rw [List.filterMap_append, hshown, hshown', String.toList_append]
  · rw [Mark.run, List.foldlM_append]
    change (Mark.run on ms).bind (Mark.run · ms') = _
    rw [hrun, Option.bind_some, hrun']

theorem run_shown {cs : List Char} (h : on = true → '\n' ∉ cs) :
    Mark.run on (cs.map .shown) = some on := by
  induction cs with
  | nil => rfl
  | cons c cs ih =>
    have hstep : Mark.step on (.shown c) = some on := by
      cases on with
      | false => rfl
      | true =>
        have hc : c ≠ '\n' := fun hc => h rfl (hc ▸ List.mem_cons_self)
        simp [Mark.step, hc]
    rw [List.map_cons, Mark.run, List.foldlM_cons, hstep]
    exact ih fun hon hmem => h hon (List.mem_cons_of_mem _ hmem)

/-- What has no control sequences is the same in both. -/
theorem text (hs : escape ∉ s.toList) (hline : on = true → '\n' ∉ s.toList) :
    Colors on on s s :=
  ⟨s.toList.map .shown, marksBehind_plain hs, by simp [List.filterMap_map, Function.comp_def,
    Mark.shown?], run_shown hline⟩

theorem plain (hs : escape ∉ s.toList) : Colors false false s s := text hs nofun

theorem nothing : Colors on on "" "" := text List.not_mem_nil fun _ => List.not_mem_nil

theorem blank : Colors on on " " " " := text (by decide) fun _ => by decide

theorem newline : Colors false false "\n" "\n" := plain (by decide)

theorem paint {code : String} (hne : code.toList ≠ []) (hdigits : code.toList.all Char.isDigit) :
    Colors on (code.toList != ['0']) (paint true code) (paint false code) := by
  refine ⟨[.paint code.toList], fun rest => ?_, rfl, rfl⟩
  simpa [Terminal.paint, escape] using
    marksBehind_paint hne (List.all_eq_true.mp hdigits) rest

theorem bold : Colors on true (bold true) (bold false) := paint (by decide) (by decide)

theorem cyan : Colors on true (cyan true) (cyan false) := paint (by decide) (by decide)

theorem reset : Colors on false (reset true) (reset false) := paint (by decide) (by decide)

theorem severity (severity : Severity) :
    Colors on true (severityColor true severity) (severityColor false severity) := by
  cases severity <;> exact paint (by decide) (by decide)

theorem number (n : Nat) : Colors on on (toString n) (toString n) := by
  have hdigit (c : Char) (hc : c.isDigit = false) : c ∉ (toString n).toList := fun hmem =>
    absurd (digits_isDigit n c (by simpa using hmem)) (by simp [hc])
  exact text (hdigit _ rfl) fun _ => hdigit _ rfl

theorem repeated (n : Nat) {c : Char} (hescape : c ≠ escape) (hline : c ≠ '\n') :
    Colors on on (repeated n c) (repeated n c) := by
  have hmem (d : Char) (hd : c ≠ d) : d ∉ (Terminal.repeated n c).toList := by
    rw [Terminal.repeated, String.toList_ofList]
    exact fun h => hd (List.eq_of_mem_replicate h).symm
  exact text (hmem _ hescape) fun _ => hmem _ hline

theorem join {α : Type} {f g : α → String} {xs : List α}
    (h : ∀ x ∈ xs, Colors on on (f x) (g x)) :
    Colors on on (String.join (xs.map f)) (String.join (xs.map g)) := by
  induction xs with
  | nil => exact nothing
  | cons x xs ih =>
    rw [List.map_cons, List.map_cons, String.join_cons, String.join_cons]
    exact (h x List.mem_cons_self).append (ih fun y hy => h y (List.mem_cons_of_mem _ hy))

end Colors

theorem Colors.severityText {on : Bool} (severity : Severity) :
    Colors on on severity.text severity.text := by
  cases severity <;> exact text (by decide) fun _ => by decide

theorem Colors.codeText {on : Bool} (code : Code) : Colors on on code.text code.text := by
  cases code <;> exact text (by decide) fun _ => by decide

theorem headline_colors {d : Diagnostic} (hmessage : escape ∉ d.message.toList) :
    Colors false false (headline true d) (headline false d) := by
  have hopen : Colors true true "[" "[" := .text (by decide) fun _ => by decide
  have hclose : Colors true true "]" "]" := .text (by decide) fun _ => by decide
  have hcolon : Colors false false ": " ": " := .plain (by decide)
  unfold headline
  exact Colors.bold.append (.severity _) |>.append (.severityText _) |>.append hopen
    |>.append (.codeText _) |>.append hclose |>.append .reset |>.append hcolon
    |>.append (.plain hmessage) |>.append .newline

theorem snippet_colors (d : Diagnostic) (l : Location) {line : String}
    (hline : escape ∉ line.toList) :
    Colors false false (snippet true d l line) (snippet false d l line) := by
  have hbar : Colors true true "|" "|" := .text (by decide) fun _ => by decide
  have hgutter : Colors true true " |" " |" := .text (by decide) fun _ => by decide
  have hblanks (n : Nat) : Colors false false (repeated n ' ') (repeated n ' ') :=
    .repeated n (by decide) (by decide)
  have hcarets (n : Nat) : Colors true true (repeated n '^') (repeated n '^') :=
    .repeated n (by decide) (by decide)
  unfold snippet
  exact (hblanks _).append .blank |>.append .cyan |>.append hbar |>.append .reset |>.append .newline
    |>.append .cyan |>.append (.number _) |>.append hgutter |>.append .reset |>.append .blank
    |>.append (.plain hline) |>.append .newline
    |>.append (hblanks _) |>.append .blank |>.append .cyan |>.append hbar |>.append .reset
    |>.append .blank |>.append (hblanks _) |>.append (.severity _) |>.append (hcarets _)
    |>.append .reset |>.append .newline

theorem mem_of_lineText? {f : SourceFile} {n : Nat} {line : String} (h : f.lineText? n = some line)
    {c : Char} (hc : c ∈ line.toList) : c ∈ f.text.toList := by
  cases n with
  | zero => cases h
  | succ n =>
    obtain ⟨start, -, h⟩ := Option.bind_eq_some_iff.mp h
    obtain ⟨text, htext, h⟩ := Option.bind_eq_some_iff.mp h
    obtain ⟨before, after, hsplit, -⟩ := Bytes.slice?_eq_some_iff.mp htext
    obtain rfl := Option.some.inj h
    rw [String.toList_ofList, List.mem_reverse] at hc
    have hmem : c ∈ text.toList :=
      List.mem_reverse.mp ((List.dropWhile_sublist _).mem hc)
    rw [hsplit]
    simp [hmem]

theorem location_colors {l : Location} (h : escape ∉ l.file.toList) :
    Colors false false l.text l.text := by
  have hcolon : Colors false false ":" ":" := .plain (by decide)
  exact (Colors.plain h).append hcolon |>.append (.number _) |>.append hcolon
    |>.append (.number _)

theorem diagnostic_colors {c : SourceCache} {d : Diagnostic}
    (hfiles : ∀ f ∈ c.files, escape ∉ f.path.text.toList ∧ escape ∉ f.text.toList)
    (hmessage : escape ∉ d.message.toList) (hhelp : ∀ help ∈ d.help, escape ∉ help.toList) :
    Colors false false (diagnostic true c d) (diagnostic false c d) := by
  have hblanks : Colors false false "  " "  " := .plain (by decide)
  have harrow : Colors true true "-->" "-->" := .text (by decide) fun _ => by decide
  have hword : Colors true true "= help:" "= help:" := .text (by decide) fun _ => by decide
  -- No colour is on between the branches of a report. The goals left open for them do not tell that.
  have happend {s t s' t' : String} (h : Colors false false s t) (h' : Colors false false s' t') :
      Colors false false (s ++ s') (t ++ t') := h.append h'
  unfold diagnostic
  refine happend (happend (happend (headline_colors hmessage) ?_) ?_) .newline
  · cases hl : c.location? d.region with
    | none => exact .nothing
    | some l =>
      obtain ⟨-, f, hf, hlf⟩ := SourceCache.location?_eq_some_iff.mp hl
      obtain ⟨hpath, htext⟩ := hfiles f (List.mem_of_getElem? hf)
      have hplace : Colors false false l.text l.text := location_colors (hlf ▸ hpath)
      rw [hf]
      dsimp only [Option.bind_some]
      refine happend (hblanks.append .cyan |>.append harrow |>.append .reset |>.append .blank
        |>.append hplace |>.append .newline) ?_
      split
      · next line hline => exact snippet_colors d _ fun hmem => htext (mem_of_lineText? hline hmem)
      · exact .nothing
  · cases hd : d.help with
    | none => exact .nothing
    | some help =>
      exact hblanks.append .cyan |>.append hword |>.append .reset |>.append .blank
        |>.append (.plain (hhelp help hd)) |>.append .newline

theorem counted_colors (n : Nat) {what : String} (hwhat : ∀ {on}, Colors on on what what) :
    ∀ s ∈ counted n what, Colors true true s s := by
  intro s hs
  unfold counted at hs
  split at hs
  · cases hs
  · obtain rfl := List.mem_singleton.mp hs
    refine (Colors.number n).append .blank |>.append hwhat |>.append ?_
    split <;> exact .text (by decide) fun _ => by decide

theorem Colors.intercalate {on : Bool} {sep : String} (hsep : Colors on on sep sep)
    {parts : List String} (h : ∀ s ∈ parts, Colors on on s s) :
    Colors on on (sep.intercalate parts) (sep.intercalate parts) := by
  induction parts with
  | nil => exact nothing
  | cons s parts ih =>
    obtain ⟨hs, hparts⟩ := List.forall_mem_cons.mp h
    cases parts with
    | nil => exact hs
    | cons t parts =>
      rw [String.intercalate_cons_cons]
      exact (hs.append hsep).append (ih hparts)

theorem summary_colors (ds : List Diagnostic) :
    Colors false false (summary true ds) (summary false ds) := by
  have hand : Colors true true " and " " and " := .text (by decide) fun _ => by decide
  have hemitted : Colors true true " emitted" " emitted" := .text (by decide) fun _ => by decide
  have hwhat {what : String} (hescape : escape ∉ what.toList) (hline : '\n' ∉ what.toList)
      {on : Bool} : Colors on on what what := .text hescape fun _ => hline
  have hcounts : ∀ s ∈ counted (Diagnostic.errorCount ds) "error" ++
      counted (Diagnostic.warningCount ds) "warning", Colors true true s s :=
    List.forall_mem_append.mpr ⟨counted_colors _ (hwhat (by decide) (by decide)),
      counted_colors _ (hwhat (by decide) (by decide))⟩
  unfold summary
  dsimp only
  split
  · exact .nothing
  · exact (Colors.severity _).append (.intercalate hand hcounts) |>.append hemitted
      |>.append .reset |>.append .newline

/-- A colour that is on goes off before the line ends. -/
theorem Mark.reset_mem_of_run {ms : List Mark} (h : run true ms = some false) :
    reset ∈ ms.takeWhile (· ≠ .shown '\n') := by
  induction ms with
  | nil => cases h
  | cons m ms ih =>
    rw [run, List.foldlM_cons] at h
    cases m with
    | paint digits =>
      rw [List.takeWhile_cons_of_pos (by simp)]
      by_cases hdigits : digits = ['0']
      · exact hdigits ▸ List.mem_cons_self
      · have hon : step true (.paint digits) = some true := by simp [step, hdigits]
        rw [hon] at h
        exact List.mem_cons_of_mem _ (ih h)
    | shown c =>
      by_cases hc : c = '\n'
      · subst hc
        cases h
      · have hon : step true (.shown c) = some true := by simp [step, hc]
        rw [List.takeWhile_cons_of_pos (by simpa using hc)]
        rw [hon] at h
        exact List.mem_cons_of_mem _ (ih h)

theorem Colors.marks_shown {on off : Bool} {colored plain : String} (h : Colors on off colored plain) :
    (marks colored).filterMap Mark.shown? = plain.toList ∧
      Mark.run on (marks colored) = some off := by
  obtain ⟨ms, hmarks, hshown, hrun⟩ := h
  have hms := hmarks []
  simp only [List.append_nil, marksBehind] at hms
  rw [marks, hms]
  exact ⟨hshown, hrun⟩

theorem Colors.uncolored_eq {on off : Bool} {colored plain : String}
    (h : Colors on off colored plain) : uncolored colored = plain := by
  rw [uncolored, h.marks_shown.1, String.ofList_toList]

theorem Colors.reset_mem {on : Bool} {colored plain : String} (h : Colors on false colored plain)
    {before after : List Mark} {digits : List Char}
    (hsplit : marks colored = before ++ .paint digits :: after) (hdigits : digits ≠ ['0']) :
    Mark.reset ∈ after.takeWhile (· ≠ .shown '\n') := by
  have hrun := h.marks_shown.2
  rw [hsplit, Mark.run, List.foldlM_append] at hrun
  obtain ⟨mid, -, hrest⟩ := Option.bind_eq_some_iff.mp hrun
  rw [List.foldlM_cons] at hrest
  have hon : Mark.step mid (.paint digits) = some true := by simp [Mark.step, hdigits]
  rw [hon] at hrest
  exact Mark.reset_mem_of_run hrest

/-- Colours are all that a coloured rendering adds: without its control sequences it is the plain
rendering, and every colour is reset before its line ends. -/
theorem colors_only_added {cache : SourceCache} {ds : List Diagnostic}
    (hfiles : ∀ f ∈ cache.files, escape ∉ f.path.text.toList ∧ escape ∉ f.text.toList)
    (hds : ∀ d ∈ ds, escape ∉ d.message.toList ∧ ∀ help ∈ d.help, escape ∉ help.toList) :
    let rendered (colored : Bool) :=
      (Format.terminal colored).diagnostics cache ds ++ (Format.terminal colored).summary ds
    uncolored (rendered true) = rendered false ∧
      ∀ before digits after, marks (rendered true) = before ++ .paint digits :: after →
        digits ≠ ['0'] → Mark.reset ∈ after.takeWhile (· ≠ .shown '\n') := by
  intro rendered
  have hcolors : Colors false false (rendered true) (rendered false) :=
    (Colors.join fun d hd => diagnostic_colors hfiles (hds d hd).1 (hds d hd).2).append
      (summary_colors ds)
  exact ⟨hcolors.uncolored_eq, fun before digits after hsplit hdigits =>
    hcolors.reset_mem hsplit hdigits⟩

/-- A report with its place and its help. -/
theorem colors_only_added_prototype :
    let cache : SourceCache := (SourceCache.empty.add ⟨"a.ts"⟩ "o.prototype;").1
    let ds : List Diagnostic :=
      [(Diagnostic.error .prototypeAccess ⟨0, 0, 11⟩ "o.prototype is not supported.").withHelp
        "write a class"]
    let rendered (colored : Bool) :=
      (Format.terminal colored).diagnostics cache ds ++ (Format.terminal colored).summary ds
    (∀ f ∈ cache.files, escape ∉ f.path.text.toList ∧ escape ∉ f.text.toList) ∧
      (∀ d ∈ ds, escape ∉ d.message.toList ∧ ∀ help ∈ d.help, escape ∉ help.toList) ∧
      .paint ['3', '1'] ∈ marks (rendered true) ∧
      uncolored (rendered true) =
        "error[U102]: o.prototype is not supported.\n  --> a.ts:1:1\n  |\n1 | o.prototype;\n" ++
        "  | ^^^^^^^^^^^\n  = help: write a class\n\n1 error emitted\n" := by
  intro cache ds rendered
  have hfiles : ∀ f ∈ cache.files, escape ∉ f.path.text.toList ∧ escape ∉ f.text.toList := by
    decide
  have hds : ∀ d ∈ ds, escape ∉ d.message.toList ∧ ∀ help ∈ d.help, escape ∉ help.toList := by
    decide
  refine ⟨hfiles, hds, by decide +kernel, ?_⟩
  exact (colors_only_added hfiles hds).1.trans (by decide +kernel)

end TsToPhp.Terminal
