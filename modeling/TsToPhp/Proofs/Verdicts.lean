import Mathlib.Algebra.GroupWithZero.Nat
import TsToPhp.Command.Run
import TsToPhp.Proofs.Collected
import TsToPhp.Proofs.Options
import TsToPhp.Proofs.Wrappers

/-! The verdict of a check. A check gives every file its own number and its own settings, and adds
up what is reported; but no report depends on the options or on the number of the file, other than
where it points. -/

namespace TsToPhp

theorem transpileWith_diagnostics (isInstance : Expr → Bool) (ruleCopies : Nat) (options : Options)
    (source : Source) (m : Module) :
    (transpileWith isInstance ruleCopies options source m).diagnostics =
      (emitModule (.ofModule source isInstance ruleCopies m) m).diagnostics := by
  have hheader := header_diagnostics options
  simp only [Pieces.diagnostics] at hheader
  simp [transpileWith, Pieces.printed, Pieces.diagnostics, hheader]

/-- The number of a file is only told by where reports point. -/
theorem Context.follows_file (isInstance : Expr → Bool) (ruleCopies file file' start : Nat)
    (text : String) (m : Module) :
    Context.Follows (some ∘ Diagnostic.unplaced) (.nothing m.classNames.contains)
      (.ofModule ⟨text, file, start⟩ isInstance ruleCopies m)
      (.ofModule ⟨text, file', start⟩ isInstance ruleCopies m) where
  isInstance seat e := by rw [e.edit_nothing]; rfl
  isClass := rfl
  classes := rfl
  ruleCopies := rfl
  place _ _ := rfl
  base e d := by rw [e.edit_nothing]; rfl
  access _ _ := rfl

theorem transpile_unplaced (options options' : Options) (text : String) (file file' start : Nat)
    (m : Module) : (transpile options ⟨text, file, start⟩ m).diagnostics.map Diagnostic.unplaced =
      (transpile options' ⟨text, file', start⟩ m).diagnostics.map Diagnostic.unplaced := by
  have hfollow := Context.follows_file (ClassIndex.ofModule m).isInstance 1 file' file start text m
  have hrun := (printed_edit hfollow (m := m) (fun _ _ => rfl) options).2
  rw [m.edit_nothing] at hrun
  simp only [List.filterMap_eq_map] at hrun
  unfold transpile
  rw [transpileWith_diagnostics _ _ options', ← transpileWith_diagnostics _ _ options]
  exact hrun

section

variable [ModuleParser]

/-- Up to places, the reports on a file are told by its text. -/
theorem transpileFile_unplaced (options options' : Options) (cache cache' : SourceCache)
    (path path' : Path) (text : String) :
    (transpileFile options cache path text).2.diagnostics.map Diagnostic.unplaced =
      (transpileFile options' cache' path' text).2.diagnostics.map Diagnostic.unplaced := by
  unfold transpileFile SourceModule.read
  cases ModuleParser.parse text with
  | error e => rfl
  | ok reading =>
    have hrun := transpile_unplaced options options' text (cache.add path text).2
      (cache'.add path' text).2 ModuleParser.start reading.module
    simp only [List.map_append, List.map_map, hrun]
    rfl

/-- A text that cannot be read is reported as an error. -/
theorem hasErrors_of_php_none (options : Options) (cache : SourceCache) (path : Path)
    (text : String) (h : (transpileFile options cache path text).2.php = none) :
    Diagnostic.hasErrors (transpileFile options cache path text).2.diagnostics = true := by
  unfold transpileFile SourceModule.read at h ⊢
  cases hread : ModuleParser.parse text with
  | error e => rfl
  | ok reading => simp [hread] at h

end

theorem errorCount_unplaced (ds : List Diagnostic) :
    Diagnostic.errorCount (ds.map Diagnostic.unplaced) = Diagnostic.errorCount ds :=
  List.countP_map

theorem warningCount_unplaced (ds : List Diagnostic) :
    Diagnostic.warningCount (ds.map Diagnostic.unplaced) = Diagnostic.warningCount ds :=
  List.countP_map

/-- A single report decides on failure. -/
theorem isFailure_eq_any (strict : Bool) (ds : List Diagnostic) :
    isFailure strict ds = ds.any fun d => d.isError || (strict && d.isWarning) := by
  rw [Bool.eq_iff_iff]
  simp only [isFailure, Diagnostic.hasErrors, Diagnostic.warningCount, Bool.or_eq_true,
    Bool.and_eq_true, decide_eq_true_eq, List.countP_pos_iff, List.any_eq_true]
  constructor
  · rintro (⟨d, hd, herror⟩ | ⟨hstrict, d, hd, hwarning⟩)
    · exact ⟨d, hd, .inl herror⟩
    · exact ⟨d, hd, .inr ⟨hstrict, hwarning⟩⟩
  · rintro ⟨d, hd, herror | ⟨hstrict, hwarning⟩⟩
    · exact .inl ⟨d, hd, herror⟩
    · exact .inr ⟨hstrict, d, hd, hwarning⟩

theorem isFailure_unplaced (strict : Bool) (ds : List Diagnostic) :
    isFailure strict (ds.map Diagnostic.unplaced) = isFailure strict ds := by
  rw [isFailure_eq_any, isFailure_eq_any, List.any_map]
  rfl

namespace Outcome

theorem status_eq_one {o : Outcome} : o.status = 1 ↔ o.failure.isSome = true := by
  unfold status
  split <;> simp_all

@[simp] theorem failure_after (out err : String) (o : Outcome) :
    (o.after out err).failure = o.failure := rfl

@[simp] theorem failure_withDiagnostics (output : Output) (cache : SourceCache)
    (ds : List Diagnostic) (o : Outcome) :
    (o.withDiagnostics output cache ds).failure = o.failure := by
  unfold withDiagnostics
  cases output.diagnosticFormat <;> rfl

end Outcome

namespace TranspileArguments

/-- The options that a call is to use: what is given with it, else what the settings say. An empty namespace
is none, and helpers are looked up from the root. -/
def effective (a : TranspileArguments) (settings : Settings) : Options where
  «namespace» :=
    match a.namespace, settings.namespace with
    | some given, _ => if given = "" then none else some given
    | none, some set => if set = "" then none else some set
    | none, none => none
  helperNamespace :=
    match a.helperNamespace, settings.helperNamespace with
    | some given, _ => given
    | none, some set => set
    | none, none => "\\"

theorem options_eq (a : TranspileArguments) (settings : Settings) :
    settings.options a.namespace a.helperNamespace = a.effective settings := by
  unfold Settings.options effective
  congr 1
  · cases a.namespace with
    | some given => by_cases h : given = "" <;> simp [Option.filter, h]
    | none =>
      cases settings.namespace with
      | some set => by_cases h : set = "" <;> simp [Option.filter, h]
      | none => rfl
  · cases a.helperNamespace <;> cases settings.helperNamespace <;> rfl

variable [ModuleParser] [SettingsParser]

/-- The reports that a call shows for its input. -/
def reports (a : TranspileArguments) (t : FileTree) : List Diagnostic :=
  match t.read a.input, t.answer (Settings.forInput a.input) with
  | .ok text, .ok settings =>
    (transpileFile (a.effective settings) .empty a.input text).2.diagnostics
  | _, _ => []

omit [ModuleParser] [SettingsParser] in
theorem deliver_eq {a : TranspileArguments} (h : a.output = none) (output : Output)
    (ds : List Diagnostic) (php : String) : ∃ o : Outcome, o.failure = none ∧
      (a.deliver output ds php : StateM FileTree Outcome) = pure o := by
  unfold deliver
  rw [h]
  cases output.format <;> exact ⟨_, rfl, rfl⟩

/-- A call that writes to no file shows its reports, and fails on them alone. -/
theorem answer_run {a : TranspileArguments} {t : FileTree} {text : String} {settings : Settings}
    (hout : a.output = none) (hread : t.read a.input = .ok text)
    (hsettings : t.answer (Settings.forInput a.input) = .ok settings) (output : Output) :
    ∃ (cache : SourceCache) (o : Outcome),
      t.answer (a.run output) = o.withDiagnostics output cache (a.reports t) ∧
      o.failure.isSome = isFailure a.strict (a.reports t) := by
  have herrors := hasErrors_of_php_none (a.effective settings) .empty a.input text
  unfold run reports
  rw [t.answer_bind (.read a.input), t.answer_read, hread]
  dsimp only
  rw [t.answer_bind (Settings.reading_forInput a.input), hsettings]
  dsimp only
  rw [options_eq]
  generalize transpileFile (a.effective settings) .empty a.input text = result at herrors ⊢
  obtain ⟨cache, report⟩ := result
  refine ⟨cache, ?_⟩
  cases hphp : report.php with
  | none =>
    have hfails : isFailure a.strict report.diagnostics = true := by
      simp [isFailure, herrors hphp]
    exact ⟨.failed (.notTranspiled a.input), rfl, hfails.symm⟩
  | some php =>
    dsimp only
    split
    · next hfails => exact ⟨.failed (.notTranspiled a.input), rfl, hfails.symm⟩
    · next hpasses =>
      obtain ⟨o, ho, hdeliver⟩ := deliver_eq hout output report.diagnostics php
      rw [hdeliver]
      exact ⟨o, rfl, by simp [ho, hpasses]⟩

end TranspileArguments

namespace Findings

/-- `f'` is what `f` becomes with these reports on more files, up to their places. -/
structure Gains (f f' : Findings) (files : Nat) (reports : List Diagnostic) : Prop where
  checked : f'.checked = f.checked + files
  diagnostics : f'.diagnostics.map Diagnostic.unplaced =
    f.diagnostics.map Diagnostic.unplaced ++ reports.map Diagnostic.unplaced

/-- None of the files was seen. -/
def Unseen (f : Findings) (t : FileTree) (files : List Path) : Prop :=
  ∀ file ∈ files, ∀ r, t.route true file = .ok r →
    ∀ place ∈ f.seen, (FileTree.pathOf r).samePlace place = false

section

variable [ModuleParser] [SettingsParser] {t : FileTree}

theorem reading_add (f : Findings) (file : Path) : Reading (f.add file) := by
  refine (Reading.canonical? file).bind fun place => ?_
  dsimp only
  split
  · exact .pure _
  · refine (Reading.read _).bind fun text => ?_
    cases text with
    | error e => exact .pure _
    | ok text =>
      refine (Settings.reading_forInput _).bind fun settings => ?_
      cases settings <;> exact .pure _

theorem reading_addAll (f : Findings) (files : List Path) : Reading (f.addAll files) := by
  induction files generalizing f with
  | nil => exact .pure _
  | cons file files ih =>
    refine (reading_add f file).bind fun added => ?_
    cases added with
    | error e => exact .pure _
    | ok f => exact ih f

theorem answer_add (ht : t.Plain) (f : Findings) {a : TranspileArguments} {file : Path}
    (ha : a.input = file) {r : Route} {bytes : ByteArray}
    (hfound : t.found file = .ok (r, .file bytes)) (hsource : Sources.isSource file = true)
    {text : String} {settings : Settings} (hread : t.read file = .ok text)
    (hsettings : t.answer (Settings.forInput file) = .ok settings)
    (hseen : ∀ place ∈ f.seen, (FileTree.pathOf r).samePlace place = false) :
    ∃ f', t.answer (f.add file) = .ok f' ∧ f'.seen = FileTree.pathOf r :: f.seen ∧
      f.Gains f' 1 (a.reports t) := by
  subst ha
  have hplace := FileTree.canonical?_eq hfound
  have hr := (FileTree.found_eq_ok.mp hfound).2
  have hnew : f.seen.any (FileTree.pathOf r).samePlace = false := by
    simpa using hseen
  obtain ⟨s, hs⟩ := Sources.fileName?_of_isSource hsource
  have hreadPlace := FileTree.read_congr (ht.found_pathOf hr |>.trans hfound.symm)
  have hsettingsPlace := Settings.answer_forInput_pathOf ht hfound hs
  unfold add
  rw [t.answer_bind (.canonical? _), t.answer_canonical?, hplace]
  dsimp only [Option.getD_some]
  rw [if_neg (by simp [hnew]), t.answer_bind (.read _), t.answer_read, hreadPlace, hread]
  dsimp only
  rw [t.answer_bind (Settings.reading_forInput _), hsettingsPlace, hsettings]
  refine ⟨_, rfl, rfl, rfl, ?_⟩
  simp only [List.map_append, TranspileArguments.reports, hread, hsettings]
  rw [transpileFile_unplaced]

omit [ModuleParser] [SettingsParser] in
/-- A file that was seen is not seen under the names of other files. -/
theorem Unseen.tail (ht : t.Plain) {f f' : Findings} {file : Path} {files : List Path} {r : Route}
    (h : f.Unseen t (file :: files)) (hfiles : t.Distinct [] (file :: files))
    (hr : t.route true file = .ok r) (hseen : f'.seen = FileTree.pathOf r :: f.seen) :
    f'.Unseen t files := by
  have hentry {file' : Path} (hfile' : file' ∈ file :: files) {r' : Route}
      (hr' : t.route true file' = .ok r') : ∃ e, t.entry? r' = some e := by
    obtain ⟨below, bytes, hfound⟩ := hfiles.found file' hfile'
    obtain ⟨hroute, he⟩ := FileTree.found_eq_ok.mp hfound
    obtain rfl := Except.ok.inj (hr'.symm.trans hroute)
    exact ⟨_, he⟩
  intro file' hfile' r' hr' place hplace
  rw [hseen] at hplace
  rcases List.mem_cons.mp hplace with rfl | hplace
  · obtain ⟨e, he⟩ := hentry List.mem_cons_self hr
    obtain ⟨e', he'⟩ := hentry (List.mem_cons_of_mem _ hfile') hr'
    refine Bool.eq_false_iff.mpr fun hsame => ?_
    obtain rfl := ht.samePlace_pathOf he' he hsame
    have hnew := (List.nodup_cons.mp hfiles.nodup).1
    exact hnew (List.mem_map.mpr ⟨file', hfile', hr'.trans hr.symm⟩)
  · exact h file' (List.mem_cons_of_mem _ hfile') r' hr' place hplace

/-- Files with different routes are all checked, and what is reported adds up. -/
theorem answer_addAll (ht : t.Plain) (f : Findings) {files : List Path}
    (hfiles : t.Distinct [] files) (hsource : ∀ file ∈ files, Sources.isSource file = true)
    (call : Path → TranspileArguments) (hcall : ∀ file, (call file).input = file)
    (hload : ∀ file ∈ files, (∃ text, t.read file = .ok text) ∧
      ∃ settings, t.answer (Settings.forInput file) = .ok settings)
    (hseen : f.Unseen t files) :
    ∃ f', t.answer (f.addAll files) = .ok f' ∧
      f.Gains f' files.length (files.flatMap fun file => (call file).reports t) := by
  induction files generalizing f with
  | nil => exact ⟨f, rfl, rfl, by simp⟩
  | cons file files ih =>
    obtain ⟨⟨⟨text, hread⟩, settings, hsettings⟩, hrest⟩ := List.forall_mem_cons.mp hload
    obtain ⟨below, bytes, hfound⟩ := hfiles.found file List.mem_cons_self
    have hroute := (FileTree.found_eq_ok.mp hfound).1
    obtain ⟨hfirst, hsources⟩ := List.forall_mem_cons.mp hsource
    have hnew := hseen file List.mem_cons_self _ hroute
    obtain ⟨f₁, hadd, hplaces, hgains⟩ :=
      answer_add ht f (hcall file) hfound hfirst hread hsettings hnew
    obtain ⟨f₂, haddAll, hgains₂⟩ :=
      ih f₁ hfiles.tail hsources hrest (hseen.tail ht hfiles hroute hplaces)
    refine ⟨f₂, ?_, ?_, ?_⟩
    · unfold addAll
      rw [t.answer_bind (reading_add f file), hadd]
      exact haddAll
    · rw [hgains₂.checked, hgains.checked, List.length_cons]
      omega
    · rw [hgains₂.diagnostics, hgains.diagnostics, List.flatMap_cons, List.map_append,
        List.append_assoc]

end

section

variable {f : Findings} {files : List Path} {reports : Path → List Diagnostic} {n : Nat}
  (h : Findings.empty.Gains f n (files.flatMap reports))
include h

theorem Gains.isFailure_iff (strict : Bool) : isFailure strict f.diagnostics = true ↔
    ∃ file ∈ files, isFailure strict (reports file) = true := by
  have hreports : f.diagnostics.map Diagnostic.unplaced =
      (files.flatMap reports).map Diagnostic.unplaced := h.diagnostics
  rw [← isFailure_unplaced, hreports, isFailure_unplaced]
  simp only [isFailure_eq_any, List.any_flatMap, List.any_eq_true]

theorem Gains.errorCount : Diagnostic.errorCount f.diagnostics =
    (files.map fun file => Diagnostic.errorCount (reports file)).sum := by
  rw [← errorCount_unplaced, h.diagnostics]
  exact (errorCount_unplaced _).trans List.countP_flatMap

theorem Gains.warningCount : Diagnostic.warningCount f.diagnostics =
    (files.map fun file => Diagnostic.warningCount (reports file)).sum := by
  rw [← warningCount_unplaced, h.diagnostics]
  exact (warningCount_unplaced _).trans List.countP_flatMap

end

end Findings

/-- The part of the reports that goes with the results. -/
def Output.reportsOut (output : Output) (cache : SourceCache) (ds : List Diagnostic) : String :=
  match output.format with
  | .json => Format.json.diagnostics cache ds
  | .text => ""

theorem Outcome.out_withDiagnostics (output : Output) (cache : SourceCache) (ds : List Diagnostic)
    (o : Outcome) : (o.withDiagnostics output cache ds).out = output.reportsOut cache ds ++ o.out := by
  obtain ⟨format, colored, quiet⟩ := output
  cases format with
  | json => rfl
  | text => cases quiet <;> exact String.empty_append.symm

/-- What a check says besides the reports, told by its verdict and three numbers. -/
def checkText (output : Output) (failed : Bool) (files errors warnings : Nat) : String :=
  match output.format with
  | .json =>
    "\x7b\"errors\":" ++ toString errors ++ ",\"files_checked\":" ++ toString files ++
      ",\"success\":" ++ (if failed then "false" else "true") ++
      ",\"type\":\"summary\",\"warnings\":" ++ toString warnings ++ "\x7d\n"
  | .text =>
    if output.quiet then ""
    else if files = 0 then "No TypeScript files found.\n"
    else
      "Checking " ++ toString files ++ " file(s)...\n" ++
        if failed then
          "Check failed: " ++ toString errors ++ " error(s), " ++ toString warnings ++ " warning(s)\n"
        else if warnings = 0 then
          "All checks passed! - " ++ toString files ++ " file(s) checked\n"
        else "Check passed: " ++ toString warnings ++ " warning(s)\n"

namespace Findings

variable (f : Findings) (failed : Bool)

theorem compact_summary (output : Output) (h : output.format = .json) :
    (f.summary failed).compact ++ "\n" = checkText output failed f.checked
      (Diagnostic.errorCount f.diagnostics) (Diagnostic.warningCount f.diagnostics) := by
  rw [checkText, h, ← String.toList_inj]
  cases failed <;>
    simp [summary, Json.compact, Json.write, Json.writeMembers, Json.Layout.bracketed,
      Json.Layout.compact, Json.Layout.newline, Json.quote, Json.escape]

theorem verdict_eq : f.verdict failed ++ "\n" =
    if failed then
      "Check failed: " ++ toString (Diagnostic.errorCount f.diagnostics) ++ " error(s), " ++
        toString (Diagnostic.warningCount f.diagnostics) ++ " warning(s)\n"
    else if Diagnostic.warningCount f.diagnostics = 0 then
      "All checks passed! - " ++ toString f.checked ++ " file(s) checked\n"
    else "Check passed: " ++ toString (Diagnostic.warningCount f.diagnostics) ++ " warning(s)\n" := by
  unfold verdict
  rw [← String.toList_inj]
  cases failed with
  | true => simp
  | false =>
    by_cases h : Diagnostic.warningCount f.diagnostics = 0
    · simp [h]
    · simp [h, Nat.pos_of_ne_zero h]

/-- The heading, the reports and the verdict are all that is said of some files. -/
theorem conclusion_eq (output : Output) (hfiles : f.checked ≠ 0) (shown : String)
    (hshown : output.format = .text → shown = "") :
    (if output.talks then "Checking " ++ toString f.checked ++ " file(s)...\n" else "") ++
        (shown ++ f.conclusion output failed) =
      shown ++ checkText output failed f.checked (Diagnostic.errorCount f.diagnostics)
        (Diagnostic.warningCount f.diagnostics) := by
  cases hformat : output.format with
  | json =>
    rw [conclusion, hformat, ← f.compact_summary failed output hformat]
    simp [Output.talks, hformat]
  | text =>
    rw [hshown hformat, checkText, conclusion, hformat]
    cases hquiet : output.quiet with
    | true => simp [Output.talks, hformat, hquiet]
    | false =>
      simp only [Bool.false_eq_true, if_false, if_neg hfiles, verdict_eq]
      simp [Output.talks, hformat, hquiet]

end Findings

section

variable [ModuleParser] [SettingsParser] [FileWalk (StateM FileTree)]

/-- A check fails on its findings alone, and says what they are. -/
theorem answer_runCheck {t : FileTree} (hwalk : FileWalk.Visits t) {input : Path} {findings : Findings}
    (h : t.answer (Findings.empty.addAll (t.answer (Sources.collect input))) = .ok findings)
    (hchecked : findings.checked = (t.answer (Sources.collect input)).length) (strict : Bool)
    (output : Output) :
    let check := t.answer (runCheck input strict output)
    let failed := isFailure strict findings.diagnostics
    check.failure.isSome = failed ∧
      check.out = output.reportsOut findings.cache findings.diagnostics ++
        checkText output failed findings.checked (Diagnostic.errorCount findings.diagnostics)
          (Diagnostic.warningCount findings.diagnostics) := by
  intro check failed
  by_cases hfiles : t.answer (Sources.collect input) = []
  · rw [hfiles] at h
    obtain rfl : Findings.empty = findings := Except.ok.inj h
    have hfailed : failed = false := by cases strict <;> rfl
    unfold check runCheck
    rw [t.answer_bind (Sources.reading_collect hwalk input), hfiles, hfailed]
    refine ⟨rfl, ?_⟩
    obtain ⟨format, colored, quiet⟩ := output
    cases format with
    | json =>
      have hjson := Findings.compact_summary .empty false ⟨.json, colored, quiet⟩ rfl
      exact String.append_empty.trans (hjson.trans String.empty_append.symm)
    | text => cases quiet <;> rfl
  · let last : Outcome := if failed then .failed .checkFailed else .silent
    have hlast : last.failure.isSome = failed ∧ last.out = "" := by
      unfold last
      cases failed <;> exact ⟨rfl, rfl⟩
    have hcheck : check =
        ((last.after (findings.conclusion output failed) "").withDiagnostics output findings.cache
          findings.diagnostics).after (if output.talks then
            "Checking " ++ toString (t.answer (Sources.collect input)).length ++ " file(s)...\n"
          else "") "" := by
      unfold check runCheck
      rw [t.answer_bind (Sources.reading_collect hwalk input), if_neg (by simpa using hfiles),
        t.answer_bind (Findings.reading_addAll _ _), h]
      rfl
    rw [hcheck]
    refine ⟨?_, ?_⟩
    · rw [Outcome.failure_after, Outcome.failure_withDiagnostics, Outcome.failure_after]
      exact hlast.1
    · have hout (o : Outcome) (text : String) : (o.after text "").out = text ++ o.out := rfl
      have hsome : findings.checked ≠ 0 := by
        rw [hchecked]
        exact mt List.length_eq_zero_iff.mp hfiles
      rw [hout, Outcome.out_withDiagnostics, hout, hlast.2, String.append_empty, ← hchecked]
      refine findings.conclusion_eq failed output hsome _ fun htext => ?_
      rw [Output.reportsOut, htext]

/-- A check fails just when a call for one of its files fails, whichever names the call is given. Besides
the reports that the calls show, up to their places, it says the verdict, how many files there are, and as
numbers of errors and warnings the sums of those that the calls show. -/
theorem check_agrees_with_transpile {t : FileTree} (ht : t.Plain) (hwalk : FileWalk.Visits t)
    (input : Path) (strict : Bool) («namespace» helperNamespace : Option String)
    (output output' : Output)
    (hload : ∀ file ∈ t.answer (Sources.collect input), (∃ text, t.read file = .ok text) ∧
      ∃ settings, t.answer (Settings.forInput file) = .ok settings) :
    let files := t.answer (Sources.collect input)
    let call (file : Path) : TranspileArguments :=
      ⟨file, none, «namespace», helperNamespace, strict⟩
    let reports (file : Path) := (call file).reports t
    let check := t.answer (Command.run output (.check input strict))
    let transpiled (file : Path) := t.answer (Command.run output' (.transpile (call file)))
    (check.status = 1 ↔ ∃ file ∈ files, (transpiled file).status = 1) ∧
    (∀ file ∈ files, ∃ (cache : SourceCache) (o : Outcome),
      transpiled file = o.withDiagnostics output' cache (reports file)) ∧
    ∃ (cache : SourceCache) (ds : List Diagnostic),
      ds.map Diagnostic.unplaced = (files.flatMap reports).map Diagnostic.unplaced ∧
      check.out = output.reportsOut cache ds ++ checkText output (check.status = 1) files.length
        (files.map fun file => Diagnostic.errorCount (reports file)).sum
        (files.map fun file => Diagnostic.warningCount (reports file)).sum := by
  intro files call reports check transpiled
  obtain ⟨findings, hadd, hgains⟩ := Findings.answer_addAll ht .empty
    (Sources.distinct_collect hwalk input) (fun _ => Sources.isSource_of_mem_collect hwalk) call
    (fun _ => rfl) hload (fun _ _ _ _ _ hplace => nomatch hplace)
  have hchecked : findings.checked = files.length := hgains.checked.trans (Nat.zero_add _)
  obtain ⟨hcheck, hout⟩ := answer_runCheck hwalk hadd hchecked strict output
  have hrun (file : Path) (hfile : file ∈ files) : ∃ (cache : SourceCache) (o : Outcome),
      transpiled file = o.withDiagnostics output' cache (reports file) ∧
      o.failure.isSome = isFailure strict (reports file) := by
    obtain ⟨⟨text, hread⟩, settings, hsettings⟩ := hload file hfile
    exact TranspileArguments.answer_run (a := call file) rfl hread hsettings output'
  have htranspiled (file : Path) (hfile : file ∈ files) : (transpiled file).status = 1 ↔
      isFailure strict (reports file) = true := by
    obtain ⟨cache, o, ho, hfails⟩ := hrun file hfile
    rw [Outcome.status_eq_one, ho, Outcome.failure_withDiagnostics, hfails]
  have hstatus : check.status = 1 ↔ isFailure strict findings.diagnostics = true := by
    rw [Outcome.status_eq_one, ← hcheck]
    rfl
  refine ⟨?_, fun file hfile => ?_, findings.cache, findings.diagnostics, hgains.diagnostics, ?_⟩
  · rw [hstatus, hgains.isFailure_iff]
    exact exists_congr fun file => and_congr_right fun hfile => (htranspiled file hfile).symm
  · obtain ⟨cache, o, ho, -⟩ := hrun file hfile
    exact ⟨cache, o, ho⟩
  · have hdecide : decide (check.status = 1) = isFailure strict findings.diagnostics := by
      simp [hstatus]
    rw [hdecide, ← hchecked, ← hgains.errorCount, ← hgains.warningCount]
    exact hout

end

/-- A project of two files, of which the second asks for a prototype. -/
def FileTree.pair : FileTree :=
  ⟨["p"], [(["p"], .directory), (["p", "a.ts"], .file "let x = 1;".toUTF8),
    (["p", "b.ts"], .file "x.prototype;".toUTF8)]⟩

theorem FileTree.pair_plain : pair.Plain where
  nodup := by decide
  named := by decide
  above := by
    simp only [pair, List.forall_mem_cons]
    exact ⟨rfl, rfl, rfl, List.forall_mem_nil _⟩
  unlinked := by simp [pair]

theorem FileTree.visits_pair : FileWalk.Visits pair :=
  FileWalk.visits_listed pair_plain FileWalk.maxDepth

theorem FileTree.collect_pair :
    pair.answer (Sources.collect ⟨"."⟩) = [⟨"./a.ts"⟩, ⟨"./b.ts"⟩] := by
  have hfiles : FileWalk.files (pair.answer (FileWalk.walk (!Sources.isVendored ·) ⟨"."⟩)) =
      [⟨"./a.ts"⟩, ⟨"./b.ts"⟩] := by rfl
  have hsource : [⟨"./a.ts"⟩, ⟨"./b.ts"⟩].filter Sources.isSource = [⟨"./a.ts"⟩, ⟨"./b.ts"⟩] := by
    decide
  rw [Sources.answer_collect visits_pair, if_neg (by decide), hfiles, hsource]
  exact List.mergeSort_of_pairwise (by decide)

theorem check_agrees_with_transpile_prototype :
    let t := FileTree.pair
    let output : Output := ⟨.json, false, false⟩
    let call (file : Path) : TranspileArguments := ⟨file, none, some "App", none, false⟩
    let check := t.answer (Command.run output (.check ⟨"."⟩ false))
    t.Plain ∧ FileWalk.Visits t ∧
      (∀ file ∈ t.answer (Sources.collect ⟨"."⟩), (∃ text, t.read file = .ok text) ∧
        ∃ settings, t.answer (Settings.forInput file) = .ok settings) ∧
      (t.answer (Command.run output (.transpile (call ⟨"./b.ts"⟩)))).status = 1 ∧
      check.status = 1 ∧ ∃ before, check.out = before ++
        "\x7b\"errors\":1,\"files_checked\":2,\"success\":false,\"type\":\"summary\",\"warnings\":0\x7d\n" := by
  intro t output call check
  have hload : ∀ file ∈ t.answer (Sources.collect ⟨"."⟩), (∃ text, t.read file = .ok text) ∧
      ∃ settings, t.answer (Settings.forInput file) = .ok settings := by
    have ha : FileTree.pair.answer (Settings.forInput ⟨"./a.ts"⟩) = .ok .empty := by rfl
    have hb : FileTree.pair.answer (Settings.forInput ⟨"./b.ts"⟩) = .ok .empty := by rfl
    rw [FileTree.collect_pair]
    simp only [List.forall_mem_cons]
    exact ⟨⟨⟨"let x = 1;", rfl⟩, .empty, ha⟩, ⟨⟨"x.prototype;", rfl⟩, .empty, hb⟩, List.forall_mem_nil _⟩
  have hfails : (FileTree.pair.answer (Command.run ⟨.json, false, false⟩
      (.transpile ⟨⟨"./b.ts"⟩, none, some "App", none, false⟩))).status = 1 := by
    decide +kernel
  obtain ⟨hverdict, -, cache, ds, -, hout⟩ := check_agrees_with_transpile FileTree.pair_plain
    FileTree.visits_pair ⟨"."⟩ false (some "App") none output output hload
  have hcheck : check.status = 1 := hverdict.mpr ⟨⟨"./b.ts"⟩, by simp [FileTree.collect_pair], hfails⟩
  have herrors : ([⟨"./a.ts"⟩, ⟨"./b.ts"⟩].map fun file : Path => Diagnostic.errorCount
      (TranspileArguments.reports ⟨file, none, some "App", none, false⟩ FileTree.pair)).sum = 1 := by
    decide +kernel
  have hwarnings : ([⟨"./a.ts"⟩, ⟨"./b.ts"⟩].map fun file : Path => Diagnostic.warningCount
      (TranspileArguments.reports ⟨file, none, some "App", none, false⟩ FileTree.pair)).sum = 0 := by
    decide +kernel
  rw [FileTree.collect_pair, decide_eq_true hcheck, herrors, hwarnings] at hout
  exact ⟨FileTree.pair_plain, FileTree.visits_pair, hload, hfails, hcheck, _, hout⟩

end TsToPhp
