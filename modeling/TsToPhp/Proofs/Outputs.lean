import TsToPhp.Proofs.Verdicts
import TsToPhp.Proofs.Written

/-! What a call leaves behind. A call that fails leaves every file as it was and shows no PHP; one
that does not fail hands over all of the text. -/

namespace TsToPhp

namespace Output

/-- The part of the reports that goes to the error stream. -/
def reportsErr (output : Output) (cache : SourceCache) (ds : List Diagnostic) : String :=
  match output.format with
  | .json => ""
  | .text =>
    if output.quiet then Format.simple.diagnostics cache ds
    else (Format.terminal output.colored).diagnostics cache ds ++
      (Format.terminal output.colored).summary ds

theorem ofOutcome_withDiagnostics (output : Output) (cache : SourceCache) (ds : List Diagnostic)
    (o : Outcome) : Exit.ofOutcome (o.withDiagnostics output cache ds) =
      ⟨output.reportsOut cache ds ++ o.out, output.reportsErr cache ds ++ o.stderr, o.status⟩ := by
  obtain ⟨format, colored, quiet⟩ := output
  cases format with
  | json => simp [Exit.ofOutcome, Outcome.withDiagnostics, diagnosticFormat, reportsOut, reportsErr,
      Outcome.after, Outcome.stderr, Outcome.status]
  | text =>
    cases quiet <;>
      simp [Exit.ofOutcome, Outcome.withDiagnostics, diagnosticFormat, reportsOut, reportsErr,
        Outcome.after, Outcome.stderr, Outcome.status, String.append_assoc]

/-- Without reports nothing is shown. -/
theorem reports_nil (output : Output) (cache : SourceCache) :
    output.reportsOut cache [] = "" ∧ output.reportsErr cache [] = "" := by
  obtain ⟨format, colored, quiet⟩ := output
  cases format <;> cases quiet <;> exact ⟨rfl, rfl⟩

end Output

theorem FileTree.run_bind {α β : Type} {act : StateM FileTree α} {t t' : FileTree} {b : α}
    (h : act t = (b, t')) (next : α → StateM FileTree β) : (act >>= next) t = next b t' := by
  change next (act t).1 (act t).2 = _
  rw [h]

theorem Reading.run_bind {α β : Type} {act : StateM FileTree α} (h : Reading act)
    (next : α → StateM FileTree β) (t : FileTree) : (act >>= next) t = next (t.answer act) t := by
  have hact : act t = (t.answer act, t) := Prod.ext rfl (h t)
  exact FileTree.run_bind hact next

namespace Settings

/-- The first of the directories with a settings file decides alone. -/
theorem answer_discoverFrom [SettingsParser] (t : FileTree) (dirs : List Path) :
    t.answer (discoverFrom dirs) =
      ((dirs.map (·.join ⟨fileName⟩)).find? (t.kind? · == some .file)).elim (.ok none) fun p =>
        (t.answer (load p)).map fun settings => some (p, settings) := by
  induction dirs with
  | nil => rfl
  | cons dir dirs ih =>
    rw [discoverFrom, t.answer_bind (.isFile _), t.answer_isFile, List.map_cons, List.find?_cons]
    cases t.kind? (dir.join ⟨fileName⟩) == some .file with
    | false => exact ih
    | true =>
      simp only [if_true, Option.elim_some]
      rw [t.answer_bind (reading_load _)]
      cases t.answer (load (dir.join ⟨fileName⟩)) <;> rfl

end Settings

namespace TranspileArguments

variable (a : TranspileArguments) (t : FileTree)

/-- The settings file in the nearest directory that has one, from that of the input upwards. -/
def settingsFile? : Option Path :=
  let dir := (t.canonical? a.input.holder).getD a.input.holder
  (dir.ancestors.map (·.join ⟨Settings.fileName⟩)).find? (t.kind? · == some .file)

/-- The cache with nothing but the input. -/
def cache : SourceCache :=
  (SourceCache.empty.add a.input ((t.read a.input).toOption.getD "")).1

def resultLine (what : String × Json) (warnings : Nat) : String :=
  (Json.object [("errors", .nat 0), what, ("success", .bool true), ("type", .string "result"),
    ("warnings", .nat warnings)]).compact ++ "\n"

/-- What a call that does not fail says behind its reports. -/
def said (output : Output) (php : String) (warnings : Nat) : String :=
  match a.output, output.format with
  | none, .text => php
  | none, .json => resultLine ("php", .string php) warnings
  | some _, .text => ""
  | some path, .json => resultLine ("output", .string path.text) warnings

/-- What it says to people about the file it wrote. -/
def noted (output : Output) : String :=
  match a.output, output.format with
  | some path, .text => if output.quiet then "" else "Wrote " ++ path.text ++ "\n"
  | _, _ => ""

variable {a t}

theorem deliver_none (h : a.output = none) {ds : List Diagnostic}
    (herrors : Diagnostic.errorCount ds = 0) (output : Output) (php : String) :
    (a.deliver output ds php : StateM FileTree Outcome) t =
      (Outcome.silent.after (a.said output php (Diagnostic.warningCount ds)) (a.noted output), t) := by
  rw [deliver, said, noted, h, herrors]
  cases output.format <;> rfl

theorem deliver_some {path : Path} (h : a.output = some path) {ds : List Diagnostic}
    (herrors : Diagnostic.errorCount ds = 0) (output : Output) {php : String} {t' : FileTree}
    (hwrite : t.write path php = .ok t') :
    (a.deliver output ds php : StateM FileTree Outcome) t =
      (Outcome.silent.after (a.said output php (Diagnostic.warningCount ds)) (a.noted output), t') := by
  have hchange : (FileAccess.write path php : StateM FileTree _) t = (.ok (), t') := by
    change FileTree.change (·.write path php) t = _
    rw [FileTree.change, hwrite]
  rw [deliver, said, noted, h, herrors]
  dsimp only
  rw [FileTree.run_bind hchange]
  cases output.format <;> rfl

theorem not_isFailure {ds : List Diagnostic} {strict : Bool} (h : isFailure strict ds = false) :
    (∀ d ∈ ds, d.severity ≠ .error) ∧ (strict = true → ∀ d ∈ ds, d.severity ≠ .warning) := by
  rw [isFailure_eq_any, List.any_eq_false] at h
  simp only [Diagnostic.isError, Diagnostic.isWarning, Bool.or_eq_true, Bool.and_eq_true,
    beq_iff_eq, not_or, not_and] at h
  exact ⟨fun d hd => (h d hd).1, fun hstrict d hd => (h d hd).2 hstrict⟩

section

variable [ModuleParser] [SettingsParser]

variable (a t) in
/-- The settings of the input. Without a settings file nothing is set. -/
inductive Uses : Settings → Prop
  | nothing : a.settingsFile? t = none → Uses .empty
  | file {p : Path} {text : String} {settings : Settings} : a.settingsFile? t = some p →
      t.read p = .ok text → SettingsParser.parse text = .ok settings → Uses settings

variable (a t) in
/-- Why there is no output, and how the call ends for that reason. -/
inductive Fails : CommandError → Prop
  | unreadable {e : FileError} : t.read a.input = .error e → Fails (.unreadable a.input e)
  | settingsUnreadable {p : Path} {e : FileError} : a.settingsFile? t = some p →
      t.read p = .error e → Fails (.settings ⟨p, .unreadable e⟩)
  | settingsMalformed {p : Path} {text message : String} : a.settingsFile? t = some p →
      t.read p = .ok text → SettingsParser.parse text = .error message →
      Fails (.settings ⟨p, .malformed message⟩)
  | unparsed {text : String} {e} : t.read a.input = .ok text → ModuleParser.parse text = .error e →
      Fails (.notTranspiled a.input)
  | error {d : Diagnostic} : d ∈ a.reports t → d.severity = .error →
      Fails (.notTranspiled a.input)
  | warning {d : Diagnostic} : a.strict = true → d ∈ a.reports t → d.severity = .warning →
      Fails (.notTranspiled a.input)

/-- The settings are found, or what is wrong with them. -/
theorem answer_forInput_cases : (∃ settings, a.Uses t settings ∧
      t.answer (Settings.forInput a.input) = .ok settings) ∨
    ∃ f, a.Fails t (.settings f) ∧ t.answer (Settings.forInput a.input) = .error f := by
  have hfor : t.answer (Settings.forInput a.input) = Settings.ofFound
      ((a.settingsFile? t).elim (.ok none) fun p =>
        (t.answer (Settings.load p)).map fun settings => some (p, settings)) := by
    rw [Settings.forInput_eq, t.answer_bind (Settings.reading_discover _), Settings.discover,
      t.answer_bind (.canonical? _), t.answer_canonical?, Settings.answer_discoverFrom,
      t.answer_pure, settingsFile?]
  rw [hfor]
  cases hfile : a.settingsFile? t with
  | none => exact .inl ⟨.empty, .nothing hfile, rfl⟩
  | some p =>
    rw [Option.elim_some, Settings.load, t.answer_bind (.read p), t.answer_read]
    cases hread : t.read p with
    | error e => exact .inr ⟨_, .settingsUnreadable hfile hread, rfl⟩
    | ok text =>
      cases htext : SettingsParser.parse text with
      | error message =>
        refine .inr ⟨_, .settingsMalformed hfile hread htext, ?_⟩
        simp only [htext]
        rfl
      | ok settings =>
        refine .inl ⟨settings, .file hfile hread htext, ?_⟩
        simp only [htext]
        rfl

omit [ModuleParser] in
theorem Uses.unique {settings settings' : Settings} (h : a.Uses t settings)
    (h' : a.Uses t settings') : settings = settings' := by
  cases h with
  | nothing hfile =>
    cases h' with
    | nothing => rfl
    | file hfile' => cases hfile.symm.trans hfile'
  | file hfile hread htext =>
    cases h' with
    | nothing hfile' => cases hfile.symm.trans hfile'
    | file hfile' hread' htext' =>
      cases hfile.symm.trans hfile'
      cases hread.symm.trans hread'
      exact Except.ok.inj (htext.symm.trans htext')

theorem Uses.not_fails {settings : Settings} (h : a.Uses t settings) {f : Settings.Failure} :
    ¬ a.Fails t (.settings f) := by
  intro hfails
  cases h with
  | nothing hfile =>
    cases hfails with
    | settingsUnreadable hfile' | settingsMalformed hfile' => cases hfile.symm.trans hfile'
  | file hfile hread htext =>
    cases hfails with
    | settingsUnreadable hfile' hread' =>
      cases hfile.symm.trans hfile'
      cases hread.symm.trans hread'
    | settingsMalformed hfile' hread' htext' =>
      cases hfile.symm.trans hfile'
      cases hread.symm.trans hread'
      cases htext.symm.trans htext'

theorem run_unreadable {e : FileError} (hread : t.read a.input = .error e) (output : Output) :
    (a.run output : StateM FileTree Outcome) t = (.failed (.unreadable a.input e), t) := by
  rw [run, (Reading.read a.input).run_bind, t.answer_read, hread]
  rfl

section

variable {text : String} (hread : t.read a.input = .ok text)
include hread

theorem run_settings {f : Settings.Failure}
    (hsettings : t.answer (Settings.forInput a.input) = .error f) (output : Output) :
    (a.run output : StateM FileTree Outcome) t = (.failed (.settings f), t) := by
  rw [run, (Reading.read a.input).run_bind, t.answer_read, hread]
  dsimp only
  rw [(Settings.reading_forInput a.input).run_bind, hsettings]
  rfl

variable {settings : Settings} (hsettings : t.answer (Settings.forInput a.input) = .ok settings)
include hsettings

/-- What the input is transpiled to. -/
theorem transpileFile_eq :
    let options := a.effective settings
    transpileFile options .empty a.input text = (a.cache t,
      ⟨(ModuleParser.parse text).toOption.map fun reading =>
          (transpile options ⟨text, 0, ModuleParser.start⟩ reading.module).php,
        a.reports t⟩) := by
  intro options
  rw [reports, hread, hsettings, cache, hread]
  change transpileFile options .empty a.input text = ((SourceCache.empty.add a.input text).1,
    ⟨_, (transpileFile options .empty a.input text).2.diagnostics⟩)
  unfold transpileFile SourceModule.read
  cases ModuleParser.parse text <;> rfl

/-- With reports that count against it, a call ends behind them. -/
theorem run_failing (hfails : isFailure a.strict (a.reports t) = true) (output : Output) :
    (a.run output : StateM FileTree Outcome) t =
      ((Outcome.failed (.notTranspiled a.input)).withDiagnostics output (a.cache t) (a.reports t),
        t) := by
  rw [run, (Reading.read a.input).run_bind, t.answer_read, hread]
  dsimp only
  rw [(Settings.reading_forInput a.input).run_bind, hsettings]
  dsimp only
  rw [options_eq, transpileFile_eq hread hsettings]
  cases ModuleParser.parse text with
  | error e => rfl
  | ok reading =>
    simp only [Except.toOption, Option.map_some, hfails, if_true]
    rfl

/-- With none, it ends with what is handed over. -/
theorem run_passing (hpasses : isFailure a.strict (a.reports t) = false) (output : Output) :
    ∃ reading, ModuleParser.parse text = .ok reading ∧
      let options := a.effective settings
      let php := (transpile options ⟨text, 0, ModuleParser.start⟩ reading.module).php
      ∀ (o : Outcome) (t' : FileTree),
        (a.deliver output (a.reports t) php : StateM FileTree Outcome) t = (o, t') →
        (a.run output : StateM FileTree Outcome) t =
          (o.withDiagnostics output (a.cache t) (a.reports t), t') := by
  have hfile := transpileFile_eq hread hsettings
  cases hmodule : ModuleParser.parse text with
  | error e =>
    rw [hmodule] at hfile
    have herrors := hasErrors_of_php_none _ _ _ _ (congrArg (·.2.php) hfile)
    rw [hfile] at herrors
    simp [isFailure, herrors] at hpasses
  | ok reading =>
    refine ⟨reading, rfl, fun o t' hdeliver => ?_⟩
    rw [run, (Reading.read a.input).run_bind, t.answer_read, hread]
    dsimp only
    rw [(Settings.reading_forInput a.input).run_bind, hsettings]
    dsimp only
    rw [options_eq, hfile, hmodule]
    simp only [Except.toOption, Option.map_some, hpasses, Bool.false_eq_true, if_false]
    rw [FileTree.run_bind hdeliver]
    rfl

end

theorem fails_of_isFailure (h : isFailure a.strict (a.reports t) = true) :
    a.Fails t (.notTranspiled a.input) := by
  rw [isFailure_eq_any, List.any_eq_true] at h
  obtain ⟨d, hd, h⟩ := h
  simp only [Diagnostic.isError, Diagnostic.isWarning, Bool.or_eq_true, Bool.and_eq_true,
    beq_iff_eq] at h
  obtain herror | ⟨hstrict, hwarning⟩ := h
  · exact .error hd herror
  · exact .warning hstrict hd hwarning

theorem not_fails {text : String} {settings : Settings} {reading} (hread : t.read a.input = .ok text)
    (huses : a.Uses t settings) (hmodule : ModuleParser.parse text = .ok reading)
    (hpasses : isFailure a.strict (a.reports t) = false) (e : CommandError) : ¬ a.Fails t e := by
  obtain ⟨hno, hstrict⟩ := not_isFailure hpasses
  intro hfails
  cases hfails with
  | unreadable hread' => cases hread.symm.trans hread'
  | settingsUnreadable hfile hread' => exact huses.not_fails (.settingsUnreadable hfile hread')
  | settingsMalformed hfile hread' htext =>
    exact huses.not_fails (.settingsMalformed hfile hread' htext)
  | unparsed hread' hmodule' =>
    cases hread.symm.trans hread'
    cases hmodule.symm.trans hmodule'
  | error hd herror => exact hno _ hd herror
  | warning hs hd hwarning => exact hstrict hs _ hd hwarning

end

end TranspileArguments

/-- A directory with a source file and settings that name a namespace and a prefix of helpers. -/
def FileTree.configured : FileTree :=
  ⟨[], [(["a.ts"], .file "k = Object.keys(o);".toUTF8),
    (["tsphp.toml"], .file "[emit]\nnamespace = \"Set\"\nhelper_namespace = '\\H\\'\n".toUTF8)]⟩

end TsToPhp
