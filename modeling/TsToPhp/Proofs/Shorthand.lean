import TsToPhp.Command.Arguments

/-! A source file on its own behind options for the whole program. The scan for the file knows
which arguments begin with a hyphen, not which options take the argument behind them. -/

namespace TsToPhp

inductive Loudness where
  | verbose | quiet
  deriving DecidableEq, Repr

namespace Loudness

def letter : Loudness → Char
  | verbose => 'v'
  | quiet => 'q'

def long : Loudness → String
  | verbose => "--verbose"
  | quiet => "--quiet"

end Loudness

def OutputFormat.name : OutputFormat → String
  | text => "text"
  | json => "json"

/-- An option for the program as a whole, with its spelling. -/
inductive GlobalOption where
  | letters (l : Loudness) (more : List Loudness)
  | long (l : Loudness)
  | noColor
  | format (value : OutputFormat) (isAttached : Bool)
  deriving DecidableEq, Repr

namespace GlobalOption

def spelled : GlobalOption → List String
  | letters l more => [String.ofList ('-' :: (l :: more).map Loudness.letter)]
  | long l => [l.long]
  | noColor => ["--no-color"]
  | format v true => ["--format=" ++ v.name]
  | format v false => ["--format", v.name]

/-- Is its value an argument of its own? -/
def hasLooseValue : GlobalOption → Bool
  | format _ false => true
  | _ => false

theorem hyphen_of_mem_spelled {o : GlobalOption} (ho : o.hasLooseValue = false) {s : String}
    (hs : s ∈ o.spelled) : beginsWithHyphen s = true := by
  cases o with
  | letters l more =>
    obtain rfl := List.mem_singleton.mp hs
    simp [beginsWithHyphen]
  | long l => obtain rfl := List.mem_singleton.mp hs; cases l <;> rfl
  | noColor => obtain rfl := List.mem_singleton.mp hs; rfl
  | format v isAttached =>
    cases isAttached with
    | false => cases ho
    | true => obtain rfl := List.mem_singleton.mp hs; cases v <;> rfl

/-- The scan finds what follows the options, or a value in front of it. -/
theorem find?_spelled (options : List GlobalOption) {s : String}
    (hs : beginsWithHyphen s = false) (rest : List String) :
    if options.any hasLooseValue then
      ∃ v : OutputFormat,
        (options.flatMap spelled ++ s :: rest).find? (!beginsWithHyphen ·) = some v.name
    else (options.flatMap spelled ++ s :: rest).find? (!beginsWithHyphen ·) = some s := by
  induction options with
  | nil => simp [hs]
  | cons o os ih =>
    cases ho : o.hasLooseValue with
    | true =>
      cases o with
      | format v isAttached =>
        cases isAttached with
        | true => cases ho
        | false => exact ⟨v, by cases v <;> rfl⟩
      | letters | long | noColor => cases ho
    | false =>
      have hskip : o.spelled.find? (!beginsWithHyphen ·) = none := by
        simpa using fun t ht => hyphen_of_mem_spelled ho ht
      simpa [List.find?_append, hskip, ho] using ih

end GlobalOption

namespace Invocation

/-- Does the text stand for a command, or ask for help on one? -/
def isCommandWord (s : String) : Bool :=
  s == "help" || (CommandName.ofText? s).isSome

theorem isCommandWord_plain {s : String} (h : isCommandWord s = true) :
    beginsWithHyphen s = false ∧ namesSource s = false := by
  simp only [isCommandWord, Bool.or_eq_true, beq_iff_eq, Option.isSome_iff_exists] at h
  obtain rfl | ⟨c, hc⟩ := h
  · decide
  · unfold CommandName.ofText? at hc
    obtain rfl : c.text = s := by simpa using List.find?_some hc
    cases c <;> decide

theorem isCommandWord_of_source {s : String} (hs : namesSource s = true) :
    isCommandWord s = false := by
  cases h : isCommandWord s with
  | false => rfl
  | true => cases (isCommandWord_plain h).2 ▸ hs

theorem isShorthand_of_find? {args : List String} {s : String}
    (h : args.find? (!beginsWithHyphen ·) = some s) :
    isShorthand args = (!isCommandWord s && namesSource s) := by
  simp [isShorthand, h, isCommandWord, bne]

end Invocation

namespace GlobalOption

open Invocation

theorem isShorthand_spelled (options : List GlobalOption) {s : String}
    (hs : beginsWithHyphen s = false) (rest : List String) :
    isShorthand (options.flatMap spelled ++ s :: rest) =
      (!options.any hasLooseValue && (!isCommandWord s && namesSource s)) := by
  have hfind := find?_spelled options hs rest
  cases hany : options.any hasLooseValue with
  | false =>
    simp only [hany, Bool.false_eq_true, if_false] at hfind
    simp [isShorthand_of_find? hfind]
  | true =>
    simp only [hany, if_true] at hfind
    obtain ⟨v, hv⟩ := hfind
    have hname : namesSource v.name = false := by cases v <;> decide
    simp [isShorthand_of_find? hv, hname]

end GlobalOption

open Invocation

/-- Behind options for the whole program, a source file is taken for what is to be transpiled
exactly if none of them has its value in an argument of its own. The name of a command is never taken
for a file. -/
theorem isShorthand_options (options : List GlobalOption) (s : String) (rest : List String) :
    let args := options.flatMap GlobalOption.spelled ++ s :: rest
    (beginsWithHyphen s = false ∧ namesSource s = true →
      (isShorthand args = true ↔ ∀ o ∈ options, o.hasLooseValue = false)) ∧
    (s = "help" ∨ (CommandName.ofText? s).isSome → isShorthand args = false) := by
  intro args
  refine ⟨fun ⟨hhyphen, hs⟩ => ?_, fun hs => ?_⟩
  · have hshort : isShorthand args = !options.any GlobalOption.hasLooseValue := by
      simp [args, GlobalOption.isShorthand_spelled options hhyphen, hs, isCommandWord_of_source hs]
    simp [hshort]
  · have hword : isCommandWord s = true := by simpa [isCommandWord] using hs
    simp [args, GlobalOption.isShorthand_spelled options (isCommandWord_plain hword).1, hword]

theorem isShorthand_options_attached :
    isShorthand ["-v", "--format=json", "main.ts"] = true :=
  ((isShorthand_options [.letters .verbose [], .format .json true] "main.ts" []).1
    (by decide)).mpr (by decide)

theorem value_taken_for_operand :
    let args := [GlobalOption.format .json false].flatMap GlobalOption.spelled ++ ["main.ts"]
    beginsWithHyphen "main.ts" = false ∧ namesSource "main.ts" = true ∧ isShorthand args = false :=
  ⟨by decide, by decide, by decide⟩

end TsToPhp
