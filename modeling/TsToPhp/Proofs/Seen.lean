import TsToPhp.Emit.Module

/-! Output as it looks when reports are seen through a glass: each is changed, left out or seen more
than once, all else stays. Everything that puts pieces together commutes with the glass. -/

namespace TsToPhp

/-- Is this how the object rule reports? -/
def Code.isOfObjects (c : Code) : Bool :=
  c = .unsupportedObjectMethod ∨ c = .prototypeAccess

variable (look : Diagnostic → List Diagnostic)

def Piece.seenBy : Piece → Pieces
  | .report d => (look d).map .report
  | p => [p]

def Pieces.seenBy (ps : Pieces) : Pieces :=
  ps.flatMap (Piece.seenBy look)

namespace Pieces

@[simp] theorem seenBy_nil : seenBy look [] = [] := rfl

@[simp] theorem seenBy_append (p q : Pieces) :
    seenBy look (p ++ q) = seenBy look p ++ seenBy look q :=
  List.flatMap_append

@[simp] theorem seenBy_text (s : String) (ps : Pieces) :
    seenBy look (.text s :: ps) = .text s :: seenBy look ps := rfl

@[simp] theorem seenBy_newline (ps : Pieces) :
    seenBy look (.newline :: ps) = .newline :: seenBy look ps := rfl

@[simp] theorem seenBy_indent (ps : Pieces) :
    seenBy look (.indent :: ps) = .indent :: seenBy look ps := rfl

@[simp] theorem seenBy_dedent (ps : Pieces) :
    seenBy look (.dedent :: ps) = .dedent :: seenBy look ps := rfl

@[simp] theorem seenBy_helperPrefix (ps : Pieces) :
    seenBy look (.helperPrefix :: ps) = .helperPrefix :: seenBy look ps := rfl

@[simp] theorem seenBy_quoted (s : String) (ps : Pieces) :
    seenBy look (quoted s :: ps) = quoted s :: seenBy look ps := rfl

theorem seenBy_cons (x : Piece) (ps : Pieces) :
    seenBy look (x :: ps) = seenBy look [x] ++ seenBy look ps :=
  seenBy_append look [x] ps

variable {look} in
theorem seenBy_cons_congr {look' : Diagnostic → List Diagnostic} {x x' : Piece} {ps ps' : Pieces}
    (hx : seenBy look' [x'] = seenBy look [x]) (hps : seenBy look' ps' = seenBy look ps) :
    seenBy look' (x' :: ps') = seenBy look (x :: ps) := by
  rw [seenBy_cons, seenBy_cons look, hx, hps]

theorem seenBy_report (d : Diagnostic) (ps : Pieces) :
    seenBy look (.report d :: ps) = (look d).map Piece.report ++ seenBy look ps := rfl

variable {look} in
/-- Reports that look the same. -/
theorem seenBy_report_congr {look' : Diagnostic → List Diagnostic} {d d' : Diagnostic}
    (h : look' d' = look d) : seenBy look' [.report d'] = seenBy look [.report d] := by
  rw [seenBy_report, seenBy_report, h]
  rfl

/-- What separates an item from those before it. -/
@[simp] theorem seenBy_separator (isFirst : Bool) (s : String) :
    seenBy look (if isFirst then [] else [.text s]) = if isFirst then [] else [.text s] := by
  cases isFirst <;> rfl

@[simp] theorem seenBy_modifier (isGiven : Bool) (s : String) :
    seenBy look (if isGiven then [.text s] else []) = if isGiven then [.text s] else [] := by
  cases isGiven <;> rfl

/-- Lines that report nothing. -/
theorem seenBy_lines {α : Type} {line : α → Pieces} (h : ∀ a, (line a).seenBy look = line a)
    (as : List α) : seenBy look (as.flatMap line) = as.flatMap line := by
  induction as with
  | nil => rfl
  | cons a as ih => rw [List.flatMap_cons, seenBy_append, h, ih]

@[simp] theorem seenBy_parens (ps : Pieces) : ps.parens.seenBy look = (ps.seenBy look).parens := by
  simp [parens]

@[simp] theorem seenBy_parensIf (wrap : Bool) (ps : Pieces) :
    (ps.parensIf wrap).seenBy look = (ps.seenBy look).parensIf wrap := by
  cases wrap <;> simp [parensIf]

@[simp] theorem seenBy_braces (ps : Pieces) : ps.braces.seenBy look = (ps.seenBy look).braces := by
  simp [braces]

theorem seenBy_joined (separator : String) (items : List Pieces) :
    (joined separator items).seenBy look = joined separator (items.map (seenBy look)) := by
  fun_induction joined separator items with
  | case1 => rfl
  | case2 p => rfl
  | case3 p ps hps ih =>
    cases ps with
    | nil => exact absurd rfl hps
    | cons q qs => simpa [joined] using ih

@[simp] theorem seenBy_list (items : List Pieces) :
    (list items).seenBy look = list (items.map (seenBy look)) :=
  seenBy_joined look ", " items

theorem diagnostics_reports (ds : List Diagnostic) : diagnostics (ds.map Piece.report) = ds := by
  induction ds with
  | nil => rfl
  | cons d ds ih => exact congrArg (d :: ·) ih

theorem diagnostics_seenBy (ps : Pieces) :
    (ps.seenBy look).diagnostics = ps.diagnostics.flatMap look := by
  induction ps with
  | nil => rfl
  | cons x ps ih =>
    cases x with
    | report d => rw [seenBy_report, diagnostics_append, diagnostics_reports, ih]; rfl
    | text | newline | indent | dedent | helperPrefix => simpa [diagnostics] using ih

theorem putAll_reports (helper : String) (w : Writer) (ds : List Diagnostic) :
    w.putAll helper (ds.map Piece.report) = w := by
  induction ds with
  | nil => rfl
  | cons d ds ih => exact ih

theorem putAll_seenBy (helper : String) (w : Writer) (ps : Pieces) :
    w.putAll helper (ps.seenBy look) = w.putAll helper ps := by
  induction ps generalizing w with
  | nil => rfl
  | cons x ps ih =>
    cases x with
    | report d =>
      have hreports := putAll_reports helper w (look d)
      rw [seenBy_report, Writer.putAll, List.foldl_append, ← Writer.putAll, ← Writer.putAll,
        hreports, ih]
      rfl
    | text | newline | indent | dedent | helperPrefix => simpa [Writer.putAll] using ih _

end Pieces

/-- What is printed does not depend on how reports are looked at. -/
theorem printed_of_seenBy {look look' : Diagnostic → List Diagnostic} {p q : Pieces}
    (h : p.seenBy look' = q.seenBy look) (helper : String) :
    (p.printed helper).php = (q.printed helper).php ∧
      (p.printed helper).diagnostics.flatMap look' =
        (q.printed helper).diagnostics.flatMap look := by
  have hp := Pieces.putAll_seenBy look' helper .empty p
  have hq := Pieces.putAll_seenBy look helper .empty q
  refine ⟨?_, ?_⟩
  · rw [Pieces.printed, Pieces.printed, ← hp, ← hq, h]
  · rw [Pieces.printed, Pieces.printed, ← Pieces.diagnostics_seenBy, ← Pieces.diagnostics_seenBy, h]

namespace PrintedArg

def seenBy (a : PrintedArg) : PrintedArg :=
  ⟨a.marker.seenBy look, a.value.seenBy look⟩

theorem map_all (args : List PrintedArg) :
    (all args).map (Pieces.seenBy look) = all (args.map (seenBy look)) := by
  simp [all, pieces, seenBy, Function.comp_def]

@[simp] theorem first_seenBy (args : List PrintedArg) :
    (first args).seenBy look = first (args.map (seenBy look)) := by
  cases args <;> rfl

@[simp] theorem call_seenBy (args : List PrintedArg) :
    (call args).seenBy look = call (args.map (seenBy look)) := by
  simp [call, map_all]

end PrintedArg

@[simp] theorem variableNamed_seenBy (name : String) :
    (variableNamed name).seenBy look = variableNamed name := by
  unfold variableNamed
  split <;> rfl

theorem Template.pieces_seenBy (chunks : List String) (exprs : List Pieces) :
    (Template.pieces chunks exprs).seenBy look =
      Template.pieces chunks (exprs.map (Pieces.seenBy look)) := by
  have hc (raw : String) : (chunkPart raw).map (Pieces.seenBy look) = chunkPart raw := by
    unfold chunkPart
    split <;> simp
  have hp : (parts chunks exprs).map (Pieces.seenBy look) =
      parts chunks (exprs.map (Pieces.seenBy look)) := by
    fun_induction parts chunks exprs with
    | case1 => rfl
    | case2 chunk chunks ih => simpa [parts, hc] using ih
    | case3 chunk chunks e es ih => simpa [parts, hc] using ih
  unfold Template.pieces
  rw [← hp]
  cases parts chunks exprs with
  | nil => rfl
  | cons p ps => exact Pieces.seenBy_joined look " . " (p :: ps)

theorem NamedHelper.apply_seenBy (h : NamedHelper) (receiver : Pieces) (args : List Pieces) :
    (h.apply receiver args).seenBy look =
      h.apply (receiver.seenBy look) (args.map (Pieces.seenBy look)) := by
  cases h with
  | mk name takesReceiver maxArgs =>
    cases takesReceiver <;> cases maxArgs <;> simp [apply_eq, arguments]

namespace Context

variable (ctx : Context)

theorem seenBy_repeated (reports : Pieces) :
    (ctx.repeated reports).seenBy look = ctx.repeated (reports.seenBy look) := by
  unfold repeated
  induction ctx.ruleCopies with
  | zero => rfl
  | succ n ih => simp [List.replicate_succ, ih]

@[simp] theorem seenBy_existenceCheck (object : Expr) (printed key : Pieces) :
    (ctx.existenceCheck object printed key).seenBy look =
      ctx.existenceCheck object (printed.seenBy look) (key.seenBy look) := by
  unfold existenceCheck
  split <;> simp

@[simp] theorem seenBy_replacement (form : ObjectCall) (receiver : Expr) (printed : Pieces)
    (args : List PrintedArg) :
    (ctx.replacement form receiver printed args).seenBy look =
      ctx.replacement form receiver (printed.seenBy look) (args.map (PrintedArg.seenBy look)) := by
  match form with
  | .static (.helper h) => simp [replacement, NamedHelper.apply_seenBy, PrintedArg.map_all]
  | .static .firstArgument => simp [replacement]
  | .existence => simp [replacement]

end Context

end TsToPhp
