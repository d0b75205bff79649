import TsToPhp.Proofs.Commas
import TsToPhp.Proofs.Margins
import TsToPhp.Proofs.PrintedConstants

/-! Lists of expressions in brackets. Their text is made of the texts that are printed for the items by
themselves, and what PHP reads between the commas are these. -/

namespace TsToPhp

open Php Pieces

variable {ctx : Context} {helper : String}

/-- The text that is printed for an expression by itself. -/
def Expr.written (ctx : Context) (helper : String) (e : Expr) : String :=
  (Writer.empty.putAll helper (emitExpr ctx .value e)).text

/-- The text of an argument. Dots stand in front of a spread. -/
def Arg.written (ctx : Context) (helper : String) : Arg → String
  | .value e => e.written ctx helper
  | .spread e => "..." ++ e.written ctx helper
  | .hole => "null"

theorem Expr.written_eq (e : Expr) :
    e.written ctx helper = String.ofList ((emitExpr ctx .value e).code helper) := by
  rw [Expr.written, Writer.putAll_of_ink (emitExpr_isInk ctx .value e), Writer.write_eq]
  cases h : (emitExpr ctx .value e).code helper <;> simp [Writer.empty, indented_cons, spaces]

theorem Arg.written_eq (a : Arg) :
    a.written ctx helper = String.ofList ((emitArg ctx a).pieces.code helper) := by
  cases a with
  | value e => simp [Arg.written, Expr.written_eq, emitArg, PrintedArg.pieces]
  | spread e =>
    rw [Arg.written, Expr.written_eq, emitArg, PrintedArg.pieces, code_append, String.ofList_append,
      code_text, String.ofList_toList]
  | hole => simp [Arg.written, emitArg, PrintedArg.pieces]

theorem Expr.written_ne_empty (e : Expr) : e.written ctx helper ≠ "" := by
  rw [Expr.written, Writer.putAll_eq]
  simpa [Writer.empty] using layout_ne_nil (emitExpr_inked ctx .value e) 0 true

theorem Arg.written_ne_empty (a : Arg) : a.written ctx helper ≠ "" := by
  cases a with
  | value e => exact e.written_ne_empty
  | spread e => simp [Arg.written]
  | hole => simp [Arg.written]

theorem code_list (ps : List Pieces) :
    String.ofList ((Pieces.list ps).code helper) =
      ", ".intercalate (ps.map fun p => String.ofList (p.code helper)) := by
  induction ps with
  | nil => rfl
  | cons p ps ih =>
    cases ps with
    | nil => simp [Pieces.list, joined]
    | cons q ps =>
      have hlist : Pieces.list (p :: q :: ps) = p ++ .text ", " :: Pieces.list (q :: ps) := rfl
      rw [hlist, code_append, code, String.ofList_append, String.ofList_append, ih]
      simp [String.intercalate_cons_cons, String.append_assoc]

/-- What is printed for arguments or elements stays on its line. -/
theorem args_isInk (ctx : Context) (args : List Arg) :
    (Pieces.list (PrintedArg.all (emitArgs ctx args))).all Piece.isInk = true := by
  have hargs : ∀ a ∈ emitArgs ctx args, a.IsPhrase fun _ => True :=
    emitArgs_phrase ctx args fun _ _ => trivial
  exact (Phrase.list (PrintedArg.list_inline hargs)).isInk

theorem code_args (ctx : Context) (args : List Arg) :
    String.ofList ((Pieces.list (PrintedArg.all (emitArgs ctx args))).code helper) =
      ", ".intercalate (args.map (Arg.written ctx helper)) := by
  rw [code_list, PrintedArg.all_emitArgs, List.map_map]
  congr 1
  exact List.map_congr_left fun a _ => (Arg.written_eq a).symm

section

variable (hh : helper.toList.all isWordChar = true)

include hh

/-- Between brackets the commas part the items of a list, if none of them is a list itself. -/
theorem list_isListIn {ps : List Pieces}
    (hps : ∀ p ∈ ps, Phrase (fun n => isIdentifier n = true) false p)
    (hne : ∀ p ∈ ps, lexemes (p.code helper) ≠ []) {b : Char × Char}
    (hb : b.1 ∈ delimiters ∧ b.2 ∈ delimiters) :
    IsListIn b (lexemes (b.1 :: ((Pieces.list ps).code helper ++ [b.2])))
      (ps.map fun p => lexemes (code helper p)) := by
  obtain ⟨hlist, hlexemes⟩ := lexemes_list fun p hp => ((hps p hp).confines hh .nothing rfl).1
  rw [lexemes_cons_delimiter hb.1, lexemes_append_delimiter hlist hb.2, hlexemes]
  refine isListIn_commaed b (List.forall_mem_map.mpr fun p hp => ?_)
  obtain ⟨hn, hc⟩ := ((hps p hp).confines hh).lexemes
  exact ⟨hne p hp, hn, hc rfl⟩

theorem args_isListIn (ctx : Context) {args : List Arg} (ha : ∀ n ∈ Arg.listNames args, isName n = true)
    {b : Char × Char} (hb : b.1 ∈ delimiters ∧ b.2 ∈ delimiters) :
    IsListIn b
      (lexemes (b.1 :: ((Pieces.list (PrintedArg.all (emitArgs ctx args))).code helper ++ [b.2])))
      (args.map (Arg.shown ctx helper)) := by
  rw [Arg.listNames_eq_flatMap] at ha
  have hnames : ∀ a ∈ args, ∀ n ∈ a.names, isName n = true := fun a hm n hn =>
    ha n (List.mem_flatMap.mpr ⟨a, hm, hn⟩)
  have hitem : ∀ a ∈ args, Item true .arguments (a.shown ctx helper) (a.isConstant ctx true false) := by
    refine fun a hm => arg_item rfl fun e he => emitExpr_fits hh ctx true e fun n hn => hnames a hm n ?_
    cases a with
    | value | spread => cases he; exact hn
    | hole => cases he
  have hphrases : ∀ p ∈ PrintedArg.all (emitArgs ctx args),
      Phrase (fun n => isIdentifier n = true) false p := by
    rw [PrintedArg.all_emitArgs]
    exact List.forall_mem_map.mpr fun a hm =>
      (emitArg_phrase ctx a (isIdentifier_of_isName (hnames a hm))).pieces
  have hne : ∀ p ∈ PrintedArg.all (emitArgs ctx args), lexemes (code helper p) ≠ [] := by
    rw [PrintedArg.all_emitArgs]
    exact List.forall_mem_map.mpr fun a hm => (hitem a hm).ne_nil rfl
  have hshown : (PrintedArg.all (emitArgs ctx args)).map (fun p => lexemes (code helper p)) =
      args.map (Arg.shown ctx helper) := by
    rw [PrintedArg.all_emitArgs, List.map_map]
    rfl
  exact hshown ▸ list_isListIn hh hphrases hne hb

end

end TsToPhp
