import TsToPhp.Emit.Rule
import TsToPhp.Proofs.PrintedLists

/-! Calls of PHP functions in place of method calls. What is passed is the receiver, if it is asked for and
there is one, and as many of the arguments as the function takes. -/

namespace TsToPhp

open Php Pieces

namespace NamedHelper

/-- What is passed to the function, the receiver in front. -/
def passed (h : NamedHelper) (callee : Callee) (args : List Arg) : List Arg :=
  (if h.takesReceiver then (callee.receiver?.map Arg.value).toList else []) ++
    match h.maxArgs with
    | some n => args.take (min n args.length)
    | none => args

theorem emit_eq (ctx : Context) (h : NamedHelper) (callee : Callee) (args : List Arg) :
    h.emit ctx callee args = .helperPrefix :: .text h.name ::
      (Pieces.list (PrintedArg.all (emitArgs ctx (h.passed callee args)))).parens := by
  have harguments : h.arguments (callee.receiver?.map (emitExpr ctx .value))
      (PrintedArg.all (emitArgs ctx args)) = PrintedArg.all (emitArgs ctx (h.passed callee args)) := by
    have hreceiver : (callee.receiver?.map (emitExpr ctx .value)).toList =
        PrintedArg.all (emitArgs ctx (callee.receiver?.map Arg.value).toList) := by
      cases callee.receiver? <;> simp [PrintedArg.all_emitArgs, emitArg, PrintedArg.pieces]
    simp only [arguments, passed, PrintedArg.all_emitArgs, List.map_append] at hreceiver ⊢
    congr 1
    · cases h.takesReceiver with
      | false => rfl
      | true => exact hreceiver
    · cases h.maxArgs with
      | none => rfl
      | some n => simp [List.map_take, List.take_eq_take_min]
  rw [emit, apply_eq, harguments]

end NamedHelper

/-- The call that a helper stands for is written as its name behind the prefix, and in parentheses the
receiver, if it is asked for and there is one, and the first arguments, with commas between them. None of
these texts is empty, and what PHP reads between the commas are just these. -/
theorem helper_call_written (ctx : Context) (helper : String) (h : NamedHelper) (callee : Callee)
    (args : List Arg) (w : Writer) :
    let passed := h.passed callee args
    let items := passed.map (Arg.written ctx helper)
    let call := helper ++ h.name ++ "(" ++ ", ".intercalate items ++ ")"
    w.putAll helper (h.emit ctx callee args) = w.write call ∧ "" ∉ items ∧
      (helper.toList.all isWordChar = true → h.name.toList.all isWordChar = true →
        (∀ n ∈ Arg.listNames passed, isName n = true) →
        ∃ inner, lexemes call.toList = lexemes (helper ++ h.name).toList ++ inner ∧
          IsListIn ('(', ')') inner (items.map fun s => lexemes s.toList)) := by
  intro passed items call
  let inside := (Pieces.list (PrintedArg.all (emitArgs ctx passed))).code helper
  have hinside : String.ofList inside = ", ".intercalate items := code_args ctx passed
  have hcode : (h.emit ctx callee args).code helper =
      (helper ++ h.name).toList ++ '(' :: (inside ++ [')']) := by
    simp [h.emit_eq, parens, code, code_append, inside, passed]
  have hcall : call.toList = (helper ++ h.name).toList ++ '(' :: (inside ++ [')']) := by
    simp [call, ← hinside]
  refine ⟨?_, ?_, fun hh hname hnames => ?_⟩
  · have hink : (h.emit ctx callee args).all Piece.isInk = true := by
      simpa [h.emit_eq, parens, Piece.isInk] using args_isInk ctx passed
    rw [Writer.putAll_of_ink hink, hcode, ← hcall, String.ofList_toList]
  · simp only [items, List.mem_map, not_exists, not_and]
    exact fun a _ => a.written_ne_empty
  · have hword : Confines true (helper ++ h.name).toList :=
      .chars (p := isWordChar) (by decide) (by simp [hh, hname])
    have hsplit : lexemes call.toList =
        lexemes (helper ++ h.name).toList ++ lexemes ('(' :: (inside ++ [')'])) := by
      rw [hcall, lexemes_append_delimiter (hword .nothing rfl).1 (by decide),
        lexemes_cons_delimiter (by decide)]
    have hitems : (items.map fun s => lexemes s.toList) = passed.map (Arg.shown ctx helper) := by
      simp [items, Arg.shown, Arg.written_eq]
    rw [hitems]
    exact ⟨_, hsplit, args_isListIn hh ctx hnames (b := ('(', ')')) (by decide)⟩

/-- A receiver, two of three arguments, and a comma within one of them. -/
theorem helper_call_written_capped :
    let v (name : String) : Expr := .ident ⟨name, .none⟩
    let h : NamedHelper := (NamedHelper.of "pick").withMaxArgs 2
    let callee : Callee := .method .none (v "o") (.name ⟨"m", .none⟩)
    let args : List Arg := [.value (v "a"), .spread (.array .none [.value (v "b"), .hole]), .value (v "c")]
    let call := "\\pick($o, $a, ...[$b, null])"
    Writer.empty.putAll "\\" (h.emit .bare callee args) = Writer.empty.write call ∧
      ∃ inner, lexemes call.toList = [Lexeme.word "\\pick"] ++ inner ∧
        IsListIn ('(', ')') inner (["$o", "$a", "...[$b, null]"].map fun s => lexemes s.toList) := by
  intro v h callee args call
  have hcall : "\\" ++ h.name ++ "(" ++
      ", ".intercalate ((h.passed callee args).map (Arg.written .bare "\\")) ++ ")" = call := by rfl
  have hitems : (h.passed callee args).map (Arg.written .bare "\\") = ["$o", "$a", "...[$b, null]"] := by
    rfl
  have hname : lexemes ("\\" ++ h.name).toList = [.word "\\pick"] := by decide
  obtain ⟨hwritten, -, hlist⟩ := helper_call_written .bare "\\" h callee args .empty
  rw [hcall] at hwritten hlist
  rw [hitems] at hlist
  exact ⟨hwritten, hname ▸ hlist (by decide) (by decide) (by decide)⟩

/-- There is no receiver and no argument, and no comma either. -/
example :
    let h := (NamedHelper.of "pick").withMaxArgs 0
    let call := h.emit .bare (.expr (.ident ⟨"f", .none⟩)) [.value (.this .none)]
    (Writer.empty.putAll "\\" call).text = "\\pick()" := by
  rfl

end TsToPhp
