import TsToPhp.Proofs.Structure

/-! Where jumps lead. A `continue` passes over a `switch` in TypeScript and stops at it in PHP, so
that printed jumps keep their targets but for a `continue` right inside a `switch`. -/

namespace TsToPhp

/-- The loops, switches and jumps of a program in the order of its text. -/
inductive Flow where
  | enter (isSwitch : Bool)
  | leave
  | jump (isContinue : Bool)
  deriving DecidableEq, Repr

/-- A loop or a switch. They are numbered as they begin. -/
structure Construct where
  number : Nat
  isSwitch : Bool
  deriving DecidableEq, Repr

/-- A jump with the constructs around it, the innermost first. -/
structure Jump where
  isContinue : Bool
  around : List Construct
  deriving DecidableEq, Repr

def Flow.jumps (around : List Construct) (next : Nat) : List Flow → List Jump
  | [] => []
  | .enter isSwitch :: flow => jumps (⟨next, isSwitch⟩ :: around) (next + 1) flow
  | .leave :: flow => jumps around.tail next flow
  | .jump isContinue :: flow => ⟨isContinue, around⟩ :: jumps around next flow

namespace Jump

/-- A `break` ends the innermost construct, a `continue` goes on with the innermost loop. -/
def sourceTarget (j : Jump) : Option Construct :=
  if j.isContinue then j.around.find? (!·.isSwitch) else j.around.head?

/-- PHP takes a switch for a loop, whichever the jump. -/
def phpTarget (j : Jump) : Option Construct := j.around.head?

/-- Is this a `continue` with no loop between it and a switch? -/
def continuesSwitch (j : Jump) : Bool := j.isContinue && j.around.head?.any (·.isSwitch)

theorem phpTarget_eq_sourceTarget_iff (j : Jump) :
    j.phpTarget = j.sourceTarget ↔ j.continuesSwitch = false := by
  obtain ⟨isContinue, around⟩ := j
  cases isContinue with
  | false => simp [phpTarget, sourceTarget, continuesSwitch]
  | true =>
    cases around with
    | nil => simp [phpTarget, sourceTarget, continuesSwitch]
    | cons c cs =>
      cases hc : c.isSwitch with
      | false => simp [phpTarget, sourceTarget, continuesSwitch, hc]
      | true =>
        have hne : some c ≠ cs.find? (!·.isSwitch) := fun he => by
          have hs := List.find?_some he.symm
          simp [hc] at hs
        simpa [phpTarget, sourceTarget, continuesSwitch, hc] using hne

end Jump

namespace Php

mutual

def Stmt.flow : Stmt → List Flow
  | .block body => Stmt.listFlow body
  | .ifElse _ yes no => Stmt.listFlow yes ++ no.flow
  | .whileLoop _ body | .doWhileLoop body _ | .forLoop _ _ _ body | .foreach _ _ body =>
    .enter false :: Stmt.listFlow body ++ [.leave]
  | .switch _ cases => .enter true :: Case.listFlow cases ++ [.leave]
  | .tryCatch body handlers finalizer =>
    Stmt.listFlow body ++ (Handler.listFlow handlers ++ Stmt.optionFlow finalizer)
  | .breaks => [.jump false]
  | .continues => [.jump true]
  | .expr _ | .returns _ | .throws _ => []

def Stmt.listFlow : List Stmt → List Flow
  | [] => []
  | s :: ss => s.flow ++ Stmt.listFlow ss

def Stmt.optionFlow : Option (List Stmt) → List Flow
  | none => []
  | some body => Stmt.listFlow body

def Else.flow : Else → List Flow
  | .nothing => []
  | .elseIf _ yes no => Stmt.listFlow yes ++ no.flow
  | .otherwise body => Stmt.listFlow body

def Case.listFlow : List Case → List Flow
  | [] => []
  | .mk _ body :: cases => Stmt.listFlow body ++ Case.listFlow cases

def Handler.listFlow : List Handler → List Flow
  | [] => []
  | .mk _ body :: handlers => Stmt.listFlow body ++ Handler.listFlow handlers

end

theorem Stmt.listFlow_append (as bs : List Stmt) :
    listFlow (as ++ bs) = listFlow as ++ listFlow bs := by
  induction as with
  | nil => simp [listFlow]
  | cons a as ih => simp [listFlow, ih]

end Php

mutual

/-- Jumps with a label are none of these. -/
def Stmt.flow : Stmt → List Flow
  | .block _ stmts => Stmt.listFlow stmts
  | .ifElse _ _ yes no => yes.flow ++ Stmt.optionFlow no
  | .whileLoop _ _ body | .doWhileLoop _ body _ | .forLoop _ _ _ _ body | .forInLoop _ body
  | .forOfLoop _ _ _ _ body => .enter false :: body.flow ++ [.leave]
  | .switch _ _ cases => .enter true :: Case.listFlow cases ++ [.leave]
  | .tryCatch _ body _ handler finalizer =>
    body.flow ++ (Stmt.optionFlow handler ++ Stmt.optionFlow finalizer)
  | .labeled _ body => body.flow
  | .breaks _ isLabeled => if isLabeled then [] else [.jump false]
  | .continues _ isLabeled => if isLabeled then [] else [.jump true]
  | .expr .. | .decl _ | .empty _ | .returns .. | .throws .. | .withBlock _ | .debugger _ => []

def Stmt.listFlow : List Stmt → List Flow
  | [] => []
  | s :: ss => s.flow ++ Stmt.listFlow ss

def Stmt.optionFlow : Option Stmt → List Flow
  | none => []
  | some s => s.flow

def Case.listFlow : List Case → List Flow
  | [] => []
  | .mk _ body :: cases => Stmt.listFlow body ++ Case.listFlow cases

end

theorem declarators_flow (ctx : Context) (helper : String) (ds : List Declarator) :
    Php.Stmt.listFlow (ds.flatMap (Declarator.outline ctx helper)) = [] := by
  induction ds with
  | nil => rfl
  | cons d ds ih =>
    obtain ⟨span, pattern, init⟩ := d
    rw [List.flatMap_cons, Php.Stmt.listFlow_append, ih]
    cases pattern <;> rfl

section

variable {ctx : Context} {helper : String} {accepts : Expr → Bool}

mutual

theorem outline_flow (s : Stmt) (hs : s.hasForm accepts = true) (place : Place) :
    Php.Stmt.listFlow (s.outline ctx helper place) = s.flow := by
  cases s with
  | expr | empty | returns | throws => rfl
  | decl d =>
    cases d with
    | «variables» span isDeclared declarators =>
      cases isDeclared with
      | true => rfl
      | false => exact declarators_flow ctx helper declarators
    | functionDecl | classDecl | typeDecl | enumDecl | namespaceDecl | usingDecl => cases hs
  | block span stmts =>
    have hbody := listOutline_flow stmts hs
    cases place with
    | inBraces => exact hbody
    | line | afterElse => simpa [Stmt.outline, Php.Stmt.listFlow, Php.Stmt.flow, Stmt.flow] using hbody
  | ifElse span test yes no =>
    simp only [Stmt.hasForm, Bool.and_eq_true] at hs
    simp [Stmt.outline, Php.Stmt.listFlow, Php.Stmt.flow, Stmt.flow,
      outline_flow yes hs.1 .inBraces, elseOutline_flow no hs.2]
  | whileLoop span test body =>
    simp [Stmt.outline, Php.Stmt.listFlow, Php.Stmt.flow, Stmt.flow, outline_flow body hs .inBraces]
  | doWhileLoop span body test =>
    simp [Stmt.outline, Php.Stmt.listFlow, Php.Stmt.flow, Stmt.flow, outline_flow body hs .inBraces]
  | forLoop span init test update body =>
    simp [Stmt.outline, Php.Stmt.listFlow, Php.Stmt.flow, Stmt.flow, outline_flow body hs .inBraces]
  | forOfLoop span isAwait heads subject body =>
    simp only [Stmt.hasForm, Bool.and_eq_true] at hs
    obtain ⟨name, hname⟩ := Option.isSome_iff_exists.mp hs.1.2
    simp [Stmt.outline, hname, Php.Stmt.listFlow, Php.Stmt.flow, Stmt.flow,
      outline_flow body hs.2 .inBraces]
  | switch span subject cases =>
    simp [Stmt.outline, Php.Stmt.listFlow, Php.Stmt.flow, Stmt.flow, caseOutline_flow cases hs]
  | tryCatch span body param handler finalizer =>
    simp only [Stmt.hasForm, Bool.and_eq_true] at hs
    have hhandler : Php.Handler.listFlow ((Stmt.optionOutline ctx helper handler).toList.map
        (.mk (catchBinding param).toList)) = Stmt.optionFlow handler := by
      have ho := optionOutline_flow handler hs.1.2
      cases handler with
      | none => rfl
      | some h => simpa [Stmt.optionOutline, Php.Handler.listFlow, Php.Stmt.optionFlow] using ho
    simp [Stmt.outline, Php.Stmt.listFlow, Php.Stmt.flow, Stmt.flow, hhandler,
      outline_flow body hs.1.1 .inBraces, optionOutline_flow finalizer hs.2]
  | breaks span isLabeled | continues span isLabeled =>
    have hl : isLabeled = false := by simpa [Stmt.hasForm] using hs
    simp [Stmt.outline, Php.Stmt.listFlow, Php.Stmt.flow, Stmt.flow, hl]
  | forInLoop | labeled | withBlock | debugger => cases hs

theorem listOutline_flow (ss : List Stmt) (hs : Stmt.listHasForm accepts ss = true) :
    Php.Stmt.listFlow (Stmt.listOutline ctx helper ss) = Stmt.listFlow ss := by
  cases ss with
  | nil => rfl
  | cons s ss =>
    simp only [Stmt.listHasForm, Bool.and_eq_true] at hs
    rw [Stmt.listOutline, Php.Stmt.listFlow_append, outline_flow s hs.1, listOutline_flow ss hs.2,
      Stmt.listFlow]

theorem optionOutline_flow (o : Option Stmt) (ho : Stmt.optionHasForm accepts o = true) :
    Php.Stmt.optionFlow (Stmt.optionOutline ctx helper o) = Stmt.optionFlow o := by
  cases o with
  | none => rfl
  | some s => exact outline_flow s ho .inBraces

theorem elseOutline_flow (o : Option Stmt) (ho : Stmt.optionHasForm accepts o = true) :
    (Stmt.elseOutline ctx helper o).flow = Stmt.optionFlow o := by
  cases o with
  | none => rfl
  | some s =>
    cases hi : s.isIf with
    | false =>
      rw [elseOutline_of_isIf hi]
      exact outline_flow s ho .inBraces
    | true =>
      cases s with
      | ifElse span test yes no =>
        simp only [Stmt.optionHasForm, Stmt.hasForm, Bool.and_eq_true] at ho
        rw [Stmt.elseOutline, Php.Else.flow, outline_flow yes ho.1, elseOutline_flow no ho.2,
          Stmt.optionFlow, Stmt.flow]
      | _ => cases hi

theorem caseOutline_flow (cs : List Case) (hc : Case.listHasForm accepts cs = true) :
    Php.Case.listFlow (Case.listOutline ctx helper cs) = Case.listFlow cs := by
  match cs with
  | [] => rfl
  | .mk test body :: cases =>
    simp only [Case.listHasForm, Bool.and_eq_true] at hc
    rw [Case.listOutline, Php.Case.listFlow, listOutline_flow body hc.1, caseOutline_flow cases hc.2,
      Case.listFlow]

end

end

/-- The jumps of a statement on its own. -/
def Stmt.jumps (s : Stmt) : List Jump := Flow.jumps [] 0 s.flow

def Php.Stmt.jumps (ss : List Php.Stmt) : List Jump := Flow.jumps [] 0 (Php.Stmt.listFlow ss)

theorem emitStmt_readProgram {ctx : Context} {helper : String}
    (hh : helper.toList.all Php.isCalm = true) {s : Stmt} (hn : ∀ n ∈ s.names, isIdentifier n = true)
    (hs : s.isStructured ctx helper = true) (level : Nat) (fresh : Bool) :
    Php.readProgram (String.ofList ((emitStmt ctx .line s).layout helper level fresh)) =
      some (s.outline ctx helper .line) := by
  refine Php.ShowsStmts.readProgram ?_
  rw [String.toList_ofList]
  exact (emitStmt_reads hh (ctx.tells_characters helper) s hn hs).line level fresh

/-- The text of a statement has the same jumps within the same loops and switches. PHP takes each of
them to the construct that the source means unless it is a `continue` right inside a `switch`. Where no
expression begins like another statement, the characters alone tell the same. -/
theorem printed_jump_keeps_target_iff (ctx : Context) {helper : String}
    (hh : helper.toList.all Php.isCalm = true) {s : Stmt} (hn : ∀ n ∈ s.names, isIdentifier n = true)
    (hs : s.hasForm (!ctx.isLost ·) = true) (w : Writer) :
    ∃ (symbols : List Php.Symbol) (program : List Php.Stmt),
      (w.putAll helper (emitStmt ctx .line s)).text =
        w.text ++ String.ofList (Php.written symbols) ∧
      Php.exprs symbols = (Php.Stmt.listTexts program).filter (· ≠ []) ∧
      Php.Symbols.read symbols = some program ∧
      (s.isStructured ctx helper = true →
        Php.readProgram (String.ofList (Php.written symbols)) = some program) ∧
      Php.Stmt.jumps program = s.jumps ∧
      ∀ j ∈ s.jumps, j.phpTarget = j.sourceTarget ↔ j.continuesSwitch = false := by
  have h := (emitStmt_reads hh (ctx.tells_expressions helper) s hn hs).line w.level w.atLineStart
  obtain ⟨symbols, htext, hexprs, -, hread⟩ := h.expressions
  refine ⟨symbols, s.outline ctx helper .line, ?_, hexprs, hread, fun hstructured => ?_, ?_,
    fun j _ => j.phpTarget_eq_sourceTarget_iff⟩
  · rw [htext, Writer.putAll_eq]
  · rw [htext]
    exact emitStmt_readProgram hh hn hstructured ..
  · rw [Php.Stmt.jumps, outline_flow s hs, Stmt.jumps]

theorem printed_jump_keeps_target_iff_nested :
    let v (name : String) : Expr := .ident ⟨name, .none⟩
    let inner : Stmt := .whileLoop .none (v "c") (.continues .none false)
    let cases : List Case := [.mk (some (v "d")) [inner, .breaks .none false]]
    let s : Stmt := .whileLoop .none (v "a")
      (.block .none [.switch .none (v "b") cases, .continues .none false])
    let outer : Construct := ⟨0, false⟩
    let switch : Construct := ⟨1, true⟩
    "\\".toList.all Php.isCalm = true ∧ (∀ n ∈ s.names, isIdentifier n = true) ∧
      s.hasForm (!Context.bare.isLost ·) = true ∧ s.isStructured .bare "\\" = true ∧
      s.jumps = [⟨true, [⟨2, false⟩, switch, outer]⟩, ⟨false, [switch, outer]⟩, ⟨true, [outer]⟩] ∧
      s.jumps.map Jump.sourceTarget = [some ⟨2, false⟩, some switch, some outer] ∧
      ∃ added program, (Writer.empty.putAll "\\" (emitStmt .bare .line s)).text = "" ++ added ∧
        Php.readProgram added = some program ∧ Php.Stmt.jumps program = s.jumps ∧
        ∀ j ∈ s.jumps, j.phpTarget = j.sourceTarget ↔ j.continuesSwitch = false := by
  intro v inner cases s outer switch
  have hc : "\\".toList.all Php.isCalm = true := by decide
  have hn : ∀ n ∈ s.names, isIdentifier n = true := by decide
  have hs : s.hasForm (!Context.bare.isLost ·) = true := by decide
  have hstructured : s.isStructured .bare "\\" = true := by decide
  obtain ⟨symbols, program, htext, -, -, hread, hjumps⟩ :=
    printed_jump_keeps_target_iff .bare hc hn hs .empty
  exact ⟨hc, hn, hs, hstructured, by decide, by decide, _, program, htext, hread hstructured, hjumps⟩

/-- A `continue` for the loop around a switch only ends the switch. -/
theorem continue_in_switch_misses_loop :
    let v (name : String) : Expr := .ident ⟨name, .none⟩
    let s : Stmt := .whileLoop .none (v "a")
      (.switch .none (v "b") [.mk (some (v "c")) [.continues .none false]])
    let text := (Writer.empty.putAll "\\" (emitStmt .bare .line s)).text
    text = "while ($a) \x7b\n    switch ($b) \x7b\n        case $c:\n            continue;\n" ++
        "    \x7d\n\x7d\n" ∧
      (emitStmt .bare .line s).diagnostics = [] ∧
      s.jumps.map Jump.sourceTarget = [some ⟨0, false⟩] ∧
      ∃ program, Php.readProgram text = some program ∧
        (Php.Stmt.jumps program).map Jump.phpTarget = [some ⟨1, true⟩] := by
  intro v s text
  have ht : text = String.ofList ((emitStmt .bare .line s).layout "\\" 0 true) := by
    simp [text, Writer.putAll_eq, Writer.empty]
  have hread : Php.readProgram (String.ofList ((emitStmt .bare .line s).layout "\\" 0 true)) =
      some (s.outline .bare "\\" .line) :=
    emitStmt_readProgram (by decide) (by decide) (by decide) 0 true
  exact ⟨by rfl, by rfl, by decide, s.outline .bare "\\" .line, by rw [ht, hread], by decide⟩

end TsToPhp
