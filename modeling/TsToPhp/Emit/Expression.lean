import TsToPhp.Emit.ObjectModel
import TsToPhp.Emit.Template
import TsToPhp.Php.Number
import TsToPhp.Php.Operator

/-! Expressions. Each is first offered to the object rule, then printed as it stands. -/

namespace TsToPhp

def quoted (s : String) : Piece := .text (Php.quote s)

/-- Global constants have PHP names; all other names are variables. -/
def variableNamed (name : String) : Pieces :=
  match name with
  | "undefined" => [.text "null"]
  | "NaN" => [.text "NAN"]
  | "Infinity" => [.text "INF"]
  | name => [.text "$", .text name]

/-- An argument, with the dots of a spread apart. -/
structure PrintedArg where
  marker : Pieces
  value : Pieces

namespace PrintedArg

def pieces (a : PrintedArg) : Pieces := a.marker ++ a.value

def all (args : List PrintedArg) : List Pieces := args.map pieces

/-- The value of the first argument, or `null`. -/
def first (args : List PrintedArg) : Pieces :=
  match args with
  | [] => [.text "null"]
  | a :: _ => a.value

def call (args : List PrintedArg) : Pieces := (Pieces.list (all args)).parens

end PrintedArg

def UnsupportedExpr.what : UnsupportedExpr → String
  | sequence => "comma expression"
  | optionalChain => "optional chaining"
  | await => "await"
  | yield => "yield"
  | taggedTemplate => "tagged template"
  | metaProperty => "meta property"
  | privateName => "private name"
  | other => "this expression"

def UnsupportedMember.what : UnsupportedMember → String
  | method => "object literal method"
  | getter => "object literal getter"
  | setter => "object literal setter"
  | defaultValue => "default value in object literal"

/-- Operands that another operator would tear apart, or that `->` would not bind to. -/
def Expr.isOpenObject : Expr → Bool
  | .new .. => true
  | e => e.isOperation

/-- Within a binary operation only the same operator goes without parentheses. -/
def Expr.needsParensIn (parent : BinaryOp) : Expr → Bool
  | .binary _ op _ _ => op != parent
  | e => e.isOperation

/-- PHP does not nest conditionals without parentheses. -/
def Expr.needsParensInConditional : Expr → Bool
  | .conditional .. | .assign .. => true
  | _ => false

def Expr.className? : Expr → Option String
  | .ident id => some id.name
  | _ => none

/-- Why an expression cannot be assigned to. -/
def Expr.targetFault? : Expr → Option String
  | .ident _ | .member .. => none
  | .superMember .. => some "assignment to a super property"
  | _ => some "this assignment target"

namespace Context

/-- A class of the module by its name. -/
def classNamed? (ctx : Context) (e : Expr) : Option String :=
  e.className?.filter ctx.isClass

/-- `C::$name` for a class `C` of the module, `$o->name` on instances and `$o["name"]` on arrays.
The printed key is that of a computed access. -/
def memberAccess (ctx : Context) (span : Span) (receiver : Expr) (key : Key)
    (printed printedKey : Pieces) : Pieces :=
  let object := printed.parensIf receiver.isOpenObject
  ctx.repeated (ctx.memberReport span key) ++
    match key with
    | .name id =>
      match ctx.classNamed? receiver with
      | some className => [.text className, .text "::$", .text id.name]
      | none =>
        object ++
          if ctx.isInstance receiver then [.text "->", .text id.name]
          else [.text "[", quoted id.name, .text "]"]
    | .hidden name => object ++ [.text "->", .text name]
    | .computed _ =>
      object ++
        if ctx.isInstance receiver then .text "->\x7b" :: printedKey ++ [.text "\x7d"]
        else .text "[" :: printedKey ++ [.text "]"]

/-- What is called in a method call: `C::name`, `$o->name`, or the value of the member. -/
def methodAccess (ctx : Context) (span : Span) (receiver : Expr) (key : Key)
    (printed printedKey : Pieces) : Pieces :=
  match key with
  | .name id =>
    match ctx.classNamed? receiver with
    | some className => [.text className, .text "::", .text id.name]
    | none =>
      if ctx.isInstance receiver then
        printed.parensIf receiver.isOpenObject ++ [.text "->", .text id.name]
      else ctx.memberAccess span receiver key printed printedKey
  | _ => ctx.memberAccess span receiver key printed printedKey

/-- What stands for a call of a method of `receiver`. -/
def replacement (ctx : Context) (form : ObjectCall) (receiver : Expr) (printed : Pieces)
    (args : List PrintedArg) : Pieces :=
  match form with
  | .static (.helper h) => h.apply printed (PrintedArg.all args)
  | .static .firstArgument => PrintedArg.first args
  | .existence => ctx.existenceCheck receiver printed (PrintedArg.first args)

def literal (ctx : Context) (span : Span) : Literal → Pieces
  | .string value => [quoted (value.getD "")]
  | .number value => [.text (Php.number value)]
  | .boolean value => [.text (if value then "true" else "false")]
  | .null => [.text "null"]
  | .bigint value => [.text (toString value)]
  | .regex => ctx.nullInstead span "regular expression literal"
  | .jsxText => ctx.nullInstead span "JSX text"

end Context

mutual

def emitExpr (ctx : Context) (hint : Hint) : Expr → Pieces
  | .this _ => [.text "$this"]
  | .ident id => variableNamed id.name
  | .literal span value => ctx.literal span value
  | .template _ chunks exprs => Template.pieces chunks (emitOperands ctx exprs)
  | .array _ elements =>
    .text "[" :: Pieces.list (PrintedArg.all (emitArgs ctx elements)) ++ [.text "]"]
  | .object _ members => .text "[" :: emitMembers ctx true members ++ [.text "]"]
  | .paren _ inner => (emitExpr ctx .value inner).parens
  | .member span receiver key =>
    ctx.memberAccess span receiver key (emitExpr ctx .value receiver) (emitKey ctx key)
  | .superMember span name =>
    match name with
    | some id => [.text "parent::", .text id.name]
    | none => ctx.nullInstead span "computed super property"
  | .call span callee args =>
    match callee with
    | .super => .text "parent::__construct" :: PrintedArg.call (emitArgs ctx args)
    | .dynamicImport span => ctx.nullInstead span "dynamic import"
    | .method methodSpan receiver key =>
      match if ctx.ruleCopies = 0 then none else ctx.objectCall? hint receiver key with
      | some form =>
        ctx.callReport hint span receiver key ++
          ctx.replacement form receiver (emitExpr ctx .value receiver) (emitArgs ctx args)
      | none =>
        ctx.repeated (ctx.callReport hint span receiver key) ++
          ctx.methodAccess methodSpan receiver key (emitExpr ctx .value receiver)
            (emitKey ctx key) ++
          PrintedArg.call (emitArgs ctx args)
    | .expr f =>
      (match f.className? with
        | some name => [.text name]
        | none => (emitExpr ctx .value f).parensIf (!f.isParen)) ++
      PrintedArg.call (emitArgs ctx args)
  | .new _ callee args =>
    .text "new " ::
      (match callee.className? with
        | some name => [.text name]
        | none => (emitExpr ctx .value callee).parens) ++
      PrintedArg.call (emitArgs ctx args)
  | .unary span op arg =>
    match op.php? with
    | some text => .text text :: (emitExpr ctx .value arg).parensIf arg.isOperation
    | none =>
      if op = .void ∧ arg.isLiteral then [.text "null"] else ctx.operatorError span op.text
  | .update _ op before arg =>
    if before then .text op.text :: emitExpr ctx .value arg
    else emitExpr ctx .value arg ++ [.text op.text]
  | .binary span op left right =>
    if op = .isIn ∧ hint = .value ∧ ctx.ruleCopies ≠ 0 then
      ctx.existenceCheck right (emitExpr ctx .value right) (emitExpr ctx .value left)
    else
      match op.php? (left.isStringish || right.isStringish) with
      | some text =>
        (emitExpr ctx .value left).parensIf (left.needsParensIn op) ++
          [.text " ", .text text, .text " "] ++
          match if op = .instanceOf then right.className? else none with
          | some name => [.text name]
          | none => (emitExpr ctx .value right).parensIf (right.needsParensIn op)
      | none => ctx.operatorError span op.text
  | .assign span op target value =>
    match op.php? value.isStringish with
    | none => ctx.operatorError span op.text
    | some text =>
      let assignment (place : Pieces) : Pieces :=
        place ++ [.text " ", .text text, .text " "] ++ emitExpr ctx .value value
      match target with
      | none => ctx.nullInstead span "destructuring assignment"
      | some place =>
        match place.targetFault? with
        | none => assignment (emitExpr ctx .value place)
        | some what => ctx.nullInstead span what
  | .conditional _ test yes no =>
    (emitExpr ctx .value test).parensIf test.needsParensInConditional ++ .text " ? " ::
      (emitExpr ctx .value yes).parensIf yes.needsParensInConditional ++ .text " : " ::
      (emitExpr ctx .value no).parensIf no.needsParensInConditional
  | .arrow span params value _ isAsync isGenerator =>
    match value with
    | none => ctx.nullInstead span "arrow function with a block body"
    | some value =>
      if isAsync || isGenerator then ctx.nullInstead span "async arrow function"
      else
        .text "fn" :: (Pieces.list (emitPatterns ctx params)).parens ++ .text " => " ::
          emitExpr ctx .value value
  | .cast _ inner _ | .wrapped _ _ inner => emitExpr ctx .value inner
  | .functionExpr f => ctx.nullInstead f.span "function expression"
  | .classExpr _ c => ctx.nullInstead c.span "class expression"
  | .unsupported span kind => ctx.nullInstead span kind.what

/-- Operands of a concatenation. -/
def emitOperands (ctx : Context) : List Expr → List Pieces
  | [] => []
  | e :: es => (emitExpr ctx .value e).parensIf e.isOperation :: emitOperands ctx es

def emitArg (ctx : Context) : Arg → PrintedArg
  | .value e => ⟨[], emitExpr ctx .value e⟩
  | .spread e => ⟨[.text "..."], emitExpr ctx .value e⟩
  | .hole => ⟨[], [.text "null"]⟩

def emitArgs (ctx : Context) : List Arg → List PrintedArg
  | [] => []
  | a :: as => emitArg ctx a :: emitArgs ctx as

/-- The expression of a computed key. -/
def emitKey (ctx : Context) : Key → Pieces
  | .computed e => emitExpr ctx .value e
  | _ => []

/-- Members without PHP form leave no gap. -/
def emitMembers (ctx : Context) (isFirst : Bool) : List ObjectMember → Pieces
  | [] => []
  | m :: ms =>
    let separator : Pieces := if isFirst then [] else [.text ", "]
    match m with
    | .unsupported span kind =>
      ctx.error .unsupportedExpression span kind.what :: emitMembers ctx isFirst ms
    | .spread e =>
      separator ++ .text "..." :: emitExpr ctx .value e ++ emitMembers ctx false ms
    | .shorthand id =>
      separator ++ [quoted id.name, .text " => "] ++ variableNamed id.name ++ emitMembers ctx false ms
    | .keyValue key value =>
      separator ++
        (match key with
          | .name id => [quoted id.name]
          | .hidden name => [quoted name]
          | .computed e => emitExpr ctx .value e) ++
        .text " => " :: emitExpr ctx .value value ++ emitMembers ctx false ms

/-- A parameter, or a variable of a loop's head. -/
def emitPattern (ctx : Context) : Pattern → Pieces
  | .ident id _ => [.text "$", .text id.name]
  | .assign _ left value => emitPattern ctx left ++ .text " = " :: emitExpr ctx .value value
  | .rest _ arg _ => .text "..." :: emitPattern ctx arg
  | .property _ inner => emitPattern ctx inner
  | .compound span _ =>
    [ctx.error .unsupportedExpression span "destructuring parameter", .text "$_"]

def emitPatterns (ctx : Context) : List Pattern → List Pieces
  | [] => []
  | p :: ps => emitPattern ctx p :: emitPatterns ctx ps

end

end TsToPhp
