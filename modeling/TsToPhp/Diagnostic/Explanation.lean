import TsToPhp.Diagnostic.Code

/-! What the codes of diagnostics mean, at the length of a paragraph. -/

namespace TsToPhp

structure Explanation where
  title : String
  description : String
  sample : Option String
  suggestion : Option String
  related : List Code
  deriving Repr

def Code.explanation : Code → Explanation
  | parseError =>
    { title := "Parse Error"
      description :=
        "The TypeScript parser encountered invalid syntax. A fatal error stops the file from being " ++
        "transpiled; recoverable errors are reported as warnings."
      sample := some "const x = ;  // Missing value"
      suggestion := some "Fix the syntax error; tsphp only accepts code that tsc would parse."
      related := [] }
  | unsupportedStatement =>
    { title := "Unsupported Statement"
      description :=
        "This statement or declaration has no PHP translation and was skipped. Imports and export " ++
        "lists are reported as warnings since the module system is left to the PHP autoloader."
      sample := some "enum Color \x7b Red, Green \x7d"
      suggestion :=
        some "Replace enums with class constants and keep module wiring on the PHP side."
      related := [unsupportedExpression] }
  | unsupportedExpression =>
    { title := "Unsupported Expression"
      description :=
        "This expression has no PHP translation. `null` was written in its place so the rest of the " ++
        "file still prints."
      sample := some "const re = /a+b/;"
      suggestion :=
        some "Move the logic into a PHP helper, or rewrite it with supported constructs."
      related := [unsupportedStatement, unsupportedOperator] }
  | unsupportedOperator =>
    { title := "Unsupported Operator"
      description :=
        "The operator has no PHP counterpart, or the `in` operator appeared where its value is " ++
        "discarded."
      sample := some "const t = typeof value;"
      suggestion :=
        some "Use an explicit check such as `value instanceof Foo` or a helper function."
      related := [unsupportedExpression] }
  | unsupportedObjectMethod =>
    { title := "Unsupported Object Method"
      description :=
        "Only Object.assign, Object.keys, Object.values and Object.freeze are translated.\n\n" ++
        "Plain objects become PHP associative arrays, so the supported statics map onto\n" ++
        "array_merge, array_keys and array_values. Other Object statics have no array\n" ++
        "equivalent that preserves their meaning."
      sample := some "const pairs = Object.entries(row);"
      suggestion :=
        some ("Rewrite with the supported statics:\n\n" ++
          "const pairs = Object.keys(row).map((k) => [k, row[k]]);")
      related := [prototypeAccess] }
  | prototypeAccess =>
    { title := "Prototype Access"
      description :=
        "PHP classes have no prototype object, so reading or extending `X.prototype` cannot be " ++
        "translated."
      sample := some "User.prototype.greet = function () \x7b ... \x7d;"
      suggestion := some "Declare the method inside the class body."
      related := [unsupportedObjectMethod] }
  | internalError =>
    { title := "Internal Error"
      description := "The transpiler hit a state it does not expect. This is a bug in tsphp."
      sample := none
      suggestion := some "Run again with -vvv and report the input that triggered it."
      related := [] }

end TsToPhp
