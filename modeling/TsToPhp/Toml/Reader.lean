import TsToPhp.Toml.Scalar
import TsToPhp.Toml.Value

/-! Reading TOML 1.0 documents. -/

namespace TsToPhp.Toml

/-- What is wrong, and the text from there on. -/
structure Fault where
  rest : Rest
  message : String

abbrev Read (α : Type) := Except Fault α

def expected (what : String) (rest : Rest) : Fault :=
  ⟨rest, "invalid " ++ what⟩

def require {α : Type} (fault : Fault) : Option α → Read α
  | some a => .ok a
  | none => .error fault

def isBlank (c : Char) : Bool := c = ' ' || c = '\t'

def skipBlanks (cs : Rest) : Rest := cs.dropWhile isBlank

/-- Tabs are the only control characters in comments and on lines of strings. -/
def isLineChar (c : Char) : Bool :=
  c = '\t' || (0x20 ≤ c.val && c.val != 0x7f)

def newline? : Rest → Option Rest
  | '\n' :: cs => some cs
  | '\r' :: '\n' :: cs => some cs
  | _ => none

def skipComment (cs : Rest) : Rest :=
  match cs with
  | '#' :: cs => cs.dropWhile isLineChar
  | cs => cs

/-- The end of a line, which may be that of the document. -/
def lineEnd (cs : Rest) : Read Rest :=
  match skipComment (skipBlanks cs) with
  | [] => .ok []
  | rest => require (expected "line" rest) (newline? rest)

/-- Blanks, comments and ends of lines. -/
def skipLines : Nat → Rest → Rest
  | 0, cs => cs
  | fuel + 1, cs =>
    let cs := skipComment (skipBlanks cs)
    match newline? cs with
    | some rest => skipLines fuel rest
    | none => cs

def skipAllLines (cs : Rest) : Rest := skipLines (cs.length + 1) cs

/-! ### Strings -/

def codePoint? (digits : List Char) : Option Char :=
  let n := valueOf 16 digits
  if digits.all isHexDigit && (n < 0xd800 || (0xdfff < n && n < 0x110000)) then some (Char.ofNat n)
  else none

/-- The character behind a backslash. -/
def escape? : Rest → Option (Char × Rest)
  | 'b' :: cs => some ('\x08', cs)
  | 't' :: cs => some ('\t', cs)
  | 'n' :: cs => some ('\n', cs)
  | 'f' :: cs => some ('\x0c', cs)
  | 'r' :: cs => some ('\r', cs)
  | '"' :: cs => some ('"', cs)
  | '\\' :: cs => some ('\\', cs)
  | 'u' :: cs => do
    let c ← if 4 ≤ cs.length then codePoint? (cs.take 4) else none
    some (c, cs.drop 4)
  | 'U' :: cs => do
    let c ← if 8 ≤ cs.length then codePoint? (cs.take 8) else none
    some (c, cs.drop 8)
  | _ => none

/-- A string on one line, behind its first quote. -/
def basicString : Nat → Rest → Read (List Char × Rest)
  | 0, cs => .error (expected "basic string" cs)
  | fuel + 1, cs =>
    match cs with
    | '"' :: rest => .ok ([], rest)
    | '\\' :: rest => do
      let (c, rest) ← require (expected "escape sequence" rest) (escape? rest)
      let (s, rest) ← basicString fuel rest
      return (c :: s, rest)
    | c :: rest =>
      if isLineChar c then do
        let (s, rest) ← basicString fuel rest
        return (c :: s, rest)
      else .error (expected "basic string" cs)
    | [] => .error (expected "basic string" [])

def literalString : Rest → Read (List Char × Rest)
  | [] => .error (expected "literal string" [])
  | '\'' :: rest => .ok ([], rest)
  | c :: cs =>
    if isLineChar c then do
      let (s, rest) ← literalString cs
      return (c :: s, rest)
    else .error (expected "literal string" (c :: cs))

/-- Quotes at the end of a string over several lines: three close it, and up to two before them
belong to it. -/
def closing? (quote : Char) (cs : Rest) : Option (List Char × Rest) :=
  let quotes := cs.takeWhile (· = quote)
  if 3 ≤ quotes.length then
    let kept := min (quotes.length - 3) 2
    some (List.replicate kept quote, cs.drop (3 + kept))
  else none

/-- A string over several lines. With escapes, a backslash at the end of a line joins the next
line that is not blank. -/
def multiline (quote : Char) (escapes : Bool) : Nat → Rest → Read (List Char × Rest)
  | 0, cs => .error (expected "multiline string" cs)
  | fuel + 1, cs =>
    match closing? quote cs with
    | some (kept, rest) => .ok (kept, rest)
    | none =>
      match cs with
      | [] => .error (expected "multiline string" [])
      | c :: rest =>
        if c = '\\' && escapes then
          match newline? (skipBlanks rest) with
          | some next => multiline quote escapes fuel (next.dropWhile fun c => isBlank c || c = '\n' || c = '\r')
          | none => do
            let (c, rest) ← require (expected "escape sequence" rest) (escape? rest)
            let (s, rest) ← multiline quote escapes fuel rest
            return (c :: s, rest)
        else
          match newline? cs with
          | some rest => do
            let (s, rest) ← multiline quote escapes fuel rest
            return ('\n' :: s, rest)
          | none =>
            if isLineChar c then do
              let (s, rest) ← multiline quote escapes fuel rest
              return (c :: s, rest)
            else .error (expected "multiline string" cs)

/-- A newline right behind the opening quotes does not count. -/
def multilineBody (quote : Char) (escapes : Bool) (cs : Rest) : Read (List Char × Rest) :=
  let cs := (newline? cs).getD cs
  multiline quote escapes (cs.length + 1) cs

def string (cs : Rest) : Read (List Char × Rest) :=
  match cs with
  | '"' :: '"' :: '"' :: cs => multilineBody '"' true cs
  | '\'' :: '\'' :: '\'' :: cs => multilineBody '\'' false cs
  | '"' :: cs => basicString (cs.length + 1) cs
  | '\'' :: cs => literalString cs
  | cs => .error (expected "string" cs)

/-! ### Keys -/

def isBareKeyChar (c : Char) : Bool :=
  c.isAlphanum || c = '-' || c = '_'

def simpleKey (cs : Rest) : Read (String × Rest) :=
  match cs with
  | '"' :: cs => do
    let (s, rest) ← basicString (cs.length + 1) cs
    return (String.ofList s, rest)
  | '\'' :: cs => do
    let (s, rest) ← literalString cs
    return (String.ofList s, rest)
  | cs =>
    let name := cs.takeWhile isBareKeyChar
    if name.isEmpty then .error (expected "key" cs)
    else .ok (String.ofList name, cs.drop name.length)

/-- Names with dots between them, and blanks around both. -/
def key : Nat → Rest → Read (List String × Rest)
  | 0, cs => .error (expected "key" cs)
  | fuel + 1, cs => do
    let (name, rest) ← simpleKey (skipBlanks cs)
    match skipBlanks rest with
    | '.' :: rest =>
      let (names, rest) ← key fuel rest
      return (name :: names, rest)
    | rest => return ([name], rest)

def dottedKey (cs : Rest) : Read (List String × Rest) := key (cs.length + 1) cs

/-! ### Values -/

/-- Containers are at most so deep. -/
def maxDepth : Nat := 79

/-- The items of an array, behind its bracket. -/
def items (item : Rest → Read (Value × Rest)) : Nat → Rest → Read (List Value × Rest)
  | 0, cs => .error (expected "array" cs)
  | fuel + 1, cs =>
    match skipAllLines cs with
    | ']' :: rest => .ok ([], rest)
    | cs => do
      let (v, rest) ← item cs
      match skipAllLines rest with
      | ']' :: rest => return ([v], rest)
      | ',' :: rest =>
        let (vs, rest) ← items item fuel rest
        return (v :: vs, rest)
      | rest => .error ⟨rest, "invalid array\nexpected `]`"⟩

/-- The pairs of a table in braces, added to those before them. -/
def pairs (item : Rest → Read (Value × Rest)) : Nat → Entries → Rest → Read (Entries × Rest)
  | 0, _, cs => .error (expected "inline table" cs)
  | fuel + 1, entries, cs => do
    let (names, rest) ← dottedKey cs
    let rest ← require ⟨rest, "expected `.`, `=`"⟩ (literal? ['='] rest)
    let (v, rest) ← item (skipBlanks rest)
    let entries ← require ⟨cs, "duplicate key"⟩
      (entries.addKey? true .explicit false names.dropLast (names.getLast?.getD "") v)
    match skipBlanks rest with
    | '\x7d' :: rest => return (entries, rest)
    | ',' :: rest => pairs item fuel entries rest
    | rest => .error ⟨rest, "invalid inline table\nexpected `\x7d`"⟩

/-- A value in which `depth` more levels of containers may open. -/
def value (depth : Nat) (cs : Rest) : Read (Value × Rest) :=
  match cs with
  | '"' :: _ | '\'' :: _ => do
    let (s, rest) ← string cs
    return (.string (String.ofList s), rest)
  | '[' :: rest =>
    match depth with
    | 0 => .error ⟨cs, "recursion limit exceeded"⟩
    | depth + 1 => do
      let (vs, rest) ← items (value depth) (rest.length + 1) rest
      return (.array vs, rest)
  | '\x7b' :: rest =>
    match depth with
    | 0 => .error ⟨cs, "recursion limit exceeded"⟩
    | depth + 1 =>
      match skipBlanks rest with
      | '\x7d' :: rest => return (.table true .explicit [], rest)
      | rest => do
        let (entries, rest) ← pairs (value depth) (rest.length + 1) [] rest
        return (.table true .explicit entries, rest)
  | cs => do
    let rest ← require (expected "value" cs) (scalar? cs)
    return (.scalar, rest)

/-! ### Documents -/

/-- The tables so far, and the header that the next keys belong to. -/
structure Document where
  root : Entries
  header : List String

namespace Document

def duplicate (rest : Rest) : Fault := ⟨rest, "duplicate key"⟩

def addKey (d : Document) (cs : Rest) (names : List String) (v : Value) : Read Document := do
  let add (es : Entries) : Option Entries :=
    es.addKey? false .explicit false names.dropLast (names.getLast?.getD "") v
  let root ← require (duplicate cs) (d.root.within? add d.header)
  return { d with root }

def openHeader (d : Document) (cs : Rest) (names : List String) (isArray : Bool) :
    Read Document := do
  let name := names.getLast?.getD ""
  let add (es : Entries) : Option Entries := if isArray then es.push? name else es.open? name
  let root ← require (duplicate cs) (d.root.within? add names.dropLast)
  return ⟨root, names⟩

/-- One line: a header, a key with its value, or nothing. -/
def line (d : Document) (cs : Rest) : Read (Document × Rest) := do
  let cs := skipBlanks cs
  match cs with
  | '[' :: '[' :: rest =>
    let (names, rest) ← dottedKey rest
    let rest ← require ⟨rest, "invalid table header\nexpected `.`, `]]`"⟩ (literal? [']', ']'] rest)
    let d ← d.openHeader cs names true
    return (d, ← lineEnd rest)
  | '[' :: rest =>
    let (names, rest) ← dottedKey rest
    let rest ← require ⟨rest, "invalid table header\nexpected `.`, `]`"⟩ (literal? [']'] rest)
    let d ← d.openHeader cs names false
    return (d, ← lineEnd rest)
  | [] => return (d, [])
  | c :: _ =>
    if c = '#' || c = '\n' || c = '\r' then return (d, ← lineEnd cs)
    else
      let (names, rest) ← dottedKey cs
      let rest ← require ⟨rest, "expected `.`, `=`"⟩ (literal? ['='] rest)
      let (v, rest) ← value maxDepth (skipBlanks rest)
      let d ← d.addKey cs names v
      return (d, ← lineEnd rest)

def lines : Nat → Document → Rest → Read Document
  | 0, d, _ => .ok d
  | fuel + 1, d, cs =>
    if cs.isEmpty then .ok d
    else do
      let (d, rest) ← d.line cs
      lines fuel d rest

end Document

/-- A mistake in a document and the characters in front of it. -/
structure Error where
  document : String
  offset : Nat
  message : String
  deriving DecidableEq, Repr

/-- Shows the line with a mark under the mistake. -/
def Error.text (e : Error) : String :=
  let before := e.document.toList.take e.offset
  let line := (before.filter (· = '\n')).length + 1
  let start := (before.reverse.takeWhile (· ≠ '\n')).reverse
  let content := start ++ (e.document.toList.drop e.offset).takeWhile (· ≠ '\n')
  let blanks (n : Nat) : String := String.ofList (List.replicate n ' ')
  let gutter := toString line
  "TOML parse error at line " ++ gutter ++ ", column " ++ toString (start.length + 1) ++ "\n" ++
    blanks gutter.length ++ " |\n" ++
    gutter ++ " | " ++ String.ofList content ++ "\n" ++
    blanks gutter.length ++ " | " ++ blanks start.length ++ "^\n" ++
    e.message ++ "\n"

/-- Reads a document, which may start with a byte order mark. -/
def read (text : String) : Except Error Entries :=
  let cs := match text.toList with
    | '\ufeff' :: cs => cs
    | cs => cs
  match Document.lines (cs.length + 1) ⟨[], []⟩ cs with
  | .ok d => .ok d.root
  | .error fault => .error ⟨String.ofList cs, cs.length - fault.rest.length, fault.message⟩

end TsToPhp.Toml
