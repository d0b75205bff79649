/-! JSON values and their text. The members of an object are written in the order given. -/

namespace TsToPhp

inductive Json where
  | null
  | bool (b : Bool)
  | nat (n : Nat)
  | string (s : String)
  | array (items : List Json)
  | object (members : List (String × Json))

namespace Json

def hexDigits (n : Nat) : List Char :=
  let digits := Nat.toDigits 16 n
  List.replicate (4 - digits.length) '0' ++ digits

/-- Only quotes, backslashes and control characters are escaped. -/
def escape (c : Char) : List Char :=
  match c with
  | '"' => ['\\', '"']
  | '\\' => ['\\', '\\']
  | '\x08' => ['\\', 'b']
  | '\x0c' => ['\\', 'f']
  | '\n' => ['\\', 'n']
  | '\r' => ['\\', 'r']
  | '\t' => ['\\', 't']
  | c => if c.val < 0x20 then ['\\', 'u'] ++ hexDigits c.toNat else [c]

def quote (s : String) : String :=
  String.ofList ('"' :: s.toList.flatMap escape ++ ['"'])

/-- How the parts of a value are laid out: where lines break and what follows a colon. -/
structure Layout where
  breaks : Bool
  colon : String

/-- Everything on one line without blanks. -/
def Layout.compact : Layout := ⟨false, ":"⟩

/-- Every item on a line of its own, two blanks deeper than what holds it. -/
def Layout.pretty : Layout := ⟨true, ": "⟩

def Layout.newline (l : Layout) (depth : Nat) : String :=
  if l.breaks then "\n" ++ String.ofList (List.replicate (2 * depth) ' ') else ""

/-- Items between brackets; empty brackets stay closed. -/
def Layout.bracketed (l : Layout) (depth : Nat) (opening closing : String) :
    List String → String
  | [] => opening ++ closing
  | items =>
    opening ++ l.newline (depth + 1) ++
      String.intercalate ("," ++ l.newline (depth + 1)) items ++ l.newline depth ++ closing

mutual

def write (l : Layout) (depth : Nat) : Json → String
  | null => "null"
  | bool b => if b then "true" else "false"
  | nat n => toString n
  | string s => quote s
  | array items => l.bracketed depth "[" "]" (writeItems l (depth + 1) items)
  | object members => l.bracketed depth "\x7b" "\x7d" (writeMembers l (depth + 1) members)

def writeItems (l : Layout) (depth : Nat) : List Json → List String
  | [] => []
  | j :: js => write l depth j :: writeItems l depth js

def writeMembers (l : Layout) (depth : Nat) : List (String × Json) → List String
  | [] => []
  | (key, j) :: ms => (quote key ++ l.colon ++ write l depth j) :: writeMembers l depth ms

end

def compact (j : Json) : String := j.write .compact 0

def pretty (j : Json) : String := j.write .pretty 0

def ofOption {α : Type} (f : α → Json) : Option α → Json
  | some a => f a
  | none => null

end Json

end TsToPhp
