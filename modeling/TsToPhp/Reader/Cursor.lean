import TsToPhp.Reader.Lexer

/-! Reading token by token. A cursor stands at one token and knows the text behind it, so that
reading can start over from any cursor. -/

namespace TsToPhp.Reader

/-- A text from a position on. -/
structure Tail where
  start : Nat
  chars : Chars

def Tail.skip : Nat → Tail → Tail
  | n + 1, ⟨start, c :: cs⟩ => skip n ⟨start + c.utf8Size, cs⟩
  | _, t => t

structure Cursor where
  token : Token
  span : Span
  /-- Whether a line ends in front of the token. -/
  isFirst : Bool
  /-- The text from the token on. -/
  here : Tail
  /-- The text behind the token. -/
  rest : Tail
  /-- Where the token before ends. -/
  last : Nat
  /-- Mistakes that do not end the reading. -/
  reports : List SyntaxError

/-- What may stand where the cursor is. -/
structure Surroundings where
  /-- No text has more tokens in a row. -/
  limit : Nat
  /-- Whether `in` is an operator here. -/
  allowsIn : Bool
  /-- Whether a colon may follow that belongs to a conditional expression. -/
  beforeColon : Bool
  inFunction : Bool
  isAsync : Bool
  isGenerator : Bool
  canBreak : Bool
  canContinue : Bool
  labels : List String

def Surroundings.atTop (limit : Nat) : Surroundings := ⟨limit, true, false, false, true, false, false, false, []⟩

abbrev Read := ReaderT Surroundings (StateT Cursor (Except SyntaxError))

/-- The cursor at the first token of a text. -/
def Cursor.scan (text : Tail) (last : Nat) (reports : List SyntaxError) :
    Except SyntaxError Cursor := do
  let (isFirst, blanks) ← (gap .blank false 0 text.chars).mapError fun m =>
    ⟨m, ⟨text.start, text.start + 1⟩⟩
  let here := text.skip blanks
  let (token, n) ← (Reader.token here.chars).mapError fun m =>
    ⟨m, ⟨here.start, here.start + 1⟩⟩
  let rest := here.skip n
  return ⟨token, ⟨here.start, rest.start⟩, isFirst, here, rest, last, reports⟩

/-! ### The token at hand -/

def current : Read Token := return (← get).token

def start : Read Nat := return (← get).span.start

def last : Read Nat := return (← get).last

def isFirst : Read Bool := return (← get).isFirst

/-- What was read from a position on. -/
def since (start : Nat) : Read Span := return ⟨start, ← last⟩

def fail {α : Type} (message : String) : Read α := do throw ⟨message, (← get).span⟩

/-- Notes a mistake and goes on. -/
def report (message : String) : Read Unit :=
  modify fun c => { c with reports := c.reports ++ [⟨message, c.span⟩] }

def advance : Read Unit := do
  let c ← get
  set (← (Cursor.scan c.rest c.span.stop c.reports : Except SyntaxError Cursor))

/-- Takes so many more characters to the token at hand. -/
def extend (n : Nat) : Read Unit :=
  modify fun c =>
    let rest := c.rest.skip n
    { c with rest, span := ⟨c.span.start, rest.start⟩ }

/-- Cuts the token at hand after its first character. -/
def shorten : Read Unit :=
  modify fun c =>
    let rest := c.here.skip 1
    { c with
      token := .mark (String.ofList (c.here.chars.take 1))
      rest, span := ⟨c.span.start, rest.start⟩ }

/-- Reads on if that succeeds, and stays here if it does not. -/
def attempt {α : Type} (p : Read α) : Read (Option α) := fun s c =>
  match p s c with
  | .ok (a, c') => .ok (some a, c')
  | .error _ => .ok (none, c)

/-- What `p` would read, without moving. -/
def ahead {α : Type} (p : Read α) : Read (Option α) := do
  let c ← get
  let a ← attempt p
  set c
  return a

/-- The token behind the one at hand, and whether it begins a line. -/
def next : Read (Token × Bool) := do
  let found ← ahead do
    advance
    return (← current, ← isFirst)
  return found.getD (.ending, true)

/-! ### Expected tokens -/

def isMark (m : String) : Read Bool := return (← current) == .mark m

def isWord (w : String) : Read Bool := return (← current) == .name w

def isEnding : Read Bool := return (← current) == .ending

def eat (t : Token) : Read Bool := do
  if (← current) == t then
    advance
    return true
  else return false

def eatMark (m : String) : Read Bool := eat (.mark m)

def eatWord (w : String) : Read Bool := eat (.name w)

def expectMark (m : String) : Read Unit := do
  unless ← eatMark m do fail ("Expected '" ++ m ++ "'")

def expectWord (w : String) : Read Unit := do
  unless ← eatWord w do fail ("Expected '" ++ w ++ "'")

/-- The end of a statement: a semicolon, or a place where one may be left out. -/
def semicolon : Read Unit := do
  unless ← eatMark ";" do
    unless (← isMark "\x7d") || (← isEnding) || (← isFirst) do fail "Expected ';'"

def anyName : Read Ident := do
  match ← current with
  | .name text =>
    let span := (← get).span
    advance
    return ⟨text, span⟩
  | _ => fail "Expected ident"

def identifier : Read Ident := do
  match ← current with
  | .name text => if isReserved text then fail "Expected ident" else anyName
  | _ => fail "Expected ident"

/-! ### Repetition -/

def repeated {α : Type} (item : Read (Option α)) : Nat → Read (List α)
  | 0 => fail "Unexpected token"
  | fuel + 1 => do
    match ← item with
    | none => return []
    | some a => return a :: (← repeated item fuel)

/-- As many items as there are. Each takes at least one token. -/
def many {α : Type} (item : Read (Option α)) : Read (List α) := do
  repeated item (← read).limit

/-- Items up to a closing mark, which is not read. -/
def itemsTo {α : Type} (closing : String) (item : Read α) : Read (List α) :=
  many do
    if ← isMark closing then return none
    else return some (← item)

/-- Items with commas between them up to a closing mark, which is read too. -/
def commaList {α : Type} (closing : String) (item : Read α) : Read (List α) := do
  let items ← itemsTo closing do
    let a ← item
    unless ← isMark closing do expectMark ","
    return a
  expectMark closing
  return items

/-- At least one item, with commas between them. -/
def commaItems {α : Type} (item : Read α) : Read (List α) := do
  let first ← item
  let others ← many do
    if ← eatMark "," then return some (← item) else return none
  return first :: others

/-! ### Templates -/

/-- Takes the next characters of a template to the token at hand, and tells whether it ends there. -/
def templateChunk : Read (String × Bool) := do
  let c ← get
  match chunk c.rest.chars with
  | .error m => fail m
  | .ok ((raw, ends), n) =>
    extend n
    return (String.ofList raw, ends)

/-- The holes that follow, and the text behind each. -/
def templateHoles {α : Type} (hole : Read α) : Nat → Bool → Read (List String × List α)
  | 0, _ => fail "Unterminated template"
  | fuel + 1, ends => do
    advance
    if ends then return ([], [])
    else
      let a ← hole
      unless ← isMark "\x7d" do fail "Expected '\x7d'"
      let (text, ends) ← templateChunk
      let (texts, holes) ← templateHoles hole fuel ends
      return (text :: texts, a :: holes)

/-- A template from its first mark on: the texts and the holes between them. -/
def template {α : Type} (hole : Read α) : Read (List String × List α) := do
  let (text, ends) ← templateChunk
  let (texts, holes) ← templateHoles hole (← read).limit ends
  return (text :: texts, holes)

end TsToPhp.Reader
