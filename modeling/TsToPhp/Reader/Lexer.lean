import TsToPhp.Decimal.Nearest
import TsToPhp.Reader.Token
import TsToPhp.Text.NameChar

/-! Single tokens at the head of a text, each with the number of characters it takes. -/

namespace TsToPhp.Reader

abbrev Chars := List Char

/-- Readings are pairs of a value and the number of characters that it takes. -/
abbrev Lex := Except String

def isLineEnd (c : Char) : Bool :=
  c == '\n' || c == '\r' || c == '\u2028' || c == '\u2029'

def isSpace (c : Char) : Bool :=
  isLineEnd c || c == ' ' || c == '\t' || c == '\x0b' || c == '\x0c' || c == '\xa0' ||
    c == '\ufeff' || c == '\u1680' || ('\u2000' ≤ c && c ≤ '\u200a') || c == '\u202f' ||
    c == '\u205f' || c == '\u3000'

/-! ### Blanks and comments -/

inductive Gap where
  | blank | lineComment | blockComment

/-- The length of the blanks and comments, and whether they hold the end of a line. -/
def gap (inside : Gap) (newline : Bool) (n : Nat) : Chars → Lex (Bool × Nat)
  | [] =>
    match inside with
    | .blockComment => .error "Unterminated block comment"
    | _ => .ok (newline, n)
  | c :: cs =>
    match inside with
    | .blank =>
      if isSpace c then gap .blank (newline || isLineEnd c) (n + 1) cs
      else
        match c, cs with
        | '/', '/' :: cs => gap .lineComment newline (n + 2) cs
        | '/', '*' :: cs => gap .blockComment newline (n + 2) cs
        | _, _ => .ok (newline, n)
    | .lineComment =>
      if isLineEnd c then gap .blank true (n + 1) cs else gap .lineComment newline (n + 1) cs
    | .blockComment =>
      match c, cs with
      | '*', '/' :: cs => gap .blank newline (n + 2) cs
      | _, cs => gap .blockComment (newline || isLineEnd c) (n + 1) cs

/-! ### Escapes -/

def isHexDigit (c : Char) : Bool :=
  c.isDigit || ('a' ≤ c && c ≤ 'f') || ('A' ≤ c && c ≤ 'F')

def digitValue (c : Char) : Nat :=
  if c.isDigit then c.toNat - '0'.toNat
  else if 'a' ≤ c then c.toNat - 'a'.toNat + 10
  else c.toNat - 'A'.toNat + 10

def valueOf (base : Nat) (digits : Chars) : Nat :=
  digits.foldl (fun n c => base * n + digitValue c) 0

/-- So many hexadecimal digits. -/
def hexDigits (n : Nat) (cs : Chars) : Lex (Nat × Nat) :=
  let digits := cs.take n
  if digits.length = n && digits.all isHexDigit then .ok (valueOf 16 digits, n)
  else .error "Invalid hexadecimal escape"

/-- A code point behind `\u`. -/
def codePoint (cs : Chars) : Lex (Nat × Nat) :=
  match cs with
  | '\x7b' :: cs =>
    let digits := cs.takeWhile isHexDigit
    match cs.drop digits.length with
    | '\x7d' :: _ =>
      if digits.isEmpty || 0x10ffff < valueOf 16 digits then .error "Invalid unicode escape"
      else .ok (valueOf 16 digits, digits.length + 2)
    | _ => .error "Invalid unicode escape"
  | cs => hexDigits 4 cs

/-- What stands behind a backslash in a string. A line end there says nothing. -/
def escape (cs : Chars) : Lex (List Nat × Nat) :=
  match cs with
  | [] => .error "Unterminated string constant"
  | 'n' :: _ => .ok ([0x0a], 1)
  | 't' :: _ => .ok ([0x09], 1)
  | 'r' :: _ => .ok ([0x0d], 1)
  | 'b' :: _ => .ok ([0x08], 1)
  | 'v' :: _ => .ok ([0x0b], 1)
  | 'f' :: _ => .ok ([0x0c], 1)
  | 'x' :: cs => (hexDigits 2 cs).map fun (p, n) => ([p], n + 1)
  | 'u' :: cs => (codePoint cs).map fun (p, n) => ([p], n + 1)
  | '\r' :: '\n' :: _ => .ok ([], 2)
  | '0' :: cs =>
    if (cs.head?.map Char.isDigit).getD false then
      .error "Legacy octal escape is not permitted in strict mode"
    else .ok ([0], 1)
  | c :: _ =>
    if isLineEnd c then .ok ([], 1)
    else if c.isDigit && c != '8' && c != '9' then
      .error "Legacy octal escape is not permitted in strict mode"
    else .ok ([c.toNat], 1)

/-- Characters of code points; pairs of surrogates are one. -/
def charsOf? : List Nat → Option Chars
  | [] => some []
  | p :: ps =>
    if p < 0xd800 || 0xdfff < p then (charsOf? ps).map (Char.ofNat p :: ·)
    else if p < 0xdc00 then
      match ps with
      | q :: ps =>
        if 0xdc00 ≤ q && q ≤ 0xdfff then
          (charsOf? ps).map (Char.ofNat (0x10000 + (p - 0xd800) * 0x400 + (q - 0xdc00)) :: ·)
        else none
      | [] => none
    else none

/-! ### Words, strings and numbers -/

/-- The rest of a name; escapes in it stand for their characters. -/
def nameRest : Nat → Chars → Lex (Chars × Nat)
  | 0, _ => .ok ([], 0)
  | fuel + 1, cs =>
    match cs with
    | '\\' :: 'u' :: cs => do
      let (p, n) ← codePoint cs
      if p < 0xd800 || 0xdfff < p then
        let (name, k) ← nameRest fuel (cs.drop n)
        return (Char.ofNat p :: name, k + n + 2)
      else throw "Invalid unicode escape"
    | c :: cs =>
      if isNamePart c then do
        let (name, k) ← nameRest fuel cs
        return (c :: name, k + 1)
      else return ([], 0)
    | [] => return ([], 0)

def name (cs : Chars) : Lex (String × Nat) := do
  let (name, n) ← nameRest (cs.length + 1) cs
  if (name.head?.map isNameStart).getD false then return (String.ofList name, n)
  else throw "Unexpected character"

/-- The code points of a string up to its closing quote. -/
def stringRest (quote : Char) : Nat → Chars → Lex (List Nat × Nat)
  | 0, _ => .error "Unterminated string constant"
  | fuel + 1, cs =>
    match cs with
    | [] => .error "Unterminated string constant"
    | '\\' :: cs => do
      let (ps, n) ← escape cs
      let (rest, k) ← stringRest quote fuel (cs.drop n)
      return (ps ++ rest, k + n + 1)
    | c :: cs =>
      if c == quote then .ok ([], 1)
      else if c == '\n' || c == '\r' then .error "Unterminated string constant"
      else do
        let (rest, k) ← stringRest quote fuel cs
        return (c.toNat :: rest, k + 1)

/-- A string behind its opening quote. -/
def string (quote : Char) (cs : Chars) : Lex (Option String × Nat) := do
  let (points, n) ← stringRest quote (cs.length + 1) cs
  return ((charsOf? points).map String.ofList, n)

/-- Digits, with single underscores between them. -/
def digitRun (isDigit : Char → Bool) (cs : Chars) : Chars × Nat :=
  let run := cs.takeWhile fun c => isDigit c || c == '_'
  (run.filter (· != '_'), run.length)

/-- A number in another base than ten, behind its two leading characters. -/
def basedNumber (base : Nat) (isDigit : Char → Bool) (cs : Chars) : Lex (Token × Nat) :=
  let (digits, n) := digitRun isDigit cs
  if digits.isEmpty then .error "Expected a digit"
  else
    let value := valueOf base digits
    match cs.drop n with
    | 'n' :: _ => .ok (.bigint value, n + 3)
    | _ => .ok (.number (Decimal.toFloat value 0), n + 2)

def exponent (cs : Chars) : Lex (Int × Nat) :=
  let of (sign : Int) (lead : Nat) (cs : Chars) : Lex (Int × Nat) :=
    let (digits, n) := digitRun Char.isDigit cs
    if digits.isEmpty then .error "Expected a digit"
    else .ok (sign * (valueOf 10 digits : Int), n + lead)
  match cs with
  | 'e' :: '-' :: cs | 'E' :: '-' :: cs => of (-1) 2 cs
  | 'e' :: '+' :: cs | 'E' :: '+' :: cs => of 1 2 cs
  | 'e' :: cs | 'E' :: cs => of 1 1 cs
  | _ => .ok (0, 0)

def decimalNumber (cs : Chars) : Lex (Token × Nat) := do
  let (whole, n) := digitRun Char.isDigit cs
  if 1 < whole.length && whole.head? == some '0' then
    throw "Legacy octal literals are not available when targeting ECMAScript 5 and higher"
  match cs.drop n with
  | 'n' :: _ =>
    if whole.isEmpty then throw "Expected a digit"
    return (.bigint (valueOf 10 whole), n + 1)
  | rest =>
    let (fraction, k) := match rest with
      | '.' :: rest =>
        let (fraction, k) := digitRun Char.isDigit rest
        (fraction, k + 1)
      | _ => ([], 0)
    let (e, l) ← exponent (rest.drop k)
    return (.number (Decimal.toFloat (valueOf 10 (whole ++ fraction)) (e - fraction.length)), n + k + l)

/-- A number, behind which no name may follow at once. -/
def number (cs : Chars) : Lex (Token × Nat) := do
  let (token, n) ← match cs with
    | '0' :: 'x' :: cs | '0' :: 'X' :: cs => basedNumber 16 isHexDigit cs
    | '0' :: 'o' :: cs | '0' :: 'O' :: cs => basedNumber 8 (fun c => '0' ≤ c && c ≤ '7') cs
    | '0' :: 'b' :: cs | '0' :: 'B' :: cs => basedNumber 2 (fun c => c == '0' || c == '1') cs
    | cs => decimalNumber cs
  match cs.drop n with
  | c :: _ =>
    if isNameStart c || c.isDigit then throw "Identifier cannot follow number" else return (token, n)
  | [] => return (token, n)

/-! ### Texts between other marks -/

/-- The length of a regular expression behind its first slash, with its flags. -/
def regexLength (inClass : Bool) : Chars → Lex Nat
  | [] => .error "Unterminated regexp literal"
  | '\\' :: c :: cs =>
    if isLineEnd c then .error "Unterminated regexp literal"
    else (regexLength inClass cs).map (· + 2)
  | c :: cs =>
    if isLineEnd c then .error "Unterminated regexp literal"
    else if c == '/' && !inClass then .ok (1 + (cs.takeWhile isNamePart).length)
    else
      (regexLength (if c == '[' then true else if c == ']' then false else inClass) cs).map (· + 1)

/-- The characters of a template up to its end or its next hole, and whether it ends there. -/
def chunk : Chars → Lex ((Chars × Bool) × Nat)
  | [] => .error "Unterminated template"
  | '\x60' :: _ => .ok (([], true), 1)
  | '$' :: '\x7b' :: _ => .ok (([], false), 2)
  | '\\' :: c :: cs => (chunk cs).map fun ((raw, ends), n) => (('\\' :: c :: raw, ends), n + 2)
  | c :: cs => (chunk cs).map fun ((raw, ends), n) => ((c :: raw, ends), n + 1)

/-! ### Tokens -/

def mark? (cs : Chars) : Option String :=
  match cs with
  | '?' :: '.' :: c :: _ => if c.isDigit then some "?" else some "?."
  | cs => marks.find? fun m => m.toList.isPrefixOf cs

/-- The token at the head of a text. -/
def token (cs : Chars) : Lex (Token × Nat) :=
  match cs with
  | [] => .ok (.ending, 0)
  | '"' :: cs => (string '"' cs).map fun (s, n) => (.string s, n + 1)
  | '\'' :: cs => (string '\'' cs).map fun (s, n) => (.string s, n + 1)
  | '#' :: cs => (name cs).map fun (s, n) => (.hidden s, n + 1)
  | '.' :: c :: _ =>
    if c.isDigit then number cs
    else
      match mark? cs with
      | some m => .ok (.mark m, m.length)
      | none => .error "Unexpected character"
  | c :: _ =>
    if c.isDigit then number cs
    else if isNameStart c || c == '\\' then (name cs).map fun (s, n) => (.name s, n)
    else
      match mark? cs with
      | some m => .ok (.mark m, m.length)
      | none => .error "Unexpected character"

end TsToPhp.Reader
