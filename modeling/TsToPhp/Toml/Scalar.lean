/-! The forms of numbers, dates and times in TOML. Each function takes a form from the front of a
text and gives what is left. -/

namespace TsToPhp.Toml

abbrev Rest := List Char

def isHexDigit (c : Char) : Bool :=
  c.isDigit || ('a' ≤ c && c ≤ 'f') || ('A' ≤ c && c ≤ 'F')

def isOctDigit (c : Char) : Bool := '0' ≤ c && c ≤ '7'

def isBinDigit (c : Char) : Bool := c = '0' || c = '1'

def digitValue (c : Char) : Nat :=
  if c.isDigit then c.toNat - '0'.toNat
  else if 'a' ≤ c && c ≤ 'f' then c.toNat - 'a'.toNat + 10
  else c.toNat - 'A'.toNat + 10

def valueOf (base : Nat) (digits : List Char) : Nat :=
  digits.foldl (fun n c => n * base + digitValue c) 0

def literal? (s : List Char) (cs : Rest) : Option Rest :=
  if s.isPrefixOf cs then some (cs.drop s.length) else none

/-- The digits behind a first one; an underscore stands between two digits. -/
def moreDigits (isDigit : Char → Bool) : Rest → List Char × Rest
  | [] => ([], [])
  | '_' :: c :: cs =>
    if isDigit c then
      let (ds, rest) := moreDigits isDigit cs
      (c :: ds, rest)
    else ([], '_' :: c :: cs)
  | c :: cs =>
    if isDigit c then
      let (ds, rest) := moreDigits isDigit cs
      (c :: ds, rest)
    else ([], c :: cs)

def digits? (isDigit : Char → Bool) : Rest → Option (List Char × Rest)
  | [] => none
  | c :: cs =>
    if isDigit c then
      let (ds, rest) := moreDigits isDigit cs
      some (c :: ds, rest)
    else none

def sign (cs : Rest) : Bool × Rest :=
  match cs with
  | '-' :: cs => (true, cs)
  | '+' :: cs => (false, cs)
  | cs => (false, cs)

/-- Decimal digits without a zero in front of others. -/
def decimal? (cs : Rest) : Option (List Char × Rest) :=
  match cs with
  | '0' :: cs => some (['0'], cs)
  | cs => digits? Char.isDigit cs

def integerLimit : Nat := 0x8000000000000000

/-- Whole numbers have 64 bits. -/
def integer? (cs : Rest) : Option Rest :=
  let based (base : Nat) (isDigit : Char → Bool) (cs : Rest) : Option Rest := do
    let (ds, rest) ← digits? isDigit cs
    if valueOf base ds < integerLimit then some rest else none
  match cs with
  | '0' :: 'x' :: cs => based 16 isHexDigit cs
  | '0' :: 'o' :: cs => based 8 isOctDigit cs
  | '0' :: 'b' :: cs => based 2 isBinDigit cs
  | cs => do
    let (negative, cs) := sign cs
    let (ds, rest) ← decimal? cs
    let n := valueOf 10 ds
    if n < integerLimit ∨ (negative ∧ n = integerLimit) then some rest else none

def exponent? : Rest → Option (Int × Rest)
  | c :: cs =>
    if c = 'e' || c = 'E' then do
      let (negative, cs) := sign cs
      let (ds, rest) ← digits? Char.isDigit cs
      let n : Int := valueOf 10 ds
      some (if negative then -n else n, rest)
    else none
  | [] => none

def fraction? : Rest → Option (List Char × Rest)
  | '.' :: cs => digits? Char.isDigit cs
  | _ => none

/-- Is `digits * 10 ^ exponent` below the overflow of a double? -/
def isFiniteDouble (digits : Nat) (exponent : Int) : Bool :=
  (Float.ofScientific digits true exponent.natAbs).isFinite && (exponent < 0) ||
    (0 ≤ exponent && (Float.ofScientific digits false exponent.natAbs).isFinite)

/-- A number with a fraction, an exponent or both. Positive ones must not overflow. -/
def float? (cs : Rest) : Option Rest := do
  let (negative, cs) := sign cs
  match literal? ['i', 'n', 'f'] cs, literal? ['n', 'a', 'n'] cs with
  | some rest, _ | none, some rest => some rest
  | none, none =>
    let (whole, cs) ← decimal? cs
    let (tail, power, rest) ←
      match fraction? cs with
      | some (ds, cs) =>
        let (power, rest) := (exponent? cs).getD (0, cs)
        some (ds, power, rest)
      | none => do
        let (power, rest) ← exponent? cs
        some ([], power, rest)
    let fits := isFiniteDouble (valueOf 10 (whole ++ tail)) (power - tail.length)
    if negative || fits then some rest else none

def fixedDigits? (n : Nat) (cs : Rest) : Option (Nat × Rest) :=
  let ds := cs.take n
  if ds.length = n ∧ ds.all Char.isDigit then some (valueOf 10 ds, cs.drop n) else none

def isLeapYear (year : Nat) : Bool :=
  (year % 4 = 0 && year % 100 != 0) || year % 400 = 0

def daysOfMonth (year month : Nat) : Nat :=
  if month = 2 then (if isLeapYear year then 29 else 28)
  else if month = 4 ∨ month = 6 ∨ month = 9 ∨ month = 11 then 30
  else 31

def date? (cs : Rest) : Option Rest := do
  let (year, cs) ← fixedDigits? 4 cs
  let cs ← literal? ['-'] cs
  let (month, cs) ← fixedDigits? 2 cs
  let cs ← literal? ['-'] cs
  let (day, cs) ← fixedDigits? 2 cs
  if 1 ≤ month ∧ month ≤ 12 ∧ 1 ≤ day ∧ day ≤ daysOfMonth year month then some cs else none

def hourMinute? (cs : Rest) : Option Rest := do
  let (hour, cs) ← fixedDigits? 2 cs
  let cs ← literal? [':'] cs
  let (minute, cs) ← fixedDigits? 2 cs
  if hour ≤ 23 ∧ minute ≤ 59 then some cs else none

/-- A second may be a leap second. -/
def time? (cs : Rest) : Option Rest := do
  let cs ← hourMinute? cs
  let cs ← literal? [':'] cs
  let (second, cs) ← fixedDigits? 2 cs
  if 60 < second then none
  else
    match cs with
    | '.' :: c :: cs => if c.isDigit then some (cs.dropWhile Char.isDigit) else none
    | '.' :: [] => none
    | cs => some cs

def zone? : Rest → Option Rest
  | 'Z' :: cs | 'z' :: cs => some cs
  | '+' :: cs | '-' :: cs => hourMinute? cs
  | _ => none

def dateTime? (cs : Rest) : Option Rest :=
  match date? cs with
  | none => time? cs
  | some cs =>
    match cs with
    | c :: more =>
      if c = 'T' || c = 't' || c = ' ' then
        match time? more with
        | some rest => some ((zone? rest).getD rest)
        | none => some cs
      else some cs
    | [] => some []

/-- Any value that is neither text nor a container. -/
def scalar? (cs : Rest) : Option Rest :=
  ((((literal? "true".toList cs).or (literal? "false".toList cs)).or (dateTime? cs)).or
    (float? cs)).or (integer? cs)

end TsToPhp.Toml
