import TsToPhp.Proofs.Quoted

/-! Double-quoted PHP literals are read back. Their characters stand for bytes, by themselves or in
escapes, unless a variable begins among them. -/

namespace TsToPhp.Php

/-- The UTF-8 bytes of a number. PHP accepts surrogates too. -/
def codePointBytes (n : Nat) : List UInt8 :=
  if n ≤ 0x7f then [.ofNat n]
  else if n ≤ 0x7ff then [.ofNat (n / 64 % 32 + 0xc0), .ofNat (n % 64 + 0x80)]
  else if n ≤ 0xffff then
    [.ofNat (n / 4096 % 16 + 0xe0), .ofNat (n / 64 % 64 + 0x80), .ofNat (n % 64 + 0x80)]
  else
    [.ofNat (n / 262144 % 8 + 0xf0), .ofNat (n / 4096 % 64 + 0x80), .ofNat (n / 64 % 64 + 0x80),
      .ofNat (n % 64 + 0x80)]

theorem codePointBytes_toNat (c : Char) : codePointBytes c.toNat = String.utf8EncodeChar c := rfl

def digitValue? (c : Char) : Option Nat :=
  if '0' ≤ c ∧ c ≤ '9' then some (c.toNat - '0'.toNat)
  else if 'a' ≤ c ∧ c ≤ 'f' then some (c.toNat - 'a'.toNat + 10)
  else if 'A' ≤ c ∧ c ≤ 'F' then some (c.toNat - 'A'.toNat + 10)
  else none

def isDigitOf (base : Nat) (c : Char) : Bool := (digitValue? c).any (· < base)

def numeralValue (base : Nat) (ds : List Char) : Nat :=
  ds.foldl (fun n c => base * n + (digitValue? c).getD 0) 0

/-- The bytes of an escape and the number of characters behind its backslash. -/
abbrev Escape := List UInt8 × Nat

/-- A backslash that begins no escape stands for itself, and so does the character behind it. -/
def noEscape (c : Char) : Escape := (codePointBytes '\\'.toNat ++ codePointBytes c.toNat, 1)

/-- Hexadecimal digits in braces behind a `u`. -/
def codePoint? (cs : List Char) : Option Escape :=
  let ds := cs.takeWhile (isDigitOf 16)
  if ds ≠ [] ∧ (cs.drop ds.length).head? = some '\x7d' ∧ numeralValue 16 ds ≤ 0x10ffff then
    some (codePointBytes (numeralValue 16 ds), ds.length + 3)
  else none

/-- One or two hexadecimal digits behind an `x`. -/
def hexByte (x : Char) (cs : List Char) : Escape :=
  match (cs.take 2).takeWhile (isDigitOf 16) with
  | [] => noEscape x
  | ds => ([.ofNat (numeralValue 16 ds)], ds.length + 1)

/-- Up to three octal digits, of which the last eight bits count. -/
def octalByte (c : Char) (cs : List Char) : Escape :=
  match ((c :: cs).take 3).takeWhile (isDigitOf 8) with
  | [] => noEscape c
  | ds => ([.ofNat (numeralValue 8 ds)], ds.length)

/-- The escape that the characters behind a backslash begin with. Only that of a code point can be
ill-formed. -/
def escape? : List Char → Option Escape
  | [] => some ([], 0)
  | c :: cs =>
    match c with
    | 'n' => some ([0x0a], 1)
    | 'r' => some ([0x0d], 1)
    | 't' => some ([0x09], 1)
    | 'v' => some ([0x0b], 1)
    | 'f' => some ([0x0c], 1)
    | 'e' => some ([0x1b], 1)
    | '\\' => some ([0x5c], 1)
    | '"' => some ([0x22], 1)
    | '$' => some ([0x24], 1)
    | 'x' | 'X' => some (hexByte c cs)
    | 'u' => if cs.head? = some '\x7b' then codePoint? cs.tail else some (noEscape c)
    | c => some (octalByte c cs)

/-- Can a variable's name begin like this? All bytes beyond ASCII can. -/
def beginsName (c : Char) : Bool := c.isAlpha || c == '_' || 0x80 ≤ c.toNat

/-- A dollar sign before a name or a brace, and a brace before a dollar sign. -/
def beginsVariable (c : Char) (cs : List Char) : Bool :=
  (c == '$' && cs.head?.any fun d => beginsName d || d == '\x7b') ||
    c == '\x7b' && cs.head? == some '$'

inductive Reading where
  /-- The bytes of the literal and the text behind it. -/
  | closed (value : List UInt8) (rest : List Char)
  | interpolates
  | malformed
  | unclosed
  deriving DecidableEq, Repr

def Reading.behind (bytes : List UInt8) : Reading → Reading
  | closed value rest => closed (bytes ++ value) rest
  | r => r

/-- Reads from within a literal. The first `taken` characters belong to an escape before them. -/
def readInside : Nat → List Char → Reading
  | _, [] => .unclosed
  | taken + 1, _ :: cs => readInside taken cs
  | 0, c :: cs =>
    if c = '"' then .closed [] cs
    else if c = '\\' then
      match escape? cs with
      | some (bytes, taken) => (readInside taken cs).behind bytes
      | none => .malformed
    else if beginsVariable c cs then .interpolates
    else (readInside 0 cs).behind (codePointBytes c.toNat)

def readLiteral : List Char → Reading
  | '"' :: cs => readInside 0 cs
  | _ => .malformed

theorem readInside_taken (as cs : List Char) : readInside as.length (as ++ cs) = readInside 0 cs := by
  induction as with
  | nil => rfl
  | cons a as ih => exact ih

theorem readInside_escape {cs : List Char} {bytes : List UInt8} (as : List Char)
    (h : escape? (as ++ cs) = some (bytes, as.length)) :
    readInside 0 ('\\' :: (as ++ cs)) = (readInside 0 cs).behind bytes := by
  simp only [readInside, if_true, h, readInside_taken]
  rfl

theorem readInside_raw {c : Char} (hc : isInside c = true) {cs : List Char}
    (hv : beginsVariable c cs = false) :
    readInside 0 (c :: cs) = (readInside 0 cs).behind (String.utf8EncodeChar c) := by
  simp only [isInside, Bool.and_eq_true, bne_iff_ne] at hc
  simp [readInside, hc, hv, codePointBytes_toNat]

theorem isDigitOf_hex : hexDigits.all (isDigitOf 16) = true := by decide

theorem numeralValue_concat (base : Nat) (ds : List Char) (d : Char) :
    numeralValue base (ds ++ [d]) = base * numeralValue base ds + (digitValue? d).getD 0 := by
  simp [numeralValue]

theorem numeralValue_toDigits (n : Nat) : numeralValue 16 (Nat.toDigits 16 n) = n := by
  have hdigit : ∀ k < 16, (digitValue? (Nat.digitChar k)).getD 0 = k := by decide
  induction n using Nat.strongRecOn with
  | _ n ih =>
    by_cases hn : n < 16
    · rw [Nat.toDigits_of_lt_base hn]
      simpa [numeralValue] using hdigit n hn
    · rw [Nat.toDigits_of_base_le (by decide) (by omega), numeralValue_concat,
        ih (n / 16) (by omega), hdigit (n % 16) (by omega)]
      omega

theorem codePoint?_toDigits {n : Nat} (hn : n ≤ 0x10ffff) (cs : List Char) :
    codePoint? (Nat.toDigits 16 n ++ '\x7d' :: cs) =
      some (codePointBytes n, (Nat.toDigits 16 n).length + 3) := by
  have hdigits : (Nat.toDigits 16 n ++ '\x7d' :: cs).takeWhile (isDigitOf 16) =
      Nat.toDigits 16 n := by
    rw [List.takeWhile_append_of_pos fun d hd =>
      List.all_eq_true.mp isDigitOf_hex d (toDigits_hex n d hd)]
    simp [show isDigitOf 16 '\x7d' = false from rfl]
  simp [codePoint?, hdigits, numeralValue_toDigits, hn, Nat.toDigits_ne_nil]

theorem toNat_le_of_isControl {c : Char} (h : isControl c = true) : c.toNat ≤ 0x9f := by
  simp only [isControl, Bool.or_eq_true, Bool.and_eq_true, decide_eq_true_eq, UInt32.lt_iff_toNat_lt,
    UInt32.le_iff_toNat_le] at h
  have hval : c.toNat = c.val.toNat := rfl
  have h1 : (0x20 : UInt32).toNat = 0x20 := rfl
  have h2 : (0x9f : UInt32).toNat = 0x9f := rfl
  omega

/-- A character as it stands in a literal is read as its own bytes. Only a brace may not stand in
front of a bare dollar sign. -/
theorem readInside_escape_append (c : Char) {cs : List Char} (hcs : cs.head? ≠ some '$') :
    readInside 0 (escape c ++ cs) = (readInside 0 cs).behind (String.utf8EncodeChar c) := by
  unfold escape
  split
  iterate 9 exact readInside_escape [_] rfl
  next hslash hquote hdollar _ _ _ _ _ _ =>
  split
  · next hcontrol =>
    have hpoint := codePoint?_toDigits
      (Nat.le_trans (toNat_le_of_isControl hcontrol) (by decide)) cs
    refine readInside_escape ('u' :: '\x7b' :: Nat.toDigits 16 c.toNat ++ ['\x7d']) ?_
    simpa [escape?, codePointBytes_toNat] using hpoint
  · have hinside : isInside c = true := by simpa [isInside] using ⟨hquote, hslash⟩
    refine readInside_raw hinside ?_
    have hno : (c == '$') = false := beq_eq_false_iff_ne.mpr hdollar
    simp [beginsVariable, hno, hcs]

theorem head?_escape (c : Char) (cs : List Char) : (escape c ++ cs).head? ≠ some '$' := by
  unfold escape
  split <;> try simp
  next hdollar _ _ _ _ _ _ =>
  split
  · simp
  · simpa using hdollar

theorem readInside_flatMap (cs rest : List Char) :
    readInside 0 (cs.flatMap escape ++ '"' :: rest) =
      .closed (cs.flatMap String.utf8EncodeChar) rest := by
  induction cs with
  | nil => rfl
  | cons c cs ih =>
    have hhead : (cs.flatMap escape ++ '"' :: rest).head? ≠ some '$' := by
      cases cs with
      | nil => simp
      | cons d cs => simpa using head?_escape d (cs.flatMap escape ++ '"' :: rest)
    rw [List.flatMap_cons, List.append_assoc, readInside_escape_append c hhead, ih]
    rfl

theorem escape_no_control (c : Char) : (escape c).any isControl = false := by
  have hdigits : hexDigits.any isControl = false := by decide
  unfold escape
  split <;> try rfl
  split
  · have hnumeral : (Nat.toDigits 16 c.toNat).any isControl = false := by
      exact List.any_eq_false.mpr fun d hd =>
        List.any_eq_false.mp hdigits d (toDigits_hex c.toNat d hd)
    rw [List.any_append, List.any_append, hnumeral]
    rfl
  · next hcontrol => simpa using hcontrol

theorem readLiteral_quote (s : String) (rest : List Char) :
    readLiteral ((quote s).toList ++ rest) = .closed s.toUTF8.data.toList rest := by
  have hbytes : s.toUTF8.data.toList = s.toList.flatMap String.utf8EncodeChar := by
    rw [String.toUTF8, ← String.utf8Encode_toList, List.utf8Encode]
    simp
  have hinside := readInside_flatMap s.toList rest
  rw [toList_quote, hbytes]
  simpa [readLiteral] using hinside

/-- A quoted text reads back as the text, whatever stands behind it. No control character stands in
it, and no other text is quoted like it. -/
theorem quoted_text_reads_back :
    (∀ (s : String) (rest : List Char),
      readLiteral ((quote s).toList ++ rest) = .closed s.toUTF8.data.toList rest ∧
        (quote s).toList.any isControl = false) ∧
      Function.Injective quote := by
  refine ⟨fun s rest => ⟨readLiteral_quote s rest, ?_⟩, fun s t h => ?_⟩
  · have hinside : (s.toList.flatMap escape).any isControl = false := by
      rw [List.any_flatMap]
      simp [escape_no_control]
    rw [toList_quote, List.any_cons, List.any_append, hinside]
    rfl
  · have hs := readLiteral_quote s []
    rw [h, readLiteral_quote t []] at hs
    injection hs with hbytes
    exact String.toByteArray_inj.mp (ByteArray.ext (Array.toList_inj.mp hbytes.symm))

/-- Without its backslash the dollar sign begins a variable. -/
example : quote "\x7b$a" = "\"\x7b\\$a\"" ∧ readLiteral "\"\x7b$a\"".toList = .interpolates :=
  ⟨rfl, by decide⟩

end TsToPhp.Php
