import TsToPhp.Php.Number

/-! The characters of printed numbers. -/

namespace TsToPhp

/-- A number without sign, as it is printed. -/
inductive Numeral : List Char → Prop
  | nan : Numeral ['N', 'A', 'N']
  | infinite : Numeral ['I', 'N', 'F']
  | whole {ds : List Char} : ds ≠ [] → (∀ c ∈ ds, c.isDigit = true) → Numeral ds
  | fraction {ds fs : List Char} : ds ≠ [] → (∀ c ∈ ds, c.isDigit = true) →
    (∀ c ∈ fs, c.isDigit = true) → Numeral (ds ++ '.' :: fs)

theorem digits_isDigit (n : Nat) : ∀ c ∈ Nat.toDigits 10 n, c.isDigit = true :=
  fun _ hc => Nat.isDigit_of_mem_toDigits (by decide) (by decide) hc

theorem digits_numeral (n : Nat) : Numeral (Nat.toDigits 10 n) :=
  .whole Nat.toDigits_ne_nil (digits_isDigit n)

theorem positional_numeral (d : Decimal) : Numeral d.positional.toList := by
  have hd := digits_isDigit d.digits
  have hz (n : Nat) : ∀ c ∈ List.replicate n '0', c.isDigit = true := by
    intro c hc
    rw [List.eq_of_mem_replicate hc]
    decide
  unfold Decimal.positional
  dsimp only
  split
  · rw [String.toList_ofList]
    refine .whole (by simp) ?_
    intro c hc
    rcases List.mem_append.mp hc with hc | hc
    · exact hd c hc
    · exact hz _ c hc
  · rw [List.splitAt_eq, String.toList_ofList]
    generalize hp : List.replicate ((-d.exponent).toNat + 1 - (Nat.toDigits 10 d.digits).length) '0' ++
      Nat.toDigits 10 d.digits = padded
    have hdigit : ∀ c ∈ padded, c.isDigit = true := by
      subst hp
      intro c hc
      rcases List.mem_append.mp hc with hc | hc
      · exact hz _ c hc
      · exact hd c hc
    have hlength : (-d.exponent).toNat < padded.length := by
      subst hp
      simp only [List.length_append, List.length_replicate]
      omega
    refine .fraction ?_ (fun c hc => hdigit c (List.mem_of_mem_take hc))
      (fun c hc => hdigit c (List.mem_of_mem_drop hc))
    apply List.ne_nil_of_length_pos
    simp only [List.length_take]
    omega

/-- Less than zero, or minus infinity. -/
def Binary64.belowZero : Binary64 → Bool
  | .finite negative mantissa _ => negative && mantissa != 0
  | .infinite negative => negative
  | .nan => false

theorem whole_zero (exponent : Int) : Binary64.whole? 0 exponent = some 0 := by
  unfold Binary64.whole?
  split <;> simp

theorem text_signed (x : Binary64) : ∃ (negative : Bool) (body : String),
    Numeral body.toList ∧ Php.Number.text x = Php.signed negative body ∧
      (x.belowZero = false → negative = false) := by
  cases x with
  | nan => exact ⟨false, "NAN", .nan, rfl, fun _ => rfl⟩
  | infinite negative => exact ⟨negative, "INF", .infinite, rfl, id⟩
  | finite negative mantissa exponent =>
    have hpos := positional_numeral (Decimal.shortest mantissa exponent)
    by_cases hm : mantissa = 0
    · subst hm
      refine ⟨false, toString 0, by simpa using digits_numeral 0, ?_, fun _ => rfl⟩
      simp [Php.Number.text, whole_zero, Php.integerBound]
    · have hb : (Binary64.finite negative mantissa exponent).belowZero = negative := by
        simp [Binary64.belowZero, hm]
      rw [hb]
      unfold Php.Number.text
      dsimp only
      split
      · next n hn =>
        split
        · exact ⟨_, toString n, by simpa using digits_numeral n, rfl, by simp_all⟩
        · exact ⟨negative, _, hpos, rfl, id⟩
      · exact ⟨negative, _, hpos, rfl, id⟩

/-- A number that is not below zero prints without sign. -/
theorem number_numeral {x : Float} (h : (Binary64.ofFloat x).belowZero = false) :
    Numeral (Php.number x).toList := by
  obtain ⟨negative, body, hb, ht, hn⟩ := text_signed (Binary64.ofFloat x)
  rw [Php.number, ht, hn h]
  exact hb

def isNumeralChar (c : Char) : Bool :=
  c.isDigit || ['.', '-', 'N', 'A', 'I', 'F'].contains c

theorem Numeral.chars {cs : List Char} (h : Numeral cs) : ∀ c ∈ cs, isNumeralChar c = true := by
  have hd (ds : List Char) (h : ∀ c ∈ ds, c.isDigit = true) : ∀ c ∈ ds, isNumeralChar c = true :=
    fun c hc => by simp [isNumeralChar, h c hc]
  cases h with
  | nan | infinite => simp [isNumeralChar]
  | whole _ hw => exact hd _ hw
  | fraction _ hw hf =>
    intro c hc
    rcases List.mem_append.mp hc with hc | hc
    · exact hd _ hw c hc
    · rcases List.mem_cons.mp hc with rfl | hc
      · decide
      · exact hd _ hf c hc

theorem number_chars (x : Float) : ∀ c ∈ (Php.number x).toList, isNumeralChar c = true := by
  obtain ⟨negative, body, hb, ht, -⟩ := text_signed (Binary64.ofFloat x)
  rw [Php.number, ht]
  cases negative with
  | false => exact hb.chars
  | true =>
    intro c hc
    have hc : c ∈ '-' :: body.toList := by simpa [Php.signed] using hc
    rcases List.mem_cons.mp hc with rfl | hc
    · decide
    · exact hb.chars c hc

theorem integer_chars (n : Int) : ∀ c ∈ (toString n).toList, isNumeralChar c = true := by
  intro c hc
  rw [Int.toString_eq_repr, Int.repr_eq_if] at hc
  split at hc
  · exact (digits_numeral _).chars c (by simpa using hc)
  · have hc : c ∈ '-' :: Nat.toDigits 10 (-n).toNat := by simpa using hc
    rcases List.mem_cons.mp hc with rfl | hc
    · decide
    · exact (digits_numeral _).chars c hc

theorem Numeral.ne_nil {cs : List Char} (h : Numeral cs) : cs ≠ [] := by
  cases h with
  | nan | infinite | fraction => simp
  | whole hn _ => exact hn

theorem number_ne_nil (x : Float) : (Php.number x).toList ≠ [] := by
  obtain ⟨negative, body, hb, ht, -⟩ := text_signed (Binary64.ofFloat x)
  rw [Php.number, ht]
  cases negative with
  | false => exact hb.ne_nil
  | true => simp [Php.signed]

theorem integer_ne_nil (n : Int) : (toString n).toList ≠ [] := by
  rw [Int.toString_eq_repr, Int.repr_eq_if]
  split
  · simp
  · simp

end TsToPhp
