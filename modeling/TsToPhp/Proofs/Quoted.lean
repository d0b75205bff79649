import TsToPhp.Php.Quoted

/-! The characters of a quoted text: an escape begins with a backslash, and only the quotes at its
ends are bare. -/

namespace TsToPhp.Php

def hexDigits : List Char := "0123456789abcdef".toList

theorem toDigits_hex (n : Nat) : ∀ c ∈ Nat.toDigits 16 n, c ∈ hexDigits := by
  have hk : ∀ k < 16, Nat.digitChar k ∈ hexDigits := by decide
  induction n using Nat.strongRecOn with
  | _ n ih =>
    by_cases hn : n < 16
    · rw [Nat.toDigits_of_lt_base hn]
      intro c hc
      rw [List.mem_singleton.mp hc]
      exact hk n hn
    · rw [Nat.toDigits_of_base_le (by decide) (by omega)]
      intro c hc
      rcases List.mem_append.mp hc with hc | hc
      · exact ih (n / 16) (by omega) c hc
      · rw [List.mem_singleton.mp hc]
        exact hk (n % 16) (by omega)

/-- A character that neither closes a literal nor escapes the next one. -/
def isInside (c : Char) : Bool := c != '"' && c != '\\'

theorem toDigits_inside (n : Nat) : (Nat.toDigits 16 n).all isInside = true := by
  have hd : hexDigits.all isInside = true := by decide
  exact List.all_eq_true.mpr fun d hm => List.all_eq_true.mp hd d (toDigits_hex n d hm)

theorem escape_cases (c : Char) :
    (∃ d cs, escape c = '\\' :: d :: cs ∧ cs.all isInside = true) ∨
      escape c = [c] ∧ isInside c = true := by
  unfold escape
  split <;> try exact .inl ⟨_, [], rfl, rfl⟩
  next hslash hquote _ _ _ _ _ _ _ =>
  split
  · refine .inl ⟨'u', '\x7b' :: Nat.toDigits 16 c.toNat ++ ['\x7d'], rfl, ?_⟩
    rw [List.all_append, List.all_cons, toDigits_inside]
    rfl
  · refine .inr ⟨rfl, ?_⟩
    simpa [isInside] using ⟨hquote, hslash⟩

theorem toList_quote (s : String) : (quote s).toList = '"' :: (s.toList.flatMap escape ++ ['"']) := by
  simp [quote]

end TsToPhp.Php
