import Mathlib.Data.List.Basic
import TsToPhp.Text.Bytes

/-! The bytes of a text, and which of them a slice of the text has. -/

namespace TsToPhp.Bytes

def ofChars (cs : List Char) : List UInt8 := cs.flatMap String.utf8EncodeChar

@[simp] theorem ofChars_nil : ofChars [] = [] := rfl

@[simp] theorem ofChars_cons (c : Char) (cs : List Char) :
    ofChars (c :: cs) = String.utf8EncodeChar c ++ ofChars cs := List.flatMap_cons

@[simp] theorem ofChars_append (cs ds : List Char) :
    ofChars (cs ++ ds) = ofChars cs ++ ofChars ds := List.flatMap_append

theorem length_ofChars_cons (c : Char) (cs : List Char) :
    (ofChars (c :: cs)).length = c.utf8Size + (ofChars cs).length := by
  rw [ofChars_cons, List.length_append, String.length_utf8EncodeChar]

theorem ofChars_eq_nil {cs : List Char} : ofChars cs = [] ↔ cs = [] := by
  cases cs <;> simp [String.utf8EncodeChar_ne_nil]

/-- The UTF-8 form of a text. -/
def ofText (s : String) : List UInt8 := s.toUTF8.data.toList

theorem ofText_eq (s : String) : ofText s = ofChars s.toList := by
  rw [ofText, String.toUTF8, ← String.utf8Encode_toList, List.utf8Encode]
  simp [ofChars]

@[simp] theorem length_ofText (s : String) : (ofText s).length = s.utf8ByteSize := rfl

theorem length_ofChars (s : String) : (ofChars s.toList).length = s.utf8ByteSize := by
  rw [← ofText_eq, length_ofText]

@[simp] theorem ofText_append (s t : String) : ofText (s ++ t) = ofText s ++ ofText t := by
  simp [ofText_eq]

def newline : UInt8 := 10

theorem utf8EncodeChar_large {c : Char} (hc : 0x7f < c.toNat) :
    ∀ b ∈ String.utf8EncodeChar c, 0x80 ≤ b.toNat := by
  have hlead (n k : Nat) (hk : 0x80 ≤ k) (h : n + k < 0x100) : 0x80 ≤ (UInt8.ofNat (n + k)).toNat := by
    rw [UInt8.toNat_ofNat', Nat.mod_eq_of_lt h]
    omega
  have hc' : ¬ c.val.toNat ≤ 0x7f := by
    change ¬ c.toNat ≤ 0x7f
    omega
  intro b hb
  simp only [String.utf8EncodeChar, hc', if_false] at hb
  split at hb
  · rcases List.mem_pair.mp hb with rfl | rfl <;> exact hlead _ _ (by omega) (by omega)
  · split at hb <;> simp only [List.mem_cons, List.not_mem_nil, or_false] at hb
    · rcases hb with rfl | rfl | rfl <;> exact hlead _ _ (by omega) (by omega)
    · rcases hb with rfl | rfl | rfl | rfl <;> exact hlead _ _ (by omega) (by omega)

theorem utf8EncodeChar_small {c : Char} (hc : c.toNat ≤ 0x7f) :
    String.utf8EncodeChar c = [UInt8.ofNat c.toNat] := by
  have hc' : c.val.toNat ≤ 0x7f := hc
  simp only [String.utf8EncodeChar, hc', if_true]
  rfl

theorem newline_mem_utf8EncodeChar {c : Char} :
    newline ∈ String.utf8EncodeChar c ↔ c = '\n' := by
  refine ⟨fun h => ?_, fun h => h ▸ by decide⟩
  by_cases hc : c.toNat ≤ 0x7f
  · rw [utf8EncodeChar_small hc, List.mem_singleton] at h
    have hbyte := congrArg UInt8.toNat h
    rw [UInt8.toNat_ofNat', Nat.mod_eq_of_lt (by omega)] at hbyte
    exact Char.toNat_inj.mp hbyte.symm
  · exact absurd (utf8EncodeChar_large (by omega) _ h) (by decide)

theorem drop?_eq_some_iff {n : Nat} {cs ds : List Char} :
    drop? n cs = some ds ↔ ∃ before, cs = before ++ ds ∧ (ofChars before).length = n := by
  -- A character that does not fit into what is left to drop leaves no text in front, nor one behind.
  fun_induction drop? n cs with
  | case1 cs =>
    constructor
    · rintro ⟨⟩
      exact ⟨[], rfl, rfl⟩
    · rintro ⟨before, rfl, h⟩
      obtain rfl := ofChars_eq_nil.mp (List.length_eq_zero_iff.mp h)
      rfl
  | case2 n =>
    refine ⟨nofun, fun ⟨before, h, hlength⟩ => ?_⟩
    obtain ⟨rfl, -⟩ := List.append_eq_nil_iff.mp h.symm
    cases hlength
  | case3 n c cs hfits ih =>
    rw [ih]
    constructor
    · rintro ⟨before, rfl, hlength⟩
      exact ⟨c :: before, rfl, by rw [length_ofChars_cons, hlength, Nat.add_sub_cancel' hfits]⟩
    · rintro ⟨before, h, hlength⟩
      cases before with
      | nil => cases hlength
      | cons b before =>
        obtain ⟨rfl, rfl⟩ := List.cons.inj h
        rw [length_ofChars_cons] at hlength
        exact ⟨before, rfl, by omega⟩
  | case4 n c cs hfits =>
    refine ⟨nofun, fun ⟨before, h, hlength⟩ => ?_⟩
    cases before with
    | nil => cases hlength
    | cons b before =>
      obtain ⟨rfl, rfl⟩ := List.cons.inj h
      rw [length_ofChars_cons] at hlength
      omega

theorem take?_eq_some_iff {n : Nat} {cs ds : List Char} :
    take? n cs = some ds ↔ (∃ after, cs = ds ++ after) ∧ (ofChars ds).length = n := by
  fun_induction take? n cs generalizing ds with
  | case1 cs =>
    constructor
    · rintro ⟨⟩
      exact ⟨⟨cs, rfl⟩, rfl⟩
    · rintro ⟨-, h⟩
      rw [ofChars_eq_nil.mp (List.length_eq_zero_iff.mp h)]
  | case2 n =>
    refine ⟨nofun, fun ⟨⟨after, h⟩, hlength⟩ => ?_⟩
    obtain ⟨rfl, -⟩ := List.append_eq_nil_iff.mp h.symm
    cases hlength
  | case3 n c cs hfits ih =>
    rw [Option.map_eq_some_iff]
    constructor
    · rintro ⟨ds, hds, rfl⟩
      obtain ⟨⟨after, rfl⟩, hlength⟩ := ih.mp hds
      exact ⟨⟨after, rfl⟩, by rw [length_ofChars_cons, hlength, Nat.add_sub_cancel' hfits]⟩
    · rintro ⟨⟨after, h⟩, hlength⟩
      cases ds with
      | nil => cases hlength
      | cons d ds =>
        obtain ⟨rfl, rfl⟩ := List.cons.inj h
        rw [length_ofChars_cons] at hlength
        exact ⟨ds, ih.mpr ⟨⟨after, rfl⟩, by omega⟩, rfl⟩
  | case4 n c cs hfits =>
    refine ⟨nofun, fun ⟨⟨after, h⟩, hlength⟩ => ?_⟩
    cases ds with
    | nil => cases hlength
    | cons d ds =>
      obtain ⟨rfl, rfl⟩ := List.cons.inj h
      rw [length_ofChars_cons] at hlength
      omega

/-- A slice is what stands between a text in front and a text behind. -/
theorem slice?_eq_some_iff {s t : String} {start stop : Nat} :
    slice? s start stop = some t ↔
      ∃ before after : String, s = before ++ t ++ after ∧ before.utf8ByteSize = start ∧
        before.utf8ByteSize + t.utf8ByteSize = stop := by
  unfold slice?
  constructor
  · intro h
    split at h
    · next horder =>
      obtain ⟨cs, hcs, rfl⟩ := Option.map_eq_some_iff.mp h
      obtain ⟨ds, hdrop, htake⟩ := Option.bind_eq_some_iff.mp hcs
      obtain ⟨before, hs, hbefore⟩ := drop?_eq_some_iff.mp hdrop
      obtain ⟨⟨after, rfl⟩, hlength⟩ := take?_eq_some_iff.mp htake
      refine ⟨.ofList before, .ofList after, ?_, ?_, ?_⟩
      · rw [← String.toList_inj]
        simp [hs]
      · simpa [← length_ofChars] using hbefore
      · simp only [← length_ofChars, String.toList_ofList, hbefore, hlength]
        omega
    · cases h
  · rintro ⟨before, after, rfl, rfl, rfl⟩
    have hdrop : drop? before.utf8ByteSize (before ++ t ++ after).toList =
        some (t.toList ++ after.toList) :=
      drop?_eq_some_iff.mpr ⟨before.toList, by simp, length_ofChars before⟩
    have htake : take? t.utf8ByteSize (t.toList ++ after.toList) = some t.toList :=
      take?_eq_some_iff.mpr ⟨⟨after.toList, rfl⟩, length_ofChars t⟩
    rw [if_pos (Nat.le_add_right _ _), hdrop, Nat.add_sub_cancel_left, Option.bind_some, htake]
    simp

end TsToPhp.Bytes
