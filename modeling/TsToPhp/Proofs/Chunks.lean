import TsToPhp.Emit.Template
import TsToPhp.Proofs.Literals

/-! The values of template chunks. A chunk is printed with the value it has in the source where the
printer knows all of its escapes and no line of it ends in a carriage return. -/

namespace TsToPhp.Template

/-- What stands for a character of its own behind a backslash. -/
def singleEscapes : List (Char × Char) :=
  [('b', '\x08'), ('t', '\t'), ('n', '\n'), ('v', '\x0b'), ('f', '\x0c'), ('r', '\r'),
    ('"', '"'), ('\'', '\''), ('\\', '\\')]

def lineSeparators : List Char := ['\u2028', '\u2029']

/-- A character that stands for itself behind a backslash. -/
def isNonEscape (c : Char) : Bool :=
  !c.isDigit && c != 'x' && c != 'u' && c != '\n' && c != '\r' && !lineSeparators.contains c &&
    (singleEscapes.lookup c).isNone

/-- A chunk as it stands in the source and the value it has there. Escapes by number are left out. -/
inductive Cooks : List Char → List Char → Prop
  | nil : Cooks [] []
  | plain {c : Char} {cs value : List Char} : c ∉ ['\x60', '\\', '$', '\r'] → Cooks cs value →
      Cooks (c :: cs) (c :: value)
  | dollar {cs value : List Char} : cs.head? ≠ some '\x7b' → Cooks cs value →
      Cooks ('$' :: cs) ('$' :: value)
  | carriageReturn {cs value : List Char} : cs.head? ≠ some '\n' → Cooks cs value →
      Cooks ('\r' :: cs) ('\n' :: value)
  | carriageReturnNewline {cs value : List Char} : Cooks cs value →
      Cooks ('\r' :: '\n' :: cs) ('\n' :: value)
  | single {c d : Char} {cs value : List Char} : (c, d) ∈ singleEscapes → Cooks cs value →
      Cooks ('\\' :: c :: cs) (d :: value)
  | zero {cs value : List Char} : cs.head?.all (!·.isDigit) → Cooks cs value →
      Cooks ('\\' :: '0' :: cs) ('\x00' :: value)
  | nonEscape {c : Char} {cs value : List Char} : isNonEscape c = true → Cooks cs value →
      Cooks ('\\' :: c :: cs) (c :: value)
  | continuation {c : Char} {cs value : List Char} : c ∈ '\n' :: lineSeparators → Cooks cs value →
      Cooks ('\\' :: c :: cs) value
  | continuationReturn {cs value : List Char} : cs.head? ≠ some '\n' → Cooks cs value →
      Cooks ('\\' :: '\r' :: cs) value
  | continuationReturnNewline {cs value : List Char} : Cooks cs value →
      Cooks ('\\' :: '\r' :: '\n' :: cs) value

/-- What the printer resolves behind a backslash. -/
def knownEscapes : List Char :=
  ['n', 't', 'r', '0', '\n', '\\', '$', '\x60', '\'', '"']

/-- Are all escapes known, and is no carriage return there? -/
def isKnown : List Char → Bool
  | [] => true
  | '\\' :: c :: cs => knownEscapes.contains c && isKnown cs
  | c :: cs => c != '\r' && isKnown cs

theorem unescapeChars_known {c : Char} (hc : c ∈ knownEscapes) (cs : List Char) :
    unescapeChars ('\\' :: c :: cs) = unescapeChars ['\\', c] ++ unescapeChars cs := by
  revert c
  simp [knownEscapes, unescapeChars]

theorem unescapeChars_unknown {c : Char} (hc : c ∉ knownEscapes) (cs : List Char) :
    unescapeChars ('\\' :: c :: cs) = '\\' :: c :: unescapeChars cs := by
  simp only [knownEscapes, List.mem_cons, List.not_mem_nil, or_false, not_or] at hc
  rw [unescapeChars] <;> simp [hc]

theorem unescapeChars_plain {c : Char} (hc : c ≠ '\\') (cs : List Char) :
    unescapeChars (c :: cs) = c :: unescapeChars cs := by
  rw [unescapeChars] <;> simp [hc]

theorem isKnown_plain {c : Char} (hc : c ≠ '\\') (cs : List Char) :
    isKnown (c :: cs) = (c != '\r' && isKnown cs) := by
  rw [isKnown]
  simp [hc]

/-- The printer's value is no shorter than the true one, and it is the true one exactly if the chunk
is known. -/
def Agrees (raw value : List Char) : Prop :=
  value.length ≤ (unescapeChars raw).length ∧ (unescapeChars raw = value ↔ isKnown raw = true)

namespace Agrees

variable {cs value : List Char}

theorem plain {c : Char} (hc : c ≠ '\\') (hreturn : c ≠ '\r') (h : Agrees cs value) :
    Agrees (c :: cs) (c :: value) := by
  obtain ⟨hlength, hiff⟩ := h
  rw [Agrees, unescapeChars_plain hc, isKnown_plain hc]
  simpa [hreturn, hlength] using hiff

/-- A carriage return is kept as it is. -/
theorem carriageReturn (h : Agrees cs value) {value' : List Char}
    (hvalue : value'.length ≤ value.length) : Agrees ('\r' :: cs) ('\n' :: value') := by
  have hr : '\r' ≠ '\\' := by decide
  rw [Agrees, unescapeChars_plain hr, isKnown_plain hr]
  simpa using Nat.le_trans hvalue h.1

theorem known {c : Char} (hc : c ∈ knownEscapes) (h : Agrees cs value) :
    Agrees ('\\' :: c :: cs) (unescapeChars ['\\', c] ++ value) := by
  obtain ⟨hlength, hiff⟩ := h
  rw [Agrees, unescapeChars_known hc cs, isKnown]
  simpa [hc, hlength] using hiff

/-- An escape that the printer does not know leaves two characters, which is more than it has. -/
theorem unknown {c : Char} (hc : c ∉ knownEscapes) (h : Agrees cs value) {value' : List Char}
    (hvalue : value'.length ≤ value.length + 1) : Agrees ('\\' :: c :: cs) value' := by
  have hlength : value'.length < (unescapeChars ('\\' :: c :: cs)).length := by
    rw [unescapeChars_unknown hc, List.length_cons, List.length_cons]
    have := h.1
    omega
  refine ⟨Nat.le_of_lt hlength, ?_⟩
  have hne : unescapeChars ('\\' :: c :: cs) ≠ value' := by
    intro he
    rw [he] at hlength
    exact Nat.lt_irrefl _ hlength
  simp [hne, isKnown, hc]

/-- An escape of one character, known or not. -/
theorem escape {c : Char} {out : List Char} (hout : c ∈ knownEscapes → unescapeChars ['\\', c] = out)
    (hlength : out.length ≤ 1) (h : Agrees cs value) : Agrees ('\\' :: c :: cs) (out ++ value) := by
  by_cases hc : c ∈ knownEscapes
  · exact hout hc ▸ known hc h
  · refine unknown hc h ?_
    rw [List.length_append]
    omega

end Agrees

theorem Cooks.agrees {raw value : List Char} (h : Cooks raw value) : Agrees raw value := by
  induction h with
  | nil => exact ⟨Nat.le_refl _, by decide⟩
  | @plain c _ _ hc _ ih =>
    simp only [List.mem_cons, List.not_mem_nil, or_false, not_or] at hc
    exact ih.plain hc.2.1 hc.2.2.2
  | dollar _ _ ih => exact ih.plain (by decide) (by decide)
  | carriageReturn _ _ ih => exact ih.carriageReturn (Nat.le_refl _)
  | carriageReturnNewline _ ih =>
    exact (ih.plain (c := '\n') (by decide) (by decide)).carriageReturn (by simp)
  | @single c d _ _ hc _ ih =>
    have hout : ∀ p ∈ singleEscapes, p.1 ∈ knownEscapes → unescapeChars ['\\', p.1] = [p.2] := by
      decide
    exact ih.escape (hout (c, d) hc) (Nat.le_refl _)
  | zero _ _ ih => exact ih.known (c := '0') (by decide)
  | @nonEscape c _ _ hc _ ih =>
    have hout : ∀ c ∈ knownEscapes, isNonEscape c = true → unescapeChars ['\\', c] = [c] := by
      simp [knownEscapes, isNonEscape, lineSeparators, singleEscapes, unescapeChars]
    exact ih.escape (fun hknown => hout c hknown hc) (Nat.le_refl _)
  | @continuation c _ _ hc _ ih =>
    have hout : ∀ c ∈ '\n' :: lineSeparators, c ∈ knownEscapes → unescapeChars ['\\', c] = [] := by
      simp [knownEscapes, lineSeparators, unescapeChars]
    exact ih.escape (hout c hc) (by simp)
  | continuationReturn _ _ ih => exact ih.unknown (by decide) (by simp)
  | continuationReturnNewline _ ih =>
    exact (ih.plain (c := '\n') (by decide) (by decide)).unknown (by decide) (by simp; omega)

/-- A legal chunk is printed as a literal that PHP reads as the value of the chunk exactly if the
chunk is known. If it is not, PHP reads another text, and nothing in the literal tells. -/
theorem chunk_value_kept_iff {raw value : String} (h : Cooks raw.toList value.toList)
    (rest : List Char) :
    (Php.readLiteral ((Php.quote (unescape raw)).toList ++ rest) =
        .closed value.toUTF8.data.toList rest ↔ isKnown raw.toList = true) ∧
      (isKnown raw.toList = false → ∃ other, other ≠ value ∧
        Php.readLiteral ((Php.quote (unescape raw)).toList ++ rest) =
          .closed other.toUTF8.data.toList rest) := by
  have hsame : unescape raw = value ↔ isKnown raw.toList = true := by
    rw [← h.agrees.2, unescape, ← String.toList_inj, String.toList_ofList]
  rw [Php.readLiteral_quote]
  refine ⟨?_, fun hno => ⟨unescape raw, fun he => by simp [hsame.mp he] at hno, rfl⟩⟩
  rw [← hsame]
  refine ⟨fun he => ?_, fun he => he ▸ rfl⟩
  injection he with hbytes
  exact String.toByteArray_inj.mp (ByteArray.ext (Array.toList_inj.mp hbytes))

theorem chunk_value_kept_iff_continued :
    Cooks "a\\n$\\\nb".toList "a\n$b".toList ∧
      Php.readLiteral (Php.quote (unescape "a\\n$\\\nb")).toList =
        .closed "a\n$b".toUTF8.data.toList [] := by
  have hcooks : Cooks "a\\n$\\\nb".toList "a\n$b".toList :=
    .plain (by decide) (.single (by decide) (.dollar (by decide)
      (.continuation (by decide) (.plain (by decide) .nil))))
  have hread := (chunk_value_kept_iff hcooks []).1.mpr (by decide)
  rw [List.append_nil] at hread
  exact ⟨hcooks, hread⟩

/-- A backspace is read as a backslash and a letter, while a string literal with a backspace keeps
it. -/
theorem backspace_in_chunk_lost :
    Cooks "\\b".toList "\x08".toList ∧
      chunkPart "\\b" = [[.text (Php.quote "\\b")]] ∧
      Php.readLiteral (Php.quote (unescape "\\b")).toList = .closed [0x5c, 0x62] [] ∧
      Php.readLiteral (Php.quote "\x08").toList = .closed [0x08] [] :=
  ⟨.single (by decide) .nil, rfl, by decide, by decide⟩

end TsToPhp.Template
