import TsToPhp.Proofs.Lines

/-! What a writer adds to its text depends only on its level and on whether it stands at the start
of a line. -/

namespace TsToPhp

def spaces (level : Nat) : List Char := List.replicate (4 * level) ' '

/-- A text with the indentation that it gets at the start of a line. -/
def indented (level : Nat) (fresh : Bool) (cs : List Char) : List Char :=
  if fresh && !cs.isEmpty then spaces level ++ cs else cs

@[simp] theorem indented_nil (level : Nat) (fresh : Bool) : indented level fresh [] = [] := by
  simp [indented]

@[simp] theorem indented_false (level : Nat) (cs : List Char) : indented level false cs = cs := by
  simp [indented]

theorem indented_cons (level : Nat) (c : Char) (cs : List Char) :
    indented level true (c :: cs) = spaces level ++ c :: cs := by
  simp [indented]

theorem indented_append (level : Nat) (fresh : Bool) (as bs : List Char) :
    indented level fresh (as ++ bs) =
      indented level fresh as ++ indented level (fresh && as.isEmpty) bs := by
  cases fresh with
  | false => simp
  | true =>
    cases as with
    | nil => simp
    | cons a as => simp [indented]

theorem length_le_indented (level : Nat) (fresh : Bool) (cs : List Char) :
    cs.length ≤ (indented level fresh cs).length := by
  unfold indented
  split <;> simp

namespace Pieces

def code (helper : String) : Pieces → List Char
  | [] => []
  | .text s :: ps => s.toList ++ code helper ps
  | .helperPrefix :: ps => helper.toList ++ code helper ps
  | _ :: ps => code helper ps

@[simp] theorem code_text (helper s : String) : code helper [.text s] = s.toList := by
  simp [code]

def levelAfter (level : Nat) : Pieces → Nat
  | [] => level
  | .indent :: ps => levelAfter (level + 1) ps
  | .dedent :: ps => levelAfter (level - 1) ps
  | _ :: ps => levelAfter level ps

def freshAfter (helper : String) (fresh : Bool) : Pieces → Bool
  | [] => fresh
  | .text s :: ps => freshAfter helper (fresh && s.toList.isEmpty) ps
  | .helperPrefix :: ps => freshAfter helper (fresh && helper.toList.isEmpty) ps
  | .newline :: ps => freshAfter helper true ps
  | _ :: ps => freshAfter helper fresh ps

/-- The characters that a writer adds. -/
def layout (helper : String) (level : Nat) (fresh : Bool) : Pieces → List Char
  | [] => []
  | .text s :: ps =>
    indented level fresh s.toList ++ layout helper level (fresh && s.toList.isEmpty) ps
  | .helperPrefix :: ps =>
    indented level fresh helper.toList ++ layout helper level (fresh && helper.toList.isEmpty) ps
  | .newline :: ps => '\n' :: layout helper level true ps
  | .indent :: ps => layout helper (level + 1) fresh ps
  | .dedent :: ps => layout helper (level - 1) fresh ps
  | .report _ :: ps => layout helper level fresh ps

theorem code_append (helper : String) (p q : Pieces) :
    code helper (p ++ q) = code helper p ++ code helper q := by
  induction p with
  | nil => rfl
  | cons x p ih => cases x <;> simp [code, ih]

theorem levelAfter_append (level : Nat) (p q : Pieces) :
    levelAfter level (p ++ q) = levelAfter (levelAfter level p) q := by
  induction p generalizing level with
  | nil => rfl
  | cons x p ih => cases x <;> simp [levelAfter, ih]

theorem freshAfter_append (helper : String) (fresh : Bool) (p q : Pieces) :
    freshAfter helper fresh (p ++ q) = freshAfter helper (freshAfter helper fresh p) q := by
  induction p generalizing fresh with
  | nil => rfl
  | cons x p ih => cases x <;> simp [freshAfter, ih]

theorem layout_append (helper : String) (level : Nat) (fresh : Bool) (p q : Pieces) :
    layout helper level fresh (p ++ q) = layout helper level fresh p ++
      layout helper (levelAfter level p) (freshAfter helper fresh p) q := by
  induction p generalizing level fresh with
  | nil => rfl
  | cons x p ih => cases x <;> simp [layout, levelAfter, freshAfter, ih]

end Pieces

namespace Writer

theorem write_eq (w : Writer) (s : String) :
    w.write s = ⟨w.text ++ String.ofList (indented w.level w.atLineStart s.toList), w.level,
      w.atLineStart && s.toList.isEmpty⟩ := by
  have he : s.isEmpty = s.toList.isEmpty := by
    rw [Bool.eq_iff_iff]
    simp
  obtain ⟨text, level, fresh⟩ := w
  unfold write
  rw [he]
  cases hs : s.toList.isEmpty with
  | true =>
    have hn : s.toList = [] := List.isEmpty_iff.mp hs
    simp [hn]
  | false =>
    cases fresh with
    | true => simp [indented, hs, spaces, indentation, String.ofList_append, String.append_assoc]
    | false => simp

theorem putAll_eq (helper : String) (w : Writer) (ps : Pieces) :
    w.putAll helper ps = ⟨w.text ++ String.ofList (ps.layout helper w.level w.atLineStart),
      ps.levelAfter w.level, ps.freshAfter helper w.atLineStart⟩ := by
  induction ps generalizing w with
  | nil => simp [putAll, Pieces.layout, Pieces.levelAfter, Pieces.freshAfter]
  | cons p ps ih =>
    have hc : w.putAll helper (p :: ps) = (w.put helper p).putAll helper ps := rfl
    rw [hc, ih]
    cases p with
    | text | helperPrefix =>
      simp [put, write_eq, Pieces.layout, Pieces.levelAfter, Pieces.freshAfter,
        String.ofList_append, String.append_assoc]
    | newline =>
      simp [put, newline, Pieces.layout, Pieces.levelAfter, Pieces.freshAfter, String.ofList_cons,
        String.append_assoc]
    | indent | dedent | report =>
      simp [put, indent, dedent, Pieces.layout, Pieces.levelAfter, Pieces.freshAfter]

end Writer

def Piece.isInk : Piece → Bool
  | .newline | .indent | .dedent => false
  | _ => true

/-- Within a line only its first text is indented. -/
theorem layout_of_line {helper : String} {p : Pieces} (h : p.all Piece.isInk = true) (level : Nat)
    (fresh : Bool) :
    p.layout helper level fresh = indented level fresh (p.code helper) ∧
      p.levelAfter level = level ∧ p.freshAfter helper fresh = (fresh && (p.code helper).isEmpty) := by
  induction p generalizing fresh with
  | nil => simp [Pieces.layout, Pieces.code, Pieces.levelAfter, Pieces.freshAfter]
  | cons x p ih =>
    rw [List.all_cons, Bool.and_eq_true] at h
    have hempty (as bs : List Char) : (as ++ bs).isEmpty = (as.isEmpty && bs.isEmpty) := by
      cases as <;> rfl
    have hlevel := (ih h.2 true).2.1
    cases x with
    | text | helperPrefix =>
      simp [Pieces.layout, Pieces.code, Pieces.levelAfter, Pieces.freshAfter, ih h.2, hlevel,
        indented_append, hempty, Bool.and_assoc]
    | report =>
      simpa [Pieces.layout, Pieces.code, Pieces.levelAfter, Pieces.freshAfter] using ih h.2 fresh
    | newline | indent | dedent => cases h.1

theorem Pieces.layout_ink {helper : String} {p : Pieces} (h : p.all Piece.isInk = true) (level : Nat)
    (q : Pieces) :
    (p ++ q).layout helper level false = p.code helper ++ q.layout helper level false := by
  have hp : p.layout helper level false = _ ∧ _ ∧ _ := layout_of_line h level false
  rw [layout_append, hp.1, hp.2.1, hp.2.2]
  simp

@[simp] theorem Pieces.freshAfter_braces (helper : String) (fresh : Bool) (p : Pieces) :
    p.braces.freshAfter helper fresh = false := by
  simp [braces, freshAfter, freshAfter_append]

theorem Pieces.layout_braces (helper : String) (level : Nat) (fresh : Bool) (p : Pieces) :
    p.braces.layout helper level fresh = indented level fresh ['\x7b'] ++ '\n' ::
      (p.layout helper (level + 1) true ++
        indented (p.levelAfter (level + 1) - 1) (p.freshAfter helper true) ['\x7d']) := by
  simp [braces, layout, layout_append]

theorem Phrase.isInk {ok : String → Prop} {listed : Bool} {p : Pieces} (h : Phrase ok listed p) :
    p.all Piece.isInk = true := by
  induction h with
  | nil | symbol | name | «variable» | quoted | number | integer | report => rfl
  | append _ _ hp hq => rw [List.all_append, hp, hq, Bool.and_self]
  | helperCall _ _ hp => simp [Pieces.parens, hp, Piece.isInk]
  | group _ _ hp => simp [hp, Piece.isInk]
  | conditional _ _ _ hp hq hr => simp [hp, hq, hr, Piece.isInk]

/-- A context without classes and without source. -/
def Context.bare : Context := ⟨fun _ => none, fun _ => .dummy, fun _ => false, fun _ => false, 1⟩

/-! ### Reports have no code -/

theorem Context.code_repeated (ctx : Context) {helper : String} {reports : Pieces}
    (h : reports.code helper = []) : (ctx.repeated reports).code helper = [] := by
  unfold repeated
  induction ctx.ruleCopies with
  | zero => rfl
  | succ n ih =>
    rw [List.replicate_succ, List.flatten_cons, Pieces.code_append, h, ih, List.append_nil]

theorem Context.code_callReport (ctx : Context) (helper : String) (hint : Hint) (span : Span)
    (receiver : Expr) (key : Key) : (ctx.callReport hint span receiver key).code helper = [] := by
  unfold callReport
  split
  · split <;> rfl
  · rfl

theorem Context.code_memberReport (ctx : Context) (helper : String) (span : Span) (key : Key) :
    (ctx.memberReport span key).code helper = [] := by
  unfold memberReport
  split
  · split <;> rfl
  · rfl

end TsToPhp
