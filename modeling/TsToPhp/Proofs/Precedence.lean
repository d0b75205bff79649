import TsToPhp.Proofs.Token
import TsToPhp.Syntax.Operator

/-! PHP's table of operators, as a reader that groups tokens: an operator that comes up closes the
operators before it that bind more tightly. -/

namespace TsToPhp.Php

/-- An expression as it is grouped. Parentheses leave no trace of their own. -/
inductive Term where
  | leaf (text : String)
  | unary (op : UnaryOp) (arg : Term)
  | binary (op : BinaryOp) (left right : Term)
  | assign (op : AssignOp) (target value : Term)
  | conditional (test yes no : Term)
  deriving DecidableEq, Repr

inductive Side where
  | left | right | neither
  deriving DecidableEq, Repr

inductive Operator where
  | binary (level : Nat) (op : BinaryOp)
  | assign (op : AssignOp)
  | question | colon
  deriving DecidableEq, Repr

def side : Nat → Side
  | 18 | 3 | 1 => .right
  | 10 | 9 | 2 => .neither
  | _ => .left

def unary? : String → Option (Nat × UnaryOp)
  | "-" => some (17, .minus)
  | "+" => some (17, .plus)
  | "~" => some (17, .complement)
  | "!" => some (15, .not)
  | _ => none

/-- The string operators count as those of numbers. -/
def operator? : String → Option Operator
  | "**" => some (.binary 18 .exp)
  | "*" => some (.binary 14 .mul)
  | "/" => some (.binary 14 .div)
  | "%" => some (.binary 14 .mod)
  | "+" => some (.binary 13 .add)
  | "-" => some (.binary 13 .sub)
  | "<<" => some (.binary 12 .shiftLeft)
  | ">>" => some (.binary 12 .shiftRight)
  | "." => some (.binary 11 .add)
  | "<" => some (.binary 10 .lt)
  | "<=" => some (.binary 10 .le)
  | ">" => some (.binary 10 .gt)
  | ">=" => some (.binary 10 .ge)
  | "==" => some (.binary 9 .eq)
  | "!=" => some (.binary 9 .ne)
  | "===" => some (.binary 9 .strictEq)
  | "!==" => some (.binary 9 .strictNe)
  | "&" => some (.binary 8 .bitAnd)
  | "^" => some (.binary 7 .bitXor)
  | "|" => some (.binary 6 .bitOr)
  | "&&" => some (.binary 5 .and)
  | "||" => some (.binary 4 .or)
  | "??" => some (.binary 3 .nullish)
  | "?" => some .question
  | ":" => some .colon
  | "=" => some (.assign .assign)
  | "+=" | ".=" => some (.assign .add)
  | "-=" => some (.assign .sub)
  | "*=" => some (.assign .mul)
  | "/=" => some (.assign .div)
  | "%=" => some (.assign .mod)
  | "**=" => some (.assign .exp)
  | "<<=" => some (.assign .shiftLeft)
  | ">>=" => some (.assign .shiftRight)
  | "&=" => some (.assign .bitAnd)
  | "|=" => some (.assign .bitOr)
  | "^=" => some (.assign .bitXor)
  | "??=" => some (.assign .nullish)
  | _ => none

/-- What waits for the operand that is being read. -/
inductive Frame where
  | group
  | unary (level : Nat) (op : UnaryOp)
  | binary (level : Nat) (op : BinaryOp) (left : Term)
  | assign (op : AssignOp) (target : Term)
  | question (test : Term)
  | choice (test yes : Term)
  deriving DecidableEq, Repr

namespace Frame

/-- Nothing but its other half closes a parenthesis or a question mark. -/
def level? : Frame → Option Nat
  | group | question _ => none
  | unary level _ | binary level _ _ => some level
  | choice .. => some 2
  | assign .. => some 1

def close : Frame → Term → Term
  | group, t | question _, t => t
  | unary _ op, t => .unary op t
  | binary _ op left, t => .binary op left t
  | assign op target, t => .assign op target t
  | choice test yes, t => .conditional test yes t

end Frame

/-- Closes the frames that bind more tightly than an operator of the given level, and those of its
own level where they group to the left. Operators that group to neither side do not meet. -/
def reduce (level : Nat) : List Frame → Term → Option (List Frame × Term)
  | [], t => some ([], t)
  | f :: fs, t =>
    match f.level? with
    | none => some (f :: fs, t)
    | some q =>
      if level < q then reduce level fs (f.close t)
      else if level = q then
        match side level with
        | .left => reduce level fs (f.close t)
        | .right => some (f :: fs, t)
        | .neither => none
      else some (f :: fs, t)

/-- An operand is due as long as there is no value. -/
structure Reader where
  stack : List Frame
  value : Option Term
  deriving DecidableEq, Repr

namespace Reader

def operand (stack : List Frame) : Token → Option Reader
  | .leaf text => some ⟨stack, some (.leaf text)⟩
  | .opening => some ⟨.group :: stack, none⟩
  | .sign s => (unary? s).map fun p => ⟨.unary p.1 p.2 :: stack, none⟩
  | .closing => none

/-- An assignment takes the variable in front of it, whatever came before. -/
def operator (stack : List Frame) (t : Term) : Operator → Option Reader
  | .binary level op =>
    (reduce level stack t).map fun p => ⟨.binary level op p.2 :: p.1, none⟩
  | .question => (reduce 2 stack t).map fun p => ⟨.question p.2 :: p.1, none⟩
  | .colon =>
    match reduce 0 stack t with
    | some (.question test :: fs, yes) => some ⟨.choice test yes :: fs, none⟩
    | _ => none
  | .assign op =>
    match t with
    | .leaf _ => some ⟨.assign op t :: stack, none⟩
    | _ => none

def step (r : Reader) (token : Token) : Option Reader :=
  match r.value, token with
  | none, token => operand r.stack token
  | some t, .sign s => (operator? s).bind (operator r.stack t)
  | some t, .closing =>
    match reduce 0 r.stack t with
    | some (.group :: fs, t) => some ⟨fs, some t⟩
    | _ => none
  | some _, _ => none

def run (r : Reader) (ts : List Token) : Option Reader := ts.foldlM step r

def term? (r : Reader) : Option Term :=
  match r.value.bind (reduce 0 r.stack) with
  | some ([], t) => some t
  | _ => none

theorem run_append (r : Reader) (ts us : List Token) :
    r.run (ts ++ us) = (r.run ts).bind (run · us) := by
  simp [run, List.foldlM_append]

theorem run_cons (r : Reader) (token : Token) (ts : List Token) :
    r.run (token :: ts) = (r.step token).bind (run · ts) := by
  simp [run, List.foldlM_cons]

end Reader

def readTerm (s : String) : Option Term :=
  ((lex s.toList).bind (Reader.run ⟨[], none⟩)).bind Reader.term?

/-- Frames that all close into one term, none of them looser than the level. -/
def Settles (level : Nat) (fs : List Frame) (v t : Term) : Prop :=
  fs.foldl (fun v f => f.close v) v = t ∧ ∀ f ∈ fs, ∃ q, f.level? = some q ∧ level ≤ q

/-- Operators of the level and tighter ones leave the frames as they are. -/
def Stops (level : Nat) (fs : List Frame) : Prop :=
  ∀ f ∈ fs.head?, ∀ q ∈ f.level?, q < level ∨ q = level ∧ side level = .right

/-- Whatever waits for it, the tokens are read as one operand. -/
def Reads (level : Nat) (ts : List Token) (t : Term) : Prop :=
  ∀ fs, Stops level fs → ∃ gs v, Reader.run ⟨fs, none⟩ ts = some ⟨gs ++ fs, some v⟩ ∧
    Settles level gs v t

theorem reduce_settles {level p : Nat} {fs gs : List Frame} {v t : Term} (h : Settles level fs v t)
    (hp : p < level ∨ p = level ∧ side p = .left) : reduce p (fs ++ gs) v = reduce p gs t := by
  induction fs generalizing v with
  | nil => rw [List.nil_append, h.1.symm, List.foldl_nil]
  | cons f fs ih =>
    obtain ⟨q, hq, hle⟩ := h.2 f (by simp)
    have hrest := ih (v := f.close v) ⟨h.1, fun g hg => h.2 g (by simp [hg])⟩
    rw [List.cons_append, reduce, hq]
    by_cases hlt : p < q
    · simpa [hlt] using hrest
    · have he : p = q := by omega
      have hs : side p = .left := by
        rcases hp with hp | hp
        · omega
        · exact hp.2
      simpa [he ▸ hs, he] using he ▸ hrest

theorem reduce_stops {level : Nat} {fs : List Frame} (h : Stops level fs) (t : Term) :
    reduce level fs t = some (fs, t) := by
  cases fs with
  | nil => rfl
  | cons f fs =>
    rw [reduce]
    split
    · rfl
    · next q hq =>
      rcases h f rfl q hq with hlt | ⟨rfl, hs⟩
      · rw [if_neg (by omega), if_neg (by omega)]
      · rw [if_neg (by omega), if_pos rfl, hs]

theorem Stops.mono {level higher : Nat} {fs : List Frame} (h : Stops level fs)
    (hl : level < higher ∨ level = higher ∧ side level = .left) : Stops higher fs := by
  intro f hf q hq
  rcases h f hf q hq with hlt | ⟨rfl, hs⟩
  · exact .inl (by omega)
  · rcases hl with hl | ⟨-, hl⟩
    · exact .inl hl
    · rw [hs] at hl
      cases hl

/-- Frames of their own keep to themselves what is read behind them. -/
theorem Stops.cons {level : Nat} {f : Frame} (hf : ∀ q ∈ f.level?, q < level ∨ q = level ∧ side level = .right)
    (fs : List Frame) : Stops level (f :: fs) := by
  intro g hg
  obtain rfl : f = g := by simpa using hg
  exact hf

theorem Settles.nil (level : Nat) (t : Term) : Settles level [] t t :=
  ⟨rfl, by simp⟩

/-- A frame below the others closes last. -/
theorem Settles.concat {level lower : Nat} {fs : List Frame} {f : Frame} {v t : Term}
    (h : Settles level fs v t) (hl : lower ≤ level) (hf : f.level? = some lower) :
    Settles lower (fs ++ [f]) v (f.close t) := by
  refine ⟨by simp [h.1], fun g hg => ?_⟩
  rcases List.mem_append.mp hg with hg | hg
  · obtain ⟨q, hq, hle⟩ := h.2 g hg
    exact ⟨q, hq, by omega⟩
  · rw [List.mem_singleton.mp hg]
    exact ⟨lower, hf, Nat.le_refl _⟩

/-- The level of what no operator can tear apart. -/
def tight : Nat := 20

namespace Reads

variable {level : Nat} {ts : List Token} {t : Term}

theorem leaf (text : String) : Reads tight [.leaf text] (.leaf text) :=
  fun _ _ => ⟨[], .leaf text, rfl, .nil _ _⟩

theorem group (h : Reads level ts t) (hl : 0 < level) :
    Reads tight (.opening :: ts ++ [Token.closing]) t := by
  intro fs _
  obtain ⟨gs, v, hr, hs⟩ := h (.group :: fs) (.cons (by simp [Frame.level?]) fs)
  have hclose : reduce 0 (gs ++ .group :: fs) v = some (.group :: fs, t) :=
    reduce_settles hs (.inl hl)
  have hopen : Reader.step ⟨fs, none⟩ .opening = some ⟨.group :: fs, none⟩ := rfl
  refine ⟨[], t, ?_, .nil _ _⟩
  rw [List.cons_append, Reader.run_cons, hopen, Option.bind_some, Reader.run_append, hr]
  simp [Reader.run, Reader.step, hclose]

theorem unary {s : String} {lower : Nat} {op : UnaryOp} (hop : unary? s = some (lower, op))
    (h : Reads level ts t) (hl : lower < level) : Reads lower (.sign s :: ts) (.unary op t) := by
  intro fs _
  obtain ⟨gs, v, hr, hs⟩ := h (.unary lower op :: fs) (.cons (by simpa [Frame.level?] using .inl hl) fs)
  have hstep : Reader.step ⟨fs, none⟩ (.sign s) = some ⟨.unary lower op :: fs, none⟩ := by
    simp [Reader.step, Reader.operand, hop]
  refine ⟨gs ++ [Frame.unary lower op], v, ?_, hs.concat (Nat.le_of_lt hl) rfl⟩
  rw [Reader.run_cons, hstep, Option.bind_some, hr]
  simp

theorem binary {s : String} {lower right : Nat} {op : BinaryOp} {us : List Token} {u : Term}
    (hop : operator? s = some (.binary lower op)) (ht : Reads level ts t) (hu : Reads right us u)
    (hl : lower < level ∨ lower = level ∧ side lower = .left)
    (hr : lower < right ∨ lower = right ∧ side lower = .right) :
    Reads lower (ts ++ .sign s :: us) (.binary op t u) := by
  intro fs hfs
  obtain ⟨gs, v, hrun, hs⟩ := ht fs (hfs.mono hl)
  have hstop : Stops right (.binary lower op t :: fs) := by
    refine .cons (fun q hq => ?_) fs
    obtain rfl : lower = q := by simpa [Frame.level?] using hq
    rcases hr with hr | ⟨rfl, hr⟩
    · exact .inl hr
    · exact .inr ⟨rfl, hr⟩
  obtain ⟨gs', v', hrun', hs'⟩ := hu _ hstop
  have hreduce : reduce lower (gs ++ fs) v = some (fs, t) := by
    rw [reduce_settles hs hl, reduce_stops hfs]
  have hstep : Reader.step ⟨gs ++ fs, some v⟩ (.sign s) = some ⟨.binary lower op t :: fs, none⟩ := by
    simp [Reader.step, hop, Reader.operator, hreduce]
  refine ⟨gs' ++ [Frame.binary lower op t], v', ?_, hs'.concat (by omega) rfl⟩
  rw [Reader.run_append, hrun, Option.bind_some, Reader.run_cons, hstep, Option.bind_some, hrun']
  simp

theorem conditional {test yes no : List Token} {a b c : Term} {la lb lc : Nat}
    (ha : Reads la test a) (hb : Reads lb yes b) (hc : Reads lc no c) (hla : 2 < la) (hlb : 0 < lb)
    (hlc : 2 < lc) :
    Reads 2 (test ++ .sign "?" :: (yes ++ .sign ":" :: no)) (.conditional a b c) := by
  intro fs hfs
  obtain ⟨ga, va, hra, hsa⟩ := ha fs (hfs.mono (.inl hla))
  obtain ⟨gb, vb, hrb, hsb⟩ := hb (.question a :: fs) (.cons (by simp [Frame.level?]) fs)
  obtain ⟨gc, vc, hrc, hsc⟩ := hc (.choice a b :: fs) (.cons (by simpa [Frame.level?] using .inl hlc) fs)
  have hquestion : Reader.step ⟨ga ++ fs, some va⟩ (.sign "?") = some ⟨.question a :: fs, none⟩ := by
    have hreduce : reduce 2 (ga ++ fs) va = some (fs, a) := by
      rw [reduce_settles hsa (.inl hla), reduce_stops hfs]
    have hoperator : operator? "?" = some .question := rfl
    simp [Reader.step, hoperator, Reader.operator, hreduce]
  have hcolon : Reader.step ⟨gb ++ .question a :: fs, some vb⟩ (.sign ":") =
      some ⟨.choice a b :: fs, none⟩ := by
    have hreduce : reduce 0 (gb ++ .question a :: fs) vb = some (.question a :: fs, b) :=
      reduce_settles hsb (.inl hlb)
    have hoperator : operator? ":" = some .colon := rfl
    simp [Reader.step, hoperator, Reader.operator, hreduce]
  refine ⟨gc ++ [Frame.choice a b], vc, ?_, hsc.concat (Nat.le_of_lt hlc) rfl⟩
  rw [Reader.run_append, hra, Option.bind_some, Reader.run_cons, hquestion, Option.bind_some,
    Reader.run_append, hrb, Option.bind_some, Reader.run_cons, hcolon, Option.bind_some, hrc]
  simp

theorem assign {s : String} {op : AssignOp} (hop : operator? s = some (.assign op))
    (h : Reads level ts t) (hl : 0 < level) (target : String) :
    Reads 1 (.leaf target :: .sign s :: ts) (.assign op (.leaf target) t) := by
  intro fs _
  have hstop : Stops level (.assign op (.leaf target) :: fs) := by
    refine .cons (fun q hq => ?_) fs
    obtain rfl : 1 = q := by simpa [Frame.level?] using hq
    rcases Nat.lt_or_eq_of_le hl with hl | rfl
    · exact .inl hl
    · exact .inr ⟨rfl, rfl⟩
  obtain ⟨gs, v, hr, hs⟩ := h _ hstop
  have htarget : Reader.step ⟨fs, none⟩ (.leaf target) = some ⟨fs, some (.leaf target)⟩ := rfl
  have hstep : Reader.step ⟨fs, some (.leaf target)⟩ (.sign s) =
      some ⟨.assign op (.leaf target) :: fs, none⟩ := by
    simp [Reader.step, hop, Reader.operator]
  refine ⟨gs ++ [Frame.assign op (.leaf target)], v, ?_, hs.concat hl rfl⟩
  rw [Reader.run_cons, htarget, Option.bind_some, Reader.run_cons, hstep, Option.bind_some, hr]
  simp

theorem term (h : Reads level ts t) (hl : 0 < level) :
    (Reader.run ⟨[], none⟩ ts).bind Reader.term? = some t := by
  obtain ⟨gs, v, hr, hs⟩ := h [] (by simp [Stops])
  have hall : reduce 0 (gs ++ []) v = some ([], t) := reduce_settles hs (.inl hl)
  rw [List.append_nil] at hr hall
  simp [hr, Reader.term?, hall]

end Reads

end TsToPhp.Php
