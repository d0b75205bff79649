import Mathlib.Algebra.GroupWithZero.Nat
import Mathlib.Data.List.Forall2
import TsToPhp.Proofs.Layout
import TsToPhp.Proofs.Quoted

/-! The variables that PHP text mentions. Between two expressions stands a text that parts their
variables, so that what is put together mentions what its parts mention. -/

namespace TsToPhp.Php

/-- The characters of a variable's name. -/
def isLabelChar (c : Char) : Bool := isIdentifierChar c && c != '$'

def isLabel (s : String) : Bool := !s.toList.isEmpty && s.toList.all isLabelChar

namespace Variables

/-- Where a reader stands that looks for variables: in code, behind one or two colons, or in a
literal. -/
inductive Seat where
  | code | colon | colons | literal | escape
  deriving DecidableEq, Repr

def Seat.isCode : Seat → Bool
  | code | colon | colons => true
  | literal | escape => false

def next : Seat → Char → Seat
  | .escape, _ => .literal
  | .literal, c => if c = '"' then .code else if c = '\\' then .escape else .literal
  | seat, c =>
    if c = '"' then .literal
    else if c = ':' then if seat = .code then .colon else .colons
    else .code

/-- Behind two colons stands the name of a static property. -/
def begins (seat : Seat) (c : Char) : Bool :=
  c == '$' && (seat = .code || seat = .colon)

def after (seat : Seat) (cs : List Char) : Seat := cs.foldl next seat

/-- The names of the variables, in order. -/
def names (seat : Seat) : List Char → List String
  | [] => []
  | c :: cs =>
    (if begins seat c then [String.ofList (cs.takeWhile isLabelChar)] else []) ++
      names (next seat c) cs

/-- No name goes on into this text. -/
def Breaks (cs : List Char) : Prop := ∀ c ∈ cs.head?, isLabelChar c = false

instance (cs : List Char) : Decidable (Breaks cs) :=
  inferInstanceAs (Decidable (∀ c ∈ cs.head?, isLabelChar c = false))

theorem breaks_nil : Breaks [] := fun _ h => nomatch h

theorem after_append (seat : Seat) (as bs : List Char) :
    after seat (as ++ bs) = after (after seat as) bs :=
  List.foldl_append

theorem takeWhile_append_breaks (as : List Char) {bs : List Char} (h : Breaks bs) :
    (as ++ bs).takeWhile isLabelChar = as.takeWhile isLabelChar := by
  induction as with
  | nil =>
    cases bs with
    | nil => rfl
    | cons b bs => simp [h b rfl]
  | cons a as ih =>
    by_cases ha : isLabelChar a = true
    · simp [ha, ih]
    · simp [ha]

theorem names_append (seat : Seat) (as : List Char) {bs : List Char} (h : Breaks bs) :
    names seat (as ++ bs) = names seat as ++ names (after seat as) bs := by
  induction as generalizing seat with
  | nil => rfl
  | cons a as ih =>
    have hrest := ih (next seat a)
    simp only [List.cons_append, names, takeWhile_append_breaks as h, hrest, List.append_assoc]
    rfl

/-- A character at which no literal, variable or static property begins. -/
def isIdle (c : Char) : Bool := !(['"', '$', ':'].contains c)

theorem isIdle_of {p : Char → Bool} (hp : ['"', '$', ':'].any p = false) {c : Char}
    (hc : p c = true) : isIdle c = true := by
  have hs : c ∉ ['"', '$', ':'] := fun hm => List.any_eq_false.mp hp c hm hc
  simpa [isIdle] using hs

theorem next_idle {seat : Seat} (hs : seat.isCode = true) {c : Char} (hc : isIdle c = true) :
    next seat c = .code := by
  simp only [isIdle, Bool.not_eq_true', List.contains_eq_mem, decide_eq_false_iff_not,
    List.mem_cons, List.not_mem_nil, or_false, not_or] at hc
  cases seat <;> simp_all [next, Seat.isCode]

theorem begins_idle (seat : Seat) {c : Char} (hc : isIdle c = true) : begins seat c = false := by
  have hdollar : c ≠ '$' := by
    rintro rfl
    exact absurd hc (by decide)
  simp [begins, hdollar]

/-- A text that leads from one seat to another and names no variable. -/
structure Skips (start stop : Seat) (cs : List Char) : Prop where
  after : after start cs = stop
  names : names start cs = []

namespace Skips

theorem nil (seat : Seat) : Skips seat seat [] := ⟨rfl, rfl⟩

theorem cons {start seat stop : Seat} {c : Char} {cs : List Char} (hb : begins start c = false)
    (hn : next start c = seat) (h : Skips seat stop cs) : Skips start stop (c :: cs) := by
  constructor
  · rw [Variables.after, List.foldl_cons, hn]
    exact h.after
  · rw [Variables.names, hb, hn, h.names]
    rfl

theorem names_append {start stop : Seat} {as : List Char} (h : Skips start stop as)
    (bs : List Char) : Variables.names start (as ++ bs) = Variables.names stop bs := by
  obtain ⟨hafter, hnames⟩ := h
  induction as generalizing start with
  | nil =>
    subst hafter
    rfl
  | cons a as ih =>
    rw [Variables.names, List.append_eq_nil_iff] at hnames
    have hb : begins start a = false := by
      cases hb : begins start a with
      | true => simp [hb] at hnames
      | false => rfl
    rw [List.cons_append, Variables.names, hb, ih hafter hnames.2]
    rfl

theorem append {start seat stop : Seat} {as bs : List Char} (ha : Skips start seat as)
    (hb : Skips seat stop bs) : Skips start stop (as ++ bs) := by
  constructor
  · rw [after_append, ha.after, hb.after]
  · rw [ha.names_append, hb.names]

theorem idle {cs : List Char} (h : cs.all isIdle = true) : Skips .code .code cs := by
  induction cs with
  | nil => exact nil _
  | cons c cs ih =>
    rw [List.all_cons, Bool.and_eq_true] at h
    exact cons (begins_idle _ h.1) (next_idle rfl h.1) (ih h.2)

theorem label {seat : Seat} (hs : seat.isCode = true) {s : String} (h : isLabel s = true) :
    Skips seat .code s.toList := by
  have hidle (c : Char) (hc : isLabelChar c = true) : isIdle c = true := isIdle_of (by decide) hc
  simp only [isLabel, Bool.and_eq_true, Bool.not_eq_true', List.isEmpty_eq_false_iff] at h
  cases hcs : s.toList with
  | nil => exact absurd hcs h.1
  | cons c cs =>
    rw [hcs, List.all_cons, Bool.and_eq_true] at h
    have hc := hidle c h.2.1
    have hrest : cs.all isIdle = true :=
      List.all_eq_true.mpr fun d hd => hidle d (List.all_eq_true.mp h.2.2 d hd)
    exact cons (begins_idle _ hc) (next_idle hs hc) (idle hrest)

theorem inside {cs : List Char} (h : cs.all isInside = true) : Skips .literal .literal cs := by
  induction cs with
  | nil => exact nil _
  | cons c cs ih =>
    simp only [List.all_cons, isInside, Bool.and_eq_true, bne_iff_ne] at h
    exact cons (by simp [begins]) (by simp [next, h.1]) (ih (by simpa [isInside] using h.2))

theorem escape (c : Char) : Skips .literal .literal (escape c) := by
  rcases escape_cases c with ⟨d, cs, he, hcs⟩ | ⟨he, hc⟩
  · rw [he]
    exact cons rfl rfl (cons (by simp [begins, next]) rfl (inside hcs))
  · rw [he]
    exact inside (by simpa using hc)

theorem quote (s : String) : Skips .code .code (quote s).toList := by
  have hbody (cs : List Char) : Skips .literal .literal (cs.flatMap Php.escape) := by
    induction cs with
    | nil => exact nil _
    | cons c cs ih => exact (escape c).append ih
  rw [toList_quote]
  exact cons rfl rfl ((hbody _).append (cons rfl rfl (nil _)))

/-- A method or a constant of a class, and a static property. -/
theorem static {cs : List Char} (h : Skips .code .code cs) {s : String} (hs : isLabel s = true) :
    Skips .code .code (cs ++ ("::".toList ++ s.toList)) ∧
      Skips .code .code (cs ++ ("::$".toList ++ s.toList)) := by
  have hcolons : Skips .code .colons "::".toList := cons rfl rfl (cons rfl rfl (nil _))
  have hdollar : Skips .code .code "::$".toList :=
    cons rfl rfl (cons rfl rfl (cons rfl rfl (nil _)))
  exact ⟨h.append (hcolons.append (label rfl hs)), h.append (hdollar.append (label rfl hs))⟩

end Skips

/-- A variable is named in full where its name does not go on. -/
theorem names_variable {s : String} (h : isLabel s = true) {cs : List Char} (hcs : Breaks cs) :
    names .code ('$' :: (s.toList ++ cs)) = s :: names .code cs := by
  have hall : s.toList.all isLabelChar = true := by
    simp only [isLabel, Bool.and_eq_true] at h
    exact h.2
  have hname : (s.toList ++ cs).takeWhile isLabelChar = s.toList := by
    have hself : (s.toList ++ []).takeWhile isLabelChar = s.toList ++ [].takeWhile isLabelChar :=
      List.takeWhile_append_of_pos (List.all_eq_true.mp hall)
    rw [takeWhile_append_breaks _ hcs]
    simpa using hself
  rw [names, hname, String.ofList_toList]
  exact congrArg (s :: ·) ((Skips.label rfl h).names_append cs)

end Variables

end TsToPhp.Php

namespace TsToPhp

open Php Php.Variables

namespace Pieces

def mentions (helper x : String) (p : Pieces) : Nat := (names .code (p.code helper)).count x

/-- Code in which nothing is left open. It mentions a variable at most `m` times, and just as often
if all is `whole` and nothing is reported. -/
structure Linear (helper x : String) (m : Nat) (whole : Prop) (p : Pieces) : Prop where
  after : after .code (p.code helper) = .code
  le : p.mentions helper x ≤ m
  eq : whole → p.diagnostics = [] → p.mentions helper x = m

variable {helper x : String} {m n : Nat} {whole : Prop} {p q : Pieces}

namespace Linear

theorem skips {cs : List Char} (hp : p.code helper = cs) (h : Skips .code .code cs) :
    Linear helper x 0 whole p := by
  subst hp
  have hnone : p.mentions helper x = 0 := by rw [mentions, h.names, List.count_nil]
  exact ⟨h.after, by omega, fun _ _ => hnone⟩

theorem nil : Linear helper x 0 whole [] := skips rfl (.nil _)

theorem text {s : String} (h : s.toList.all isIdle = true) : Linear helper x 0 whole [.text s] :=
  skips (code_text helper s) (.idle h)

theorem label {s : String} (h : isLabel s = true) : Linear helper x 0 whole [.text s] :=
  skips (code_text helper s) (.label rfl h)

theorem quoted (s : String) : Linear helper x 0 whole [quoted s] :=
  skips (code_text helper _) (.quote s)

theorem weaken (h : Linear helper x m whole p) (hle : m ≤ n) (heq : whole → m = n) :
    Linear helper x n whole p where
  after := h.after
  le := Nat.le_trans h.le hle
  eq hw hd := (h.eq hw hd).trans (heq hw)

theorem append (hp : Linear helper x m whole p) (hq : Linear helper x n whole q)
    (hb : Breaks (q.code helper)) : Linear helper x (m + n) whole (p ++ q) := by
  have hcount : (p ++ q).mentions helper x = p.mentions helper x + q.mentions helper x := by
    rw [mentions, code_append, names_append _ _ hb, hp.after, List.count_append]
    rfl
  refine ⟨?_, ?_, fun hw hd => ?_⟩
  · rw [code_append, after_append, hp.after, hq.after]
  · rw [hcount]
    exact Nat.add_le_add hp.le hq.le
  · rw [diagnostics_append, List.append_eq_nil_iff] at hd
    rw [hcount, hp.eq hw hd.1, hq.eq hw hd.2]

/-- In front of an expression anything may stand in which no variable begins. -/
theorem behind (hq : Linear helper x m whole q) (hp : Skips .code .code (p.code helper)) :
    Linear helper x m whole (p ++ q) := by
  have hcount : (p ++ q).mentions helper x = q.mentions helper x := by
    rw [mentions, code_append, hp.names_append]
    rfl
  refine ⟨?_, ?_, fun hw hd => ?_⟩
  · rw [code_append, after_append, hp.after, hq.after]
  · rw [hcount]
    exact hq.le
  · rw [diagnostics_append, List.append_eq_nil_iff] at hd
    rw [hcount, hq.eq hw hd.2]

theorem before {s : String} (hs : s.toList.all isIdle = true) (hq : Linear helper x m whole q) :
    Linear helper x m whole (.text s :: q) :=
  hq.behind (p := [.text s]) (by simpa using Skips.idle hs)

/-- What is reported is not whole. -/
theorem fault (d : Diagnostic) (hp : Linear helper x m whole p) (h : m ≤ n) :
    Linear helper x n whole (.report d :: p) where
  after := hp.after
  le := Nat.le_trans hp.le h
  eq _ hd := by cases hd

theorem reports {d : Diagnostic} (hp : Linear helper x m whole p) :
    Linear helper x m whole (.report d :: p) :=
  fault d hp (Nat.le_refl m)

end Linear

/-- Texts with which no name goes on. -/
def isParting (s : String) : Bool := s.toList.head?.any (!isLabelChar ·)

theorem breaks_parting {s : String} (h : isParting s = true) (q : Pieces) :
    Breaks (code helper (.text s :: q)) := by
  intro c hc
  rw [isParting, Option.any_eq_true] at h
  obtain ⟨b, hb, hlabel⟩ := h
  simp only [code, List.head?_append, Option.mem_def.mp hb, Option.some_or, Option.mem_some_iff]
    at hc
  subst hc
  simpa using hlabel

namespace Linear

theorem closed {s : String} (hp : Linear helper x m whole p) (hs : s.toList.all isIdle = true)
    (hparts : isParting s = true) : Linear helper x m whole (p ++ [Piece.text s]) :=
  hp.append (text hs) (breaks_parting hparts [])

theorem between {s : String} (hp : Linear helper x m whole p) (hq : Linear helper x n whole q)
    (hs : s.toList.all isIdle = true) (hparts : isParting s = true) :
    Linear helper x (m + n) whole (p ++ .text s :: q) :=
  hp.append (hq.before hs) (breaks_parting hparts q)

theorem parens (hp : Linear helper x m whole p) : Linear helper x m whole p.parens :=
  .before (by decide) (hp.closed (by decide) (by decide))

theorem parensIf (wrap : Bool) (hp : Linear helper x m whole p) :
    Linear helper x m whole (p.parensIf wrap) := by
  cases wrap with
  | false => exact hp
  | true => exact hp.parens

theorem brackets (hp : Linear helper x m whole p) :
    Linear helper x m whole (.text "[" :: p ++ [Piece.text "]"]) :=
  .before (by decide) (hp.closed (by decide) (by decide))

theorem «variable» {name : String} (h : isLabel name = true) :
    Linear helper x (if name = x then 1 else 0) whole [.text "$", .text name] := by
  have hcode : code helper [.text "$", .text name] = '$' :: (name.toList ++ []) := by
    simp [code]
  have hnames : names .code (code helper [.text "$", .text name]) = [name] := by
    rw [hcode, names_variable h breaks_nil]
    rfl
  have hcount : mentions helper x [.text "$", .text name] = if name = x then 1 else 0 := by
    rw [mentions, hnames, List.count_singleton]
    simp
  refine ⟨?_, by omega, fun _ _ => hcount⟩
  rw [hcode, List.append_nil, Variables.after, List.foldl_cons]
  exact (Skips.label rfl h).after

theorem joined {separator : String} (hs : separator.toList.all isIdle = true)
    (hparts : isParting separator = true) {ns : List Nat} {items : List Pieces}
    (h : List.Forall₂ (fun n p => Linear helper x n whole p) ns items) :
    Linear helper x ns.sum whole (Pieces.joined separator items) := by
  induction h with
  | nil => exact nil
  | @cons n p ns ps hp hps ih =>
    cases hps with
    | nil => simpa [Pieces.joined] using hp
    | cons => simpa [Pieces.joined] using hp.between ih hs hparts

theorem list {ns : List Nat} {items : List Pieces}
    (h : List.Forall₂ (fun n p => Linear helper x n whole p) ns items) :
    Linear helper x ns.sum whole (Pieces.list items) :=
  joined (by decide) (by decide) h

end Linear

end Pieces

end TsToPhp
