import TsToPhp.Proofs.Balance
import TsToPhp.Proofs.Variables

/-! What stands behind the signs of variables, static properties among them. Printed text has a name
of its module there as long as no name has a sign in it. -/

namespace TsToPhp.Php.Variables

/-- The text behind each sign that is outside of literals. -/
def behindSigns (seat : Seat) : List Char → List (List Char)
  | [] => []
  | c :: cs => (if seat.isCode && c == '$' then [cs] else []) ++ behindSigns (next seat c) cs

def isLabelStart (c : Char) : Bool := isLabelChar c && !c.isDigit

/-- Outside of literals each sign begins a simple variable, which is named in full. -/
def isSimple (s : String) : Bool :=
  (behindSigns .code s.toList).all fun rest => rest.head?.any isLabelStart

/-- A character at which no literal and no variable begins. -/
def isUnsigned (c : Char) : Bool := c != '"' && c != '$'

theorem behindSigns_append (seat : Seat) (as bs : List Char) :
    behindSigns seat (as ++ bs) =
      (behindSigns seat as).map (· ++ bs) ++ behindSigns (after seat as) bs := by
  induction as generalizing seat with
  | nil => rfl
  | cons a as ih =>
    rw [List.cons_append, behindSigns, behindSigns, ih, List.map_append, List.append_assoc]
    split <;> rfl

/-- A text that closes its literals. -/
def Closes (cs : List Char) : Prop := ∀ seat, seat.isCode = true → (after seat cs).isCode = true

namespace Closes

variable {as bs cs : List Char}

theorem nil : Closes [] := fun _ h => h

theorem append (ha : Closes as) (hb : Closes bs) : Closes (as ++ bs) := by
  intro seat hs
  rw [after_append]
  exact hb _ (ha seat hs)

theorem unquoted (h : '"' ∉ cs) : Closes cs := by
  induction cs with
  | nil => exact nil
  | cons c cs ih =>
    intro seat hs
    have hc : c ≠ '"' := fun hc => h (hc ▸ List.mem_cons_self)
    have hnext : (next seat c).isCode = true := by
      cases seat with
      | literal | escape => cases hs
      | code | colon | colons => by_cases hcolon : c = ':' <;> simp [next, hc, hcolon, Seat.isCode]
    exact ih (fun hm => h (List.mem_cons_of_mem c hm)) _ hnext

theorem plain (h : cs.all isUnsigned = true) : Closes cs :=
  unquoted fun hm => absurd (List.all_eq_true.mp h _ hm) (by decide)

theorem next_quote {seat : Seat} (hs : seat.isCode = true) : next seat '"' = .literal := by
  cases seat <;> first | rfl | cases hs

theorem quote (s : String) : Closes (quote s).toList := by
  intro seat hs
  have hclosed : after .code (Php.quote s).toList = .code := (Skips.quote s).after
  rw [toList_quote, Variables.after, List.foldl_cons, next_quote rfl] at hclosed
  rw [toList_quote, Variables.after, List.foldl_cons, next_quote hs, hclosed]
  rfl

/-- A sign behind such a text is outside of literals. -/
theorem mem_behindSigns (h : Closes as) (bs : List Char) :
    bs ∈ behindSigns .code (as ++ '$' :: bs) := by
  rw [behindSigns_append, behindSigns, h .code rfl]
  exact List.mem_append_right _ (List.mem_append_left _ (.head _))

end Closes

/-- A text that closes its literals and has such names behind its signs. -/
structure Signs (ok : String → Prop) (cs : List Char) : Prop where
  closes : Closes cs
  behind : ∀ seat, seat.isCode = true → ∀ rest ∈ behindSigns seat cs, ∃ n, ok n ∧ n.toList <+: rest

namespace Signs

variable {ok : String → Prop} {as bs cs : List Char}

theorem nil : Signs ok [] := ⟨.nil, fun _ _ => List.forall_mem_nil _⟩

theorem append (ha : Signs ok as) (hb : Signs ok bs) : Signs ok (as ++ bs) := by
  refine ⟨ha.closes.append hb.closes, fun seat hs rest hr => ?_⟩
  rw [behindSigns_append, List.mem_append] at hr
  rcases hr with hr | hr
  · obtain ⟨rest, hrest, rfl⟩ := List.mem_map.mp hr
    obtain ⟨n, hn, hbegins⟩ := ha.behind seat hs rest hrest
    exact ⟨n, hn, hbegins.trans (List.prefix_append rest bs)⟩
  · exact hb.behind _ (ha.closes seat hs) rest hr

theorem behindSigns_unsigned {seat : Seat} (h : cs.all isUnsigned = true) :
    behindSigns seat cs = [] := by
  induction cs generalizing seat with
  | nil => rfl
  | cons c cs ih =>
    simp only [List.all_cons, isUnsigned, Bool.and_eq_true, bne_iff_ne] at h
    rw [behindSigns, ih (by simpa [isUnsigned] using h.2)]
    simp [h.1.2]

theorem plain (h : cs.all isUnsigned = true) : Signs ok cs := by
  refine ⟨.plain h, fun seat _ rest hr => ?_⟩
  rw [behindSigns_unsigned h] at hr
  cases hr

/-- A literal keeps its signs to itself. -/
theorem quote (s : String) : Signs ok (quote s).toList := by
  have hinside {cs : List Char} (h : cs.all isInside = true) : behindSigns .literal cs = [] := by
    induction cs with
    | nil => rfl
    | cons c cs ih =>
      simp only [List.all_cons, isInside, Bool.and_eq_true, bne_iff_ne] at h
      have hn : next .literal c = .literal := by simp [next, h.1]
      rw [behindSigns, hn, ih (by simpa [isInside] using h.2)]
      rfl
  have hescape (c : Char) : behindSigns .literal (escape c) = [] := by
    rcases escape_cases c with ⟨d, cs, he, hcs⟩ | ⟨he, hc⟩
    · rw [he, behindSigns, behindSigns]
      exact hinside hcs
    · rw [he]
      exact hinside (by simpa using hc)
  have hbody (cs rest : List Char) : behindSigns .literal (cs.flatMap escape ++ rest) =
      behindSigns .literal rest := by
    induction cs with
    | nil => rfl
    | cons c cs ih =>
      rw [List.flatMap_cons, List.append_assoc, behindSigns_append, hescape, (Skips.escape c).after,
        ih]
      rfl
  refine ⟨.quote s, fun seat hs rest hr => ?_⟩
  rw [toList_quote, behindSigns, Closes.next_quote hs, hbody] at hr
  simp [behindSigns, Seat.isCode] at hr

/-- A sign with the name that it introduces. -/
theorem «variable» {n : String} (hn : ok n) (h : n.toList.all isUnsigned = true) :
    Signs ok ('$' :: n.toList) := by
  have hname : Signs ok n.toList := plain h
  have hsign : Closes ['$'] := .unquoted (by decide)
  refine ⟨hsign.append hname.closes, fun seat hs rest hr => ?_⟩
  rw [behindSigns, hs, behindSigns_unsigned h, List.append_nil] at hr
  obtain rfl : rest = n.toList := by simpa using hr
  exact ⟨n, hn, List.prefix_rfl⟩

end Signs

end TsToPhp.Php.Variables
