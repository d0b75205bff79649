import TsToPhp.Emit.Rule
import TsToPhp.Proofs.FollowStatement

/-! The object rule tried more often than once. A try that declines writes nothing, so the others
leave no more than their reports. -/

namespace TsToPhp

section

variable (ctx : Context) (hint : Hint)

/-- A copy of the rule that declines writes nothing. -/
theorem putAll_objectRule {e : Expr} (h : (objectRule ctx hint e).handled = false) (helper : String)
    (w : Writer) : w.putAll helper (objectRule ctx hint e).pieces = w := by
  unfold objectRule at h ⊢
  split
  · next span methodSpan receiver key args =>
    cases hform : ctx.objectCall? hint receiver key with
    | some form => cases form <;> simp [hform] at h
    | none =>
      show w.putAll helper (ctx.callReport hint span receiver key) = w
      unfold Context.callReport
      split
      · split <;> rfl
      · rfl
  · next span receiver key =>
    show w.putAll helper (ctx.memberReport span key) = w
    unfold Context.memberReport
    split
    · split <;> rfl
    · rfl
  · by_cases hv : hint = .value
    · simp [hv] at h
    · simp only [hv, if_false]
      rfl
  · rfl

/-- Where the rule declines, the reports of all its copies come first. -/
theorem repeated_prefix_emitExpr {e : Expr} (h : (objectRule ctx hint e).handled = false) :
    ctx.repeated (objectRule ctx hint e).pieces <+: emitExpr ctx hint e := by
  unfold objectRule at h ⊢
  split
  · next span methodSpan receiver key args =>
    cases hform : ctx.objectCall? hint receiver key with
    | some form => cases form <;> simp [hform] at h
    | none => simp [emitExpr, hform]
  · simp [emitExpr, Context.memberAccess]
  · by_cases hv : hint = .value
    · simp [hv] at h
    · simp [hv, Context.repeated_nil]
  · simp [Context.repeated_nil]

end

/-- The reports of a run with `n` copies that one report of a run with a single copy stands for. How
often a static is reported depends on what takes the call, so none of these is looked at. -/
def Diagnostic.seenTimes (n : Nat) (d : Diagnostic) : List Diagnostic :=
  if d.code = .prototypeAccess then List.replicate n d
  else if d.code.isOfObjects then []
  else [d]

theorem Diagnostic.seenTimes_of_rest {d : Diagnostic} (h : d.code.isOfObjects = false) (n : Nat) :
    d.seenTimes n = [d] := by
  have haccess : d.code ≠ .prototypeAccess := by
    intro hd
    simp [hd, Code.isOfObjects] at h
  rw [seenTimes, if_neg haccess, h, if_neg Bool.false_ne_true]

theorem Diagnostic.seenTimes_eq {d : Diagnostic} (h : d.code.isOfObjects = false) (n k : Nat) :
    d.seenTimes n = d.seenTimes k := by
  rw [seenTimes_of_rest h, seenTimes_of_rest h]

theorem filter_seenTimes (n : Nat) (ds : List Diagnostic) :
    (ds.flatMap (Diagnostic.seenTimes n)).filter (!·.code.isOfObjects) =
      ds.filter (!·.code.isOfObjects) := by
  induction ds with
  | nil => rfl
  | cons d ds ih =>
    rw [List.flatMap_cons, List.filter_append, ih]
    by_cases hd : d.code.isOfObjects
    · unfold Diagnostic.seenTimes
      split <;> simp [hd]
    · rw [Bool.not_eq_true] at hd
      simp [Diagnostic.seenTimes_of_rest hd, hd]

theorem filter_seenTimes_prototypeAccess (n : Nat) (ds : List Diagnostic) :
    (ds.flatMap (Diagnostic.seenTimes n)).filter (·.code = .prototypeAccess) =
      (ds.filter (·.code = .prototypeAccess)).flatMap (List.replicate n) := by
  induction ds with
  | nil => rfl
  | cons d ds ih =>
    rw [List.flatMap_cons, List.filter_append, ih, Diagnostic.seenTimes]
    by_cases hd : d.code = .prototypeAccess
    · simp [hd]
    · rw [if_neg hd]
      split <;> simp [hd]

/-- Runs with different numbers of copies. -/
theorem Context.tracks_copies (isInstance : Expr → Bool) (source : Source) (m : Module) {n : Nat}
    (hn : 1 ≤ n) :
    Context.Tracks (Diagnostic.seenTimes n) (Diagnostic.seenTimes 1)
      (.nothing m.classNames.contains) (.ofModule source isInstance 1 m)
      (.ofModule source isInstance n m) where
  isInstance seat e := by rw [e.edit_nothing]; rfl
  isClass := rfl
  classes := rfl
  isTried := by
    show n = 0 ↔ 1 = 0
    omega
  place span d hd :=
    Diagnostic.seenTimes_eq (d := { d with region := source.region span }) hd 1 n
  base e d hd := by
    rw [e.edit_nothing]
    exact Diagnostic.seenTimes_eq (d := { d with region := source.region e.span }) hd 1 n
  static _ _ := rfl
  statics _ _ := by simp [eachCopy, Diagnostic.seenTimes, Diagnostic.error, Code.isOfObjects]
  accesses _ := by
    simp [eachCopy, Diagnostic.seenTimes, Diagnostic.error, Context.ofModule]

/-- A copy of the object rule that declines has written nothing, and what is printed in its place
comes behind. So any number of copies lead to the same PHP and to the same reports, but for those of
the rule itself; each report on `prototype` is made as often as there are copies. -/
theorem rule_copies_leave_text {n : Nat} (hn : 1 ≤ n) (isInstance : Expr → Bool)
    (options : Options) (source : Source) (m : Module) :
    (∀ (ctx : Context) (hint : Hint) (e : Expr), (objectRule ctx hint e).handled = false →
      (∀ (helper : String) (w : Writer), w.putAll helper (objectRule ctx hint e).pieces = w) ∧
        ctx.repeated (objectRule ctx hint e).pieces <+: emitExpr ctx hint e) ∧
    let one := transpileWith isInstance 1 options source m
    let many := transpileWith isInstance n options source m
    many.php = one.php ∧
      many.diagnostics.filter (!·.code.isOfObjects) =
        one.diagnostics.filter (!·.code.isOfObjects) ∧
      many.diagnostics.filter (·.code = .prototypeAccess) =
        (one.diagnostics.filter (·.code = .prototypeAccess)).flatMap (List.replicate n) := by
  refine ⟨fun ctx hint e h => ⟨putAll_objectRule ctx hint h, repeated_prefix_emitExpr ctx hint h⟩,
    ?_⟩
  intro one many
  have htracks := Context.tracks_copies isInstance source m hn
  obtain ⟨hphp, hreports⟩ := printed_tracks htracks (m := m) (fun _ _ => rfl) options
  rw [m.edit_nothing] at hphp hreports
  have hseen : many.diagnostics.flatMap (Diagnostic.seenTimes 1) =
      one.diagnostics.flatMap (Diagnostic.seenTimes n) := hreports
  refine ⟨hphp, ?_, ?_⟩
  · rw [← filter_seenTimes 1, hseen, filter_seenTimes]
  · have haccesses := congrArg (List.filter (·.code = .prototypeAccess)) hseen
    rw [filter_seenTimes_prototypeAccess, filter_seenTimes_prototypeAccess] at haccesses
    have honce : List.replicate (α := Diagnostic) 1 = fun d => [d] := rfl
    rwa [honce, List.flatMap_singleton'] at haccesses

/-- `Object.create(o.prototype);` with three copies. -/
theorem rule_copies_leave_text_three :
    let access : Expr := .member ⟨15, 26⟩ (.ident ⟨"o", ⟨15, 16⟩⟩) (.name ⟨"prototype", ⟨17, 26⟩⟩)
    let create : Key := .name ⟨"create", ⟨8, 14⟩⟩
    let m : Module := [.stmt (.expr ⟨1, 28⟩ (.call ⟨1, 27⟩
      (.method ⟨1, 14⟩ (.ident ⟨"Object", ⟨1, 7⟩⟩) create) [.value access]))]
    let source : Source := ⟨"Object.create(o.prototype);", 0, 1⟩
    let d : Diagnostic :=
      .error .prototypeAccess ⟨0, 14, 25⟩ "o.prototype is not supported."
    let printed (n : Nat) := transpileWith (fun _ => false) n .default source m
    1 ≤ 3 ∧ (printed 1).diagnostics.filter (·.code = .prototypeAccess) = [d] ∧
      (printed 3).php = (printed 1).php ∧
      (printed 3).diagnostics.filter (·.code = .prototypeAccess) = [d, d, d] := by
  intro access create m source d printed
  have hn : 1 ≤ 3 := by omega
  have hone : (printed 1).diagnostics.filter (·.code = .prototypeAccess) = [d] := by decide
  obtain ⟨-, hphp, -, haccesses⟩ :=
    rule_copies_leave_text hn (fun _ => false) .default source m
  refine ⟨hn, hone, hphp, haccesses.trans ?_⟩
  show ((printed 1).diagnostics.filter (·.code = .prototypeAccess)).flatMap (List.replicate 3) = _
  rw [hone]
  rfl

end TsToPhp
