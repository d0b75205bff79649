import TsToPhp.Proofs.Chains

/-! The outline of a printed expression, construct by construct. -/

namespace TsToPhp

open Php Php.Pending Pieces

variable {ctx : Context} {helper : String} {S T : Pending → Bool} {P Q : Prop} {p q r : Pieces}

theorem isWordChar_of_isIdentifier {name : String} (h : isIdentifier name = true) :
    name.toList.all isWordChar = true :=
  List.all_eq_true.mpr fun c hc => by simp [isWordChar, List.all_eq_true.mp h c hc]

theorem integer_signed (n : Int) : ∃ (negative : Bool) (body : String),
    Numeral body.toList ∧ toString n = Php.signed negative body := by
  rw [Int.toString_eq_repr, Int.repr_eq_if]
  split
  · exact ⟨false, n.toNat.repr, by simpa using digits_numeral _, by simp [Php.signed]⟩
  · exact ⟨true, (-n).toNat.repr, by simpa using digits_numeral _, by simp [Php.signed]⟩

/-- Behind the name of a function. -/
theorem Pieces.Encloses.function {name : String} (hn : name.toList.all isWordChar = true)
    (h : Encloses helper isEdge isDone P p) : Encloses helper isEdge isDone P (.text name :: p) :=
  .behind (by rw [code_text]; exact .word hn) h

/-! ### Texts without kept signs -/

namespace Pieces.MeetsIff

/-- A word of its own. -/
theorem word {s : String} (h : s.toList.all isWordChar = true) (hn : s.toList ≠ []) :
    MeetsIff helper isEdge isDone False [.text s] :=
  quiet (by rw [code_text]; exact .word_done h hn)

theorem operand (h : MeetsIff helper isEdge isDone P p) : MeetsIff helper isReady isDone P p :=
  h.mono (fun _ => isEdge_of_isReady) fun _ h => h

theorem quoted (s : String) : MeetsIff helper isEdge isDone False [TsToPhp.quoted s] :=
  quiet (by rw [TsToPhp.quoted, code_text]; exact .quote s)

theorem null : MeetsIff helper isEdge isDone False [.text "null"] :=
  word (by decide) (by decide)

theorem parens (h : MeetsIff helper isReady isDone P p) : Encloses helper isEdge isDone P p.parens :=
  (h.mono (fun _ => isReady_of_isNothing) fun _ => isEdge_of_isDone).group (b := ('(', ')')) (by decide)

theorem parensIf (wrap : Bool) (h : MeetsIff helper isReady isDone P p) :
    MeetsIff helper isReady isDone P (p.parensIf wrap) := by
  cases wrap with
  | false => exact h
  | true => exact h.parens.meetsIff.operand

theorem variableNamed {name : String} (h : isIdentifier name = true) :
    MeetsIff helper isEdge isDone False (variableNamed name) := by
  unfold TsToPhp.variableNamed
  split
  · exact null
  · exact word (by decide) (by decide)
  · exact word (by decide) (by decide)
  · refine quiet ?_
    have hall : ('$' :: (name.toList)).all isWordChar = true := by
      rw [List.all_cons, isWordChar_of_isIdentifier h]
      rfl
    simpa [code] using Traces.word_done hall (by simp)

theorem numeral {negative : Bool} {body : String} (h : Numeral body.toList) :
    MeetsIff helper isReady isDone False [.text (Php.signed negative body)] := by
  refine quiet ?_
  rw [code_text]
  cases negative with
  | false => exact .numeral h
  | true =>
    have hsigned : (Php.signed true body).toList = "-".toList ++ body.toList := by simp [Php.signed]
    rw [hsigned]
    exact (Traces.front (by decide)).append (.numeral h)

theorem literal (span : Span) (value : Literal) :
    MeetsIff helper isReady isDone False (ctx.literal span value) := by
  cases value with
  | string value => exact (quoted _).operand
  | number x =>
    obtain ⟨negative, body, hb, ht, -⟩ := text_signed (Binary64.ofFloat x)
    simp only [Context.literal, Php.number, ht]
    exact numeral hb
  | boolean value => cases value <;> exact (word (by decide) (by decide)).operand
  | null => exact null.operand
  | bigint n =>
    obtain ⟨negative, body, hb, ht⟩ := integer_signed n
    simp only [Context.literal, ht]
    exact numeral hb
  | regex | jsxText => exact null.operand

/-! ### Lists and brackets -/

theorem list {α : Type} {P : α → Prop} {f : α → Pieces} {xs : List α}
    (h : ∀ x ∈ xs, MeetsIff helper isReady isDone (P x) (f x)) :
    MeetsIff helper isReady isEdge (∃ x ∈ xs, P x) (Pieces.list (xs.map f)) := by
  induction xs with
  | nil =>
    have hnil : MeetsIff helper isReady isEdge False [] :=
      quiet (Traces.nil.mono (fun _ h => h) fun _ => isEdge_of_isReady)
    exact hnil.congr (by simp)
  | cons x xs ih =>
    have hx := (h x (by simp)).mono (fun _ h => h) fun _ => isEdge_of_isDone
    cases xs with
    | nil => exact hx.congr (by simp)
    | cons y ys =>
      have hcomma : Traces isEdge isReady (code helper [.text ", "]) [","] [] := by
        rw [code_text]
        exact .comma
      have hall := hx.apart hcomma (by decide) (ih fun z hz => h z (by simp [hz]))
      have hjoin : Pieces.list ((x :: y :: ys).map f) =
          f x ++ [Piece.text ", "] ++ Pieces.list ((y :: ys).map f) := by
        simp [Pieces.list, joined]
      rw [hjoin]
      exact hall.congr (by simp)

theorem edge (h : MeetsIff helper isReady isEdge P p) : MeetsIff helper isNothing isEdge P p :=
  h.mono (fun _ => isReady_of_isNothing) fun _ h => h

theorem brackets (h : MeetsIff helper isReady isEdge P p) :
    Encloses helper isEdge isDone P (.text "[" :: p ++ [Piece.text "]"]) :=
  h.edge.group (b := ('[', ']')) (by decide)

theorem call (h : MeetsIff helper isReady isEdge P p) : Encloses helper isEdge isDone P p.parens :=
  h.edge.group (b := ('(', ')')) (by decide)

theorem existenceCheck (ctx : Context) (object : Expr) (hp : MeetsIff helper isReady isDone P p)
    (hq : MeetsIff helper isReady isDone Q q) :
    Encloses helper isEdge isDone (P ∨ Q) (ctx.existenceCheck object p q) := by
  have hpair {P Q : Prop} {p q : Pieces} (hp : MeetsIff helper isReady isDone P p)
      (hq : MeetsIff helper isReady isDone Q q) :
      MeetsIff helper isReady isEdge (P ∨ Q) (Pieces.list [p, q]) := by
    have hall : MeetsIff helper isReady isEdge (∃ x ∈ [(P, p), (Q, q)], x.1)
        (Pieces.list ([(P, p), (Q, q)].map Prod.snd)) := list (by simp [hp, hq])
    exact hall.congr (by simp)
  unfold Context.existenceCheck
  split
  · exact .function (by decide) (hpair hp hq).call
  · exact (Encloses.function (by decide) (hpair hq hp).call).congr or_comm

end Pieces.MeetsIff

/-! ### Operators -/

/-- An operator with a blank on either side. One of them is a word. -/
theorem Php.Traces.operator {op : String} (h : op ∈ lexemeSigns ∨ op = "instanceof") :
    Traces isEdge isNothing (' ' :: op.toList ++ [' ']) (Lexeme.sign op).kept [] := by
  rcases h with h | rfl
  · exact .spaced h
  · have hsplit : (' ' :: "instanceof".toList ++ [' '] : List Char) =
        [' '] ++ ("instanceof".toList ++ [' ']) := rfl
    have hopen : Traces isEdge isEdge [' '] [] [] :=
      Traces.blank.mono (fun _ h => h) fun _ h => isEdge_of_isReady (isReady_of_isNothing h)
    rw [hsplit]
    exact hopen.append ((Traces.word (by decide)).append .blank)

theorem code_spaced (op : String) :
    code helper [.text " ", .text op, .text " "] = ' ' :: op.toList ++ [' '] := by
  simp [code]

namespace Pieces.Shows

theorem spaced {op : String} (h : op ∈ lexemeSigns ∨ op = "instanceof") :
    Shows helper isEdge isNothing False [.text " ", .text op, .text " "] :=
  ⟨_, [], by rw [code_spaced]; exact .operator h, by simp, False.elim⟩

/-- The same in one text. -/
theorem between {s : String} (op : String) (hs : s.toList = ' ' :: op.toList ++ [' '])
    (h : op ∈ lexemeSigns) : Shows helper isEdge isReady False [.text s] := by
  have htrace : Traces isEdge isReady (code helper [.text s]) (Lexeme.sign op).kept [] := by
    rw [code_text, hs]
    exact (Traces.spaced h).mono (fun _ h => h) fun _ => isReady_of_isNothing
  exact ⟨_, [], htrace, by simp, False.elim⟩

theorem edge (h : Shows helper S isDone P p) : Shows helper S isEdge P p := by
  obtain ⟨os, rs, hl, hm⟩ := h
  exact ⟨os, rs, hl.mono (fun _ h => h) fun _ => isEdge_of_isDone, hm⟩

theorem blank (h : Shows helper isReady T P p) : Shows helper isNothing T P p := by
  obtain ⟨os, rs, hl, hm⟩ := h
  exact ⟨os, rs, hl.mono (fun _ => isReady_of_isNothing) fun _ h => h, hm⟩

theorem binary {op : String} (h : op ∈ lexemeSigns ∨ op = "instanceof")
    (hp : Shows helper isReady isDone P p) (hq : Shows helper isNothing isDone Q q) :
    Shows helper isReady isDone (P ∨ Q) (p ++ [Piece.text " ", .text op, .text " "] ++ q) :=
  ((hp.edge.append (spaced h)).append hq).congr (by simp)

end Pieces.Shows

theorem BinaryOp.php?_sign {op : BinaryOp} {joins : Bool} {text : String}
    (h : op.php? joins = some text) : text ∈ lexemeSigns ∨ text = "instanceof" := by
  cases op <;> cases joins <;> cases h <;> decide

theorem AssignOp.php?_sign {op : AssignOp} {joins : Bool} {text : String}
    (h : op.php? joins = some text) : text ∈ lexemeSigns := by
  cases op <;> cases joins <;> cases h <;> decide

theorem UnaryOp.php?_front {op : UnaryOp} {text : String} (h : op.php? = some text) :
    text ∈ Traces.prefixSigns := by
  cases op <;> cases h <;> decide

/-- An operator in one text that keeps comparisons apart. -/
theorem Pieces.MeetsIff.parted {s : String} (op : String) (hs : s.toList = ' ' :: op.toList ++ [' '])
    (h : op ∈ lexemeSigns ∧ (Lexeme.sign op).kept = [op] ∧ binding op < 9)
    (hp : MeetsIff helper S isDone P p) (hq : MeetsIff helper isReady T Q q) :
    MeetsIff helper S T (P ∨ Q) (p ++ [Piece.text s] ++ q) := by
  have htrace : Traces isEdge isReady (code helper [.text s]) [op] [] := by
    rw [code_text, hs, ← h.2.1]
    exact (Traces.spaced h.1).mono (fun _ h => h) fun _ => isReady_of_isNothing
  exact (hp.mono (fun _ h => h) fun _ => isEdge_of_isDone).apart htrace h.2.2 hq

/-! ### Members of an object -/

/-- Further members of a list, with a comma in front of each. -/
def Pieces.Follows (helper : String) (Q : Prop) (rest : Pieces) : Prop :=
  ∀ P p, MeetsIff helper isReady isEdge P p → MeetsIff helper isReady isEdge (P ∨ Q) (p ++ rest)

theorem Pieces.Follows.congr (h : Follows helper P r) (hpq : P ↔ Q) : Follows helper Q r :=
  propext hpq ▸ h

theorem Pieces.Follows.nil : Follows helper False [] :=
  fun _ p h => by simpa using h

/-- A member, as the first one or behind a comma. -/
theorem member_meets {first later item rest : Pieces} {R : Prop}
    (hi : MeetsIff helper isReady isDone P item) (hr : Follows helper Q rest) (hpq : P ∨ Q ↔ R)
    (hf : first = item ++ rest) (hl : later = .text ", " :: (item ++ rest)) :
    MeetsIff helper isReady isEdge R first ∧ Follows helper R later := by
  have hedge := hi.mono (fun _ h => h) fun _ => isEdge_of_isDone
  refine ⟨hf ▸ (hr P item hedge).congr hpq, fun O p hp => ?_⟩
  have hcomma : Traces isEdge isReady (code helper [.text ", "]) [","] [] := by
    rw [code_text]
    exact .comma
  have hall := hr _ _ (hp.apart hcomma (by decide) hedge)
  rw [hl]
  have hsplit : p ++ .text ", " :: (item ++ rest) = p ++ [Piece.text ", "] ++ item ++ rest := by simp
  rw [hsplit]
  exact hall.congr (by rw [or_assoc, hpq])

/-! ### Templates -/

namespace Template

variable {α : Type}

def chunkItem (raw : String) : List (String ⊕ α) := if raw.isEmpty then [] else [.inl raw]

/-- The parts of a template before they are printed. -/
def items : List String → List α → List (String ⊕ α)
  | [], _ => []
  | chunk :: chunks, [] => chunkItem chunk ++ items chunks []
  | chunk :: chunks, e :: es => chunkItem chunk ++ .inr e :: items chunks es

def itemPieces (print : α → Pieces) : String ⊕ α → Pieces
  | .inl raw => [quoted (unescape raw)]
  | .inr e => print e

theorem chunkPart_eq_map (print : α → Pieces) (raw : String) :
    chunkPart raw = (chunkItem raw).map (itemPieces print) := by
  unfold chunkPart chunkItem
  split <;> rfl

theorem parts_eq_map (print : α → Pieces) (chunks : List String) (es : List α) :
    parts chunks (es.map print) = (items chunks es).map (itemPieces print) := by
  induction chunks generalizing es with
  | nil => rfl
  | cons chunk chunks ih =>
    cases es with
    | nil => simpa [parts, items, ← chunkPart_eq_map] using ih []
    | cons e es => simp [parts, items, itemPieces, ih, ← chunkPart_eq_map]

/-- An expression is a part if there is a chunk for it. -/
theorem inr_mem_items {chunks : List String} {es : List α} {e : α} :
    .inr e ∈ items chunks es ↔ e ∈ es.take chunks.length := by
  have hchunk (raw : String) : .inr e ∉ (chunkItem raw : List (String ⊕ α)) := by
    unfold chunkItem
    split <;> simp
  induction chunks generalizing es with
  | nil => simp [items]
  | cons chunk chunks ih =>
    cases es with
    | nil => simpa [items, hchunk] using @ih []
    | cons f es => simp [items, hchunk, ih]

end Template

theorem Pieces.Shows.joined {α : Type} {P : α → Prop} {f : α → Pieces} {xs : List α} (hn : xs ≠ [])
    (h : ∀ x ∈ xs, Shows helper isReady isDone (P x) (f x)) :
    Shows helper isReady isDone (∃ x ∈ xs, P x) (Pieces.joined " . " (xs.map f)) := by
  induction xs with
  | nil => exact absurd rfl hn
  | cons x xs ih =>
    have hx := h x (by simp)
    cases xs with
    | nil => exact hx.congr (by simp)
    | cons y ys =>
      have hdot : Shows helper isEdge isReady False [.text " . "] :=
        between "." rfl (by decide)
      have hall := (hx.edge.append hdot).append (ih (by simp) fun z hz => h z (by simp [hz]))
      have hjoin : Pieces.joined " . " ((x :: y :: ys).map f) =
          f x ++ [Piece.text " . "] ++ Pieces.joined " . " ((y :: ys).map f) := by
        simp [Pieces.joined]
      rw [hjoin]
      exact hall.congr (by simp)

theorem template_shows {P : Expr → Prop} {print : Expr → Pieces} (chunks : List String)
    {es : List Expr} (h : ∀ e ∈ es, MeetsIff helper isReady isDone (P e) (print e)) :
    Shows helper isReady isDone (∃ e ∈ es.take chunks.length, P e)
      (Template.pieces chunks (es.map print)) := by
  let Q : String ⊕ Expr → Prop := Sum.elim (fun _ => False) P
  have hitem : ∀ x ∈ Template.items chunks es,
      Shows helper isReady isDone (Q x) (Template.itemPieces print x) := by
    rintro (raw | e) hx
    · exact (MeetsIff.quoted _).operand.shows
    · exact (h e (List.mem_of_mem_take (Template.inr_mem_items.mp hx))).shows
  have hiff : (∃ x ∈ Template.items chunks es, Q x) ↔ ∃ e ∈ es.take chunks.length, P e := by
    constructor
    · rintro ⟨raw | e, hx, hp⟩
      · exact hp.elim
      · exact ⟨e, Template.inr_mem_items.mp hx, hp⟩
    · rintro ⟨e, he, hp⟩
      exact ⟨.inr e, Template.inr_mem_items.mpr he, hp⟩
  unfold Template.pieces
  split
  · next hnone =>
    have hnil : Template.items chunks es = [] := by
      rwa [Template.parts_eq_map, List.map_eq_nil_iff] at hnone
    rw [hnil] at hiff
    exact (MeetsIff.quoted "").operand.shows.congr (by simpa using hiff)
  · next hsome =>
    rw [Template.parts_eq_map] at hsome ⊢
    exact (Shows.joined (fun hnil => hsome (by rw [hnil]; rfl)) hitem).congr hiff

/-! ### Accesses -/

theorem Pieces.Shows.reported (hr : r.code helper = []) (h : Shows helper S T P p) :
    Shows helper S T P (r ++ p) := by
  obtain ⟨os, rs, hl, hm⟩ := h
  exact ⟨os, rs, by rw [code_append, hr]; exact hl, hm⟩

theorem className?_word {e : Expr} {name : String} (he : ∀ n ∈ e.names, isIdentifier n = true)
    (h : e.className? = some name) : name.toList.all isWordChar = true := by
  unfold Expr.className? at h
  split at h
  · cases h
    exact isWordChar_of_isIdentifier (he _ (by simp [Expr.names]))
  · cases h

theorem classNamed?_word {e : Expr} {name : String} (he : ∀ n ∈ e.names, isIdentifier n = true)
    (h : ctx.classNamed? e = some name) : name.toList.all isWordChar = true :=
  className?_word he (Option.filter_eq_some_iff.mp h).1

namespace Pieces.MeetsIff

/-- `->name` behind an instance. -/
theorem arrow {name : String} (h : name.toList.all isWordChar = true) :
    MeetsIff helper isDone isDone False [.text "->", .text name] := by
  refine quiet ?_
  have hcode : code helper [.text "->", .text name] = "->".toList ++ name.toList := by simp [code]
  rw [hcode]
  exact (Traces.behind (by decide)).append (.trail h)

/-- `C::name` and `C::$name`. -/
theorem scope {className name mark : String} (hc : className.toList.all isWordChar = true)
    (h : name.toList.all isWordChar = true) (hm : mark = "::" ∨ mark = "::$") :
    MeetsIff helper isEdge isDone False [.text className, .text mark, .text name] := by
  refine quiet ?_
  have hmark : Traces isEdge isDone mark.toList [] [] := by
    rcases hm with rfl | rfl
    · exact .scope
    · have hdollar : Traces isDone isDone ['$'] [] [] := .trail (by decide)
      exact Traces.scope.append hdollar
  have hcode : code helper [.text className, .text mark, .text name] =
      className.toList ++ (mark.toList ++ name.toList) := by simp [code]
  rw [hcode]
  exact (Traces.word hc).append (hmark.append (.trail h))

/-- `->{...}` behind an instance. -/
theorem dynamic (h : MeetsIff helper isReady isDone P p) :
    MeetsIff helper isDone isDone P (.text "->\x7b" :: p ++ [Piece.text "\x7d"]) := by
  obtain ⟨rs, hl, hm⟩ := ((h.mono (fun _ h => h) fun _ => isEdge_of_isDone).edge).group
    (b := ('\x7b', '\x7d')) (by decide)
  refine ⟨[] ++ [], [] ++ rs, ?_, by simpa [meet] using hm⟩
  have hcode : code helper (.text "->\x7b" :: p ++ [Piece.text "\x7d"]) = "->".toList ++
      code helper (.text (String.ofList ['\x7b']) :: p ++
        [Piece.text (String.ofList ['\x7d'])]) := by
    simp [code]
  rw [hcode]
  exact (Traces.behind (by decide)).append (hl.mono (fun _ => isEdge_of_isDone) fun _ h => h)

end Pieces.MeetsIff

section Accesses

variable {receiver : Expr} {key : Key} {printed printedKey : Pieces} {R : Expr → Prop}

theorem memberAccess_shows (ctx : Context) (span : Span)
    (hr : ∀ n ∈ receiver.names, isIdentifier n = true)
    (hk : ∀ n ∈ key.names, isIdentifier n = true)
    (hprinted : MeetsIff helper isReady isDone (R receiver) printed)
    (hkey : ∀ e, key = .computed e → MeetsIff helper isReady isDone (R e) printedKey) :
    Shows helper isReady isDone (∃ e ∈ ctx.accessOperands receiver key, R e)
      (ctx.memberAccess span receiver key printed printedKey) := by
  have hobject := (hprinted.parensIf receiver.isOpenObject).shows
  refine .reported (ctx.code_repeated (ctx.code_memberReport ..)) ?_
  cases key with
  | name id =>
    have hid := isWordChar_of_isIdentifier (hk id.name (by simp [Key.names]))
    dsimp only
    cases hn : ctx.classNamed? receiver with
    | some className =>
      exact ((MeetsIff.scope (classNamed?_word hr hn) hid (.inr rfl)).operand.shows).congr
        (by simp [Context.accessOperands, hn])
    | none =>
      dsimp only
      have hiff : R receiver ∨ False ↔ ∃ e ∈ ctx.accessOperands receiver (.name id), R e := by
        simp [Context.accessOperands, hn]
      split
      · exact (hobject.append (MeetsIff.arrow hid).shows).congr hiff
      · have hname : MeetsIff helper isReady isEdge False [quoted id.name] :=
          (MeetsIff.quoted _).mono (fun _ => isEdge_of_isReady) fun _ => isEdge_of_isDone
        exact (hobject.append (hname.brackets.meetsIff.mono (fun _ => isEdge_of_isDone)
          fun _ h => h).shows).congr hiff
  | hidden name =>
    have hname := isWordChar_of_isIdentifier (hk name (by simp [Key.names]))
    exact (hobject.append (MeetsIff.arrow hname).shows).congr (by simp [Context.accessOperands])
  | computed e =>
    have he := hkey e rfl
    have hiff : R receiver ∨ R e ↔ ∃ f ∈ ctx.accessOperands receiver (.computed e), R f := by
      simp [Context.accessOperands]
    dsimp only
    split
    · exact (hobject.append he.dynamic.shows).congr hiff
    · have hbrackets := (he.mono (fun _ h => h) fun _ => isEdge_of_isDone).brackets.meetsIff
      exact (hobject.append (hbrackets.mono (fun _ => isEdge_of_isDone) fun _ h => h).shows).congr hiff

theorem methodAccess_shows (ctx : Context) (span : Span)
    (hr : ∀ n ∈ receiver.names, isIdentifier n = true)
    (hk : ∀ n ∈ key.names, isIdentifier n = true)
    (hprinted : MeetsIff helper isReady isDone (R receiver) printed)
    (hkey : ∀ e, key = .computed e → MeetsIff helper isReady isDone (R e) printedKey) :
    Shows helper isReady isDone (∃ e ∈ ctx.accessOperands receiver key, R e)
      (ctx.methodAccess span receiver key printed printedKey) := by
  have haccess := memberAccess_shows ctx span hr hk hprinted hkey
  cases key with
  | hidden | computed => exact haccess
  | name id =>
    have hid := isWordChar_of_isIdentifier (hk id.name (by simp [Key.names]))
    unfold Context.methodAccess
    dsimp only
    cases hn : ctx.classNamed? receiver with
    | some className =>
      exact ((MeetsIff.scope (classNamed?_word hr hn) hid (.inl rfl)).operand.shows).congr
        (by simp [Context.accessOperands, hn])
    | none =>
      dsimp only
      split
      · exact ((hprinted.parensIf receiver.isOpenObject).shows.append
          (MeetsIff.arrow hid).shows).congr (by simp [Context.accessOperands, hn])
      · exact haccess

end Accesses

/-! ### Calls -/

section Calls

variable {args : List Arg} {R : Expr → Prop}

/-- What is printed for an argument settles what is asked of its expression. -/
def Arg.Meets (ctx : Context) (helper : String) (R : Expr → Prop) (a : Arg) : Prop :=
  MeetsIff helper isReady isDone (∃ e, a.expr? = some e ∧ R e) (emitArg ctx a).pieces ∧
    MeetsIff helper isReady isDone (∃ e, a.expr? = some e ∧ R e) (emitArg ctx a).value

theorem args_meet (h : ∀ a ∈ args, a.Meets ctx helper R) :
    MeetsIff helper isReady isEdge (∃ e ∈ Arg.operands args, R e)
      (Pieces.list (PrintedArg.all (emitArgs ctx args))) := by
  rw [PrintedArg.all_emitArgs]
  refine (MeetsIff.list fun a ha => (h a ha).1).congr ?_
  simp only [Arg.operands, List.mem_filterMap]
  constructor
  · rintro ⟨a, ha, e, he, hr⟩
    exact ⟨e, ⟨a, ha, he⟩, hr⟩
  · rintro ⟨e, ⟨a, ha, he⟩, hr⟩
    exact ⟨a, ha, e, he, hr⟩

theorem call_meets (h : ∀ a ∈ args, a.Meets ctx helper R) :
    Encloses helper isEdge isDone (∃ e ∈ Arg.operands args, R e)
      (PrintedArg.call (emitArgs ctx args)) :=
  (args_meet h).call

theorem first_meets (h : ∀ a ∈ args, a.Meets ctx helper R) :
    MeetsIff helper isReady isDone (∃ e ∈ Arg.operands (args.take 1), R e)
      (PrintedArg.first (emitArgs ctx args)) := by
  cases args with
  | nil => exact MeetsIff.null.operand.congr (by simp [Arg.operands])
  | cons a args =>
    refine (h a (by simp)).2.congr ?_
    cases ha : a.expr? <;> simp [Arg.operands, ha]

theorem helperCall_meets (hh : helper.toList.all isWordChar = true) {h : NamedHelper}
    (hn : h.name ∈ helperNames) (hr : h.takesReceiver = false) (printed : Pieces)
    (ha : ∀ a ∈ args, a.Meets ctx helper R) :
    MeetsIff helper isReady isDone
      (∃ e ∈ Arg.operands (match h.maxArgs with
        | some n => args.take n
        | none => args), R e)
      (h.apply printed (PrintedArg.all (emitArgs ctx args))) := by
  have hword : ∀ n ∈ helperNames, n.toList.all isWordChar = true := by decide
  have htaken : h.arguments printed (PrintedArg.all (emitArgs ctx args)) =
      PrintedArg.all (emitArgs ctx (match h.maxArgs with
        | some n => args.take n
        | none => args)) := by
    unfold NamedHelper.arguments
    cases h.maxArgs <;> simp [hr, PrintedArg.all_emitArgs, List.map_take]
  have hargs : ∀ a ∈ (match h.maxArgs with
      | some n => args.take n
      | none => args), a.Meets ctx helper R := by
    intro a hm
    refine ha a ?_
    split at hm
    · exact List.mem_of_mem_take hm
    · exact hm
  have hprefix : Traces isEdge isEdge (code helper [.helperPrefix]) [] [] := by
    simpa [code] using Traces.word hh
  rw [NamedHelper.apply_eq, htaken]
  exact (Encloses.behind hprefix (.function (hword _ hn) (args_meet hargs).call)).meetsIff.operand

theorem replacement_meets (hh : helper.toList.all isWordChar = true) {hint : Hint} {receiver : Expr}
    {key : Key} {form : ObjectCall} (hf : ctx.objectCall? hint receiver key = some form)
    {printed : Pieces} (hprinted : MeetsIff helper isReady isDone (R receiver) printed)
    (ha : ∀ a ∈ args, a.Meets ctx helper R) :
    MeetsIff helper isReady isDone (∃ e ∈ Context.replacementOperands form receiver args, R e)
      (ctx.replacement form receiver printed (emitArgs ctx args)) := by
  match form with
  | .static (.helper h) =>
    obtain ⟨_, hr⟩ := objectCall_static hf
    refine (helperCall_meets hh (staticRule_name hr) (staticRule?_takesReceiver hr) printed ha).congr ?_
    cases hm : h.maxArgs <;> simp [Context.replacementOperands, ObjectCall.maxArgs?, hm]
  | .static .firstArgument =>
    refine (first_meets ha).congr ?_
    simp [Context.replacementOperands, ObjectCall.maxArgs?]
  | .existence =>
    refine ((MeetsIff.existenceCheck ctx receiver hprinted (first_meets ha)).meetsIff.operand).congr ?_
    simp [Context.replacementOperands, ObjectCall.maxArgs?]

end Calls

end TsToPhp
