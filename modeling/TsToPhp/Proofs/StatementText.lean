import TsToPhp.Proofs.StatementReader

/-! Symbols that are read as statements, whatever stands behind them. -/

namespace TsToPhp.Php.Symbols

/-- No word continues the statement before. -/
def Apart (rest : List Symbol) : Prop := word (skip rest) ∉ continuations

structure ReadsStmt (xs : List Symbol) (s : Stmt) : Prop where
  begins : ∀ rest, ends (skip (xs ++ rest)) = false ∧ Apart (xs ++ rest)
  reads : ∀ n rest, xs.length ≤ n → Apart rest →
    readStmt n (skip (xs ++ rest)) = some (s, skip rest)

inductive ReadsStmts : List Symbol → List Stmt → Prop
  | nil : ReadsStmts [] []
  | cons {xs ys : List Symbol} {s : Stmt} {ss : List Stmt} :
    ReadsStmt xs s → ReadsStmts ys ss → ReadsStmts (xs ++ ys) (s :: ss)

/-- A body in braces. What stands behind it does not matter. -/
structure ReadsBody (xs : List Symbol) (body : List Stmt) : Prop where
  reads : ∀ n rest, xs.length ≤ n → readStmt n (skip (xs ++ rest)) = some (.block body, skip rest)

/-- What stands behind the word `if`. -/
structure ReadsBranch (xs : List Symbol) (test : List Char) (yes : List Stmt) (no : Else) :
    Prop where
  reads : ∀ n rest, xs.length ≤ n → Apart rest →
    readBranch n (skip (xs ++ rest)) = some ((test, yes, no), skip rest)

structure ReadsElse (xs : List Symbol) (no : Else) : Prop where
  reads : ∀ n rest, xs.length < n → Apart rest →
    readElse n (skip (xs ++ rest)) = some (no, skip rest)

structure ReadsHandlers (xs : List Symbol) (handlers : List Handler) : Prop where
  reads : ∀ n rest, xs.length < n → word (skip rest) ≠ "catch" →
    readHandlers n (skip (xs ++ rest)) = some (handlers, skip rest)

structure ReadsFinalizer (xs : List Symbol) (finalizer : Option (List Stmt)) : Prop where
  begins : ∀ rest, Apart rest → word (skip (xs ++ rest)) ≠ "catch"
  reads : ∀ n rest, xs.length < n → Apart rest →
    readFinalizer n (skip (xs ++ rest)) = some (finalizer, skip rest)

/-- Cases up to the brace that closes their `switch`. -/
structure ReadsCases (xs : List Symbol) (cases : List Case) : Prop where
  begins : ∀ close rest, skip close = .char '\x7d' :: rest → ends (skip (xs ++ close)) = true
  reads : ∀ n close rest, xs.length < n → skip close = .char '\x7d' :: rest →
    readCases n (skip (xs ++ close)) = some (cases, skip rest)

@[simp] theorem length_spelled (cs : List Char) : (spelled cs).length = cs.length :=
  List.length_map _

theorem word_mark {c : Char} (hc : isIdentifierChar c = false) (xs : List Symbol) :
    word (.char c :: xs) = "" := by
  simp [word, Symbol.isLetter, hc, written]

theorem apart_of_ends {rest : List Symbol} (h : ends (skip rest) = true) : Apart rest := by
  have hlabels : ∀ l ∈ labels, l ∉ continuations := by decide
  unfold Apart
  cases hs : skip rest with
  | nil => decide
  | cons x xs =>
    rw [hs, ends, Bool.or_eq_true, beq_iff_eq, List.contains_iff_mem] at h
    rcases h with rfl | h
    · rw [word_mark (by decide)]
      decide
    · exact hlabels _ h

theorem ReadsStmt.ne_nil {xs : List Symbol} {s : Stmt} (h : ReadsStmt xs s) : xs ≠ [] := by
  rintro rfl
  exact absurd (h.begins []).1 (by decide)

theorem skip_blanks_append {bs : List Char} (hb : bs.all isBlank = true) (xs rest : List Symbol) :
    skip (spelled bs ++ xs ++ rest) = skip (xs ++ rest) := by
  rw [List.append_assoc, skip_blanks hb]

/-- Blanks in front of a statement do not matter. -/
theorem ReadsStmt.blanks {xs : List Symbol} {s : Stmt} (h : ReadsStmt xs s) {bs : List Char}
    (hb : bs.all isBlank = true) : ReadsStmt (spelled bs ++ xs) s := by
  refine ⟨fun rest => ?_, fun n rest hn hr => ?_⟩
  · have hbegins := h.begins rest
    unfold Apart at *
    rwa [skip_blanks_append hb]
  · rw [skip_blanks_append hb]
    refine h.reads n rest ?_ hr
    rw [List.length_append] at hn
    omega

namespace ReadsStmts

theorem single {xs : List Symbol} {s : Stmt} (h : ReadsStmt xs s) : ReadsStmts xs [s] := by
  simpa using cons h nil

theorem append {xs ys : List Symbol} {ss ts : List Stmt} (hs : ReadsStmts xs ss)
    (ht : ReadsStmts ys ts) : ReadsStmts (xs ++ ys) (ss ++ ts) := by
  induction hs with
  | nil => exact ht
  | cons h _ ih => simpa using cons h ih

theorem apart {xs : List Symbol} {ss : List Stmt} (h : ReadsStmts xs ss) {rest : List Symbol}
    (hr : Apart rest) : Apart (xs ++ rest) := by
  cases h with
  | nil => exact hr
  | cons h _ =>
    rw [List.append_assoc]
    exact (h.begins _).2

/-- A list of statements is read up to where it ends. -/
theorem reads {xs : List Symbol} {ss : List Stmt} (h : ReadsStmts xs ss) (n : Nat)
    (rest : List Symbol) (hn : xs.length < n) (hr : ends (skip rest) = true) :
    readStmts n (skip (xs ++ rest)) = some (ss, skip rest) := by
  induction h generalizing n with
  | nil =>
    obtain ⟨m, rfl⟩ := Nat.exists_eq_add_one.mpr (Nat.zero_lt_of_lt hn)
    simp [readStmts, hr]
  | @cons xs ys s ss h hss ih =>
    -- the statement takes at least one symbol, so the fuel left suffices for the others
    have hpos := List.length_pos_iff.mpr h.ne_nil
    have happ := hss.apart (apart_of_ends hr)
    rw [List.length_append] at hn
    obtain ⟨m, rfl⟩ : ∃ m, n = m + 1 := ⟨n - 1, by omega⟩
    rw [List.append_assoc, readStmts, (h.begins (ys ++ rest)).1,
      h.reads m (ys ++ rest) (by omega) happ]
    simp [ih m (by omega)]

/-- The statements between braces, whose closing brace may be indented. -/
theorem reads_braces {xs : List Symbol} {ss : List Stmt} (h : ReadsStmts xs ss) (level : Nat)
    (fresh : Bool) {n : Nat} (hn : xs.length + 2 ≤ n) (rest : List Symbol) :
    readStmt n (.char '\x7b' :: .char '\n' ::
        (xs ++ (spelled (indented level fresh ['\x7d']) ++ rest))) =
      some (.block ss, skip rest) := by
  have hclose : skip (spelled (indented level fresh ['\x7d']) ++ rest) = .char '\x7d' :: rest :=
    skip_indented ..
  obtain ⟨m, rfl⟩ : ∃ m, n = m + 1 := ⟨n - 1, by omega⟩
  have hbody := h.reads m (spelled (indented level fresh ['\x7d']) ++ rest) (by omega)
    (by rw [hclose]; rfl)
  rw [readStmt, skip_blank (by decide), hbody, hclose]
  rfl

theorem body {xs : List Symbol} {ss : List Stmt} (h : ReadsStmts xs ss) (level : Nat)
    (fresh : Bool) : ReadsBody
      (.char '\x7b' :: .char '\n' :: (xs ++ spelled (indented level fresh ['\x7d']))) ss := by
  refine ⟨fun n rest hn => ?_⟩
  simp only [List.length_cons, List.length_append] at hn
  rw [List.cons_append, List.cons_append, skip_char (by decide), List.append_assoc]
  exact h.reads_braces level fresh (by omega) rest

end ReadsStmts

theorem readStmt_of_head {xs : List Symbol} (h : xs.head? ≠ some (.char '\x7b')) (n : Nat) :
    readStmt (n + 1) xs = if word xs ∈ keywords then readKeyword n (word xs) (afterWord xs)
      else (takeText ';' xs).map fun p => (.expr p.1, p.2) := by
  rw [readStmt]
  intro ys he
  simp [he] at h

theorem ends_of_head {xs : List Symbol} (hn : xs ≠ []) (h : xs.head? ≠ some (.char '\x7d')) :
    ends xs = labels.contains (word xs) := by
  cases xs with
  | nil => exact absurd rfl hn
  | cons x xs =>
    have hx : x ≠ .char '\x7d' := by simpa using h
    simp [ends, hx]

theorem keywords_cons : ∀ w ∈ keywords, ∃ a as, w.toList = a :: as ∧
    as.all isIdentifierChar = true ∧ isIdentifierChar a = true ∧
    w.toList.map Char.toLower = w.toList := by
  intro w hw
  have hall : ∀ w ∈ keywords, w.toList.all isIdentifierChar = true ∧ w.toList ≠ [] ∧
      w.toList.map Char.toLower = w.toList := by decide
  obtain ⟨hi, hne, hlower⟩ := hall w hw
  cases hl : w.toList with
  | nil => exact absurd hl hne
  | cons a as =>
    rw [hl] at hi hlower
    rw [List.all_cons, Bool.and_eq_true] at hi
    exact ⟨a, as, rfl, hi.2, hi.1, hlower⟩

/-- A keyword up to a character of no word. -/
theorem skip_word {w : String} (hw : w ∈ keywords) {c : Char} (hc : isIdentifierChar c = false)
    (xs : List Symbol) :
    skip (spelled w.toList ++ .char c :: xs) = spelled w.toList ++ .char c :: xs ∧
      word (spelled w.toList ++ .char c :: xs) = w ∧
      afterWord (spelled w.toList ++ .char c :: xs) = skip (.char c :: xs) := by
  obtain ⟨a, as, hl, has, ha, hlower⟩ := keywords_cons w hw
  have hall : ∀ x ∈ spelled w.toList, x.isLetter = true := by
    intro x hx
    obtain ⟨b, hb, rfl⟩ := List.mem_map.mp hx
    rw [hl] at hb
    rcases List.mem_cons.mp hb with rfl | hb
    · exact ha
    · exact List.all_eq_true.mp has b hb
  have hend : Symbol.isLetter (.char c) = false := hc
  refine ⟨?_, ?_, ?_⟩
  · rw [hl]
    refine skip_char (Bool.eq_false_iff.mpr fun hb => ?_) _
    simp only [isBlank, Bool.or_eq_true, beq_iff_eq] at hb
    rcases hb with rfl | rfl <;> cases ha
  · rw [word, List.takeWhile_append_of_pos hall, List.takeWhile_cons_of_neg (by simp [hend]),
      List.append_nil, written_spelled, hlower, String.ofList_toList]
  · rw [afterWord, List.dropWhile_append_of_pos hall, List.dropWhile_cons_of_neg (by simp [hend])]

theorem head_word {w : String} (hw : w ∈ keywords) {c : Char} (hc : isIdentifierChar c = false)
    (xs : List Symbol) : (spelled w.toList ++ xs).head? ≠ some (.char c) := by
  obtain ⟨a, as, hl, -, ha, -⟩ := keywords_cons w hw
  rw [hl, spelled_cons, List.cons_append, List.head?_cons]
  rintro he
  cases he
  exact Bool.noConfusion (ha.symm.trans hc)

theorem ends_word {w : String} (hw : w ∈ keywords) {c : Char} (hc : isIdentifierChar c = false)
    (xs : List Symbol) : ends (spelled w.toList ++ .char c :: xs) = labels.contains w := by
  rw [ends_of_head (by simp) (head_word hw (by decide) _), (skip_word hw hc xs).2.1]

theorem ends_label {w : String} (hw : w ∈ labels) {c : Char} (hc : isIdentifierChar c = false)
    (xs : List Symbol) : ends (skip (spelled w.toList ++ .char c :: xs)) = true := by
  have hkey : w ∈ keywords := List.mem_append_right _ hw
  rw [(skip_word hkey hc xs).1, ends_word hkey hc]
  simpa using hw

/-- A statement that is known by its first word. -/
theorem ReadsStmt.keyword {w : String} (hw : w ∈ openers) {c : Char} {xs : List Symbol} {s : Stmt}
    (hc : isIdentifierChar c = false)
    (h : ∀ n rest, xs.length < n → Apart rest →
      readKeyword (n + 1) w (skip (.char c :: (xs ++ rest))) = some (s, skip rest)) :
    ReadsStmt (spelled w.toList ++ .char c :: xs) s := by
  have hopeners : ∀ w ∈ openers, 2 ≤ w.toList.length ∧ labels.contains w = false ∧
      w ∉ continuations := by decide
  obtain ⟨hlen, hlabel, hcont⟩ := hopeners w hw
  have hkey : w ∈ keywords := List.mem_append_left _ (List.mem_append_left _ hw)
  have hword (rest : List Symbol) := skip_word hkey hc (xs ++ rest)
  refine ⟨fun rest => ?_, fun n rest hn hr => ?_⟩
  · unfold Apart
    rw [List.append_assoc, List.cons_append, (hword rest).1, (hword rest).2.1, ends_word hkey hc]
    exact ⟨hlabel, hcont⟩
  · simp only [List.length_append, List.length_cons, length_spelled] at hn
    obtain ⟨m, rfl⟩ : ∃ m, n = m + 2 := ⟨n - 2, by omega⟩
    rw [List.append_assoc, List.cons_append, (hword rest).1,
      readStmt_of_head (head_word hkey (by decide) _), (hword rest).2.1, (hword rest).2.2,
      if_pos hkey, h m rest (by omega) hr]

/-- A statement whose first word ends with a blank. -/
theorem ReadsStmt.opened {w v : String} (hw : w ∈ openers) (hv : v.toList = w.toList ++ [' '])
    {xs : List Symbol} {s : Stmt} (h : ∀ n rest, xs.length < n → Apart rest →
      readKeyword (n + 1) w (skip (xs ++ rest)) = some (s, skip rest)) :
    ReadsStmt (spelled v.toList ++ xs) s := by
  rw [hv, spelled_append, List.append_assoc]
  refine .keyword hw (by decide) fun n rest hn hr => ?_
  rw [skip_blank (by decide)]
  exact h n rest hn hr

@[simp] theorem skip_space (xs : List Symbol) : skip (.char ' ' :: xs) = skip xs :=
  skip_blank (by decide) xs

@[simp] theorem skip_newline (xs : List Symbol) : skip (.char '\n' :: xs) = skip xs :=
  skip_blank (by decide) xs

@[simp] theorem skip_open (xs : List Symbol) : skip (.char '(' :: xs) = .char '(' :: xs :=
  skip_char (by decide) xs

/-- Is there something other than a brace at the beginning? -/
def isUnbraced (xs : List Symbol) : Bool :=
  (skip xs).head?.all fun x => x != .char '\x7b' && x != .char '\x7d'

theorem isUnbraced_append {xs ys : List Symbol} (hx : isUnbraced xs = true)
    (hy : isUnbraced ys = true) : isUnbraced (xs ++ ys) = true := by
  induction xs with
  | nil => exact hy
  | cons x xs ih =>
    unfold isUnbraced at *
    cases x with
    | expr text => rfl
    | char c =>
      cases h : isBlank c with
      | true =>
        rw [skip_blank h] at hx
        rw [List.cons_append, skip_blank h]
        exact ih hx
      | false =>
        rw [skip_char h] at hx
        rw [List.cons_append, skip_char h]
        exact hx

theorem isUnbraced_calm {cs : List Char} (h : cs.all isCalm = true) :
    isUnbraced (spelled cs) = true := by
  rw [isUnbraced, Option.all_eq_true]
  intro x hx
  have hm : x ∈ spelled cs := (List.dropWhile_sublist _).subset (List.mem_of_mem_head? hx)
  obtain ⟨c, hc, rfl⟩ := List.mem_map.mp hm
  have hcalm := List.all_eq_true.mp h c hc
  simp only [Bool.and_eq_true, bne_iff_ne]
  constructor
  · rintro ⟨⟩
    cases hcalm
  · rintro ⟨⟩
    cases hcalm

theorem isUnbraced_cons {c : Char} (hc : isBlank c = false) (hb : c ≠ '\x7b' ∧ c ≠ '\x7d')
    (xs : List Symbol) : isUnbraced (.char c :: xs) = true := by
  simp [isUnbraced, skip_char hc, hb]

section

variable {e b : List Symbol} {body : List Stmt}

theorem ReadsStmt.expr (he : Passes ';' e) (hw : word (skip e) ∉ keywords)
    (hb : isUnbraced e = true) :
    ReadsStmt (e ++ [Symbol.char ';', .char '\n']) (.expr (written (skip e))) := by
  have hskip (rest : List Symbol) :
      skip (e ++ [Symbol.char ';', .char '\n'] ++ rest) = skip e ++ .char ';' :: .char '\n' :: rest := by
    rw [List.append_assoc]
    exact skip_append_char (by decide) e _
  have hword (rest : List Symbol) :
      word (skip e ++ .char ';' :: .char '\n' :: rest) = word (skip e) :=
    word_append_char (by decide) _ _
  have hhead (rest : List Symbol) :
      (skip e ++ .char ';' :: .char '\n' :: rest).head? ≠ some (.char '\x7b') ∧
        (skip e ++ .char ';' :: .char '\n' :: rest).head? ≠ some (.char '\x7d') := by
    cases hs : skip e with
    | nil => simp
    | cons x xs => simpa [isUnbraced, hs] using hb
  have hlabel : word (skip e) ∉ labels := fun h => hw (List.mem_append_right _ h)
  have hcont : word (skip e) ∉ continuations := fun h =>
    hw (List.mem_append_left _ (List.mem_append_right _ h))
  refine ⟨fun rest => ?_, fun n rest hn hr => ?_⟩
  · unfold Apart
    rw [hskip, ends_of_head (by simp) (hhead rest).2, hword]
    exact ⟨by simpa using hlabel, hcont⟩
  · simp only [List.length_append, List.length_cons, List.length_nil] at hn
    obtain ⟨m, rfl⟩ : ∃ m, n = m + 1 := ⟨n - 1, by omega⟩
    have ht := takeText_passes (by decide) he (.char '\n' :: rest) (by simp)
    rw [skip_append_char (by decide)] at ht
    rw [hskip, readStmt_of_head (hhead rest).1, hword, if_neg hw, ht, skip_newline]
    rfl

theorem ReadsBody.stmt (h : ReadsBody (.char '\x7b' :: b) body) :
    ReadsStmt (.char '\x7b' :: b ++ [Symbol.char '\n']) (.block body) := by
  refine ⟨fun rest => ⟨rfl, ?_⟩, fun n rest hn _ => ?_⟩
  · exact (by decide : "" ∉ continuations)
  · rw [List.length_append] at hn
    rw [List.append_assoc, h.reads n _ (by omega)]
    simp

theorem ReadsStmt.whileLoop (he : Passes ')' e) (hb : ReadsBody b body) :
    ReadsStmt (spelled "while ".toList ++
        .char '(' :: (e ++ .char ')' :: .char ' ' :: (b ++ [Symbol.char '\n'])))
      (.whileLoop (written (skip e)) body) := by
  refine .opened (w := "while") (by decide) rfl fun n rest hn hr => ?_
  simp only [List.length_append, List.length_cons, List.length_nil] at hn
  simp [parenthesis_passes he, hb.reads n _ (by omega : b.length ≤ n)]

theorem ReadsStmt.doWhileLoop (he : Passes ')' e) (hb : ReadsBody b body) :
    ReadsStmt
      (spelled "do ".toList ++ (b ++ .char ' ' ::
        (spelled "while".toList ++ .char ' ' :: .char '(' ::
          (e ++ [Symbol.char ')', .char ';', .char '\n']))))
      (.doWhileLoop body (written (skip e))) := by
  refine .opened (w := "do") (by decide) rfl fun n rest hn hr => ?_
  simp only [List.length_append, List.length_cons, List.length_nil] at hn
  obtain ⟨hs, hw, ha⟩ := skip_word (w := "while") (c := ' ') (by decide) (by decide)
    (.char '(' :: (e ++ .char ')' :: .char ';' :: .char '\n' :: rest))
  simp only [String.reduceToList, spelled_cons, spelled_nil, List.cons_append, List.nil_append, skip_space] at hs hw ha
  simp [hb.reads n _ (by omega : b.length ≤ n), hs, hw, ha, parenthesis_passes he,
    skip_char (c := ';') (by decide), semicolon]

theorem ReadsStmt.jump {w : String} {s : Stmt} (hw : w ∈ openers)
    (h : ∀ n xs, readKeyword (n + 1) w xs = (semicolon xs).map fun xs => (s, xs)) :
    ReadsStmt (spelled w.toList ++ [Symbol.char ';', .char '\n']) s := by
  refine .keyword hw (by decide) fun n rest hn hr => ?_
  rw [h, skip_char (by decide)]
  simp [semicolon]

/-- A statement of a word and a text, which are apart if there is a text. -/
theorem ReadsStmt.value {w : String} {s : List Char → Stmt} (hw : w ∈ openers)
    (h : ∀ n xs, readKeyword (n + 1) w xs = (takeText ';' xs).map fun p => (s p.1, p.2))
    (he : Passes ';' e) : ReadsStmt
      (spelled w.toList ++ .char ' ' :: (e ++ [Symbol.char ';', .char '\n']))
      (s (written (skip e))) := by
  refine .keyword hw (by decide) fun n rest hn hr => ?_
  have ht := takeText_passes (by decide) he (.char '\n' :: rest) (by simp)
  rw [h, skip_space]
  simp [ht]

theorem ReadsStmt.noValue {w : String} {s : List Char → Stmt} (hw : w ∈ openers)
    (h : ∀ n xs, readKeyword (n + 1) w xs = (takeText ';' xs).map fun p => (s p.1, p.2)) :
    ReadsStmt (spelled w.toList ++ [Symbol.char ';', .char '\n']) (s []) := by
  refine .keyword hw (by decide) fun n rest hn hr => ?_
  have ht : takeText ';' (skip (.char ';' :: .char '\n' :: rest)) =
      some ([], skip (.char '\n' :: rest)) :=
    takeText_passes (by decide) .nil _ (by simp)
  rw [h, List.singleton_append, ht, skip_newline]
  rfl

theorem ReadsStmt.forLoop {i u : List Symbol} (hi : Passes ';' i) (he : Passes ';' e)
    (hu : Passes ')' u) (hb : ReadsBody b body) :
    ReadsStmt (spelled "for ".toList ++ .char '(' ::
        (i ++ .char ';' :: .char ' ' :: (e ++ .char ';' :: .char ' ' ::
          (u ++ .char ')' :: .char ' ' :: (b ++ [Symbol.char '\n'])))))
      (.forLoop (written (skip i)) (written (skip e)) (written (skip u)) body) := by
  refine .opened (w := "for") (by decide) rfl fun n rest hn hr => ?_
  simp only [List.length_append, List.length_cons, List.length_nil] at hn
  have hu := takeText_passes (by decide) hu (.char ' ' :: (b ++ .char '\n' :: rest)) (by simp)
  have he := takeText_passes (by decide) he
    (.char ' ' :: (u ++ .char ')' :: .char ' ' :: (b ++ .char '\n' :: rest))) (by simp)
  have hi := takeText_passes (by decide) hi
    (.char ' ' :: (e ++ .char ';' :: .char ' ' ::
      (u ++ .char ')' :: .char ' ' :: (b ++ .char '\n' :: rest)))) (by simp)
  simp [hi, he, hu, hb.reads n _ (by omega : b.length ≤ n)]

theorem splitAs_append (e : List Symbol) {name : List Char} (hn : ' ' ∉ name) :
    splitAs (e ++ spelled " as ".toList ++ spelled name) = some (e, spelled name) := by
  have hall : ∀ x ∈ (spelled name).reverse, (x != .char ' ') = true := by
    intro x hx
    rw [bne_iff_ne]
    rintro rfl
    obtain ⟨c, hc, he⟩ := List.mem_map.mp (List.mem_reverse.mp hx)
    cases he
    exact hn hc
  simp [splitAs, List.takeWhile_append_of_pos hall, List.dropWhile_append_of_pos hall]

theorem ReadsStmt.foreach {name : List Char} (he : Passes ')' e) (hn : ' ' ∉ name)
    (hc : name.all isCalm = true) (hb : ReadsBody b body) :
    ReadsStmt (spelled "foreach ".toList ++ .char '(' ::
        (e ++ (spelled " as ".toList ++
          (spelled name ++ .char ')' :: .char ' ' :: (b ++ [Symbol.char '\n'])))))
      (.foreach (written (skip e)) name body) := by
  refine .opened (w := "foreach") (by decide) rfl fun n rest hlen hr => ?_
  simp only [List.length_append, List.length_cons, List.length_nil] at hlen
  have hhead : Passes ')' (e ++ spelled " as ".toList ++ spelled name) :=
    (he.append (passes_calm (by decide) (by decide))).append (passes_calm (by decide) hc)
  have hup := hhead.upTo (.char ' ' :: (b ++ .char '\n' :: rest)) (by simp)
  have hsplit := splitAs_append e hn
  simp only [String.reduceToList, spelled_cons, spelled_nil, List.cons_append, List.nil_append, List.append_assoc] at hup hsplit
  simp [hup, hsplit, hb.reads n _ (by omega : b.length ≤ n)]

theorem ReadsStmt.switch {xs : List Symbol} {cases : List Case} (he : Passes ')' e)
    (hc : ReadsCases xs cases) (level : Nat) (fresh : Bool) :
    ReadsStmt (spelled "switch ".toList ++ .char '(' ::
        (e ++ .char ')' :: .char ' ' :: .char '\x7b' :: .char '\n' ::
          (xs ++ (spelled (TsToPhp.indented level fresh ['\x7d']) ++ [Symbol.char '\n']))))
      (.switch (written (skip e)) cases) := by
  refine .opened (w := "switch") (by decide) rfl fun n rest hlen hr => ?_
  simp only [List.length_append, List.length_cons, List.length_nil] at hlen
  have hclose : skip (spelled (TsToPhp.indented level fresh ['\x7d']) ++ .char '\n' :: rest) =
      .char '\x7d' :: .char '\n' :: rest := skip_indented ..
  have hread := hc.reads n _ _ (by omega) hclose
  simp [parenthesis_passes he, skip_char (c := '\x7b') (by decide), hread]

/-- A branch and the other branches behind it. -/
theorem ReadsBranch.cons {ys : List Symbol} {no : Else} (he : Passes ')' e) (hb : ReadsBody b body)
    (hd : ReadsElse ys no) :
    ReadsBranch (.char ' ' :: .char '(' :: (e ++ .char ')' :: .char ' ' :: (b ++ ys)))
      (written (skip e)) body no := by
  refine ⟨fun n rest hn hr => ?_⟩
  simp only [List.length_append, List.length_cons] at hn
  obtain ⟨m, rfl⟩ : ∃ m, n = m + 1 := ⟨n - 1, by omega⟩
  simp [parenthesis_passes he, hb.reads m _ (by omega), hd.reads m _ (by omega) hr]

theorem ReadsElse.nothing : ReadsElse [] .nothing := by
  refine ⟨fun n rest hn hr => ?_⟩
  obtain ⟨m, rfl⟩ := Nat.exists_eq_add_one.mpr (Nat.zero_lt_of_lt hn)
  have hw {w : String} (hm : w ∈ continuations) : word (skip rest) ≠ w := fun he => hr (he ▸ hm)
  simp [hw (w := "else") (by decide), hw (w := "elseif") (by decide)]

theorem ReadsElse.otherwise (hb : ReadsBody b body) :
    ReadsElse (.char ' ' :: (spelled "else".toList ++ .char ' ' :: b)) (.otherwise body) := by
  refine ⟨fun n rest hn hr => ?_⟩
  simp only [List.length_append, List.length_cons, length_spelled] at hn
  obtain ⟨m, rfl⟩ : ∃ m, n = m + 1 := ⟨n - 1, by omega⟩
  obtain ⟨hs, hw, ha⟩ := skip_word (w := "else") (c := ' ') (by decide) (by decide) (b ++ rest)
  simp only [String.reduceToList, spelled_cons, spelled_nil, List.cons_append, List.nil_append, skip_space] at hs hw ha
  simp [hs, hw, ha, hb.reads m _ (by omega)]

theorem ReadsBranch.elseIf {xs : List Symbol} {test : List Char} {yes : List Stmt} {no : Else}
    (h : ReadsBranch (.char ' ' :: xs) test yes no) :
    ReadsElse (.char ' ' :: (spelled "elseif".toList ++ .char ' ' :: xs)) (.elseIf test yes no) := by
  refine ⟨fun n rest hn hr => ?_⟩
  simp only [List.length_append, List.length_cons, length_spelled] at hn
  obtain ⟨m, rfl⟩ : ∃ m, n = m + 1 := ⟨n - 1, by omega⟩
  obtain ⟨hs, hw, ha⟩ := skip_word (w := "elseif") (c := ' ') (by decide) (by decide) (xs ++ rest)
  have hb := h.reads m rest (by simp; omega) hr
  simp only [String.reduceToList, spelled_cons, spelled_nil, List.cons_append, List.nil_append, skip_space] at hs hw ha hb
  simp [hs, hw, ha, hb]

theorem ReadsBranch.stmt {xs : List Symbol} {test : List Char} {yes : List Stmt} {no : Else}
    (h : ReadsBranch (.char ' ' :: xs) test yes no) :
    ReadsStmt (spelled "if ".toList ++ (xs ++ [Symbol.char '\n'])) (.ifElse test yes no) := by
  refine .opened (w := "if") (by decide) rfl fun n rest hn hr => ?_
  simp only [List.length_append, List.length_cons, List.length_nil] at hn
  have hapart : Apart (.char '\n' :: rest) := by
    unfold Apart
    rwa [skip_newline]
  have hb := h.reads n (.char '\n' :: rest) (by simp; omega) hapart
  simp only [List.cons_append, skip_space] at hb
  simp [hb]

theorem ReadsHandlers.nil : ReadsHandlers [] [] := by
  refine ⟨fun n rest hn hr => ?_⟩
  obtain ⟨m, rfl⟩ := Nat.exists_eq_add_one.mpr (Nat.zero_lt_of_lt hn)
  simp [hr]

theorem ReadsHandlers.cons {xs : List Symbol} {handlers : List Handler} (he : Passes ')' e)
    (hb : ReadsBody b body) (hs : ReadsHandlers xs handlers) :
    ReadsHandlers (.char ' ' :: (spelled "catch".toList ++ .char ' ' :: .char '(' ::
        (e ++ .char ')' :: .char ' ' :: (b ++ xs))))
      (.mk (written (skip e)) body :: handlers) := by
  refine ⟨fun n rest hn hr => ?_⟩
  simp only [List.length_append, List.length_cons, length_spelled] at hn
  obtain ⟨m, rfl⟩ : ∃ m, n = m + 1 := ⟨n - 1, by omega⟩
  obtain ⟨hw, hword, ha⟩ := skip_word (w := "catch") (c := ' ') (by decide) (by decide)
    (.char '(' :: (e ++ .char ')' :: .char ' ' :: (b ++ (xs ++ rest))))
  simp only [String.reduceToList, spelled_cons, spelled_nil, List.cons_append, List.nil_append, skip_space] at hw hword ha
  simp [hw, hword, ha, parenthesis_passes he, hb.reads m _ (by omega),
    hs.reads m rest (by omega) hr]

theorem ReadsFinalizer.none : ReadsFinalizer [] none := by
  have hc {rest : List Symbol} (hr : Apart rest) {w : String} (hm : w ∈ continuations) :
      word (skip rest) ≠ w := fun he => hr (he ▸ hm)
  refine ⟨fun rest hr => hc hr (by decide), fun n rest hn hr => ?_⟩
  obtain ⟨m, rfl⟩ := Nat.exists_eq_add_one.mpr (Nat.zero_lt_of_lt hn)
  simp [hc hr (w := "finally") (by decide)]

theorem ReadsFinalizer.some (hb : ReadsBody b body) :
    ReadsFinalizer (.char ' ' :: (spelled "finally".toList ++ .char ' ' :: b)) (some body) := by
  have hw (rest : List Symbol) :=
    skip_word (w := "finally") (c := ' ') (by decide) (by decide) (b ++ rest)
  refine ⟨fun rest hr => ?_, fun n rest hn hr => ?_⟩
  · obtain ⟨hs, hword, -⟩ := hw rest
    simp only [String.reduceToList, spelled_cons, spelled_nil, List.cons_append, List.nil_append] at hs hword
    simp [hs, hword]
  · simp only [List.length_append, List.length_cons, length_spelled] at hn
    obtain ⟨m, rfl⟩ : ∃ m, n = m + 1 := ⟨n - 1, by omega⟩
    obtain ⟨hs, hword, ha⟩ := hw rest
    simp only [String.reduceToList, spelled_cons, spelled_nil, List.cons_append, List.nil_append, skip_space] at hs hword ha
    simp [hs, hword, ha, hb.reads m _ (by omega)]

theorem ReadsStmt.tryCatch {hs fs : List Symbol} {handlers : List Handler}
    {finalizer : Option (List Stmt)} (hb : ReadsBody b body) (hh : ReadsHandlers hs handlers)
    (hf : ReadsFinalizer fs finalizer) :
    ReadsStmt (spelled "try ".toList ++ (b ++ (hs ++ (fs ++ [Symbol.char '\n']))))
      (.tryCatch body handlers finalizer) := by
  refine .opened (w := "try") (by decide) rfl fun n rest hn hr => ?_
  simp only [List.length_append, List.length_cons, List.length_nil] at hn
  have hapart : Apart (.char '\n' :: rest) := by
    unfold Apart
    rwa [skip_newline]
  simp [hb.reads n _ (by omega : b.length ≤ n),
    hh.reads n _ (by omega) (hf.begins _ hapart), hf.reads n _ (by omega) hapart]

theorem ReadsCases.nil : ReadsCases [] [] := by
  refine ⟨fun close rest hc => ?_, fun n close rest hn hc => ?_⟩
  · rw [List.nil_append, hc]
    rfl
  · obtain ⟨m, rfl⟩ := Nat.exists_eq_add_one.mpr (Nat.zero_lt_of_lt hn)
    rw [List.nil_append, hc]
    rfl

theorem ReadsCases.blanks {xs : List Symbol} {cases : List Case} (h : ReadsCases xs cases)
    {bs : List Char} (hb : bs.all isBlank = true) : ReadsCases (spelled bs ++ xs) cases := by
  refine ⟨fun close rest hc => ?_, fun n close rest hn hc => ?_⟩
  · rw [skip_blanks_append hb]
    exact h.begins close rest hc
  · rw [skip_blanks_append hb]
    refine h.reads n close rest ?_ hc
    rw [List.length_append] at hn
    omega

/-- Statements behind a label end where the next label or the closing brace stands. -/
theorem ReadsCases.label {bs xs : List Symbol} {cases : List Case} (he : Passes ':' e)
    (hb : ReadsStmts bs body) (hc : ReadsCases xs cases) :
    ReadsCases (spelled "case".toList ++ .char ' ' :: (e ++ .char ':' :: .char '\n' :: (bs ++ xs)))
      (.mk (some (written (skip e))) body :: cases) := by
  refine ⟨fun close rest hclose => ?_, fun n close rest hn hclose => ?_⟩
  · rw [List.append_assoc]
    exact ends_label (by decide) (by decide) _
  · simp only [List.length_append, List.length_cons, length_spelled] at hn
    obtain ⟨m, rfl⟩ : ∃ m, n = m + 1 := ⟨n - 1, by omega⟩
    obtain ⟨hs, hword, ha⟩ := skip_word (w := "case") (c := ' ') (by decide) (by decide)
      (e ++ .char ':' :: .char '\n' :: (bs ++ (xs ++ close)))
    have ht := takeText_passes (by decide) he (.char '\n' :: (bs ++ (xs ++ close))) (by simp)
    have hbody := hb.reads m (xs ++ close) (by omega) (hc.begins close rest hclose)
    simp only [String.reduceToList, spelled_cons, spelled_nil, List.cons_append, List.nil_append, skip_space] at hs hword ha
    simp [hs, hword, ha, ht, hbody, hc.reads m close rest (by omega) hclose]

theorem ReadsCases.default {bs xs : List Symbol} {cases : List Case} (hb : ReadsStmts bs body)
    (hc : ReadsCases xs cases) :
    ReadsCases (spelled "default".toList ++ .char ':' :: .char '\n' :: (bs ++ xs))
      (.mk none body :: cases) := by
  refine ⟨fun close rest hclose => ?_, fun n close rest hn hclose => ?_⟩
  · rw [List.append_assoc]
    exact ends_label (by decide) (by decide) _
  · simp only [List.length_append, List.length_cons, length_spelled] at hn
    obtain ⟨m, rfl⟩ : ∃ m, n = m + 1 := ⟨n - 1, by omega⟩
    obtain ⟨hs, hword, ha⟩ := skip_word (w := "default") (c := ':') (by decide) (by decide)
      (.char '\n' :: (bs ++ (xs ++ close)))
    have hbody := hb.reads m (xs ++ close) (by omega) (hc.begins close rest hclose)
    rw [skip_char (by decide)] at ha
    simp only [String.reduceToList, spelled_cons, spelled_nil, List.cons_append, List.nil_append] at hs hword ha
    simp [hs, hword, ha, hbody, hc.reads m close rest (by omega) hclose]

end

theorem ReadsStmts.read {xs : List Symbol} {ss : List Stmt} (h : ReadsStmts xs ss) :
    read xs = some ss := by
  have hr := h.reads (xs.length + 1) [] (by omega) rfl
  rw [List.append_nil] at hr
  rw [Symbols.read, hr]
  rfl

end TsToPhp.Php.Symbols
