import TsToPhp.Proofs.StatementText

/-! Texts of statements as a reader is given them: in characters alone, or with each expression as a
symbol of its own. -/

namespace TsToPhp.Php

mutual

/-- The expressions of a statement in the order of its text. -/
def Stmt.texts : Stmt → List (List Char)
  | .expr text | .returns text | .throws text => [text]
  | .block body => Stmt.listTexts body
  | .ifElse test yes no => test :: (Stmt.listTexts yes ++ no.texts)
  | .whileLoop test body => test :: Stmt.listTexts body
  | .doWhileLoop body test => Stmt.listTexts body ++ [test]
  | .forLoop init test update body => init :: test :: update :: Stmt.listTexts body
  | .foreach subject _ body => subject :: Stmt.listTexts body
  | .switch subject cases => subject :: Case.listTexts cases
  | .tryCatch body handlers finalizer =>
    Stmt.listTexts body ++ (Handler.listTexts handlers ++ Stmt.optionTexts finalizer)
  | .breaks | .continues => []

def Stmt.listTexts : List Stmt → List (List Char)
  | [] => []
  | s :: ss => s.texts ++ Stmt.listTexts ss

def Stmt.optionTexts : Option (List Stmt) → List (List Char)
  | none => []
  | some body => Stmt.listTexts body

def Else.texts : Else → List (List Char)
  | .nothing => []
  | .elseIf test yes no => test :: (Stmt.listTexts yes ++ no.texts)
  | .otherwise body => Stmt.listTexts body

def Case.listTexts : List Case → List (List Char)
  | [] => []
  | .mk label body :: cases => label.toList ++ (Stmt.listTexts body ++ Case.listTexts cases)

def Handler.listTexts : List Handler → List (List Char)
  | [] => []
  | .mk _ body :: handlers => Stmt.listTexts body ++ Handler.listTexts handlers

end

theorem Stmt.listTexts_append (ss ts : List Stmt) :
    listTexts (ss ++ ts) = listTexts ss ++ listTexts ts := by
  induction ss with
  | nil => rfl
  | cons s ss ih => rw [List.cons_append, listTexts, ih, listTexts, List.append_assoc]

def Symbol.expr? : Symbol → Option (List Char)
  | char _ => none
  | expr text => some text

/-- The expressions that are given as such. -/
def exprs (xs : List Symbol) : List (List Char) := xs.filterMap Symbol.expr?

theorem exprs_append (xs ys : List Symbol) : exprs (xs ++ ys) = exprs xs ++ exprs ys :=
  List.filterMap_append

theorem exprs_spelled (cs : List Char) : exprs (spelled cs) = [] := by
  induction cs with
  | nil => rfl
  | cons c cs ih => exact ih

/-- Where no expression is given as such, there are characters alone. -/
theorem eq_spelled {xs : List Symbol} (h : exprs xs = []) : xs = spelled (written xs) := by
  induction xs with
  | nil => rfl
  | cons x xs ih =>
    cases x with
    | char c => exact congrArg (.char c :: ·) (ih h)
    | expr text => cases h

/-- An expression as one symbol, behind the blanks in front of it. -/
def asOne (cs : List Char) : List Symbol :=
  spelled (cs.takeWhile isBlank) ++ if skip cs = [] then [] else [Symbol.expr (skip cs)]

theorem all_isBlank_takeWhile (cs : List Char) : (cs.takeWhile isBlank).all isBlank = true :=
  List.all_takeWhile

theorem written_asOne (cs : List Char) : written (asOne cs) = cs := by
  have hsplit : cs.takeWhile isBlank ++ skip cs = cs := List.takeWhile_append_dropWhile
  rw [asOne, written_append, written_spelled]
  split
  · next h => rw [h] at hsplit; exact hsplit
  · exact (congrArg _ (List.append_nil _)).trans hsplit

theorem skip_asOne (cs : List Char) :
    Symbols.skip (asOne cs) = if skip cs = [] then [] else [Symbol.expr (skip cs)] := by
  rw [asOne, Symbols.skip_blanks (all_isBlank_takeWhile cs)]
  split <;> rfl

theorem Passes.of_append {stop : Char} {xs ys : List Symbol} (hx : Passes stop xs)
    (h : Passes stop (xs ++ ys)) : Passes stop ys := by
  intro due rest
  have hboth := h due rest
  rw [List.append_assoc, hx due] at hboth
  have hinj : Function.Injective fun p : List Symbol × List Symbol => (xs ++ p.1, p.2) := by
    rintro ⟨as, bs⟩ ⟨as', bs'⟩ he
    simpa using he
  refine Option.map_injective hinj (hboth.trans ?_)
  rw [Option.map_map]
  simp only [Function.comp_def, List.append_assoc]

theorem Bound.skip {cs : List Char} (h : Bound cs) : Bound (skip cs) := by
  intro stop hs
  have hblanks := passes_calm hs (all_isCalm (by decide) (all_isBlank_takeWhile cs))
  refine hblanks.of_append ?_
  have hsplit : cs.takeWhile isBlank ++ Php.skip cs = cs := List.takeWhile_append_dropWhile
  rw [← spelled_append, hsplit]
  exact h stop hs

/-- How a reader is given the expressions. -/
structure Showing where
  give : List Char → List Symbol
  exprs : List Char → List (List Char)
  written_give : ∀ cs, written (give cs) = cs
  written_skip : ∀ cs, written (Symbols.skip (give cs)) = skip cs
  exprs_give : ∀ cs, Php.exprs (give cs) = exprs (skip cs)
  exprs_nil : exprs [] = []
  exprs_eq : ∀ cs, ∀ t ∈ exprs cs, t = cs
  passes_give : ∀ {cs}, Bound cs → ∀ stop ∈ stops, Passes stop (give cs)
  isUnbraced_give : ∀ {cs}, Symbols.isUnbraced (spelled cs) = true →
    Symbols.isUnbraced (give cs) = true
  word_give : ∀ {cs}, Symbols.word (spelled (skip cs)) ∉ keywords →
    Symbols.word (Symbols.skip (give cs)) ∉ keywords

namespace Showing

/-- Character by character. -/
def characters : Showing where
  give := spelled
  exprs _ := []
  written_give := written_spelled
  written_skip cs := by rw [Symbols.skip_spelled, written_spelled]
  exprs_give := exprs_spelled
  exprs_nil := rfl
  exprs_eq _ _ h := nomatch h
  passes_give h := h
  isUnbraced_give h := h
  word_give h := by rwa [Symbols.skip_spelled]

theorem word_skip_asOne (cs : List Char) : Symbols.word (Symbols.skip (asOne cs)) = "" := by
  rw [skip_asOne]
  split <;> rfl

/-- Each expression as a symbol. -/
def expressions : Showing where
  give := asOne
  exprs cs := if cs = [] then [] else [cs]
  written_give := written_asOne
  written_skip cs := by
    rw [skip_asOne]
    split
    · next h => rw [h]; rfl
    · exact List.append_nil _
  exprs_give cs := by
    rw [asOne, exprs_append, exprs_spelled]
    split <;> rfl
  exprs_nil := rfl
  exprs_eq cs t h := by
    split at h
    · cases h
    · exact List.mem_singleton.mp h
  passes_give {cs} _ stop hs := by
    refine (passes_calm hs (all_isCalm (by decide) (all_isBlank_takeWhile cs))).append ?_
    split
    · exact .nil
    · exact .expr _
  isUnbraced_give {cs} _ := by
    rw [Symbols.isUnbraced, skip_asOne]
    split <;> rfl
  word_give {cs} _ := by
    rw [word_skip_asOne]
    decide

end Showing

variable {sh : Showing}

/-- What a reader is given for a text with these expressions. -/
structure Shows (sh : Showing) (cs : List Char) (ts : List (List Char)) (xs : List Symbol) :
    Prop where
  text : written xs = cs
  exprs : exprs xs = ts.flatMap sh.exprs
  bound : ∀ t ∈ Php.exprs xs, Bound t

namespace Shows

variable {cs ds : List Char} {ts us : List (List Char)} {xs ys : List Symbol}

theorem spelled (cs : List Char) : Shows sh cs [] (spelled cs) := by
  refine ⟨written_spelled cs, exprs_spelled cs, fun t ht => ?_⟩
  rw [exprs_spelled] at ht
  cases ht

/-- Where there is no expression, its text is empty. -/
theorem nothing : Shows sh [] [[]] [] :=
  ⟨rfl, by rw [List.flatMap_cons, sh.exprs_nil]; rfl, fun _ h => nomatch h⟩

theorem give (h : Bound cs) : Shows sh cs [skip cs] (sh.give cs) := by
  refine ⟨sh.written_give cs, ?_, fun t ht => ?_⟩
  · rw [sh.exprs_give, List.flatMap_cons, List.flatMap_nil, List.append_nil]
  · rw [sh.exprs_give] at ht
    exact sh.exprs_eq _ t ht ▸ h.skip

theorem append (hx : Shows sh cs ts xs) (hy : Shows sh ds us ys) :
    Shows sh (cs ++ ds) (ts ++ us) (xs ++ ys) := by
  refine ⟨by rw [written_append, hx.text, hy.text],
    by rw [exprs_append, hx.exprs, hy.exprs, List.flatMap_append], fun t ht => ?_⟩
  rw [exprs_append, List.mem_append] at ht
  exact ht.elim (hx.bound t) (hy.bound t)

theorem char (c : Char) (h : Shows sh cs ts xs) : Shows sh (c :: cs) ts (.char c :: xs) :=
  (spelled [c]).append h

theorem before (h : Shows sh cs ts xs) (ds : List Char) :
    Shows sh (cs ++ ds) ts (xs ++ Php.spelled ds) := by
  have hboth := h.append (spelled ds)
  rwa [List.append_nil] at hboth

end Shows

/-- What a reader may be given for the text is read as the statement. -/
def ShowsStmt (sh : Showing) (cs : List Char) (s : Stmt) : Prop :=
  ∃ xs, Shows sh cs s.texts xs ∧ Symbols.ReadsStmt xs s

def ShowsStmts (sh : Showing) (cs : List Char) (ss : List Stmt) : Prop :=
  ∃ xs, Shows sh cs (Stmt.listTexts ss) xs ∧ Symbols.ReadsStmts xs ss

def ShowsBody (sh : Showing) (cs : List Char) (body : List Stmt) : Prop :=
  ∃ xs, Shows sh cs (Stmt.listTexts body) xs ∧ Symbols.ReadsBody xs body

/-- A branch behind a blank. -/
def ShowsBranch (sh : Showing) (cs test : List Char) (yes : List Stmt) (no : Else) : Prop :=
  ∃ xs, Shows sh cs (test :: (Stmt.listTexts yes ++ no.texts)) xs ∧
    Symbols.ReadsBranch (.char ' ' :: xs) test yes no

def ShowsElse (sh : Showing) (cs : List Char) (no : Else) : Prop :=
  ∃ xs, Shows sh cs no.texts xs ∧ Symbols.ReadsElse xs no

def ShowsHandlers (sh : Showing) (cs : List Char) (handlers : List Handler) : Prop :=
  ∃ xs, Shows sh cs (Handler.listTexts handlers) xs ∧ Symbols.ReadsHandlers xs handlers

def ShowsFinalizer (sh : Showing) (cs : List Char) (finalizer : Option (List Stmt)) : Prop :=
  ∃ xs, Shows sh cs (Stmt.optionTexts finalizer) xs ∧ Symbols.ReadsFinalizer xs finalizer

def ShowsCases (sh : Showing) (cs : List Char) (cases : List Case) : Prop :=
  ∃ xs, Shows sh cs (Case.listTexts cases) xs ∧ Symbols.ReadsCases xs cases

theorem exists_margin (level : Nat) (fresh : Bool) (cs : List Char) :
    ∃ bs, bs.all isBlank = true ∧ indented level fresh cs = bs ++ cs := by
  unfold indented
  split
  · exact ⟨_, all_isBlank_spaces level, rfl⟩
  · exact ⟨[], rfl, rfl⟩

/-- The indentation in front of a statement does not matter. -/
theorem ShowsStmt.indented {bs cs : List Char} {s : Stmt} (h : ShowsStmt sh bs s) (level : Nat)
    (fresh : Bool) (as : List Char) (he : bs = as ++ cs) :
    ShowsStmt sh (indented level fresh as ++ cs) s := by
  obtain ⟨xs, hshows, hreads⟩ := h
  obtain ⟨margin, hmargin, hsplit⟩ := exists_margin level fresh as
  rw [hsplit, List.append_assoc, ← he]
  exact ⟨_, (Shows.spelled margin).append hshows, hreads.blanks hmargin⟩

theorem ShowsCases.indented {bs cs : List Char} {cases : List Case} (h : ShowsCases sh bs cases)
    (level : Nat) (fresh : Bool) (as : List Char) (he : bs = as ++ cs) :
    ShowsCases sh (TsToPhp.indented level fresh as ++ cs) cases := by
  obtain ⟨xs, hshows, hreads⟩ := h
  obtain ⟨margin, hmargin, hsplit⟩ := exists_margin level fresh as
  rw [hsplit, List.append_assoc, ← he]
  exact ⟨_, (Shows.spelled margin).append hshows, hreads.blanks hmargin⟩

namespace ShowsStmts

variable {cs ds : List Char} {ss ts : List Stmt}

theorem nil : ShowsStmts sh [] [] :=
  ⟨[], .spelled [], .nil⟩

theorem single {s : Stmt} (h : ShowsStmt sh cs s) : ShowsStmts sh cs [s] := by
  obtain ⟨xs, hshows, hreads⟩ := h
  refine ⟨xs, ?_, .single hreads⟩
  rwa [Stmt.listTexts, Stmt.listTexts, List.append_nil]

theorem append (hs : ShowsStmts sh cs ss) (ht : ShowsStmts sh ds ts) :
    ShowsStmts sh (cs ++ ds) (ss ++ ts) := by
  obtain ⟨xs, hxs, hss⟩ := hs
  obtain ⟨ys, hys, hts⟩ := ht
  refine ⟨xs ++ ys, ?_, hss.append hts⟩
  rw [Stmt.listTexts_append]
  exact hxs.append hys

theorem body (h : ShowsStmts sh cs ss) (level : Nat) (fresh : Bool) :
    ShowsBody sh ('\x7b' :: '\n' :: (cs ++ indented level fresh ['\x7d'])) ss := by
  obtain ⟨xs, hshows, hreads⟩ := h
  exact ⟨_, .char _ (.char _ (hshows.before _)), hreads.body level fresh⟩

theorem block (h : ShowsStmts sh cs ss) (level : Nat) (fresh : Bool) :
    ShowsStmt sh ('\x7b' :: '\n' :: (cs ++ (indented level fresh ['\x7d'] ++ ['\n'])))
      (.block ss) := by
  obtain ⟨xs, hshows, hreads⟩ := h
  have hstmt := (hreads.body level fresh).stmt
  rw [List.cons_append, List.cons_append, List.append_assoc] at hstmt
  refine ⟨_, .char _ (.char _ ?_), hstmt⟩
  have hclose := hshows.before (indented level fresh ['\x7d'] ++ ['\n'])
  rwa [spelled_append] at hclose

end ShowsStmts

section

variable {e b : List Char} {body : List Stmt}

theorem ShowsStmt.expr (he : Bound e) (hw : Symbols.word (Symbols.skip (sh.give e)) ∉ keywords)
    (hb : Symbols.isUnbraced (spelled e) = true) :
    ShowsStmt sh (e ++ [';', '\n']) (.expr (skip e)) := by
  have h := Symbols.ReadsStmt.expr (sh.passes_give he ';' (by decide)) hw (sh.isUnbraced_give hb)
  rw [sh.written_skip] at h
  exact ⟨_, (Shows.give he).before _, h⟩

theorem ShowsStmt.whileLoop (he : Bound e) (hb : ShowsBody sh b body) :
    ShowsStmt sh ("while ".toList ++ '(' :: (e ++ ')' :: ' ' :: (b ++ ['\n'])))
      (.whileLoop (skip e) body) := by
  obtain ⟨xs, hshows, hreads⟩ := hb
  have h := Symbols.ReadsStmt.whileLoop (sh.passes_give he ')' (by decide)) hreads
  rw [sh.written_skip] at h
  exact ⟨_, (Shows.spelled _).append
    (.char _ ((Shows.give he).append (.char _ (.char _ (hshows.before _))))), h⟩

theorem ShowsStmt.doWhileLoop (he : Bound e) (hb : ShowsBody sh b body) :
    ShowsStmt sh
      ("do ".toList ++ (b ++ ' ' :: ("while".toList ++ ' ' :: '(' :: (e ++ [')', ';', '\n']))))
      (.doWhileLoop body (skip e)) := by
  obtain ⟨xs, hshows, hreads⟩ := hb
  have h := Symbols.ReadsStmt.doWhileLoop (sh.passes_give he ')' (by decide)) hreads
  rw [sh.written_skip] at h
  exact ⟨_, (Shows.spelled _).append (hshows.append
    (.char _ ((Shows.spelled _).append (.char _ (.char _ ((Shows.give he).before _)))))), h⟩

theorem ShowsStmt.jump {w : String} {s : Stmt} (hw : w ∈ openers) (hs : s.texts = [])
    (h : ∀ n xs, Symbols.readKeyword (n + 1) w xs = (Symbols.semicolon xs).map fun xs => (s, xs)) :
    ShowsStmt sh (w.toList ++ [';', '\n']) s := by
  refine ⟨_, ?_, .jump hw h⟩
  rw [hs]
  exact (Shows.spelled _).before _

/-- A statement of a word and a text, which are apart if there is a text. -/
theorem ShowsStmt.value {w : String} {s : List Char → Stmt} (hw : w ∈ openers)
    (hs : ∀ text, (s text).texts = [text])
    (h : ∀ n xs, Symbols.readKeyword (n + 1) w xs =
      (Symbols.takeText ';' xs).map fun p => (s p.1, p.2))
    (he : Bound e) : ShowsStmt sh (w.toList ++ ' ' :: (e ++ [';', '\n'])) (s (skip e)) := by
  have hreads := Symbols.ReadsStmt.value hw h (sh.passes_give he ';' (by decide))
  rw [sh.written_skip] at hreads
  refine ⟨_, ?_, hreads⟩
  rw [hs]
  exact (Shows.spelled _).append (.char _ ((Shows.give he).before _))

theorem ShowsStmt.noValue {w : String} {s : List Char → Stmt} (hw : w ∈ openers)
    (hs : ∀ text, (s text).texts = [text])
    (h : ∀ n xs, Symbols.readKeyword (n + 1) w xs =
      (Symbols.takeText ';' xs).map fun p => (s p.1, p.2)) :
    ShowsStmt sh (w.toList ++ [';', '\n']) (s []) := by
  refine ⟨_, ?_, .noValue hw h⟩
  rw [hs]
  exact (Shows.spelled w.toList).append (Shows.nothing.before _)

theorem ShowsStmt.forLoop {i u : List Char} (hi : Bound i) (he : Bound e) (hu : Bound u)
    (hb : ShowsBody sh b body) :
    ShowsStmt sh ("for ".toList ++ '(' ::
        (i ++ ';' :: ' ' :: (e ++ ';' :: ' ' :: (u ++ ')' :: ' ' :: (b ++ ['\n'])))))
      (.forLoop (skip i) (skip e) (skip u) body) := by
  obtain ⟨xs, hshows, hreads⟩ := hb
  have h := Symbols.ReadsStmt.forLoop (sh.passes_give hi ';' (by decide))
    (sh.passes_give he ';' (by decide)) (sh.passes_give hu ')' (by decide)) hreads
  rw [sh.written_skip, sh.written_skip, sh.written_skip] at h
  exact ⟨_, (Shows.spelled _).append (.char _ ((Shows.give hi).append (.char _ (.char _
    ((Shows.give he).append (.char _ (.char _ ((Shows.give hu).append
      (.char _ (.char _ (hshows.before _))))))))))), h⟩

theorem ShowsStmt.foreach {name : List Char} (he : Bound e) (hn : ' ' ∉ name)
    (hc : name.all isCalm = true) (hb : ShowsBody sh b body) :
    ShowsStmt sh ("foreach ".toList ++ '(' ::
        (e ++ (" as ".toList ++ (name ++ ')' :: ' ' :: (b ++ ['\n'])))))
      (.foreach (skip e) name body) := by
  obtain ⟨xs, hshows, hreads⟩ := hb
  have h := Symbols.ReadsStmt.foreach (sh.passes_give he ')' (by decide)) hn hc hreads
  rw [sh.written_skip] at h
  exact ⟨_, (Shows.spelled _).append (.char _ ((Shows.give he).append ((Shows.spelled _).append
    ((Shows.spelled _).append (.char _ (.char _ (hshows.before _))))))), h⟩

theorem ShowsStmt.switch {cs : List Char} {cases : List Case} (he : Bound e)
    (hc : ShowsCases sh cs cases) (level : Nat) (fresh : Bool) :
    ShowsStmt sh ("switch ".toList ++ '(' ::
        (e ++ ')' :: ' ' :: '\x7b' :: '\n' ::
          (cs ++ (TsToPhp.indented level fresh ['\x7d'] ++ ['\n']))))
      (.switch (skip e) cases) := by
  obtain ⟨xs, hshows, hreads⟩ := hc
  have h := Symbols.ReadsStmt.switch (sh.passes_give he ')' (by decide)) hreads level fresh
  rw [sh.written_skip] at h
  have hclose := hshows.before (TsToPhp.indented level fresh ['\x7d'] ++ ['\n'])
  rw [spelled_append] at hclose
  exact ⟨_, (Shows.spelled _).append (.char _ ((Shows.give he).append
    (.char _ (.char _ (.char _ (.char _ hclose)))))), h⟩

/-- A branch and the other branches behind it. -/
theorem ShowsBranch.cons {ds : List Char} {no : Else} (he : Bound e) (hb : ShowsBody sh b body)
    (hd : ShowsElse sh ds no) :
    ShowsBranch sh ('(' :: (e ++ ')' :: ' ' :: (b ++ ds))) (skip e) body no := by
  obtain ⟨xs, hxs, hbody⟩ := hb
  obtain ⟨ys, hys, helse⟩ := hd
  have h := Symbols.ReadsBranch.cons (sh.passes_give he ')' (by decide)) hbody helse
  rw [sh.written_skip] at h
  exact ⟨_, .char _ ((Shows.give he).append (.char _ (.char _ (hxs.append hys)))), h⟩

theorem ShowsElse.nothing : ShowsElse sh [] .nothing :=
  ⟨[], .spelled [], .nothing⟩

theorem ShowsElse.otherwise (hb : ShowsBody sh b body) :
    ShowsElse sh (' ' :: ("else".toList ++ ' ' :: b)) (.otherwise body) := by
  obtain ⟨xs, hshows, hreads⟩ := hb
  exact ⟨_, .char _ ((Shows.spelled _).append (.char _ hshows)), .otherwise hreads⟩

theorem ShowsBranch.elseIf {cs test : List Char} {yes : List Stmt} {no : Else}
    (h : ShowsBranch sh cs test yes no) :
    ShowsElse sh (' ' :: ("elseif".toList ++ ' ' :: cs)) (.elseIf test yes no) := by
  obtain ⟨xs, hshows, hreads⟩ := h
  exact ⟨_, .char _ ((Shows.spelled _).append (.char _ hshows)), hreads.elseIf⟩

theorem ShowsBranch.stmt {cs test : List Char} {yes : List Stmt} {no : Else}
    (h : ShowsBranch sh cs test yes no) :
    ShowsStmt sh ("if ".toList ++ (cs ++ ['\n'])) (.ifElse test yes no) := by
  obtain ⟨xs, hshows, hreads⟩ := h
  exact ⟨_, (Shows.spelled _).append (hshows.before _), hreads.stmt⟩

theorem ShowsHandlers.nil : ShowsHandlers sh [] [] :=
  ⟨[], .spelled [], .nil⟩

/-- What is caught is no expression. -/
theorem ShowsHandlers.cons {cs binding : List Char} {handlers : List Handler}
    (he : Bound binding) (hb : ShowsBody sh b body) (hs : ShowsHandlers sh cs handlers) :
    ShowsHandlers sh
      (' ' :: ("catch".toList ++ ' ' :: '(' :: (binding ++ ')' :: ' ' :: (b ++ cs))))
      (.mk (skip binding) body :: handlers) := by
  obtain ⟨xs, hxs, hbody⟩ := hb
  obtain ⟨ys, hys, hhandlers⟩ := hs
  have h := Symbols.ReadsHandlers.cons (he ')' (by decide)) hbody hhandlers
  rw [Symbols.skip_spelled, written_spelled] at h
  exact ⟨_, .char _ ((Shows.spelled _).append (.char _ (.char _ ((Shows.spelled _).append
    (.char _ (.char _ (hxs.append hys))))))), h⟩

theorem ShowsFinalizer.none : ShowsFinalizer sh [] none :=
  ⟨[], .spelled [], .none⟩

theorem ShowsFinalizer.some (hb : ShowsBody sh b body) :
    ShowsFinalizer sh (' ' :: ("finally".toList ++ ' ' :: b)) (some body) := by
  obtain ⟨xs, hshows, hreads⟩ := hb
  exact ⟨_, .char _ ((Shows.spelled _).append (.char _ hshows)), .some hreads⟩

theorem ShowsStmt.tryCatch {hs fs : List Char} {handlers : List Handler}
    {finalizer : Option (List Stmt)} (hb : ShowsBody sh b body) (hh : ShowsHandlers sh hs handlers)
    (hf : ShowsFinalizer sh fs finalizer) :
    ShowsStmt sh ("try ".toList ++ (b ++ (hs ++ (fs ++ ['\n']))))
      (.tryCatch body handlers finalizer) := by
  obtain ⟨xs, hxs, hbody⟩ := hb
  obtain ⟨ys, hys, hhandlers⟩ := hh
  obtain ⟨zs, hzs, hfinalizer⟩ := hf
  exact ⟨_, (Shows.spelled _).append (hxs.append (hys.append (hzs.before _))),
    .tryCatch hbody hhandlers hfinalizer⟩

theorem ShowsCases.nil : ShowsCases sh [] [] :=
  ⟨[], .spelled [], .nil⟩

theorem ShowsCases.label {bs cs : List Char} {cases : List Case} (he : Bound e)
    (hb : ShowsStmts sh bs body) (hc : ShowsCases sh cs cases) :
    ShowsCases sh ("case".toList ++ ' ' :: (e ++ ':' :: '\n' :: (bs ++ cs)))
      (.mk (some (skip e)) body :: cases) := by
  obtain ⟨xs, hxs, hbody⟩ := hb
  obtain ⟨ys, hys, hcases⟩ := hc
  have h := Symbols.ReadsCases.label (sh.passes_give he ':' (by decide)) hbody hcases
  rw [sh.written_skip] at h
  exact ⟨_, (Shows.spelled _).append (.char _ ((Shows.give he).append
    (.char _ (.char _ (hxs.append hys))))), h⟩

theorem ShowsCases.default {bs cs : List Char} {cases : List Case} (hb : ShowsStmts sh bs body)
    (hc : ShowsCases sh cs cases) :
    ShowsCases sh ("default".toList ++ ':' :: '\n' :: (bs ++ cs)) (.mk none body :: cases) := by
  obtain ⟨xs, hxs, hbody⟩ := hb
  obtain ⟨ys, hys, hcases⟩ := hc
  exact ⟨_, (Shows.spelled _).append (.char _ (.char _ (hxs.append hys))), .default hbody hcases⟩

end

/-- The text is read as a program in which each expression is the symbol at its place. -/
theorem ShowsStmts.expressions {cs : List Char} {ss : List Stmt}
    (h : ShowsStmts .expressions cs ss) : ∃ xs, written xs = cs ∧
      exprs xs = (Stmt.listTexts ss).filter (· ≠ []) ∧ (∀ t ∈ exprs xs, Bound t) ∧
      Symbols.read xs = some ss := by
  obtain ⟨xs, hshows, hreads⟩ := h
  refine ⟨xs, hshows.text, ?_, hshows.bound, hreads.read⟩
  rw [hshows.exprs]
  induction Stmt.listTexts ss with
  | nil => rfl
  | cons t ts ih =>
    rw [List.flatMap_cons, ih, List.filter_cons]
    by_cases ht : t = [] <;> simp [Showing.expressions, ht]

theorem ShowsStmts.readProgram {s : String} {ss : List Stmt}
    (h : ShowsStmts .characters s.toList ss) : readProgram s = some ss := by
  obtain ⟨xs, hshows, hreads⟩ := h
  have hnone : exprs xs = [] := by
    rw [hshows.exprs]
    exact List.flatMap_eq_nil_iff.mpr fun _ _ => rfl
  rw [eq_spelled hnone, hshows.text] at hreads
  exact hreads.read

end TsToPhp.Php
