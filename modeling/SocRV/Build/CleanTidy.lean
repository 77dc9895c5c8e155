import Mathlib.Algebra.Group.Nat.Defs
import SocRV.Build.CleanScan

/-!
# Trailing blanks and blank lines

Trailing blanks and a third line feed in a row mean nothing to the lexer, except in a comment, which changes by just
these.  The comment is kept all the same.
-/

namespace SocRV

namespace CleanRtl

open SvLexer

/-! ## Texts up to trailing blanks and blank lines -/

/-- A character in front of a text without trailing blanks and runs of blank lines. -/
def tidyCons (c : Char) (t : Text) : Text :=
  if isBlank c && (t.isEmpty || ['\n'].isPrefixOf t) then t
  else if c = '\n' ∧ ['\n', '\n'].isPrefixOf t then t
  else c :: t

/-- A text without its trailing blanks, and with one blank line for each run of them. -/
def tidy (t : Text) : Text := t.foldr tidyCons []

theorem tidy_cons (c : Char) (t : Text) : tidy (c :: t) = tidyCons c (tidy t) := rfl

theorem tidy_append (s t : Text) : tidy (s ++ t) = s.foldr tidyCons (tidy t) := List.foldr_append ..

/-- What a character may be dropped in front of: the end of a text, or a line feed. -/
theorem tidyCons_cases (c : Char) (t : Text) :
    tidyCons c t = c :: t ∨ tidyCons c t = t ∧ (isBlank c = true ∨ c = '\n') ∧ LineEnd t := by
  unfold tidyCons
  by_cases h : (isBlank c && (t.isEmpty || ['\n'].isPrefixOf t)) = true
  · rw [if_pos h]
    rw [Bool.and_eq_true, Bool.or_eq_true, List.isEmpty_iff, List.isPrefixOf_iff_prefix] at h
    refine .inr ⟨rfl, .inl h.1, ?_⟩
    rcases h.2 with rfl | ⟨v, rfl⟩
    · intro b hb
      cases hb
    · intro b hb
      exact (Option.some.inj hb).symm
  · rw [if_neg h]
    by_cases h' : c = '\n' ∧ ['\n', '\n'].isPrefixOf t
    · rw [if_pos h']
      obtain ⟨v, rfl⟩ := List.isPrefixOf_iff_prefix.mp h'.2
      refine .inr ⟨rfl, .inr h'.1, ?_⟩
      intro b hb
      exact (Option.some.inj hb).symm
    · exact .inl (if_neg h')

/-- Two texts that are the same up to trailing blanks and runs of blank lines, whatever follows. -/
def AlikeText (s s' : Text) : Prop := ∀ u, tidy (s ++ u) = tidy (s' ++ u)

/-- Texts that are alike stay so with a text behind them. -/
theorem AlikeText.append {s s' : Text} (h : AlikeText s s') (t : Text) : AlikeText (s ++ t) (s' ++ t) := by
  intro u
  rw [List.append_assoc, List.append_assoc, h]

/-- Texts that are alike are tidied to the same text. -/
theorem AlikeText.tidy_eq {s s' : Text} (h : AlikeText s s') : tidy s = tidy s' := by
  have := h []
  rwa [List.append_nil, List.append_nil] at this

/-- A line feed is dropped in front of two others and kept elsewhere. -/
theorem tidyCons_newline (t : Text) :
    tidyCons '\n' t = if ['\n', '\n'].isPrefixOf t then t else '\n' :: t := by
  have hblank : isBlank '\n' = false := by decide
  rw [tidyCons, hblank, Bool.false_and, if_neg Bool.false_ne_true]
  by_cases h : ['\n', '\n'].isPrefixOf t = true
  · rw [if_pos h, if_pos ⟨rfl, h⟩]
  · rw [if_neg h, if_neg fun h' => h h'.2]

/-- With a line feed in front a text starts with one, and with two of them with two. -/
theorem exists_tidyCons_newline (t : Text) : ∃ v, tidyCons '\n' t = '\n' :: v := by
  rw [tidyCons_newline]
  split
  · rename_i h
    obtain ⟨v, rfl⟩ := List.isPrefixOf_iff_prefix.mp h
    exact ⟨'\n' :: v, rfl⟩
  · exact ⟨t, rfl⟩

/-- Two line feeds in front of a tidy text leave two, whatever stood there. -/
theorem exists_tidyCons_newlines (t : Text) : ∃ v, tidyCons '\n' (tidyCons '\n' t) = '\n' :: '\n' :: v := by
  obtain ⟨w, hw⟩ := exists_tidyCons_newline t
  rw [hw, tidyCons_newline]
  split
  · rename_i h
    obtain ⟨v, hv⟩ := List.isPrefixOf_iff_prefix.mp h
    exact ⟨v, hv.symm⟩
  · exact ⟨w, rfl⟩

/-- A blank in front of a line feed. -/
theorem alike_blank {b : Char} (hb : isBlank b = true) (s : Text) : AlikeText (s ++ [b] ++ ['\n']) (s ++ ['\n']) := by
  intro u
  obtain ⟨v, hv⟩ := exists_tidyCons_newline (tidy u)
  have hdrop : tidyCons b (tidyCons '\n' (tidy u)) = tidyCons '\n' (tidy u) := by
    rw [hv, tidyCons, hb]
    rfl
  rw [List.append_assoc, List.append_assoc, List.append_assoc, tidy_append, tidy_append s]
  exact congrArg (List.foldr tidyCons · s) hdrop

/-- A blank at the end of a text. -/
theorem tidy_blank {b : Char} (hb : isBlank b = true) (s : Text) : tidy (s ++ [b]) = tidy s := by
  have hdrop : tidy [b] = [] := by
    rw [tidy_cons, tidyCons, hb]
    rfl
  rw [tidy_append, hdrop]
  rfl

/-- A third line feed in a row. -/
theorem alike_newlines (s : Text) : AlikeText (s ++ ['\n'] ++ ['\n'] ++ ['\n']) (s ++ ['\n'] ++ ['\n']) := by
  intro u
  have hdrop : tidyCons '\n' (tidyCons '\n' (tidyCons '\n' (tidy u))) = tidyCons '\n' (tidyCons '\n' (tidy u)) := by
    obtain ⟨v, hv⟩ := exists_tidyCons_newlines (tidy u)
    rw [hv, tidyCons_newline]
    rfl
  simp only [List.append_assoc]
  rw [tidy_append, tidy_append s]
  exact congrArg (List.foldr tidyCons · s) hdrop

/-! ## Comments that are kept -/

/-- A marker has no line feed and no trailing blank. -/
def Inked (m : Text) : Prop := '\n' ∉ m ∧ ∀ b ∈ m.getLast?, isBlank b = false

/-- The rest of a marker has no line feed and no trailing blank either. -/
theorem Inked.tail {a : Char} {m : Text} (h : Inked (a :: m)) : Inked m := by
  refine ⟨fun hm => h.1 (List.mem_cons_of_mem _ hm), fun b hb => h.2 b ?_⟩
  cases m with
  | nil => cases hb
  | cons c m => rwa [List.getLast?_cons_cons]

/-- A line feed or the end of the text is in front of a marker nowhere. -/
theorem not_prefix_of_lineEnd {m t : Text} (hm : Inked m) (hne : m ≠ []) (ht : LineEnd t) : ¬ m <+: t.map Char.toLower := by
  obtain ⟨a, m, rfl⟩ := List.exists_cons_of_ne_nil hne
  intro hpre
  cases t with
  | nil => exact absurd (List.prefix_nil.mp hpre) (by simp)
  | cons c t =>
    obtain rfl := ht c rfl
    rw [List.map_cons, List.cons_prefix_cons] at hpre
    exact hm.1 (by rw [hpre.1]; exact List.mem_cons_self ..)

/-- A blank is one in lower case. -/
theorem isBlank_toLower {c : Char} (h : isBlank c = true) : isBlank c.toLower = true := by
  unfold isBlank at h
  rw [Bool.or_eq_true, decide_eq_true_eq, decide_eq_true_eq] at h
  rcases h with rfl | rfl <;> decide

/-- Trailing blanks and blank lines do not hide a marker at the start of a text. -/
theorem prefix_tidy_iff {m : Text} (hm : Inked m) (t : Text) :
    m <+: (tidy t).map Char.toLower ↔ m <+: t.map Char.toLower := by
  induction t generalizing m with
  | nil => exact Iff.rfl
  | cons c t ih =>
    cases m with
    | nil => simp
    | cons a m =>
      rw [tidy_cons]
      rcases tidyCons_cases c (tidy t) with h | ⟨h, hc, hend⟩
      · rw [h, List.map_cons, List.map_cons, List.cons_prefix_cons, List.cons_prefix_cons, ih hm.tail]
      · rw [h]
        refine ⟨fun hpre => absurd hpre (not_prefix_of_lineEnd hm (by simp) hend), fun hpre => ?_⟩
        rw [List.map_cons, List.cons_prefix_cons] at hpre
        rcases hc with hblank | rfl
        · by_cases hne : m = []
          · subst hne
            have hlower : isBlank c.toLower = true := isBlank_toLower hblank
            exact absurd (hm.2 a rfl) (by rw [hpre.1, hlower]; decide)
          · exact absurd ((ih hm.tail).mpr hpre.2) (not_prefix_of_lineEnd hm.tail hne hend)
        · exact absurd (List.mem_cons_self ..) (hpre.1 ▸ hm.1)

/-- They hide none within it. -/
theorem infix_tidy_iff {m : Text} (hm : Inked m) (hne : m ≠ []) (t : Text) :
    m <:+: (tidy t).map Char.toLower ↔ m <:+: t.map Char.toLower := by
  induction t with
  | nil => exact Iff.rfl
  | cons c t ih =>
    have hpre := prefix_tidy_iff hm (c :: t)
    rw [tidy_cons] at hpre ⊢
    rcases tidyCons_cases c (tidy t) with h | ⟨h, -, hend⟩
    · rw [h] at hpre ⊢
      rw [List.map_cons, List.map_cons] at hpre ⊢
      rw [List.infix_cons_iff, List.infix_cons_iff, hpre, ih]
    · rw [h] at hpre ⊢
      rw [ih, List.map_cons, List.infix_cons_iff]
      exact ⟨.inr, fun hor => hor.resolve_left fun hfirst => not_prefix_of_lineEnd hm hne hend (hpre.mpr hfirst)⟩

/-- The markers of kept comments have no line feed and no trailing blank. -/
theorem keepCommentMarkers_inked {m : Text} (hm : m ∈ keepCommentMarkers) : Inked m ∧ m ≠ [] := by
  have hall : (keepCommentMarkers.all fun m =>
      m.all (fun c => !(c == '\n')) && m.getLast?.all (fun b => !isBlank b) && !m.isEmpty) = true := by decide +kernel
  have hone := List.all_eq_true.mp hall m hm
  rw [Bool.and_eq_true, Bool.and_eq_true, Bool.not_eq_true', List.isEmpty_eq_false_iff] at hone
  obtain ⟨⟨hfeed, hlast⟩, hne⟩ := hone
  refine ⟨⟨fun hmem => ?_, fun b hb => ?_⟩, hne⟩
  · exact absurd (List.all_eq_true.mp hfeed '\n' hmem) (by decide)
  · rw [Option.mem_def.mp hb, Option.all_some, Bool.not_eq_true'] at hlast
    exact hlast

/-- Whether a comment is kept does not depend on its trailing blanks and blank lines. -/
theorem keepComment_tidy (s : Text) : keepComment (tidy s) = keepComment s := by
  rw [Bool.eq_iff_iff, keepComment, keepComment, List.any_eq_true, List.any_eq_true]
  refine ⟨fun h => ?_, fun h => ?_⟩
  · obtain ⟨m, hm, hin⟩ := h
    obtain ⟨hinked, hne⟩ := keepCommentMarkers_inked hm
    exact ⟨m, hm, (find_isSome_iff ..).mpr ((infix_tidy_iff hinked hne s).mp ((find_isSome_iff ..).mp hin))⟩
  · obtain ⟨m, hm, hin⟩ := h
    obtain ⟨hinked, hne⟩ := keepCommentMarkers_inked hm
    exact ⟨m, hm, (find_isSome_iff ..).mpr ((infix_tidy_iff hinked hne s).mpr ((find_isSome_iff ..).mp hin))⟩

/-! ## Lexemes up to trailing blanks and blank lines -/

/-- A lexeme with its comment tidied. -/
def tidied : Lexeme → Lexeme
  | .comment p s => .comment p (tidy s)
  | l => l

/-- A comment that stays where it is in a macro text: its line does not end with a backslash and blanks. -/
def Tame : Lexeme → Prop
  | .comment .define s => ¬ ['\\'] <:+ tidy s
  | _ => True

instance (l : Lexeme) : Decidable (Tame l) :=
  match l with
  | .comment .define s =>
    decidable_of_iff (['\\'].isSuffixOf (tidy s) = false)
      (by rw [← Bool.not_eq_true, List.isSuffixOf_iff_suffix]; rfl)
  | .comment .code _ | .comment .continued _ | .run _ | .string _ | .escaped _ | .quote | .endDefine =>
    inferInstanceAs (Decidable True)

/-- Two states of the lexer that differ at most in the block comment that is being read. -/
inductive Near : State → State → Prop where
  | refl (σ : State) : Near σ σ
  | block (d : Bool) {s s' : Text} (star : Bool) (h : AlikeText s s') : Near ⟨d, .block s star⟩ ⟨d, .block s' star⟩

/-- A text that may be put in the place of another in front of the lexer: it has the same lexemes, except for trailing
blanks and runs of blank lines in comments. -/
def Alike (x y : Text) : Prop :=
  ∀ σ σ' L, Near σ σ' → lexFrom σ x = some L → (∀ l ∈ L, Tame l) →
    ∃ L', lexFrom σ' y = some L' ∧ L'.map tidied = L.map tidied

/-- The lexer takes near states to near states, with the same lexemes up to tidied comments. -/
theorem step_near {σ σ' σ₁ : State} {c : Char} {es : List Lexeme} (h : Near σ σ') (hstep : step σ c = some (σ₁, es)) :
    ∃ σ₁' es', step σ' c = some (σ₁', es') ∧ Near σ₁ σ₁' ∧ es'.map tidied = es.map tidied := by
  cases h with
  | refl => exact ⟨σ₁, es, hstep, .refl _, rfl⟩
  | block d star h =>
    rename_i s s'
    unfold step at hstep ⊢
    dsimp only at hstep ⊢
    by_cases hend : (star && c = '/') = true
    · rw [if_pos hend] at hstep ⊢
      cases hstep
      refine ⟨_, _, rfl, .refl _, ?_⟩
      rw [List.map_cons, List.map_cons, tidied, tidied, (h.append [c]).tidy_eq]
    · rw [if_neg hend] at hstep ⊢
      cases hstep
      exact ⟨_, _, rfl, .block d _ (h.append [c]), rfl⟩

/-- Texts that are alike stay so behind a character. -/
theorem Alike.cons {x y : Text} (h : Alike x y) (c : Char) : Alike (c :: x) (c :: y) := by
  intro σ σ' L hnear hlex htame
  obtain ⟨σ₁, es, L₁, hstep, hL₁, rfl⟩ := exists_step_of_lexFrom hlex
  obtain ⟨σ₁', es', hstep', hnear', hes⟩ := step_near hnear hstep
  obtain ⟨L₁', hL₁', hmap⟩ := h σ₁ σ₁' L₁ hnear' hL₁ fun l hl => htame l (List.mem_append_right _ hl)
  refine ⟨es' ++ L₁', ?_, ?_⟩
  · rw [lexFrom_cons hstep', hL₁']
    rfl
  · rw [List.map_append, List.map_append, hes, hmap]

/-- Texts that are alike stay so behind a text. -/
theorem Alike.append {x y : Text} (h : Alike x y) (u : Text) : Alike (u ++ x) (u ++ y) := by
  induction u with
  | nil => exact h
  | cons c u ih => exact ih.cons c

/-- Lexemes that are tidied to the same are the same, or comments at one kind of place. -/
theorem tidied_cases {l l' : Lexeme} (h : tidied l' = tidied l) :
    l' = l ∨ ∃ p s s', l' = .comment p s' ∧ l = .comment p s ∧ tidy s' = tidy s := by
  cases l' with
  | comment p' s' =>
    cases l with
    | comment p s =>
      obtain ⟨rfl, hs⟩ := Lexeme.comment.inj h
      exact .inr ⟨p', s, s', rfl, rfl, hs⟩
    | _ => cases h
  | _ =>
    cases l with
    | comment p s => cases h
    | _ => exact .inl h

/-- A lexeme of one list has one of the other that is tidied to the same. -/
theorem mem_of_tidied {L L' : List Lexeme} (h : L'.map tidied = L.map tidied) {l' : Lexeme} (hl' : l' ∈ L') :
    ∃ l ∈ L, tidied l' = tidied l := by
  have hmem : tidied l' ∈ L.map tidied := h ▸ List.mem_map_of_mem hl'
  obtain ⟨l, hl, heq⟩ := List.mem_map.mp hmem
  exact ⟨l, hl, heq.symm⟩

/-- Comments that differ in trailing blanks and blank lines only are as tame as each other. -/
theorem tame_of_tidied {L L' : List Lexeme} (h : L'.map tidied = L.map tidied) (hL : ∀ l ∈ L, Tame l) :
    ∀ l ∈ L', Tame l := by
  intro l' hl'
  obtain ⟨l, hl, heq⟩ := mem_of_tidied h hl'
  have hl := hL l hl
  rcases tidied_cases heq with rfl | ⟨p, s, s', rfl, rfl, hs⟩
  · exact hl
  · cases p with
    | define =>
      have hl : ¬ ['\\'] <:+ tidy s := hl
      exact fun h => hl (hs ▸ h)
    | code => trivial
    | continued => trivial

theorem Alike.trans {x y z : Text} (h : Alike x y) (h' : Alike y z) : Alike x z := by
  intro σ σ' L hnear hlex htame
  obtain ⟨L₁, hL₁, hmap⟩ := h σ σ' L hnear hlex htame
  obtain ⟨L₂, hL₂, hmap'⟩ := h' σ' σ' L₁ (.refl _) hL₁ (tame_of_tidied hmap htame)
  exact ⟨L₂, hL₂, hmap'.trans hmap⟩

theorem Alike.nil : Alike [] [] := by
  intro σ σ' L hnear hlex _
  cases hnear with
  | refl => exact ⟨L, hlex, rfl⟩
  | block => cases hlex

theorem Alike.refl (x : Text) : Alike x x := by
  have h := Alike.nil.append x
  rwa [List.append_nil] at h

/-! ## Characters that may be dropped -/

/-- White space may be put in the place of other white space when that is so behind code, in comments, and behind a
backslash. -/
theorem Alike.of_modes {x y : Text} (hx : WhiteEnd x) (hy : WhiteEnd y)
    (hcode : ∀ d, lexFrom ⟨d, .code []⟩ x = lexFrom ⟨d, .code []⟩ y)
    (hback : ∀ d r L, lexFrom ⟨d, .escaped r ['\\']⟩ x = some L → lexFrom ⟨d, .escaped r ['\\']⟩ y = some L)
    (hstring : ∀ d s esc, lexFrom ⟨d, .string s esc⟩ x = none)
    (hline : ∀ d s L, lexFrom ⟨d, .line s⟩ x = some L → (∀ l ∈ L, Tame l) →
      ∃ L', lexFrom ⟨d, .line s⟩ y = some L' ∧ L'.map tidied = L.map tidied)
    (hblock : ∀ d s s' star L, AlikeText s s' → lexFrom ⟨d, .block s star⟩ x = some L →
      (∀ l ∈ L, Tame l) → ∃ L', lexFrom ⟨d, .block s' star⟩ y = some L' ∧ L'.map tidied = L.map tidied) : Alike x y := by
  intro σ σ' L hnear hlex htame
  cases hnear with
  | block d star h => exact hblock d _ _ star L h hlex htame
  | refl =>
    obtain ⟨d, m⟩ := σ
    cases m with
    | code r => exact ⟨L, by rw [lexFrom_flush hy, ← hcode, ← lexFrom_flush hx, hlex], rfl⟩
    | slash r =>
      have hopen : ∀ {t : Text}, WhiteEnd t → t.head? ≠ some '/' ∧ t.head? ≠ some '*' := fun ht =>
        ⟨fun h => absurd (ht '/' h) (by decide), fun h => absurd (ht '*' h) (by decide)⟩
      rw [lexFrom_slashed (hopen hx), lexFrom_flush hx] at hlex
      exact ⟨L, by rw [lexFrom_slashed (hopen hy), lexFrom_flush hy, ← hcode, hlex], rfl⟩
    | escaped r s =>
      by_cases hs : s = ['\\']
      · subst hs
        exact ⟨L, hback d r L hlex, rfl⟩
      · rw [lexFrom_escapedEnd hx hs] at hlex
        exact ⟨L, by rw [lexFrom_escapedEnd hy hs, ← hcode, hlex], rfl⟩
    | string s esc => exact absurd hlex (by rw [hstring]; simp)
    | line s => exact hline d s L hlex htame
    | block s star => exact hblock d s s star L (fun _ => rfl) hlex htame

/-- A blank is a space or a tabulator. -/
theorem cases_of_isBlank {b : Char} (h : isBlank b = true) : b = ' ' ∨ b = '\t' := by
  unfold isBlank at h
  rwa [Bool.or_eq_true, decide_eq_true_eq, decide_eq_true_eq] at h

/-- A blank is no line feed, quote, backslash or slash. -/
theorem ne_of_isBlank {b : Char} (h : isBlank b = true) : b ≠ '\n' ∧ b ≠ '"' ∧ b ≠ '\\' ∧ b ≠ '/' := by
  rcases cases_of_isBlank h with rfl | rfl <;> decide

/-- A blank is white space. -/
theorem isWhite_of_isBlank {b : Char} (h : isBlank b = true) : isWhite b = true := by
  rcases cases_of_isBlank h with rfl | rfl <;> decide

theorem whiteEnd_cons {c : Char} (hc : isWhite c = true) (t : Text) : WhiteEnd (c :: t) := by
  intro b hb
  rw [← Option.some.inj hb]
  exact hc

/-- Between lexemes a blank is skipped. -/
theorem lexFrom_blank {b : Char} (hb : isBlank b = true) (d : Bool) (t : Text) :
    lexFrom ⟨d, .code []⟩ (b :: t) = lexFrom ⟨d, .code []⟩ t :=
  lexFrom_white (w := [b]) (fun c hc => by
    rw [List.mem_singleton.mp hc]
    exact ⟨isWhite_of_isBlank hb, fun _ => (ne_of_isBlank hb).1⟩) t

/-- A backslash in front of a blank is no escaped identifier. -/
theorem lexFrom_backslash_blank {b : Char} (hb : isBlank b = true) (d : Bool) (r t : Text) :
    lexFrom ⟨d, .escaped r ['\\']⟩ (b :: t) = none := by
  cases h : lexFrom ⟨d, .escaped r ['\\']⟩ (b :: t) with
  | none => rfl
  | some L =>
    obtain ⟨y, hy⟩ := head_of_lexFrom_backslash (whiteEnd_cons (isWhite_of_isBlank hb) t) h
    exact absurd (List.cons.inj hy).1 (ne_of_isBlank hb).1

/-- In a line comment a blank is read as part of it. -/
theorem lexFrom_line_blank {b : Char} (hb : isBlank b = true) (d : Bool) (s t : Text) :
    lexFrom ⟨d, .line s⟩ (b :: t) = lexFrom ⟨d, .line (s ++ [b])⟩ t :=
  lexFrom_line (t := [b]) (fun h => (ne_of_isBlank hb).1 (List.mem_singleton.mp h).symm) d s t

/-- A comment that ends in a blank does not end in a backslash. -/
theorem not_suffix_blank {b : Char} (hb : isBlank b = true) (s : Text) : ¬ ['\\'] <:+ s ++ [b] := by
  rintro ⟨u, hu⟩
  exact (ne_of_isBlank hb).2.2.1 (List.cons.inj (List.append_inj_right' hu rfl)).1.symm

/-- A text that ends with a backslash does so when it is tidied. -/
theorem suffix_tidy {s : Text} (h : ['\\'] <:+ s) : ['\\'] <:+ tidy s := by
  obtain ⟨u, rfl⟩ := h
  rw [tidy_append]
  have hone : tidy ['\\'] = ['\\'] := by decide
  rw [hone]
  induction u with
  | nil => exact List.suffix_refl _
  | cons c u ih =>
    rw [List.foldr_cons]
    rcases tidyCons_cases c (u.foldr tidyCons ['\\']) with h | ⟨h, -⟩
    · rw [h]
      exact ih.trans (List.suffix_cons ..)
    · rw [h]
      exact ih

/-- A character of a block comment. -/
theorem lexFrom_blockChar {c : Char} (hc : c ≠ '/') (d : Bool) (s : Text) (star : Bool) (t : Text) :
    lexFrom ⟨d, .block s star⟩ (c :: t) = lexFrom ⟨d, .block (s ++ [c]) (c = '*')⟩ t := by
  have hstep : step ⟨d, .block s star⟩ c = some (⟨d, .block (s ++ [c]) (c = '*')⟩, []) := by
    unfold step
    dsimp only
    rw [decide_eq_false hc, Bool.and_false, if_neg Bool.false_ne_true]
  rw [lexFrom_cons hstep]
  cases lexFrom ⟨d, .block (s ++ [c]) (c = '*')⟩ t <;> rfl

/-- A blank at the end of the text. -/
theorem alike_last {b : Char} (hb : isBlank b = true) : Alike [b] [] := by
  obtain ⟨hfeed, hquote, hback, hslash⟩ := ne_of_isBlank hb
  refine Alike.of_modes (whiteEnd_cons (isWhite_of_isBlank hb) []) (by intro c hc; cases hc)
    (fun d => lexFrom_blank hb d []) ?_ ?_ ?_ ?_
  · intro d r L h
    rw [lexFrom_backslash_blank hb] at h
    cases h
  · intro d s esc
    rw [lexFrom_string_cons hfeed hquote hback]
    rfl
  · intro d s L h _
    have hend : LineEnd [] := by intro c hc; cases hc
    rw [lexFrom_line_blank hb, lexFrom_lineEnd hend fun h => absurd rfl h] at h
    obtain ⟨L₁, hL₁, rfl⟩ := Option.map_eq_some_iff.mp h
    refine ⟨_, by rw [lexFrom_lineEnd hend fun h => absurd rfl h, hL₁]; rfl, ?_⟩
    rw [List.map_cons, List.map_cons, tidied, tidied, tidy_blank hb]
  · intro d s s' star L _ h _
    rw [lexFrom_blockChar hslash] at h
    cases h

/-- A blank at the end of a line. -/
theorem alike_trailing {b : Char} (hb : isBlank b = true) (t : Text) : Alike (b :: '\n' :: t) ('\n' :: t) := by
  obtain ⟨hfeed, hquote, hback, hslash⟩ := ne_of_isBlank hb
  have hend : LineEnd ('\n' :: t) := by intro c hc; exact (Option.some.inj hc).symm
  refine Alike.of_modes (whiteEnd_cons (isWhite_of_isBlank hb) _) (whiteEnd_cons (by decide) t)
    (fun d => lexFrom_blank hb d _) ?_ ?_ ?_ ?_
  · intro d r L h
    rw [lexFrom_backslash_blank hb] at h
    cases h
  · intro d s esc
    rw [lexFrom_string_cons hfeed hquote hback, lexFrom_string_newline]
  · intro d s L h htame
    rw [lexFrom_line_blank hb, lexFrom_lineEnd hend fun _ _ => not_suffix_blank hb s] at h
    obtain ⟨L₁, hL₁, rfl⟩ := Option.map_eq_some_iff.mp h
    have hs : d = true → ¬ ['\\'] <:+ s := by
      rintro rfl hsuf
      have htame : ¬ ['\\'] <:+ tidy (s ++ [b]) := htame _ (List.mem_cons_self ..)
      rw [tidy_blank hb] at htame
      exact htame (suffix_tidy hsuf)
    refine ⟨_, by rw [lexFrom_lineEnd hend fun _ => hs, hL₁]; rfl, ?_⟩
    rw [List.map_cons, List.map_cons, tidied, tidied, tidy_blank hb]
  · intro d s s' star L halike h htame
    rw [lexFrom_blockChar hslash, lexFrom_blockChar (by decide)] at h
    rw [lexFrom_blockChar (by decide)]
    have hfinal : AlikeText (s ++ [b] ++ ['\n']) (s' ++ ['\n']) := by
      intro u
      rw [alike_blank hb s u, halike.append ['\n'] u]
    exact Alike.refl t _ _ L (.block d _ hfinal) h htame

/-- A third line feed in a row. -/
theorem alike_blankLine (t : Text) : Alike ('\n' :: '\n' :: '\n' :: t) ('\n' :: '\n' :: t) := by
  have hend : ∀ t, LineEnd ('\n' :: t) := fun t c hc => (Option.some.inj hc).symm
  have hcode : ∀ d, lexFrom ⟨d, .code []⟩ ('\n' :: '\n' :: '\n' :: t) = lexFrom ⟨d, .code []⟩ ('\n' :: '\n' :: t) :=
    fun d => by rw [lexFrom_newlines, lexFrom_newlines]
  refine Alike.of_modes (whiteEnd_cons (by decide) _) (whiteEnd_cons (by decide) _) hcode ?_ ?_ ?_ ?_
  · intro d r L h
    rw [lexFrom_backslash, lexFrom_newlines] at h
    rw [lexFrom_backslash, h]
  · intro d s esc
    cases esc with
    | false => exact lexFrom_string_newline ..
    | true =>
      have hstep : step ⟨d, .string s true⟩ '\n' = some (⟨d, .string (s ++ ['\n']) false⟩, []) := rfl
      rw [lexFrom_cons hstep, lexFrom_string_newline]
      rfl
  · intro d s L h htame
    by_cases hcont : d = true ∧ ['\\'] <:+ s
    · obtain ⟨rfl, hsuf⟩ := hcont
      rw [lexFrom_continued hsuf, lexFrom_newlines] at h
      exact ⟨L, by rw [lexFrom_continued hsuf, h], rfl⟩
    · have hs : d = true → ¬ ['\\'] <:+ s := fun hd hsuf => hcont ⟨hd, hsuf⟩
      rw [lexFrom_lineEnd (hend _) fun _ => hs, hcode] at h
      exact ⟨L, by rw [lexFrom_lineEnd (hend _) fun _ => hs]; exact h, rfl⟩
  · intro d s s' star L halike h htame
    rw [lexFrom_blockChar (by decide), lexFrom_blockChar (by decide), lexFrom_blockChar (by decide)] at h
    rw [lexFrom_blockChar (by decide), lexFrom_blockChar (by decide)]
    have hfinal : AlikeText (s ++ ['\n'] ++ ['\n'] ++ ['\n']) (s' ++ ['\n'] ++ ['\n']) := by
      intro u
      rw [alike_newlines s u, (halike.append ['\n']).append ['\n'] u]
    exact Alike.refl t _ _ L (.block d _ hfinal) h htame

end CleanRtl

end SocRV
