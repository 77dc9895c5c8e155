import Mathlib.Algebra.Group.Nat.Defs
import SocRV.Build.CleanRtl
import SocRV.Build.SvLexer

/-!
# Taking the comments out

The scanner of `strip_comments` knows strings and comments only.  It agrees with the lexer as long as an escaped
identifier does not look like one of these, and what it leaves has the lexemes of the source without the comments that
it takes out.
-/

namespace SocRV

namespace CleanRtl

open SvLexer

/-! ## The scanner, one step at a time -/

/-- A text is found just where it occurs. -/
theorem find_isSome_iff (u t : Text) : (find u t).isSome = true ↔ u <:+: t := by
  induction t with
  | nil =>
    rw [find, List.infix_nil]
    by_cases hu : u.isEmpty = true
    · rw [if_pos hu]
      exact ⟨fun _ => List.isEmpty_iff.mp hu, fun _ => rfl⟩
    · rw [if_neg hu]
      exact ⟨fun h => absurd h (by decide), fun h => absurd (List.isEmpty_iff.mpr h) hu⟩
  | cons c t ih =>
    rw [find, List.infix_cons_iff]
    by_cases hu : u.isPrefixOf (c :: t) = true
    · rw [if_pos hu]
      exact ⟨fun _ => .inl (List.isPrefixOf_iff_prefix.mp hu), fun _ => rfl⟩
    · rw [if_neg hu, Option.isSome_map, ih]
      exact ⟨.inr, fun h => h.resolve_left fun hpre => hu (List.isPrefixOf_iff_prefix.mpr hpre)⟩

/-- A text is not found exactly when it is no part of the other. -/
theorem find_eq_none_iff (u t : Text) : find u t = none ↔ ¬ u <:+: t := by
  rw [← find_isSome_iff, Bool.not_eq_true, Option.isSome_eq_false_iff, Option.isNone_iff_eq_none]

theorem scan_nil (q e : Bool) (n : Nat) : scan q e n [] = .ok [] := by
  cases q <;> cases n <;> rfl

/-- A character to be skipped is skipped. -/
theorem scan_succ (q e : Bool) (n : Nat) (c : Char) (x : Text) : scan q e (n + 1) (c :: x) = scan q e n x := by
  cases q <;> rfl

/-- What `scan` does at a character outside strings. -/
theorem scan_code (e : Bool) (c : Char) (x : Text) :
    scan false e 0 (c :: x) =
      if c = '"' then (c :: ·) <$> scan true e 0 x
      else if ['/', '/'].isPrefixOf (c :: x) then
        let stop := (find ['\n'] (c :: x)).getD (x.length + 1)
        let comment := (c :: x).take stop
        ((if keepComment comment then comment else []) ++ ·) <$> scan false e (stop - 1) x
      else if ['/', '*'].isPrefixOf (c :: x) then
        (find ['*', '/'] (x.drop 1)).elim (.error "unterminated block comment") fun k =>
          let comment := (c :: x).take (k + 4)
          ((if keepComment comment then comment else ' ' :: comment.filter fun c => c = '\r' || c = '\n') ++ ·) <$>
            scan false e (k + 4 - 1) x
      else (c :: ·) <$> scan false e 0 x := by
  rw [scan]
  cases find ['*', '/'] (x.drop 1) <;> rfl

/-- Skipping characters is scanning what is behind them. -/
theorem scan_skip (q e : Bool) (n : Nat) (x : Text) : scan q e n x = scan q e 0 (x.drop n) := by
  induction n generalizing x with
  | zero => rw [List.drop_zero]
  | succ n ih =>
    cases x with
    | nil => rw [List.drop_nil, scan_nil, scan_nil]
    | cons c x => rw [scan_succ, List.drop_succ_cons, ih]

theorem scan_string (e : Bool) (c : Char) (x : Text) :
    scan true e 0 (c :: x) = (c :: ·) <$> (if e then scan true false 0 x
      else if c = '\\' then scan true true 0 x else if c = '"' then scan false e 0 x else scan true e 0 x) := rfl

/-- A quote starts a string. -/
theorem scan_quote (e : Bool) (x : Text) : scan false e 0 ('"' :: x) = ('"' :: ·) <$> scan true e 0 x := by
  rw [scan_code, if_pos rfl]

/-- A character that starts neither a string nor a comment. -/
theorem scan_char {c : Char} {x : Text} (hquote : c ≠ '"') (hopen : c = '/' → x.head? ≠ some '/' ∧ x.head? ≠ some '*')
    (e : Bool) : scan false e 0 (c :: x) = (c :: ·) <$> scan false e 0 x := by
  have hnot : ∀ d, (c = '/' → x.head? ≠ some d) → ['/', d].isPrefixOf (c :: x) = false := by
    intro d hd
    cases x with
    | nil => simp [List.isPrefixOf]
    | cons b x =>
      rw [← Bool.not_eq_true, List.isPrefixOf_iff_prefix, List.cons_prefix_cons, List.cons_prefix_cons]
      rintro ⟨rfl, rfl, -⟩
      exact hd rfl rfl
  rw [scan_code, if_neg hquote, hnot '/' fun h => (hopen h).1, hnot '*' fun h => (hopen h).2]
  rfl

/-- What is put out for a comment. -/
def commentOut (comment other : Text) : Text := if keepComment comment then comment else other

/-- Behind a text without line feeds the line ends where that text does. -/
theorem find_newline {u y : Text} (hu : '\n' ∉ u) (hy : LineEnd y) :
    (find ['\n'] (u ++ y)).getD (u ++ y).length = u.length := by
  induction u with
  | nil =>
    cases y with
    | nil => rfl
    | cons c y =>
      obtain rfl := hy c rfl
      rfl
  | cons c u ih =>
    have hc : '\n' ≠ c := fun h => hu (h ▸ List.mem_cons_self ..)
    have hnot : ['\n'].isPrefixOf (c :: (u ++ y)) = false := by
      rw [← Bool.not_eq_true, List.isPrefixOf_iff_prefix, List.cons_prefix_cons]
      exact fun h => hc h.1
    have hlen : ((find ['\n'] (u ++ y)).map (· + 1)).getD ((u ++ y).length + 1) =
        (find ['\n'] (u ++ y)).getD (u ++ y).length + 1 := by
      cases find ['\n'] (u ++ y) <;> rfl
    rw [List.cons_append, find, hnot, if_neg Bool.false_ne_true, List.length_cons, hlen,
      ih fun h => hu (List.mem_cons_of_mem _ h), List.length_cons]

/-- A one-line comment. -/
theorem scan_line {u y : Text} (hu : '\n' ∉ u) (hy : LineEnd y) (e : Bool) :
    scan false e 0 ('/' :: '/' :: (u ++ y)) = (commentOut ('/' :: '/' :: u) [] ++ ·) <$> scan false e 0 y := by
  have hu' : '\n' ∉ '/' :: '/' :: u := by
    rw [List.mem_cons, List.mem_cons, not_or, not_or]
    exact ⟨by decide, by decide, hu⟩
  have hstop : (find ['\n'] ('/' :: '/' :: (u ++ y))).getD (('/' :: (u ++ y)).length + 1) = u.length + 2 :=
    find_newline hu' hy
  have hopen : ['/', '/'].isPrefixOf ('/' :: '/' :: (u ++ y)) = true := rfl
  have hrest : ('/' :: (u ++ y)).drop (u.length + 2 - 1) = y := List.drop_left ..
  rw [scan_code, if_neg (by decide), hopen, if_pos rfl]
  dsimp only
  rw [hstop, scan_skip, hrest, List.take_succ_cons, List.take_succ_cons, List.take_left, commentOut]

/-- A block comment, which ends at the first `*/` behind its start. -/
theorem scan_block {t : Text} {k : Nat} (hk : find ['*', '/'] t = some k) (e : Bool) :
    scan false e 0 ('/' :: '*' :: t) =
      (commentOut ('/' :: '*' :: t.take (k + 2))
        (' ' :: ('/' :: '*' :: t.take (k + 2)).filter fun c => c = '\r' || c = '\n') ++ ·) <$>
        scan false e 0 (t.drop (k + 2)) := by
  have hline : ['/', '/'].isPrefixOf ('/' :: '*' :: t) = false := rfl
  have hopen : ['/', '*'].isPrefixOf ('/' :: '*' :: t) = true := rfl
  have hfind : find ['*', '/'] (('*' :: t).drop 1) = some k := hk
  have hrest : ('*' :: t).drop (k + 4 - 1) = t.drop (k + 2) := rfl
  rw [scan_code, if_neg (by decide), hline, if_neg Bool.false_ne_true, hopen, if_pos rfl, hfind, Option.elim_some]
  dsimp only
  rw [scan_skip, hrest, List.take_succ_cons, List.take_succ_cons, commentOut]

/-- A text that opens neither a string nor a comment, and cannot do so with what follows it, is put out as it is. -/
theorem scan_plain {u y : Text} (hquote : '"' ∉ u) (hline : ¬ ['/', '/'] <:+: u) (hblock : ¬ ['/', '*'] <:+: u)
    (hy : y.head? ≠ some '/' ∧ y.head? ≠ some '*') (e : Bool) :
    scan false e 0 (u ++ y) = (u ++ ·) <$> scan false e 0 y := by
  induction u with
  | nil => cases h : scan false e 0 y <;> simp [h]
  | cons c u ih =>
    rw [List.mem_cons, not_or] at hquote
    rw [List.infix_cons_iff, not_or] at hline hblock
    have hopen : c = '/' → (u ++ y).head? ≠ some '/' ∧ (u ++ y).head? ≠ some '*' := by
      rintro rfl
      cases u with
      | nil => exact hy
      | cons b u =>
        refine ⟨fun h => hline.1 ?_, fun h => hblock.1 ?_⟩
        · obtain rfl := Option.some.inj h
          exact List.prefix_append ['/', '/'] u
        · obtain rfl := Option.some.inj h
          exact List.prefix_append ['/', '*'] u
    rw [List.cons_append, scan_char (Ne.symm hquote.1) hopen, ih hquote.2 hline.2 hblock.2]
    cases scan false e 0 y <;> rfl

/-- What is put out starts as the source does, unless that starts with a comment. -/
theorem head_of_scan {e : Bool} {y z : Text} (hy : y.head? ≠ some '/') (h : scan false e 0 y = .ok z) :
    z.head? = y.head? := by
  cases y with
  | nil =>
    rw [scan_nil] at h
    cases h
    rfl
  | cons c y =>
    have hfirst : ∃ e', scan false e 0 (c :: y) = (c :: ·) <$> scan e' e 0 y := by
      by_cases hc : c = '"'
      · subst hc
        exact ⟨true, scan_quote e y⟩
      · exact ⟨false, scan_char hc (fun h => absurd (by rw [h]; rfl) hy) e⟩
    obtain ⟨e', he'⟩ := hfirst
    rw [he'] at h
    cases hr : scan e' e 0 y with
    | error e =>
      rw [hr] at h
      cases h
    | ok z' =>
      rw [hr] at h
      cases h
      rfl

/-- What is put out in front of a result leads to its output. -/
theorem ok_of_output {u z : Text} {r : Except String Text} (h : (u ++ ·) <$> r = .ok z) :
    ∃ z', r = .ok z' ∧ z = u ++ z' := by
  cases r with
  | error e => cases h
  | ok z' => exact ⟨z', rfl, (Except.ok.inj h).symm⟩

/-- What is put out are characters of the source, and blanks. -/
theorem mem_of_scan {q e : Bool} {n : Nat} {x z : Text} (h : scan q e n x = .ok z) {c : Char} (hc : c ∈ z) :
    c = ' ' ∨ c ∈ x := by
  have hone : ∀ {d : Char} {rest : Text} {r : Except String Text} {z : Text}, ([d] ++ ·) <$> r = .ok z → c ∈ z →
      (∀ {z'}, r = .ok z' → c ∈ z' → c = ' ' ∨ c ∈ rest) → c = ' ' ∨ c ∈ d :: rest := by
    intro d rest r z h hc ih
    obtain ⟨z', hz', rfl⟩ := ok_of_output h
    rcases List.mem_append.mp hc with hc | hc
    · exact .inr (List.mem_append_left rest hc)
    · exact (ih hz' hc).imp_right (List.mem_cons_of_mem _)
  fun_induction scan q e n x generalizing z with
  | case1 =>
    cases h
    cases hc
  | case2 q e n d x ih => exact (ih h hc).imp_right (List.mem_cons_of_mem _)
  | case3 e d x ih1 ih2 ih3 ih4 =>
    refine hone h hc fun hr hz => ?_
    split at hr
    · exact ih1 hr hz
    · split at hr
      · exact ih2 hr hz
      · split at hr
        · exact ih3 hr hz
        · exact ih4 hr hz
  | case4 e x ih => exact hone h hc ih
  | case5 =>
    rename_i ih
    obtain ⟨z', hz', rfl⟩ := ok_of_output h
    rcases List.mem_append.mp hc with hc | hc
    · split at hc
      · exact .inr (List.mem_of_mem_take hc)
      · cases hc
    · exact (ih hz' hc).imp_right (List.mem_cons_of_mem _)
  | case6 => cases h
  | case7 =>
    rename_i ih
    obtain ⟨z', hz', rfl⟩ := ok_of_output h
    rcases List.mem_append.mp hc with hc | hc
    · split at hc
      · exact .inr (List.mem_of_mem_take hc)
      · exact (List.mem_cons.mp hc).imp_right fun hc => List.mem_of_mem_take (List.mem_of_mem_filter hc)
    · exact (ih hz' hc).imp_right (List.mem_cons_of_mem _)
  | case8 e d x _ _ _ ih => exact hone h hc ih

/-! ## Block comments -/

/-- A star does not end a comment when no slash follows it. -/
theorem lexFrom_star {t : Text} (ht : t.head? ≠ some '/') (d : Bool) (s : Text) (star : Bool) :
    lexFrom ⟨d, .block s star⟩ t = lexFrom ⟨d, .block s false⟩ t := by
  cases t with
  | nil => rfl
  | cons c t =>
    have hc : c ≠ '/' := fun h => ht (by rw [h]; rfl)
    have hstep : ∀ star, step ⟨d, .block s star⟩ c = some (⟨d, .block (s ++ [c]) (c = '*')⟩, []) := by
      intro star
      unfold step
      dsimp only
      rw [if_neg (by simp [hc])]
    rw [lexFrom_cons (hstep star), lexFrom_cons (hstep false)]

/-- A character of a block comment that does not start the end of it. -/
theorem lexFrom_block_cons {c : Char} {t : Text} (hnot : ['*', '/'].isPrefixOf (c :: t) = false) (d : Bool) (s : Text) :
    lexFrom ⟨d, .block s false⟩ (c :: t) = lexFrom ⟨d, .block (s ++ [c]) false⟩ t := by
  have hstep : step ⟨d, .block s false⟩ c = some (⟨d, .block (s ++ [c]) (c = '*')⟩, []) := rfl
  have hrest : lexFrom ⟨d, .block (s ++ [c]) (c = '*')⟩ t = lexFrom ⟨d, .block (s ++ [c]) false⟩ t := by
    by_cases hc : c = '*'
    · refine lexFrom_star (fun h => ?_) ..
      cases t with
      | nil => cases h
      | cons b t =>
        obtain rfl := Option.some.inj h
        subst hc
        exact absurd hnot (by simp [List.isPrefixOf])
    · rw [decide_eq_false hc]
  rw [lexFrom_cons hstep, hrest]
  cases lexFrom ⟨d, .block (s ++ [c]) false⟩ t <;> rfl

/-- A block comment ends where `str.find` finds its end. -/
theorem lexFrom_block {t : Text} {k : Nat} (hk : find ['*', '/'] t = some k) (d : Bool) (s : Text) :
    lexFrom ⟨d, .block s false⟩ t =
      (lexFrom ⟨d, .code []⟩ (t.drop (k + 2))).map (.comment (placeOf d) (s ++ t.take (k + 2)) :: ·) := by
  induction t generalizing s k with
  | nil => cases hk
  | cons c t ih =>
    by_cases hend : ['*', '/'].isPrefixOf (c :: t) = true
    · obtain ⟨y, hy⟩ := List.isPrefixOf_iff_prefix.mp hend
      rw [find, if_pos hend] at hk
      cases hk
      rw [← hy]
      have hstar : step ⟨d, .block s false⟩ '*' = some (⟨d, .block (s ++ ['*']) true⟩, []) := rfl
      have hslash : step ⟨d, .block (s ++ ['*']) true⟩ '/' =
          some (⟨d, .code []⟩, [.comment (placeOf d) (s ++ ['*'] ++ ['/'])]) := rfl
      have htake : (['*', '/'] ++ y).take (0 + 2) = ['*', '/'] := rfl
      have hdrop : (['*', '/'] ++ y).drop (0 + 2) = y := rfl
      rw [htake, hdrop, List.cons_append, lexFrom_cons hstar, List.cons_append, lexFrom_cons hslash, List.append_assoc,
        List.nil_append]
      cases lexFrom ⟨d, .code []⟩ y <;> rfl
    · have hnot := Bool.eq_false_iff.mpr hend
      rw [find, if_neg hend] at hk
      obtain ⟨k', hk', rfl⟩ := Option.map_eq_some_iff.mp hk
      have hdrop : (c :: t).drop (k' + 1 + 2) = t.drop (k' + 2) := rfl
      have htake : (c :: t).take (k' + 1 + 2) = c :: t.take (k' + 2) := rfl
      rw [lexFrom_block_cons hnot, ih hk', hdrop, htake, List.append_assoc, List.singleton_append]

/-- A block comment that is not closed is not lexed. -/
theorem lexFrom_unterminated {t : Text} (hk : find ['*', '/'] t = none) (d : Bool) (s : Text) :
    lexFrom ⟨d, .block s false⟩ t = none := by
  induction t generalizing s with
  | nil => rfl
  | cons c t ih =>
    by_cases hend : ['*', '/'].isPrefixOf (c :: t) = true
    · rw [find, if_pos hend] at hk
      cases hk
    · rw [find, if_neg hend, Option.map_eq_none_iff] at hk
      rw [lexFrom_block_cons (Bool.eq_false_iff.mpr hend), ih hk]

/-- What is found lies inside the text. -/
theorem length_of_find {u t : Text} {k : Nat} (hk : find u t = some k) : k + u.length ≤ t.length := by
  induction t generalizing k with
  | nil =>
    rw [find] at hk
    split at hk
    · rename_i hu
      cases hk
      rw [List.isEmpty_iff.mp hu]
      exact Nat.le_refl _
    · cases hk
  | cons c t ih =>
    rw [find] at hk
    split at hk
    · rename_i hu
      cases hk
      rw [Nat.zero_add]
      exact (List.isPrefixOf_iff_prefix.mp hu).length_le
    · obtain ⟨k', hk', rfl⟩ := Option.map_eq_some_iff.mp hk
      have := ih hk'
      rw [List.length_cons]
      omega

/-- The end of a comment is found when the comment is read again. -/
theorem find_take {u t : Text} {k : Nat} (hu : u ≠ []) (hk : find u t = some k) (y : Text) :
    find u (t.take (k + u.length) ++ y) = some k := by
  induction t generalizing k with
  | nil =>
    rw [find, List.isEmpty_eq_false_iff.mpr hu] at hk
    cases hk
  | cons c t ih =>
    by_cases hfirst : u.isPrefixOf (c :: t) = true
    · obtain ⟨v, hv⟩ := List.isPrefixOf_iff_prefix.mp hfirst
      rw [find, if_pos hfirst] at hk
      cases hk
      rw [← hv, Nat.zero_add, List.take_left]
      obtain ⟨b, u, rfl⟩ := List.exists_cons_of_ne_nil hu
      rw [List.cons_append, find, if_pos]
      exact List.isPrefixOf_iff_prefix.mpr (List.prefix_append (b :: u) y)
    · rw [find, if_neg hfirst] at hk
      obtain ⟨k', hk', rfl⟩ := Option.map_eq_some_iff.mp hk
      have htake : (c :: t).take (k' + 1 + u.length) = c :: t.take (k' + u.length) := by
        rw [Nat.add_right_comm, List.take_succ_cons]
      have hnot : u.isPrefixOf (c :: (t.take (k' + u.length) ++ y)) = false := by
        rw [← Bool.not_eq_true, List.isPrefixOf_iff_prefix]
        intro hpre
        have hlen : u.length ≤ (c :: t.take (k' + u.length)).length := by
          have := length_of_find hk'
          rw [List.length_cons, List.length_take]
          omega
        have hshort : u <+: c :: t.take (k' + u.length) :=
          List.prefix_of_prefix_length_le hpre (List.prefix_append (c :: t.take (k' + u.length)) y) hlen
        exact hfirst (List.isPrefixOf_iff_prefix.mpr (hshort.trans (htake ▸ List.take_prefix ..)))
      rw [htake, List.cons_append, find, hnot, ih hk']
      rfl

/-! ## What the scanner leaves -/

/-- Whether a lexeme is left; a comment may not be. -/
def survives : Lexeme → Bool
  | .comment _ s => keepComment s
  | _ => true

/-- What the scanner takes for what it is: no macro quote, no escaped identifier that looks like a string or a comment,
and no comment that is taken out although a line feed in it or behind it is one of a macro text. -/
def Plain : Lexeme → Prop
  | .quote => False
  | .escaped s => '"' ∉ s ∧ ¬ ['/', '/'] <:+: s ∧ ¬ ['/', '*'] <:+: s
  | .comment .define s => keepComment s = true ∨ '\n' ∉ s
  | .comment .continued s => keepComment s = true
  | _ => True

instance (l : Lexeme) : Decidable (Plain l) :=
  match l with
  | .quote => inferInstanceAs (Decidable False)
  | .escaped s =>
    decidable_of_iff ('"' ∉ s ∧ find ['/', '/'] s = none ∧ find ['/', '*'] s = none)
      (by rw [find_eq_none_iff, find_eq_none_iff]; rfl)
  | .comment .define _ => inferInstanceAs (Decidable (_ ∨ _))
  | .comment .continued _ => inferInstanceAs (Decidable (_ = _))
  | .comment .code _ | .run _ | .string _ | .endDefine => inferInstanceAs (Decidable True)

/-- The scanner leaves the lexemes that survive, and the whole text when all do. -/
def Strips (q e : Bool) (σ : State) (x : Text) (L : List Lexeme) : Prop :=
  ∃ z, scan q e 0 x = .ok z ∧ lexFrom σ z = some (L.filter survives) ∧ ((∀ l ∈ L, survives l = true) → z = x)

/-- The scanner in step with the lexer. -/
def Handled (x : Text) : Prop :=
  (∀ d r L, lexFrom ⟨d, .code r⟩ x = some L → (∀ l ∈ L, Plain l) → Strips false false ⟨d, .code r⟩ x L) ∧
    ∀ d s esc L, lexFrom ⟨d, .string s esc⟩ x = some L → (∀ l ∈ L, Plain l) → Strips true esc ⟨d, .string s esc⟩ x L

/-- A run of other characters survives. -/
theorem survives_runOf {r : Text} : ∀ l ∈ runOf r, survives l = true := by
  intro l hl
  unfold runOf at hl
  split at hl
  · cases hl
  · rw [List.mem_singleton.mp hl]
    rfl

/-- The end of a directive survives. -/
theorem survives_ended {d : Bool} : ∀ l ∈ ended d, survives l = true := by
  intro l hl
  cases d with
  | false => cases hl
  | true =>
    rw [List.mem_singleton.mp hl]
    rfl

theorem survives_append {es es' : List Lexeme} (h : ∀ l ∈ es, survives l = true) (h' : ∀ l ∈ es', survives l = true) :
    ∀ l ∈ es ++ es', survives l = true := by
  intro l hl
  rcases List.mem_append.mp hl with hl | hl
  · exact h l hl
  · exact h' l hl

/-- A comment behind a run survives exactly when it is kept. -/
theorem filter_comment (r : Text) (p : Place) (s : Text) (L : List Lexeme) :
    (runOf r ++ .comment p s :: L).filter survives =
      runOf r ++ if keepComment s then .comment p s :: L.filter survives else L.filter survives := by
  rw [List.filter_append, List.filter_eq_self.mpr survives_runOf, List.filter_cons]
  rfl

/-- A character that both the lexer and the scanner read on from. -/
theorem Strips.step {q e q' e' : Bool} {σ σ' : State} {c : Char} {es L : List Lexeme} {x : Text}
    (hstep : SvLexer.step σ c = some (σ', es)) (hes : ∀ l ∈ es, survives l = true)
    (hscan : scan q e 0 (c :: x) = (c :: ·) <$> scan q' e' 0 x) (h : Strips q' e' σ' x L) :
    Strips q e σ (c :: x) (es ++ L) := by
  obtain ⟨z, hz, hlex, hsame⟩ := h
  refine ⟨c :: z, ?_, ?_, fun hall => ?_⟩
  · rw [hscan, hz]
    rfl
  · rw [lexFrom_cons hstep, hlex, List.filter_append, List.filter_eq_self.mpr hes]
    rfl
  · rw [hsame fun l hl => hall l (List.mem_append_right _ hl)]

/-- The end of the text. -/
theorem handled_nil : Handled [] := by
  constructor
  · intro d r L hlex _
    rw [lexFrom] at hlex
    cases hlex
    exact ⟨[], scan_nil .., by rw [List.filter_eq_self.mpr (survives_append survives_runOf survives_ended)]; rfl,
      fun _ => rfl⟩
  · intro d s esc L hlex _
    cases hlex

/-- A character of a string. -/
theorem handled_string {c : Char} {x : Text} (ih : Handled x) {d esc : Bool} {s : Text} {L : List Lexeme}
    (hlex : lexFrom ⟨d, .string s esc⟩ (c :: x) = some L) (hplain : ∀ l ∈ L, Plain l) :
    Strips true esc ⟨d, .string s esc⟩ (c :: x) L := by
  obtain ⟨σ', es, L', hstep, hL', rfl⟩ := exists_step_of_lexFrom hlex
  have hplain' : ∀ l ∈ L', Plain l := fun l hl => hplain l (List.mem_append_right _ hl)
  have hstep' := hstep
  unfold SvLexer.step at hstep
  dsimp only at hstep
  split at hstep
  · rename_i hesc
    subst hesc
    cases hstep
    exact Strips.step hstep' (by simp) (scan_string true c x) (ih.2 _ _ _ _ hL' hplain')
  · rename_i hesc
    obtain rfl := Bool.eq_false_iff.mpr hesc
    have hscan := scan_string false c x
    rw [if_neg Bool.false_ne_true] at hscan
    split at hstep
    · cases hstep
    · split at hstep
      · rename_i hquote
        subst hquote
        cases hstep
        exact Strips.step hstep' (by simp [survives]) hscan (ih.1 _ _ _ hL' hplain')
      · rename_i hquote
        cases hstep
        refine Strips.step hstep' (by simp) ?_ (ih.2 _ _ _ _ hL' hplain')
        rw [hscan, if_neg hquote]
        by_cases hback : c = '\\'
        · rw [if_pos hback, decide_eq_true hback]
        · rw [if_neg hback, decide_eq_false hback]

/-- A one-line comment. -/
theorem handled_line {u y : Text} (hu : '\n' ∉ u) (hy : LineEnd y) (ih : ∀ x, x.length ≤ y.length → Handled x) {d : Bool}
    {r : Text} {L : List Lexeme} (hlex : lexFrom ⟨d, .code r⟩ ('/' :: '/' :: (u ++ y)) = some L)
    (hplain : ∀ l ∈ L, Plain l) : Strips false false ⟨d, .code r⟩ ('/' :: '/' :: (u ++ y)) L := by
  rw [lexFrom_codeLine hu] at hlex
  obtain ⟨L₁, hL₁, rfl⟩ := Option.map_eq_some_iff.mp hlex
  by_cases hcont : y ≠ [] ∧ defines d r = true ∧ ['\\'] <:+ '/' :: '/' :: u
  · obtain ⟨hne, hd, hback⟩ := hcont
    obtain ⟨c, y, rfl⟩ := List.exists_cons_of_ne_nil hne
    obtain rfl := hy c rfl
    rw [hd, lexFrom_continued hback] at hL₁
    obtain ⟨L₂, hL₂, rfl⟩ := Option.map_eq_some_iff.mp hL₁
    have hkeep : keepComment ('/' :: '/' :: u) = true :=
      hplain (.comment .continued ('/' :: '/' :: u)) (List.mem_append_right _ (List.mem_cons_self ..))
    have hplain' : ∀ l ∈ L₂, Plain l := fun l hl =>
      hplain l (List.mem_append_right _ (List.mem_cons_of_mem _ hl))
    obtain ⟨z, hz, hlex', hsame⟩ := (ih y (Nat.le_succ _)).1 _ _ _ hL₂ hplain'
    refine ⟨'/' :: '/' :: (u ++ '\n' :: z), ?_, ?_, fun hall => ?_⟩
    · rw [scan_line hu hy, commentOut, if_pos hkeep, scan_char (by decide) (fun h => absurd h (by decide)), hz]
      rfl
    · rw [lexFrom_codeLine hu, hd, lexFrom_continued hback, hlex', filter_comment, if_pos hkeep]
      rfl
    · rw [hsame fun l hl => hall l (List.mem_append_right _ (List.mem_cons_of_mem _ hl))]
  · have hend : y ≠ [] → defines d r = true → ¬ ['\\'] <:+ '/' :: '/' :: u :=
      fun hne hd hback => hcont ⟨hne, hd, hback⟩
    rw [lexFrom_lineEnd hy hend] at hL₁
    obtain ⟨L₂, hL₂, rfl⟩ := Option.map_eq_some_iff.mp hL₁
    have hplain' : ∀ l ∈ L₂, Plain l := fun l hl =>
      hplain l (List.mem_append_right _ (List.mem_cons_of_mem _ hl))
    obtain ⟨z, hz, hlex', hsame⟩ := (ih y (Nat.le_refl _)).1 _ _ _ hL₂ hplain'
    have hhead : z.head? = y.head? := by
      refine head_of_scan (fun h => ?_) hz
      exact absurd (hy '/' h) (by decide)
    have hz' : LineEnd z := by
      unfold LineEnd
      rw [hhead]
      exact hy
    have hnil : z = [] ↔ y = [] := by rw [← List.head?_eq_none_iff, hhead, List.head?_eq_none_iff]
    have hempty : z.isEmpty = y.isEmpty := by rw [Bool.eq_iff_iff, List.isEmpty_iff, List.isEmpty_iff, hnil]
    by_cases hkeep : keepComment ('/' :: '/' :: u) = true
    · refine ⟨'/' :: '/' :: (u ++ z), ?_, ?_, fun hall => ?_⟩
      · rw [scan_line hu hy, commentOut, if_pos hkeep, hz]
        rfl
      · have hend' : z ≠ [] → defines d r = true → ¬ ['\\'] <:+ '/' :: '/' :: u := fun hne => hend (hne ∘ hnil.mpr)
        rw [lexFrom_codeLine hu, lexFrom_lineEnd hz' hend', hempty, hlex', filter_comment, if_pos hkeep]
        rfl
      · rw [hsame fun l hl => hall l (List.mem_append_right _ (List.mem_cons_of_mem _ hl))]
    · refine ⟨z, ?_, ?_, fun hall => ?_⟩
      · rw [scan_line hu hy, commentOut, if_neg hkeep, hz]
        rfl
      · have hwhite : WhiteEnd z := by
          intro c hc
          rw [hz' c hc]
          rfl
        rw [lexFrom_flush hwhite, hlex', filter_comment, if_neg hkeep]
        rfl
      · exact absurd (hall _ (List.mem_append_right _ (List.mem_cons_self ..))) hkeep

/-- What is put out for a comment that is taken out is white space. -/
theorem isWhite_of_commentOut {s : Text} {d : Bool} (hs : d = true → '\n' ∉ s) :
    ∀ c ∈ ' ' :: s.filter (fun c => c = '\r' || c = '\n'), isWhite c = true ∧ (d = true → c ≠ '\n') := by
  intro c hc
  rcases List.mem_cons.mp hc with rfl | hc
  · exact ⟨by decide, fun _ => by decide⟩
  · obtain ⟨hmem, hbreak⟩ := List.mem_filter.mp hc
    refine ⟨?_, ?_⟩
    · rw [Bool.or_eq_true, decide_eq_true_eq, decide_eq_true_eq] at hbreak
      rcases hbreak with rfl | rfl <;> decide
    · rintro hd rfl
      exact hs hd hmem

/-- A block comment. -/
theorem handled_block {t : Text} (ih : ∀ x, x.length ≤ t.length → Handled x) {d : Bool} {r : Text} {L : List Lexeme}
    (hlex : lexFrom ⟨d, .code r⟩ ('/' :: '*' :: t) = some L) (hplain : ∀ l ∈ L, Plain l) :
    Strips false false ⟨d, .code r⟩ ('/' :: '*' :: t) L := by
  rw [lexFrom_codeBlock] at hlex
  obtain ⟨L₁, hL₁, rfl⟩ := Option.map_eq_some_iff.mp hlex
  cases hk : find ['*', '/'] t with
  | none =>
    rw [lexFrom_unterminated hk] at hL₁
    cases hL₁
  | some k =>
    rw [lexFrom_block hk] at hL₁
    obtain ⟨L₂, hL₂, rfl⟩ := Option.map_eq_some_iff.mp hL₁
    have hplain' : ∀ l ∈ L₂, Plain l := fun l hl =>
      hplain l (List.mem_append_right _ (List.mem_cons_of_mem _ hl))
    have hshort : (t.drop (k + 2)).length ≤ t.length := by
      rw [List.length_drop]
      omega
    obtain ⟨z, hz, hlex', hsame⟩ := (ih _ hshort).1 _ _ _ hL₂ hplain'
    have hcomment : ['/', '*'] ++ t.take (k + 2) = '/' :: '*' :: t.take (k + 2) := rfl
    by_cases hkeep : keepComment ('/' :: '*' :: t.take (k + 2)) = true
    · refine ⟨'/' :: '*' :: (t.take (k + 2) ++ z), ?_, ?_, fun hall => ?_⟩
      · rw [scan_block hk, commentOut, if_pos hkeep, hz]
        rfl
      · have hk' : find ['*', '/'] (t.take (k + 2) ++ z) = some k := find_take (by decide) hk z
        have hlen : (t.take (k + 2)).length = k + 2 := List.length_take_of_le (length_of_find hk)
        rw [lexFrom_codeBlock, lexFrom_block hk', List.drop_left' hlen, List.take_left' hlen, hlex', filter_comment,
          hcomment, if_pos hkeep]
        rfl
      · rw [hsame fun l hl => hall l (List.mem_append_right _ (List.mem_cons_of_mem _ hl)), List.take_append_drop]
    · refine ⟨' ' :: (('/' :: '*' :: t.take (k + 2)).filter fun c => c = '\r' || c = '\n') ++ z, ?_, ?_, fun hall => ?_⟩
      · rw [scan_block hk, commentOut, if_neg hkeep, hz]
        rfl
      · have hwhite : WhiteEnd (' ' :: (('/' :: '*' :: t.take (k + 2)).filter fun c => c = '\r' || c = '\n') ++ z) := by
          intro c hc
          cases hc
          rfl
        have hfeed : defines d r = true → '\n' ∉ '/' :: '*' :: t.take (k + 2) := by
          intro hd
          have hl := hplain (.comment (placeOf (defines d r)) ('/' :: '*' :: t.take (k + 2)))
            (List.mem_append_right _ (List.mem_cons_self ..))
          rw [hd] at hl
          exact hl.resolve_left hkeep
        rw [lexFrom_flush hwhite, lexFrom_white (isWhite_of_commentOut hfeed), hlex', filter_comment, hcomment,
          if_neg hkeep]
        rfl
      · exact absurd (hall _ (List.mem_append_right _ (List.mem_cons_self ..))) hkeep

/-- A slash that starts no comment. -/
theorem handled_slash {x : Text} (hx : x.head? ≠ some '/' ∧ x.head? ≠ some '*') (ih : Handled x) {d : Bool} {r : Text}
    {L : List Lexeme} (hlex : lexFrom ⟨d, .code r⟩ ('/' :: x) = some L) (hplain : ∀ l ∈ L, Plain l) :
    Strips false false ⟨d, .code r⟩ ('/' :: x) L := by
  rw [lexFrom_slash hx] at hlex
  obtain ⟨z, hz, hlex', hsame⟩ := ih.1 _ _ _ hlex hplain
  have hhead := head_of_scan hx.1 hz
  refine ⟨'/' :: z, ?_, ?_, fun hall => by rw [hsame hall]⟩
  · rw [scan_char (by decide) (fun _ => hx), hz]
    rfl
  · rw [lexFrom_slash (by rw [hhead]; exact hx), hlex']

/-- A text up to the first character with a property. -/
theorem exists_span (p : Char → Bool) (x : Text) :
    ∃ u y, x = u ++ y ∧ (∀ c ∈ u, p c = false) ∧ ∀ c ∈ y.head?, p c = true := by
  induction x with
  | nil => exact ⟨[], [], rfl, by simp, by simp⟩
  | cons c x ih =>
    by_cases hc : p c = true
    · refine ⟨[], c :: x, rfl, by simp, fun b hb => ?_⟩
      obtain rfl := Option.some.inj hb
      exact hc
    · obtain ⟨u, y, rfl, hu, hy⟩ := ih
      refine ⟨c :: u, y, rfl, fun b hb => ?_, hy⟩
      rcases List.mem_cons.mp hb with rfl | hb
      · exact Bool.eq_false_iff.mpr hc
      · exact hu b hb

/-- An escaped identifier, or the backslash at the end of a line. -/
theorem handled_escaped {x : Text} (ih : ∀ y, y.length ≤ x.length → Handled y) {d : Bool} {r : Text} {L : List Lexeme}
    (hlex : lexFrom ⟨d, .code r⟩ ('\\' :: x) = some L) (hplain : ∀ l ∈ L, Plain l) :
    Strips false false ⟨d, .code r⟩ ('\\' :: x) L := by
  have hfirst : ∀ x, lexFrom ⟨d, .code r⟩ ('\\' :: x) = lexFrom ⟨d, .escaped r ['\\']⟩ x := by
    intro x
    have hstep : SvLexer.step ⟨d, .code r⟩ '\\' = some (⟨d, .escaped r ['\\']⟩, []) := rfl
    rw [lexFrom_cons hstep]
    cases lexFrom ⟨d, .escaped r ['\\']⟩ x <;> rfl
  rw [hfirst] at hlex
  obtain ⟨u, y, rfl, hu, hy⟩ := exists_span isWhite x
  have hquote : '"' ∉ u := by
    intro hmem
    obtain ⟨u₁, u₂, rfl, hu₁⟩ := List.eq_append_cons_of_mem hmem
    rw [List.append_assoc, lexFrom_escaped (fun c hc => hu c (List.mem_append_left _ hc)) hu₁, List.cons_append] at hlex
    rcases quote_or_escaped hlex with hbad | ⟨v, hbad⟩
    · exact hplain _ hbad
    · exact (hplain _ hbad).1 (List.mem_append_right _ (List.mem_cons_self ..))
  rw [lexFrom_escaped hu hquote] at hlex
  by_cases hnil : u = []
  · subst hnil
    obtain ⟨y, rfl⟩ := head_of_lexFrom_backslash hy hlex
    rw [List.append_nil, lexFrom_backslash] at hlex
    obtain ⟨L₁, hL₁, rfl⟩ := Option.map_eq_some_iff.mp hlex
    have hplain' : ∀ l ∈ L₁, Plain l := fun l hl => hplain l (List.mem_append_right _ hl)
    obtain ⟨z, hz, hlex', hsame⟩ := (ih y (Nat.le_succ _)).1 _ _ _ hL₁ hplain'
    refine ⟨'\\' :: '\n' :: z, ?_, ?_, fun hall => ?_⟩
    · rw [scan_char (by decide) (fun h => absurd h (by decide)), List.nil_append,
        scan_char (by decide) (fun h => absurd h (by decide)), hz]
      rfl
    · rw [hfirst, lexFrom_backslash, hlex', List.filter_append, List.filter_eq_self.mpr survives_runOf]
      rfl
    · rw [hsame fun l hl => hall l (List.mem_append_right _ hl)]
      rfl
  · have hne : ['\\'] ++ u ≠ ['\\'] := fun h => hnil (List.append_right_eq_self.mp h)
    rw [lexFrom_escapedEnd hy hne] at hlex
    obtain ⟨L₁, hL₁, rfl⟩ := Option.map_eq_some_iff.mp hlex
    have hident : Plain (.escaped (['\\'] ++ u)) := hplain _ (List.mem_append_right _ (List.mem_cons_self ..))
    have hplain' : ∀ l ∈ L₁, Plain l := fun l hl =>
      hplain l (List.mem_append_right _ (List.mem_cons_of_mem _ hl))
    have hshort : y.length ≤ (u ++ y).length := by
      rw [List.length_append]
      omega
    obtain ⟨z, hz, hlex', hsame⟩ := (ih y hshort).1 _ _ _ hL₁ hplain'
    have hopen : y.head? ≠ some '/' ∧ y.head? ≠ some '*' :=
      ⟨fun h => absurd (hy '/' h) (by decide), fun h => absurd (hy '*' h) (by decide)⟩
    have hz' : WhiteEnd z := by
      unfold WhiteEnd
      rw [head_of_scan hopen.1 hz]
      exact hy
    refine ⟨'\\' :: (u ++ z), ?_, ?_, fun hall => ?_⟩
    · have hscan := scan_plain hident.1 hident.2.1 hident.2.2 hopen false
      rw [hz] at hscan
      exact hscan
    · rw [hfirst, lexFrom_escaped hu hquote, lexFrom_escapedEnd hz' hne, hlex', List.filter_append,
        List.filter_eq_self.mpr survives_runOf]
      rfl
    · rw [hsame fun l hl => hall l (List.mem_append_right _ (List.mem_cons_of_mem _ hl))]

/-- A quotation mark, which starts a string. -/
theorem handled_quote {x : Text} (ih : Handled x) {d : Bool} {r : Text} {L : List Lexeme}
    (hlex : lexFrom ⟨d, .code r⟩ ('"' :: x) = some L) (hplain : ∀ l ∈ L, Plain l) :
    Strips false false ⟨d, .code r⟩ ('"' :: x) L := by
  obtain ⟨σ', es, L', hstep, hL', rfl⟩ := exists_step_of_lexFrom hlex
  have hstep' := hstep
  unfold SvLexer.step stepCode at hstep
  dsimp only at hstep
  rw [if_neg (by decide), if_pos rfl] at hstep
  split at hstep
  · cases hstep
    exact absurd (hplain .quote (by simp)) id
  · cases hstep
    exact Strips.step hstep' survives_runOf (scan_quote false x)
      (ih.2 _ _ _ _ hL' fun l hl => hplain l (List.mem_append_right _ hl))

/-- Another character of the code. -/
theorem handled_char {c : Char} {x : Text} (hslash : c ≠ '/') (hquote : c ≠ '"') (hback : c ≠ '\\') (ih : Handled x)
    {d : Bool} {r : Text} {L : List Lexeme} (hlex : lexFrom ⟨d, .code r⟩ (c :: x) = some L) (hplain : ∀ l ∈ L, Plain l) :
    Strips false false ⟨d, .code r⟩ (c :: x) L := by
  obtain ⟨σ', es, L', hstep, hL', rfl⟩ := exists_step_of_lexFrom hlex
  have hplain' : ∀ l ∈ L', Plain l := fun l hl => hplain l (List.mem_append_right _ hl)
  have hscan : scan false false 0 (c :: x) = (c :: ·) <$> scan false false 0 x :=
    scan_char hquote (fun h => absurd h hslash) false
  have hstep' := hstep
  unfold SvLexer.step stepCode at hstep
  dsimp only at hstep
  rw [if_neg hslash, if_neg hquote, if_neg hback] at hstep
  split at hstep
  · cases hstep
    exact Strips.step hstep' (survives_append survives_runOf survives_ended) hscan (ih.1 _ _ _ hL' hplain')
  · split at hstep
    · cases hstep
      exact Strips.step hstep' survives_runOf hscan (ih.1 _ _ _ hL' hplain')
    · cases hstep
      exact Strips.step hstep' (by simp) hscan (ih.1 _ _ _ hL' hplain')

/-- The scanner is in step with the lexer over any text. -/
theorem handled (n : Nat) (x : Text) (hn : x.length ≤ n) : Handled x := by
  induction n generalizing x with
  | zero =>
    rw [List.eq_nil_of_length_eq_zero (Nat.le_zero.mp hn)]
    exact handled_nil
  | succ n ih =>
    cases x with
    | nil => exact handled_nil
    | cons c x =>
      have hx : x.length ≤ n := Nat.le_of_succ_le_succ hn
      refine ⟨fun d r L hlex hplain => ?_, fun d s esc L hlex hplain => handled_string (ih x hx) hlex hplain⟩
      by_cases hslash : c = '/'
      · subst hslash
        by_cases hline : x.head? = some '/'
        · obtain ⟨t, rfl⟩ := List.head?_eq_some_iff.mp hline
          obtain ⟨u, y, rfl, hu, hy⟩ := exists_span (· = '\n') t
          have hfeed : '\n' ∉ u := fun h => absurd (hu '\n' h) (by decide)
          rw [List.length_cons, List.length_append] at hx
          exact handled_line hfeed (fun b hb => of_decide_eq_true (hy b hb)) (fun z hz => ih z (by omega)) hlex hplain
        · by_cases hblock : x.head? = some '*'
          · obtain ⟨t, rfl⟩ := List.head?_eq_some_iff.mp hblock
            rw [List.length_cons] at hx
            exact handled_block (fun z hz => ih z (by omega)) hlex hplain
          · exact handled_slash ⟨hline, hblock⟩ (ih x hx) hlex hplain
      · by_cases hquote : c = '"'
        · subst hquote
          exact handled_quote (ih x hx) hlex hplain
        · by_cases hback : c = '\\'
          · subst hback
            exact handled_escaped (fun z hz => ih z (by omega)) hlex hplain
          · exact handled_char hslash hquote hback (ih x hx) hlex hplain

/-- The scanner on a source text. -/
theorem strips_of_lex {x : Text} {L : List Lexeme} (hlex : lex x = some L) (hplain : ∀ l ∈ L, Plain l) :
    Strips false false ⟨false, .code []⟩ x L :=
  (handled x.length x (Nat.le_refl _)).1 _ _ _ hlex hplain

end CleanRtl

end SocRV
