import Mathlib.Algebra.Group.Nat.Defs
import SocRV.Build.CleanTidy

/-!
# Cleaning the lines

The second loop of `strip_comments` drops trailing blanks and third line feeds, and lines that it has cleaned stay as
they are.
-/

namespace SocRV

namespace CleanRtl

open SvLexer

/-! ## The lines of a text -/

/-- A text within a line. -/
def Unbroken (t : Text) : Prop := ∀ c ∈ t, isLineBreak c = false

/-- The lines of a text without carriage returns. -/
inductive Lines : List Text → Prop where
  | nil : Lines []
  | last {body : Text} (hne : body ≠ []) (h : Unbroken body) : Lines [body]
  | cons {body : Text} {c : Char} {ls : List Text} (h : Unbroken body) (hc : isLineBreak c = true) (hr : c ≠ '\r')
      (hls : Lines ls) : Lines ((body ++ [c]) :: ls)

theorem splitLinesFrom_cons {c : Char} (hr : c ≠ '\r') (line t : Text) :
    splitLinesFrom line (c :: t) =
      if isLineBreak c then (line ++ [c]) :: splitLinesFrom [] t else splitLinesFrom (line ++ [c]) t :=
  splitLinesFrom.eq_3 line c t fun _ h _ => hr h

/-- A text without carriage returns falls into lines. -/
theorem lines_of_split {t : Text} (line : Text) (ht : '\r' ∉ t) (hline : Unbroken line) :
    Lines (splitLinesFrom line t) ∧ (splitLinesFrom line t).flatten = line ++ t := by
  induction t generalizing line with
  | nil =>
    rw [splitLinesFrom]
    by_cases hnil : line.isEmpty = true
    · rw [if_pos hnil, List.isEmpty_iff.mp hnil]
      exact ⟨.nil, rfl⟩
    · rw [if_neg hnil]
      exact ⟨.last (fun h => hnil (by rw [h]; rfl)) hline, by simp⟩
  | cons c t ih =>
    rw [List.mem_cons, not_or] at ht
    rw [splitLinesFrom_cons (Ne.symm ht.1)]
    by_cases hc : isLineBreak c = true
    · obtain ⟨hls, hflat⟩ := ih [] ht.2 (by intro b hb; cases hb)
      rw [if_pos hc]
      exact ⟨.cons hline hc (Ne.symm ht.1) hls, by rw [List.flatten_cons, hflat, List.append_assoc]; rfl⟩
    · have hline' : Unbroken (line ++ [c]) := by
        intro b hb
        rcases List.mem_append.mp hb with hb | hb
        · exact hline b hb
        · rw [List.mem_singleton.mp hb]
          exact Bool.eq_false_iff.mpr hc
      obtain ⟨hls, hflat⟩ := ih (line ++ [c]) ht.2 hline'
      rw [if_neg hc]
      exact ⟨hls, by rw [hflat, List.append_assoc]; rfl⟩

/-- A text within a line has no carriage return. -/
theorem Unbroken.ne {body : Text} (h : Unbroken body) : ∀ c ∈ body, c ≠ '\r' := by
  rintro c hc rfl
  exact absurd (h '\r' hc) (by decide)

theorem splitLinesFrom_append {body : Text} (h : Unbroken body) (line t : Text) :
    splitLinesFrom line (body ++ t) = splitLinesFrom (line ++ body) t := by
  induction body generalizing line with
  | nil => rw [List.nil_append, List.append_nil]
  | cons c body ih =>
    rw [List.cons_append, splitLinesFrom_cons (h.ne c (List.mem_cons_self ..)), h c (List.mem_cons_self ..),
      if_neg Bool.false_ne_true, ih fun b hb => h b (List.mem_cons_of_mem _ hb), List.append_assoc]
    rfl

/-- Lines stay the lines of their text. -/
theorem Lines.split {ls : List Text} (h : Lines ls) : splitLinesFrom [] ls.flatten = ls := by
  induction h with
  | nil => rfl
  | @last body hne h =>
    rw [List.flatten_singleton, ← List.append_nil body, splitLinesFrom_append h, List.nil_append, splitLinesFrom,
      List.append_nil, List.isEmpty_eq_false_iff.mpr hne]
    rfl
  | @cons body c ls h hc hr hls ih =>
    rw [List.flatten_cons, List.append_assoc, splitLinesFrom_append h, List.singleton_append, splitLinesFrom_cons hr,
      if_pos hc, ih]
    rfl

/-! ## One line -/

/-- A line with a line feed is its body and the line feed. -/
theorem splitEnding_newline {body : Text} (h : Unbroken body) : splitEnding (body ++ ['\n']) = (body, ['\n']) := by
  have hcr : ['\r', '\n'].isSuffixOf (body ++ ['\n']) = false := by
    rw [← Bool.not_eq_true, List.isSuffixOf_iff_suffix]
    intro hsuf
    have hmem : '\r' ∈ body ++ ['\n'] := hsuf.subset (List.mem_cons_self ..)
    rcases List.mem_append.mp hmem with hmem | hmem
    · exact h.ne '\r' hmem rfl
    · exact absurd (List.mem_singleton.mp hmem) (by decide)
  have hlf : ['\n'].isSuffixOf (body ++ ['\n']) = true := List.isSuffixOf_iff_suffix.mpr (List.suffix_append ..)
  rw [splitEnding, hcr, if_neg Bool.false_ne_true, hlf, if_pos rfl, List.dropLast_concat]

/-- A text that ends in no line end has none. -/
theorem splitEnding_other {t : Text} (hr : '\r' ∉ t) (hn : ¬ ['\n'] <:+ t) : splitEnding t = (t, []) := by
  have hcrlf : ['\r', '\n'].isSuffixOf t = false := by
    rw [← Bool.not_eq_true, List.isSuffixOf_iff_suffix]
    exact fun h => hr (h.subset (List.mem_cons_self ..))
  have hlf : ['\n'].isSuffixOf t = false := by
    rw [← Bool.not_eq_true, List.isSuffixOf_iff_suffix]
    exact hn
  have hcr : ['\r'].isSuffixOf t = false := by
    rw [← Bool.not_eq_true, List.isSuffixOf_iff_suffix]
    exact fun h => hr (h.subset (List.mem_cons_self ..))
  rw [splitEnding, hcrlf, hlf, hcr]
  rfl

/-- A text is what is left of it and blanks. -/
theorem rstrip_append (t : Text) : ∃ w, t = rstrip t ++ w ∧ ∀ c ∈ w, isBlank c = true :=
  ⟨t.rtakeWhile isBlank, (List.rdropWhile_append_rtakeWhile ..).symm, fun _ hc => List.mem_rtakeWhile_imp hc⟩

/-- Stripping twice is stripping once. -/
theorem rstrip_rstrip (t : Text) : rstrip (rstrip t) = rstrip t := List.rdropWhile_idempotent ..

/-- A text within a line stays so when it is stripped. -/
theorem Unbroken.rstrip {t : Text} (h : Unbroken t) : Unbroken (rstrip t) :=
  fun c hc => h c ((List.rdropWhile_prefix ..).subset hc)

/-- A line that ends with a line feed. -/
theorem cleanLines_newline {body : Text} (h : Unbroken body) (n : Nat) (ls : List Text) :
    cleanLines n ((body ++ ['\n']) :: ls) =
      if CleanRtl.rstrip body ≠ [] then CleanRtl.rstrip body ++ '\n' :: cleanLines 0 ls
      else if n + 1 ≤ 2 then '\n' :: cleanLines (n + 1) ls else cleanLines (n + 1) ls := by
  rw [cleanLines, splitEnding_newline h]
  dsimp only
  by_cases hnil : CleanRtl.rstrip body = []
  · rw [hnil]
    rfl
  · rw [if_pos hnil, List.isEmpty_eq_false_iff.mpr hnil, if_pos (by rfl), List.append_assoc]
    rfl

/-- A line that ends with another line break. -/
theorem cleanLines_other {body : Text} {c : Char} (h : Unbroken body) (hc : isLineBreak c = true) (hr : c ≠ '\r')
    (hn : c ≠ '\n') (n : Nat) (ls : List Text) :
    cleanLines n ((body ++ [c]) :: ls) = body ++ [c] ++ cleanLines 0 ls := by
  have hcr : '\r' ∉ body ++ [c] := by
    intro hmem
    rcases List.mem_append.mp hmem with hmem | hmem
    · exact h.ne '\r' hmem rfl
    · exact hr (List.mem_singleton.mp hmem).symm
  have hlf : ¬ ['\n'] <:+ body ++ [c] := by
    rintro ⟨u, hu⟩
    exact hn (List.cons.inj (List.append_inj_right' hu rfl)).1.symm
  have hblank : ¬ isBlank c = true := by
    intro hb
    rcases cases_of_isBlank hb with rfl | rfl <;> exact absurd hc (by decide)
  have hstrip : CleanRtl.rstrip (body ++ [c]) = body ++ [c] := List.rdropWhile_concat_neg _ _ _ hblank
  have hne : (body ++ [c]).isEmpty = false := List.isEmpty_eq_false_iff.mpr (by simp)
  rw [cleanLines, splitEnding_other hcr hlf]
  dsimp only
  rw [hstrip, hne, if_pos (by rfl), List.append_nil]

/-- A last line without an ending. -/
theorem cleanLines_last {body : Text} (h : Unbroken body) (n : Nat) : cleanLines n [body] = CleanRtl.rstrip body := by
  have hcr : '\r' ∉ body := fun hmem => h.ne '\r' hmem rfl
  have hlf : ¬ ['\n'] <:+ body := by
    intro hsuf
    exact absurd (h '\n' (hsuf.subset (List.mem_cons_self ..))) (by decide)
  rw [cleanLines, splitEnding_other hcr hlf]
  dsimp only
  by_cases hnil : CleanRtl.rstrip body = []
  · rw [hnil]
    cases n with
    | zero => rfl
    | succ n => cases n <;> rfl
  · rw [List.isEmpty_eq_false_iff.mpr hnil, if_pos (by rfl), cleanLines, List.append_nil, List.append_nil]

/-! ## The cleaned text in front of the lexer -/

/-- Blanks in front of a line feed do not matter. -/
theorem alike_blanks {w : Text} (hw : ∀ c ∈ w, isBlank c = true) (t : Text) : Alike (w ++ '\n' :: t) ('\n' :: t) := by
  induction w with
  | nil => exact Alike.refl _
  | cons b w ih =>
    have hrest := (ih fun c hc => hw c (List.mem_cons_of_mem _ hc)).cons b
    exact hrest.trans (alike_trailing (hw b (List.mem_cons_self ..)) t)

/-- Blanks at the end of the text do not matter. -/
theorem alike_blanks_last {w : Text} (hw : ∀ c ∈ w, isBlank c = true) : Alike w [] := by
  induction w with
  | nil => exact Alike.refl _
  | cons b w ih =>
    have hrest := (ih fun c hc => hw c (List.mem_cons_of_mem _ hc)).cons b
    exact hrest.trans (alike_last (hw b (List.mem_cons_self ..)))

/-- Line feeds behind which a run of blank lines has the given length, as far as it matters. -/
def feeds (n : Nat) : Text := List.replicate (min n 2) '\n'

/-- From two blank lines on the line feeds stay at two. -/
theorem feeds_add_two (n : Nat) : feeds (n + 2) = ['\n', '\n'] := by
  rw [feeds, Nat.min_eq_right (Nat.le_add_left ..)]
  rfl

/-- The lexer reads the cleaned lines as it reads the lines. -/
theorem alike_cleanLines {ls : List Text} (h : Lines ls) (n : Nat) :
    Alike (feeds n ++ ls.flatten) (feeds n ++ cleanLines n ls) := by
  induction h generalizing n with
  | nil => exact Alike.refl _
  | @last body hne h =>
    obtain ⟨w, hbody, hw⟩ := rstrip_append body
    rw [cleanLines_last h, List.flatten_singleton]
    have hlast := (alike_blanks_last hw).append (CleanRtl.rstrip body)
    rw [← hbody, List.append_nil] at hlast
    exact hlast.append _
  | @cons body c ls h hc hr hls ih =>
    by_cases hn : c = '\n'
    · subst hn
      obtain ⟨w, hbody, hw⟩ := rstrip_append body
      have hstrip : Alike ((body ++ ['\n']) ++ ls.flatten) (CleanRtl.rstrip body ++ '\n' :: ls.flatten) := by
        have hblanks := (alike_blanks hw ls.flatten).append (CleanRtl.rstrip body)
        rw [← List.append_assoc, ← hbody] at hblanks
        rwa [List.append_assoc]
      rw [List.flatten_cons, cleanLines_newline h]
      refine (hstrip.append (feeds n)).trans ?_
      by_cases hnil : CleanRtl.rstrip body = []
      · rw [hnil, if_neg fun h => h rfl, List.nil_append]
        cases n with
        | zero => exact ih 1
        | succ n =>
          cases n with
          | zero => exact ih 2
          | succ n =>
            have hdrop := ih (n + 3)
            rw [feeds_add_two] at hdrop
            rw [feeds_add_two, if_neg (by omega)]
            exact (alike_blankLine ls.flatten).trans hdrop
      · rw [if_pos hnil]
        exact (((ih 0).cons '\n').append (CleanRtl.rstrip body)).append (feeds n)
    · rw [cleanLines_other h hc hr hn, List.flatten_cons]
      exact ((ih 0).append (body ++ [c])).append (feeds n)

/-! ## Cleaning twice -/

/-- From two blank lines on the cleaner does not count further. -/
theorem cleanLines_add_two (m n : Nat) (ls : List Text) : cleanLines (m + 2) ls = cleanLines (n + 2) ls := by
  induction ls generalizing m n with
  | nil => rfl
  | cons line ls ih =>
    have hm : ¬ m + 2 + 1 ≤ 2 := by omega
    have hn : ¬ n + 2 + 1 ≤ 2 := by omega
    rw [cleanLines, cleanLines, if_neg hm, if_neg hn, ih (m + 1) (n + 1)]

/-- The cleaned text falls into lines that are clean. -/
theorem Lines.cleaned {ls : List Text} (h : Lines ls) (n : Nat) :
    ∃ ls', Lines ls' ∧ ls'.flatten = cleanLines n ls ∧ cleanLines n ls' = cleanLines n ls := by
  induction h generalizing n with
  | nil => exact ⟨[], .nil, rfl, rfl⟩
  | @last body hne h =>
    rw [cleanLines_last h]
    by_cases hnil : CleanRtl.rstrip body = []
    · rw [hnil]
      exact ⟨[], .nil, rfl, rfl⟩
    · refine ⟨[CleanRtl.rstrip body], .last hnil h.rstrip, List.flatten_singleton .., ?_⟩
      rw [cleanLines_last h.rstrip, rstrip_rstrip]
  | @cons body c ls h hc hr hls ih =>
    by_cases hn : c = '\n'
    · subst hn
      rw [cleanLines_newline h]
      by_cases hnil : CleanRtl.rstrip body = []
      · rw [hnil, if_neg fun h => h rfl]
        obtain ⟨ls', hls', hflat, hsame⟩ := ih (n + 1)
        by_cases hrun : n + 1 ≤ 2
        · rw [if_pos hrun]
          have hempty : Unbroken [] := by intro b hb; cases hb
          refine ⟨['\n'] :: ls', .cons hempty hc hr hls', by rw [List.flatten_cons, hflat]; rfl, ?_⟩
          have hclean := cleanLines_newline hempty n ls'
          rw [if_pos hrun, hsame] at hclean
          exact hclean
        · rw [if_neg hrun]
          refine ⟨ls', hls', hflat, ?_⟩
          obtain ⟨m, rfl⟩ : ∃ m, n = m + 2 := ⟨n - 2, by omega⟩
          rw [cleanLines_add_two m (m + 1), hsame]
      · rw [if_pos hnil]
        obtain ⟨ls', hls', hflat, hsame⟩ := ih 0
        refine ⟨(CleanRtl.rstrip body ++ ['\n']) :: ls', .cons h.rstrip hc hr hls', ?_, ?_⟩
        · rw [List.flatten_cons, hflat, List.append_assoc]
          rfl
        · rw [cleanLines_newline h.rstrip, rstrip_rstrip, if_pos hnil, hsame]
    · rw [cleanLines_other h hc hr hn]
      obtain ⟨ls', hls', hflat, hsame⟩ := ih 0
      refine ⟨(body ++ [c]) :: ls', .cons h hc hr hls', by rw [List.flatten_cons, hflat], ?_⟩
      rw [cleanLines_other h hc hr hn, hsame]

/-- The second loop on a text without carriage returns. -/
theorem alike_cleaned {z : Text} (hz : '\r' ∉ z) : Alike z (cleanLines 0 (splitLinesFrom [] z)) := by
  obtain ⟨hls, hflat⟩ := lines_of_split [] hz (by intro b hb; cases hb)
  have h := alike_cleanLines hls 0
  rw [hflat] at h
  exact h

/-- A text that was cleaned is clean. -/
theorem cleaned_cleaned {z : Text} (hz : '\r' ∉ z) :
    cleanLines 0 (splitLinesFrom [] (cleanLines 0 (splitLinesFrom [] z))) = cleanLines 0 (splitLinesFrom [] z) := by
  obtain ⟨hls, -⟩ := lines_of_split [] hz (by intro b hb; cases hb)
  obtain ⟨ls', hls', hflat, hsame⟩ := hls.cleaned 0
  rw [← hflat, hls'.split, hsame]
  exact hflat.symm

end CleanRtl

end SocRV
