import Mathlib.Algebra.Group.Nat.Defs
import SocRV.Build.CleanLines

/-!
# The cleaner preserves the program

What `strip_comments` leaves of a source text has its tokens, its kept comments and nothing more to clean, unless the
scanner misreads the source or a comment decides where a macro text ends.
-/

namespace SocRV

namespace CleanRtl

open SvLexer

/-- The text of a comment. -/
def commentOf : Lexeme → Option Text
  | .comment _ s => some s
  | _ => none

/-- The lexemes without the comments. -/
def tokens (L : List Lexeme) : List Lexeme := L.filter fun l => (commentOf l).isNone

/-- The texts of the comments. -/
def comments (L : List Lexeme) : List Text := L.filterMap commentOf

/-- A text with the tokens of a source and its kept comments, up to trailing blanks and runs of blank lines, that stays
as it is when it is cleaned. -/
structure Preserves (lexemes : List Lexeme) (result : Text) (left : List Lexeme) : Prop where
  lexed : lex result = some left
  tokens : tokens left = CleanRtl.tokens lexemes
  comments : (comments left).map tidy = ((CleanRtl.comments lexemes).filter keepComment).map tidy
  again : stripComments result = .ok result

/-- The comment of a tidied lexeme is the tidied comment. -/
theorem commentOf_tidied (l : Lexeme) : commentOf (tidied l) = (commentOf l).map tidy := by
  cases l <;> rfl

/-- Tidying leaves everything but comments. -/
theorem tidied_of_token {l : Lexeme} (h : (commentOf l).isNone = true) : tidied l = l := by
  cases l with
  | comment p s => cases h
  | _ => rfl

/-- Tidying leaves the tokens. -/
theorem tokens_tidied (L : List Lexeme) : tokens (L.map tidied) = tokens L := by
  induction L with
  | nil => rfl
  | cons l L ih =>
    unfold tokens at ih ⊢
    have hnone : (commentOf (tidied l)).isNone = (commentOf l).isNone := by rw [commentOf_tidied, Option.isNone_map]
    rw [List.map_cons, List.filter_cons, List.filter_cons, hnone, ih]
    by_cases h : (commentOf l).isNone = true
    · rw [if_pos h, if_pos h, tidied_of_token h]
    · rw [if_neg h, if_neg h]

/-- Tidying tidies each comment. -/
theorem comments_tidied (L : List Lexeme) : comments (L.map tidied) = (comments L).map tidy := by
  unfold comments
  rw [List.filterMap_map, List.map_filterMap]
  exact congrArg (List.filterMap · L) (funext commentOf_tidied)

/-- The tokens survive. -/
theorem tokens_survives (L : List Lexeme) : tokens (L.filter survives) = tokens L := by
  unfold tokens
  rw [List.filter_filter]
  exact List.filter_congr fun l _ => by cases l <;> rfl

/-- Of the comments those that are kept survive. -/
theorem comments_survives (L : List Lexeme) : comments (L.filter survives) = (comments L).filter keepComment := by
  unfold comments
  rw [List.filterMap_filter, List.filter_filterMap]
  exact congrArg (List.filterMap · L) (funext fun l => by cases l <;> rfl)

/-- Kept comments are kept again. -/
theorem survives_of_tidied {L L' : List Lexeme} (h : L'.map tidied = L.map tidied)
    (hL : ∀ l ∈ L, survives l = true ∧ Plain l) :
    ∀ l ∈ L', survives l = true ∧ Plain l := by
  intro l' hl'
  obtain ⟨l, hl, heq⟩ := mem_of_tidied h hl'
  obtain ⟨hsurvives, hplain⟩ := hL l hl
  rcases tidied_cases heq with rfl | ⟨p, s, s', rfl, rfl, hs⟩
  · exact ⟨hsurvives, hplain⟩
  · have hkeep : keepComment s' = true := by
      rw [← keepComment_tidy, hs, keepComment_tidy]
      exact hsurvives
    refine ⟨hkeep, ?_⟩
    cases p with
    | code => trivial
    | define => exact .inl hkeep
    | continued => exact hkeep

/-- `strip_comments` preserves a source text without carriage returns, as `read_text` reads it, whose lexemes the scanner
takes for what they are and in which no kept comment ends the line of a macro text with a backslash and blanks. -/
theorem strip_comments_preserves (source : Text) (lexemes : List Lexeme) (hcr : '\r' ∉ source)
    (hlex : lex source = some lexemes) (hplain : ∀ l ∈ lexemes, Plain l)
    (htame : ∀ l ∈ lexemes, survives l = true → Tame l) :
    ∃ result left, stripComments source = .ok result ∧ Preserves lexemes result left := by
  obtain ⟨z, hz, hlexz, -⟩ := strips_of_lex hlex hplain
  have hcr' : '\r' ∉ z := by
    intro hmem
    rcases mem_of_scan hz hmem with h | h
    · exact absurd h (by decide)
    · exact hcr h
  have hleft : ∀ l ∈ lexemes.filter survives, survives l = true ∧ Plain l := by
    intro l hl
    obtain ⟨hmem, hs⟩ := List.mem_filter.mp hl
    exact ⟨hs, hplain l hmem⟩
  have htame' : ∀ l ∈ lexemes.filter survives, Tame l := by
    intro l hl
    obtain ⟨hmem, hs⟩ := List.mem_filter.mp hl
    exact htame l hmem hs
  obtain ⟨left, hlexed, hmap⟩ := alike_cleaned hcr' _ _ _ (.refl _) hlexz htame'
  have hagain := survives_of_tidied hmap hleft
  obtain ⟨z', hz', -, hsame⟩ := strips_of_lex hlexed fun l hl => (hagain l hl).2
  refine ⟨cleanLines 0 (splitLinesFrom [] z), left, ?_, hlexed, ?_, ?_, ?_⟩
  · rw [stripComments, hz]
    rfl
  · rw [← tokens_tidied, hmap, tokens_tidied, tokens_survives]
  · rw [← comments_tidied, hmap, comments_tidied, comments_survives]
  · rw [stripComments, hz', hsame fun l hl => (hagain l hl).1]
    exact congrArg Except.ok (cleaned_cleaned hcr')

/-- A macro text with a one-line comment, an escaped identifier, a kept comment and a run of blank lines. -/
def macroSource : Text := "`define A 1 // one\n\\a.b \"//\" // Verilator x  \n\n\n\n\n/* y */".toList

/-- Its lexemes. -/
def macroLexemes : List Lexeme :=
  [.run "`define".toList, .run "A".toList, .run "1".toList, .comment .define "// one".toList, .endDefine,
    .escaped "\\a.b".toList, .string "\"//\"".toList, .comment .code "// Verilator x  ".toList,
    .comment .code "/* y */".toList]

theorem strip_comments_preserves_macro :
    ∃ result left, stripComments macroSource = .ok result ∧ Preserves macroLexemes result left :=
  strip_comments_preserves macroSource macroLexemes (by decide +kernel) (by decide +kernel) (by decide +kernel)
    (by decide +kernel)

/-- An escaped identifier with two slashes in it. -/
def slashSource : Text := "assign \\a//b = c;\n".toList

/-- Not every source text is preserved: the scanner takes the rest of the line for a comment. -/
theorem strip_comments_escaped : ¬ ∀ (source : Text) (lexemes : List Lexeme) (result : Text), '\r' ∉ source →
    lex source = some lexemes → stripComments source = .ok result → ∃ left, Preserves lexemes result left := by
  intro h
  obtain ⟨left, hleft⟩ := h slashSource
    [.run "assign".toList, .escaped "\\a//b".toList, .run "=".toList, .run "c;".toList] "assign \\a\n".toList
    (by decide +kernel) (by decide +kernel) (by decide +kernel)
  have hlexed : lex "assign \\a\n".toList = some [.run "assign".toList, .escaped "\\a".toList] := by decide +kernel
  obtain rfl := Option.some.inj (hlexed.symm.trans hleft.lexed)
  exact absurd hleft.tokens (by decide +kernel)

end CleanRtl

end SocRV
