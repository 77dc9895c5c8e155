import Mathlib.Algebra.Group.Nat.Defs
import SocRV.Lib.HexText

/-!
# Lexemes of SystemVerilog

A source text falls into white space, comments, string literals, escaped identifiers and the runs of other characters
between them.  How a run falls into plain identifiers, numbers, operators and directives depends on the run alone.  The
text of a macro ends with its line, unless a backslash stands in front of the line feed.
-/

namespace SocRV

namespace SvLexer

/-- Where a comment stands: outside of a macro text or at the end of the source text, in a macro text, or in a macro
text that goes on after it because the comment is a one-line comment that ends with a backslash. -/
inductive Place where
  | code
  | define
  | continued
  deriving DecidableEq, Repr

/-- What a source text is made of: runs, string literals, escaped identifiers, macro quotes, comments, and the ends of
the macro texts. -/
inductive Lexeme where
  | run (s : Text)
  | string (s : Text)
  | escaped (s : Text)
  | quote
  | comment (place : Place) (s : Text)
  | endDefine
  deriving DecidableEq, Repr

/-- What has been read of the lexeme that is being read.  A run may be followed by the start of a comment or, as in a
macro quote, by a backslash. -/
inductive Mode where
  | code (r : Text)
  | slash (r : Text)
  | escaped (r s : Text)
  | string (s : Text) (esc : Bool)
  | line (s : Text)
  | block (s : Text) (star : Bool)
  deriving DecidableEq, Repr

/-- The lexer, which is in a macro text or not. -/
structure State where
  define : Bool
  mode : Mode
  deriving DecidableEq, Repr

/-- White space. -/
def isWhite (c : Char) : Bool := [' ', '\t', '\n', '\r', '\x0c'].contains c

/-- The run that has been read, if there is one. -/
def runOf (r : Text) : List Lexeme := if r.isEmpty then [] else [.run r]

/-- Whether what follows a run belongs to a macro text. -/
def defines (d : Bool) (r : Text) : Bool := d || "`define".toList.isSuffixOf r

/-- The end of a macro text, in a macro text. -/
def ended (d : Bool) : List Lexeme := if d then [.endDefine] else []

/-- The next state at a character behind a run, and the lexemes that are complete. -/
def stepCode (d : Bool) (r : Text) (c : Char) : State × List Lexeme :=
  if c = '/' then (⟨d, .slash r⟩, [])
  else if c = '"' then
    if ['`'].isSuffixOf r then (⟨defines d r.dropLast, .code []⟩, runOf r.dropLast ++ [.quote])
    else (⟨defines d r, .string ['"'] false⟩, runOf r)
  else if c = '\\' then (⟨d, .escaped r ['\\']⟩, [])
  else if c = '\n' then (⟨false, .code []⟩, runOf r ++ ended (defines d r))
  else if isWhite c then (⟨defines d r, .code []⟩, runOf r)
  else (⟨d, .code (r ++ [c])⟩, [])

/-- The same behind a backslash; the characters from it on are `s`. -/
def stepEscaped (d : Bool) (r s : Text) (c : Char) : Option (State × List Lexeme) :=
  if isWhite c then
    if s = ['\\'] then if c = '\n' then some (⟨defines d r, .code []⟩, runOf r) else none
    else some ((stepCode (defines d r) [] c).1, runOf r ++ .escaped s :: (stepCode (defines d r) [] c).2)
  else if c = '"' ∧ s = ['\\', '`'] ∧ ['`'].isSuffixOf r then
    some (⟨defines d r.dropLast, .code []⟩, runOf r.dropLast ++ [.quote])
  else some (⟨d, .escaped r (s ++ [c])⟩, [])

/-- Where a comment stands that is not the last of the text. -/
def placeOf (d : Bool) : Place := if d then .define else .code

/-- The next state at a character, and the lexemes that are complete; the text is not well formed otherwise. -/
def step (σ : State) (c : Char) : Option (State × List Lexeme) :=
  match σ.mode with
  | .code r => some (stepCode σ.define r c)
  | .slash r =>
    if c = '/' then some (⟨defines σ.define r, .line ['/', '/']⟩, runOf r)
    else if c = '*' then some (⟨defines σ.define r, .block ['/', '*'] false⟩, runOf r)
    else some (stepCode σ.define (r ++ ['/']) c)
  | .escaped r s => stepEscaped σ.define r s c
  | .string s esc =>
    if esc then some (⟨σ.define, .string (s ++ [c]) false⟩, [])
    else if c = '\n' then none
    else if c = '"' then some (⟨σ.define, .code []⟩, [.string (s ++ [c])])
    else some (⟨σ.define, .string (s ++ [c]) (c = '\\')⟩, [])
  | .line s =>
    if c ≠ '\n' then some (⟨σ.define, .line (s ++ [c])⟩, [])
    else if σ.define && ['\\'].isSuffixOf s then some (⟨true, .code []⟩, [.comment .continued s])
    else some (⟨false, .code []⟩, .comment (placeOf σ.define) s :: ended σ.define)
  | .block s star =>
    if star && c = '/' then some (⟨σ.define, .code []⟩, [.comment (placeOf σ.define) (s ++ [c])])
    else some (⟨σ.define, .block (s ++ [c]) (c = '*')⟩, [])

/-- The lexemes that the end of the text completes. -/
def finish (σ : State) : Option (List Lexeme) :=
  match σ.mode with
  | .code r => some (runOf r ++ ended (defines σ.define r))
  | .slash r => some (runOf (r ++ ['/']) ++ ended (defines σ.define (r ++ ['/'])))
  | .escaped r s => if s = ['\\'] then none else some (runOf r ++ .escaped s :: ended (defines σ.define r))
  | .string .. => none
  | .line s => some (.comment .code s :: ended σ.define)
  | .block .. => none

/-- The lexemes of a text, from a state on. -/
def lexFrom (σ : State) : Text → Option (List Lexeme)
  | [] => finish σ
  | c :: t => (step σ c).bind fun p => (lexFrom p.1 t).map (p.2 ++ ·)

/-- The lexemes of a source text, when it is well formed. -/
def lex (t : Text) : Option (List Lexeme) := lexFrom ⟨false, .code []⟩ t

theorem lexFrom_cons {σ σ' : State} {c : Char} {es : List Lexeme} (h : step σ c = some (σ', es)) (t : Text) :
    lexFrom σ (c :: t) = (lexFrom σ' t).map (es ++ ·) := by
  rw [lexFrom, h, Option.bind_some]

/-- A text that is lexed has a step at its first character. -/
theorem exists_step_of_lexFrom {σ : State} {c : Char} {t : Text} {L : List Lexeme} (h : lexFrom σ (c :: t) = some L) :
    ∃ σ' es L', step σ c = some (σ', es) ∧ lexFrom σ' t = some L' ∧ L = es ++ L' := by
  rw [lexFrom, Option.bind_eq_some_iff] at h
  obtain ⟨⟨σ', es⟩, hstep, h⟩ := h
  obtain ⟨L', hL', rfl⟩ := Option.map_eq_some_iff.mp h
  exact ⟨σ', es, L', hstep, hL', rfl⟩

/-- The rest of a text behind a run or an escaped identifier: it is empty or starts with white space. -/
def WhiteEnd (y : Text) : Prop := ∀ c ∈ y.head?, isWhite c = true

/-! ## One-line comments -/

/-- The rest of a text behind a line: it is empty or starts with a line feed. -/
def LineEnd (y : Text) : Prop := ∀ c ∈ y.head?, c = '\n'

/-- In a line comment everything up to the line feed is read as part of it. -/
theorem lexFrom_line {t : Text} (ht : '\n' ∉ t) (d : Bool) (s y : Text) :
    lexFrom ⟨d, .line s⟩ (t ++ y) = lexFrom ⟨d, .line (s ++ t)⟩ y := by
  induction t generalizing s with
  | nil => rw [List.nil_append, List.append_nil]
  | cons c t ih =>
    rw [List.mem_cons, not_or] at ht
    have hstep : step ⟨d, .line s⟩ c = some (⟨d, .line (s ++ [c])⟩, []) := if_pos (Ne.symm ht.1)
    rw [List.cons_append, lexFrom_cons hstep, ih ht.2, List.append_assoc, List.singleton_append]
    cases lexFrom ⟨d, .line (s ++ c :: t)⟩ y <;> rfl

/-- Behind a one-line comment that does not continue a macro text the lexer reads on as behind any code. -/
theorem lexFrom_lineEnd {d : Bool} {s y : Text} (hy : LineEnd y) (hs : y ≠ [] → d = true → ¬ ['\\'] <:+ s) :
    lexFrom ⟨d, .line s⟩ y =
      (lexFrom ⟨d, .code []⟩ y).map (.comment (if y.isEmpty then .code else placeOf d) s :: ·) := by
  cases y with
  | nil => cases d <;> rfl
  | cons c y =>
    obtain rfl := hy c rfl
    have hnot : (d && ['\\'].isSuffixOf s) = false := by
      rw [← Bool.not_eq_true, Bool.and_eq_true, List.isSuffixOf_iff_suffix]
      exact fun h => hs (by simp) h.1 h.2
    have hstep : step ⟨d, .line s⟩ '\n' = some (⟨false, .code []⟩, .comment (placeOf d) s :: ended d) := by
      unfold step
      dsimp only
      rw [if_neg (by decide), hnot]
      rfl
    have hcode : step ⟨d, .code []⟩ '\n' = some (⟨false, .code []⟩, ended d) := by
      cases d <;> rfl
    rw [lexFrom_cons hstep, lexFrom_cons hcode, Option.map_map]
    rfl

/-- A one-line comment with a backslash at its end continues a macro text. -/
theorem lexFrom_continued {s y : Text} (hs : ['\\'] <:+ s) :
    lexFrom ⟨true, .line s⟩ ('\n' :: y) = (lexFrom ⟨true, .code []⟩ y).map (.comment .continued s :: ·) := by
  have hstep : step ⟨true, .line s⟩ '\n' = some (⟨true, .code []⟩, [.comment .continued s]) := by
    unfold step
    dsimp only
    rw [if_neg (by decide), Bool.true_and, if_pos (List.isSuffixOf_iff_suffix.mpr hs)]
  rw [lexFrom_cons hstep]
  rfl

/-! ## Behind code -/

theorem defines_nil (d : Bool) : defines d [] = d := Bool.or_false d

/-- White space is no slash, quote or backslash. -/
theorem ne_of_isWhite {c : Char} (h : isWhite c = true) : c ≠ '/' ∧ c ≠ '"' ∧ c ≠ '\\' := by
  refine ⟨?_, ?_, ?_⟩ <;> rintro rfl <;> exact absurd h (by decide)

/-- White space completes a run. -/
theorem lexFrom_flush {y : Text} (hy : WhiteEnd y) (d : Bool) (r : Text) :
    lexFrom ⟨d, .code r⟩ y = (lexFrom ⟨defines d r, .code []⟩ y).map (runOf r ++ ·) := by
  cases y with
  | nil =>
    rw [lexFrom, lexFrom, finish, finish]
    dsimp only
    rw [defines_nil]
    rfl
  | cons c y =>
    have hwhite := hy c rfl
    obtain ⟨hslash, hquote, hback⟩ := ne_of_isWhite hwhite
    by_cases hc : c = '\n'
    · subst hc
      have hstep : ∀ d r, step ⟨d, .code r⟩ '\n' = some (⟨false, .code []⟩, runOf r ++ ended (defines d r)) :=
        fun _ _ => rfl
      rw [lexFrom_cons (hstep d r), lexFrom_cons (hstep (defines d r) []), defines_nil, Option.map_map]
      congr 1
      funext L
      exact List.append_assoc ..
    · have hstep : ∀ d r, step ⟨d, .code r⟩ c = some (⟨defines d r, .code []⟩, runOf r) := by
        intro d r
        unfold step stepCode
        dsimp only
        rw [if_neg hslash, if_neg hquote, if_neg hback, if_neg hc, if_pos hwhite]
      rw [lexFrom_cons (hstep d r), lexFrom_cons (hstep (defines d r) []), defines_nil, Option.map_map]
      rfl

/-- White space between lexemes. -/
theorem lexFrom_white {w : Text} {d : Bool} (hw : ∀ c ∈ w, isWhite c = true ∧ (d = true → c ≠ '\n')) (y : Text) :
    lexFrom ⟨d, .code []⟩ (w ++ y) = lexFrom ⟨d, .code []⟩ y := by
  induction w with
  | nil => rfl
  | cons c w ih =>
    obtain ⟨hwhite, hnewline⟩ := hw c (List.mem_cons_self ..)
    obtain ⟨hslash, hquote, hback⟩ := ne_of_isWhite hwhite
    have hstep : step ⟨d, .code []⟩ c = some (⟨d, .code []⟩, []) := by
      unfold step stepCode
      dsimp only
      rw [if_neg hslash, if_neg hquote, if_neg hback, defines_nil]
      split
      · rename_i hc
        cases d with
        | false => rfl
        | true => exact absurd hc (hnewline rfl)
      · rfl
    rw [List.cons_append, lexFrom_cons hstep, ih fun b hb => hw b (List.mem_cons_of_mem _ hb)]
    cases lexFrom ⟨d, .code []⟩ y <;> rfl

/-- A slash that starts no comment belongs to the run. -/
theorem lexFrom_slashed {y : Text} (hy : y.head? ≠ some '/' ∧ y.head? ≠ some '*') (d : Bool) (r : Text) :
    lexFrom ⟨d, .slash r⟩ y = lexFrom ⟨d, .code (r ++ ['/'])⟩ y := by
  cases y with
  | nil => rfl
  | cons c y =>
    have hslash : c ≠ '/' := fun h => hy.1 (by rw [h]; rfl)
    have hstar : c ≠ '*' := fun h => hy.2 (by rw [h]; rfl)
    have hsame : step ⟨d, .slash r⟩ c = step ⟨d, .code (r ++ ['/'])⟩ c := by
      unfold step
      dsimp only
      rw [if_neg hslash, if_neg hstar]
    rw [lexFrom, lexFrom, hsame]

/-- A slash that starts no comment belongs to its run. -/
theorem lexFrom_slash {y : Text} (hy : y.head? ≠ some '/' ∧ y.head? ≠ some '*') (d : Bool) (r : Text) :
    lexFrom ⟨d, .code r⟩ ('/' :: y) = lexFrom ⟨d, .code (r ++ ['/'])⟩ y := by
  have hstep : step ⟨d, .code r⟩ '/' = some (⟨d, .slash r⟩, []) := rfl
  rw [lexFrom_cons hstep, lexFrom_slashed hy]
  cases lexFrom ⟨d, .code (r ++ ['/'])⟩ y <;> rfl

/-- A second line feed in a row. -/
theorem lexFrom_newlines (d : Bool) (y : Text) :
    lexFrom ⟨d, .code []⟩ ('\n' :: '\n' :: y) = lexFrom ⟨d, .code []⟩ ('\n' :: y) := by
  have hstep : step ⟨d, .code []⟩ '\n' = some (⟨false, .code []⟩, ended (defines d [])) := rfl
  have hwhite : lexFrom ⟨false, .code []⟩ (['\n'] ++ y) = lexFrom ⟨false, .code []⟩ y :=
    lexFrom_white (fun c hc => by rw [List.mem_singleton.mp hc]; decide) y
  rw [lexFrom_cons hstep, lexFrom_cons hstep]
  exact congrArg _ hwhite

/-- A one-line comment behind code. -/
theorem lexFrom_codeLine {u : Text} (hu : '\n' ∉ u) (d : Bool) (r y : Text) :
    lexFrom ⟨d, .code r⟩ ('/' :: '/' :: (u ++ y)) =
      (lexFrom ⟨defines d r, .line ('/' :: '/' :: u)⟩ y).map (runOf r ++ ·) := by
  have hfirst : step ⟨d, .code r⟩ '/' = some (⟨d, .slash r⟩, []) := rfl
  have hsecond : step ⟨d, .slash r⟩ '/' = some (⟨defines d r, .line ['/', '/']⟩, runOf r) := rfl
  rw [lexFrom_cons hfirst, lexFrom_cons hsecond, lexFrom_line hu, Option.map_map]
  rfl

/-- A block comment behind code. -/
theorem lexFrom_codeBlock (d : Bool) (r t : Text) :
    lexFrom ⟨d, .code r⟩ ('/' :: '*' :: t) =
      (lexFrom ⟨defines d r, .block ['/', '*'] false⟩ t).map (runOf r ++ ·) := by
  have hfirst : step ⟨d, .code r⟩ '/' = some (⟨d, .slash r⟩, []) := rfl
  have hsecond : step ⟨d, .slash r⟩ '*' = some (⟨defines d r, .block ['/', '*'] false⟩, runOf r) := rfl
  rw [lexFrom_cons hfirst, lexFrom_cons hsecond, Option.map_map]
  rfl

/-! ## Escaped identifiers -/

/-- An escaped identifier goes on with anything but white space and quotes. -/
theorem step_escaped {d : Bool} {r s : Text} {c : Char} (hwhite : isWhite c = false) (hquote : c ≠ '"') :
    step ⟨d, .escaped r s⟩ c = some (⟨d, .escaped r (s ++ [c])⟩, []) := by
  unfold step stepEscaped
  dsimp only
  rw [hwhite, if_neg Bool.false_ne_true, if_neg fun h => hquote h.1]

/-- In an escaped identifier everything up to the white space is read as part of it. -/
theorem lexFrom_escaped {t : Text} (hwhite : ∀ c ∈ t, isWhite c = false) (hquote : '"' ∉ t) (d : Bool) (r s y : Text) :
    lexFrom ⟨d, .escaped r s⟩ (t ++ y) = lexFrom ⟨d, .escaped r (s ++ t)⟩ y := by
  induction t generalizing s with
  | nil => rw [List.nil_append, List.append_nil]
  | cons c t ih =>
    rw [List.mem_cons, not_or] at hquote
    have hstep := step_escaped (d := d) (r := r) (s := s) (hwhite c (List.mem_cons_self ..)) (Ne.symm hquote.1)
    rw [List.cons_append, lexFrom_cons hstep, ih (fun b hb => hwhite b (List.mem_cons_of_mem _ hb)) hquote.2,
      List.append_assoc, List.singleton_append]
    cases lexFrom ⟨d, .escaped r (s ++ c :: t)⟩ y <;> rfl

/-- Behind an escaped identifier the lexer reads on as behind any code. -/
theorem lexFrom_escapedEnd {d : Bool} {r s y : Text} (hy : WhiteEnd y) (hs : s ≠ ['\\']) :
    lexFrom ⟨d, .escaped r s⟩ y = (lexFrom ⟨defines d r, .code []⟩ y).map (runOf r ++ .escaped s :: ·) := by
  cases y with
  | nil =>
    have hfinish : finish ⟨d, .escaped r s⟩ = some (runOf r ++ .escaped s :: ended (defines d r)) := if_neg hs
    have hcode : finish ⟨defines d r, .code []⟩ = some (ended (defines d r)) := by
      cases hd : defines d r <;> rfl
    rw [lexFrom, lexFrom, hfinish, hcode]
    rfl
  | cons c y =>
    have hstep : step ⟨d, .escaped r s⟩ c =
        some ((stepCode (defines d r) [] c).1, runOf r ++ .escaped s :: (stepCode (defines d r) [] c).2) := by
      unfold step stepEscaped
      dsimp only
      rw [hy c rfl, if_pos rfl, if_neg hs]
    have hcode : step ⟨defines d r, .code []⟩ c =
        some ((stepCode (defines d r) [] c).1, (stepCode (defines d r) [] c).2) := rfl
    rw [lexFrom_cons hstep, lexFrom_cons hcode, Option.map_map]
    congr 1
    funext L
    rw [List.append_assoc, List.cons_append]
    rfl

/-- A backslash at the end of a line is no identifier. -/
theorem lexFrom_backslash (d : Bool) (r y : Text) :
    lexFrom ⟨d, .escaped r ['\\']⟩ ('\n' :: y) = (lexFrom ⟨defines d r, .code []⟩ y).map (runOf r ++ ·) := by
  have hstep : step ⟨d, .escaped r ['\\']⟩ '\n' = some (⟨defines d r, .code []⟩, runOf r) := rfl
  rw [lexFrom_cons hstep]

/-- A backslash in front of other white space is no lexeme. -/
theorem head_of_lexFrom_backslash {d : Bool} {r y : Text} {L : List Lexeme} (hy : WhiteEnd y)
    (h : lexFrom ⟨d, .escaped r ['\\']⟩ y = some L) : ∃ y', y = '\n' :: y' := by
  cases y with
  | nil => cases h
  | cons c y =>
    by_cases hc : c = '\n'
    · exact ⟨y, by rw [hc]⟩
    · have hstep : step ⟨d, .escaped r ['\\']⟩ c = none := by
        unfold step stepEscaped
        dsimp only
        rw [hy c rfl, if_pos rfl, if_pos rfl, if_neg hc]
      rw [lexFrom, hstep] at h
      cases h

/-- An escaped identifier with a quote in it is a lexeme of the text. -/
theorem mem_of_lexFrom_escaped {d : Bool} {r s t : Text} {L : List Lexeme} (hs : '"' ∈ s)
    (h : lexFrom ⟨d, .escaped r s⟩ t = some L) : ∃ u, .escaped (s ++ u) ∈ L := by
  induction t generalizing s L with
  | nil =>
    rw [lexFrom, finish] at h
    dsimp only at h
    split at h
    · cases h
    · cases h
      exact ⟨[], by simp⟩
  | cons c t ih =>
    obtain ⟨σ', es, L', hstep, hL', rfl⟩ := exists_step_of_lexFrom h
    unfold step stepEscaped at hstep
    dsimp only at hstep
    split at hstep
    · split at hstep
      · rename_i heq
        exact absurd hs (by rw [heq]; decide)
      · cases hstep
        exact ⟨[], by simp⟩
    · split at hstep
      · rename_i heq
        exact absurd hs (by rw [heq.2.1]; decide)
      · cases hstep
        obtain ⟨u, hu⟩ := ih (List.mem_append_left _ hs) hL'
        exact ⟨c :: u, by simpa using hu⟩

/-- A quotation mark behind a backslash is part of an escaped identifier or of a macro quote. -/
theorem quote_or_escaped {d : Bool} {r s t : Text} {L : List Lexeme}
    (h : lexFrom ⟨d, .escaped r s⟩ ('"' :: t) = some L) : .quote ∈ L ∨ ∃ u, .escaped (s ++ '"' :: u) ∈ L := by
  obtain ⟨σ', es, L', hstep, hL', rfl⟩ := exists_step_of_lexFrom h
  unfold step stepEscaped at hstep
  dsimp only at hstep
  rw [if_neg (by decide)] at hstep
  split at hstep
  · cases hstep
    exact .inl (by simp)
  · cases hstep
    obtain ⟨u, hu⟩ := mem_of_lexFrom_escaped (List.mem_append_right _ (List.mem_singleton.mpr rfl)) hL'
    exact .inr ⟨u, by simpa using hu⟩

/-! ## String literals -/

/-- A string is not closed by a line feed. -/
theorem lexFrom_string_newline (d : Bool) (s y : Text) : lexFrom ⟨d, .string s false⟩ ('\n' :: y) = none := by
  have hstep : step ⟨d, .string s false⟩ '\n' = none := rfl
  rw [lexFrom, hstep]
  rfl

/-- A character of a string literal that neither ends it nor starts an escape. -/
theorem lexFrom_string_cons {c : Char} (hfeed : c ≠ '\n') (hquote : c ≠ '"') (hback : c ≠ '\\') (d : Bool) (s : Text)
    (esc : Bool) (y : Text) :
    lexFrom ⟨d, .string s esc⟩ (c :: y) = lexFrom ⟨d, .string (s ++ [c]) false⟩ y := by
  have hstep : step ⟨d, .string s esc⟩ c = some (⟨d, .string (s ++ [c]) false⟩, []) := by
    unfold step
    dsimp only
    rw [if_neg hfeed, if_neg hquote, decide_eq_false hback, ite_self]
  rw [lexFrom_cons hstep]
  cases lexFrom ⟨d, .string (s ++ [c]) false⟩ y <;> rfl

end SvLexer

end SocRV
