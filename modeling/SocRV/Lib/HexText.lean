import Mathlib.Algebra.Group.Nat.Defs
import Mathlib.Data.List.Basic
import Mathlib.Tactic.Common

/-!
# Numbers as lines of text

Text files of hexadecimal numbers, one a line: how a number is written in a field of a given width and read back, and
how a text falls into lines.  Bytes are joined to numbers with the low byte first.
-/

namespace SocRV

/-- The characters of a text file. -/
abbrev Text := List Char

/-! ## Bytes and numbers -/

/-- The number whose little-endian bytes are given. -/
def fromLittle : List (BitVec 8) → Nat
  | [] => 0
  | b :: bs => b.toNat + 256 * fromLittle bs

/-- The low `n` bytes of a number, low byte first. -/
def toLittle : Nat → Nat → List (BitVec 8)
  | 0, _ => []
  | n + 1, v => BitVec.ofNat 8 v :: toLittle n (v / 256)

theorem fromLittle_lt (bs : List (BitVec 8)) : fromLittle bs < 256 ^ bs.length := by
  induction bs with
  | nil => simp [fromLittle]
  | cons b bs ih =>
    have hb := b.isLt
    rw [fromLittle, List.length_cons, Nat.pow_succ]
    omega

/-- The bytes of a number are those it was joined of. -/
theorem toLittle_fromLittle (bs : List (BitVec 8)) : toLittle bs.length (fromLittle bs) = bs := by
  induction bs with
  | nil => rfl
  | cons b bs ih =>
    have hb := b.isLt
    have hlow : BitVec.ofNat 8 (b.toNat + 256 * fromLittle bs) = b := by
      apply BitVec.eq_of_toNat_eq
      rw [BitVec.toNat_ofNat]
      omega
    have hhigh : (b.toNat + 256 * fromLittle bs) / 256 = fromLittle bs := by omega
    rw [List.length_cons, fromLittle, toLittle, hlow, hhigh, ih]

/-- Byte `j` of a number. -/
theorem fromLittle_div {bs : List (BitVec 8)} {j : Nat} (hj : j < bs.length) :
    fromLittle bs / 256 ^ j % 256 = bs[j].toNat := by
  induction bs generalizing j with
  | nil => cases hj
  | cons b bs ih =>
    have hb := b.isLt
    cases j with
    | zero =>
      rw [fromLittle, Nat.pow_zero, Nat.div_one, List.getElem_cons_zero]
      omega
    | succ j =>
      have hhigh : (b.toNat + 256 * fromLittle bs) / 256 = fromLittle bs := by omega
      rw [fromLittle, Nat.pow_succ', ← Nat.div_div_eq_div_mul, hhigh, List.getElem_cons_succ]
      exact ih (Nat.lt_of_succ_lt_succ hj)

/-- Byte `j` of a word. -/
theorem fromLittle_byte {bs : List (BitVec 8)} {j : Nat} (hj : j < bs.length) (h4 : j < 4) :
    (BitVec.ofNat 32 (fromLittle bs)).extractLsb' (8 * j) 8 = bs[j] := by
  apply BitVec.eq_of_toNat_eq
  rw [BitVec.extractLsb'_toNat, BitVec.toNat_ofNat, ← fromLittle_div hj, Nat.shiftRight_eq_div_pow]
  obtain rfl | rfl | rfl | rfl : j = 0 ∨ j = 1 ∨ j = 2 ∨ j = 3 := by omega
  all_goals omega

/-! ## Hexadecimal numbers -/

/-- The digit of a value below 16, in lower case. -/
def hexDigit (d : Nat) : Char := if d < 10 then Char.ofNat (48 + d) else Char.ofNat (87 + d)

/-- The value of a hexadecimal digit of either case. -/
def hexValue (c : Char) : Option Nat :=
  if '0' ≤ c ∧ c ≤ '9' then some (c.toNat - 48)
  else if 'a' ≤ c ∧ c ≤ 'f' then some (c.toNat - 87)
  else if 'A' ≤ c ∧ c ≤ 'F' then some (c.toNat - 55)
  else none

/-- The hexadecimal digits of a number, the lowest first, of which there are at most `fuel`. -/
def digitsFrom : Nat → Nat → List Nat
  | 0, _ => []
  | fuel + 1, n => if n = 0 then [] else n % 16 :: digitsFrom fuel (n / 16)

/-- The hexadecimal digits of a number, the lowest first; 0 has none. -/
def digits (n : Nat) : List Nat := digitsFrom n n

/-- The number that hexadecimal digits make. -/
def ofDigits : List Nat → Nat
  | [] => 0
  | d :: ds => d + 16 * ofDigits ds

/-- A number in lower-case hexadecimal, filled up with zeros to the given width. -/
def formatHex (width n : Nat) : Text :=
  let ds := (digits n).reverse.map hexDigit
  List.replicate (width - ds.length) '0' ++ ds

/-- The number that a string of hexadecimal digits writes. -/
def readHex (t : Text) : Nat := t.foldl (fun n c => 16 * n + (hexValue c).getD 0) 0

/-- A printed digit has the value it was printed for. -/
theorem hexValue_hexDigit {d : Nat} (h : d < 16) : hexValue (hexDigit d) = some d := by
  have hall : ∀ d < 16, hexValue (hexDigit d) = some d := by decide
  exact hall d h

theorem digitsFrom_lt {fuel n d : Nat} (h : d ∈ digitsFrom fuel n) : d < 16 := by
  induction fuel generalizing n with
  | zero => cases h
  | succ fuel ih =>
    rw [digitsFrom] at h
    by_cases hn : n = 0
    · rw [if_pos hn] at h
      cases h
    · rw [if_neg hn, List.mem_cons] at h
      rcases h with rfl | h
      · exact Nat.mod_lt _ (by omega)
      · exact ih h

/-- The digits make the number. -/
theorem ofDigits_digitsFrom {fuel n : Nat} (h : n ≤ fuel) : ofDigits (digitsFrom fuel n) = n := by
  induction fuel generalizing n with
  | zero =>
    rw [Nat.le_zero.mp h]
    rfl
  | succ fuel ih =>
    rw [digitsFrom]
    by_cases hn : n = 0
    · rw [if_pos hn, hn]
      rfl
    · rw [if_neg hn, ofDigits, ih (by omega)]
      omega

/-- A number below 16 to the width has no more digits than that. -/
theorem length_digitsFrom_le {fuel n width : Nat} (h : n < 16 ^ width) : (digitsFrom fuel n).length ≤ width := by
  induction fuel generalizing n width with
  | zero => exact Nat.zero_le _
  | succ fuel ih =>
    rw [digitsFrom]
    by_cases hn : n = 0
    · rw [if_pos hn]
      exact Nat.zero_le _
    · rw [if_neg hn, List.length_cons]
      cases width with
      | zero => omega
      | succ width =>
        rw [Nat.pow_succ] at h
        exact Nat.succ_le_succ (ih (by omega))

/-- A field is filled exactly by a number of at most as many digits. -/
theorem length_formatHex {width n : Nat} (h : n < 16 ^ width) : (formatHex width n).length = width := by
  have hlen : (digits n).length ≤ width := length_digitsFrom_le h
  simp only [formatHex, List.length_append, List.length_replicate, List.length_map, List.length_reverse]
  omega

/-- What a field consists of. -/
theorem mem_formatHex {width n : Nat} {c : Char} (h : c ∈ formatHex width n) : ∃ d < 16, c = hexDigit d := by
  simp only [formatHex, List.mem_append, List.mem_replicate, List.mem_map, List.mem_reverse] at h
  rcases h with ⟨-, rfl⟩ | ⟨d, hd, rfl⟩
  · exact ⟨0, by omega, rfl⟩
  · exact ⟨d, digitsFrom_lt hd, rfl⟩

theorem readHex_append (t u : Text) :
    readHex (t ++ u) = u.foldl (fun n c => 16 * n + (hexValue c).getD 0) (readHex t) := List.foldl_append ..

/-- Leading zeros are read as nothing. -/
theorem readHex_zeros (k : Nat) : readHex (List.replicate k '0') = 0 := by
  induction k with
  | zero => rfl
  | succ k ih =>
    rw [List.replicate_succ', readHex_append, ih]
    rfl

/-- Printed digits are read back as the number they make. -/
theorem readHex_digits (ds : List Nat) (h : ∀ d ∈ ds, d < 16) :
    readHex (ds.reverse.map hexDigit) = ofDigits ds := by
  induction ds with
  | nil => rfl
  | cons d ds ih =>
    have hd : hexValue (hexDigit d) = some d := hexValue_hexDigit (h d (List.mem_cons_self ..))
    rw [List.reverse_cons, List.map_append, readHex_append, ih fun e he => h e (List.mem_cons_of_mem _ he)]
    simp only [List.map_cons, List.map_nil, List.foldl_cons, List.foldl_nil, hd, Option.getD_some, ofDigits]
    omega

/-- A number is read back as it was written. -/
theorem readHex_formatHex (width n : Nat) : readHex (formatHex width n) = n := by
  have hd := readHex_digits (digits n) fun d h => digitsFrom_lt h
  have hz := readHex_zeros (width - ((digits n).reverse.map hexDigit).length)
  rw [digits, ofDigits_digitsFrom (Nat.le_refl n)] at hd
  rw [formatHex, readHex_append, hz]
  exact hd

/-! ## Lines -/

/-- The characters that end a line. -/
def isLineBreak (c : Char) : Bool :=
  [0x0a, 0x0b, 0x0c, 0x0d, 0x1c, 0x1d, 0x1e, 0x85, 0x2028, 0x2029].contains c.toNat

/-- White space. -/
def isSpace (c : Char) : Bool :=
  isLineBreak c || [0x09, 0x1f, 0x20, 0xa0, 0x1680, 0x202f, 0x205f, 0x3000].contains c.toNat ||
    (0x2000 ≤ c.toNat && c.toNat ≤ 0x200a)

/-- The lines of a text, with `line` read of the first one. -/
def splitlinesFrom (line : Text) : Text → List Text
  | [] => if line.isEmpty then [] else [line]
  | '\r' :: '\n' :: cs => line :: splitlinesFrom [] cs
  | c :: cs => if isLineBreak c then line :: splitlinesFrom [] cs else splitlinesFrom (line ++ [c]) cs

/-- The lines of a text; its end ends the last line. -/
def splitlines (t : Text) : List Text := splitlinesFrom [] t

/-- A line without the white space around it. -/
def strip (t : Text) : Text := ((t.dropWhile isSpace).reverse.dropWhile isSpace).reverse

/-- The words of a text, with `word` read of the first one. -/
def tokensFrom (word : Text) : Text → List Text
  | [] => if word.isEmpty then [] else [word]
  | c :: cs =>
    if isSpace c then if word.isEmpty then tokensFrom [] cs else word :: tokensFrom [] cs
    else tokensFrom (word ++ [c]) cs

/-- The words of a text, as white space separates them. -/
def tokens (t : Text) : List Text := tokensFrom [] t

/-- Lines of text, each with a line feed at its end. -/
def unlines (ls : List Text) : Text := ls.flatMap (· ++ ['\n'])

/-- A word has no white space, and is not empty. -/
def IsWord (t : Text) : Prop := t ≠ [] ∧ ∀ c ∈ t, isSpace c = false

/-- What is no white space ends no line. -/
theorem not_isLineBreak {c : Char} (h : isSpace c = false) : isLineBreak c = false := by
  simp only [isSpace, Bool.or_eq_false_iff] at h
  exact h.1.1

theorem splitlinesFrom_append {l : Text} (h : ∀ c ∈ l, isLineBreak c = false) (line t : Text) :
    splitlinesFrom line (l ++ '\n' :: t) = (line ++ l) :: splitlinesFrom [] t := by
  induction l generalizing line with
  | nil =>
    rw [List.nil_append, List.append_nil, splitlinesFrom.eq_3 _ _ _ (by nofun), if_pos (by decide)]
  | cons c l ih =>
    have hc : isLineBreak c = false := h c (List.mem_cons_self ..)
    have hr : c ≠ '\r' := by
      rintro rfl
      exact absurd hc (by decide)
    have hrest := ih (fun d hd => h d (List.mem_cons_of_mem _ hd)) (line ++ [c])
    rw [List.cons_append, splitlinesFrom.eq_3 _ _ _ (fun _ he _ => hr he), hc, if_neg (by decide), hrest,
      List.append_assoc]
    rfl

/-- The lines of a text are those it was written of. -/
theorem splitlines_unlines {ls : List Text} (h : ∀ l ∈ ls, ∀ c ∈ l, isLineBreak c = false) :
    splitlines (unlines ls) = ls := by
  induction ls with
  | nil => rfl
  | cons l ls ih =>
    have hl := h l (List.mem_cons_self ..)
    have heq : unlines (l :: ls) = l ++ '\n' :: unlines ls := by simp [unlines]
    rw [splitlines, heq, splitlinesFrom_append hl, List.nil_append]
    congr 1
    exact ih fun m hm => h m (List.mem_cons_of_mem _ hm)

theorem tokensFrom_append {l : Text} (h : ∀ c ∈ l, isSpace c = false) (word t : Text) (hne : word ++ l ≠ []) :
    tokensFrom word (l ++ '\n' :: t) = (word ++ l) :: tokensFrom [] t := by
  induction l generalizing word with
  | nil =>
    have hempty : word.isEmpty = false := by
      rw [List.append_nil] at hne
      cases word with
      | nil => exact absurd rfl hne
      | cons c word => rfl
    rw [List.nil_append, List.append_nil, tokensFrom, if_pos (by decide), hempty, if_neg (by decide)]
  | cons c l ih =>
    have hc : isSpace c = false := h c (List.mem_cons_self ..)
    have hrest := ih (fun d hd => h d (List.mem_cons_of_mem _ hd)) (word ++ [c]) (by simp)
    rw [List.cons_append, tokensFrom, hc, if_neg (by decide), hrest, List.append_assoc]
    rfl

/-- The words of a text with one word a line. -/
theorem tokens_unlines {ls : List Text} (h : ∀ l ∈ ls, IsWord l) : tokens (unlines ls) = ls := by
  induction ls with
  | nil => rfl
  | cons l ls ih =>
    obtain ⟨hne, hl⟩ := h l (List.mem_cons_self ..)
    have heq : unlines (l :: ls) = l ++ '\n' :: unlines ls := by simp [unlines]
    rw [tokens, heq, tokensFrom_append hl [] _ (by rwa [List.nil_append]), List.nil_append]
    congr 1
    exact ih fun m hm => h m (List.mem_cons_of_mem _ hm)

/-- A word has no white space to lose. -/
theorem strip_word {t : Text} (h : IsWord t) : strip t = t := by
  have hdrop : ∀ u : Text, (∀ c ∈ u, isSpace c = false) → u.dropWhile isSpace = u := by
    intro u hu
    cases u with
    | nil => rfl
    | cons c u => rw [List.dropWhile_cons, hu c (List.mem_cons_self ..), if_neg (by decide)]
  rw [strip, hdrop t h.2, hdrop _ fun c hc => h.2 c (List.mem_reverse.mp hc), List.reverse_reverse]

/-- A printed digit is no white space. -/
theorem isSpace_hexDigit {d : Nat} (h : d < 16) : isSpace (hexDigit d) = false := by
  have hall : ∀ d < 16, isSpace (hexDigit d) = false := by decide
  exact hall d h

/-- A number is written as one word. -/
theorem isWord_formatHex {width n : Nat} (hw : 0 < width) : IsWord (formatHex width n) := by
  constructor
  · intro h
    have hlen := congrArg List.length h
    simp only [formatHex, List.length_append, List.length_replicate, List.length_map, List.length_reverse,
      List.length_nil] at hlen
    omega
  · intro c hc
    obtain ⟨d, hd, rfl⟩ := mem_formatHex hc
    exact isSpace_hexDigit hd

end SocRV
