import Mathlib.Algebra.Group.Nat.Defs
import Mathlib.Data.List.Nodup
import SocRV.Build.MemoryMap

/-!
# Constants read back

What the two patterns find in a rendered header and in a package: each constant of a region without a digit in its name,
and no constant with a digit in its name.
-/

namespace SocRV

namespace MemoryMap

open Regex

/-! ## Names and digits -/

/-- A name without a digit, as the patterns can read it. -/
def Readable (name : Text) : Prop := ∀ c ∈ name, isNameChar c = true

/-- `BASE` and `SIZE` are made of name characters. -/
theorem kind_text_readable (k : Kind) : ∀ c ∈ k.text, isNameChar c = true := by
  rw [← List.all_eq_true]
  cases k <;> decide

/-- `BASE` and `SIZE` have no underscore, so the last underscore of a constant starts its kind. -/
theorem underscore_not_mem_kind (k : Kind) : '_' ∉ k.text := by
  cases k <;> decide

/-- Characters are ordered by their numbers. -/
theorem char_le_iff {a b : Char} : a ≤ b ↔ a.toNat ≤ b.toNat := by
  rw [Char.le_def, UInt32.le_iff_toNat_le]
  rfl

theorem not_isNameChar_of_isDigit {c : Char} (h : isDigit c = true) : isNameChar c = false := by
  unfold isDigit at h
  rw [Bool.and_eq_true, decide_eq_true_iff, decide_eq_true_iff, char_le_iff, char_le_iff] at h
  have h9 : c.toNat ≤ 57 := h.2
  have hupper : ¬ 'A' ≤ c := by
    intro hA
    have h65 : 65 ≤ c.toNat := char_le_iff.mp hA
    omega
  have hunderscore : c ≠ '_' := by
    rintro rfl
    exact absurd h9 (by decide)
  rw [isNameChar, isUpper, decide_eq_false hupper, Bool.false_and, Bool.false_or, beq_eq_false_iff_ne]
  exact hunderscore

theorem isSpace_of_isNameChar {c : Char} (h : isNameChar c = true) : isSpace c = false := by
  have hall : ∀ n < 128, isNameChar (Char.ofNat n) = true → isSpace (Char.ofNat n) = false := by decide
  have hlt : c.toNat < 128 := by
    rw [isNameChar, isUpper, Bool.or_eq_true, Bool.and_eq_true, decide_eq_true_iff, decide_eq_true_iff, char_le_iff,
      char_le_iff, beq_iff_eq] at h
    rcases h with ⟨-, h⟩ | rfl
    · have h90 : c.toNat ≤ 90 := h
      omega
    · decide
  have hc := hall c.toNat hlt
  rw [Char.ofNat_toNat] at hc
  exact hc h

/-- An identifier is readable just when it has no digit. -/
theorem readable_iff {r : Region} : Readable r.name ↔ ∀ c ∈ r.name, isDigit c = false := by
  constructor
  · intro h c hc
    by_contra hdigit
    rw [Bool.not_eq_false] at hdigit
    exact absurd (h c hc) (by rw [not_isNameChar_of_isDigit hdigit]; decide)
  · intro h c hc
    have hid := r.identifier
    unfold isIdentifier at hid
    cases hname : r.name with
    | nil =>
      rw [hname] at hc
      cases hc
    | cons a t =>
      rw [hname] at hc hid
      rw [Bool.and_eq_true, List.all_eq_true] at hid
      rcases List.mem_cons.mp hc with rfl | hc'
      · rw [isNameChar, hid.1, Bool.true_or]
      · have hor := hid.2 c hc'
        rw [h c (hname ▸ hc), Bool.or_false] at hor
        exact hor

/-- Every printed digit is one that the patterns read. -/
theorem isHexChar_hexDigit {d : Nat} (h : d < 16) : isHexChar (hexDigit d) = true := by
  unfold isHexChar
  rw [hexValue_hexDigit h]
  rfl

/-- A printed number has only digits that the patterns read. -/
theorem isHexChar_formatHex {width n : Nat} : ∀ c ∈ formatHex width n, isHexChar c = true := by
  intro c hc
  obtain ⟨d, hd, rfl⟩ := mem_formatHex hc
  exact isHexChar_hexDigit hd

/-! ## The name of a constant -/

/-- The rest of both patterns from the name on. -/
def constantRe (rest : Regex) : Regex := .seq (.group (.many isNameChar 1)) (.seq (.lit ['_']) (.seq kindRe rest))

/-- The kind pattern reads a kind in one way. -/
theorem matchAt_kindRe (k : Kind) (t : Text) : kindRe.matchAt (k.text ++ t) = [([some k.text], t)] := by
  have hmatch : (Regex.alt (.lit "BASE".toList) (.lit "SIZE".toList)).matchAt (k.text ++ t) = [([], t)] := by
    cases k <;> rfl
  rw [kindRe, matchAt, hmatch, List.map_singleton, List.length_append, Nat.add_sub_cancel, List.take_left]

/-- The name of a constant is read up to the last kind in it, which is followed by something else. -/
theorem first_constantRe {name t : Text} {rest : Regex} {n : Groups × Text} (k : Kind) (hname : Readable name)
    (hne : name ≠ []) (ht : Stops isNameChar t) (hrest : rest.first t = some n) :
    (constantRe rest).first (name ++ ('_' :: k.text ++ t)) = some (some name :: some k.text :: n.1, n.2) := by
  have hkind : (seq (.lit ['_']) (seq kindRe rest)).first ('_' :: k.text ++ t) = some (some k.text :: n.1, n.2) := by
    have hlit := first_lit_seq ['_'] (k.text ++ t) (seq kindRe rest)
    rw [first_seq_of_matchAt (matchAt_kindRe k t), hrest] at hlit
    exact hlit
  refine first_group_many_seq hname ?_ ht (List.length_pos_iff.mpr hne) hkind fun a b hab ha => ?_
  · intro c hc
    rcases List.mem_cons.mp hc with rfl | hc
    · decide
    · exact kind_text_readable k c hc
  · apply first_lit_seq_of_mismatch
    rw [Bool.eq_false_iff]
    intro htake
    obtain ⟨a', rfl⟩ : ∃ a', a = '_' :: a' := by
      cases a with
      | nil => exact absurd rfl ha
      | cons c a => exact ⟨a, by rw [(List.cons.inj hab).1]⟩
    have hb : k.text = a' ++ b := (List.cons.inj hab).2
    cases b with
    | nil =>
      cases t with
      | nil => cases htake
      | cons c t =>
        have hc := ht c rfl
        have heq : '_' = c := by
          obtain ⟨v, hv⟩ := List.isPrefixOf_iff_prefix.mp htake
          exact (List.cons.inj hv).1
        rw [← heq] at hc
        exact absurd hc (by decide)
    | cons c b =>
      have heq : '_' = c := by
        obtain ⟨v, hv⟩ := List.isPrefixOf_iff_prefix.mp htake
        exact (List.cons.inj hv).1
      apply underscore_not_mem_kind k
      rw [hb, heq]
      exact List.mem_append_right _ (List.mem_cons_self ..)

/-- Where no kind can start behind an underscore, the pattern does not match. -/
theorem first_kind_none {u : Text} {rest : Regex} (h : u.take 2 ∉ [['_', 'B'], ['_', 'S']]) :
    (seq (.lit ['_']) (seq kindRe rest)).first u = none := by
  by_cases hu : ['_'].isPrefixOf u = true
  · obtain ⟨v, rfl⟩ := List.isPrefixOf_iff_prefix.mp hu
    rw [first_lit_seq, first_seq]
    have hkind : kindRe.matchAt v = [] := by
      cases v with
      | nil => rfl
      | cons c v =>
        have hc : c ≠ 'B' ∧ c ≠ 'S' := by
          constructor
          · rintro rfl
            exact h (List.mem_cons_self ..)
          · rintro rfl
            exact h (List.mem_cons_of_mem _ (List.mem_cons_self ..))
        have hB : "BASE".toList.isPrefixOf (c :: v) = false := by
          rw [show "BASE".toList = 'B' :: "ASE".toList from rfl, List.isPrefixOf, beq_eq_false_iff_ne.mpr hc.1.symm,
            Bool.false_and]
        have hS : "SIZE".toList.isPrefixOf (c :: v) = false := by
          rw [show "SIZE".toList = 'S' :: "IZE".toList from rfl, List.isPrefixOf, beq_eq_false_iff_ne.mpr hc.2.symm,
            Bool.false_and]
        simp only [kindRe, matchAt, hB, hS, Bool.false_eq_true, if_false, List.map_nil, List.append_nil]
    rw [hkind, List.findSome?_nil]
  · exact first_lit_seq_of_mismatch (Bool.eq_false_iff.mpr hu)

/-- No constant is read where no underscore is followed by the beginning of a kind. -/
theorem first_constantRe_none {x t : Text} {a b : Char} {rest : Regex} (hx : Readable x) (ha : isNameChar a = false)
    (hkind : ∀ i ≤ x.length, (x.drop i ++ [a, b]).take 2 ∉ [['_', 'B'], ['_', 'S']]) :
    (constantRe rest).first (x ++ a :: b :: t) = none := by
  refine first_group_many_seq_none hx (stops_cons ha) fun i hi => ?_
  · have htake : (x.drop i ++ a :: b :: t).take 2 = (x.drop i ++ [a, b]).take 2 := by
      have happend : x.drop i ++ a :: b :: t = (x.drop i ++ [a, b]) ++ t := by simp
      rw [happend, List.take_append_of_le_length]
      simp
    have hnot := hkind i hi
    rw [← htake] at hnot
    generalize x.drop i ++ a :: b :: t = u at hnot
    exact first_kind_none hnot

/-! ## A line of the header -/

/-- The pattern for the C header, written as its parts one after another. -/
theorem cPattern_eq : cPattern = .seq (.lit "#define".toList) (.seq (.many isSpace 1) (.seq (.lit "SOCRV_".toList)
    (constantRe (.seq (.many isSpace 1) (.seq (.lit "0x".toList) (.seq (.group (.many isHexChar 1)) (.lit ['u']))))))) :=
  rfl

/-- One blank is read as white space in one way. -/
theorem first_blank_seq {s : Regex} {t : Text} (ht : Stops isSpace t) :
    (seq (.many isSpace 1) s).first ([' '] ++ t) = s.first t := by
  have hrun : ([' '] ++ t).takeWhile isSpace = [' '] := by
    refine takeWhile_run (fun c hc => ?_) ht
    rw [List.mem_singleton.mp hc]
    decide
  have hmatch : (Regex.many isSpace 1).matchAt ([' '] ++ t) = [([], t)] := by
    rw [matchAt, hrun]
    rfl
  rw [first_seq_of_matchAt hmatch]
  simp only [List.nil_append, Option.map_id']

theorem defineStart_eq : "#define SOCRV_".toList = "#define".toList ++ ([' '] ++ "SOCRV_".toList) := rfl

theorem hexStart_eq : " 0x".toList = [' '] ++ "0x".toList := rfl

/-- A `#define` line and what follows it, bracketed as the parts of the pattern read it. -/
theorem append_defineLine {start hash blank socrv name kind hex zero value u t : Text}
    (hstart : start = hash ++ (blank ++ socrv)) (hhex : hex = blank ++ zero) :
    start ++ ((name ++ kind) ++ (hex ++ (value ++ u))) ++ t =
      hash ++ (blank ++ (socrv ++ (name ++ (kind ++ (blank ++ (zero ++ (value ++ ([] ++ (u ++ t))))))))) := by
  rw [hstart, hhex]
  simp only [List.append_assoc, List.nil_append]

/-- What the pattern for the header finds in the line of a constant. -/
theorem first_defineLine {name t : Text} {value : Nat} (k : Kind) (hname : Readable name) (hne : name ≠ []) :
    cPattern.first (defineLine (name ++ '_' :: k.text, value) ++ t) =
      some ([some name, some k.text, some (formatHex 8 value)], t) := by
  have hline : defineLine (name ++ '_' :: k.text, value) ++ t = "#define".toList ++ ([' '] ++
      ("SOCRV_".toList ++ (name ++ ('_' :: k.text ++ ([' '] ++ ("0x".toList ++ (formatHex 8 value ++
        ([] ++ (['u'] ++ t))))))))) := by
    exact append_defineLine defineStart_eq hexStart_eq
  have hword : IsWord (formatHex 8 value) := isWord_formatHex (by decide)
  rw [hline, cPattern_eq, first_lit_seq, first_blank_seq (stops_append (by decide) _), first_lit_seq]
  refine first_constantRe (n := ([some (formatHex 8 value)], t)) k hname hne (stops_append (by decide) _) ?_
  rw [first_blank_seq (stops_append (by decide) _), first_lit_seq]
  refine first_group_many_seq (n := ([], t)) isHexChar_formatHex (by simp) (stops_append (by decide) _)
    (List.length_pos_iff.mpr hword.1) rfl fun a b hab ha => ?_
  exact absurd (List.append_eq_nil_iff.mp hab.symm).1 ha

/-! ## The header -/

theorem unlines_cons (l : Text) (ls : List Text) : unlines (l :: ls) = l ++ '\n' :: unlines ls := by
  simp [unlines]

theorem unlines_append (ls ms : List Text) : unlines (ls ++ ms) = unlines ls ++ unlines ms := by
  rw [unlines, List.flatMap_append]
  rfl

/-- Lines with an empty one behind them. -/
theorem joinLines_append_nil (ls : List Text) : joinLines (ls ++ [[]]) = unlines ls := by
  induction ls with
  | nil => rfl
  | cons l ls ih =>
    rw [joinLines, List.cons_append, List.intercalate_cons_of_ne_nil (by simp), ← joinLines, ih, unlines_cons,
      List.append_assoc]
    rfl

/-- The header as lines. -/
theorem renderMemory_eq (m : Document) : renderMemory m =
    unlines ["/* Generated by scripts/generate_soc_contract.py; do not edit. */".toList,
      "#ifndef ".toList ++ "SOCRV_SOC_MEMORY_MAP_H".toList, "#define ".toList ++ "SOCRV_SOC_MEMORY_MAP_H".toList, []] ++
    (unlines ((constants m.regions).map defineLine) ++
      unlines [[], "#define SOCRV_RESET_VECTOR 0x".toList ++ (formatHex 8 m.resetVector ++ ['u']), [],
        "#endif /* ".toList ++ ("SOCRV_SOC_MEMORY_MAP_H".toList ++ " */".toList)]) := by
  rw [← unlines_append, ← unlines_append, ← joinLines_append_nil, renderMemory, headerGuard]
  congr 1
  simp only [List.append_assoc, List.cons_append, List.nil_append]

theorem unlines_cons_append (l : Text) (ls : List Text) (t : Text) :
    unlines (l :: ls) ++ t = l ++ '\n' :: (unlines ls ++ t) := by
  rw [unlines_cons, List.append_assoc, List.cons_append]

/-- A text without `#` holds no match of the C pattern. -/
theorem cPattern_skip {x : Text} (t : Text) (hx : '#' ∉ x) : cPattern.findall (x ++ t) = cPattern.findall t :=
  findall_skip (u := "define".toList) t hx

/-- A line end holds no match of the C pattern. -/
theorem cPattern_newline (t : Text) : cPattern.findall ('\n' :: t) = cPattern.findall t :=
  cPattern_skip (x := ['\n']) t (by decide)

/-- A line without a directive is passed over. -/
theorem cPattern_line {l : Text} (t : Text) (hl : '#' ∉ l) : cPattern.findall (l ++ '\n' :: t) = cPattern.findall t := by
  rw [cPattern_skip _ hl, cPattern_newline]

/-- A directive that is not a constant is passed over. -/
theorem cPattern_directive {l x t : Text} (hl : l = '#' :: x) (hx : '#' ∉ x)
    (hnone : cPattern.first (l ++ '\n' :: t) = none) : cPattern.findall (l ++ '\n' :: t) = cPattern.findall t := by
  rw [hl, List.cons_append] at hnone
  rw [hl, List.cons_append, findall_cons_of_none hnone, cPattern_line t hx]

/-- A definition of a name in which no kind follows an underscore is not a constant. -/
theorem first_define_none {x t : Text} {a b : Char} (hx : Readable x) (ha : isNameChar a = false)
    (hkind : ∀ i ≤ x.length, (x.drop i ++ [a, b]).take 2 ∉ [['_', 'B'], ['_', 'S']]) :
    cPattern.first ("#define".toList ++ ([' '] ++ ("SOCRV_".toList ++ (x ++ a :: b :: t)))) = none := by
  rw [cPattern_eq, first_lit_seq, first_blank_seq (stops_append (by decide) _), first_lit_seq]
  exact first_constantRe_none hx ha hkind

/-- The beginning of the header has no constants. -/
theorem cPattern_top (t : Text) : cPattern.findall
    (unlines ["/* Generated by scripts/generate_soc_contract.py; do not edit. */".toList,
      "#ifndef ".toList ++ "SOCRV_SOC_MEMORY_MAP_H".toList, "#define ".toList ++ "SOCRV_SOC_MEMORY_MAP_H".toList, []] ++ t) =
      cPattern.findall t := by
  have hifndefLine : "#ifndef ".toList ++ "SOCRV_SOC_MEMORY_MAP_H".toList =
      '#' :: ("ifndef ".toList ++ "SOCRV_SOC_MEMORY_MAP_H".toList) := rfl
  have hdefineLine : "#define ".toList ++ "SOCRV_SOC_MEMORY_MAP_H".toList =
      '#' :: ("define ".toList ++ "SOCRV_SOC_MEMORY_MAP_H".toList) := rfl
  have hnil : unlines [] ++ t = t := rfl
  have hguard : "#define ".toList ++ "SOCRV_SOC_MEMORY_MAP_H".toList ++ '\n' :: '\n' :: t =
      "#define".toList ++ ([' '] ++ ("SOCRV_".toList ++ ("SOC_MEMORY_MAP_H".toList ++ '\n' :: '\n' :: t))) := rfl
  have hdefine : cPattern.first ("#define ".toList ++ "SOCRV_SOC_MEMORY_MAP_H".toList ++ '\n' :: '\n' :: t) = none := by
    rw [hguard]
    exact first_define_none (List.all_eq_true.mp (by decide)) (by decide) (by decide)
  rw [unlines_cons_append, cPattern_line _ (by decide), unlines_cons_append, cPattern_directive hifndefLine (by decide) rfl,
    unlines_cons_append, unlines_cons_append, List.nil_append, hnil, cPattern_directive hdefineLine (by decide) hdefine,
    cPattern_newline]

/-- A number in hexadecimal has no directive in it. -/
theorem hash_not_mem_formatHex {width n : Nat} : '#' ∉ formatHex width n := by
  intro h
  exact absurd (isHexChar_formatHex _ h) (by decide)

/-- The end of the header has no constants. -/
theorem cPattern_bottom (n : Nat) : cPattern.findall
    (unlines [[], "#define SOCRV_RESET_VECTOR 0x".toList ++ (formatHex 8 n ++ ['u']), [],
      "#endif /* ".toList ++ ("SOCRV_SOC_MEMORY_MAP_H".toList ++ " */".toList)]) = [] := by
  have hdefineLine : "#define SOCRV_RESET_VECTOR 0x".toList ++ (formatHex 8 n ++ ['u']) =
      '#' :: ("define SOCRV_RESET_VECTOR 0x".toList ++ (formatHex 8 n ++ ['u'])) := rfl
  have hendifLine : "#endif /* ".toList ++ ("SOCRV_SOC_MEMORY_MAP_H".toList ++ " */".toList) =
      '#' :: ("endif /* ".toList ++ ("SOCRV_SOC_MEMORY_MAP_H".toList ++ " */".toList)) := rfl
  have hdefine : ∀ t, cPattern.first ("#define SOCRV_RESET_VECTOR 0x".toList ++ (formatHex 8 n ++ ['u']) ++ t) = none := by
    intro t
    have hreset : "#define SOCRV_RESET_VECTOR 0x".toList ++ (formatHex 8 n ++ ['u']) ++ t = "#define".toList ++ ([' '] ++
        ("SOCRV_".toList ++ ("RESET_VECTOR".toList ++ ' ' :: '0' :: ('x' :: ((formatHex 8 n ++ ['u']) ++ t))))) := by
      rw [List.append_assoc]
      rfl
    rw [hreset]
    exact first_define_none (List.all_eq_true.mp (by decide)) (by decide) (by decide)
  have hhash : '#' ∉ "define SOCRV_RESET_VECTOR 0x".toList ++ (formatHex 8 n ++ ['u']) := by
    rw [List.mem_append, List.mem_append]
    rintro (h | h | h)
    · exact absurd h (by decide)
    · exact hash_not_mem_formatHex h
    · exact absurd h (by decide)
  rw [unlines_cons, List.nil_append, cPattern_newline, unlines_cons, cPattern_directive hdefineLine hhash (hdefine _),
    unlines_cons, List.nil_append, cPattern_newline, unlines_cons, cPattern_directive hendifLine (by decide) rfl]
  rfl

/-- The constants are found one behind the other. -/
theorem cPattern_constants {ps : List (Text × Kind × Nat)} (hps : ∀ p ∈ ps, Readable p.1 ∧ p.1 ≠ []) (t : Text) :
    cPattern.findall (unlines (ps.map fun p => defineLine (p.1 ++ '_' :: p.2.1.text, p.2.2)) ++ t) =
      (ps.map fun p => [some p.1, some p.2.1.text, some (formatHex 8 p.2.2)]) ++ cPattern.findall t := by
  induction ps with
  | nil => rfl
  | cons p ps ih =>
    obtain ⟨hname, hne⟩ := hps p (List.mem_cons_self ..)
    have hrest := ih fun q hq => hps q (List.mem_cons_of_mem _ hq)
    have hline : defineLine (p.1 ++ '_' :: p.2.1.text, p.2.2) ≠ [] :=
      List.append_ne_nil_of_left_ne_nil (by decide) _
    rw [List.map_cons, unlines_cons_append, findall_of_first hline (first_defineLine p.2.1 hname hne),
      cPattern_newline, hrest, List.map_cons, List.cons_append]

/-! ## The package -/

/-- The pattern for the package, written as its parts one after another. -/
theorem svPattern_eq : svPattern = .seq (.lit "localparam".toList) (.seq (.many isSpace 1) (.seq (.lit "logic".toList)
    (.seq (.many isSpace 1) (.seq (.lit "[31:0]".toList) (.seq (.many isSpace 1) (constantRe (.seq (.many isSpace 0)
      (.seq (.lit ['=']) (.seq (.many isSpace 0) (.seq (.lit "32'h".toList)
        (.group (.many (fun c => isHexChar c || c == '_') 1)))))))))))) := rfl

/-- Blanks are read as white space. -/
theorem first_blanks_seq {s : Regex} {t : Text} {n : Groups × Text} (k : Nat) (ht : Stops isSpace t)
    (hs : s.first t = some n) : (seq (.many isSpace 0) s).first (List.replicate k ' ' ++ t) = some n := by
  refine first_many_seq ?_ ht (Nat.zero_le _) hs
  intro c hc
  rw [(List.mem_replicate.mp hc).2]
  decide

/-- Grouped digits are hexadecimal digits and underscores. -/
theorem svDigits_hex {n : Nat} : ∀ c ∈ svDigits n, (isHexChar c || c == '_') = true := by
  intro c hc
  rw [svDigits, List.mem_append, List.mem_cons] at hc
  rcases hc with hc | rfl | hc
  · rw [isHexChar_formatHex c (List.mem_of_mem_take hc), Bool.true_or]
  · rfl
  · rw [isHexChar_formatHex c (List.mem_of_mem_drop hc), Bool.true_or]

/-- A `localparam` line and what follows it, bracketed as the parts of the pattern read it. -/
theorem append_localparamLine {start localparam blank logic range name kind pad assign eq hex value e t : Text}
    (hstart : start = (blank ++ (blank ++ blank)) ++ (localparam ++ (blank ++ (logic ++ (blank ++ (range ++ blank))))))
    (hassign : assign = blank ++ (eq ++ (blank ++ hex))) :
    start ++ ((name ++ kind) ++ (pad ++ (assign ++ (value ++ e)))) ++ t =
      (blank ++ (blank ++ blank)) ++ ((localparam ++ (blank ++ (logic ++ (blank ++ (range ++ (blank ++ (name ++ (kind ++
        ((pad ++ blank) ++ (eq ++ (blank ++ (hex ++ value)))))))))))) ++ (e ++ t)) := by
  rw [hstart, hassign]
  simp only [List.append_assoc]

theorem localparamStart_eq : "   localparam logic [31:0] ".toList = ([' '] ++ ([' '] ++ [' '])) ++ ("localparam".toList ++
    ([' '] ++ ("logic".toList ++ ([' '] ++ ("[31:0]".toList ++ [' ']))))) := rfl

theorem assign_eq : " = 32'h".toList = [' '] ++ (['='] ++ ([' '] ++ "32'h".toList)) := rfl

/-- The part of the line of a constant in the package that the pattern reads. -/
def localparamText (name : Text) (k : Kind) (pad value : Nat) : Text :=
  "localparam".toList ++ ([' '] ++ ("logic".toList ++ ([' '] ++ ("[31:0]".toList ++ ([' '] ++ (name ++ ('_' :: k.text ++
    ((List.replicate pad ' ' ++ [' ']) ++ (['='] ++ ([' '] ++ ("32'h".toList ++ svDigits value)))))))))))

theorem localparamLine_append (width : Nat) (name : Text) (k : Kind) (value : Nat) (t : Text) :
    ∃ pad, localparamLine width (name ++ '_' :: k.text, value) ++ t =
      ([' '] ++ ([' '] ++ [' '])) ++ (localparamText name k pad value ++ ([';'] ++ t)) :=
  ⟨_, append_localparamLine localparamStart_eq assign_eq⟩

theorem localparamText_append {a b c d e f g h i j t : Text} :
    (a ++ (b ++ (c ++ (b ++ (d ++ (b ++ (e ++ (f ++ (g ++ (h ++ (b ++ (i ++ j)))))))))))) ++ t =
      a ++ (b ++ (c ++ (b ++ (d ++ (b ++ (e ++ (f ++ (g ++ (h ++ (b ++ (i ++ (j ++ t)))))))))))) := by
  simp only [List.append_assoc]

/-- What the pattern for the package finds in the line of a constant. -/
theorem first_localparamText {name t : Text} {value : Nat} (k : Kind) (pad : Nat) (hname : Readable name)
    (hne : name ≠ []) : svPattern.first (localparamText name k pad value ++ ([';'] ++ t)) =
      some ([some name, some k.text, some (svDigits value)], [';'] ++ t) := by
  have hpos : 1 ≤ (svDigits value).length := by
    rw [svDigits, List.length_append, List.length_cons]
    omega
  have hpad : List.replicate pad ' ' ++ [' '] = List.replicate (pad + 1) ' ' := List.replicate_succ'.symm
  have htext : localparamText name k pad value ++ ([';'] ++ t) =
      "localparam".toList ++ ([' '] ++ ("logic".toList ++ ([' '] ++ ("[31:0]".toList ++ ([' '] ++ (name ++ ('_' :: k.text ++
        ((List.replicate pad ' ' ++ [' ']) ++ (['='] ++ ([' '] ++ ("32'h".toList ++
          (svDigits value ++ ([';'] ++ t))))))))))))) := localparamText_append
  rw [htext, svPattern_eq, first_lit_seq, first_blank_seq (stops_append (by decide) _),
    first_lit_seq, first_blank_seq (stops_append (by decide) _), first_lit_seq, first_blank_seq, hpad]
  · refine first_constantRe (n := ([some (svDigits value)], [';'] ++ t)) k hname hne (stops_append rfl _) ?_
    refine first_blanks_seq (pad + 1) (stops_append (by decide) _) ?_
    rw [first_lit_seq]
    refine first_blanks_seq 1 (stops_append (by decide) _) ?_
    rw [first_lit_seq]
    exact first_group_many svDigits_hex (stops_append (by decide) _) hpos
  · cases name with
    | nil => exact absurd rfl hne
    | cons c name => exact stops_cons (isSpace_of_isNameChar (hname c (List.mem_cons_self ..)))

/-- A text without `l` holds no match of the package pattern. -/
theorem svPattern_skip {x : Text} (t : Text) (hx : 'l' ∉ x) : svPattern.findall (x ++ t) = svPattern.findall t :=
  findall_skip (u := "ocalparam".toList) t hx

/-- A line end holds no match of the package pattern. -/
theorem svPattern_newline (t : Text) : svPattern.findall ('\n' :: t) = svPattern.findall t :=
  svPattern_skip (x := ['\n']) t (by decide)

/-- The constants are found one behind the other. -/
theorem svPattern_constants (width : Nat) {ps : List (Text × Kind × Nat)} (hps : ∀ p ∈ ps, Readable p.1 ∧ p.1 ≠ [])
    (t : Text) :
    svPattern.findall (unlines (ps.map fun p => localparamLine width (p.1 ++ '_' :: p.2.1.text, p.2.2)) ++ t) =
      (ps.map fun p => [some p.1, some p.2.1.text, some (svDigits p.2.2)]) ++ svPattern.findall t := by
  induction ps with
  | nil => rfl
  | cons p ps ih =>
    obtain ⟨hname, hne⟩ := hps p (List.mem_cons_self ..)
    have hrest := ih fun q hq => hps q (List.mem_cons_of_mem _ hq)
    obtain ⟨pad, hline⟩ := localparamLine_append width p.1 p.2.1 p.2.2
      ('\n' :: (unlines (ps.map fun p => localparamLine width (p.1 ++ '_' :: p.2.1.text, p.2.2)) ++ t))
    have hne' : localparamText p.1 p.2.1 pad p.2.2 ≠ [] := List.append_ne_nil_of_left_ne_nil (by decide) _
    rw [List.map_cons, unlines_cons_append, hline, svPattern_skip _ (by decide),
      findall_of_first hne' (first_localparamText p.2.1 pad hname hne), svPattern_skip _ (by decide), svPattern_newline,
      hrest, List.map_cons, List.cons_append]

/-! ## The dictionary -/

/-- Setting a new key adds it at the end. -/
theorem Dict.set_of_not_mem {d : Dict} {key : Text} {value : Nat} (h : key ∉ d.map Prod.fst) :
    d.set key value = d ++ [(key, value)] := by
  refine if_neg fun hany => ?_
  obtain ⟨p, hp, hkey⟩ := List.any_eq_true.mp hany
  exact h (List.mem_map.mpr ⟨p, hp, of_decide_eq_true hkey⟩)

/-- With distinct keys a dictionary returns what it holds. -/
theorem Dict.get_of_mem {d : Dict} {p : Text × Nat} (hd : (d.map Prod.fst).Nodup) (hp : p ∈ d) : d.get p.1 = some p.2 := by
  unfold Dict.get
  induction d with
  | nil => cases hp
  | cons q d ih =>
    rw [List.map_cons, List.nodup_cons] at hd
    rw [List.lookup_cons]
    rcases List.mem_cons.mp hp with rfl | hp
    · rw [beq_self_eq_true]
    · have hne : p.1 ≠ q.1 := fun h => hd.1 (h ▸ List.mem_map_of_mem hp)
      rw [beq_eq_false_iff_ne.mpr hne]
      exact ih hd.2 hp

/-- Distinct keys are put into the dictionary one behind the other. -/
theorem foldl_set {ps : List (Text × Nat)} {d : Dict} (h : ((d ++ ps).map Prod.fst).Nodup) :
    ps.foldl (fun d p => d.set p.1 p.2) d = d ++ ps := by
  induction ps generalizing d with
  | nil => rw [List.foldl_nil, List.append_nil]
  | cons p ps ih =>
    have hsplit : d ++ p :: ps = (d ++ [p]) ++ ps := by simp
    have hp : p.1 ∉ d.map Prod.fst := by
      rw [List.map_append, List.nodup_append] at h
      intro hmem
      exact h.2.2 _ hmem _ (List.mem_map_of_mem (List.mem_cons_self ..)) rfl
    rw [List.foldl_cons, Dict.set_of_not_mem hp, hsplit]
    rw [hsplit] at h
    exact ih h

/-- The constants of regions, with their names in parts. -/
def parts (regions : List Region) : List (Text × Kind × Nat) :=
  regions.flatMap fun r => [(r.name, .base, r.value .base), (r.name, .size, r.value .size)]

/-- The constants of the document are its parts, each under its region and kind. -/
theorem constants_eq (regions : List Region) :
    constants regions = (parts regions).map fun p => (p.1 ++ '_' :: p.2.1.text, p.2.2) := by
  rw [constants, parts, List.map_flatMap]
  rfl

/-- Different constants have different names. -/
theorem key_injective {r r' : Region} {k k' : Kind} (h : r.key k = r'.key k') : r.name = r'.name ∧ k = k' := by
  have hlen : ∀ k : Kind, ('_' :: k.text).length = 5 := by
    intro k
    cases k <;> rfl
  obtain ⟨hname, hkind⟩ := List.append_inj' h ((hlen k).trans (hlen k').symm)
  refine ⟨hname, ?_⟩
  cases k <;> cases k'
  · rfl
  · exact absurd hkind (by decide)
  · exact absurd hkind (by decide)
  · rfl

theorem nodup_keys {regions : List Region} (h : (regions.map Region.name).Nodup) :
    ((constants regions).map Prod.fst).Nodup := by
  induction regions with
  | nil => exact List.nodup_nil
  | cons r regions ih =>
    rw [List.map_cons, List.nodup_cons] at h
    have hcons : constants (r :: regions) = r.constants ++ constants regions := rfl
    rw [hcons, List.map_append, List.nodup_append]
    refine ⟨?_, ih h.2, ?_⟩
    · rw [Region.constants]
      refine List.nodup_cons.mpr ⟨fun hmem => ?_, List.nodup_singleton _⟩
      exact absurd (key_injective (List.mem_singleton.mp hmem)).2 (by decide)
    · intro key hkey key' hkey' heq
      obtain ⟨p', hp', rfl⟩ := List.mem_map.mp hkey'
      obtain ⟨r', hr', hp'⟩ := List.mem_flatMap.mp hp'
      have hof : ∀ {s : Region} {p}, p ∈ s.constants → ∃ k, p.1 = s.key k := by
        intro s p hp
        rcases List.mem_cons.mp hp with rfl | hp
        · exact ⟨_, rfl⟩
        · exact ⟨_, congrArg Prod.fst (List.mem_singleton.mp hp)⟩
      obtain ⟨p, hp, rfl⟩ := List.mem_map.mp hkey
      obtain ⟨k, hk⟩ := hof hp
      obtain ⟨k', hk'⟩ := hof hp'
      rw [hk, hk'] at heq
      exact h.1 (List.mem_map.mpr ⟨r', hr', (key_injective heq).1.symm⟩)

/-- What the checker expects are the constants of the regions. -/
theorem expected_eq (m : Document) : expected m = constants m.regions := by
  have h := nodup_keys m.distinct
  rw [expected, foldl_set (by rw [List.nil_append]; exact h), List.nil_append]

/-- What was found becomes the dictionary of the constants. -/
theorem parseConstants_of_findall {text : Text} {pattern : Regex} {regions : List Region} {digits : Nat → Text}
    (hdistinct : (regions.map Region.name).Nodup) (hdigits : ∀ n, parseDigits (digits n) = some n)
    (hfind : pattern.findall text = (parts regions).map fun p => [some p.1, some p.2.1.text, some (digits p.2.2)]) :
    parseConstants text pattern = some (constants regions) := by
  have hfold : ∀ (ps : List (Text × Kind × Nat)) (d : Dict),
      (ps.map fun p => [some p.1, some p.2.1.text, some (digits p.2.2)]).foldlM parseConstant d =
      some ((ps.map fun p => (p.1 ++ '_' :: p.2.1.text, p.2.2)).foldl (fun d p => d.set p.1 p.2) d) := by
    intro ps
    induction ps with
    | nil =>
      intro d
      rfl
    | cons p ps ih =>
      intro d
      rw [List.map_cons, List.foldlM_cons, parseConstant, hdigits]
      exact ih _
  rw [parseConstants, hfind, hfold, ← constants_eq,
    foldl_set (by rw [List.nil_append]; exact nodup_keys hdistinct), List.nil_append]

/-- Digits are read without their underscores. -/
theorem parseDigits_of_filter {t : Text} {n : Nat} (h : t.filter (fun c => c ≠ '_') = formatHex 8 n) :
    parseDigits t = some n := by
  have hword : IsWord (formatHex 8 n) := isWord_formatHex (by decide)
  rw [parseDigits, h, if_neg hword.1, readHex_formatHex]

/-- Hexadecimal digits hold no underscore to be removed. -/
theorem filter_underscore {t : Text} (h : ∀ c ∈ t, isHexChar c = true) : t.filter (fun c => c ≠ '_') = t := by
  rw [List.filter_eq_self]
  intro c hc
  refine decide_eq_true fun hunderscore => ?_
  exact absurd (h c hc) (by rw [hunderscore]; decide)

/-- Plain digits are read back as the number printed. -/
theorem parseDigits_formatHex (n : Nat) : parseDigits (formatHex 8 n) = some n :=
  parseDigits_of_filter (filter_underscore isHexChar_formatHex)

/-- Grouped digits are read back as the number printed. -/
theorem parseDigits_svDigits (n : Nat) : parseDigits (svDigits n) = some n := by
  refine parseDigits_of_filter ?_
  rw [svDigits, List.filter_append, List.filter_cons_of_neg (by decide),
    filter_underscore fun c hc => isHexChar_formatHex c (List.mem_of_mem_take hc),
    filter_underscore fun c hc => isHexChar_formatHex c (List.mem_of_mem_drop hc), List.take_append_drop]

/-- The names of the regions can be read. -/
def Legible (regions : List Region) : Prop := ∀ r ∈ regions, Readable r.name

/-- Every part of a legible document has a name the patterns read. -/
theorem parts_readable {regions : List Region} (h : Legible regions) :
    ∀ p ∈ parts regions, Readable p.1 ∧ p.1 ≠ [] := by
  intro p hp
  obtain ⟨r, hr, hp⟩ := List.mem_flatMap.mp hp
  have hname : p.1 = r.name := by
    rcases List.mem_cons.mp hp with rfl | hp
    · rfl
    · rw [List.mem_singleton.mp hp]
  rw [hname]
  refine ⟨h r hr, fun hnil => ?_⟩
  have hid := r.identifier
  rw [hnil] at hid
  cases hid

/-- The header is read back. -/
theorem parseConstants_renderMemory {m : Document} (h : Legible m.regions) :
    parseConstants (renderMemory m) cPattern = some (expected m) := by
  rw [expected_eq]
  refine parseConstants_of_findall m.distinct parseDigits_formatHex ?_
  rw [renderMemory_eq, cPattern_top, constants_eq, List.map_map]
  have hfind := cPattern_constants (parts_readable h) (unlines [[],
    "#define SOCRV_RESET_VECTOR 0x".toList ++ (formatHex 8 m.resetVector ++ ['u']), [],
    "#endif /* ".toList ++ ("SOCRV_SOC_MEMORY_MAP_H".toList ++ " */".toList)])
  rw [cPattern_bottom, List.append_nil] at hfind
  exact hfind

/-- The package is read back. -/
theorem parseConstants_renderPackage {regions : List Region} (hdistinct : (regions.map Region.name).Nodup)
    (h : Legible regions) : parseConstants (renderPackage regions) svPattern = some (constants regions) := by
  refine parseConstants_of_findall hdistinct parseDigits_svDigits ?_
  rw [renderPackage, unlines_cons, svPattern_skip _ (by decide), svPattern_newline, unlines_append, constants_eq,
    List.map_map]
  have hfind := fun width => svPattern_constants width (parts_readable h) (unlines ["endpackage".toList])
  have hend : svPattern.findall (unlines ["endpackage".toList]) = [] := by
    rw [unlines_cons, svPattern_skip _ (by decide), svPattern_newline]
    rfl
  rw [hend] at hfind
  simp only [List.append_nil] at hfind
  exact hfind _

/-! ## Names with digits -/

/-- The kind pattern reads name characters only. -/
theorem readsOnly_kindRe : ReadsOnly isNameChar (Regex.alt (.lit "BASE".toList) (.lit "SIZE".toList)) :=
  readsOnly_alt (readsOnly_lit (List.all_eq_true.mp (by decide))) (readsOnly_lit (List.all_eq_true.mp (by decide)))

/-- What the pattern for the header captures as the name and the kind. -/
theorem captures_cPattern {g : Groups} {u v : Text} (h : (g, v) ∈ cPattern.matchAt u) :
    ∃ name kind g', g = some name :: some kind :: g' ∧ Readable name ∧ Readable kind := by
  rw [cPattern_eq] at h
  obtain ⟨_, m₁, h, heq₁⟩ := mem_seq_silent (silent_lit _) h
  obtain ⟨_, m₂, h, heq₂⟩ := mem_seq_silent (silent_many _ _) h
  obtain ⟨_, m₃, h, heq₃⟩ := mem_seq_silent (silent_lit _) h
  obtain ⟨name, _, hname, m₄, h, heq₄⟩ := mem_seq_group (silent_many _ _) (readsOnly_many fun c hc => hc) h
  obtain ⟨_, m₅, h, heq₅⟩ := mem_seq_silent (silent_lit _) h
  obtain ⟨kind, _, hkind, m₆, -, heq₆⟩ := mem_seq_group (silent_alt_lit _ _) readsOnly_kindRe h
  refine ⟨name, kind, m₆.1, ?_, hname, hkind⟩
  exact heq₁.trans (heq₂.trans (heq₃.trans (heq₄.trans (congrArg _ (heq₅.trans heq₆)))))

/-- Setting a key adds no other key. -/
theorem mem_keys_set {d : Dict} {key key' : Text} {value : Nat} (h : key' ∈ (d.set key value).map Prod.fst) :
    key' = key ∨ key' ∈ d.map Prod.fst := by
  unfold Dict.set at h
  split_ifs at h
  · rw [List.map_map] at h
    obtain ⟨p, hp, hkey⟩ := List.mem_map.mp h
    rw [Function.comp_apply] at hkey
    split_ifs at hkey with heq
    · exact .inl hkey.symm
    · exact .inr (hkey ▸ List.mem_map_of_mem hp)
  · rw [List.map_append, List.mem_append, List.map_cons, List.map_nil, List.mem_singleton] at h
    exact h.symm

/-- No constant that is read from a header has a digit in its name. -/
theorem readable_of_parse {text : Text} {d : Dict} (h : parseConstants text cPattern = some d) :
    ∀ key ∈ d.map Prod.fst, Readable key := by
  have hfold : ∀ (gs : List Groups) (d d' : Dict), (∀ g ∈ gs, ∃ u v, (g, v) ∈ cPattern.matchAt u) →
      (∀ key ∈ d.map Prod.fst, Readable key) → gs.foldlM parseConstant d = some d' →
      ∀ key ∈ d'.map Prod.fst, Readable key := by
    intro gs
    induction gs with
    | nil =>
      intro d d' _ hd hfold
      cases hfold
      exact hd
    | cons g gs ih =>
      intro d d' hgs hd hfold
      obtain ⟨u, v, hg⟩ := hgs g (List.mem_cons_self ..)
      obtain ⟨name, kind, g', rfl, hname, hkind⟩ := captures_cPattern hg
      rw [List.foldlM_cons, Option.bind_eq_bind, Option.bind_eq_some_iff] at hfold
      obtain ⟨d₁, hstep, hfold⟩ := hfold
      refine ih d₁ d' (fun q hq => hgs q (List.mem_cons_of_mem _ hq)) ?_ hfold
      intro key hkey
      unfold parseConstant at hstep
      split at hstep
      · rename_i heq
        cases heq
        obtain ⟨n, -, rfl⟩ := Option.map_eq_some_iff.mp hstep
        rcases mem_keys_set hkey with rfl | hkey
        · intro c hc
          rcases List.mem_append.mp hc with hc | hc
          · exact hname c hc
          · rcases List.mem_cons.mp hc with rfl | hc
            · decide
            · exact hkind c hc
        · exact hd key hkey
      · cases hstep
        exact hd key hkey
  refine hfold _ [] d (fun g hg => mem_findallFrom hg) ?_ h
  intro key hkey
  cases hkey

/-- A map whose header is read back has names that can be read. -/
theorem legible_of_parse {m : Document} (h : parseConstants (renderMemory m) cPattern = some (expected m)) :
    Legible m.regions := by
  intro r hr c hc
  have hmem : r.key .base ∈ (expected m).map Prod.fst := by
    rw [expected_eq]
    refine List.mem_map.mpr ⟨(r.key .base, r.value .base), ?_, rfl⟩
    exact List.mem_flatMap.mpr ⟨r, hr, List.mem_cons_self ..⟩
  exact readable_of_parse h _ hmem c (List.mem_append_left _ hc)

end MemoryMap

end SocRV
