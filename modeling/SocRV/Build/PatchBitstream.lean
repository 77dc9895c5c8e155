import SocRV.Build.Loading

/-!
# The bitstream patcher

`scripts/patch_bitstream.py` reads the flat word files of an image back and deals their words out to the memories of the
bitstream.
-/

namespace SocRV

namespace PatchBitstream

open Elf2Mem

/-- Exactly eight hexadecimal digits. -/
def isHexWord (word : Text) : Bool := word.length == 8 && word.all fun c => (hexValue c).isSome

/-- The loop of `read_flat_mem` over the lines from the given number on. -/
def readLines (path : String) (number : Nat) : List Text → Except String (List Text)
  | [] => .ok []
  | raw :: rest =>
    let word := strip raw
    if !isHexWord word then .error s!"{path}:{number}: expected exactly 8 hexadecimal digits"
    else do
      let words ← readLines path (number + 1) rest
      return word.map Char.toLower :: words

/-- `read_flat_mem`. -/
def readFlatMem (path : String) (file : Text) (expectedWords : Nat) : Except String (List Text) := do
  let words ← readLines path 1 (splitlines file)
  if words.length ≠ expectedWords then .error s!"{path}: expected {expectedWords} words, got {words.length}"
  else .ok words

/-- `words[index::ways]`. -/
def stride (words : List Text) (index ways : Nat) : List Text :=
  (List.range ((words.length - index + (ways - 1)) / ways)).filterMap fun k => words[index + k * ways]?

/-- `split_words`. -/
def splitWords (words : List Text) (ways : Nat) : Except String (List (List Text)) :=
  if words.length % ways ≠ 0 then
    .error s!"cannot split {words.length} words into {ways} interleaved memories"
  else .ok ((List.range ways).map fun index => stride words index ways)

/-- The bytes that words of text stand for, low byte of each word first. -/
def bytesOf (words : List Text) : List (BitVec 8) := words.flatMap fun word => toLittle 4 (readHex word)

/-! ## Reading back -/

/-- The characters of a word are hexadecimal digits in lower case already. -/
theorem isHexWord_formatHex {n : Nat} (h : n < 16 ^ 8) :
    isHexWord (formatHex 8 n) = true ∧ (formatHex 8 n).map Char.toLower = formatHex 8 n := by
  have hdigit : ∀ d < 16, (hexValue (hexDigit d)).isSome = true ∧ (hexDigit d).toLower = hexDigit d := by decide
  have hmem : ∀ c ∈ formatHex 8 n, (hexValue c).isSome = true ∧ c.toLower = c := by
    intro c hc
    obtain ⟨d, hd, rfl⟩ := mem_formatHex hc
    exact hdigit d hd
  constructor
  · rw [isHexWord, length_formatHex h, Bool.and_eq_true, List.all_eq_true]
    exact ⟨rfl, fun c hc => (hmem c hc).1⟩
  · have hid := List.map_congr_left fun c hc => (hmem c hc).2
    rw [hid, List.map_id']

/-- The lines of a file of words pass the check, and are the words. -/
theorem readLines_formatHex {path : String} {ns : List Nat} (h : ∀ n ∈ ns, n < 16 ^ 8) (number : Nat) :
    readLines path number (ns.map (formatHex 8)) = .ok (ns.map (formatHex 8)) := by
  induction ns generalizing number with
  | nil => rfl
  | cons n ns ih =>
    obtain ⟨hhex, hlower⟩ := isHexWord_formatHex (h n (List.mem_cons_self ..))
    have hstrip : strip (formatHex 8 n) = formatHex 8 n := strip_word (isWord_formatHex (by omega))
    have hrest := ih (fun k hk => h k (List.mem_cons_of_mem _ hk)) (number + 1)
    rw [List.map_cons, readLines]
    simp only [hstrip, hhex, hrest, hlower, Bool.not_true, Bool.false_eq_true, if_false]
    rfl

/-- A file of words is read back as it was written. -/
theorem readFlatMem_unlines {path : String} {ns : List Nat} (h : ∀ n ∈ ns, n < 16 ^ 8) :
    readFlatMem path (unlines (ns.map (formatHex 8))) ns.length = .ok (ns.map (formatHex 8)) := by
  have hlines : ∀ l ∈ ns.map (formatHex 8), ∀ c ∈ l, isLineBreak c = false := by
    intro l hl c hc
    obtain ⟨n, -, rfl⟩ := List.mem_map.mp hl
    exact not_isLineBreak ((isWord_formatHex (by omega)).2 c hc)
  have hread : readLines path 1 (ns.map (formatHex 8)) = .ok (ns.map (formatHex 8)) := readLines_formatHex h 1
  rw [readFlatMem, splitlines_unlines hlines, hread]
  simp [bind, Except.bind]

/-- The words of the flat file of a region that is not trimmed. -/
def flatWords (r : Region) : List Nat :=
  (List.range (r.paddedSize false / 4)).map fun k => fromLittle (slice (r.written false).image (4 * k) (4 * k + 4))

/-- The flat file has one line for each word of the region. -/
theorem wordMem_eq (r : Region) : r.wordMem false = unlines ((flatWords r).map (formatHex 8)) := by
  rw [flatWords, List.map_map]
  rfl

theorem flatWords_lt (r : Region) : ∀ n ∈ flatWords r, n < 16 ^ 8 := by
  intro n hn
  obtain ⟨k, -, rfl⟩ := List.mem_map.mp hn
  refine Nat.lt_of_lt_of_le (fromLittle_lt _) ?_
  have hlen : (slice (r.written false).image (4 * k) (4 * k + 4)).length ≤ 4 := by
    rw [slice, List.length_take]
    omega
  exact Nat.pow_le_pow_right (by omega : 0 < 256) hlen

/-- The patcher reads the words of a flat file that was not trimmed. -/
theorem readFlatMem_wordMem (path : String) (r : Region) :
    readFlatMem path (r.wordMem false) (r.paddedSize false / 4) = .ok ((flatWords r).map (formatHex 8)) := by
  have hlen : (flatWords r).length = r.paddedSize false / 4 := by rw [flatWords, List.length_map, List.length_range]
  rw [wordMem_eq, ← hlen]
  exact readFlatMem_unlines (flatWords_lt r)

/-! ## Dealing out -/

/-- Every `ways`-th word of as many whole rounds. -/
theorem stride_eq {words : List Text} {index ways rounds : Nat} (hi : index < ways)
    (hlen : words.length = rounds * ways) :
    stride words index ways = (List.range rounds).filterMap fun k => words[index + k * ways]? := by
  have hcount : (words.length - index + (ways - 1)) / ways = rounds := by
    rw [hlen]
    cases rounds with
    | zero =>
      rw [Nat.zero_mul, Nat.zero_sub, Nat.zero_add]
      exact Nat.div_eq_of_lt (by omega)
    | succ k =>
      have hsum : (k + 1) * ways - index + (ways - 1) = (ways - 1 - index) + (k + 1) * ways := by
        rw [Nat.succ_mul]
        omega
      rw [hsum, Nat.add_mul_div_right _ _ (by omega), Nat.div_eq_of_lt (by omega), Nat.zero_add]
  rw [stride, hcount]

/-- A region whose size is a number of words is written as it is. -/
theorem written_image {r : Region} (h : r.size % 4 = 0) : (r.written false).image = r.image := by
  have hpad : r.paddedSize false = r.size := by
    simp only [Region.paddedSize, Region.outputSize, Bool.false_eq_true, if_false]
    omega
  have hsized := r.sized
  simp only [Region.written, hpad]
  rw [Nat.sub_eq_zero_of_le hsized, List.replicate_zero, List.append_nil]

/-- A region of whole words is not padded. -/
theorem paddedSize_false {r : Region} (h : r.size % 4 = 0) : r.paddedSize false = r.size := by
  simp only [Region.paddedSize, Region.outputSize, Bool.false_eq_true, if_false]
  omega

/-- The words dealt to a bank are those that the converter writes for it. -/
theorem stride_flatWords {r : Region} {ways bank : Nat} (hsize : r.size % (4 * ways) = 0) (hb : bank < ways) :
    stride ((flatWords r).map (formatHex 8)) bank ways = bankWords (r.written false) ways bank := by
  obtain ⟨rounds, hrounds⟩ := Nat.dvd_of_mod_eq_zero hsize
  have hfour : r.size % 4 = 0 := by
    rw [hrounds, Nat.mul_assoc]
    exact Nat.mul_mod_right ..
  have hwords : r.size / 4 = rounds * ways := by
    rw [hrounds, Nat.mul_assoc, Nat.mul_div_cancel_left _ (by omega), Nat.mul_comm]
  have hdepth : (r.written false).size / (4 * ways) = rounds := by
    have hsame : (r.written false).size = r.size := rfl
    rw [hsame, hrounds, Nat.mul_div_cancel_left _ (by omega)]
  have hlen : ((flatWords r).map (formatHex 8)).length = rounds * ways := by
    rw [List.length_map, flatWords, List.length_map, List.length_range, paddedSize_false hfour, hwords]
  rw [stride_eq hb hlen, bankWords, hdepth, List.filterMap_eq_map_iff_forall_eq_some]
  intro k hk
  rw [List.mem_range] at hk
  have hlt : bank + k * ways < r.paddedSize false / 4 := by
    have hmul : (k + 1) * ways ≤ rounds * ways := Nat.mul_le_mul_right _ hk
    rw [Nat.succ_mul] at hmul
    rw [paddedSize_false hfour, hwords]
    omega
  have hoff : 4 * (bank + k * ways) = (k * ways + bank) * 4 := by
    rw [Nat.mul_comm, Nat.add_comm]
  rw [flatWords, List.map_map, List.getElem?_map, List.getElem?_range hlt, Option.map_some]
  simp only [Function.comp_apply, hoff, Region.wordLine]

/-! ## The bytes of the image -/

/-- Slices of four bytes put together are the whole. -/
theorem flatMap_slices (l : List (BitVec 8)) (n : Nat) (h : l.length = 4 * n) :
    (List.range n).flatMap (fun k => slice l (4 * k) (4 * k + 4)) = l := by
  induction n generalizing l with
  | zero => exact (List.eq_nil_of_length_eq_zero h).symm
  | succ n ih =>
    have hshift : ∀ k, slice l (4 * (k + 1)) (4 * (k + 1) + 4) = slice (l.drop 4) (4 * k) (4 * k + 4) := by
      intro k
      have hsum : 4 + 4 * k = 4 * (k + 1) := by omega
      rw [slice, slice, List.drop_drop, hsum, Nat.add_sub_cancel_left, Nat.add_sub_cancel_left]
    have hrest := ih (l.drop 4) (by rw [List.length_drop]; omega)
    rw [List.range_succ_eq_map, List.flatMap_cons, List.flatMap_map]
    simp only [hshift, hrest]
    rw [slice, Nat.mul_zero, List.drop_zero, Nat.zero_add, Nat.sub_zero, List.take_append_drop]

/-- The words of the flat file stand for the image. -/
theorem bytesOf_flatWords {r : Region} (h : r.size % 4 = 0) (hfull : r.image.length = r.size) :
    bytesOf ((flatWords r).map (formatHex 8)) = r.image := by
  have hlen : r.image.length = 4 * (r.size / 4) := by omega
  have hword : ∀ k ∈ List.range (r.size / 4),
      toLittle 4 (fromLittle (slice r.image (4 * k) (4 * k + 4))) = slice r.image (4 * k) (4 * k + 4) := by
    intro k hk
    rw [List.mem_range] at hk
    have hfour : (slice r.image (4 * k) (4 * k + 4)).length = 4 := by
      rw [slice, List.length_take, List.length_drop]
      omega
    have hback := toLittle_fromLittle (slice r.image (4 * k) (4 * k + 4))
    rwa [hfour] at hback
  rw [bytesOf, List.flatMap_map, flatWords, List.flatMap_map, paddedSize_false h, written_image h]
  simp only [readHex_formatHex]
  rw [List.flatMap_congr hword]
  exact flatMap_slices r.image (r.size / 4) hlen

end PatchBitstream

end SocRV
