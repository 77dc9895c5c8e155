import SocRV.Build.Loading
import SocRV.Lsu.Dccm

/-!
# The memories of the core as the image files initialise them

`$readmemh` as `iccm_mem` and `dccm_mem` use it, one file to a lane or a bank, and where the two memories keep the byte
of an address.
-/

namespace SocRV

/-- `$readmemh` on the words of a file: each goes to the next address; a word behind `@` is the next address. -/
def readmemhTokens : List Text → Nat → (Nat → BitVec 32) → Nat → BitVec 32
  | [], _, m => m
  | ('@' :: address) :: rest, _, m => readmemhTokens rest (readHex address) m
  | word :: rest, k, m => readmemhTokens rest (k + 1) fun j => if j = k then BitVec.ofNat 32 (readHex word) else m j

/-- `$readmemh`, on a memory with the given contents. -/
def readmemh (file : Text) (m : Nat → BitVec 32) : Nat → BitVec 32 := readmemhTokens (tokens file) 0 m

/-- `iccm_mem`: the words of the four lanes. -/
structure IccmMem where
  lanes : BitVec 2 → BitVec 13 → BitVec 32

/-- The lane of an address. -/
def iccmLane (a : BitVec 17) : BitVec 2 := a.extractLsb' 2 2

/-- The line of an address. -/
def iccmLine (a : BitVec 17) : BitVec 13 := a.extractLsb' 4 13

namespace IccmMem

/-- The memory initialised from four lane files, over contents left undefined. -/
def init (files : List Text) (m : BitVec 2 → Nat → BitVec 32) : IccmMem where
  lanes := fun bank line => readmemh (files.getD bank.toNat []) (m bank) line.toNat

/-- The byte at an address. -/
def byte (m : IccmMem) (a : BitVec 17) : BitVec 8 := lane (m.lanes (iccmLane a) (iccmLine a)) (a.extractLsb' 0 2).toNat

end IccmMem

/-- The memory initialised from eight bank files. -/
def DccmMem.init (files : List Text) (m : BitVec 3 → Nat → BitVec 32) : DccmMem where
  bankMem := fun bank row => readmemh (files.getD bank.toNat []) (m bank) row.toNat

/-! ## Reading what was written -/

/-- A digit is not the mark of an address. -/
theorem hexDigit_ne_at {d : Nat} (h : d < 16) : hexDigit d ≠ '@' := by
  have hall : ∀ d < 16, hexDigit d ≠ '@' := by decide
  exact hall d h

/-- A word that is no address goes to the next address. -/
theorem readmemhTokens_formatHex (n : Nat) (rest : List Text) (k : Nat) (m : Nat → BitVec 32) :
    readmemhTokens (formatHex 8 n :: rest) k m =
      readmemhTokens rest (k + 1) fun j => if j = k then BitVec.ofNat 32 n else m j := by
  obtain ⟨hne, -⟩ : IsWord (formatHex 8 n) := isWord_formatHex (by omega)
  have hread := readHex_formatHex 8 n
  cases hw : formatHex 8 n with
  | nil => exact absurd hw hne
  | cons c cs =>
    have hc : c ≠ '@' := by
      obtain ⟨d, hd, rfl⟩ := mem_formatHex (hw ▸ List.mem_cons_self .. : c ∈ formatHex 8 n)
      exact hexDigit_ne_at hd
    rw [hw] at hread
    rw [readmemhTokens.eq_3 _ _ _ _ (fun _ he => hc (List.cons.inj he).1), hread]

/-- Words in hexadecimal are read to the addresses from the first on. -/
theorem readmemhTokens_words (ns : List Nat) (k : Nat) (m : Nat → BitVec 32) (j : Nat) :
    readmemhTokens (ns.map (formatHex 8)) k m j =
      if k ≤ j ∧ j < k + ns.length then BitVec.ofNat 32 (ns.getD (j - k) 0) else m j := by
  induction ns generalizing k m with
  | nil =>
    rw [List.map_nil, readmemhTokens, if_neg]
    rw [List.length_nil]
    omega
  | cons n ns ih =>
    rw [List.map_cons, readmemhTokens_formatHex, ih, List.length_cons]
    by_cases hj : j = k
    · subst hj
      rw [if_neg (by omega), if_pos rfl, if_pos (by omega), Nat.sub_self, List.getD_cons_zero]
    · by_cases hin : k + 1 ≤ j ∧ j < k + 1 + ns.length
      · have hidx : j - k = j - (k + 1) + 1 := by omega
        rw [if_pos hin, if_pos (by omega), hidx, List.getD_cons_succ]
      · rw [if_neg hin, if_neg hj, if_neg (by omega)]

/-- A memory initialised from a file of words, one a line. -/
theorem readmemh_unlines (ns : List Nat) (m : Nat → BitVec 32) {j : Nat} (hj : j < ns.length) :
    readmemh (unlines (ns.map (formatHex 8))) m j = BitVec.ofNat 32 (ns.getD j 0) := by
  have hwords : ∀ l ∈ ns.map (formatHex 8), IsWord l := by
    intro l hl
    obtain ⟨n, -, rfl⟩ := List.mem_map.mp hl
    exact isWord_formatHex (by omega)
  rw [readmemh, tokens_unlines hwords, readmemhTokens_words, if_pos (by omega), Nat.sub_zero]

namespace Elf2Mem

/-- The word of a region that row `row` of a bank is written from. -/
def bankWord (r : Region) (bankCount bank row : Nat) : Nat :=
  fromLittle (slice r.image ((row * bankCount + bank) * 4) ((row * bankCount + bank) * 4 + 4))

/-- A bank file has one word for each row. -/
theorem bankWords_eq (r : Region) (bankCount bank : Nat) :
    bankWords r bankCount bank =
      ((List.range (r.size / (4 * bankCount))).map (bankWord r bankCount bank)).map (formatHex 8) := by
  rw [List.map_map]
  rfl

/-- A bank that is initialised from its file holds, row for row, the words of the image that are its share. -/
theorem readmemh_bankWords (r : Region) (bankCount bank : Nat) (m : Nat → BitVec 32) {row : Nat}
    (h : row < r.size / (4 * bankCount)) :
    readmemh (unlines (bankWords r bankCount bank)) m row = BitVec.ofNat 32 (bankWord r bankCount bank row) := by
  have hrow : row < ((List.range (r.size / (4 * bankCount))).map (bankWord r bankCount bank)).length := by
    rwa [List.length_map, List.length_range]
  rw [bankWords_eq, readmemh_unlines _ _ hrow, List.getD_eq_getElem?_getD, List.getElem?_eq_getElem hrow,
    Option.getD_some, List.getElem_map, List.getElem_range]

/-- Byte `j` of a word of a bank is the byte of the image at the address that bank, row and `j` make. -/
theorem bankWord_byte {r : Region} {bankCount bank row j : Nat} (hj : j < 4)
    (h : (row * bankCount + bank) * 4 + 4 ≤ r.size) :
    some (lane (BitVec.ofNat 32 (bankWord r bankCount bank row)) j) =
      r.image[(row * bankCount + bank) * 4 + j]? := by
  have hsized := r.sized
  have hlen : (slice r.image ((row * bankCount + bank) * 4) ((row * bankCount + bank) * 4 + 4)).length = 4 := by
    rw [slice, List.length_take, List.length_drop]
    omega
  have hslice : (slice r.image ((row * bankCount + bank) * 4) ((row * bankCount + bank) * 4 + 4))[j]? =
      r.image[(row * bankCount + bank) * 4 + j]? := getElem?_slice (by omega)
  rw [← hslice, List.getElem?_eq_getElem (by omega), lane, bankWord, fromLittle_byte (by omega) hj]

/-- A region is split across a number of banks only if it fills them evenly. -/
theorem of_writeInterleavedBanks {r : Region} {n : Nat} {files : List Text} (h : writeInterleavedBanks r n = .ok files) :
    n ≠ 0 ∧ r.size % (4 * n) = 0 ∧ files = (List.range n).map fun bank => unlines (bankWords r n bank) := by
  obtain ⟨hfill, h⟩ := ok_of_check h
  rw [not_or, not_not] at hfill
  exact ⟨hfill.1, hfill.2, (Except.ok.inj h).symm⟩

/-- The byte of a region at an offset is in the bank, the row and the lane that the offset has as digits. -/
theorem banks_byte {r : Region} {n : Nat} {files : List Text} (h : writeInterleavedBanks r n = .ok files)
    (m : Nat → BitVec 32) {k : Nat} (hk : k < r.size) :
    r.image[k]? = some (lane (readmemh (files.getD (k / 4 % n) []) m (k / (4 * n))) (k % 4)) := by
  obtain ⟨hn, hsize, rfl⟩ := of_writeInterleavedBanks h
  have hbank : k / 4 % n < n := Nat.mod_lt _ (by omega)
  have hrow : k / (4 * n) < r.size / (4 * n) :=
    Nat.div_lt_div_of_lt_of_dvd (Nat.dvd_of_mod_eq_zero hsize) hk
  have hfile : ((List.range n).map fun bank => unlines (bankWords r n bank)).getD (k / 4 % n) [] =
      unlines (bankWords r n (k / 4 % n)) := by
    rw [List.getD_eq_getElem?_getD, List.getElem?_map, List.getElem?_range hbank]
    rfl
  have hdigits : (k / (4 * n) * n + k / 4 % n) * 4 + k % 4 = k := by
    rw [← Nat.div_div_eq_div_mul, Nat.mul_comm (k / 4 / n) n, Nat.div_add_mod, Nat.mul_comm, Nat.div_add_mod]
  have hend : (k / (4 * n) * n + k / 4 % n) * 4 + 4 ≤ r.size := by
    have hfour : r.size % 4 = 0 := Nat.mod_eq_zero_of_dvd (Nat.dvd_trans (Nat.dvd_mul_right 4 n) (Nat.dvd_of_mod_eq_zero hsize))
    omega
  rw [hfile, readmemh_bankWords r n _ m hrow, bankWord_byte (Nat.mod_lt k (by omega)) hend, hdigits]

/-- The banks that are asked for are those of the first region of the name. -/
theorem of_writeBanks {rs : List Region} {name few missing : String} {expected : Nat} {files : List Text}
    (he : expected ≠ 0) (h : writeBanks rs name expected expected few missing = .ok files) :
    ∃ r, rs.find? (·.name == name) = some r ∧ writeInterleavedBanks r expected = .ok files := by
  unfold writeBanks at h
  rw [if_neg he, if_neg (by simp)] at h
  cases hr : rs.find? (·.name == name) with
  | none =>
    rw [hr] at h
    cases h
  | some r =>
    rw [hr] at h
    exact ⟨r, rfl, h⟩

end Elf2Mem

end SocRV
