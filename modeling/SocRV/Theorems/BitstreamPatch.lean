import SocRV.Build.PatchBitstream

/-!
# Patching a bitstream

The patcher reads the flat files back word for word and deals the words out as the converter does: a patched memory has
the words of the lane or bank file that the build writes.
-/

namespace SocRV

namespace PatchBitstream

open Elf2Mem

/-- The patcher deals the flat file of a region out to the words of the bank files of the same region. -/
def SplitsAlike (path : String) (r : Region) : Prop :=
  ∀ ways files, writeInterleavedBanks (r.written false) ways = .ok files →
    ∃ words banks, readFlatMem path (r.wordMem false) (r.size / 4) = .ok words ∧ splitWords words ways = .ok banks ∧
      files = banks.map unlines

/-- The words read back from the flat file of a region stand for the bytes of its image. -/
def ReadsBack (path : String) (r : Region) : Prop :=
  ∃ words, readFlatMem path (r.wordMem false) (r.size / 4) = .ok words ∧ bytesOf words = r.image

/-- Every region is split in the same way by both scripts. -/
theorem splitsAlike (path : String) (r : Region) : SplitsAlike path r := by
  intro ways files h
  obtain ⟨hfill, h⟩ := ok_of_check h
  rw [not_or, not_not] at hfill
  obtain ⟨hways, hsize⟩ := hfill
  have hwritten : (r.written false).size = r.size := rfl
  rw [hwritten] at hsize
  have hfour : r.size % 4 = 0 :=
    Nat.mod_eq_zero_of_dvd (Nat.dvd_trans (Nat.dvd_mul_right 4 ways) (Nat.dvd_of_mod_eq_zero hsize))
  have hread := readFlatMem_wordMem path r
  rw [paddedSize_false hfour] at hread
  have hlen : ((flatWords r).map (formatHex 8)).length % ways = 0 := by
    rw [List.length_map, flatWords, List.length_map, List.length_range, paddedSize_false hfour]
    obtain ⟨rounds, hrounds⟩ := Nat.dvd_of_mod_eq_zero hsize
    rw [hrounds, Nat.mul_assoc, Nat.mul_div_cancel_left _ (by omega)]
    exact Nat.mul_mod_right ..
  refine ⟨_, (List.range ways).map fun bank => stride ((flatWords r).map (formatHex 8)) bank ways, hread, ?_, ?_⟩
  · rw [splitWords, if_neg (not_not.mpr hlen)]
  · rw [← Except.ok.inj h, List.map_map]
    refine List.map_congr_left fun bank hbank => ?_
    rw [List.mem_range] at hbank
    rw [Function.comp_apply, stride_flatWords hsize hbank]

/-- For every region the patcher splits as the converter does, and an image whose length is a number of words is read
back from its flat file. -/
theorem patch_agrees (path : String) (r : Region) :
    SplitsAlike path r ∧ (r.size % 4 = 0 → r.image.length = r.size → ReadsBack path r) := by
  refine ⟨splitsAlike path r, fun h hfull => ⟨(flatWords r).map (formatHex 8), ?_, bytesOf_flatWords h hfull⟩⟩
  have hread := readFlatMem_wordMem path r
  rwa [paddedSize_false h] at hread

/-- Eight words of code, with each byte its own address. -/
def counted : Region where
  name := "CODE"
  base := 0
  size := 32
  image := (List.range 32).map (BitVec.ofNat 8)
  sized := Nat.le_refl 32

/-- They are dealt out to four lanes of two words each, split alike and read back. -/
theorem patch_agrees_code :
    writeInterleavedBanks (counted.written false) 4 = .ok ["03020100\n13121110\n".toList, "07060504\n17161514\n".toList,
      "0b0a0908\n1b1a1918\n".toList, "0f0e0d0c\n1f1e1d1c\n".toList] ∧
    SplitsAlike "code.mem" counted ∧ ReadsBack "code.mem" counted := by
  obtain ⟨hsplit, hback⟩ := patch_agrees "code.mem" counted
  refine ⟨?_, hsplit, hback rfl rfl⟩
  rw [writeInterleavedBanks, if_neg (by decide)]
  rfl

end PatchBitstream

end SocRV
