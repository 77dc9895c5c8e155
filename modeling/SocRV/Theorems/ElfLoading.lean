import SocRV.Build.Loading

/-!
# Loading an ELF file

A file that the converter accepts has every loadable segment in the regions at its load address, its data first and
zeros behind, as far as no segment of a later program header covers the same address.  The load address is the physical
one unless that is 0.  Segments that overlap are accepted, and the later one stands.
-/

namespace SocRV

namespace Elf2Mem

/-- The byte that a program header asks for at an offset of its segment. -/
def ProgramHeader.byte (h : ProgramHeader) (blob : List (BitVec 8)) (i : Nat) : BitVec 8 :=
  if i < h.fileSize then blob.getD (h.fileOffset + i) 0 else 0

/-- Every byte of every loadable segment is in the regions at its physical address. -/
def LoadsExactly (blob : List (BitVec 8)) (rs : List Region) (o : Options) : Prop :=
  ∀ out, convert blob rs o = .ok out → ∀ index ∈ headerIndices blob, (programHeader blob index).loads = true →
    ∀ i < (programHeader blob index).memorySize,
      byteAt out.regions ((programHeader blob index).physicalAddress + i) =
        some ((programHeader blob index).byte blob i)

/-- A segment of a later program header covers the address. -/
def CoveredLater (blob : List (BitVec 8)) (index x : Nat) : Prop :=
  ∃ later ∈ headerIndices blob, index < later ∧ (programHeader blob later).loads = true ∧
    ((programHeader blob later).segment blob).Covers x

instance (blob : List (BitVec 8)) (index x : Nat) : Decidable (CoveredLater blob index x) :=
  inferInstanceAs (Decidable (∃ later ∈ headerIndices blob, index < later ∧ (programHeader blob later).loads = true ∧
    ((programHeader blob later).segment blob).Covers x))

/-- What the write of a segment gives to an address of it. -/
theorem ProgramHeader.write_segment {h : ProgramHeader} {blob : List (BitVec 8)} (hf : h.Fits blob) {i : Nat}
    (hi : i < h.memorySize) : (h.segment blob).write (h.address + i) = some (some (h.byte blob i)) := by
  have hcov : (h.segment blob).Covers (h.address + i) :=
    ⟨Nat.le_add_right _ _, Nat.add_lt_add_left hi _⟩
  have hidx : h.address + i - (h.segment blob).address = i := Nat.add_sub_cancel_left ..
  rw [Segment.write, if_pos hcov, hidx, ProgramHeader.byte, List.getD_eq_getElem?_getD]
  have hfile := hf.file
  by_cases hlt : i < h.fileSize
  · have hslice : (h.segment blob).data[i]? = blob[h.fileOffset + i]? :=
      getElem?_slice (by omega)
    rw [if_pos hlt, hslice, List.getD_eq_getElem?_getD]
  · have hnone : (h.segment blob).data[i]? = none := by
      rw [List.getElem?_eq_none]
      simp only [ProgramHeader.segment, slice, List.length_take]
      omega
    rw [if_neg hlt, hnone, Option.getD_none]

/-- For every file that is accepted with regions that are apart, a byte of a loadable segment is in the regions at its
load address unless a segment of a later header covers the address. -/
theorem segment_bytes_loaded {blob : List (BitVec 8)} {rs : List Region} {o : Options} {out : Output} (ha : Apart rs)
    (h : convert blob rs o = .ok out) {index : Nat} (hindex : index ∈ headerIndices blob)
    (hl : (programHeader blob index).loads = true) {i : Nat} (hi : i < (programHeader blob index).memorySize)
    (hlast : ¬CoveredLater blob index ((programHeader blob index).address + i)) :
    byteAt out.regions ((programHeader blob index).address + i) = some ((programHeader blob index).byte blob i) := by
  obtain ⟨hbytes, hfits⟩ := byteAt_convert ha h
  have hmem : index ∈ loaded blob (headerIndices blob) := List.mem_filter.mpr ⟨hindex, hl⟩
  obtain ⟨before, after, hsplit⟩ := List.append_of_mem hmem
  have hsorted : (before ++ index :: after).Pairwise (· < ·) := hsplit ▸ List.pairwise_lt_range.filter _
  rw [List.pairwise_append, List.pairwise_cons] at hsorted
  rw [hbytes, hsplit, List.map_append, List.map_cons]
  refine Overlay.laidAll_of_last (ProgramHeader.write_segment (hfits index hmem) hi) fun q hq => ?_
  obtain ⟨later, hlater, rfl⟩ := List.mem_map.mp hq
  have hloaded : later ∈ loaded blob (headerIndices blob) := by
    rw [hsplit]
    exact List.mem_append_right _ (List.mem_cons_of_mem _ hlater)
  obtain ⟨hin, hloads⟩ := List.mem_filter.mp hloaded
  exact if_neg fun hc => hlast ⟨later, hin, hsorted.2.1.1 later hlater, hloads, hc⟩

/-- A region for code and one for data. -/
def smallRegions : List Region := [Region.fresh "CODE" 0 16, Region.fresh "DATA" 0x1000 16]

/-- A segment of four bytes of code, and one of four bytes of data with four zeros behind. -/
def plainElf : List (BitVec 8) :=
  elfFile [[1, 116, 0, 0, 4, 4, 5, 4], [1, 120, 0x1000, 0x1000, 4, 8, 6, 4]] [1, 2, 3, 4, 0xaa, 0xbb, 0xcc, 0xdd]

/-- The file is accepted, and the second byte of its data is at its address. -/
theorem segment_bytes_loaded_plainElf :
    ∃ out, convert plainElf smallRegions {} = .ok out ∧ byteAt out.regions 0x1001 = some 0xbb := by
  cases h : convert plainElf smallRegions {} with
  | error e =>
    have hok : (convert plainElf smallRegions {}).toBool = true := by decide +kernel
    rw [h] at hok
    cases hok
  | ok out =>
    have hindex : 1 ∈ headerIndices plainElf := by decide +kernel
    have hl : (programHeader plainElf 1).loads = true := by decide +kernel
    have hi : 1 < (programHeader plainElf 1).memorySize := by decide +kernel
    have hlast : ¬CoveredLater plainElf 1 ((programHeader plainElf 1).address + 1) := by decide +kernel
    have haddr : (programHeader plainElf 1).address + 1 = 0x1001 := by decide +kernel
    have hbyte : (programHeader plainElf 1).byte plainElf 1 = 0xbb := by decide +kernel
    have hload := segment_bytes_loaded (by decide +kernel) h hindex hl hi hlast
    rw [haddr, hbyte] at hload
    exact ⟨out, rfl, hload⟩

/-- Two segments of code that share two addresses. -/
def overlapElf : List (BitVec 8) :=
  elfFile [[1, 116, 0, 0, 4, 4, 5, 4], [1, 120, 2, 2, 4, 4, 5, 4]] [1, 2, 3, 4, 5, 6, 7, 8]

/-- A segment with the virtual address of data and the physical address 0. -/
def zeroPhysicalElf : List (BitVec 8) := elfFile [[1, 84, 0x1000, 0, 4, 4, 6, 4]] [1, 2, 3, 4]

/-- What the regions hold at an address, if the file is accepted. -/
def byteAfter (blob : List (BitVec 8)) (rs : List Region) (o : Options) (x : Nat) : Except String (Option (BitVec 8)) :=
  (convert blob rs o).map fun out => byteAt out.regions x

/-- Each byte of a loaded segment is in the memory after a successful conversion. -/
theorem LoadsExactly.byteAfter {blob : List (BitVec 8)} {rs : List Region} {o : Options}
    (h : LoadsExactly blob rs o) {index i : Nat} (hindex : index ∈ headerIndices blob)
    (hl : (programHeader blob index).loads = true) (hi : i < (programHeader blob index).memorySize)
    (hok : (convert blob rs o).toBool = true) :
    Elf2Mem.byteAfter blob rs o ((programHeader blob index).physicalAddress + i) =
      .ok (some ((programHeader blob index).byte blob i)) := by
  unfold Elf2Mem.byteAfter
  cases hc : convert blob rs o with
  | error e =>
    rw [hc] at hok
    cases hok
  | ok out =>
    have hbyte := h out hc index hindex hl i hi
    simp only [Except.map, hbyte]

/-- Both are accepted.  Of the first file address 2 holds the first byte of the second segment and not the third of the
first one; the segment of the second file is at its virtual address. -/
theorem not_loadsExactly :
    ¬LoadsExactly overlapElf smallRegions {} ∧ ¬LoadsExactly zeroPhysicalElf smallRegions {} := by
  constructor
  · intro h
    have hindex : 0 ∈ headerIndices overlapElf := by decide +kernel
    have hi : 2 < (programHeader overlapElf 0).memorySize := by decide +kernel
    have hbyte := h.byteAfter hindex (by decide +kernel) hi (by decide +kernel)
    revert hbyte
    decide +kernel
  · intro h
    have hindex : 0 ∈ headerIndices zeroPhysicalElf := by decide +kernel
    have hi : 0 < (programHeader zeroPhysicalElf 0).memorySize := by decide +kernel
    have hbyte := h.byteAfter hindex (by decide +kernel) hi (by decide +kernel)
    revert hbyte
    decide +kernel

end Elf2Mem

end SocRV
