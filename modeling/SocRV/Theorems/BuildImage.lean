import SocRV.Build.InitMem

/-!
# The image in the memories

The lane and bank files of an accepted conversion, read into `iccm_mem` and `dccm_mem`, give every address of a region
the byte that the image of the region has there.
-/

namespace SocRV

namespace Elf2Mem

/-- A region is mapped to a memory of `2 ^ bits` bytes: it starts at a multiple of its size and is no larger. -/
def Region.MapsTo (r : Region) (bits : Nat) : Prop := r.base % 2 ^ bits = 0 ∧ r.size ≤ 2 ^ bits

instance (r : Region) (bits : Nat) : Decidable (r.MapsTo bits) :=
  inferInstanceAs (Decidable (r.base % 2 ^ bits = 0 ∧ r.size ≤ 2 ^ bits))

/-- The low bits of an address of a mapped region are its offset. -/
theorem Region.MapsTo.offset {r : Region} {bits a : Nat} (h : r.MapsTo bits) (ha : r.contains a 1 = true) :
    (BitVec.ofNat bits a).toNat = a - r.base ∧ a - r.base < r.size := by
  obtain ⟨hbase, hsize⟩ := h
  rw [Region.contains_iff] at ha
  have hlt : a - r.base < 2 ^ bits := by omega
  have hmod : a % 2 ^ bits = a - r.base := by
    have hsum : a = r.base + (a - r.base) := by omega
    rw [hsum, Nat.add_mod, hbase, Nat.zero_add, Nat.mod_mod, Nat.mod_eq_of_lt (by omega)]
    omega
  rw [BitVec.toNat_ofNat, hmod]
  omega

/-- The byte that `iccm_mem` has at an address is the byte of the image. -/
theorem iccm_byte {r : Region} {files : List Text} (hr : r.MapsTo 17) (h : writeInterleavedBanks r 4 = .ok files)
    (m : BitVec 2 → Nat → BitVec 32) {a : Nat} (ha : r.contains a 1 = true) :
    r.byteAt a = some ((IccmMem.init files m).byte (BitVec.ofNat 17 a)) := by
  obtain ⟨hoff, hlt⟩ := hr.offset ha
  have hlane : (iccmLane (BitVec.ofNat 17 a)).toNat = (a - r.base) / 4 % 4 := by
    rw [iccmLane, BitVec.extractLsb'_toNat, hoff, Nat.shiftRight_eq_div_pow]
  have hline : (iccmLine (BitVec.ofNat 17 a)).toNat = (a - r.base) / (4 * 4) := by
    have hsize := hr.2
    rw [iccmLine, BitVec.extractLsb'_toNat, hoff, Nat.shiftRight_eq_div_pow]
    omega
  have hbyte : ((BitVec.ofNat 17 a).extractLsb' 0 2).toNat = (a - r.base) % 4 := by
    rw [BitVec.extractLsb'_toNat, hoff, Nat.shiftRight_zero]
  rw [Region.byteAt, if_pos ha, banks_byte h (m (iccmLane (BitVec.ofNat 17 a))) hlt, IccmMem.byte, hbyte]
  simp only [IccmMem.init, hlane, hline]

/-- The byte that `dccm_mem` has at an address is the byte of the image. -/
theorem dccm_byte {r : Region} {files : List Text} (hr : r.MapsTo 16) (h : writeInterleavedBanks r 8 = .ok files)
    (m : BitVec 3 → Nat → BitVec 32) {a : Nat} (ha : r.contains a 1 = true) :
    r.byteAt a = some ((DccmMem.init files m).byte (BitVec.ofNat 16 a)) := by
  obtain ⟨hoff, hlt⟩ := hr.offset ha
  have hbank : (dccmBank (BitVec.ofNat 16 a)).toNat = (a - r.base) / 4 % 8 := by
    rw [dccmBank, BitVec.extractLsb'_toNat, hoff, Nat.shiftRight_eq_div_pow]
  have hrow : (dccmRow (BitVec.ofNat 16 a)).toNat = (a - r.base) / (4 * 8) := by
    have hsize := hr.2
    rw [dccmRow, BitVec.extractLsb'_toNat, hoff, Nat.shiftRight_eq_div_pow]
    omega
  have hbyte : StbufEntry.laneOf (BitVec.ofNat 16 a) = (a - r.base) % 4 := by
    rw [StbufEntry.laneOf, BitVec.extractLsb'_toNat, hoff, Nat.shiftRight_zero]
  rw [Region.byteAt, if_pos ha, banks_byte h (m (dccmBank (BitVec.ofNat 16 a))) hlt, DccmMem.byte, hbyte]
  simp only [DccmMem.init, hbank, hrow]

/-- The regions `CODE` and `DATA` are mapped to the two memories. -/
def Mapped (rs : List Region) : Prop :=
  ∀ r ∈ rs, (r.name = "CODE" → r.MapsTo 17) ∧ (r.name = "DATA" → r.MapsTo 16)

/-- The memory map of the chip maps them. -/
theorem mapped_ofMemoryMap : Mapped Region.ofMemoryMap := by
  intro r hr
  rcases List.mem_cons.mp hr with rfl | hr
  · exact ⟨fun _ => by decide, fun h => absurd h (by decide)⟩
  · rcases List.mem_singleton.mp hr with rfl
    exact ⟨fun h => absurd h (by decide), fun _ => by decide⟩

/-- A region found by name after the conversion is one of the name that was given. -/
theorem find_convert {blob : List (BitVec 8)} {rs : List Region} {o : Options} {out : Output}
    (h : convert blob rs o = .ok out) {name : String} {r : Region} (hr : out.regions.find? (·.name == name) = some r) :
    ∃ q ∈ rs, q.name = name ∧ SamePlace r q := by
  have hname := List.find?_some hr
  obtain ⟨q, hq, hplace⟩ := samePlace_convert h r (List.mem_of_find?_eq_some hr)
  exact ⟨q, hq, hplace.1.symm.trans (beq_iff_eq.mp hname), hplace⟩

/-- A region in the same place maps to the same memory. -/
theorem SamePlace.mapsTo {r q : Region} {bits : Nat} (h : SamePlace r q) (hq : q.MapsTo bits) : r.MapsTo bits := by
  unfold Region.MapsTo
  rw [h.2.1, h.2.2]
  exact hq

/-- For every file that is accepted with four lanes and eight banks, trimmed or not, the memories have at every address
of `CODE` and of `DATA` the byte of the image, whatever they held before. -/
theorem image_in_memories {blob : List (BitVec 8)} {rs : List Region} {o : Options} {out : Output} (hm : Mapped rs)
    (h : convert blob rs o = .ok out) (hlanes : o.iccmLanes = 4) (hbanks : o.dccmBanks = 8)
    (m : BitVec 2 → Nat → BitVec 32) (m' : BitVec 3 → Nat → BitVec 32) :
    ∃ code data, out.regions.find? (·.name == "CODE") = some code ∧ out.regions.find? (·.name == "DATA") = some data ∧
      (∀ a, code.contains a 1 = true →
        code.byteAt a = some ((IccmMem.init out.iccmLanes m).byte (BitVec.ofNat 17 a))) ∧
      (∀ a, data.contains a 1 = true →
        data.byteAt a = some ((DccmMem.init out.dccmBanks m').byte (BitVec.ofNat 16 a))) := by
  obtain ⟨p, placed, -, -, -, -, hcode, hdata⟩ := of_convert h
  rw [hlanes] at hcode
  rw [hbanks] at hdata
  obtain ⟨code, hc, hcode⟩ := of_writeBanks (by decide) hcode
  obtain ⟨data, hd, hdata⟩ := of_writeBanks (by decide) hdata
  obtain ⟨q, hq, hqname, hqc⟩ := find_convert h hc
  obtain ⟨q', hq', hqname', hqd⟩ := find_convert h hd
  have hmc : code.MapsTo 17 := hqc.mapsTo ((hm q hq).1 hqname)
  have hmd : data.MapsTo 16 := hqd.mapsTo ((hm q' hq').2 hqname')
  exact ⟨code, data, hc, hd, fun _ ha => iccm_byte hmc hcode m ha, fun _ ha => dccm_byte hmd hdata m' ha⟩

/-- A file with four bytes of code. -/
def codeElf : List (BitVec 8) := elfFile [[1, 84, 0, 0, 4, 4, 5, 4]] [1, 2, 3, 4]

/-- With the memory map of the chip it is accepted, and the last byte of `CODE` is in the last line of lane 3. -/
theorem image_in_memories_codeElf :
    ∃ out code, convert codeElf Region.ofMemoryMap { trim := true, iccmLanes := 4, dccmBanks := 8 } = .ok out ∧
      out.regions.find? (·.name == "CODE") = some code ∧
      code.byteAt 0x1ffff = some ((IccmMem.init out.iccmLanes fun _ _ => 0).byte 0x1ffff) := by
  cases h : convert codeElf Region.ofMemoryMap { trim := true, iccmLanes := 4, dccmBanks := 8 } with
  | error e =>
    have hok : (convert codeElf Region.ofMemoryMap { trim := true, iccmLanes := 4, dccmBanks := 8 }).toBool = true := by
      decide +kernel
    rw [h] at hok
    cases hok
  | ok out =>
    obtain ⟨code, data, hc, -, hbytes, -⟩ := image_in_memories mapped_ofMemoryMap h rfl rfl (fun _ _ => 0) fun _ _ => 0
    obtain ⟨q, hq, hqname, -, hbase, hsize⟩ := find_convert h hc
    refine ⟨out, code, rfl, hc, hbytes 0x1ffff ?_⟩
    rw [Region.contains_iff, hbase, hsize]
    rcases List.mem_cons.mp hq with rfl | hq
    · decide
    · rcases List.mem_singleton.mp hq with rfl
      exact absurd hqname (by decide)

end Elf2Mem

end SocRV
