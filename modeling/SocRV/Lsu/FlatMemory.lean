import SocRV.Lsu.Dccm

/-!
# The flat memory behind the DCCM path

What an access means on a flat byte memory: a store writes as many bytes as its size from its address on, a load
reads them.  For an aligned access this is what the lanes, byte enables and shifts of the store buffer and of the
load merge compute.
-/

namespace SocRV

open StbufEntry

/-- The number of bytes of an access. -/
def LsuPkt.size (p : LsuPkt) : Nat := if p.byte then 1 else if p.half then 2 else 4

/-- Exactly one size is set. -/
def LsuPkt.OneSize (p : LsuPkt) : Prop := [p.byte, p.half, p.word].count true = 1

instance (p : LsuPkt) : Decidable p.OneSize := inferInstanceAs (Decidable (_ = _))

/-- What a store does to a flat memory. -/
def LsuPkt.write (p : LsuPkt) (a : BitVec 16) (d : BitVec 32) : Overlay (BitVec 16) (BitVec 8) := fun b =>
  if (b - a).toNat < p.size then some (lane d (b - a).toNat) else none

/-- The word that starts at an address of a flat memory. -/
def flatWord (m : BitVec 16 → BitVec 8) (a : BitVec 16) : BitVec 32 := ofLanes fun j => m (a + BitVec.ofNat 16 j)

/-! ## Sizes and alignment -/

variable {p : LsuPkt} {a b : BitVec 16}

/-- An access of one size has one, two or four bytes. -/
theorem OneSize_cases (h : p.OneSize) :
    (p.byte = true ∧ p.half = false ∧ p.word = false ∧ p.size = 1) ∨
    (p.byte = false ∧ p.half = true ∧ p.word = false ∧ p.size = 2) ∨
    (p.byte = false ∧ p.half = false ∧ p.word = true ∧ p.size = 4) := by
  unfold LsuPkt.OneSize at h
  unfold LsuPkt.size
  cases hb : p.byte <;> cases hh : p.half <;> cases hw : p.word <;> simp [hb, hh, hw] at h ⊢

/-- The lane of an address is its remainder by four. -/
theorem laneOf_eq (a : BitVec 16) : laneOf a = a.toNat % 4 := by
  unfold laneOf
  rw [BitVec.extractLsb'_toNat, Nat.shiftRight_zero]

/-- Two addresses are of one word when they agree but for the lane. -/
theorem sbWord_eq_iff : sbWord a = sbWord b ↔ a.toNat / 4 = b.toNat / 4 := by
  have ha := a.isLt
  have hb := b.isLt
  unfold sbWord
  rw [← BitVec.toNat_inj, BitVec.extractLsb'_toNat, BitVec.extractLsb'_toNat, Nat.shiftRight_eq_div_pow,
    Nat.shiftRight_eq_div_pow]
  omega

/-- An aligned access has its address at a multiple of its size. -/
theorem mod_size_of_isAligned (h : p.OneSize) {x : BitVec 32} (ha : p.isAligned x = true) :
    (LsuMem.low x).toNat % p.size = 0 := by
  have hlow : (LsuMem.low x).toNat = x.toNat % 65536 := by
    unfold LsuMem.low
    rw [BitVec.extractLsb'_toNat, Nat.shiftRight_zero]
  have h0 : x.getLsbD 0 = decide (x.toNat % 2 = 1) := by
    rw [BitVec.getLsbD, Nat.testBit_zero]
  have h1 : x.getLsbD 1 = decide (x.toNat / 2 % 2 = 1) := by
    rw [BitVec.getLsbD, Nat.testBit_succ, Nat.testBit_zero]
  unfold LsuPkt.isAligned at ha
  rw [h0, h1] at ha
  rw [hlow]
  obtain ⟨hb, hh, hw, hs⟩ | ⟨hb, hh, hw, hs⟩ | ⟨hb, hh, hw, hs⟩ := OneSize_cases h
  all_goals
    rw [hs]
    simp [hb, hh, hw] at ha
    try omega

/-- An aligned access stays within its word. -/
theorem lane_add_size_le (h : p.OneSize) (ha : a.toNat % p.size = 0) : laneOf a + p.size ≤ 4 := by
  rw [laneOf_eq]
  obtain ⟨-, -, -, hs⟩ | ⟨-, -, -, hs⟩ | ⟨-, -, -, hs⟩ := OneSize_cases h
  all_goals
    rw [hs] at ha ⊢
    omega

/-- The bytes of an aligned access are lanes of one word. -/
theorem sub_lt_size_iff (h : p.OneSize) (ha : a.toNat % p.size = 0) :
    (b - a).toNat < p.size ↔ sbWord a = sbWord b ∧ laneOf a ≤ laneOf b ∧ laneOf b < laneOf a + p.size := by
  have hle := lane_add_size_le h ha
  have ha' := a.isLt
  have hb' := b.isLt
  rw [sbWord_eq_iff]
  rw [laneOf_eq] at hle ⊢
  rw [laneOf_eq, BitVec.toNat_sub]
  omega

/-- Within a word addresses differ by their lanes. -/
theorem sub_eq_lane_sub (hw : sbWord a = sbWord b) (hle : laneOf a ≤ laneOf b) :
    (b - a).toNat = laneOf b - laneOf a := by
  have ha' := a.isLt
  have hb' := b.isLt
  rw [sbWord_eq_iff] at hw
  rw [laneOf_eq, laneOf_eq] at hle ⊢
  rw [BitVec.toNat_sub]
  omega

/-- The byte enables of a size, moved to an offset, are the lanes from there on. -/
theorem shifted_byteen : ∀ o < 4, ∀ l < 4,
    (((0b00000001#8 : BitVec 8) <<< o).extractLsb' 0 4).getLsbD l = decide (o ≤ l ∧ l < o + 1) ∧
    (((0b00000011#8 : BitVec 8) <<< o).extractLsb' 0 4).getLsbD l = decide (o ≤ l ∧ l < o + 2) ∧
    (((0b00001111#8 : BitVec 8) <<< o).extractLsb' 0 4).getLsbD l = decide (o ≤ l ∧ l < o + 4) := by decide

/-- The byte enables of the first word are the lanes of the access. -/
theorem byteenLo_getLsbD (h : p.OneSize) (a : BitVec 16) {l : Nat} (hl : l < 4) :
    (p.byteenLo a).getLsbD l = decide (laneOf a ≤ l ∧ l < laneOf a + p.size) := by
  obtain ⟨h1, h2, h4⟩ := shifted_byteen (laneOf a) (laneOf_lt a) l hl
  unfold LsuPkt.byteenLo LsuPkt.byteenExt LsuPkt.byteen8
  obtain ⟨hb, hh, hw, hs⟩ | ⟨hb, hh, hw, hs⟩ | ⟨hb, hh, hw, hs⟩ := OneSize_cases h
  all_goals
    rw [hs, hb, hh, hw]
  · exact h1
  · exact h2
  · exact h4

/-- The sum of offset and size in 13 bits is that of 32 bits. -/
theorem signExtend_add_offset (offset : BitVec 12) (k : BitVec 3) :
    (offset.signExtend 13 + k.zeroExtend 13).signExtend 32 = offset.signExtend 32 + k.zeroExtend 32 := by
  apply BitVec.eq_of_toNat_eq
  have hoffset := offset.isLt
  have hk := k.isLt
  simp only [BitVec.toNat_add, BitVec.toNat_signExtend, BitVec.msb_eq_decide, BitVec.toNat_setWidth,
    BitVec.truncate_eq_setWidth, decide_eq_true_eq]
  split_ifs <;> omega

/-- The last byte of an access. -/
theorem Lsc.endAddrDc1_eq (s : Lsc) (i : LscIn) :
    s.endAddrDc1 i = s.addrDc1 i + s.addrOffsetDc1.zeroExtend 32 := by
  unfold Lsc.endAddrDc1 Lsc.addrDc1
  rw [signExtend_add_offset, rvlsadder_eq, BitVec.add_assoc]

/-- The last byte of an aligned access is in the same word. -/
theorem aligned_same_word (h : p.OneSize) {x y : BitVec 32} (ha : p.isAligned x = true)
    (hy : y = x + BitVec.ofNat 32 (p.size - 1)) :
    inDccm y = inDccm x ∧ sbWord (LsuMem.low x) = sbWord (LsuMem.low y) := by
  have hmod := mod_size_of_isAligned h ha
  have hlow : ∀ z : BitVec 32, (LsuMem.low z).toNat = z.toNat % 65536 := by
    intro z
    unfold LsuMem.low
    rw [BitVec.extractLsb'_toNat, Nat.shiftRight_zero]
  have hx := x.isLt
  rw [sbWord_eq_iff, hlow, hlow]
  rw [hlow] at hmod
  unfold inDccm
  simp only [BitVec.le_def, hy, BitVec.toNat_add, BitVec.toNat_ofNat]
  obtain ⟨-, -, -, hs⟩ | ⟨-, -, -, hs⟩ | ⟨-, -, -, hs⟩ := OneSize_cases h
  all_goals
    rw [hs] at hmod ⊢
    refine ⟨?_, by omega⟩
    rw [← Bool.decide_and, ← Bool.decide_and, decide_eq_decide]
    omega

/-- An aligned access in DC1 is in the DCCM when its address is, and takes one entry of the store buffer. -/
theorem Lsc.addrInDccmDc1_of_isAligned {s : Lsc} {i : LscIn} (h : s.pktDc1.OneSize)
    (ha : s.pktDc1.isAligned (s.addrDc1 i) = true) :
    s.addrInDccmDc1 i = inDccm (s.addrDc1 i) ∧
    sbWord (LsuMem.low (s.addrDc1 i)) = sbWord (LsuMem.low (s.endAddrDc1 i)) := by
  have hoffset : s.addrOffsetDc1.zeroExtend 32 = BitVec.ofNat 32 (s.pktDc1.size - 1) := by
    unfold Lsc.addrOffsetDc1
    obtain ⟨hb, hh, hw, hs⟩ | ⟨hb, hh, hw, hs⟩ | ⟨hb, hh, hw, hs⟩ := OneSize_cases h
    all_goals
      rw [hs, hh, hw]
      rfl
  have hend : s.endAddrDc1 i = s.addrDc1 i + BitVec.ofNat 32 (s.pktDc1.size - 1) := by
    rw [s.endAddrDc1_eq i, hoffset]
  obtain ⟨hin, hword⟩ := aligned_same_word h ha hend
  refine ⟨?_, hword⟩
  unfold Lsc.addrInDccmDc1
  rw [hin, Bool.and_self]

/-- Addresses in one word agree in the bit that tells two words of a pair apart. -/
theorem getLsbD_two_of_sbWord (h : sbWord a = sbWord b) : a.getLsbD 2 = b.getLsbD 2 := by
  have hbit := congrArg (fun w : BitVec 14 => w.getLsbD 0) h
  simpa [sbWord] using hbit

/-! ## Lanes of the shifted words -/

/-- Store data moved to an offset has the lanes of the register from there on. -/
theorem lane_storeData (d : BitVec 32) {o l : Nat} (hl : l < 4) (ho : o ≤ l) :
    lane ((d.zeroExtend 64 <<< (8 * o)).extractLsb' 0 32) l = lane d (l - o) := by
  unfold lane
  ext i hi
  simp only [BitVec.getElem_extractLsb', BitVec.getLsbD_extractLsb', BitVec.getLsbD_shiftLeft,
    BitVec.truncate_eq_setWidth, BitVec.getLsbD_setWidth]
  rw [decide_eq_true (by omega : 8 * l + i < 32), decide_eq_true (by omega : 0 + (8 * l + i) < 64),
    decide_eq_false (by omega : ¬0 + (8 * l + i) < 8 * o), decide_eq_true (by omega : 0 + (8 * l + i) - 8 * o < 64)]
  simp only [Bool.true_and, Bool.not_false]
  congr 1
  omega

/-- Load data moved from an offset has the lanes of the word from there on. -/
theorem lane_ldData (hi lo : BitVec 32) {o j : Nat} (hj : o + j < 4) :
    lane (((hi ++ lo) >>> (8 * o)).extractLsb' 0 32) j = lane lo (o + j) := by
  unfold lane
  ext i hi'
  simp only [BitVec.getElem_extractLsb', BitVec.getLsbD_extractLsb', BitVec.getLsbD_ushiftRight,
    BitVec.getLsbD_append]
  rw [decide_eq_true (by omega : 8 * j + i < 32), if_pos (by omega : 8 * o + (0 + (8 * j + i)) < 32), Bool.true_and]
  congr 1
  omega

/-- The extension of a load looks at the bytes of its size only. -/
theorem extend_congr (h : p.OneSize) {x y : BitVec 32} (hxy : ∀ j < p.size, lane x j = lane y j) :
    p.extend x = p.extend y := by
  have hbyte : ∀ z : BitVec 32, z.extractLsb' 0 8 = lane z 0 := fun _ => rfl
  have hhalf : ∀ z : BitVec 32, z.extractLsb' 0 16 = lane z 1 ++ lane z 0 := by
    intro z
    unfold lane
    apply BitVec.eq_of_getLsbD_eq
    intro i hi
    rw [BitVec.getLsbD_append, BitVec.getLsbD_extractLsb', BitVec.getLsbD_extractLsb', BitVec.getLsbD_extractLsb',
      decide_eq_true hi]
    by_cases hlt : i < 8
    · rw [if_pos hlt, decide_eq_true hlt]
    · rw [if_neg hlt, decide_eq_true (by omega : i - 8 < 8)]
      congr 2
      omega
  unfold LsuPkt.extend
  obtain ⟨hb, hh, hw, hs⟩ | ⟨hb, hh, hw, hs⟩ | ⟨hb, hh, hw, hs⟩ := OneSize_cases h
  · rw [hs] at hxy
    simp only [hb, hh, hw, hbyte, hxy 0 (by omega), Bool.and_false, Bool.false_eq_true, if_false]
  · rw [hs] at hxy
    simp only [hb, hh, hw, hhalf, hxy 0 (by omega), hxy 1 (by omega), Bool.and_false, Bool.false_eq_true, if_false]
  · rw [hs] at hxy
    rw [eq_of_lanes hxy]

/-! ## Accesses of the load/store unit -/

/-- The entry of a store in DC3 stands for its write. -/
theorem patch_of_store {e : StbufEntry} {d : BitVec 32} (h : p.OneSize) (ha : a.toNat % p.size = 0)
    (haddr : e.addr = a) (hen : e.byteen = p.byteenLo a)
    (hdata : ∀ l < 4, (p.byteenLo a).getLsbD l = true → lane e.data l = lane d (l - laneOf a)) :
    e.patch = p.write a d := by
  funext b
  have hl := laneOf_lt b
  unfold patch LsuPkt.write
  simp only [haddr, hen, byteenLo_getLsbD h a hl, decide_eq_true_eq]
  by_cases hin : (b - a).toNat < p.size
  · obtain ⟨hw, hle, hlt⟩ := (sub_lt_size_iff h ha).mp hin
    rw [if_pos ⟨hw, hle, hlt⟩, if_pos hin, sub_eq_lane_sub hw hle,
      hdata _ hl (by rw [byteenLo_getLsbD h a hl]; exact decide_eq_true ⟨hle, hlt⟩)]
  · rw [if_neg hin, if_neg fun hc => hin ((sub_lt_size_iff h ha).mpr hc)]

/-- A load that merged the right bytes of its word returns the right value. -/
theorem extend_of_lanes {hi lo : BitVec 32} {m : BitVec 16 → BitVec 8} (h : p.OneSize) (ha : a.toNat % p.size = 0)
    (hlo : ∀ b, sbWord a = sbWord b → lane lo (laneOf b) = m b) :
    p.extend (((hi ++ lo) >>> (8 * laneOf a)).extractLsb' 0 32) = p.extend (flatWord m a) := by
  have hle := lane_add_size_le h ha
  refine extend_congr h fun j hj => ?_
  have hbyte : (a + BitVec.ofNat 16 j - a).toNat = j := by
    have := a.isLt
    rw [BitVec.toNat_sub, BitVec.toNat_add, BitVec.toNat_ofNat]
    omega
  obtain ⟨hw, hge, -⟩ := (sub_lt_size_iff h ha (b := a + BitVec.ofNat 16 j)).mp (by omega)
  have hlane := sub_eq_lane_sub hw hge
  rw [lane_ldData hi lo (by omega), flatWord, lane_ofLanes _ (by omega), ← hlo _ hw]
  congr 1
  omega

/-! ## Reading and draining the memory -/

/-- A bank and a row of the DCCM are a word. -/
theorem bank_row_eq_iff : dccmBank a = dccmBank b ∧ dccmRow a = dccmRow b ↔ sbWord a = sbWord b := by
  have ha := a.isLt
  have hb := b.isLt
  rw [sbWord_eq_iff]
  unfold dccmBank dccmRow
  rw [← BitVec.toNat_inj, ← BitVec.toNat_inj]
  simp only [BitVec.extractLsb'_toNat, Nat.shiftRight_eq_div_pow]
  omega

namespace DccmMem

variable {m : DccmMem} {i : DccmMemIn}

/-- A drain writes the whole word of the entry. -/
theorem byte_next_of_wren {e : StbufEntry} (hf : i.freeze = false) (hw : i.wren = true) (ha : i.wrAddr = e.addr)
    (hd : i.wrData = e.data) : (m.next i).byte = Overlay.laid m.byte e.wordPatch := by
  funext b
  unfold byte next Overlay.laid wordPatch bankWrite
  simp only [hf, hw, ha, hd, Bool.not_false, Bool.true_and, Bool.and_eq_true, beq_iff_eq]
  by_cases hword : sbWord e.addr = sbWord b
  · obtain ⟨hbank, hrow⟩ := bank_row_eq_iff.mpr hword
    rw [if_pos ⟨hbank, hrow.symm⟩, if_pos hword]
    rfl
  · rw [if_neg fun hc => hword (bank_row_eq_iff.mp ⟨hc.1, hc.2.symm⟩), if_neg hword]
    rfl

/-- Without a write the memory stays. -/
theorem byte_next_of_not_wren (hw : i.freeze = true ∨ i.wren = false) : (m.next i).byte = m.byte := by
  funext b
  unfold byte next bankWrite
  rcases hw with hw | hw
  · simp [hw]
  · simp [hw]

/-- The word read in DC1 is there in DC2. -/
theorem rdDataLo_next_of_rden (hf : i.freeze = false) (hr : i.rden = true) {b : BitVec 16}
    (hb : sbWord i.rdAddrLo = sbWord b) : lane (m.next i).rdDataLo (laneOf b) = m.byte b := by
  obtain ⟨hbank, hrow⟩ := bank_row_eq_iff.mpr hb
  unfold rdDataLo next byte
  have hread : bankRead i (dccmBank i.rdAddrLo) = true := by
    simp [bankRead, hr]
  have hrr : readRow i (dccmBank i.rdAddrLo) = dccmRow i.rdAddrLo := by
    unfold readRow
    by_cases hc : dccmBank i.rdAddrHi = dccmBank i.rdAddrLo
    · simp [hc]
    · simp [hc]
  simp only [hf, hr, Bool.not_false, Bool.and_self, rvdffs_true, hread, hrr]
  rw [hbank, hrow]

/-- In a freeze the word that was read stays. -/
theorem rdDataLo_next_of_freeze (hf : i.freeze = true) : (m.next i).rdDataLo = m.rdDataLo := by
  unfold rdDataLo next
  simp [hf]

end DccmMem

end SocRV
