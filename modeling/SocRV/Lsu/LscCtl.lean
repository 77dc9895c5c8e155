import SocRV.Core.Primitives
import SocRV.Lib.Machine

/-!
# The load/store pipeline

`lsu_lsc_ctl` carries one packet per cycle from decode through DC1 to DC5, with its address, its address check
and its store data; `lsu_clkdomain` derives the register enables and `lsu.sv` adds the bit that says whether
the packet came from slot `i0`.  The registers up to DC3 hold while `lsu_freeze_dc3` is high; DC4 and DC5
always move.  The flush lines, the freeze and the data of the neighbours (memory, bus, execution units) are
inputs.
-/

namespace SocRV

/-- `lsu_pkt_t`.  `tag` is not in the source: it numbers the instruction, so that statements can name it. -/
structure LsuPkt where
  byte : Bool := false
  half : Bool := false
  word : Bool := false
  load : Bool := false
  store : Bool := false
  unsign : Bool := false
  storeDataBypassC1 : Bool := false
  loadLdstBypassC1 : Bool := false
  storeDataBypassC2 : Bool := false
  storeDataBypassI0E2C2 : Bool := false
  storeDataBypassE4C1 : BitVec 2 := 0
  storeDataBypassE4C2 : BitVec 2 := 0
  storeDataBypassE4C3 : BitVec 2 := 0
  valid : Bool := false
  tag : Nat := 0
  deriving DecidableEq, Repr

/-- The flush lines of the load/store unit: `flush_dc2_up` kills what enters DC1, DC2 and DC3, the others what
leaves DC3, DC4 and DC5. -/
structure Flushes where
  dc2Up : Bool := false
  dc3 : Bool := false
  dc4 : Bool := false
  dc5 : Bool := false
  deriving DecidableEq, Repr

/-- The registers of `lsu_lsc_ctl`, of the address check, of `lsu_clkdomain` and the `lsu_i0_valid` chain. -/
structure Lsc where
  rs1Dc1Raw : BitVec 32 := 0
  offsetDc1 : BitVec 12 := 0
  pktDc1 : LsuPkt := {}
  pktDc2 : LsuPkt := {}
  pktDc3 : LsuPkt := {}
  pktDc4 : LsuPkt := {}
  pktDc5 : LsuPkt := {}
  addrDc2 : BitVec 32 := 0
  addrDc3 : BitVec 32 := 0
  addrDc4 : BitVec 32 := 0
  addrDc5 : BitVec 32 := 0
  endAddrDc2 : BitVec 32 := 0
  endAddrDc3 : BitVec 32 := 0
  addrInDccmDc2 : Bool := false
  addrInDccmDc3 : Bool := false
  addrExternalDc2 : Bool := false
  addrExternalDc3 : Bool := false
  addrExternalDc4 : Bool := false
  addrExternalDc5 : Bool := false
  accessFaultDc2 : Bool := false
  accessFaultDc3 : Bool := false
  misalignedFaultDc2 : Bool := false
  misalignedFaultDc3 : Bool := false
  isSideeffectsDc2 : Bool := false
  isSideeffectsDc3 : Bool := false
  storeDataDc1 : BitVec 32 := 0
  storeDataPreDc2 : BitVec 32 := 0
  storeDataPreDc3 : BitVec 32 := 0
  storeDataDc4 : BitVec 32 := 0
  storeDataDc5 : BitVec 32 := 0
  i0ValidDc1 : Bool := false
  i0ValidDc2 : Bool := false
  i0ValidDc3 : Bool := false
  i0ValidDc4 : Bool := false
  i0ValidDc5 : Bool := false
  c1Dc1ClkenQ : Bool := false
  c1Dc2ClkenQ : Bool := false
  freezeC1Dc1ClkenQ : Bool := false
  freezeC1Dc2ClkenQ : Bool := false
  freezeC1Dc3ClkenQ : Bool := false
  freezeC1Dc4ClkenQ : Bool := false
  deriving DecidableEq, Repr

/-- The inputs of a core cycle: the decoded packet `lsu_p` with its operands, the data of the neighbours, the
freeze and the flush lines. -/
structure LscIn where
  p : LsuPkt := {}
  i0LsuDecodeD : Bool := false
  rs1D : BitVec 32 := 0
  rs2D : BitVec 32 := 0
  offsetD : BitVec 12 := 0
  ldDataDc3 : BitVec 32 := 0
  busReadDataDc3 : BitVec 32 := 0
  i0ResultE2 : BitVec 32 := 0
  i0ResultE4Eff : BitVec 32 := 0
  i1ResultE4Eff : BitVec 32 := 0
  freeze : Bool := false
  flush : Flushes := {}
  clkOverride : Bool := false
  deriving DecidableEq, Repr

/-! ## The address check -/

/-- `DCCM_FIRST ≤ a ≤ DCCM_LAST`. -/
def inDccm (a : BitVec 32) : Bool := 0x00020000#32 ≤ a && a ≤ 0x0002ffff#32

/-- `MMIO_FIRST ≤ a ≤ MMIO_LAST`: the timer to the I2C controller. -/
def inMmio (a : BitVec 32) : Bool := 0x10000000#32 ≤ a && a ≤ 0x10004fff#32

/-- `is_aligned_dc1`. -/
def LsuPkt.isAligned (p : LsuPkt) (a : BitVec 32) : Bool :=
  p.byte || (p.half && !a.getLsbD 0) || (p.word && !(a.getLsbD 0 || a.getLsbD 1))

/-- The sign or zero extension of `lsu_result_dc3`. -/
def LsuPkt.extend (p : LsuPkt) (d : BitVec 32) : BitVec 32 :=
  (if p.unsign && p.byte then (d.extractLsb' 0 8).zeroExtend 32 else 0) |||
  (if p.unsign && p.half then (d.extractLsb' 0 16).zeroExtend 32 else 0) |||
  (if !p.unsign && p.byte then (d.extractLsb' 0 8).signExtend 32 else 0) |||
  (if !p.unsign && p.half then (d.extractLsb' 0 16).signExtend 32 else 0) |||
  (if p.word then d else 0)

namespace Lsc

variable (s : Lsc) (i : LscIn)

/-! ## Results and addresses of a cycle -/

/-- `lsu_result_dc3`. -/
def resultDc3 : BitVec 32 :=
  s.pktDc3.extend (if s.addrExternalDc3 then i.busReadDataDc3 else i.ldDataDc3)

/-- `rs1_dc1`, with the load result bypassed to the address. -/
def rs1Dc1 : BitVec 32 := if s.pktDc1.loadLdstBypassC1 then s.resultDc3 i else s.rs1Dc1Raw

/-- `lsu_addr_dc1`. -/
def addrDc1 : BitVec 32 := rvlsadder (s.rs1Dc1 i) s.offsetDc1

/-- `addr_offset_dc1`. -/
def addrOffsetDc1 : BitVec 3 :=
  (if s.pktDc1.half then 1#3 else 0#3) ||| (if s.pktDc1.word then 3#3 else 0#3)

/-- `end_addr_dc1`. -/
def endAddrDc1 : BitVec 32 :=
  s.rs1Dc1 i + (s.offsetDc1.signExtend 13 + s.addrOffsetDc1.zeroExtend 13).signExtend 32

/-- `addr_in_dccm_dc1`. -/
def addrInDccmDc1 : Bool := inDccm (s.addrDc1 i) && inDccm (s.endAddrDc1 i)

/-- `addr_external_dc1`: the whole access lies in the peripheral range. -/
def addrExternalDc1 : Bool := inMmio (s.addrDc1 i) && inMmio (s.endAddrDc1 i)

/-- `access_fault_dc1`. -/
def accessFaultDc1 : Bool := s.pktDc1.valid && !(s.addrInDccmDc1 i || s.addrExternalDc1 i)

/-- `misaligned_fault_dc1`. -/
def misalignedFaultDc1 : Bool := s.pktDc1.valid && !s.pktDc1.isAligned (s.addrDc1 i)

/-- `lsu_exc_dc2`. -/
def excDc2 : Bool := s.accessFaultDc2 || s.misalignedFaultDc2

/-- `store_data_dc2_in`. -/
def storeDataDc2In : BitVec 32 :=
  if s.pktDc1.storeDataBypassC1 then s.resultDc3 i
  else if s.pktDc1.storeDataBypassE4C1.getLsbD 1 then i.i1ResultE4Eff
  else if s.pktDc1.storeDataBypassE4C1.getLsbD 0 then i.i0ResultE4Eff
  else s.storeDataDc1

/-- `store_data_dc2`. -/
def storeDataDc2 : BitVec 32 :=
  if s.pktDc2.storeDataBypassI0E2C2 then i.i0ResultE2
  else if s.pktDc2.storeDataBypassC2 then s.resultDc3 i
  else if s.pktDc2.storeDataBypassE4C2.getLsbD 1 then i.i1ResultE4Eff
  else if s.pktDc2.storeDataBypassE4C2.getLsbD 0 then i.i0ResultE4Eff
  else s.storeDataPreDc2

/-- `store_data_dc3`. -/
def storeDataDc3 : BitVec 32 :=
  if s.pktDc3.storeDataBypassE4C3.getLsbD 1 then i.i1ResultE4Eff
  else if s.pktDc3.storeDataBypassE4C3.getLsbD 0 then i.i0ResultE4Eff
  else s.storeDataPreDc3

/-- `lsu_commit_dc5`. -/
def commitDc5 : Bool := s.pktDc5.valid && (s.pktDc5.store || s.pktDc5.load) && !i.flush.dc5

/-- `lsu_pkt_dc1.valid && addr_external_dc1`. -/
def externalDc1 : Bool := s.pktDc1.valid && s.addrExternalDc1 i

/-- `lsu_pkt_dc2.valid && addr_external_dc2`. -/
def externalDc2 : Bool := s.pktDc2.valid && s.addrExternalDc2

/-- `lsu_pkt_dc3.valid && addr_external_dc3`. -/
def externalDc3 : Bool := s.pktDc3.valid && s.addrExternalDc3

/-- `lsu_pkt_dc4.valid && addr_external_dc4`. -/
def externalDc4 : Bool := s.pktDc4.valid && s.addrExternalDc4

/-- `lsu_pkt_dc5.valid && addr_external_dc5`. -/
def externalDc5 : Bool := s.pktDc5.valid && s.addrExternalDc5

/-! ## The register enables of `lsu_clkdomain` -/

/-- `lsu_c1_dc1_clken`. -/
def c1Dc1Clken : Bool := i.p.valid || i.clkOverride

/-- `lsu_c1_dc2_clken`. -/
def c1Dc2Clken : Bool := s.pktDc1.valid || s.c1Dc1ClkenQ || i.clkOverride

/-- `lsu_c1_dc3_clken`. -/
def c1Dc3Clken : Bool := s.pktDc2.valid || s.c1Dc2ClkenQ || i.clkOverride

/-- `lsu_store_c1_dc2_clken`. -/
def storeC1Dc2Clken : Bool := ((s.c1Dc2Clken i && s.pktDc1.store) || i.clkOverride) && !i.freeze

/-- `lsu_store_c1_dc3_clken`. -/
def storeC1Dc3Clken : Bool := ((s.c1Dc3Clken i && s.pktDc2.store) || i.clkOverride) && !i.freeze

/-- `lsu_freeze_c1_dcN_clken`, from the valid bit of the packet before stage `N`. -/
def freezeC1Clken (valid : Bool) : Bool := (valid || i.clkOverride) && !i.freeze

/-- `lsu_freeze_c2_dcN_clken`, from the enable above and its register. -/
def freezeC2Clken (c1 c1Q : Bool) : Bool := (c1 || c1Q || i.clkOverride) && !i.freeze

/-- `lsu_freeze_c1_dc1_clken`. -/
def freezeC1Dc1Clken : Bool := freezeC1Clken i i.p.valid

/-- `lsu_freeze_c1_dc2_clken`. -/
def freezeC1Dc2Clken : Bool := freezeC1Clken i s.pktDc1.valid

/-- `lsu_freeze_c1_dc3_clken`. -/
def freezeC1Dc3Clken : Bool := freezeC1Clken i s.pktDc2.valid

/-- `lsu_freeze_c1_dc4_clken`. -/
def freezeC1Dc4Clken : Bool := freezeC1Clken i s.pktDc3.valid

/-- `lsu_freeze_c2_dc1_clken`. -/
def freezeC2Dc1Clken : Bool := freezeC2Clken i (freezeC1Dc1Clken i) s.freezeC1Dc1ClkenQ

/-- `lsu_freeze_c2_dc2_clken`. -/
def freezeC2Dc2Clken : Bool := freezeC2Clken i (s.freezeC1Dc2Clken i) s.freezeC1Dc2ClkenQ

/-- `lsu_freeze_c2_dc3_clken`. -/
def freezeC2Dc3Clken : Bool := freezeC2Clken i (s.freezeC1Dc3Clken i) s.freezeC1Dc3ClkenQ

/-- `lsu_freeze_c2_dc4_clken`. -/
def freezeC2Dc4Clken : Bool := freezeC2Clken i (s.freezeC1Dc4Clken i) s.freezeC1Dc4ClkenQ

/-! ## One cycle -/

/-- A packet register: the fields and the valid bit have enables of their own. -/
def pktReg (c1 c2 : Bool) (din : LsuPkt) (valid : Bool) (dout : LsuPkt) : LsuPkt :=
  { rvdffs c1 din dout with valid := rvdffs c2 valid dout.valid }

/-- The registers after a core cycle. -/
def next : Lsc where
  rs1Dc1Raw := rvdffs (freezeC1Dc1Clken i) i.rs1D s.rs1Dc1Raw
  offsetDc1 := rvdffs (freezeC1Dc1Clken i) i.offsetD s.offsetDc1
  pktDc1 := pktReg (freezeC1Dc1Clken i) (s.freezeC2Dc1Clken i) i.p (i.p.valid && !i.flush.dc2Up) s.pktDc1
  pktDc2 := pktReg (s.freezeC1Dc2Clken i) (s.freezeC2Dc2Clken i) s.pktDc1
    (s.pktDc1.valid && !i.flush.dc2Up) s.pktDc2
  pktDc3 := pktReg (s.freezeC1Dc3Clken i) (s.freezeC2Dc3Clken i) s.pktDc2
    (s.pktDc2.valid && !i.flush.dc2Up) s.pktDc3
  pktDc4 := { s.pktDc3 with valid := s.pktDc3.valid && !i.flush.dc3 && !i.freeze }
  pktDc5 := { s.pktDc4 with valid := s.pktDc4.valid && !i.flush.dc4 }
  addrDc2 := rvdffs (s.freezeC1Dc2Clken i) (s.addrDc1 i) s.addrDc2
  addrDc3 := rvdffs (s.freezeC1Dc3Clken i) s.addrDc2 s.addrDc3
  addrDc4 := s.addrDc3
  addrDc5 := s.addrDc4
  endAddrDc2 := rvdffs (s.freezeC1Dc2Clken i) (s.endAddrDc1 i) s.endAddrDc2
  endAddrDc3 := rvdffs (s.freezeC1Dc3Clken i) s.endAddrDc2 s.endAddrDc3
  addrInDccmDc2 := rvdffs (s.freezeC1Dc2Clken i) (s.addrInDccmDc1 i) s.addrInDccmDc2
  addrInDccmDc3 := rvdffs (s.freezeC1Dc3Clken i) s.addrInDccmDc2 s.addrInDccmDc3
  addrExternalDc2 := rvdffs (s.freezeC1Dc2Clken i) (s.addrExternalDc1 i) s.addrExternalDc2
  addrExternalDc3 := rvdffs (s.freezeC1Dc3Clken i) s.addrExternalDc2 s.addrExternalDc3
  addrExternalDc4 := s.addrExternalDc3
  addrExternalDc5 := s.addrExternalDc4
  accessFaultDc2 := rvdffs (s.freezeC1Dc2Clken i) (s.accessFaultDc1 i) s.accessFaultDc2
  accessFaultDc3 := rvdffs (s.freezeC1Dc3Clken i) s.accessFaultDc2 s.accessFaultDc3
  misalignedFaultDc2 := rvdffs (s.freezeC1Dc2Clken i) (s.misalignedFaultDc1 i) s.misalignedFaultDc2
  misalignedFaultDc3 := rvdffs (s.freezeC1Dc3Clken i) s.misalignedFaultDc2 s.misalignedFaultDc3
  isSideeffectsDc2 := rvdffs (s.freezeC2Dc2Clken i) (s.addrExternalDc1 i) s.isSideeffectsDc2
  isSideeffectsDc3 := rvdffs (s.freezeC2Dc3Clken i) s.isSideeffectsDc2 s.isSideeffectsDc3
  storeDataDc1 := rvdffs (!i.freeze) i.rs2D s.storeDataDc1
  storeDataPreDc2 := rvdffs (s.storeC1Dc2Clken i) (s.storeDataDc2In i) s.storeDataPreDc2
  storeDataPreDc3 := rvdffs (!i.freeze && s.storeC1Dc3Clken i) (s.storeDataDc2 i) s.storeDataPreDc3
  storeDataDc4 := s.storeDataDc3 i
  storeDataDc5 := s.storeDataDc4
  i0ValidDc1 := rvdffs (s.freezeC2Dc1Clken i) i.i0LsuDecodeD s.i0ValidDc1
  i0ValidDc2 := rvdffs (s.freezeC2Dc2Clken i) s.i0ValidDc1 s.i0ValidDc2
  i0ValidDc3 := rvdffs (s.freezeC2Dc3Clken i) s.i0ValidDc2 s.i0ValidDc3
  i0ValidDc4 := rvdffs (s.freezeC2Dc4Clken i) s.i0ValidDc3 s.i0ValidDc4
  i0ValidDc5 := s.i0ValidDc4
  c1Dc1ClkenQ := c1Dc1Clken i
  c1Dc2ClkenQ := s.c1Dc2Clken i
  freezeC1Dc1ClkenQ := rvdffs (s.freezeC2Dc1Clken i) (freezeC1Dc1Clken i) s.freezeC1Dc1ClkenQ
  freezeC1Dc2ClkenQ := rvdffs (s.freezeC2Dc2Clken i) (s.freezeC1Dc2Clken i) s.freezeC1Dc2ClkenQ
  freezeC1Dc3ClkenQ := rvdffs (s.freezeC2Dc3Clken i) (s.freezeC1Dc3Clken i) s.freezeC1Dc3ClkenQ
  freezeC1Dc4ClkenQ := rvdffs (s.freezeC2Dc4Clken i) (s.freezeC1Dc4Clken i) s.freezeC1Dc4ClkenQ

/-! ## What a cycle does to each stage -/

/-- Every valid bit up to DC3 is covered by its clock enable register, so gating the clocks loses nothing. -/
structure Gated (s : Lsc) : Prop where
  dc1 : s.pktDc1.valid = true → s.freezeC1Dc1ClkenQ = true
  dc2 : s.pktDc2.valid = true → s.freezeC1Dc2ClkenQ = true
  dc3 : s.pktDc3.valid = true → s.freezeC1Dc3ClkenQ = true

variable {s : Lsc} {i : LscIn}

theorem gated_reset : Gated {} := ⟨nofun, nofun, nofun⟩

/-- One gated valid bit: with the clock off both the bit and its input are low. -/
theorem gatedValid {valid din q : Bool} (flush : Bool) (h : valid = true → q = true) :
    rvdffs (freezeC2Clken i (freezeC1Clken i din) q) (din && !flush) valid =
      if i.freeze then valid else din && !flush := by
  unfold freezeC2Clken freezeC1Clken
  cases i.freeze <;> cases i.clkOverride <;> cases din <;> cases q <;> cases valid <;> simp_all

/-- One clock enable register covers the valid bit it gates. -/
theorem gatedCover {valid din q : Bool} (flush : Bool) (h : valid = true → q = true) :
    rvdffs (freezeC2Clken i (freezeC1Clken i din) q) (din && !flush) valid = true →
      rvdffs (freezeC2Clken i (freezeC1Clken i din) q) (freezeC1Clken i din) q = true := by
  unfold freezeC2Clken freezeC1Clken
  cases i.freeze <;> cases i.clkOverride <;> cases din <;> cases q <;> cases valid <;> simp_all

/-- A cycle keeps the relation between valid accesses and the clock enables. -/
theorem Gated.next (h : Gated s) (i : LscIn) : Gated (s.next i) :=
  ⟨gatedCover _ h.dc1, gatedCover _ h.dc2, gatedCover _ h.dc3⟩

/-- The valid bit of DC1. -/
theorem next_validDc1 (h : Gated s) :
    (s.next i).pktDc1.valid = if i.freeze then s.pktDc1.valid else i.p.valid && !i.flush.dc2Up :=
  gatedValid _ h.dc1

/-- The valid bit of DC2. -/
theorem next_validDc2 (h : Gated s) :
    (s.next i).pktDc2.valid = if i.freeze then s.pktDc2.valid else s.pktDc1.valid && !i.flush.dc2Up :=
  gatedValid _ h.dc2

/-- The valid bit of DC3. -/
theorem next_validDc3 (h : Gated s) :
    (s.next i).pktDc3.valid = if i.freeze then s.pktDc3.valid else s.pktDc2.valid && !i.flush.dc2Up :=
  gatedValid _ h.dc3

/-- A stage register that is not clocked keeps its value. -/
theorem freezeC1Clken_freeze (h : i.freeze = true) (v : Bool) : freezeC1Clken i v = false := by
  simp [freezeC1Clken, h]

/-- A stage register behind a valid packet is clocked unless the pipeline is frozen. -/
theorem freezeC1Clken_valid (h : i.freeze = false) : freezeC1Clken i true = true := by
  simp [freezeC1Clken, h]

section Stage

variable {din dout : LsuPkt} {q : Bool}

/-- The packet register of a stage up to DC3, with its clock enables. -/
def stageReg (i : LscIn) (din : LsuPkt) (q : Bool) (dout : LsuPkt) : LsuPkt :=
  pktReg (freezeC1Clken i din.valid) (freezeC2Clken i (freezeC1Clken i din.valid) q) din
    (din.valid && !i.flush.dc2Up) dout

/-- A valid packet after a cycle is one that waited in a frozen stage or one that moved in unflushed, and in the first
case the registers beside it are not clocked and in the second they are. -/
theorem of_stageReg_valid (h : dout.valid = true → q = true) (hv : (stageReg i din q dout).valid = true) :
    (i.freeze = true ∧ dout.valid = true ∧ stageReg i din q dout = dout ∧ freezeC1Clken i din.valid = false) ∨
    (i.freeze = false ∧ din.valid = true ∧ i.flush.dc2Up = false ∧ stageReg i din q dout = din ∧
      freezeC1Clken i din.valid = true) := by
  have hnext : (stageReg i din q dout).valid = if i.freeze then dout.valid else din.valid && !i.flush.dc2Up :=
    gatedValid _ h
  rw [hv] at hnext
  cases hf : i.freeze with
  | true =>
    rw [hf, if_pos rfl] at hnext
    have hoff := freezeC1Clken_freeze hf din.valid
    refine Or.inl ⟨rfl, hnext.symm, ?_, hoff⟩
    simp [stageReg, pktReg, hoff, freezeC2Clken, hf]
  | false =>
    rw [hf, if_neg (by decide)] at hnext
    have hpv : din.valid = true ∧ i.flush.dc2Up = false := by simpa using hnext.symm
    have hon : freezeC1Clken i din.valid = true := by rw [hpv.1, freezeC1Clken_valid hf]
    refine Or.inr ⟨rfl, hpv.1, hpv.2, ?_, hon⟩
    have hpkt : stageReg i din q dout = { din with valid := (stageReg i din q dout).valid } := by
      simp [stageReg, pktReg, hon]
    rw [hpkt, hv, ← hpv.1]

/-- A flag beside the packet counts while the packet is valid, and moves with it. -/
theorem stageReg_and_flag (h : dout.valid = true → q = true) (new old : Bool) :
    ((stageReg i din q dout).valid && rvdffs (freezeC1Clken i din.valid) new old) =
      if i.freeze then dout.valid && old else din.valid && new && !i.flush.dc2Up := by
  have hnext : (stageReg i din q dout).valid = if i.freeze then dout.valid else din.valid && !i.flush.dc2Up :=
    gatedValid _ h
  rw [hnext]
  cases hf : i.freeze with
  | true =>
    rw [freezeC1Clken_freeze hf]
    rfl
  | false =>
    cases hv : din.valid with
    | false => rfl
    | true =>
      rw [freezeC1Clken_valid hf]
      cases i.flush.dc2Up <;> cases new <;> rfl

end Stage

/-- A valid packet in DC1 waited there or comes from decode. -/
theorem of_next_validDc1 (h : Gated s) (hv : (s.next i).pktDc1.valid = true) :
    (i.freeze = true ∧ s.pktDc1.valid = true ∧ (s.next i).pktDc1 = s.pktDc1) ∨
    (i.freeze = false ∧ i.p.valid = true ∧ i.flush.dc2Up = false ∧ (s.next i).pktDc1 = i.p) := by
  rcases of_stageReg_valid h.dc1 hv with ⟨hf, hold, heq, -⟩ | ⟨hf, hnew, hfl, heq, -⟩
  · exact Or.inl ⟨hf, hold, heq⟩
  · exact Or.inr ⟨hf, hnew, hfl, heq⟩

/-- A valid packet in DC2 waited there or comes from DC1, with its address. -/
theorem of_next_validDc2 (h : Gated s) (hv : (s.next i).pktDc2.valid = true) :
    (i.freeze = true ∧ s.pktDc2.valid = true ∧ (s.next i).pktDc2 = s.pktDc2 ∧ (s.next i).addrDc2 = s.addrDc2 ∧
      (s.next i).addrInDccmDc2 = s.addrInDccmDc2 ∧ (s.next i).addrExternalDc2 = s.addrExternalDc2) ∨
    (i.freeze = false ∧ s.pktDc1.valid = true ∧ i.flush.dc2Up = false ∧ (s.next i).pktDc2 = s.pktDc1 ∧
      (s.next i).addrDc2 = s.addrDc1 i ∧ (s.next i).addrInDccmDc2 = s.addrInDccmDc1 i ∧
      (s.next i).addrExternalDc2 = s.addrExternalDc1 i) := by
  rcases of_stageReg_valid h.dc2 hv with ⟨hf, hold, heq, hoff⟩ | ⟨hf, hnew, hfl, heq, hon⟩
  · exact Or.inl ⟨hf, hold, heq, by simp [next, freezeC1Dc2Clken, hoff]⟩
  · exact Or.inr ⟨hf, hnew, hfl, heq, by simp [next, freezeC1Dc2Clken, hon]⟩

/-- A valid packet in DC3 waited there or comes from DC2, with its address. -/
theorem of_next_validDc3 (h : Gated s) (hv : (s.next i).pktDc3.valid = true) :
    (i.freeze = true ∧ s.pktDc3.valid = true ∧ (s.next i).pktDc3 = s.pktDc3 ∧ (s.next i).addrDc3 = s.addrDc3 ∧
      (s.next i).addrInDccmDc3 = s.addrInDccmDc3 ∧ (s.next i).addrExternalDc3 = s.addrExternalDc3) ∨
    (i.freeze = false ∧ s.pktDc2.valid = true ∧ i.flush.dc2Up = false ∧ (s.next i).pktDc3 = s.pktDc2 ∧
      (s.next i).addrDc3 = s.addrDc2 ∧ (s.next i).addrInDccmDc3 = s.addrInDccmDc2 ∧
      (s.next i).addrExternalDc3 = s.addrExternalDc2) := by
  rcases of_stageReg_valid h.dc3 hv with ⟨hf, hold, heq, hoff⟩ | ⟨hf, hnew, hfl, heq, hon⟩
  · exact Or.inl ⟨hf, hold, heq, by simp [next, freezeC1Dc3Clken, hoff]⟩
  · exact Or.inr ⟨hf, hnew, hfl, heq, by simp [next, freezeC1Dc3Clken, hon]⟩

/-- A valid packet in DC4 comes from DC3. -/
theorem of_next_validDc4 (hv : (s.next i).pktDc4.valid = true) :
    i.freeze = false ∧ s.pktDc3.valid = true ∧ i.flush.dc3 = false ∧ (s.next i).pktDc4 = s.pktDc3 := by
  have hnext : s.pktDc3.valid = true ∧ i.flush.dc3 = false ∧ i.freeze = false := by
    simpa [next, and_assoc] using hv
  have hpkt : (s.next i).pktDc4 = { s.pktDc3 with valid := (s.next i).pktDc4.valid } := rfl
  rw [hv, ← hnext.1] at hpkt
  exact ⟨hnext.2.2, hnext.1, hnext.2.1, hpkt⟩

/-- A valid packet in DC5 comes from DC4. -/
theorem of_next_validDc5 (hv : (s.next i).pktDc5.valid = true) :
    s.pktDc4.valid = true ∧ i.flush.dc4 = false ∧ (s.next i).pktDc5 = s.pktDc4 := by
  have hnext : s.pktDc4.valid = true ∧ i.flush.dc4 = false := by
    simpa [next] using hv
  have hpkt : (s.next i).pktDc5 = { s.pktDc4 with valid := (s.next i).pktDc5.valid } := rfl
  rw [hv, ← hnext.1] at hpkt
  exact ⟨hnext.1, hnext.2, hpkt⟩

/-- The external access of DC2. -/
theorem next_externalDc2 (h : Gated s) :
    (s.next i).externalDc2 = if i.freeze then s.externalDc2 else s.externalDc1 i && !i.flush.dc2Up :=
  stageReg_and_flag h.dc2 _ _

/-- The external access of DC3. -/
theorem next_externalDc3 (h : Gated s) :
    (s.next i).externalDc3 = if i.freeze then s.externalDc3 else s.externalDc2 && !i.flush.dc2Up :=
  stageReg_and_flag h.dc3 _ _

/-- The external access of DC4. -/
theorem next_externalDc4 : (s.next i).externalDc4 = (s.externalDc3 && !i.flush.dc3 && !i.freeze) := by
  simp only [next, externalDc4, externalDc3]
  ac_rfl

/-- The external access of DC5. -/
theorem next_externalDc5 : (s.next i).externalDc5 = (s.externalDc4 && !i.flush.dc4) := by
  simp only [next, externalDc5, externalDc4]
  ac_rfl

/-- A frozen cycle leaves the packet in DC2, its address and its faults where they are. -/
theorem next_dc2_of_freeze (hf : i.freeze = true) :
    (s.next i).pktDc2 = s.pktDc2 ∧ (s.next i).addrDc2 = s.addrDc2 ∧ (s.next i).excDc2 = s.excDc2 := by
  simp [next, freezeC1Dc2Clken, freezeC1Clken, freezeC2Dc2Clken, freezeC2Clken, hf, pktReg, excDc2]

end Lsc

end SocRV
