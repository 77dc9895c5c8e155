import SocRV.Lsu.Stbuf

/-!
# The DCCM path of the load/store unit

`dccm_mem` is eight banks of words, read in DC1 and written when the store buffer drains; `lsu_dccm_ctl` decides
when it may drain and merges the word read with the forwarded bytes in DC3; `lsu.sv` merges the data of a store
with the rest of its word.  The composition with the load/store pipeline and the store buffer is wired as in
`lsu.sv`; the freeze, the flush lines and what decode issues are inputs.
-/

namespace SocRV

/-! ## The memory -/

/-- The bank of an address. -/
def dccmBank (a : BitVec 16) : BitVec 3 := a.extractLsb' 2 3

/-- The row of an address. -/
def dccmRow (a : BitVec 16) : BitVec 11 := a.extractLsb' 5 11

/-- `dccm_mem`: the banks with their output registers and the banks last read. -/
structure DccmMem where
  bankMem : BitVec 3 → BitVec 11 → BitVec 32
  bankDout : BitVec 3 → BitVec 32 := fun _ => 0
  rdBankLoQ : BitVec 3 := 0
  rdBankHiQ : BitVec 3 := 0

/-- The ports of `dccm_mem`. -/
structure DccmMemIn where
  freeze : Bool
  wren : Bool
  rden : Bool
  wrAddr : BitVec 16
  rdAddrLo : BitVec 16
  rdAddrHi : BitVec 16
  wrData : BitVec 32

namespace DccmMem

variable (m : DccmMem) (i : DccmMemIn)

/-- `dccm_rd_data_lo`. -/
def rdDataLo : BitVec 32 := m.bankDout m.rdBankLoQ

/-- `dccm_rd_data_hi`. -/
def rdDataHi : BitVec 32 := m.bankDout m.rdBankHiQ

/-- `bank_read`. -/
def bankRead (bank : BitVec 3) : Bool := i.rden && (dccmBank i.rdAddrLo == bank || dccmBank i.rdAddrHi == bank)

/-- `bank_write`. -/
def bankWrite (bank : BitVec 3) : Bool := i.wren && dccmBank i.wrAddr == bank

/-- `read_row`. -/
def readRow (bank : BitVec 3) : BitVec 11 :=
  if dccmBank i.rdAddrHi == bank && dccmBank i.rdAddrHi != dccmBank i.rdAddrLo then dccmRow i.rdAddrHi
  else dccmRow i.rdAddrLo

/-- The memory after a core cycle. -/
def next : DccmMem where
  bankMem := fun bank row =>
    if !i.freeze && bankWrite i bank && row == dccmRow i.wrAddr then i.wrData else m.bankMem bank row
  bankDout := fun bank => rvdffs (!i.freeze && bankRead i bank) (m.bankMem bank (readRow i bank)) (m.bankDout bank)
  rdBankLoQ := rvdffs (!i.freeze && i.rden) (dccmBank i.rdAddrLo) m.rdBankLoQ
  rdBankHiQ := rvdffs (!i.freeze && i.rden) (dccmBank i.rdAddrHi) m.rdBankHiQ

/-- The byte at an address. -/
def byte (b : BitVec 16) : BitVec 8 := lane (m.bankMem (dccmBank b) (dccmRow b)) (StbufEntry.laneOf b)

end DccmMem

/-! ## The composition -/

/-- The pipeline, the store buffer, the memory, the word read for DC3, and the load results on their way to
write-back. -/
structure LsuMem where
  lsc : Lsc := {}
  stbuf : Stbuf := {}
  mem : DccmMem
  dataHiDc3 : BitVec 32 := 0
  dataLoDc3 : BitVec 32 := 0
  resultCorrDc4 : BitVec 32 := 0
  resultDc5 : BitVec 32 := 0

namespace LsuMem

variable (s : LsuMem) (i : LscIn)

/-- The low sixteen bits of an address, `LSU_SB_BITS` and `DCCM_BITS`. -/
def low (a : BitVec 32) : BitVec 16 := a.extractLsb' 0 16

/-- `lsu_rdata_dc3`, by word: forwarded bytes over the word read. -/
def rdataLoDc3 : BitVec 32 :=
  ofLanes fun j =>
    if s.stbuf.fwdbyteenLoDc3.getLsbD j then lane s.stbuf.fwddataLoDc3 j else lane s.dataLoDc3 j

@[inherit_doc rdataLoDc3]
def rdataHiDc3 : BitVec 32 :=
  ofLanes fun j =>
    if s.stbuf.fwdbyteenHiDc3.getLsbD j then lane s.stbuf.fwddataHiDc3 j else lane s.dataHiDc3 j

/-- `lsu_ld_data_dc3`. -/
def ldDataDc3 : BitVec 32 :=
  ((s.rdataHiDc3 ++ s.rdataLoDc3) >>> (8 * ((low s.lsc.addrDc3).extractLsb' 0 2).toNat)).extractLsb' 0 32

/-- The pipeline's inputs, with the load data of this cycle. -/
def lscIn : LscIn := { i with ldDataDc3 := s.ldDataDc3 }

/-- `no_ecc_store_byteen_ext_dc3`. -/
def storeByteenExtDc3 : BitVec 8 :=
  (if s.lsc.pktDc3.store then s.lsc.pktDc3.byteen8 else 0) <<< ((low s.lsc.addrDc3).extractLsb' 0 2).toNat

/-- `no_ecc_store_data_ext_dc3`. -/
def storeDataExtDc3 : BitVec 64 :=
  (s.lsc.storeDataDc3 (s.lscIn i)).zeroExtend 64 <<< (8 * ((low s.lsc.addrDc3).extractLsb' 0 2).toNat)

/-- `store_ecc_datafn_lo_dc3`: the bytes stored over the rest of the word. -/
def datafnLoDc3 : BitVec 32 :=
  ofLanes fun j =>
    if (s.storeByteenExtDc3.extractLsb' 0 4).getLsbD j then lane ((s.storeDataExtDc3 i).extractLsb' 0 32) j
    else if s.stbuf.fwdbyteenLoDc3.getLsbD j then lane s.stbuf.fwddataLoDc3 j else lane s.dataLoDc3 j

/-- `store_ecc_datafn_hi_dc3`. -/
def datafnHiDc3 : BitVec 32 :=
  ofLanes fun j =>
    if (s.storeByteenExtDc3.extractLsb' 4 4).getLsbD j then lane ((s.storeDataExtDc3 i).extractLsb' 32 32) j
    else if s.stbuf.fwdbyteenHiDc3.getLsbD j then lane s.stbuf.fwddataHiDc3 j else lane s.dataHiDc3 j

/-- `store_stbuf_reqvld_dc3`. -/
def storeReqvldDc3 : Bool :=
  s.lsc.pktDc3.valid && s.lsc.pktDc3.store && s.lsc.addrInDccmDc3 && !i.flush.dc3 && !i.freeze

/-- `lsu_dccm_rden_dc1`. -/
def rdenDc1 : Bool :=
  s.lsc.pktDc1.valid &&
    (s.lsc.pktDc1.load || (s.lsc.pktDc1.store &&
      (!s.lsc.pktDc1.word || (s.lsc.addrDc1 (s.lscIn i)).extractLsb' 0 2 != 0))) &&
    s.lsc.addrInDccmDc1 (s.lscIn i)

/-- `lsu_stbuf_commit_any`: the oldest committed store drains unless its bank is being read. -/
def stbufCommitAny : Bool :=
  s.stbuf.reqvldAny && !i.freeze &&
    (!s.rdenDc1 i ||
      !(dccmBank s.stbuf.addrAny == dccmBank (low (s.lsc.addrDc1 (s.lscIn i))) ||
        dccmBank s.stbuf.addrAny == dccmBank (low (s.lsc.endAddrDc1 (s.lscIn i)))))

/-- The ports of the store buffer, as `lsu.sv` wires them. -/
def stbufIn : StbufIn where
  storeReqvldDc3 := s.storeReqvldDc3 i
  addrInDccmDc2 := s.lsc.addrInDccmDc2
  addrInDccmDc3 := s.lsc.addrInDccmDc3
  datafnHiDc3 := s.datafnHiDc3 i
  datafnLoDc3 := s.datafnLoDc3 i
  isldstDc1 := s.lsc.pktDc1.valid && (s.lsc.pktDc1.load || s.lsc.pktDc1.store)
  dccmLdstDc2 := s.lsc.pktDc2.valid && (s.lsc.pktDc2.load || s.lsc.pktDc2.store) && s.lsc.addrInDccmDc2
  dccmLdstDc3 := s.lsc.pktDc3.valid && (s.lsc.pktDc3.load || s.lsc.pktDc3.store) && s.lsc.addrInDccmDc3
  commitDc5 := s.lsc.commitDc5 (s.lscIn i)
  stbufCommitAny := s.stbufCommitAny i
  addrDc1 := low (s.lsc.addrDc1 (s.lscIn i))
  addrDc2 := low s.lsc.addrDc2
  addrDc3 := low s.lsc.addrDc3
  endAddrDc1 := low (s.lsc.endAddrDc1 (s.lscIn i))
  endAddrDc2 := low s.lsc.endAddrDc2
  endAddrDc3 := low s.lsc.endAddrDc3
  pktDc3 := s.lsc.pktDc3
  freezeC1Dc2Clken := s.lsc.freezeC1Dc2Clken i
  freezeC1Dc3Clken := s.lsc.freezeC1Dc3Clken i

/-- The ports of the memory. -/
def memIn : DccmMemIn where
  freeze := i.freeze
  wren := s.stbufCommitAny i
  rden := s.rdenDc1 i && s.lsc.addrInDccmDc1 (s.lscIn i)
  wrAddr := s.stbuf.addrAny
  rdAddrLo := low (s.lsc.addrDc1 (s.lscIn i))
  rdAddrHi := low (s.lsc.endAddrDc1 (s.lscIn i))
  wrData := s.stbuf.dataAny

/-- `lsu_dccm_c1_dc3_clken`. -/
def dccmC1Dc3Clken : Bool := ((s.lsc.c1Dc3Clken i && s.lsc.addrInDccmDc2) || i.clkOverride) && !i.freeze

/-- `lsu_stbuf_full_any`. -/
def stbufFullAny : Bool := s.stbuf.fullAny (s.stbufIn i)

/-- The registers after a core cycle.  `lsu_result_corr_dc4` is followed one cycle to write-back. -/
def next : LsuMem where
  lsc := s.lsc.next (s.lscIn i)
  stbuf := s.stbuf.next (s.stbufIn i)
  mem := s.mem.next (s.memIn i)
  dataHiDc3 := rvdffs (s.dccmC1Dc3Clken i) s.mem.rdDataHi s.dataHiDc3
  dataLoDc3 := rvdffs (s.dccmC1Dc3Clken i) s.mem.rdDataLo s.dataLoDc3
  resultCorrDc4 := s.lsc.resultDc3 (s.lscIn i)
  resultDc5 := s.resultCorrDc4

/-- The load/store unit on a DCCM with given contents. -/
def machine (m : DccmMem) : Machine LsuMem LscIn := ⟨{ mem := m }, next⟩

end LsuMem

end SocRV
