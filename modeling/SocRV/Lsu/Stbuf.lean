import SocRV.Lib.Lanes
import SocRV.Lib.Overlay
import SocRV.Lib.Ring
import SocRV.Lsu.LscCtl

/-!
# The store buffer

`lsu_stbuf` holds up to eight stores to the DCCM between DC3 and their write.  A store enters at `WrPtr` when it
leaves DC3, is marked two cycles later for draining or for dropping by whether it committed in DC5, and leaves at
`RdPtr`.  A load or store in DC2 is compared with every entry and with the store in DC3 and takes, byte by byte,
the youngest match.  An access that crosses a word takes two entries; the ECC inputs of the module are tied off by
`lsu.sv` and left out.
-/

namespace SocRV

/-- The address bits `LSU_SB_BITS-1:2` that are compared. -/
def sbWord (a : BitVec 16) : BitVec 14 := a.extractLsb' 2 14

/-- One entry of the buffer. -/
structure StbufEntry where
  dataVld : Bool := false
  drainVld : Bool := false
  flushVld : Bool := false
  addr : BitVec 16 := 0
  byteen : BitVec 4 := 0
  data : BitVec 32 := 0
  deriving DecidableEq, Repr

/-- The registers of `lsu_stbuf`. -/
structure Stbuf where
  entry : BitVec 3 → StbufEntry := fun _ => {}
  wrPtr : BitVec 3 := 0
  rdPtr : BitVec 3 := 0
  wrPtrDc4 : BitVec 3 := 0
  wrPtrDc5 : BitVec 3 := 0
  dualDc2 : Bool := false
  dualDc3 : Bool := false
  dualWriteDc4 : Bool := false
  dualWriteDc5 : Bool := false
  reqvldDc4 : Bool := false
  reqvldDc5 : Bool := false
  fwdbyteenHiDc3 : BitVec 4 := 0
  fwdbyteenLoDc3 : BitVec 4 := 0
  fwddataHiDc3 : BitVec 32 := 0
  fwddataLoDc3 : BitVec 32 := 0

/-- The inputs of a core cycle, under the names of the ports. -/
structure StbufIn where
  storeReqvldDc3 : Bool
  addrInDccmDc2 : Bool
  addrInDccmDc3 : Bool
  datafnHiDc3 : BitVec 32
  datafnLoDc3 : BitVec 32
  isldstDc1 : Bool
  dccmLdstDc2 : Bool
  dccmLdstDc3 : Bool
  commitDc5 : Bool
  stbufCommitAny : Bool
  addrDc1 : BitVec 16
  addrDc2 : BitVec 16
  addrDc3 : BitVec 16
  endAddrDc1 : BitVec 16
  endAddrDc2 : BitVec 16
  endAddrDc3 : BitVec 16
  pktDc3 : LsuPkt
  freezeC1Dc2Clken : Bool
  freezeC1Dc3Clken : Bool

/-- `ldst_byteen_dc3`: the byte enables of an access over two words before it is moved to its lane. -/
def LsuPkt.byteen8 (p : LsuPkt) : BitVec 8 :=
  (if p.byte then 0b00000001#8 else 0) ||| (if p.half then 0b00000011#8 else 0) |||
    (if p.word then 0b00001111#8 else 0)

/-- `store_byteen_ext_dc3`. -/
def LsuPkt.byteenExt (p : LsuPkt) (a : BitVec 16) : BitVec 8 := p.byteen8 <<< (a.extractLsb' 0 2).toNat

/-- `store_byteen_hi_dc3`. -/
def LsuPkt.byteenHi (p : LsuPkt) (a : BitVec 16) : BitVec 4 := (p.byteenExt a).extractLsb' 4 4

/-- `store_byteen_lo_dc3`. -/
def LsuPkt.byteenLo (p : LsuPkt) (a : BitVec 16) : BitVec 4 := (p.byteenExt a).extractLsb' 0 4

namespace Stbuf

variable (s : Stbuf) (i : StbufIn)

/-- `ldst_dual_dc1`: the access crosses a word. -/
def dualDc1 (i : StbufIn) : Bool := i.addrDc1.getLsbD 2 != i.endAddrDc1.getLsbD 2

/-- `dual_stbuf_write_dc3`. -/
def dualWriteDc3 : Bool := s.dualDc3 && i.storeReqvldDc3

/-- `stbuf_reqvld_flushed_any`. -/
def reqvldFlushedAny : Bool := (s.entry s.rdPtr).flushVld

/-- `stbuf_reqvld_any`. -/
def reqvldAny : Bool := (s.entry s.rdPtr).drainVld

/-- `stbuf_addr_any`. -/
def addrAny : BitVec 16 := (s.entry s.rdPtr).addr

/-- `stbuf_data_any`. -/
def dataAny : BitVec 32 := (s.entry s.rdPtr).data

/-! ## Occupancy -/

/-- `stbuf_numvld_any`. -/
def numvldAny : Nat := (List.range 8).countP fun n => (s.entry (BitVec.ofNat 3 n)).dataVld

/-- `stbuf_specvld_dcN`: one entry, or two for an access that crosses a word. -/
def specvld (ldst dual : Bool) : Nat := if ldst then if dual then 2 else 1 else 0

/-- `stbuf_specvld_any`, a sum of four bits. -/
def specvldAny : Nat :=
  (s.numvldAny + specvld i.isldstDc1 (dualDc1 i) + specvld i.dccmLdstDc2 s.dualDc2 +
    specvld i.dccmLdstDc3 s.dualDc3) % 16

/-- `lsu_stbuf_full_any`. -/
def fullAny : Bool := decide (6 < s.specvldAny i)

/-! ## Forwarding to DC2 -/

/-- `stbuf_fwdbyteenvec` of an entry: it holds byte `j` of the word compared in DC2. -/
def fwdVec (i : StbufIn) (cmpaddr : BitVec 16) (e : StbufEntry) (j : Nat) : Bool :=
  sbWord e.addr == sbWord cmpaddr && !e.flushVld && i.addrInDccmDc2 && e.byteen.getLsbD j && e.dataVld

/-- `stbuf_fwdbyteen_dc2`. -/
def fwdbyteenDc2 (cmpaddr : BitVec 16) (j : Nat) : Bool :=
  (List.range 8).any fun n => fwdVec i cmpaddr (s.entry (BitVec.ofNat 3 n)) j

/-- `stbuf_fwddata_dc2`: the loop starts at `WrPtr`, so the youngest match is the last one to be taken. -/
def fwddataDc2 (cmpaddr : BitVec 16) (j : Nat) : BitVec 8 :=
  (List.range 8).foldl (fun acc n =>
    let e := s.entry (s.wrPtr + BitVec.ofNat 3 n)
    if fwdVec i cmpaddr e j then lane e.data j else acc) 0

/-- `jit_in_same_region`. -/
def jitInSameRegion (i : StbufIn) : Bool := i.addrInDccmDc2 && i.addrInDccmDc3

/-- `stbuf_fwdbyteen_*_hi`: the second word of the store in DC3 holds byte `j` of the word compared. -/
def jitHi (cmpaddr : BitVec 16) (j : Nat) : Bool :=
  sbWord i.endAddrDc3 == sbWord cmpaddr && jitInSameRegion i && (i.pktDc3.byteenHi i.addrDc3).getLsbD j &&
    i.storeReqvldDc3 && s.dualWriteDc3 i

/-- `stbuf_fwdbyteen_*_lo`: the first word of the store in DC3 holds byte `j` of the word compared. -/
def jitLo (i : StbufIn) (cmpaddr : BitVec 16) (j : Nat) : Bool :=
  sbWord i.addrDc3 == sbWord cmpaddr && jitInSameRegion i && (i.pktDc3.byteenLo i.addrDc3).getLsbD j &&
    i.storeReqvldDc3

/-- `stbuf_fwdbyteen_fn_dc2`. -/
def fwdbyteenFnDc2 (cmpaddr : BitVec 16) : BitVec 4 :=
  ofEnables fun j => s.jitHi i cmpaddr j || jitLo i cmpaddr j || s.fwdbyteenDc2 i cmpaddr j

/-- `stbuf_fwddata_fn_dc2`. -/
def fwddataFnDc2 (cmpaddr : BitVec 16) : BitVec 32 :=
  ofLanes fun j =>
    if s.jitHi i cmpaddr j || jitLo i cmpaddr j then
      (if s.jitHi i cmpaddr j then lane i.datafnHiDc3 j else 0) |||
        (if jitLo i cmpaddr j then lane i.datafnLoDc3 j else 0)
    else s.fwddataDc2 i cmpaddr j

/-! ## One cycle -/

/-- `stbuf_wr_en`. -/
def wrEn (n : BitVec 3) : Bool := i.storeReqvldDc3 && (n == s.wrPtr || (n == s.wrPtr + 1 && s.dualWriteDc3 i))

/-- `stbuf_drain_or_flush_en`. -/
def drainOrFlushEn (n : BitVec 3) : Bool := s.reqvldDc5 && (n == s.wrPtrDc5 || (n == s.wrPtrDc5 + 1 && s.dualWriteDc5))

/-- `RdPtrEn`. -/
def rdPtrEn : Bool := i.stbufCommitAny || s.reqvldFlushedAny

/-- `stbuf_reset`. -/
def reset (n : BitVec 3) : Bool := s.rdPtrEn i && n == s.rdPtr

/-- `sel_lo`. -/
def selLo (n : BitVec 3) : Bool := (!s.dualDc3 || i.storeReqvldDc3) && n == s.wrPtr

/-- An entry after a core cycle. -/
def nextEntry (n : BitVec 3) : StbufEntry :=
  let e := s.entry n
  { dataVld := rvdffsc (s.wrEn i n) (s.reset i n) true e.dataVld
    drainVld := rvdffsc (s.drainOrFlushEn n && i.commitDc5) (s.reset i n) true e.drainVld
    flushVld := rvdffsc (s.drainOrFlushEn n && !i.commitDc5) (s.reset i n) true e.flushVld
    addr := rvdffs (s.wrEn i n) (if s.selLo i n then i.addrDc3 else i.endAddrDc3) e.addr
    byteen := rvdffs (s.wrEn i n)
      (if s.selLo i n then i.pktDc3.byteenLo i.addrDc3 else i.pktDc3.byteenHi i.addrDc3) e.byteen
    data := rvdffs (s.wrEn i n) (if s.selLo i n then i.datafnLoDc3 else i.datafnHiDc3) e.data }

/-- The registers after a core cycle. -/
def next : Stbuf where
  entry := s.nextEntry i
  wrPtr := rvdffs i.storeReqvldDc3 (if i.storeReqvldDc3 && s.dualWriteDc3 i then s.wrPtr + 2 else s.wrPtr + 1) s.wrPtr
  rdPtr := rvdffs (s.rdPtrEn i) (s.rdPtr + 1) s.rdPtr
  wrPtrDc4 := s.wrPtr
  wrPtrDc5 := s.wrPtrDc4
  dualDc2 := rvdffs i.freezeC1Dc2Clken (dualDc1 i) s.dualDc2
  dualDc3 := rvdffs i.freezeC1Dc3Clken s.dualDc2 s.dualDc3
  dualWriteDc4 := s.dualWriteDc3 i
  dualWriteDc5 := s.dualWriteDc4
  reqvldDc4 := i.storeReqvldDc3
  reqvldDc5 := s.reqvldDc4
  fwdbyteenHiDc3 := rvdffs i.freezeC1Dc3Clken (s.fwdbyteenFnDc2 i i.endAddrDc2) s.fwdbyteenHiDc3
  fwdbyteenLoDc3 := rvdffs i.freezeC1Dc3Clken (s.fwdbyteenFnDc2 i i.addrDc2) s.fwdbyteenLoDc3
  fwddataHiDc3 := rvdffs i.freezeC1Dc3Clken (s.fwddataFnDc2 i i.endAddrDc2) s.fwddataHiDc3
  fwddataLoDc3 := rvdffs i.freezeC1Dc3Clken (s.fwddataFnDc2 i i.addrDc2) s.fwddataLoDc3

/-! ## The buffer as a queue -/

end Stbuf

namespace StbufEntry

/-- A slot without an entry. -/
def Free (e : StbufEntry) : Prop := e.dataVld = false ∧ e.drainVld = false ∧ e.flushVld = false

/-- The mark an entry gets when its store is in DC5. -/
def mark (commit : Bool) (e : StbufEntry) : StbufEntry :=
  { e with drainVld := e.drainVld || commit, flushVld := e.flushVld || !commit }

/-- An entry without its flags. -/
def clear (e : StbufEntry) : StbufEntry := { e with dataVld := false, drainVld := false, flushVld := false }

/-- The byte lane of an address. -/
def laneOf (b : BitVec 16) : Nat := (b.extractLsb' 0 2).toNat

theorem laneOf_lt (b : BitVec 16) : laneOf b < 4 := (b.extractLsb' 0 2).isLt

/-- What an entry stores: the enabled bytes of its word. -/
def patch (e : StbufEntry) : Overlay (BitVec 16) (BitVec 8) := fun b =>
  if sbWord e.addr = sbWord b ∧ e.byteen.getLsbD (laneOf b) = true then some (lane e.data (laneOf b)) else none

/-- What draining an entry writes: its whole word. -/
def wordPatch (e : StbufEntry) : Overlay (BitVec 16) (BitVec 8) := fun b =>
  if sbWord e.addr = sbWord b then some (lane e.data (laneOf b)) else none

end StbufEntry

namespace Stbuf

open StbufEntry

variable {s : Stbuf} {i : StbufIn}

/-- The entry of a store that leaves DC3 within one word. -/
def newEntry (i : StbufIn) : StbufEntry where
  dataVld := true
  addr := i.addrDc3
  byteen := i.pktDc3.byteenLo i.addrDc3
  data := i.datafnLoDc3

/-- The entries in the order of their stores: those that have passed DC5, then the one whose store is in DC5 or
was killed in DC4, then the one of DC4. -/
structure Queue (s : Stbuf) (c p5 p4 : List StbufEntry) : Prop where
  holds : Ring.Holds Free s.entry s.rdPtr s.wrPtr (c ++ p5 ++ p4)
  vld : ∀ e ∈ c ++ p5 ++ p4, e.dataVld = true
  marked : ∀ e ∈ c, e.drainVld = !e.flushVld
  unmarked : ∀ e ∈ p5 ++ p4, e.drainVld = false ∧ e.flushVld = false
  dc5 : p5.length = s.reqvldDc5.toNat ∧ (s.reqvldDc5 = true → (s.wrPtrDc5 - s.rdPtr).toNat = c.length)
  dc4 : p4.length = s.reqvldDc4.toNat ∧ (s.reqvldDc4 = true → (s.wrPtrDc4 - s.rdPtr).toNat = (c ++ p5).length)

/-- What a cycle does to a slot, as three changes one after the other: the new entry is written, the entry of DC5
is marked, the oldest one is cleared. -/
theorem nextEntry_eq (hd3 : s.dualWriteDc3 i = false) (hd5 : s.reqvldDc5 = true → s.dualWriteDc5 = false)
    (n : BitVec 3) :
    s.nextEntry i n =
      let e₁ := if i.storeReqvldDc3 && n == s.wrPtr then
        { newEntry i with drainVld := (s.entry n).drainVld, flushVld := (s.entry n).flushVld } else s.entry n
      let e₂ := if s.reqvldDc5 && n == s.wrPtrDc5 then e₁.mark i.commitDc5 else e₁
      if s.rdPtrEn i && n == s.rdPtr then e₂.clear else e₂ := by
  have hwr : s.wrEn i n = (i.storeReqvldDc3 && n == s.wrPtr) := by
    simp [wrEn, hd3]
  have hdr : s.drainOrFlushEn n = (s.reqvldDc5 && n == s.wrPtrDc5) := by
    unfold drainOrFlushEn
    cases hr : s.reqvldDc5 with
    | false => rfl
    | true => simp [hd5 hr]
  have hsel : (i.storeReqvldDc3 && n == s.wrPtr) = true → s.selLo i n = true := by
    intro h
    rw [Bool.and_eq_true] at h
    simp [selLo, h.1, h.2]
  unfold nextEntry
  simp only [hwr, hdr, reset]
  generalize (i.storeReqvldDc3 && n == s.wrPtr) = push at hsel
  generalize (s.reqvldDc5 && n == s.wrPtrDc5) = dc5
  generalize (s.rdPtrEn i && n == s.rdPtr) = pop
  cases push with
  | false => cases dc5 <;> cases pop <;> cases i.commitDc5 <;> simp [rvdffsc, rvdffs, mark, clear]
  | true =>
    rw [hsel rfl]
    cases dc5 <;> cases pop <;> cases i.commitDc5 <;> simp [rvdffsc, rvdffs, mark, clear, newEntry]

section Step

variable {c p5 p4 : List StbufEntry}

/-- The slot at the write pointer is free. -/
theorem Queue.free_wrPtr (h : Queue s c p5 p4) : Free (s.entry s.wrPtr) :=
  h.holds.idle s.wrPtr (Nat.le_of_eq h.holds.length)

/-- The write of a new entry. -/
theorem Queue.push (h : Queue s c p5 p4) (hlen : i.storeReqvldDc3 = true → (c ++ p5 ++ p4).length < 7)
    (hd3 : s.dualWriteDc3 i = false) :
    Ring.Holds Free (fun n => if i.storeReqvldDc3 && n == s.wrPtr then
        { newEntry i with drainVld := (s.entry n).drainVld, flushVld := (s.entry n).flushVld } else s.entry n)
      s.rdPtr (s.next i).wrPtr (c ++ p5 ++ p4 ++ if i.storeReqvldDc3 then [newEntry i] else []) := by
  have hwr : (s.next i).wrPtr = if i.storeReqvldDc3 then s.wrPtr + 1 else s.wrPtr := by
    simp [next, hd3, rvdffs]
  cases hst : i.storeReqvldDc3 with
  | false =>
    rw [hst] at hwr
    rw [hwr]
    simpa using h.holds
  | true =>
    rw [hst] at hwr
    rw [hwr]
    have hfree := h.free_wrPtr
    have hpush := h.holds.push (by have := hlen hst; omega)
      fun e => { newEntry i with drainVld := e.drainVld, flushVld := e.flushVld }
    dsimp only at hpush
    rw [hfree.2.1, hfree.2.2] at hpush
    simpa [newEntry] using hpush

/-- The mark on the entry of DC5. -/
theorem holds_mark {slot : BitVec 3 → StbufEntry} {wr : BitVec 3} {q : List StbufEntry}
    (h : Ring.Holds Free slot s.rdPtr wr (c ++ p5 ++ q)) (hp5 : p5.length = s.reqvldDc5.toNat)
    (hpos : s.reqvldDc5 = true → (s.wrPtrDc5 - s.rdPtr).toNat = c.length) :
    Ring.Holds Free (fun n => if s.reqvldDc5 && n == s.wrPtrDc5 then (slot n).mark i.commitDc5 else slot n)
      s.rdPtr wr (c ++ p5.map (mark i.commitDc5) ++ q) := by
  cases hr : s.reqvldDc5 with
  | false =>
    rw [hr] at hp5
    obtain rfl : p5 = [] := List.length_eq_zero_iff.mp hp5
    simpa using h
  | true =>
    rw [hr] at hp5
    obtain ⟨e, rfl⟩ := List.length_eq_one_iff.mp hp5
    have hmark := Ring.Holds.modify (e := e) (j := s.wrPtrDc5) (by simpa using h) (hpos hr) (mark i.commitDc5)
    simpa using hmark

/-- An entry leaves the buffer only when it is marked, so it has passed DC5. -/
theorem Queue.pop_cons (h : Queue s c p5 p4) (hcommit : i.stbufCommitAny = true → s.reqvldAny = true)
    (hpop : s.rdPtrEn i = true) : ∃ e c', c = e :: c' ∧ s.entry s.rdPtr = e := by
  have hflag : (s.entry s.rdPtr).drainVld = true ∨ (s.entry s.rdPtr).flushVld = true := by
    unfold rdPtrEn at hpop
    rw [Bool.or_eq_true] at hpop
    rcases hpop with hc | hf
    · exact Or.inl (hcommit hc)
    · exact Or.inr hf
  have hzero : (s.rdPtr - s.rdPtr).toNat = 0 := by simp
  have hpos : 0 < (c ++ p5 ++ p4).length := by
    rw [Nat.pos_iff_ne_zero]
    intro hlen
    have hfree := h.holds.idle s.rdPtr (by rw [hlen]; exact Nat.zero_le _)
    rw [hfree.2.1, hfree.2.2] at hflag
    simp at hflag
  have hhead : s.entry s.rdPtr = (c ++ p5 ++ p4)[0] := by
    have hget := h.holds.get 0 hpos
    simpa using hget
  cases c with
  | cons e c' => exact ⟨e, c', rfl, by simpa using hhead⟩
  | nil =>
    have hmem : s.entry s.rdPtr ∈ p5 ++ p4 := by
      rw [hhead]
      simp
    obtain ⟨hdr, hfl⟩ := h.unmarked _ hmem
    rw [hdr, hfl] at hflag
    simp at hflag

/-- One cycle: the store in DC3 enters, the one in DC5 is marked, the oldest entry may leave. -/
theorem Queue.next (h : Queue s c p5 p4) (hlen : i.storeReqvldDc3 = true → (c ++ p5 ++ p4).length < 7)
    (hd3 : s.dualWriteDc3 i = false) (hd5 : s.reqvldDc5 = true → s.dualWriteDc5 = false)
    (hcommit : i.stbufCommitAny = true → s.reqvldAny = true) :
    Queue (s.next i) ((c ++ p5.map (mark i.commitDc5)).drop (s.rdPtrEn i).toNat) p4
      (if i.storeReqvldDc3 then [newEntry i] else []) := by
  have hpushed := h.push hlen hd3
  have hmarked := holds_mark (i := i) (q := p4 ++ if i.storeReqvldDc3 then [newEntry i] else [])
    (by simpa only [List.append_assoc] using hpushed) h.dc5.1 h.dc5.2
  have hentry : (s.next i).entry = s.nextEntry i := rfl
  have hdc4 : (s.next i).wrPtrDc5 = s.wrPtrDc4 ∧ (s.next i).reqvldDc5 = s.reqvldDc4 ∧
      (s.next i).wrPtrDc4 = s.wrPtr ∧ (s.next i).reqvldDc4 = i.storeReqvldDc3 := ⟨rfl, rfl, rfl, rfl⟩
  have hrd : (s.next i).rdPtr = if s.rdPtrEn i then s.rdPtr + 1 else s.rdPtr := rfl
  have hp5 := h.dc5.1
  have hmarks : ∀ e ∈ c ++ p5.map (mark i.commitDc5), e.drainVld = !e.flushVld := by
    intro e he
    rcases List.mem_append.mp he with hc | hm
    · exact h.marked e hc
    · obtain ⟨e', he', rfl⟩ := List.mem_map.mp hm
      obtain ⟨hd, hf⟩ := h.unmarked e' (List.mem_append_left _ he')
      simp [mark, hd, hf]
  have hvld : ∀ e ∈ c ++ p5.map (mark i.commitDc5), e.dataVld = true := by
    intro e he
    rcases List.mem_append.mp he with hc | hm
    · exact h.vld e (List.mem_append_left _ (List.mem_append_left _ hc))
    · obtain ⟨e', he', rfl⟩ := List.mem_map.mp hm
      exact h.vld e' (List.mem_append_left _ (List.mem_append_right _ he'))
  have hnew : ∀ e ∈ (if i.storeReqvldDc3 then [newEntry i] else []), e = newEntry i := by
    intro e he
    cases hst : i.storeReqvldDc3 with
    | false => simp [hst] at he
    | true => simpa [hst] using he
  have hnewlen : (if i.storeReqvldDc3 then [newEntry i] else []).length = i.storeReqvldDc3.toNat := by
    cases i.storeReqvldDc3 <;> rfl
  have hlen5 : (p5.map (mark i.commitDc5)).length = p5.length := List.length_map _
  -- how far the entries of DC5 and DC4 are from the read pointer after the cycle
  have hshift : ∀ x : BitVec 3, ∀ n : Nat, (x - s.rdPtr).toNat = n → (s.rdPtrEn i = true → 0 < n) →
      (x - (s.next i).rdPtr).toNat = n - (s.rdPtrEn i).toNat := by
    intro x n hx hpos
    rw [hrd]
    cases hpop : s.rdPtrEn i with
    | false => simpa using hx
    | true =>
      have hne : x ≠ s.rdPtr := by
        rintro rfl
        have := hpos hpop
        simp at hx
        omega
      have := Ring.sub_succ_toNat hne
      simp only [if_true, Bool.toNat_true]
      omega
  have hcpos : s.rdPtrEn i = true → 0 < c.length := by
    intro hpop
    obtain ⟨e, c', rfl, -⟩ := h.pop_cons hcommit hpop
    simp
  refine ⟨?_, ?_, ?_, ?_, ?_, ?_⟩
  · cases hpop : s.rdPtrEn i with
    | false =>
      have hfun : (s.next i).entry = _ := funext fun n => nextEntry_eq (i := i) hd3 hd5 n
      rw [hfun, hrd, hpop]
      simpa [hpop] using hmarked
    | true =>
      obtain ⟨e, c', rfl, hhead⟩ := h.pop_cons hcommit hpop
      have hfun : (s.next i).entry = _ := funext fun n => nextEntry_eq (i := i) hd3 hd5 n
      rw [List.cons_append, List.cons_append] at hmarked
      have hpopped := hmarked.pop (f := clear) ⟨rfl, rfl, rfl⟩
      rw [hfun, hrd, hpop]
      simpa [hpop] using hpopped
  · intro e he
    rcases List.mem_append.mp he with he | he
    · rcases List.mem_append.mp he with he | he
      · exact hvld e (List.mem_of_mem_drop he)
      · exact h.vld e (List.mem_append_right _ he)
    · rw [hnew e he]
      rfl
  · exact fun e he => hmarks e (List.mem_of_mem_drop he)
  · intro e he
    rcases List.mem_append.mp he with he | he
    · exact h.unmarked e (List.mem_append_right _ he)
    · rw [hnew e he]
      exact ⟨rfl, rfl⟩
  · refine ⟨h.dc4.1, fun hr => ?_⟩
    rw [hdc4.1, hshift _ _ (h.dc4.2 hr) fun hpop => by
      have := hcpos hpop
      rw [List.length_append]
      omega]
    rw [List.length_drop, List.length_append, List.length_append, hlen5]
  · refine ⟨hnewlen, fun hr => ?_⟩
    rw [hdc4.2.2.1, hshift _ _ h.holds.length.symm fun hpop => by
      have := hcpos hpop
      simp only [List.length_append]
      omega]
    cases hpop : s.rdPtrEn i with
    | false => simp [hlen5]
    | true =>
      have := hcpos hpop
      simp only [List.length_append, List.length_drop, hlen5, Bool.toNat_true]
      omega

/-- As many slots are closer to a pointer than a distance as it says. -/
theorem countP_distance : ∀ rd : BitVec 3, ∀ l < 8,
    (List.range 8).countP (fun n => decide ((BitVec.ofNat 3 n - rd).toNat < l)) = l := by decide

/-- `stbuf_numvld_any` counts the entries. -/
theorem Queue.numvldAny_eq (h : Queue s c p5 p4) : s.numvldAny = (c ++ p5 ++ p4).length := by
  have hvld : ∀ n : Nat, (s.entry (BitVec.ofNat 3 n)).dataVld =
      decide ((BitVec.ofNat 3 n - s.rdPtr).toNat < (c ++ p5 ++ p4).length) := by
    intro n
    by_cases hlt : (BitVec.ofNat 3 n - s.rdPtr).toNat < (c ++ p5 ++ p4).length
    · rw [h.vld _ (h.holds.slot_mem hlt), decide_eq_true hlt]
    · rw [(h.holds.idle _ (Nat.le_of_not_lt hlt)).1, decide_eq_false hlt]
  unfold numvldAny
  simp only [hvld]
  exact countP_distance s.rdPtr _ h.holds.length_lt

/-- An entry matches in DC2 exactly where its store covers the byte and it is not dropped. -/
theorem patch_eq_of_fwdVec (hin : i.addrInDccmDc2 = true) {a b : BitVec 16} (hab : sbWord a = sbWord b)
    {e : StbufEntry} (hv : e.dataVld = true) (hf : e.flushVld = false) :
    e.patch b = if fwdVec i a e (laneOf b) then some (lane e.data (laneOf b)) else none := by
  unfold patch fwdVec
  simp [hin, hab, hv, hf]

/-- A dropped entry forwards nothing. -/
theorem fwdVec_of_flush {a : BitVec 16} {e : StbufEntry} {n : Nat} (hf : e.flushVld = true) :
    fwdVec i a e n = false := by
  simp [fwdVec, hf]

/-- A pass that finds no match keeps its start. -/
theorem foldl_of_no_match {a : BitVec 16} {j : Nat} {q : List StbufEntry}
    (h : ¬∃ e ∈ q, fwdVec i a e j = true) (acc : BitVec 8) :
    q.foldl (fun acc e => if fwdVec i a e j then lane e.data j else acc) acc = acc := by
  induction q with
  | nil => rfl
  | cons e q ih =>
    simp only [List.exists_mem_cons_iff, not_or, Bool.not_eq_true] at h
    rw [List.foldl_cons, h.1]
    exact ih h.2

/-- Taking the last match of a list is reading through the stores it holds. -/
theorem foldl_fwdVec (hin : i.addrInDccmDc2 = true) {a b : BitVec 16} (hab : sbWord a = sbWord b)
    (q : List StbufEntry) (hv : ∀ e ∈ q, e.dataVld = true) (m : BitVec 16 → BitVec 8) (acc : BitVec 8) :
    Overlay.laidAll m ((q.filter fun e => !e.flushVld).map patch) b =
      if (∃ e ∈ q, fwdVec i a e (laneOf b) = true) then
        q.foldl (fun acc e => if fwdVec i a e (laneOf b) then lane e.data (laneOf b) else acc) acc
      else m b := by
  induction q generalizing m acc with
  | nil => simp
  | cons e q ih =>
    have hrest := ih fun e' he' => hv e' (List.mem_cons_of_mem _ he')
    cases hm : fwdVec i a e (laneOf b) with
    | true =>
      have hfl : e.flushVld = false := by
        by_contra hne
        rw [fwdVec_of_flush (by simpa using hne)] at hm
        cases hm
      have hp := patch_eq_of_fwdVec hin hab (hv e (List.mem_cons_self ..)) hfl
      rw [hm, if_pos rfl] at hp
      have hlaid : Overlay.laid m e.patch b = lane e.data (laneOf b) := Overlay.laid_of_some hp
      rw [List.filter_cons_of_pos (by simp [hfl]), List.map_cons, Overlay.laidAll_cons,
        hrest (Overlay.laid m e.patch) (lane e.data (laneOf b)), hlaid, List.foldl_cons, hm]
      have hhead : ∃ e' ∈ e :: q, fwdVec i a e' (laneOf b) = true := ⟨e, List.mem_cons_self .., hm⟩
      rw [if_pos hhead, if_pos rfl]
      by_cases hex : ∃ e ∈ q, fwdVec i a e (laneOf b) = true
      · rw [if_pos hex]
      · rw [if_neg hex, foldl_of_no_match hex]
    | false =>
      have hskip : Overlay.laidAll m (((e :: q).filter fun e => !e.flushVld).map patch) b =
          Overlay.laidAll m ((q.filter fun e => !e.flushVld).map patch) b := by
        cases hfl : e.flushVld with
        | true => rw [List.filter_cons_of_neg (by simp [hfl])]
        | false =>
          have hp := patch_eq_of_fwdVec hin hab (hv e (List.mem_cons_self ..)) hfl
          rw [hm, if_neg (by simp)] at hp
          rw [List.filter_cons_of_pos (by simp [hfl]), List.map_cons, Overlay.laidAll_cons]
          exact Overlay.laidAll_congr (Overlay.laid_of_none hp) _
      rw [hskip, hrest m acc]
      simp [hm]

/-- The bytes forwarded from the buffer on top of a memory are that memory read through the stores in it. -/
theorem Queue.fwd_eq (h : Queue s c p5 p4) (hin : i.addrInDccmDc2 = true) {a b : BitVec 16}
    (hab : sbWord a = sbWord b) (m : BitVec 16 → BitVec 8) :
    (if s.fwdbyteenDc2 i a (laneOf b) then s.fwddataDc2 i a (laneOf b) else m b) =
      Overlay.laidAll m (((c ++ p5 ++ p4).filter fun e => !e.flushVld).map patch) b := by
  have hfree : ∀ e : StbufEntry, Free e → fwdVec i a e (laneOf b) = false := by
    intro e he
    simp [fwdVec, he.1]
  have hany : s.fwdbyteenDc2 i a (laneOf b) = true ↔ ∃ e ∈ c ++ p5 ++ p4, fwdVec i a e (laneOf b) = true := by
    rw [← h.holds.exists_slot fun e he hm => by rw [hfree e he] at hm; cases hm]
    unfold fwdbyteenDc2
    rw [List.any_eq_true]
    constructor
    · rintro ⟨n, -, hn⟩
      exact ⟨_, hn⟩
    · rintro ⟨n, hn⟩
      refine ⟨n.toNat, List.mem_range.mpr n.isLt, ?_⟩
      rw [BitVec.ofNat_toNat, BitVec.setWidth_eq]
      exact hn
  have hfold : s.fwddataDc2 i a (laneOf b) =
      (c ++ p5 ++ p4).foldl (fun acc e => if fwdVec i a e (laneOf b) then lane e.data (laneOf b) else acc) 0 :=
    h.holds.foldl_slots (f := fun acc e => if fwdVec i a e (laneOf b) then lane e.data (laneOf b) else acc)
      (fun e acc he => by rw [hfree e he]; rfl) 0
  rw [foldl_fwdVec hin hab _ h.vld m 0, hfold]
  simp only [hany]

end Step

end Stbuf

end SocRV
