import SocRV.Lib.Machine
import SocRV.Lib.Ring
import SocRV.Core.Primitives

/-!
# The instruction buffer in front of decode

`dec_ib_ctl.sv`: a ring of two or four slots between the aligner and decode.  The aligner pushes up to two
instructions a cycle, decode takes up to two, and a debug command is inserted as an instruction when the buffer is
empty.  Eight replicated head pointers read the instruction words, the pc data, the branch packets and the
compressed instructions, and the instruction words are kept twice.  Of the aligner (`ifu_aln_ctl.sv`) the valid bits
of its two oldest fetch groups are modelled, from which it tells what it presents and what it retires.
-/

namespace SocRV

/-- `DEC_INSTBUF_DEPTH`. -/
inductive IbDepth where
  | two
  | four
  deriving DecidableEq, Repr

namespace IbDepth

/-- The number of slots. -/
def entries : IbDepth → Nat
  | two => 2
  | four => 4

/-- `IB_PTR_WIDTH`. -/
def ptrWidth : IbDepth → Nat
  | two => 1
  | four => 2

theorem two_pow_ptrWidth : ∀ d : IbDepth, 2 ^ d.ptrWidth = d.entries
  | two => rfl
  | four => rfl

theorem entries_le : ∀ d : IbDepth, d.entries ≤ 4
  | two => by decide
  | four => Nat.le_refl 4

end IbDepth

/-- `ifu_i0_pcdata`, `ifu_i1_pcdata`: the address of an instruction and what was wrong with its fetch. -/
structure PcData where
  icafSecond : Bool := false
  dbecc : Bool := false
  sbecc : Bool := false
  perr : Bool := false
  icaf : Bool := false
  pc : BitVec 31 := 0
  pc4 : Bool := false
  deriving DecidableEq, Repr

/-- What the aligner presents of one instruction; `β` is the branch packet `br_pkt_t`. -/
structure IbEntry (β : Type*) where
  instr : BitVec 32
  pc : PcData
  cinst : BitVec 16
  brp : β
  deriving DecidableEq, Repr

/-- One slot of the ring: the instruction word is kept in `ib_i0_slot` and in `ib_i1_slot`. -/
structure IbRow (β : Type*) where
  i0 : BitVec 32
  i1 : BitVec 32
  pc : PcData
  cinst : BitVec 16
  brp : β
  deriving DecidableEq, Repr

/-- The slot an instruction is written to. -/
def IbEntry.row {β : Type*} (e : IbEntry β) : IbRow β := ⟨e.instr, e.instr, e.pc, e.cinst, e.brp⟩

/-- The registers of the buffer, with the valid bits `f0val` and `f1val` of the aligner. -/
structure DecIb (d : IbDepth) (β : Type*) where
  f0val : BitVec 8 := 0
  f1val : BitVec 8 := 0
  flushFinal : Bool := false
  headInstr0Ptr : BitVec d.ptrWidth := 0
  headInstr1Ptr : BitVec d.ptrWidth := 1
  headPc0Ptr : BitVec d.ptrWidth := 0
  headPc1Ptr : BitVec d.ptrWidth := 1
  headBp0Ptr : BitVec d.ptrWidth := 0
  headBp1Ptr : BitVec d.ptrWidth := 1
  headCinst0Ptr : BitVec d.ptrWidth := 0
  headCinst1Ptr : BitVec d.ptrWidth := 1
  tailPtr : BitVec d.ptrWidth := 0
  ibCount : BitVec 3 := 0
  ibI0Slot : BitVec d.ptrWidth → BitVec 32 := fun _ => 0
  ibI1Slot : BitVec d.ptrWidth → BitVec 32 := fun _ => 0
  pcSlot : BitVec d.ptrWidth → PcData := fun _ => {}
  cinstSlot : BitVec d.ptrWidth → BitVec 16 := fun _ => 0
  bpSlot : BitVec d.ptrWidth → β

/-- What the buffer sees in a cycle.  `f0valIn` and `f1valIn` are what the aligner moves to its valid bits unless
there is a flush. -/
structure DecIbIn (β : Type*) where
  exuFlushFinal : Bool := false
  f0valIn : BitVec 8 := 0
  f1valIn : BitVec 8 := 0
  i0 : IbEntry β
  i1 : IbEntry β
  decI0DecodeD : Bool := false
  decI1DecodeD : Bool := false
  dbgCmdValid : Bool := false
  dbgCmdWrite : Bool := false
  dbgCmdType : BitVec 2 := 0
  dbgCmdAddr : BitVec 32 := 0

namespace DecIb

variable {d : IbDepth} {β : Type*} (s : DecIb d β) (i : DecIbIn β)

/-! ## The aligner -/

/-- `alignval`: which of the next four parcels are there. -/
def alignval : BitVec 4 :=
  (if s.f0val.getLsbD 3 then 0b1111 else 0) |||
  (if s.f0val.getLsbD 2 && !s.f0val.getLsbD 3 then s.f1val.extractLsb' 0 1 ++ 0b111#3 else 0) |||
  (if s.f0val.getLsbD 1 && !s.f0val.getLsbD 2 then s.f1val.extractLsb' 0 2 ++ 0b11#2 else 0) |||
  (if s.f0val.getLsbD 0 && !s.f0val.getLsbD 1 then s.f1val.extractLsb' 0 3 ++ 0b1#1 else 0)

/-- `ifu_i0_valid`: every instruction has two parcels. -/
def ifuI0Valid : Bool := s.alignval.getLsbD 1 && !i.exuFlushFinal

/-- `ifu_i1_valid`. -/
def ifuI1Valid : Bool := s.alignval.getLsbD 3 && !i.exuFlushFinal

/-! ## The valid bits for decode and the aligner -/

/-- `dec_ib0_valid_d`. -/
def decIb0ValidD : Bool := 1 ≤ s.ibCount.toNat

/-- `dec_ib1_valid_d`. -/
def decIb1ValidD : Bool := 2 ≤ s.ibCount.toNat

/-- `dec_ib2_valid_d`, only for four slots. -/
def decIb2ValidD : Bool := d = .four && 3 ≤ s.ibCount.toNat

/-- `dec_ib3_valid_d`, only for four slots. -/
def decIb3ValidD : Bool := d = .four && 4 ≤ s.ibCount.toNat

/-- `dec_ib0_valid_eff_d`. -/
def decIb0ValidEffD : Bool := s.decIb0ValidD && !i.decI0DecodeD

/-- `dec_ib1_valid_eff_d`. -/
def decIb1ValidEffD : Bool := s.decIb1ValidD && !i.decI1DecodeD

/-- `ibuffer_room1_more`. -/
def ibufferRoom1More : Bool :=
  match d with
  | .four => !s.decIb3ValidD
  | .two => !s.decIb0ValidEffD i || !s.decIb1ValidEffD i

/-- `ibuffer_room2_more`. -/
def ibufferRoom2More : Bool :=
  match d with
  | .four => !s.decIb2ValidD
  | .two => !s.decIb0ValidEffD i && !s.decIb1ValidEffD i

/-- `i0_shift`: the aligner retires its first instruction. -/
def i0Shift : Bool := s.ifuI0Valid i && s.ibufferRoom1More i

/-- `i1_shift`. -/
def i1Shift : Bool := s.ifuI1Valid i && s.ibufferRoom2More i

/-! ## Debug commands -/

/-- `debug_valid`. -/
def debugValid (i : DecIbIn β) : Bool := i.dbgCmdValid && i.dbgCmdType != 2

/-- `ib0_debug_in`: the instruction that reads or writes a register for the debugger. -/
def ib0DebugIn (i : DecIbIn β) : BitVec 32 :=
  let debugRead := debugValid i && !i.dbgCmdWrite
  let debugWrite := debugValid i && i.dbgCmdWrite
  let dreg := i.dbgCmdAddr.extractLsb' 0 5
  let dcsr := i.dbgCmdAddr.extractLsb' 0 12
  (if debugRead && i.dbgCmdType == 0 then 0#12 ++ dreg ++ 0b110000000110011#15 else 0) |||
  (if debugWrite && i.dbgCmdType == 0 then 0b00000000000000000110#20 ++ dreg ++ 0b0110011#7 else 0) |||
  (if debugRead && i.dbgCmdType == 1 then dcsr ++ 0b00000010000001110011#20 else 0) |||
  (if debugWrite && i.dbgCmdType == 1 then dcsr ++ 0b00000001000001110011#20 else 0)

/-- `debug_insert`. -/
def debugInsert : Bool := debugValid i && s.ibCount == 0

/-! ## The ring -/

/-- `ifu_i0_val`: the buffer accepts the first instruction of the aligner. -/
def ifuI0Val : Bool :=
  match d with
  | .four => s.ifuI0Valid i && s.ibCount.toNat < 4 && !s.flushFinal
  | .two => s.ifuI0Valid i && (!s.decIb0ValidEffD i || !s.decIb1ValidEffD i) && !s.flushFinal

/-- `ifu_i1_val`. -/
def ifuI1Val : Bool :=
  match d with
  | .four => s.ifuI1Valid i && s.ibCount.toNat < 3 && !s.flushFinal
  | .two => s.ifuI1Valid i && (!s.decIb0ValidEffD i && !s.decIb1ValidEffD i) && !s.flushFinal

/-- `push0`. -/
def push0 : Bool := s.ifuI0Val i || s.debugInsert i

/-- `push1`. -/
def push1 : Bool := s.ifuI1Val i

/-- `push_count`. -/
def pushCount : Nat := (s.push0 i).toNat + (s.push1 i).toNat

/-- `pop_count`. -/
def popCount (i : DecIbIn β) : Nat := i.decI0DecodeD.toNat + i.decI1DecodeD.toNat

/-- A head pointer moves on by the instructions decode takes, or back to where it starts at a flush. -/
def headNext (start ptr : BitVec d.ptrWidth) : BitVec d.ptrWidth :=
  if s.flushFinal then start else ptr + BitVec.ofNat d.ptrWidth (popCount i)

/-- A slot of one of the five arrays: `slot_we0` takes the value of the first instruction, `slot_we1` that of the
second. -/
def slotNext {α : Type*} (e0 e1 : α) (slot : BitVec d.ptrWidth → α) (n : BitVec d.ptrWidth) : α :=
  if s.push0 i && n == s.tailPtr then e0
  else if s.push1 i && n == s.tailPtr + 1 then e1
  else slot n

/-- One cycle. -/
def next (s : DecIb d β) (i : DecIbIn β) : DecIb d β where
  f0val := if i.exuFlushFinal then 0 else i.f0valIn
  f1val := if i.exuFlushFinal then 0 else i.f1valIn
  flushFinal := i.exuFlushFinal
  headInstr0Ptr := s.headNext i 0 s.headInstr0Ptr
  headInstr1Ptr := s.headNext i 1 s.headInstr1Ptr
  headPc0Ptr := s.headNext i 0 s.headPc0Ptr
  headPc1Ptr := s.headNext i 1 s.headPc1Ptr
  headBp0Ptr := s.headNext i 0 s.headBp0Ptr
  headBp1Ptr := s.headNext i 1 s.headBp1Ptr
  headCinst0Ptr := s.headNext i 0 s.headCinst0Ptr
  headCinst1Ptr := s.headNext i 1 s.headCinst1Ptr
  tailPtr := if s.flushFinal then 0 else s.tailPtr + BitVec.ofNat d.ptrWidth (s.pushCount i)
  ibCount := if s.flushFinal then 0 else
    s.ibCount + BitVec.ofNat 3 (s.pushCount i) - BitVec.ofNat 3 (popCount i)
  ibI0Slot := s.slotNext i (if s.debugInsert i then ib0DebugIn i else i.i0.instr) i.i1.instr s.ibI0Slot
  ibI1Slot := s.slotNext i (if s.debugInsert i then ib0DebugIn i else i.i0.instr) i.i1.instr s.ibI1Slot
  pcSlot := s.slotNext i i.i0.pc i.i1.pc s.pcSlot
  cinstSlot := s.slotNext i i.i0.cinst i.i1.cinst s.cinstSlot
  bpSlot := s.slotNext i i.i0.brp i.i1.brp s.bpSlot

/-- What decode sees as its first instruction: `dec_i0_instr_d`, the pc data, `dec_i0_cinst_d` and `dec_i0_brp`. -/
def decI0 : IbEntry β :=
  ⟨s.ibI0Slot s.headInstr0Ptr, s.pcSlot s.headPc0Ptr, s.cinstSlot s.headCinst0Ptr, s.bpSlot s.headBp0Ptr⟩

/-- What decode sees as its second instruction. -/
def decI1 : IbEntry β :=
  ⟨s.ibI1Slot s.headInstr1Ptr, s.pcSlot s.headPc1Ptr, s.cinstSlot s.headCinst1Ptr, s.bpSlot s.headBp1Ptr⟩

/-- The buffer from reset on; `b` is what the branch packet registers hold then. -/
def machine (d : IbDepth) (b : β) : Machine (DecIb d β) (DecIbIn β) := ⟨{ bpSlot := fun _ => b }, next⟩

/-! ## The queue it stands for -/

/-- What the aligner and decode do: a second instruction is presented and decoded only with a first one, decode takes
only what is there, and debug commands come when the aligner has nothing. -/
structure Driven (s : DecIb d β) (i : DecIbIn β) : Prop where
  presents : s.ifuI1Valid i = true → s.ifuI0Valid i = true
  decodes : i.decI1DecodeD = true → i.decI0DecodeD = true
  pop0 : i.decI0DecodeD = true → s.decIb0ValidD = true
  pop1 : i.decI1DecodeD = true → s.decIb1ValidD = true
  debug : debugValid i = true → s.ifuI0Valid i = false

/-- The instructions the aligner retires in this cycle. -/
def retired : List (IbEntry β) :=
  (if s.i0Shift i then [i.i0] else []) ++ (if s.i1Shift i then [i.i1] else [])

/-- The instruction of a debug command. -/
def inserted : List (IbEntry β) := if s.debugInsert i then [{ i.i0 with instr := ib0DebugIn i }] else []

/-- The queue of the instructions that came and were not decoded yet: a flush empties it, decode takes from the
front, and what the aligner retires goes to the back. -/
def fifoNext (q : List (IbEntry β)) : List (IbEntry β) :=
  if s.flushFinal then [] else q.drop (popCount i) ++ (s.inserted i ++ s.retired i)

/-- The queue over a run. -/
def fifo (m : Machine (DecIb d β) (DecIbIn β)) (w : Nat → DecIbIn β) : Nat → List (IbEntry β)
  | 0 => []
  | n + 1 => (m.run w n).fifoNext (w n) (fifo m w n)

/-- All arrays at one slot. -/
def row (n : BitVec d.ptrWidth) : IbRow β :=
  ⟨s.ibI0Slot n, s.ibI1Slot n, s.pcSlot n, s.cinstSlot n, s.bpSlot n⟩

/-- The head pointers agree: all of slot 0, and all of slot 1 one further. -/
structure Heads (s : DecIb d β) : Prop where
  pc0 : s.headPc0Ptr = s.headInstr0Ptr
  bp0 : s.headBp0Ptr = s.headInstr0Ptr
  cinst0 : s.headCinst0Ptr = s.headInstr0Ptr
  instr1 : s.headInstr1Ptr = s.headInstr0Ptr + 1
  pc1 : s.headPc1Ptr = s.headInstr0Ptr + 1
  bp1 : s.headBp1Ptr = s.headInstr0Ptr + 1
  cinst1 : s.headCinst1Ptr = s.headInstr0Ptr + 1

/-- The ring holds the queue, the counter counts it, and the aligner is empty when a flush arrives here. -/
structure Refines (s : DecIb d β) (q : List (IbEntry β)) : Prop where
  heads : Heads s
  spans : Ring.Spans s.row s.headInstr0Ptr s.tailPtr (q.map IbEntry.row)
  count : s.ibCount.toNat = q.length
  flushed : s.flushFinal = true → s.f0val = 0 ∧ s.f1val = 0

variable {s i} {q : List (IbEntry β)}

/-! ## One cycle -/

/-- The instruction written by `slot_we0`. -/
def first (s : DecIb d β) (i : DecIbIn β) : IbEntry β :=
  { i.i0 with instr := if s.debugInsert i then ib0DebugIn i else i.i0.instr }

/-- A slot takes the first instruction at the tail, the second one further, or stays. -/
theorem row_next (n : BitVec d.ptrWidth) :
    (s.next i).row n = if s.push0 i && n == s.tailPtr then (s.first i).row
      else if s.push1 i && n == s.tailPtr + 1 then i.i1.row else s.row n := by
  simp only [row, next, slotNext]
  split
  · rfl
  · split <;> rfl

/-- A head pointer that is one further stays one further. -/
theorem headNext_one {ptr0 ptr1 : BitVec d.ptrWidth} (h : ptr1 = ptr0 + 1) :
    s.headNext i 1 ptr1 = s.headNext i 0 ptr0 + 1 := by
  simp only [headNext, h]
  split
  · simp
  · rw [BitVec.add_assoc, BitVec.add_comm 1, BitVec.add_assoc]

/-- A cycle keeps the head pointers in agreement. -/
theorem Heads.next (h : Heads s) : Heads (s.next i) where
  pc0 := congrArg (s.headNext i 0) h.pc0
  bp0 := congrArg (s.headNext i 0) h.bp0
  cinst0 := congrArg (s.headNext i 0) h.cinst0
  instr1 := headNext_one h.instr1
  pc1 := headNext_one h.pc1
  bp1 := headNext_one h.bp1
  cinst1 := headNext_one h.cinst1

/-- With empty valid bits the aligner presents nothing. -/
theorem not_valid_of_flushed (h : s.f0val = 0 ∧ s.f1val = 0) :
    s.ifuI0Valid i = false ∧ s.ifuI1Valid i = false := by
  have hval : s.alignval = 0 := by
    rw [alignval, h.1, h.2]
    decide
  simp [ifuI0Valid, ifuI1Valid, hval]

theorem not_decide_le (k n : Nat) : (!decide (k ≤ n)) = decide (n < k) := by
  rw [← decide_not, decide_eq_decide]
  exact Nat.not_le

/-- The buffer accepts the first instruction exactly when the aligner retires it. -/
theorem ifuI0Val_eq (h : s.flushFinal = true → s.f0val = 0 ∧ s.f1val = 0) : s.ifuI0Val i = s.i0Shift i := by
  cases hf : s.flushFinal with
  | true => cases d <;> simp [ifuI0Val, i0Shift, not_valid_of_flushed (h hf)]
  | false => cases d <;> simp [ifuI0Val, i0Shift, ibufferRoom1More, decIb3ValidD, hf, not_decide_le]

@[inherit_doc ifuI0Val_eq]
theorem ifuI1Val_eq (h : s.flushFinal = true → s.f0val = 0 ∧ s.f1val = 0) : s.ifuI1Val i = s.i1Shift i := by
  cases hf : s.flushFinal with
  | true => cases d <;> simp [ifuI1Val, i1Shift, not_valid_of_flushed (h hf)]
  | false => cases d <;> simp [ifuI1Val, i1Shift, ibufferRoom2More, decIb2ValidD, hf, not_decide_le]

/-- A second push comes with a first one. -/
theorem push0_of_push1 (hd : Driven s i) (h : s.push1 i = true) : s.push0 i = true := by
  have hval : s.ifuI1Valid i = true → s.ifuI0Valid i = true := hd.presents
  cases d with
  | four =>
    simp only [push1, ifuI1Val, Bool.and_eq_true, decide_eq_true_eq] at h
    have hlt : s.ibCount.toNat < 4 := by omega
    simp [push0, ifuI0Val, hval h.1.1, hlt, h.2]
  | two =>
    simp only [push1, ifuI1Val, Bool.and_eq_true] at h
    simp only [push0, ifuI0Val, hval h.1.1, h.1.2.1, h.2, Bool.true_or, Bool.and_self]

/-- Decode takes no more than there is. -/
theorem popCount_le (hd : Driven s i) : popCount i ≤ s.ibCount.toNat := by
  have h0 := hd.pop0
  have h1 := hd.pop1
  have h10 := hd.decodes
  simp only [decIb0ValidD, decIb1ValidD, decide_eq_true_eq] at h0 h1
  unfold popCount
  cases hi0 : i.decI0DecodeD <;> cases hi1 : i.decI1DecodeD <;> simp_all

/-- There is room for what is pushed. -/
theorem room (hd : Driven s i) (hle : s.ibCount.toNat ≤ d.entries) :
    s.ibCount.toNat - popCount i + s.pushCount i ≤ d.entries := by
  have hpop := popCount_le hd
  have hpush : s.push1 i = true → s.push0 i = true := push0_of_push1 hd
  cases h0 : s.push0 i with
  | false =>
    have h1 : s.push1 i = false := by
      cases hp : s.push1 i
      · rfl
      · rw [hpush hp] at h0
        exact h0
    rw [pushCount, h0, h1]
    simp only [Bool.toNat_false]
    omega
  | true =>
    cases d with
    | four =>
      have hlt : s.ibCount.toNat < 4 := by
        simp only [push0, ifuI0Val, debugInsert, Bool.or_eq_true, Bool.and_eq_true, decide_eq_true_eq,
          beq_iff_eq] at h0
        rcases h0 with h0 | h0
        · exact h0.1.2
        · rw [h0.2]
          decide
      cases h1 : s.push1 i with
      | false =>
        rw [pushCount, h0, h1]
        simp only [IbDepth.entries, Bool.toNat_true, Bool.toNat_false]
        omega
      | true =>
        rw [pushCount, h0, h1]
        simp only [push1, ifuI1Val, Bool.and_eq_true, decide_eq_true_eq] at h1
        simp only [IbDepth.entries, Bool.toNat_true]
        omega
    | two =>
      have hdec := hd.decodes
      have hlt : s.ibCount.toNat - popCount i < 2 := by
        simp only [push0, ifuI0Val, debugInsert, decIb0ValidEffD, decIb1ValidEffD, decIb0ValidD, decIb1ValidD,
          Bool.or_eq_true, Bool.and_eq_true, Bool.not_eq_true', Bool.and_eq_false_iff, decide_eq_false_iff_not,
          Bool.not_eq_false', beq_iff_eq] at h0
        simp only [IbDepth.entries] at hle
        rcases h0 with ⟨⟨-, (h | h) | (h | h)⟩, -⟩ | ⟨-, h⟩
        · omega
        · simp only [popCount, h, Bool.toNat_true]
          omega
        · omega
        · simp only [popCount, h, hdec h, Bool.toNat_true]
          omega
        · rw [h]
          exact Nat.lt_of_le_of_lt (Nat.sub_le _ _) (by decide)
      cases h1 : s.push1 i with
      | false =>
        rw [pushCount, h0, h1]
        simp only [IbDepth.entries, Bool.toNat_true, Bool.toNat_false]
        omega
      | true =>
        rw [pushCount, h0, h1]
        simp only [push1, ifuI1Val, decIb0ValidEffD, decIb1ValidEffD, decIb0ValidD, decIb1ValidD, Bool.and_eq_true,
          Bool.not_eq_true', Bool.and_eq_false_iff, decide_eq_false_iff_not, Bool.not_eq_false'] at h1
        simp only [IbDepth.entries, Bool.toNat_true] at hle ⊢
        obtain ⟨⟨-, h | h, h' | h'⟩, -⟩ := h1
        · omega
        · omega
        · simp only [popCount, h, Bool.toNat_true]
          omega
        · simp only [popCount, h, h', Bool.toNat_true]
          omega

/-- What is written to the ring is what the aligner retires, or a debug command. -/
theorem pushed_eq (hd : Driven s i) (hf : s.flushFinal = true → s.f0val = 0 ∧ s.f1val = 0) :
    (if s.push0 i then [s.first i] else []) ++ (if s.push1 i then [i.i1] else []) =
      s.inserted i ++ s.retired i := by
  rw [push0, push1, ifuI0Val_eq hf, ifuI1Val_eq hf, inserted, retired, first]
  cases hdbg : s.debugInsert i with
  | false => simp
  | true =>
    have hvalid : debugValid i = true := by
      rw [debugInsert, Bool.and_eq_true] at hdbg
      exact hdbg.1
    have h0 : s.ifuI0Valid i = false := hd.debug hvalid
    have h1 : s.ifuI1Valid i = false := by
      cases h1 : s.ifuI1Valid i
      · rfl
      · rw [hd.presents h1] at h0
        exact h0
    simp [i0Shift, i1Shift, h0, h1]

/-- The slots after the pushes of a cycle, with the oldest elements already gone. -/
theorem spans_push {rd : BitVec d.ptrWidth} {l : List (IbRow β)} (h : Ring.Spans s.row rd s.tailPtr l)
    (hpush : s.push1 i = true → s.push0 i = true) (hroom : l.length + s.pushCount i ≤ d.entries) :
    Ring.Spans (s.next i).row rd (s.tailPtr + BitVec.ofNat d.ptrWidth (s.pushCount i))
      (l ++ ((if s.push0 i then [s.first i] else []) ++ (if s.push1 i then [i.i1] else [])).map IbEntry.row) := by
  rw [← d.two_pow_ptrWidth] at hroom
  have hrow := funext (row_next (s := s) (i := i))
  cases h0 : s.push0 i with
  | false =>
    have h1 : s.push1 i = false := by
      cases hp : s.push1 i
      · rfl
      · rw [hpush hp] at h0
        exact h0
    rw [hrow]
    simpa [pushCount, h0, h1] using h
  | true =>
    have hsnoc : Ring.Spans (fun n => if n = s.tailPtr then (s.first i).row else s.row n) rd (s.tailPtr + 1)
        (l ++ [(s.first i).row]) := by
      refine h.snoc ?_ _
      simp only [pushCount, h0, Bool.toNat_true] at hroom
      omega
    cases h1 : s.push1 i with
    | false =>
      rw [hrow]
      simpa [pushCount, h0, h1] using hsnoc
    | true =>
      have hsnoc' := hsnoc.snoc (by
        simp only [pushCount, h0, h1, Bool.toNat_true] at hroom
        rw [List.length_append, List.length_singleton]
        omega) i.i1.row
      have htwo : s.tailPtr + 1 + 1 = s.tailPtr + BitVec.ofNat d.ptrWidth 2 := by
        have hone : (1 : BitVec d.ptrWidth) = BitVec.ofNat d.ptrWidth 1 := rfl
        rw [BitVec.add_assoc, hone, ← BitVec.ofNat_add]
      -- the second write does not hit the slot of the first one
      have hne : s.tailPtr ≠ s.tailPtr + 1 := by
        intro heq
        have hone : (1 : BitVec d.ptrWidth) = 0 := by simpa using heq
        cases d <;> simp [IbDepth.ptrWidth] at hone
      have hfun : (s.next i).row = fun n => if n = s.tailPtr + 1 then i.i1.row
          else if n = s.tailPtr then (s.first i).row else s.row n := by
        rw [hrow]
        funext n
        simp only [h0, h1, Bool.true_and, beq_iff_eq]
        by_cases hn : n = s.tailPtr
        · subst hn
          rw [if_pos rfl, if_neg hne, if_pos rfl]
        · rw [if_neg hn, if_neg hn]
      rw [hfun]
      rw [htwo] at hsnoc'
      simpa [pushCount, h0, h1] using hsnoc'

/-- The counter counts what is pushed and taken. -/
theorem ibCount_next (hd : Driven s i) (hle : s.ibCount.toNat ≤ d.entries) (hf : s.flushFinal = false) :
    (s.next i).ibCount.toNat = s.ibCount.toNat - popCount i + s.pushCount i := by
  have hpop := popCount_le hd
  have hroom := room hd hle
  have hent := d.entries_le
  have hp : popCount i ≤ 2 := by
    unfold popCount
    have := Bool.toNat_le i.decI0DecodeD
    have := Bool.toNat_le i.decI1DecodeD
    omega
  simp only [next, hf, Bool.false_eq_true, if_false, BitVec.toNat_sub, BitVec.toNat_add, BitVec.toNat_ofNat]
  omega

/-- One cycle takes the ring to the next queue. -/
theorem Refines.next (h : Refines s q) (hd : Driven s i) : Refines (s.next i) (s.fifoNext i q) := by
  have hlen : (q.map IbEntry.row).length = q.length := List.length_map ..
  have hle : s.ibCount.toNat ≤ d.entries := by
    rw [h.count, ← hlen, ← d.two_pow_ptrWidth]
    exact h.spans.le
  have hflushed : (s.next i).flushFinal = true → (s.next i).f0val = 0 ∧ (s.next i).f1val = 0 := by
    intro hflush
    have hflush' : i.exuFlushFinal = true := hflush
    simp [DecIb.next, hflush']
  cases hf : s.flushFinal with
  | true =>
    refine ⟨h.heads.next, ?_, ?_, hflushed⟩
    · have h0 : (s.next i).headInstr0Ptr = 0 := by simp [DecIb.next, headNext, hf]
      have ht : (s.next i).tailPtr = 0 := by simp [DecIb.next, hf]
      rw [h0, ht, fifoNext, hf, if_pos rfl, List.map_nil]
      exact Ring.Spans.empty _ _
    · simp [DecIb.next, fifoNext, hf]
  | false =>
    have hpop : popCount i ≤ q.length := by
      rw [← h.count]
      exact popCount_le hd
    have hroom := room hd hle
    have hdrop := h.spans.drop (p := popCount i) (by rwa [hlen])
    have hspans := spans_push (i := i) hdrop (push0_of_push1 hd) (by
      rw [List.length_drop, hlen, ← h.count]
      exact hroom)
    rw [pushed_eq hd h.flushed, ← List.map_drop, ← List.map_append] at hspans
    have h0 : (s.next i).headInstr0Ptr = s.headInstr0Ptr + BitVec.ofNat d.ptrWidth (popCount i) := by
      simp [DecIb.next, headNext, hf]
    have ht : (s.next i).tailPtr = s.tailPtr + BitVec.ofNat d.ptrWidth (s.pushCount i) := by
      simp [DecIb.next, hf]
    have hq : s.fifoNext i q = q.drop (popCount i) ++ (s.inserted i ++ s.retired i) := by
      simp [fifoNext, hf]
    refine ⟨h.heads.next, ?_, ?_, hflushed⟩
    · rw [h0, ht, hq]
      exact hspans
    · have hcount : (s.inserted i ++ s.retired i).length = s.pushCount i := by
        rw [← pushed_eq hd h.flushed, pushCount]
        cases s.push0 i <;> cases s.push1 i <;> rfl
      rw [ibCount_next hd hle hf, hq, List.length_append, List.length_drop, hcount, h.count]

theorem refines_reset (b : β) : Refines (machine d b).reset [] :=
  have hone : (1 : BitVec d.ptrWidth) = 0 + 1 := (BitVec.zero_add 1).symm
  ⟨⟨rfl, rfl, rfl, hone, hone, hone, hone⟩, Ring.Spans.empty _ _, rfl, fun h => absurd h Bool.false_ne_true⟩

/-- In every run the ring holds the queue. -/
theorem refines_run {b : β} {w : Nat → DecIbIn β} (hw : (machine d b).Respects Driven w) (n : Nat) :
    Refines ((machine d b).run w n) (fifo (machine d b) w n) := by
  induction n with
  | zero => exact refines_reset b
  | succ n ih => exact ih.next (hw n)

/-! ## What decode sees -/

/-- The queue is no longer than the ring. -/
theorem Refines.length_le (h : Refines s q) : q.length ≤ d.entries := by
  have hle := h.spans.le
  rwa [List.length_map, d.two_pow_ptrWidth] at hle

/-- The first instruction decode sees is the oldest one. -/
theorem Refines.decI0_eq (h : Refines s q) (hq : 0 < q.length) : s.decI0 = q[0] := by
  have hrow := h.spans.head (by rwa [List.length_map])
  rw [List.getElem_map] at hrow
  simp only [row, IbEntry.row, IbRow.mk.injEq] at hrow
  obtain ⟨h0, -, hpc, hcinst, hbrp⟩ := hrow
  rw [decI0, h.heads.pc0, h.heads.cinst0, h.heads.bp0, h0, hpc, hcinst, hbrp]

/-- The second instruction decode sees is the one behind it. -/
theorem Refines.decI1_eq (h : Refines s q) (hq : 1 < q.length) : s.decI1 = q[1] := by
  have hrow := h.spans.get 1 (by rwa [List.length_map])
  rw [List.getElem_map] at hrow
  simp only [row, IbEntry.row, IbRow.mk.injEq] at hrow
  obtain ⟨-, h1, hpc, hcinst, hbrp⟩ := hrow
  rw [decI1, h.heads.instr1, h.heads.pc1, h.heads.cinst1, h.heads.bp1]
  exact congr (congr (congr (congrArg IbEntry.mk h1) hpc) hcinst) hbrp

/-- The instructions decode takes in a cycle, as it sees them. -/
def decoded (s : DecIb d β) (i : DecIbIn β) : List (IbEntry β) :=
  (if i.decI0DecodeD then [s.decI0] else []) ++ (if i.decI1DecodeD then [s.decI1] else [])

/-- Decode takes the front of the queue. -/
theorem Refines.decoded_eq (h : Refines s q) (hd : Driven s i) : s.decoded i = q.take (popCount i) := by
  have hpop := popCount_le hd
  rw [h.count] at hpop
  have horder := hd.decodes
  unfold decoded
  unfold popCount at hpop ⊢
  cases h0 : i.decI0DecodeD with
  | false =>
    have h1 : i.decI1DecodeD = false := by
      cases hi1 : i.decI1DecodeD
      · rfl
      · rw [horder hi1] at h0
        exact h0
    simp [h1]
  | true =>
    rw [h0] at hpop
    cases h1 : i.decI1DecodeD with
    | false =>
      rw [h1] at hpop
      simp only [Bool.toNat_true, Bool.toNat_false] at hpop
      have hq : 0 < q.length := by omega
      rw [h.decI0_eq hq]
      obtain ⟨e, l, rfl⟩ := List.exists_cons_of_length_pos hq
      rfl
    | true =>
      rw [h1] at hpop
      simp only [Bool.toNat_true] at hpop
      have hq : 1 < q.length := by omega
      rw [h.decI0_eq (by omega), h.decI1_eq hq]
      match q, hq with
      | _ :: _ :: _, _ => rfl

/-- What a run reports in the `n` cycles from cycle `k` on. -/
def during {α : Type*} (m : Machine (DecIb d β) (DecIbIn β)) (out : DecIb d β → DecIbIn β → List α)
    (w : Nat → DecIbIn β) (k n : Nat) : List α :=
  (List.range n).flatMap fun j => out (m.run w (k + j)) (w (k + j))

/-- What a run reports in one more cycle comes last. -/
theorem during_succ {α : Type*} (m : Machine (DecIb d β) (DecIbIn β)) (out : DecIb d β → DecIbIn β → List α)
    (w : Nat → DecIbIn β) (k n : Nat) :
    during m out w k (n + 1) = during m out w k n ++ out (m.run w (k + n)) (w (k + n)) := by
  simp [during, List.range_succ]

/-- Between two flushes nothing is lost or duplicated: what was there and what came is what decode took and what is
there still, in the same order. -/
theorem conservation {b : β} {w : Nat → DecIbIn β} (hw : (machine d b).Respects Driven w) {k n : Nat}
    (hf : ∀ j < n, ((machine d b).run w (k + j)).flushFinal = false) :
    fifo (machine d b) w k ++ during (machine d b) (fun s i => s.inserted i ++ s.retired i) w k n =
      during (machine d b) decoded w k n ++ fifo (machine d b) w (k + n) := by
  induction n with
  | zero => simp [during]
  | succ n ih =>
    have hn : ((machine d b).run w (k + n)).flushFinal = false := hf n (Nat.lt_succ_self n)
    have hnext : fifo (machine d b) w (k + (n + 1)) =
        (fifo (machine d b) w (k + n)).drop (popCount (w (k + n))) ++
          (((machine d b).run w (k + n)).inserted (w (k + n)) ++ ((machine d b).run w (k + n)).retired (w (k + n))) := by
      show fifoNext _ _ _ = _
      simp [fifoNext, hn]
    rw [during_succ, during_succ, ← List.append_assoc, ih fun j hj => hf j (Nat.lt_succ_of_lt hj), hnext,
      (refines_run hw (k + n)).decoded_eq (hw (k + n)), List.append_assoc, List.append_assoc]
    rw [← List.append_assoc (List.take _ _), List.take_append_drop]

end DecIb

end SocRV
