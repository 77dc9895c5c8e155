import Mathlib.Algebra.GroupWithZero.Nat
import Mathlib.Order.Fin.Basic
import SocRV.Lib.Rv32

/-!
# The context switch of the RT-Thread port

`interrupt_gcc.S` and `context_gcc.S` as programs, built for `rv32imf`: `REGBYTES` and `FREGBYTES` are both four.
`SW_handler` saves the interrupted thread, calls the C handler on the interrupt stack, exchanges the thread when
the handler asked for it, and restores.  `rt_hw_context_switch` saves the calling thread and falls into
`rt_hw_context_switch_exit`.  All of them share one frame of 65 words below the stack pointer of the thread.
-/

namespace SocRV

namespace Rtos

open Instr ByteMemory

/-! ## The programs -/

/-- `REGBYTES`. -/
def regBytes : Nat := 4

/-- `FREGBYTES`, for `__riscv_flen == 32`. -/
def fregBytes : Nat := 4

/-- There is a register. -/
local instance registers_neZero : NeZero 32 := ⟨by decide⟩

/-- The ABI names of the integer registers the programs use. -/
def zero : Fin 32 := 0

@[inherit_doc zero] def ra : Fin 32 := 1
@[inherit_doc zero] def sp : Fin 32 := 2
@[inherit_doc zero] def tp : Fin 32 := 4
@[inherit_doc zero] def t0 : Fin 32 := 5
@[inherit_doc zero] def t1 : Fin 32 := 6
@[inherit_doc zero] def t2 : Fin 32 := 7
@[inherit_doc zero] def a0 : Fin 32 := 10
@[inherit_doc zero] def a1 : Fin 32 := 11

/-- The addresses of `rt_thread_switch_interrupt_flag`, `rt_interrupt_from_thread` and
`rt_interrupt_to_thread`. -/
structure SwitchVars where
  flag : BitVec 32
  fromThread : BitVec 32
  toThread : BitVec 32
  deriving DecidableEq, Repr

/-- The C functions `SW_handler` calls, by their effect on the hart. -/
structure Callees where
  rtInterruptEnter : Hart → Hart
  rtHwDoAfterSaveAbove : Hart → Hart
  rtInterruptLeave : Hart → Hart

/-- A byte offset or stack adjustment as a word. -/
def bytes (n : Nat) : BitVec 32 := BitVec.ofNat 32 n

/-- `x6` to `x31`. -/
def regs6 : List (Fin 32) := (List.finRange 32).drop 6

/-- `x4` to `x31`. -/
def regs4 : List (Fin 32) := (List.finRange 32).drop 4

/-- `STORE xi, i * REGBYTES(sp)` for each register. -/
def storeRegs (rs : List (Fin 32)) : List Instr := rs.map fun r => sw r (bytes (r.val * regBytes)) sp

/-- `LOAD xi, i * REGBYTES(sp)` for each register. -/
def loadRegs (rs : List (Fin 32)) : List Instr := rs.map fun r => lw r (bytes (r.val * regBytes)) sp

/-- `FSTORE fi, i * FREGBYTES(sp)` for each register. -/
def storeFregs (rs : List (Fin 32)) : List Instr := rs.map fun r => fsw r (bytes (r.val * fregBytes)) sp

/-- `FLOAD fi, i * FREGBYTES(sp)` for each register. -/
def loadFregs (rs : List (Fin 32)) : List Instr := rs.map fun r => flw r (bytes (r.val * fregBytes)) sp

/-- The floating-point part of the save, the same in every save sequence.  `t0` is parked above the new block
while `fcsr` goes through it. -/
def saveFpu : List Instr :=
  [addi sp sp (-bytes (33 * fregBytes)),
    sw t0 (bytes (32 * fregBytes + regBytes)) sp,
    csrr t0 .fcsr,
    sw t0 (bytes (32 * fregBytes)) sp,
    lw t0 (bytes (32 * fregBytes + regBytes)) sp] ++
  storeFregs (List.finRange 32)

/-- `SW_handler` up to the switch to the interrupt stack. -/
def swSave : List Instr :=
  csrci .mstatus 0x8 :: saveFpu ++
  [addi sp sp (-bytes (32 * regBytes)),
    sw t0 (bytes (5 * regBytes)) sp,
    sw ra (bytes (1 * regBytes)) sp,
    li t0 0x80,
    sw t0 (bytes (2 * regBytes)) sp,
    sw tp (bytes (4 * regBytes)) sp] ++
  storeRegs regs6

/-- The C handler on the interrupt stack. -/
def swCall (c : Callees) : List Instr :=
  [csrrw sp .mscratch sp,
    call c.rtInterruptEnter,
    call c.rtHwDoAfterSaveAbove,
    call c.rtInterruptLeave,
    csrrw sp .mscratch sp]

/-- The test of `rt_thread_switch_interrupt_flag`. -/
def swTest (v : SwitchVars) : List Instr := [la t0 v.flag, lw t2 (bytes 0) t0]

/-- The exchange of the thread, skipped when the flag is zero. -/
def swSwitch (v : SwitchVars) : List Instr :=
  [sw zero (bytes 0) t0,
    csrr a0 .mepc,
    sw a0 (bytes (0 * regBytes)) sp,
    la t0 v.fromThread,
    lw t1 (bytes 0) t0,
    sw sp (bytes 0) t1,
    la t0 v.toThread,
    lw t1 (bytes 0) t0,
    lw sp (bytes 0) t1,
    lw a0 (bytes (0 * regBytes)) sp,
    csrw .mepc a0]

/-- The end of both restore sequences: the registers from `x4` on, the floating-point registers and `mret`. -/
def restoreRegs : List Instr :=
  loadRegs regs4 ++ [addi sp sp (bytes (32 * regBytes))] ++
  loadFregs (List.finRange 32) ++ [addi sp sp (bytes (33 * fregBytes)), mret]

/-- `SW_handler` from label `1` on. -/
def swRestore : List Instr :=
  [lw ra (bytes (1 * regBytes)) sp,
    li t0 0x1800,
    csrs .mstatus t0,
    lw t0 (bytes (2 * regBytes)) sp,
    csrs .mstatus t0,
    lw t0 (bytes (32 * regBytes + 32 * fregBytes)) sp,
    csrw .fcsr t0] ++ restoreRegs

/-- `SW_handler`. -/
def swHandler (v : SwitchVars) (c : Callees) : List Instr :=
  (swSave ++ swCall c ++ swTest v) ++ beqz t2 (swSwitch v).length :: (swSwitch v ++ swRestore)

/-- `rt_hw_context_switch` up to the test of the interrupt enable. -/
def switchSave : List Instr :=
  saveFpu ++
  [addi sp sp (-bytes (32 * regBytes)),
    sw sp (bytes 0) a0,
    sw ra (bytes (0 * regBytes)) sp,
    sw ra (bytes (1 * regBytes)) sp,
    csrr a0 .mstatus,
    andi a0 a0 8]

/-- `rt_hw_context_switch` from label `save_mpie` to the load of the new stack pointer. -/
def switchStore : List Instr := sw a0 (bytes (2 * regBytes)) sp :: storeRegs regs4

/-- `rt_hw_context_switch_exit`. -/
def rtHwContextSwitchExit : List Instr :=
  [lw a0 (bytes (0 * regBytes)) sp,
    csrw .mepc a0,
    lw ra (bytes (1 * regBytes)) sp,
    li t0 0x7800,
    csrw .mstatus t0,
    lw a0 (bytes (2 * regBytes)) sp,
    csrs .mstatus a0,
    lw t0 (bytes (32 * regBytes + 32 * fregBytes)) sp,
    csrw .fcsr t0] ++ restoreRegs

/-- The save code of `rt_hw_context_switch`. -/
def switchPush : List Instr := switchSave ++ beqz a0 1 :: ([li a0 0x80] ++ switchStore)

/-- `rt_hw_context_switch`, which jumps to `rt_hw_context_switch_exit`. -/
def rtHwContextSwitch : List Instr := switchPush ++ ([lw sp (bytes 0) a1] ++ rtHwContextSwitchExit)

/-! ## What the pieces do -/

/-- A run of register stores writes one block of words at `sp`. -/
theorem steps_storeRegs (rs : List (Fin 32)) (h : Hart) :
    steps (storeRegs rs) h = { h with mem := h.mem.storeSlots (h.get sp) (rs.map fun r => (r.val, h.get r)) } := by
  induction rs generalizing h with
  | nil => rfl
  | cons r rs ih =>
    rw [storeRegs, List.map_cons, steps_cons]
    refine (ih _).trans ?_
    simp only [step, Hart.get, storeSlots, List.map_cons, List.foldl_cons, slot, bytes, regBytes, Nat.mul_comm]

@[inherit_doc steps_storeRegs]
theorem steps_storeFregs (rs : List (Fin 32)) (h : Hart) :
    steps (storeFregs rs) h = { h with mem := h.mem.storeSlots (h.get sp) (rs.map fun r => (r.val, h.f r)) } := by
  induction rs generalizing h with
  | nil => rfl
  | cons r rs ih =>
    rw [storeFregs, List.map_cons, steps_cons]
    refine (ih _).trans ?_
    simp only [step, Hart.get, storeSlots, List.map_cons, List.foldl_cons, slot, bytes, fregBytes, Nat.mul_comm]

/-- A run of register loads reads one block of words at `sp`. -/
theorem steps_loadRegs {rs : List (Fin 32)} (hsp : sp ∉ rs) (h : Hart) :
    steps (loadRegs rs) h =
      { h with x := fun q => if q ∈ rs then h.mem.loadWord (slot (h.get sp) q.val) else h.x q } := by
  induction rs generalizing h with
  | nil => simp [loadRegs]
  | cons r rs ih =>
    rw [List.mem_cons, not_or] at hsp
    rw [loadRegs, List.map_cons, steps_cons]
    refine (ih hsp.2 _).trans ?_
    have hget : (step h (lw r (bytes (r.val * regBytes)) sp)).get sp = h.get sp := by
      simp [step, Hart.get, Hart.set, hsp.1]
    have hmem : (step h (lw r (bytes (r.val * regBytes)) sp)).mem = h.mem := rfl
    rw [hget, hmem]
    simp only [step, Hart.set]
    congr 1
    funext q
    by_cases hq : q = r
    · subst hq
      simp [slot, bytes, regBytes, Nat.mul_comm]
    · simp [hq]

@[inherit_doc steps_loadRegs]
theorem steps_loadFregs (rs : List (Fin 32)) (h : Hart) :
    steps (loadFregs rs) h =
      { h with f := fun q => if q ∈ rs then h.mem.loadWord (slot (h.get sp) q.val) else h.f q } := by
  induction rs generalizing h with
  | nil => simp [loadFregs]
  | cons r rs ih =>
    rw [loadFregs, List.map_cons, steps_cons]
    refine (ih _).trans ?_
    have hget : (step h (flw r (bytes (r.val * fregBytes)) sp)).get sp = h.get sp := rfl
    have hmem : (step h (flw r (bytes (r.val * fregBytes)) sp)).mem = h.mem := rfl
    rw [hget, hmem]
    simp only [step, Hart.setF]
    congr 1
    funext q
    by_cases hq : q = r
    · subst hq
      simp [slot, bytes, fregBytes, Nat.mul_comm]
    · simp [hq]

/-- The frame of a thread starts 65 words below its stack pointer. -/
def frameBase (a : BitVec 32) : BitVec 32 := a - bytes 260

theorem slot_frameBase (a : BitVec 32) : slot (frameBase a) 65 = a := BitVec.sub_add_cancel a (bytes 260)

theorem add_bytes_zero (a : BitVec 32) : a + bytes 0 = a := BitVec.add_zero a

/-- The floating-point part of a frame starts at its slot 32. -/
theorem sub_fpu (a : BitVec 32) : a + -bytes (33 * fregBytes) = slot (frameBase a) 32 := by
  simp only [slot, frameBase, bytes, fregBytes]
  bv_omega

/-- Below it come 32 words for the integer registers. -/
theorem sub_regs (b : BitVec 32) : slot b 32 + -bytes (32 * regBytes) = b := by
  simp only [slot, bytes, regBytes]
  bv_omega

/-- Register `k` of the integer part is slot `k`. -/
theorem add_regs (b : BitVec 32) (k : Nat) : b + bytes (k * regBytes) = slot b k := by
  rw [slot, bytes, regBytes, Nat.mul_comm]

/-- Register `k` behind slot `j` is slot `j + k`. -/
theorem add_fregs (b : BitVec 32) (j k : Nat) : slot b j + bytes (k * fregBytes) = slot b (j + k) := by
  rw [← slot_slot]
  exact add_regs (slot b j) k

/-- The slots written by the floating-point part: `fcsr`, the registers, and `t0` parked above the frame. -/
def fpuSlots (h : Hart) : List (Nat × BitVec 32) :=
  [(65, h.x t0), (64, h.csr .fcsr)] ++ (List.finRange 32).map fun i => (32 + i.val, h.f i)

/-- The slots `SW_handler` writes. -/
def swSlots (h : Hart) : List (Nat × BitVec 32) :=
  fpuSlots h ++ [(5, h.x t0), (1, h.x ra), (2, 0x80), (4, h.x tp)] ++ regs6.map fun r => (r.val, h.x r)

/-- The saved interrupt enable of `rt_hw_context_switch`. -/
def savedMie (h : Hart) : BitVec 32 := if h.csr .mstatus &&& 8 = 0 then 0 else 0x80

/-- The slots `rt_hw_context_switch` writes; `a0` holds the saved interrupt enable by then. -/
def switchSlots (h : Hart) : List (Nat × BitVec 32) :=
  [(0, h.x ra), (1, h.x ra), (2, savedMie h)] ++
    regs4.map fun r => (r.val, if r = a0 then savedMie h else h.x r)

/-- `t0` comes back from the slot it was parked in, which `fcsr` does not overwrite. -/
theorem steps_saveFcsr (h : Hart) :
    steps (saveFpu.take 5) h = { h with
      x := fun q => if q = sp then slot (frameBase (h.x sp)) 32 else h.x q
      mem := h.mem.storeSlots (frameBase (h.x sp)) [(65, h.x t0), (64, h.csr .fcsr)] } := by
  have hbase := sub_fpu (h.x sp)
  have h65 : slot (frameBase (h.x sp)) 32 + bytes (32 * fregBytes + regBytes) = slot (frameBase (h.x sp)) 65 :=
    add_fregs _ 32 33
  have h64 : slot (frameBase (h.x sp)) 32 + bytes (32 * fregBytes) = slot (frameBase (h.x sp)) 64 :=
    add_fregs _ 32 32
  have hdis : Disjoint (word (slot (frameBase (h.x sp)) 65)) (word (slot (frameBase (h.x sp)) 64)) :=
    disjoint_slots (by omega) (by omega) (by omega)
  have hload := loadWord_storeWord_of_disjoint (m := h.mem.storeWord (slot (frameBase (h.x sp)) 65) (h.x t0))
    (w := h.csr .fcsr) hdis
  rw [loadWord_storeWord] at hload
  have hx : ∀ (q : Fin 32) (u v : BitVec 32),
      (if q = t0 then h.x t0 else if q = t0 then u else if q = sp then v else h.x q) =
        if q = sp then v else h.x q := by
    intro q u v
    by_cases hq : q = t0
    · subst hq
      rfl
    · rw [if_neg hq, if_neg hq]
  simp only [saveFpu, List.take, List.cons_append, steps_cons, steps_nil, step, Hart.get, Hart.set,
    show sp ≠ 0 by decide, show t0 ≠ 0 by decide, show sp ≠ t0 by decide, show t0 ≠ sp by decide, if_true,
    if_false, hbase, h65, h64, hload, hx, storeSlots, List.foldl_cons, List.foldl_nil]

/-- The floating-point part fills its slots, lowers the stack pointer and keeps all other registers. -/
theorem steps_saveFpu (h : Hart) :
    steps saveFpu h = { h with
      x := fun q => if q = sp then slot (frameBase (h.x sp)) 32 else h.x q
      mem := h.mem.storeSlots (frameBase (h.x sp)) (fpuSlots h) } := by
  have hsplit : saveFpu = saveFpu.take 5 ++ storeFregs (List.finRange 32) := rfl
  rw [hsplit, steps_append, steps_saveFcsr, steps_storeFregs]
  have hget : ∀ m : ByteMemory, Hart.get { h with
      x := fun q => if q = sp then slot (frameBase (h.x sp)) 32 else h.x q, mem := m } sp =
        slot (frameBase (h.x sp)) 32 := fun _ => rfl
  rw [hget, storeSlots_slot, fpuSlots, storeSlots_append, List.map_map]
  rfl

/-- The registers from `x6` on are not zero, `sp` or `t0`. -/
theorem ne_of_mem_regs6 : ∀ r ∈ regs6, r ≠ 0 ∧ r ≠ sp ∧ r ≠ t0 := by decide

theorem ne_of_mem_regs4 : ∀ r ∈ regs4, r ≠ 0 ∧ r ≠ sp := by decide

/-- The save of `SW_handler` writes its slots below the interrupted stack pointer, and `t0` at it. -/
theorem steps_swSave (h : Hart) :
    steps swSave h = { h with
      x := fun q => if q = t0 then 0x80 else if q = sp then frameBase (h.x sp) else h.x q
      csr := fun d => if d = .mstatus then h.csr .mstatus &&& ~~~0x8 else h.csr d
      mem := h.mem.storeSlots (frameBase (h.x sp)) (swSlots h) } := by
  rw [swSave, List.cons_append, List.cons_append, steps_cons, steps_append, steps_append, steps_saveFpu,
    steps_storeRegs]
  simp only [steps_cons, steps_nil, step, Hart.get, Hart.set, Hart.setCsr, show sp ≠ 0 by decide,
    show t0 ≠ 0 by decide, show sp ≠ t0 by decide, show t0 ≠ sp by decide, show ra ≠ 0 by decide,
    show ra ≠ sp by decide, show tp ≠ 0 by decide, show tp ≠ t0 by decide,
    show tp ≠ sp by decide, if_true, if_false, sub_regs, add_regs]
  refine Hart.ext rfl (funext fun q => ?_) rfl rfl ?_
  · dsimp only
    by_cases hq : q = t0
    · rw [if_pos hq, if_pos hq]
    · rw [if_neg hq, if_neg hq]
      by_cases hq' : q = sp
      · rw [if_pos hq', if_pos hq']
      · rw [if_neg hq', if_neg hq', if_neg hq']
  · dsimp only
    rw [swSlots, storeSlots_append, storeSlots_append]
    refine congrArg (storeSlots _ _) (List.map_congr_left fun r hr => ?_)
    obtain ⟨hr0, hrsp, hrt0⟩ := ne_of_mem_regs6 r hr
    simp only [hr0, hrsp, hrt0, if_false]

/-- `rt_hw_context_switch` up to the load of the new stack pointer. -/
def switched (h : Hart) : Hart := { h with
  x := fun q => if q = a0 then savedMie h else if q = sp then frameBase (h.x sp) else h.x q
  mem := ((h.mem.storeSlots (frameBase (h.x sp)) (fpuSlots h)).storeWord (h.x a0) (frameBase (h.x sp))).storeSlots
    (frameBase (h.x sp)) (switchSlots h) }

/-- The first part of `rt_hw_context_switch` leaves the interrupt enable in `a0` and the frame at `sp`. -/
theorem steps_switchSave (h : Hart) :
    steps switchSave h = { h with
      x := fun q => if q = a0 then h.csr .mstatus &&& 8 else if q = sp then frameBase (h.x sp) else h.x q
      mem := ((h.mem.storeSlots (frameBase (h.x sp)) (fpuSlots h)).storeWord (h.x a0) (frameBase (h.x sp))).storeSlots
        (frameBase (h.x sp)) [(0, h.x ra), (1, h.x ra)] } := by
  rw [switchSave, steps_append, steps_saveFpu]
  simp only [steps_cons, steps_nil, step, Hart.get, Hart.set, show sp ≠ 0 by decide, show a0 ≠ 0 by decide,
    show a0 ≠ sp by decide, show ra ≠ 0 by decide, show ra ≠ sp by decide, if_true, if_false, sub_regs, add_regs,
    add_bytes_zero]
  refine Hart.ext rfl (funext fun q => ?_) rfl rfl rfl
  dsimp only
  by_cases hq : q = a0
  · rw [if_pos hq, if_pos hq]
  · rw [if_neg hq, if_neg hq, if_neg hq]
    by_cases hq' : q = sp
    · rw [if_pos hq', if_pos hq']
    · rw [if_neg hq', if_neg hq', if_neg hq']

/-- The second part fills the integer slots, with the recorded interrupt enable. -/
theorem steps_switchStore {h : Hart} (u : BitVec 32) (m : ByteMemory) :
    steps switchStore { h with
      x := fun q => if q = a0 then u else if q = sp then frameBase (h.x sp) else h.x q
      mem := m } = { h with
      x := fun q => if q = a0 then u else if q = sp then frameBase (h.x sp) else h.x q
      mem := m.storeSlots (frameBase (h.x sp)) ((2, u) :: regs4.map fun r => (r.val, if r = a0 then u else h.x r)) } := by
  rw [switchStore, steps_cons, steps_storeRegs]
  simp only [step, Hart.get, show sp ≠ 0 by decide, show a0 ≠ 0 by decide, show sp ≠ a0 by decide, if_true, if_false,
    add_regs]
  refine Hart.ext rfl rfl rfl rfl ?_
  dsimp only
  rw [storeSlots, storeSlots, List.foldl_cons]
  refine congrArg (List.foldl _ _) (List.map_congr_left fun r hr => ?_)
  obtain ⟨hr0, hrsp⟩ := ne_of_mem_regs4 r hr
  simp only [hr0, hrsp, if_false]

/-- The save code of `rt_hw_context_switch`, with more code behind it. -/
theorem run_switchPush_append {is : List Instr} (his : ∀ i ∈ is, i.isStraight = true) (h : Hart) :
    run 0 (switchPush ++ is) h = steps is (switched h) := by
  have hstore : ∀ i ∈ switchStore, i.isStraight = true := by decide
  have hsave : ∀ i ∈ switchSave, i.isStraight = true := by decide
  have hli : ∀ i ∈ [li a0 0x80], i.isStraight = true := by decide
  have hrest : ∀ i ∈ switchStore ++ is, i.isStraight = true := List.forall_mem_append.mpr ⟨hstore, his⟩
  have hend : ∀ g : Hart, run 0 (switchStore ++ is) g = steps (switchStore ++ is) g := fun g => by
    have := run_append_of_straight hrest [] g
    rwa [List.append_nil] at this
  rw [switchPush, List.append_assoc, run_append_of_straight hsave, steps_switchSave]
  refine (run_beqz hli a0 (switchStore ++ is) _).trans ?_
  rw [hend, steps_append]
  refine congrArg (steps _) ?_
  have hpush := steps_switchStore (h := h) (savedMie h)
    (((h.mem.storeSlots (frameBase (h.x sp)) (fpuSlots h)).storeWord (h.x a0) (frameBase (h.x sp))).storeSlots
      (frameBase (h.x sp)) [(0, h.x ra), (1, h.x ra)])
  rw [← storeSlots_append] at hpush
  refine Eq.trans (congrArg (steps switchStore) ?_) hpush
  simp only [Hart.get, show a0 ≠ 0 by decide, if_true, if_false]
  by_cases hz : h.csr .mstatus &&& 8 = 0
  · simp only [savedMie, hz, if_true]
  · simp only [savedMie, if_neg hz, steps_cons, steps_nil, step, Hart.set]
    refine Hart.ext rfl (funext fun q => ?_) rfl rfl rfl
    dsimp only
    by_cases hq : q = a0
    · rw [if_pos hq, if_pos hq]
    · rw [if_neg hq, if_neg hq, if_neg hq]

/-- The save code of `rt_hw_context_switch`, over its branch, does what `switched` says. -/
theorem run_switchPush (h : Hart) : run 0 switchPush h = switched h := by
  have hnil : ∀ i ∈ ([] : List Instr), i.isStraight = true := fun _ hi => nomatch hi
  have hpush := run_switchPush_append hnil h
  rwa [List.append_nil, steps_nil] at hpush

/-- `rt_hw_context_switch` saves the calling thread, then loads the stack pointer of the other one and runs the
exit sequence. -/
theorem run_rtHwContextSwitch (h : Hart) :
    run 0 rtHwContextSwitch h = steps ([lw sp (bytes 0) a1] ++ rtHwContextSwitchExit) (switched h) :=
  run_switchPush_append (by decide) h

/-! ## The saved context -/

/-- The context of a suspended thread: where it goes on, its stack pointer and control register, and the
registers it gets back. -/
structure Ctx where
  pc : BitVec 32
  sp : BitVec 32
  fcsr : BitVec 32
  x : Fin 32 → BitVec 32
  f : Fin 32 → BitVec 32
  regs : List (Fin 32)

/-- The context of a thread that an interrupt suspends: it gets back `x1` and `x4` to `x31`. -/
def Ctx.ofInterrupt (h : Hart) : Ctx := ⟨h.pc, h.x Rtos.sp, h.csr .fcsr, h.x, h.f, ra :: regs4⟩

/-- The context of a thread that calls `rt_hw_context_switch`: it goes on at its return address, and of the
registers above only the argument register `a0` is not kept. -/
def Ctx.ofCall (h : Hart) : Ctx := ⟨h.x ra, h.x Rtos.sp, h.csr .fcsr, h.x, h.f, ra :: regs4.erase a0⟩

/-- The registers of a context are saved in memory below its stack pointer. -/
structure SavedAt (m : ByteMemory) (c : Ctx) : Prop where
  fcsr : m.loadWord (slot (frameBase c.sp) 64) = c.fcsr
  x : ∀ r ∈ c.regs, m.loadWord (slot (frameBase c.sp) r.val) = c.x r
  f : ∀ i : Fin 32, m.loadWord (slot (frameBase c.sp) (32 + i.val)) = c.f i

/-- The whole frame of a context, with its program counter in the first word. -/
structure FrameAt (m : ByteMemory) (c : Ctx) : Prop extends SavedAt m c where
  pc : m.loadWord (slot (frameBase c.sp) 0) = c.pc

/-- The hart runs the thread of a context from where it was suspended. -/
structure Resumes (h : Hart) (c : Ctx) : Prop where
  pc : h.pc = c.pc
  sp : h.x Rtos.sp = c.sp
  fcsr : h.csr .fcsr = c.fcsr
  x : ∀ r ∈ c.regs, h.x r = c.x r
  f : h.f = c.f

/-- The restore code loads the registers from the frame, raises the stack pointer and returns. -/
theorem steps_restoreRegs (h : Hart) :
    let h' := steps restoreRegs h
    h'.pc = h.csr .mepc ∧ h'.x sp = slot (h.x sp) 65 ∧ h'.csr .fcsr = h.csr .fcsr ∧ h'.x ra = h.x ra ∧
    (∀ r ∈ regs4, h'.x r = h.mem.loadWord (slot (h.x sp) r.val)) ∧
    (∀ i : Fin 32, h'.f i = h.mem.loadWord (slot (h.x sp) (32 + i.val))) ∧ h'.mem = h.mem := by
  have hsp : sp ∉ regs4 := by decide
  have hra : ra ∉ regs4 := by decide
  rw [restoreRegs, steps_append, steps_append, steps_append, steps_loadRegs hsp, steps_loadFregs]
  simp only [steps_cons, steps_nil, step, Hart.get, Hart.set, Hart.mret, Hart.setCsr, show sp ≠ 0 by decide,
    show ra ≠ sp by decide, if_true, if_false, hsp, hra, List.mem_finRange, add_regs, reduceCtorEq]
  refine ⟨trivial, ?_, trivial, trivial, fun r hr => ?_, fun i => ?_, trivial⟩
  · exact add_fregs _ 32 33
  · have hne : r ≠ sp := by
      rintro rfl
      exact hsp hr
    rw [if_neg hne, if_neg hne, if_pos hr]
  · rw [slot_slot]

/-- With the frame at `sp` and its first words already in their registers, the end of the restore resumes the
thread. -/
theorem restoreRegs_resumes {h : Hart} {c : Ctx} (hf : SavedAt h.mem c) (hregs : c.regs ⊆ ra :: regs4)
    (hsp : h.x sp = frameBase c.sp) (hpc : h.csr .mepc = c.pc) (hfcsr : h.csr .fcsr = c.fcsr)
    (hra : h.x ra = h.mem.loadWord (slot (frameBase c.sp) 1)) : Resumes (steps restoreRegs h) c := by
  obtain ⟨hpc', hsp', hfcsr', hra', hx', hf', -⟩ := steps_restoreRegs h
  refine ⟨hpc'.trans hpc, ?_, hfcsr'.trans hfcsr, fun r hr => ?_, funext fun i => ?_⟩
  · rw [hsp', hsp, slot_frameBase]
  · rcases List.mem_cons.mp (hregs hr) with rfl | hr4
    · exact (hra'.trans hra).trans (hf.x ra hr)
    · rw [hx' r hr4, hsp]
      exact hf.x r hr
  · rw [hf' i, hsp]
    exact hf.f i

/-- The restore of `SW_handler` resumes the thread whose frame is at `sp` and whose program counter is in
`mepc`. -/
theorem swRestore_resumes {h : Hart} {c : Ctx} (hf : SavedAt h.mem c) (hregs : c.regs ⊆ ra :: regs4)
    (hsp : h.x sp = frameBase c.sp) (hpc : h.csr .mepc = c.pc) :
    Resumes (steps swRestore h) c ∧ (steps swRestore h).mem = h.mem := by
  have h64 : frameBase c.sp + bytes (32 * regBytes + 32 * fregBytes) = slot (frameBase c.sp) 64 := add_regs _ 64
  rw [swRestore, steps_append]
  refine ⟨restoreRegs_resumes ?_ hregs ?_ ?_ ?_ ?_, (steps_restoreRegs _).2.2.2.2.2.2.trans ?_⟩
  all_goals
    simp only [steps_cons, steps_nil, step, Hart.get, Hart.set, Hart.setCsr, show sp ≠ 0 by decide,
      show t0 ≠ 0 by decide, show sp ≠ t0 by decide, show sp ≠ ra by decide, show ra ≠ t0 by decide, if_true,
      if_false, hsp, h64, add_regs, reduceCtorEq]
  · exact hf
  · exact hpc
  · exact hf.fcsr

/-- `rt_hw_context_switch_exit` resumes the thread whose frame is at `sp`. -/
theorem exit_resumes {h : Hart} {c : Ctx} (hf : FrameAt h.mem c) (hregs : c.regs ⊆ ra :: regs4)
    (hsp : h.x sp = frameBase c.sp) :
    Resumes (steps rtHwContextSwitchExit h) c ∧ (steps rtHwContextSwitchExit h).mem = h.mem := by
  have h64 : frameBase c.sp + bytes (32 * regBytes + 32 * fregBytes) = slot (frameBase c.sp) 64 := add_regs _ 64
  rw [rtHwContextSwitchExit, steps_append]
  refine ⟨restoreRegs_resumes ?_ hregs ?_ ?_ ?_ ?_, (steps_restoreRegs _).2.2.2.2.2.2.trans ?_⟩
  all_goals
    simp only [steps_cons, steps_nil, step, Hart.get, Hart.set, Hart.setCsr, show sp ≠ 0 by decide,
      show t0 ≠ 0 by decide, show a0 ≠ 0 by decide, show sp ≠ t0 by decide, show sp ≠ ra by decide,
      show sp ≠ a0 by decide, show ra ≠ t0 by decide, show ra ≠ a0 by decide, if_true, if_false, hsp, h64,
      add_regs, reduceCtorEq]
  · exact hf.toSavedAt
  · exact hf.pc
  · exact hf.fcsr

/-! ## What the saves leave in memory -/

/-- A hart of zeros, for what does not depend on the values. -/
def Hart.zero : Hart := ⟨0, fun _ => 0, fun _ => 0, fun _ => 0, fun _ => 0⟩

/-- Which slots `SW_handler` fills does not depend on the values. -/
theorem keys_swSlots (h : Hart) : (swSlots h).map Prod.fst = (swSlots Hart.zero).map Prod.fst := by
  simp only [swSlots, fpuSlots, List.map_append, List.map_map, Function.comp_def, List.map_cons, List.map_nil]

theorem keys_fpuSlots (h : Hart) : (fpuSlots h).map Prod.fst = (fpuSlots Hart.zero).map Prod.fst := by
  simp only [fpuSlots, List.map_append, List.map_map, Function.comp_def, List.map_cons, List.map_nil]

theorem keys_switchSlots (h : Hart) : (switchSlots h).map Prod.fst = (switchSlots Hart.zero).map Prod.fst := by
  simp only [switchSlots, List.map_append, List.map_map, Function.comp_def, List.map_cons, List.map_nil]

theorem nodup_swSlots (h : Hart) : ((swSlots h).map Prod.fst).Nodup := by
  rw [keys_swSlots]
  decide

theorem nodup_fpuSlots (h : Hart) : ((fpuSlots h).map Prod.fst).Nodup := by
  rw [keys_fpuSlots]
  decide

theorem nodup_switchSlots (h : Hart) : ((switchSlots h).map Prod.fst).Nodup := by
  rw [keys_switchSlots]
  decide

theorem lt_of_mem_swSlots (h : Hart) : ∀ p ∈ swSlots h, p.1 < 66 := by
  have hall : ∀ k ∈ (swSlots h).map Prod.fst, k < 66 := by
    rw [keys_swSlots]
    decide
  exact fun p hp => hall _ (List.mem_map_of_mem hp)

theorem lt_of_mem_fpuSlots (h : Hart) : ∀ p ∈ fpuSlots h, p.1 < 66 := by
  have hall : ∀ k ∈ (fpuSlots h).map Prod.fst, k < 66 := by
    rw [keys_fpuSlots]
    decide
  exact fun p hp => hall _ (List.mem_map_of_mem hp)

theorem lt_of_mem_switchSlots (h : Hart) : ∀ p ∈ switchSlots h, p.1 < 32 := by
  have hall : ∀ k ∈ (switchSlots h).map Prod.fst, k < 32 := by
    rw [keys_switchSlots]
    decide
  exact fun p hp => hall _ (List.mem_map_of_mem hp)

/-- The save of `SW_handler` saves the interrupted context. -/
theorem savedAt_swSave (h : Hart) : SavedAt (steps swSave h).mem (Ctx.ofInterrupt h) := by
  have hread : ∀ {k : Nat} {v : BitVec 32}, (k, v) ∈ swSlots h →
      (steps swSave h).mem.loadWord (slot (frameBase (h.x sp)) k) = v := fun hmem => by
    rw [steps_swSave]
    exact loadWord_storeSlots (fun p hp => (lt_of_mem_swSlots h p hp).trans (by omega)) (nodup_swSlots h) hmem
  have hregs : ∀ r ∈ ra :: regs4, r = t0 ∨ r = ra ∨ r = tp ∨ r ∈ regs6 := by decide
  refine ⟨hread ?_, fun r hr => hread ?_, fun i => hread ?_⟩
  · simp [swSlots, fpuSlots, Ctx.ofInterrupt]
  · rw [swSlots, List.append_assoc, List.mem_append, List.mem_append]
    right
    rcases hregs r hr with rfl | rfl | rfl | hr6
    · exact Or.inl (List.mem_cons_self ..)
    · exact Or.inl (List.mem_cons_of_mem _ (List.mem_cons_self ..))
    · exact Or.inl (List.mem_cons_of_mem _ (List.mem_cons_of_mem _ (List.mem_cons_of_mem _ (List.mem_cons_self ..))))
    · exact Or.inr (List.mem_map.mpr ⟨r, hr6, rfl⟩)
  · rw [swSlots, List.append_assoc, List.mem_append, fpuSlots, List.mem_append]
    exact Or.inl (Or.inr (List.mem_map.mpr ⟨i, List.mem_finRange i, rfl⟩))

/-- The bytes of the frame below a stack pointer. -/
def frame (a : BitVec 32) : Set (BitVec 32) := {b | (b - frameBase a).toNat < 260}

/-- The save code stores `t0` at the stack pointer it found; that byte by byte leaves memory alone exactly when
the word there already was `t0`. -/
def Spared (h : Hart) : Prop := h.mem.loadWord (h.x sp) = h.x t0

instance (h : Hart) : Decidable (Spared h) := inferInstanceAs (Decidable (_ = _))

/-- A word of the frame lies in it. -/
theorem word_slot_subset_frame {a : BitVec 32} {k : Nat} (hk : k < 65) : word (slot (frameBase a) k) ⊆ frame a := by
  intro b hb
  rw [mem_word_slot (by omega)] at hb
  show (b - frameBase a).toNat < 260
  omega

/-- A block written to the frame leaves everything outside it. -/
theorem storeSlots_of_not_mem_frame {m : ByteMemory} {a b : BitVec 32} {l : List (Nat × BitVec 32)}
    (hl : ∀ p ∈ l, p.1 < 65) (hb : b ∉ frame a) : m.storeSlots (frameBase a) l b = m b :=
  storeSlots_of_le (n := 65) hl (by omega) (Nat.le_of_not_lt hb)

/-- The floating-point save leaves a byte outside the frame that is not parked on, or when it finds `t0` at the
stack pointer. -/
theorem storeSlots_fpuSlots {h : Hart} {b : BitVec 32} (hs : Spared h ∨ b ∉ word (h.x sp))
    (hb : b ∉ frame (h.x sp)) : h.mem.storeSlots (frameBase (h.x sp)) (fpuSlots h) b = h.mem b := by
  have hpark : h.mem.storeWord (slot (frameBase (h.x sp)) 65) (h.x t0) b = h.mem b := by
    rw [slot_frameBase]
    rcases hs with hs | hs
    · rw [storeWord_loadWord hs]
    · exact storeWord_of_not_mem hs
  have hcons : fpuSlots h = (65, h.x t0) :: (fpuSlots h).tail := rfl
  have htail : ∀ k ∈ ((fpuSlots h).tail).map Prod.fst, k < 65 := by
    rw [List.map_tail, keys_fpuSlots]
    decide
  rw [hcons, storeSlots, List.foldl_cons]
  exact (storeSlots_of_not_mem_frame (fun p hp => htail _ (List.mem_map_of_mem hp)) hb).trans hpark

/-- The save of `SW_handler` leaves a byte outside the frame that is not parked on, or when it finds `t0` at the
stack pointer. -/
theorem swSave_of_not_mem_frame {h : Hart} {b : BitVec 32} (hs : Spared h ∨ b ∉ word (h.x sp))
    (hb : b ∉ frame (h.x sp)) : (steps swSave h).mem b = h.mem b := by
  rw [steps_swSave]
  dsimp only
  have hsplit : swSlots h = fpuSlots h ++ (swSlots h).drop (fpuSlots h).length := by
    rw [swSlots, List.append_assoc, List.drop_left]
  have hrest : ∀ k ∈ ((swSlots h).drop (fpuSlots h).length).map Prod.fst, k < 65 := by
    rw [List.map_drop, keys_swSlots]
    have hlen : (fpuSlots h).length = 34 := by simp [fpuSlots]
    rw [hlen]
    decide
  rw [hsplit, storeSlots_append, storeSlots_of_not_mem_frame (fun p hp => hrest _ (List.mem_map_of_mem hp)) hb]
  exact storeSlots_fpuSlots hs hb

/-- The save of `rt_hw_context_switch` leaves such a byte too, but for the word that `a0` points to, in which it
leaves the stack pointer of the thread. -/
theorem switched_of_not_mem_frame {h : Hart} {b : BitVec 32} (hs : Spared h ∨ b ∉ word (h.x sp))
    (hb : b ∉ frame (h.x sp)) (ha0 : b ∉ word (h.x a0)) : (switched h).mem b = h.mem b := by
  have hlt : ∀ p ∈ switchSlots h, p.1 < 65 := fun p hp => (lt_of_mem_switchSlots h p hp).trans (by omega)
  refine (storeSlots_of_not_mem_frame hlt hb).trans ?_
  exact (storeWord_of_not_mem ha0).trans (storeSlots_fpuSlots hs hb)

/-- The save of `rt_hw_context_switch` leaves the address of the frame in the word that `a0` points to. -/
theorem loadWord_switched {h : Hart} (hcell : Disjoint (word (h.x a0)) (frame (h.x sp))) :
    (switched h).mem.loadWord (h.x a0) = frameBase (h.x sp) := by
  have hlt : ∀ p ∈ switchSlots h, p.1 < 65 := fun p hp => (lt_of_mem_switchSlots h p hp).trans (by omega)
  have hsame : ∀ b ∈ word (h.x a0), (switched h).mem b =
      ((h.mem.storeSlots (frameBase (h.x sp)) (fpuSlots h)).storeWord (h.x a0) (frameBase (h.x sp))) b := fun b hb =>
    storeSlots_of_not_mem_frame hlt (Set.disjoint_left.mp hcell hb)
  rw [loadWord_congr hsame, loadWord_storeWord]

/-- The save of `rt_hw_context_switch` leaves the frame of the calling thread. -/
theorem frameAt_switched {h : Hart} (hcell : Disjoint (word (h.x a0)) (frame (h.x sp))) :
    FrameAt (switched h).mem (Ctx.ofCall h) := by
  have hlt : ∀ p ∈ switchSlots h, p.1 < 2 ^ 16 := fun p hp => (lt_of_mem_switchSlots h p hp).trans (by omega)
  have hread : ∀ {k : Nat} {v : BitVec 32}, (k, v) ∈ switchSlots h →
      (switched h).mem.loadWord (slot (frameBase (h.x sp)) k) = v := fun hmem =>
    loadWord_storeSlots hlt (nodup_switchSlots h) hmem
  have hfpu : ∀ {k : Nat} {v : BitVec 32}, k < 65 → 32 ≤ k → (k, v) ∈ fpuSlots h →
      (switched h).mem.loadWord (slot (frameBase (h.x sp)) k) = v := fun {k} {v} hk hk32 hmem => by
    have hnot : k ∉ (switchSlots h).map Prod.fst := by
      intro hin
      obtain ⟨p, hp, rfl⟩ := List.mem_map.mp hin
      exact absurd (lt_of_mem_switchSlots h p hp) (by omega)
    refine (loadWord_storeSlots_of_not_mem hlt (by omega) hnot).trans ?_
    refine (loadWord_storeWord_of_disjoint (hcell.symm.mono_left (word_slot_subset_frame hk))).trans ?_
    exact loadWord_storeSlots (fun p hp => (lt_of_mem_fpuSlots h p hp).trans (by omega)) (nodup_fpuSlots h) hmem
  refine ⟨⟨hfpu (by omega) (by omega) ?_, fun r hr => hread ?_, fun i => hfpu (by omega) (by omega) ?_⟩, hread ?_⟩
  · simp [fpuSlots, Ctx.ofCall]
  · have hregs : ∀ r ∈ ra :: regs4.erase a0, r = ra ∨ (r ≠ a0 ∧ r ∈ regs4) := by decide
    rw [switchSlots, List.mem_append]
    rcases hregs r hr with rfl | ⟨hne, hr4⟩
    · exact Or.inl (List.mem_cons_of_mem _ (List.mem_cons_self ..))
    · exact Or.inr (List.mem_map.mpr ⟨r, hr4, by rw [if_neg hne]; rfl⟩)
  · rw [fpuSlots, List.mem_append]
    exact Or.inr (List.mem_map.mpr ⟨i, List.mem_finRange i, rfl⟩)
  · exact List.mem_append_left _ (List.mem_cons_self ..)

end Rtos

end SocRV
