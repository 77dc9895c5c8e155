import SocRV.Rtos.ContextSwitch

/-!
# The frame that the C handler reads

`rt_rv32_system_irq_handler` takes the context of an exception from the frame at `mscratch`, by the fields of
`struct rt_hw_stack_frame`.  `SW_handler` fills the frame before it calls the handler, except for the first word, which
it writes only when it exchanges the thread.
-/

namespace SocRV

namespace Rtos

open Instr ByteMemory

/-- The fields of `struct rt_hw_stack_frame` in front of the floating-point registers. -/
inductive FrameField where
  | epc | ra | mstatus | gp | tp | t0 | t1 | t2 | s0Fp | s1
  | a0 | a1 | a2 | a3 | a4 | a5 | a6 | a7
  | s2 | s3 | s4 | s5 | s6 | s7 | s8 | s9 | s10 | s11
  | t3 | t4 | t5 | t6
  deriving DecidableEq, Repr

namespace FrameField

/-- The fields in the order of the structure. -/
def all : List FrameField :=
  [.epc, .ra, .mstatus, .gp, .tp, .t0, .t1, .t2, .s0Fp, .s1, .a0, .a1, .a2, .a3, .a4, .a5, .a6, .a7, .s2, .s3, .s4, .s5,
    .s6, .s7, .s8, .s9, .s10, .s11, .t3, .t4, .t5, .t6]

/-- Which word of the structure a field is. -/
def index (f : FrameField) : Nat := all.idxOf f

/-- There is a register. -/
local instance frame_neZero : NeZero 32 := ⟨by decide⟩

/-- The register a field is named after. -/
def register : FrameField → Option (Fin 32)
  | .epc | .mstatus => none
  | .ra => some 1
  | .gp => some 3
  | .tp => some 4
  | .t0 => some 5
  | .t1 => some 6
  | .t2 => some 7
  | .s0Fp => some 8
  | .s1 => some 9
  | .a0 => some 10
  | .a1 => some 11
  | .a2 => some 12
  | .a3 => some 13
  | .a4 => some 14
  | .a5 => some 15
  | .a6 => some 16
  | .a7 => some 17
  | .s2 => some 18
  | .s3 => some 19
  | .s4 => some 20
  | .s5 => some 21
  | .s6 => some 22
  | .s7 => some 23
  | .s8 => some 24
  | .s9 => some 25
  | .s10 => some 26
  | .s11 => some 27
  | .t3 => some 28
  | .t4 => some 29
  | .t5 => some 30
  | .t6 => some 31

/-- A field named after a register is the word of that number. -/
theorem index_of_register {f : FrameField} {r : Fin 32} (h : f.register = some r) : f.index = r.val := by
  cases f <;> cases h <;> rfl

end FrameField

/-- A field of the frame at `mscratch`. -/
def stackFrame (g : Hart) (f : FrameField) : BitVec 32 := g.mem.loadWord (slot (g.csr .mscratch) f.index)

/-- The call of `rt_hw_do_after_save_above`, and its code up to the first instruction of `rt_rv32_system_irq_handler`.
The links are the return addresses of the two calls, and `mcause` is what that register reads. -/
def callHandler (link link' mcause : BitVec 32) : List Instr :=
  [la ra link, addi sp sp (-bytes 4), sw ra (bytes 0) sp, li a0 mcause, la ra link']

/-- `SW_handler` up to the first instruction of `rt_rv32_system_irq_handler`. -/
def handlerEntry (rtInterruptEnter : Hart → Hart) (link link' mcause : BitVec 32) : List Instr :=
  swSave ++ [csrrw sp .mscratch sp] ++ [call rtInterruptEnter] ++ callHandler link link' mcause

/-- The hart on the interrupt stack, before `rt_interrupt_enter`. -/
def onIrqStack (h : Hart) : Hart := steps (swSave ++ [csrrw sp .mscratch sp]) h.trap

/-- What `rt_interrupt_enter` is trusted with in a state: it keeps `sp`, `mscratch` and `mepc` and does not write the
addresses in `P`. -/
structure Enters (P : Set (BitVec 32)) (rtInterruptEnter : Hart → Hart) (g : Hart) : Prop where
  sp : (rtInterruptEnter g).x Rtos.sp = g.x Rtos.sp
  mscratch : (rtInterruptEnter g).csr .mscratch = g.csr .mscratch
  mepc : (rtInterruptEnter g).csr .mepc = g.csr .mepc
  mem : ∀ b ∈ P, (rtInterruptEnter g).mem b = g.mem b

/-- The frame describes the context `h` that the trap has interrupted. -/
structure Describes (g h : Hart) : Prop where
  epc : stackFrame g .epc = g.csr .mepc
  registers : ∀ f r, r ∈ ra :: regs4 → f.register = some r → stackFrame g f = h.x r

/-- The exchange of `sp` and `mscratch`. -/
theorem step_csrrw_sp (g : Hart) :
    let g' := step g (csrrw sp .mscratch sp)
    g'.csr .mscratch = g.x sp ∧ g'.x sp = g.csr .mscratch ∧ g'.csr .mepc = g.csr .mepc ∧ g'.mem = g.mem := by
  simp only [step, Hart.get, Hart.set, Hart.setCsr, show sp ≠ 0 by decide, if_true, if_false, reduceCtorEq, and_self]

/-- The state on the interrupt stack: the frame is at `mscratch`, and `sp` is what `mscratch` was. -/
theorem onIrqStack_eq (h : Hart) :
    (onIrqStack h).csr .mscratch = frameBase (h.x sp) ∧ (onIrqStack h).x sp = h.csr .mscratch ∧
    (onIrqStack h).csr .mepc = h.pc ∧ (onIrqStack h).mem = (steps swSave h.trap).mem := by
  have hstep : onIrqStack h = step (steps swSave h.trap) (csrrw sp .mscratch sp) := by
    rw [onIrqStack, steps_append, steps_cons, steps_nil]
  obtain ⟨hscratch, hsp, hepc, hmem⟩ := step_csrrw_sp (steps swSave h.trap)
  rw [hstep]
  rw [hscratch, hsp, hepc, hmem]
  refine ⟨?_, ?_, ?_, rfl⟩
  · exact congrFun (congrArg Hart.x (steps_swSave h.trap)) sp
  · exact congrFun (congrArg Hart.csr (steps_swSave h.trap)) .mscratch
  · exact congrFun (congrArg Hart.csr (steps_swSave h.trap)) .mepc

/-- A link is pushed, for any size of the slot. -/
theorem steps_push (link link' mcause imm offset : BitVec 32) (g : Hart) :
    let g' := steps [la ra link, addi sp sp imm, sw ra offset sp, li a0 mcause, la ra link'] g
    g'.csr = g.csr ∧ g'.mem = g.mem.storeWord (g.x sp + imm + offset) link := by
  simp only [steps_cons, steps_nil, step, Hart.get, Hart.set, show sp ≠ 0 by decide, show ra ≠ 0 by decide,
    show ra ≠ sp by decide, show sp ≠ ra by decide, if_true, if_false, and_self]

/-- The call of the handler stores a link below `sp`. -/
theorem steps_callHandler (link link' mcause : BitVec 32) (g : Hart) :
    (steps (callHandler link link' mcause) g).csr = g.csr ∧
    (steps (callHandler link link' mcause) g).mem = g.mem.storeWord (g.x sp - bytes 4) link := by
  obtain ⟨hcsr, hmem⟩ := steps_push link link' mcause (-bytes 4) (bytes 0) g
  rw [add_bytes_zero, ← BitVec.sub_eq_add_neg] at hmem
  rw [callHandler]
  exact ⟨hcsr, hmem⟩

section Entry

variable {h : Hart} {rtInterruptEnter : Hart → Hart} (link link' mcause : BitVec 32)

/-- The entry of the handler calls it on the interrupt stack. -/
theorem steps_handlerEntry_eq (h : Hart) : steps (handlerEntry rtInterruptEnter link link' mcause) h.trap =
    steps (callHandler link link' mcause) (rtInterruptEnter (onIrqStack h)) := by
  rw [handlerEntry, steps_append, steps_append, ← onIrqStack, steps_cons, steps_nil, step]

/-- In the C handler the frame is still at `mscratch`, and as the save has left it. -/
theorem steps_handlerEntry (henter : Enters (frame (h.x sp)) rtInterruptEnter (onIrqStack h))
    (hstack : Disjoint (word (h.csr .mscratch - bytes 4)) (frame (h.x sp))) :
    let g := steps (handlerEntry rtInterruptEnter link link' mcause) h.trap
    g.csr .mscratch = frameBase (h.x sp) ∧ g.csr .mepc = h.pc ∧
    ∀ b ∈ frame (h.x sp), g.mem b = (steps swSave h.trap).mem b := by
  obtain ⟨hscratch, hsp, hepc, hmem⟩ := onIrqStack_eq h
  obtain ⟨hcsr, hpush⟩ := steps_callHandler link link' mcause (rtInterruptEnter (onIrqStack h))
  rw [henter.sp, hsp] at hpush
  rw [steps_handlerEntry_eq]
  dsimp only
  rw [hcsr, hpush]
  refine ⟨henter.mscratch.trans hscratch, henter.mepc.trans hepc, fun b hb => ?_⟩
  rw [storeWord_of_not_mem fun hin => Set.disjoint_left.mp hstack hin hb, henter.mem b hb, hmem]

/-- The frame holds the registers, and in its first word what the stack held there. -/
theorem stackFrame_handlerEntry (henter : Enters (frame (h.x sp)) rtInterruptEnter (onIrqStack h))
    (hstack : Disjoint (word (h.csr .mscratch - bytes 4)) (frame (h.x sp))) :
    let g := steps (handlerEntry rtInterruptEnter link link' mcause) h.trap
    stackFrame g .epc = h.mem.loadWord (frameBase (h.x sp)) ∧
    ∀ f r, r ∈ ra :: regs4 → f.register = some r → stackFrame g f = h.x r := by
  intro g
  obtain ⟨hscratch, -, hmem⟩ := steps_handlerEntry link link' mcause henter hstack
  have hread : ∀ k < 65, g.mem.loadWord (slot (frameBase (h.x sp)) k) =
      (steps swSave h.trap).mem.loadWord (slot (frameBase (h.x sp)) k) := by
    intro k hk
    exact loadWord_congr fun b hb => hmem b (word_slot_subset_frame hk hb)
  refine ⟨?_, fun f r hr hf => ?_⟩
  · have hnot : 0 ∉ (swSlots h.trap).map Prod.fst := by
      rw [keys_swSlots]
      decide
    have hslot : FrameField.index .epc = 0 := rfl
    have hsave : (steps swSave h.trap).mem = h.mem.storeSlots (frameBase (h.x sp)) (swSlots h.trap) :=
      congrArg Hart.mem (steps_swSave h.trap)
    have hkeep : (h.mem.storeSlots (frameBase (h.x sp)) (swSlots h.trap)).loadWord (slot (frameBase (h.x sp)) 0) =
        h.mem.loadWord (slot (frameBase (h.x sp)) 0) :=
      loadWord_storeSlots_of_not_mem (fun p hp => (lt_of_mem_swSlots h.trap p hp).trans (by decide)) (by decide) hnot
    unfold stackFrame
    rw [hscratch, hslot, hread 0 (by decide), hsave, hkeep, slot_zero]
  · unfold stackFrame
    rw [hscratch, FrameField.index_of_register hf, hread r.val (by omega)]
    exact (savedAt_swSave h.trap).x r hr

end Entry

end Rtos

end SocRV
