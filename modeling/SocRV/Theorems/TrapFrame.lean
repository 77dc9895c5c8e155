import SocRV.Rtos.TrapFrame

/-!
# The frame of an exception

The registers in the frame are those of the interrupted context.  The program counter is not stored on the way to the
handler: the first word of the frame is what the stack held there.
-/

namespace SocRV

namespace Rtos

open Instr ByteMemory

/-- The frame that `rt_rv32_system_irq_handler` reads describes the interrupted context just when the word 260 bytes
below the interrupted stack pointer already held the program counter that the trap put into `mepc`. -/
theorem trap_frame_describes_iff (h : Hart) (rtInterruptEnter : Hart → Hart) (link link' mcause : BitVec 32)
    (henter : Enters (frame (h.x sp)) rtInterruptEnter (onIrqStack h))
    (hstack : Disjoint (word (h.csr .mscratch - bytes 4)) (frame (h.x sp))) :
    Describes (steps (handlerEntry rtInterruptEnter link link' mcause) h.trap) h ↔
      h.mem.loadWord (frameBase (h.x sp)) = h.pc := by
  obtain ⟨-, hmepc, -⟩ := steps_handlerEntry link link' mcause henter hstack
  obtain ⟨hepc, hregs⟩ := stackFrame_handlerEntry link link' mcause henter hstack
  constructor
  · intro hd
    exact hepc.symm.trans (hd.epc.trans hmepc)
  · intro hpc
    exact ⟨hepc.trans (hpc.trans hmepc.symm), hregs⟩

/-- A thread at 0x100 with its stack pointer at 0x2000 and an interrupt stack below 0x8000.  Its registers differ, and the
stack holds `stale` in the word 260 bytes below the stack pointer. -/
def faulting (stale : BitVec 32) : Hart where
  pc := 0x100
  x := fun r => if r = sp then 0x2000 else BitVec.ofNat 32 (0x11 * r.val)
  f := fun r => BitVec.ofNat 32 (0x3f800000 + r.val)
  csr := fun c => if c = .mscratch then 0x8000 else 0
  mem := storeWord (fun _ => 0) 0x1efc stale

/-- An `rt_interrupt_enter` that counts the nesting in the word at 0x4000. -/
def countNesting (g : Hart) : Hart := { g with mem := g.mem.storeWord 0x4000 (g.mem.loadWord 0x4000 + 1) }

/-- The first word of the frame is at 0x1efc. -/
theorem frameBase_faulting (stale : BitVec 32) : frameBase ((faulting stale).x sp) = 0x1efc#32 := by
  show frameBase 0x2000#32 = 0x1efc#32
  decide

/-- The link on the interrupt stack is not in the frame. -/
theorem faulting_stack (stale : BitVec 32) :
    Disjoint (word ((faulting stale).csr .mscratch - bytes 4)) (frame ((faulting stale).x sp)) := by
  have hscratch : (faulting stale).csr .mscratch - bytes 4 = 0x7ffc#32 := by
    show 0x8000#32 - bytes 4 = 0x7ffc#32
    decide
  rw [Set.disjoint_left]
  intro b hb hframe
  rw [hscratch, mem_word] at hb
  change (b - frameBase ((faulting stale).x sp)).toNat < 260 at hframe
  rw [frameBase_faulting] at hframe
  bv_omega

/-- The nesting is counted outside the frame. -/
theorem enters_countNesting (stale : BitVec 32) (g : Hart) : Enters (frame ((faulting stale).x sp)) countNesting g := by
  refine ⟨rfl, rfl, rfl, fun b hframe => storeWord_of_not_mem fun hb => ?_⟩
  rw [mem_word] at hb
  change (b - frameBase ((faulting stale).x sp)).toNat < 260 at hframe
  rw [frameBase_faulting] at hframe
  bv_omega

/-- What the stack holds in the first word of the frame. -/
theorem loadWord_faulting (stale : BitVec 32) :
    (faulting stale).mem.loadWord (frameBase ((faulting stale).x sp)) = stale := by
  rw [frameBase_faulting]
  exact loadWord_storeWord

/-- With 0x100 in that word already, the frame describes an illegal instruction at 0x100. -/
theorem trap_frame_describes_again :
    Describes (steps (handlerEntry countNesting 0x400 0x500 2) (faulting 0x100).trap) (faulting 0x100) :=
  (trap_frame_describes_iff (faulting 0x100) countNesting 0x400 0x500 2 (enters_countNesting 0x100 _)
    (faulting_stack 0x100)).mpr (loadWord_faulting 0x100)

/-- An illegal instruction at 0x100 is reported at the address 0, which is what the stack held. -/
theorem stale_epc :
    let g := steps (handlerEntry countNesting 0x400 0x500 2) (faulting 0).trap
    stackFrame g .epc = 0 ∧ g.csr .mepc = 0x100 ∧ ¬ Describes g (faulting 0) := by
  have henter : Enters (frame ((faulting 0).x sp)) countNesting (onIrqStack (faulting 0)) := enters_countNesting 0 _
  intro g
  have hmepc : g.csr .mepc = 0x100 := (steps_handlerEntry 0x400 0x500 2 henter (faulting_stack 0)).2.1
  have hepc : stackFrame g .epc = 0 :=
    (stackFrame_handlerEntry 0x400 0x500 2 henter (faulting_stack 0)).1.trans (loadWord_faulting 0)
  refine ⟨hepc, hmepc, fun hd => ?_⟩
  have heq := hd.epc
  rw [hepc, hmepc] at heq
  exact absurd heq (by decide)

end Rtos

end SocRV
