import SocRV.Lib.ByteMemory

/-!
# Assembly programs of a RISC-V hart

The part of RV32 that trap and context-switch code is written in: integer and floating-point registers, the
machine-mode registers such code touches, and a byte memory.  A program is a list of instructions; a branch
skips forward over a number of them, and a call is the effect of the function called.  Runs of stores and of
loads relative to one base register are summed up by the block of words they write or read.
-/

namespace SocRV

/-- The machine-mode and floating-point control registers. -/
inductive Csr where
  | mstatus
  | mepc
  | mscratch
  | fcsr
  deriving DecidableEq, Repr

/-- The state of a hart. -/
@[ext] structure Hart where
  pc : BitVec 32
  x : Fin 32 → BitVec 32
  f : Fin 32 → BitVec 32
  csr : Csr → BitVec 32
  mem : ByteMemory

namespace Hart

/-- The value of an integer register; `x0` reads as zero. -/
def get (h : Hart) (r : Fin 32) : BitVec 32 := if r = 0 then 0 else h.x r

/-- Write an integer register. -/
def set (h : Hart) (r : Fin 32) (v : BitVec 32) : Hart := { h with x := fun q => if q = r then v else h.x q }

/-- Write a floating-point register. -/
def setF (h : Hart) (r : Fin 32) (v : BitVec 32) : Hart := { h with f := fun q => if q = r then v else h.f q }

/-- Write a control register. -/
def setCsr (h : Hart) (c : Csr) (v : BitVec 32) : Hart := { h with csr := fun d => if d = c then v else h.csr d }

/-- Bit 3 of `mstatus`, the interrupt enable, and bit 7, its value before the trap. -/
def mie : BitVec 32 := 0x8

@[inherit_doc mie]
def mpie : BitVec 32 := 0x80

/-- Enter a trap: the program counter goes to `mepc`, and the interrupt enable to its previous value. -/
def trap (h : Hart) : Hart :=
  let status := h.csr .mstatus &&& ~~~(mie ||| mpie)
  (h.setCsr .mepc h.pc).setCsr .mstatus (if h.csr .mstatus &&& mie = 0 then status else status ||| mpie)

/-- Leave a trap. -/
def mret (h : Hart) : Hart :=
  let status := h.csr .mstatus &&& ~~~mie ||| mpie
  { h with pc := h.csr .mepc }.setCsr .mstatus (if h.csr .mstatus &&& mpie = 0 then status else status ||| mie)

end Hart

/-- The instructions.  Offsets and immediates are written as words. -/
inductive Instr where
  | addi (rd rs : Fin 32) (imm : BitVec 32)
  | andi (rd rs : Fin 32) (imm : BitVec 32)
  | li (rd : Fin 32) (imm : BitVec 32)
  | la (rd : Fin 32) (addr : BitVec 32)
  | lw (rd : Fin 32) (offset : BitVec 32) (rs : Fin 32)
  | sw (rs : Fin 32) (offset : BitVec 32) (base : Fin 32)
  | flw (rd : Fin 32) (offset : BitVec 32) (rs : Fin 32)
  | fsw (rs : Fin 32) (offset : BitVec 32) (base : Fin 32)
  | csrr (rd : Fin 32) (c : Csr)
  | csrw (c : Csr) (rs : Fin 32)
  | csrs (c : Csr) (rs : Fin 32)
  | csrci (c : Csr) (imm : BitVec 32)
  | csrrw (rd : Fin 32) (c : Csr) (rs : Fin 32)
  | call (f : Hart → Hart)
  | mret
  | beqz (rs : Fin 32) (skip : Nat)

namespace Instr

/-- The effect of one instruction; a branch by itself has none. -/
def step (h : Hart) : Instr → Hart
  | addi rd rs imm => h.set rd (h.get rs + imm)
  | andi rd rs imm => h.set rd (h.get rs &&& imm)
  | li rd imm => h.set rd imm
  | la rd addr => h.set rd addr
  | lw rd offset rs => h.set rd (h.mem.loadWord (h.get rs + offset))
  | sw rs offset base => { h with mem := h.mem.storeWord (h.get base + offset) (h.get rs) }
  | flw rd offset rs => h.setF rd (h.mem.loadWord (h.get rs + offset))
  | fsw rs offset base => { h with mem := h.mem.storeWord (h.get base + offset) (h.f rs) }
  | csrr rd c => h.set rd (h.csr c)
  | csrw c rs => h.setCsr c (h.get rs)
  | csrs c rs => h.setCsr c (h.csr c ||| h.get rs)
  | csrci c imm => h.setCsr c (h.csr c &&& ~~~imm)
  | csrrw rd c rs => (h.setCsr c (h.get rs)).set rd (h.csr c)
  | call f => f h
  | mret => h.mret
  | beqz _ _ => h

/-- Run a program, passing over the first `skip` instructions. -/
def run : Nat → List Instr → Hart → Hart
  | _, [], h => h
  | k + 1, _ :: is, h => run k is h
  | 0, beqz rs skip :: is, h => run (if h.get rs = 0 then skip else 0) is h
  | 0, i :: is, h => run 0 is (i.step h)

/-- An instruction that is not a branch. -/
def isStraight : Instr → Bool
  | beqz _ _ => false
  | _ => true

/-- Execute instructions one after the other. -/
def steps (is : List Instr) (h : Hart) : Hart := is.foldl step h

theorem steps_append (is js : List Instr) (h : Hart) : steps (is ++ js) h = steps js (steps is h) :=
  List.foldl_append ..

theorem steps_cons (i : Instr) (is : List Instr) (h : Hart) : steps (i :: is) h = steps is (i.step h) := rfl

@[simp] theorem steps_nil (h : Hart) : steps [] h = h := rfl

/-- A stretch without branches is executed instruction by instruction. -/
theorem run_append_of_straight {is : List Instr} (hs : ∀ i ∈ is, i.isStraight = true) (js : List Instr) (h : Hart) :
    run 0 (is ++ js) h = run 0 js (steps is h) := by
  induction is generalizing h with
  | nil => rfl
  | cons i is ih =>
    have hi := hs i (List.mem_cons_self ..)
    have hrest := ih (fun j hj => hs j (List.mem_cons_of_mem _ hj)) (i.step h)
    cases i with
    | beqz => simp [isStraight] at hi
    | _ => exact hrest

/-- Skipping a stretch. -/
theorem run_skip (is js : List Instr) (h : Hart) : run is.length (is ++ js) h = run 0 js h := by
  induction is with
  | nil => rfl
  | cons i is ih => exact ih

/-- A branch over a stretch either skips it or executes it. -/
theorem run_beqz {is : List Instr} (hs : ∀ i ∈ is, i.isStraight = true) (rs : Fin 32) (js : List Instr) (h : Hart) :
    run 0 (beqz rs is.length :: (is ++ js)) h = run 0 js (if h.get rs = 0 then h else steps is h) := by
  by_cases hz : h.get rs = 0
  · simp only [run, if_pos hz]
    exact run_skip is js h
  · simp only [run, if_neg hz]
    exact run_append_of_straight hs js h

end Instr

end SocRV
