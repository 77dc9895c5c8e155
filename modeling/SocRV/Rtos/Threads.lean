import SocRV.Lib.Machine
import SocRV.Rtos.ContextSwitch

/-!
# Threads that share the hart

Any number of threads, each with its own stack and a control block whose first word `sp` points to its saved
frame.  The running thread computes, is interrupted, or gives the hart away; every suspended thread has its frame
on its own stack, and the step that takes the hart to a thread resumes it from there.
-/

namespace SocRV

namespace Rtos

open Instr ByteMemory

/-! ## `SW_handler` between the save and the restore -/

/-- What the C code under `SW_handler` is trusted with: it obeys the calling convention for `sp`, leaves
`mscratch` and `mepc`, and does not write the addresses in `P`. -/
structure Callees.Keep (P : Set (BitVec 32)) (c : Callees) : Prop where
  sp : ∀ g ∈ [c.rtInterruptEnter, c.rtHwDoAfterSaveAbove, c.rtInterruptLeave], ∀ h : Hart, (g h).x Rtos.sp = h.x Rtos.sp
  mscratch : ∀ g ∈ [c.rtInterruptEnter, c.rtHwDoAfterSaveAbove, c.rtInterruptLeave], ∀ h : Hart,
    (g h).csr .mscratch = h.csr .mscratch
  mepc : ∀ g ∈ [c.rtInterruptEnter, c.rtHwDoAfterSaveAbove, c.rtInterruptLeave], ∀ h : Hart,
    (g h).csr .mepc = h.csr .mepc
  mem : ∀ g ∈ [c.rtInterruptEnter, c.rtHwDoAfterSaveAbove, c.rtInterruptLeave], ∀ h : Hart, ∀ b ∈ P,
    (g h).mem b = h.mem b

/-- Through the handler and back: `sp` and `mepc` are those from before, and so is protected memory. -/
theorem steps_swCall {P : Set (BitVec 32)} {c : Callees} (hc : c.Keep P) (v : SwitchVars) (h : Hart) :
    let h' := steps (swCall c ++ swTest v) h
    h'.x sp = h.x sp ∧ h'.csr .mepc = h.csr .mepc ∧ (∀ b ∈ P, h'.mem b = h.mem b) ∧
    h'.x t0 = v.flag ∧ h'.x t2 = h'.mem.loadWord v.flag := by
  obtain ⟨-, hscr, hepc, hmem⟩ := hc
  simp only [List.forall_mem_cons, List.not_mem_nil, IsEmpty.forall_iff, implies_true, and_true] at hscr hepc hmem
  obtain ⟨hscr1, hscr2, hscr3⟩ := hscr
  obtain ⟨hepc1, hepc2, hepc3⟩ := hepc
  obtain ⟨hmem1, hmem2, hmem3⟩ := hmem
  have hne : sp ≠ 0 := by decide
  simp only [swCall, swTest, List.cons_append, List.nil_append, steps_cons, steps_nil, step, Hart.get, Hart.set,
    Hart.setCsr, hne, show sp ≠ t0 by decide, show sp ≠ t2 by decide, show t0 ≠ t2 by decide, show t0 ≠ 0 by decide,
    if_true, if_false, reduceCtorEq, add_bytes_zero]
  refine ⟨?_, ?_, fun b hb => ?_, trivial, trivial⟩
  · rw [hscr3, hscr2, hscr1]
    rfl
  · rw [hepc3, hepc2, hepc1]
    rfl
  · rw [hmem3 _ b hb, hmem2 _ b hb, hmem1 _ b hb]

/-- The exchange of the thread, from a hart whose flag is in `t0`. -/
theorem steps_swSwitch (v : SwitchVars) {h : Hart} (ht0 : h.x t0 = v.flag) :
    let m1 := (h.mem.storeWord v.flag 0).storeWord (h.x sp) (h.csr .mepc)
    let h' := steps (swSwitch v) h
    h'.mem = m1.storeWord (m1.loadWord v.fromThread) (h.x sp) ∧
    h'.x sp = h'.mem.loadWord (h'.mem.loadWord v.toThread) ∧ h'.csr .mepc = h'.mem.loadWord (h'.x sp) := by
  simp only [swSwitch, steps_cons, steps_nil, step, Hart.get, Hart.set, Hart.setCsr, show zero = 0 from rfl, ht0,
    show sp ≠ 0 by decide, show t0 ≠ 0 by decide, show t1 ≠ 0 by decide, show a0 ≠ 0 by decide,
    show sp ≠ a0 by decide, show sp ≠ t0 by decide, show sp ≠ t1 by decide, show a0 ≠ sp by decide,
    show t0 ≠ a0 by decide, show t0 ≠ t1 by decide, show t1 ≠ t0 by decide, show t1 ≠ a0 by decide, if_true, if_false,
    add_bytes_zero, Nat.zero_mul, and_self]

/-- `SW_handler` saves, calls the handler, exchanges the thread if the flag is set, and restores. -/
theorem run_swHandler (v : SwitchVars) (c : Callees) (h : Hart) :
    run 0 (swHandler v c) h =
      let h1 := steps (swCall c ++ swTest v) (steps swSave h)
      steps swRestore (if h1.get t2 = 0 then h1 else steps (swSwitch v) h1) := by
  have hsave : ∀ i ∈ swSave ++ swCall c ++ swTest v, i.isStraight = true := by
    have h1 : ∀ i ∈ swSave, i.isStraight = true := by decide
    intro i hi
    rw [List.append_assoc, List.mem_append] at hi
    rcases hi with hi | hi
    · exact h1 i hi
    · simp only [swCall, swTest, List.cons_append, List.nil_append, List.mem_cons, List.not_mem_nil, or_false] at hi
      rcases hi with rfl | rfl | rfl | rfl | rfl | rfl | rfl <;> rfl
  have hswitch : ∀ i ∈ swSwitch v, i.isStraight = true := by
    intro i hi
    simp only [swSwitch, List.mem_cons, List.not_mem_nil, or_false] at hi
    rcases hi with rfl | rfl | rfl | rfl | rfl | rfl | rfl | rfl | rfl | rfl | rfl <;> rfl
  have hrest : ∀ i ∈ swRestore, i.isStraight = true := by decide
  rw [swHandler, run_append_of_straight hsave, run_beqz hswitch]
  have hend := run_append_of_straight hrest []
  simp only [List.append_nil, run] at hend
  rw [hend, List.append_assoc, steps_append]

/-! ## Stacks and control blocks -/

/-- Where the threads keep their stacks `[lo, hi)` and the `sp` word of their control blocks, and where the
kernel keeps its switch variables. -/
structure Layout (T : Type*) where
  lo : T → Nat
  hi : T → Nat
  cell : T → BitVec 32
  vars : SwitchVars
  hi_le : ∀ σ, hi σ ≤ 2 ^ 32
  stack_stack : ∀ σ τ, σ ≠ τ → hi σ ≤ lo τ ∨ hi τ ≤ lo σ
  cell_cell : ∀ σ τ, σ ≠ τ → Disjoint (word (cell σ)) (word (cell τ))
  stack_cell : ∀ σ τ, Disjoint {b : BitVec 32 | lo σ ≤ b.toNat ∧ b.toNat < hi σ} (word (cell τ))
  vars_stack : ∀ a ∈ [vars.flag, vars.fromThread, vars.toThread], ∀ σ,
    Disjoint (word a) {b : BitVec 32 | lo σ ≤ b.toNat ∧ b.toNat < hi σ}
  vars_cell : ∀ a ∈ [vars.flag, vars.fromThread, vars.toThread], ∀ σ, Disjoint (word a) (word (cell σ))
  flag_vars : ∀ a ∈ [vars.fromThread, vars.toThread], Disjoint (word a) (word vars.flag)

namespace Layout

variable {T : Type*} (L : Layout T)

/-- The stack of a thread. -/
def stack (σ : T) : Set (BitVec 32) := {b | L.lo σ ≤ b.toNat ∧ b.toNat < L.hi σ}

/-- What belongs to a thread: its stack and the `sp` word of its control block. -/
def own (σ : T) : Set (BitVec 32) := L.stack σ ∪ word (L.cell σ)

/-- Everything that belongs to some thread. -/
def owned : Set (BitVec 32) := {b | ∃ σ, b ∈ L.own σ}

/-- A stack pointer with room for a frame on the stack of a thread. -/
def Room (σ : T) (a : BitVec 32) : Prop := L.lo σ + 260 ≤ a.toNat ∧ a.toNat ≤ L.hi σ

instance (σ : T) (a : BitVec 32) : Decidable (L.Room σ a) := inferInstanceAs (Decidable (_ ∧ _))

variable {L} {σ τ : T} {a : BitVec 32}

/-- With room, the frame is below the stack pointer and on the stack. -/
theorem frame_subset (h : L.Room σ a) : frame a ⊆ {b | L.lo σ ≤ b.toNat ∧ b.toNat < a.toNat} := by
  intro b hb
  have hb' : (b - (a - BitVec.ofNat 32 260)).toNat < 260 := hb
  obtain ⟨hlo, -⟩ := h
  have ha := a.isLt
  have hb2 := b.isLt
  simp only [BitVec.toNat_sub, BitVec.toNat_ofNat] at hb'
  show L.lo σ ≤ b.toNat ∧ b.toNat < a.toNat
  omega

/-- A frame for which there is room lies in the stack of its thread. -/
theorem frame_subset_stack (h : L.Room σ a) : frame a ⊆ L.stack σ := fun _ hb =>
  ⟨(frame_subset h hb).1, (frame_subset h hb).2.trans_le h.2⟩

/-- What belongs to one thread does not belong to another. -/
theorem disjoint_own (hne : σ ≠ τ) : Disjoint (L.own σ) (L.own τ) := by
  have hstack : Disjoint (L.stack σ) (L.stack τ) := by
    rw [Set.disjoint_left]
    rintro b ⟨h1, h2⟩ ⟨h3, h4⟩
    have := L.stack_stack σ τ hne
    omega
  rw [own, own, Set.disjoint_union_left, Set.disjoint_union_right, Set.disjoint_union_right]
  exact ⟨⟨hstack, L.stack_cell σ τ⟩, (L.stack_cell τ σ).symm, L.cell_cell σ τ hne⟩

/-- The frame of a thread does not reach what belongs to another, nor any control block. -/
theorem not_mem_frame_of_own (hne : σ ≠ τ) (h : L.Room σ a) {b : BitVec 32} (hb : b ∈ L.own τ) : b ∉ frame a :=
  fun hf => Set.disjoint_left.mp (disjoint_own hne) (Or.inl (frame_subset_stack h hf)) hb

/-- The cell of a thread has no byte of a frame. -/
theorem disjoint_cell_frame (h : L.Room σ a) : Disjoint (word (L.cell τ)) (frame a) :=
  ((L.stack_cell σ τ).mono_left (frame_subset_stack h)).symm

/-- What a thread owns is none of the variables of the scheduler. -/
theorem not_mem_vars_of_own {v b : BitVec 32} (hv : v ∈ [L.vars.flag, L.vars.fromThread, L.vars.toThread])
    (hb : b ∈ L.own σ) : b ∉ word v := by
  intro hw
  rcases hb with hb | hb
  · exact Set.disjoint_left.mp (L.vars_stack v hv σ) hw hb
  · exact Set.disjoint_left.mp (L.vars_cell v hv σ) hw hb

end Layout

/-! ## Suspended threads -/

variable {T : Type*} {L : Layout T} {σ τ : T} {m m' : ByteMemory} {c : Ctx}

/-- A suspended thread has its frame on its own stack and the address of it in its control block. -/
structure Suspended (L : Layout T) (m : ByteMemory) (σ : T) (c : Ctx) : Prop where
  frame : FrameAt m c
  cell : m.loadWord (L.cell σ) = frameBase c.sp
  room : L.Room σ c.sp
  regs : c.regs ⊆ ra :: regs4

/-- The registers that are kept are not `x0`. -/
theorem pos_of_mem_regs : ∀ r ∈ ra :: regs4, 1 ≤ r.val := by decide

/-- Saved registers stay as long as the words behind the first one of the frame do. -/
theorem SavedAt.congr (h : SavedAt m c) (hregs : c.regs ⊆ ra :: regs4)
    (hm : ∀ k, 1 ≤ k → k < 65 → ∀ b ∈ word (slot (frameBase c.sp) k), m' b = m b) : SavedAt m' c := by
  refine ⟨?_, fun r hr => ?_, fun i => ?_⟩
  · rw [loadWord_congr (hm 64 (by omega) (by omega))]
    exact h.fcsr
  · rw [loadWord_congr (hm r.val (pos_of_mem_regs r (hregs hr)) (by omega))]
    exact h.x r hr
  · rw [loadWord_congr (hm (32 + i.val) (by omega) (by omega))]
    exact h.f i

/-- A thread stays suspended as long as nobody writes what belongs to it. -/
theorem Suspended.congr (h : Suspended L m σ c) (hm : ∀ b ∈ L.own σ, m' b = m b) : Suspended L m' σ c := by
  have hframe : ∀ k < 65, ∀ b ∈ word (slot (frameBase c.sp) k), m' b = m b := fun k hk b hb =>
    hm b (Or.inl (Layout.frame_subset_stack h.room (word_slot_subset_frame hk hb)))
  refine ⟨⟨h.frame.toSavedAt.congr h.regs fun k _ hk => hframe k hk, ?_⟩, ?_, h.room, h.regs⟩
  · rw [loadWord_congr (hframe 0 (by omega))]
    exact h.frame.pc
  · rw [loadWord_congr fun b hb => hm b (Or.inr hb)]
    exact h.cell

/-! ## Threads that never ran -/

/-- `rt_hw_stack_init`: the new stack pointer and the memory with the frame of a thread that starts at `tentry`.
The words are those of `rt_hw_stack_frame`. -/
def rtHwStackInit (m : ByteMemory) (tentry parameter stackAddr texit : BitVec 32) : BitVec 32 × ByteMemory :=
  let stk := ((stackAddr + 4) &&& ~~~15) - bytes 260
  (stk, (m.storeSlots stk ((List.range 65).map fun i => (i, 0xdeadbeef))).storeSlots stk
    [(1, texit), (10, parameter), (0, tentry), (2, 0x7880), (64, 0)])

/-- The context a new thread starts in. -/
def Ctx.initial (tentry parameter stackAddr texit : BitVec 32) : Ctx where
  pc := tentry
  sp := (stackAddr + 4) &&& ~~~15
  fcsr := 0
  x := fun r => if r = ra then texit else if r = a0 then parameter else 0xdeadbeef
  f := fun _ => 0xdeadbeef
  regs := ra :: regs4

/-- The frame that `rt_hw_stack_init` leaves is the frame of the initial context. -/
theorem frameAt_rtHwStackInit (m : ByteMemory) (tentry parameter stackAddr texit : BitVec 32) :
    FrameAt (rtHwStackInit m tentry parameter stackAddr texit).2 (Ctx.initial tentry parameter stackAddr texit) := by
  have hset : ∀ {k : Nat} {v : BitVec 32}, (k, v) ∈
      [(1, texit), (10, parameter), (0, tentry), (2, 0x7880), (64, 0)] →
      (rtHwStackInit m tentry parameter stackAddr texit).2.loadWord
        (slot (frameBase ((stackAddr + 4) &&& ~~~15)) k) = v := fun hmem =>
    loadWord_storeSlots (by simp) (by simp) hmem
  have hfill : ∀ {k : Nat}, k < 65 → k ∉ [1, 10, 0, 2, 64] →
      (rtHwStackInit m tentry parameter stackAddr texit).2.loadWord
        (slot (frameBase ((stackAddr + 4) &&& ~~~15)) k) = 0xdeadbeef := fun {k} hk hnot => by
    refine (loadWord_storeSlots_of_not_mem (by simp) (by omega) hnot).trans ?_
    refine loadWord_storeSlots (fun p hp => ?_) ?_ (List.mem_map.mpr ⟨k, List.mem_range.mpr hk, rfl⟩)
    · obtain ⟨i, hi, rfl⟩ := List.mem_map.mp hp
      have := List.mem_range.mp hi
      dsimp only
      omega
    · rw [List.map_map]
      decide
  refine ⟨⟨hset (by simp [Ctx.initial]), fun r hr => ?_, fun i => hfill (by omega) (by simp; omega)⟩,
    hset (by simp [Ctx.initial])⟩
  by_cases hra : r = ra
  · subst hra
    exact hset (by simp [Ctx.initial, ra])
  · by_cases ha0 : r = a0
    · subst ha0
      exact hset (List.mem_cons_of_mem _ (List.mem_cons_self ..))
    · have hnot : ∀ r ∈ ra :: regs4, r ≠ ra → r ≠ a0 → r.val ∉ [1, 10, 0, 2, 64] := by decide
      show _ = (if r = ra then texit else if r = a0 then parameter else 0xdeadbeef)
      rw [if_neg hra, if_neg ha0]
      exact hfill (by omega) (hnot r hr hra ha0)

/-- A new thread is suspended in its initial context once its control block points to its frame. -/
theorem suspended_rtHwStackInit {tentry parameter stackAddr texit : BitVec 32}
    (hroom : L.Room σ ((stackAddr + 4) &&& ~~~15)) :
    Suspended L ((rtHwStackInit m tentry parameter stackAddr texit).2.storeWord (L.cell σ)
      (rtHwStackInit m tentry parameter stackAddr texit).1) σ (Ctx.initial tentry parameter stackAddr texit) := by
  have hkeep : ∀ k < 65, ∀ b ∈ word (slot (frameBase ((stackAddr + 4) &&& ~~~15)) k), b ∉ word (L.cell σ) :=
    fun k hk b hb => Set.disjoint_left.mp
      ((Layout.disjoint_cell_frame hroom).symm.mono_left (word_slot_subset_frame hk)) hb
  have hframe := frameAt_rtHwStackInit m tentry parameter stackAddr texit
  refine ⟨⟨hframe.toSavedAt.congr (List.Subset.refl _) fun k _ hk b hb => storeWord_of_not_mem (hkeep k hk b hb), ?_⟩,
    loadWord_storeWord, hroom, List.Subset.refl _⟩
  exact (loadWord_congr fun b hb => storeWord_of_not_mem (hkeep 0 (by omega) b hb)).trans hframe.pc

/-! ## One switch -/

/-- The word the save code parks `t0` in belongs to no thread but the one it saves, or keeps its value. -/
def ParksAside (L : Layout T) (σ : T) (h : Hart) : Prop :=
  Spared h ∨ ∀ τ, τ ≠ σ → Disjoint (word (h.x sp)) (L.own τ)

/-- The word at the stack pointer is spared, or belongs to no other thread. -/
theorem ParksAside.not_mem {h : Hart} (hp : ParksAside L σ h) (hne : τ ≠ σ) {b : BitVec 32} (hb : b ∈ L.own τ) :
    Spared h ∨ b ∉ word (h.x sp) :=
  hp.imp_right fun hd hw => Set.disjoint_left.mp (hd τ hne) hw hb

section Switch

variable {g h : Hart} {ctx : T → Ctx}

/-- After the save code of `rt_hw_context_switch` every thread is suspended, the caller in the context of its
call. -/
theorem switched_suspends [DecidableEq T] (hs : ParksAside L σ h) (hroom : L.Room σ (h.x sp)) (ha0 : h.x a0 = L.cell σ)
    (hsus : ∀ τ, τ ≠ σ → Suspended L h.mem τ (ctx τ)) (τ : T) :
    Suspended L (switched h).mem τ (Function.update ctx σ (Ctx.ofCall h) τ) := by
  have hcell : Disjoint (word (h.x a0)) (frame (h.x sp)) := by
    rw [ha0]
    exact Layout.disjoint_cell_frame hroom
  by_cases hτ : τ = σ
  · subst hτ
    rw [Function.update_self]
    refine ⟨frameAt_switched hcell, ?_, hroom, show ra :: regs4.erase a0 ⊆ ra :: regs4 by decide⟩
    rw [← ha0]
    exact loadWord_switched hcell
  · rw [Function.update_of_ne hτ]
    refine (hsus τ hτ).congr fun b hb => switched_of_not_mem_frame (hs.not_mem hτ hb) ?_ ?_
    · exact Layout.not_mem_frame_of_own (Ne.symm hτ) hroom hb
    · rw [ha0]
      exact fun hw => Set.disjoint_left.mp (Layout.disjoint_own hτ) hb (Or.inr hw)

/-- After the save code `rt_hw_context_switch` takes `sp` from the control block that `a1` points to. -/
theorem switched_sp (ha1 : h.x a1 = L.cell τ) (hsus : Suspended L (switched h).mem τ c) :
    (step (switched h) (lw sp (bytes 0) a1)).x sp = frameBase c.sp := by
  rw [← hsus.cell]
  simp only [step, Hart.set, Hart.get, switched, show a1 ≠ 0 by decide, show a1 ≠ a0 by decide,
    show a1 ≠ sp by decide, if_true, if_false, add_bytes_zero, ha1]

/-- `rt_hw_context_switch` resumes the thread that `a1` points to and leaves every thread suspended. -/
theorem rtHwContextSwitch_resumes [DecidableEq T] (hs : ParksAside L σ h) (hroom : L.Room σ (h.x sp)) (ha0 : h.x a0 = L.cell σ)
    (ha1 : h.x a1 = L.cell τ) (hsus : ∀ τ, τ ≠ σ → Suspended L h.mem τ (ctx τ)) :
    Resumes (run 0 rtHwContextSwitch h) (Function.update ctx σ (Ctx.ofCall h) τ) ∧
    ∀ ρ, Suspended L (run 0 rtHwContextSwitch h).mem ρ (Function.update ctx σ (Ctx.ofCall h) ρ) := by
  have hall := switched_suspends hs hroom ha0 hsus
  obtain ⟨hres, hmem⟩ := exit_resumes (h := step (switched h) (lw sp (bytes 0) a1)) (hall τ).frame (hall τ).regs
    (switched_sp ha1 (hall τ))
  rw [run_rtHwContextSwitch, List.cons_append, List.nil_append, steps_cons]
  refine ⟨hres, fun ρ => ?_⟩
  rw [hmem]
  exact hall ρ

/-- Up to the return of the C code, `SW_handler` writes nothing that belongs to another thread. -/
theorem swCall_keeps {c : Callees} (hc : c.Keep L.owned) (hs : ParksAside L σ h) (hroom : L.Room σ (h.x sp))
    (hτ : τ ≠ σ) {b : BitVec 32} (hb : b ∈ L.own τ) :
    (steps (swCall c ++ swTest L.vars) (steps swSave h.trap)).mem b = h.mem b := by
  obtain ⟨-, -, hmem, -, -⟩ := steps_swCall hc L.vars (steps swSave h.trap)
  refine (hmem b ⟨τ, hb⟩).trans ?_
  exact swSave_of_not_mem_frame (h := h.trap) (hs.not_mem hτ hb) (Layout.not_mem_frame_of_own (Ne.symm hτ) hroom hb)

/-- After the C code returns to `SW_handler`, the interrupted context is saved on the stack of its thread, `sp`
and `mepc` are its frame and its program counter, and the other threads are suspended as before. -/
theorem swCall_saves {c : Callees} (hc : c.Keep L.owned) (hs : ParksAside L σ h) (hroom : L.Room σ (h.x sp))
    (hsus : ∀ τ, τ ≠ σ → Suspended L h.mem τ (ctx τ)) :
    let h1 := steps (swCall c ++ swTest L.vars) (steps swSave h.trap)
    SavedAt h1.mem (Ctx.ofInterrupt h) ∧ h1.x sp = frameBase (h.x sp) ∧ h1.csr .mepc = h.pc ∧
    h1.x t0 = L.vars.flag ∧ h1.x t2 = h1.mem.loadWord L.vars.flag ∧
    ∀ τ, τ ≠ σ → Suspended L h1.mem τ (ctx τ) := by
  intro h1
  obtain ⟨hsp, hepc, hmem, ht0, ht2⟩ := steps_swCall hc L.vars (steps swSave h.trap)
  have hsaved : SavedAt (steps swSave h.trap).mem (Ctx.ofInterrupt h) := savedAt_swSave h.trap
  refine ⟨hsaved.congr (List.Subset.refl _) fun k _ hk b hb => hmem b ?_, ?_, ?_, ht0, ht2, fun τ hτ => ?_⟩
  · exact ⟨σ, Or.inl (Layout.frame_subset_stack hroom (word_slot_subset_frame hk hb))⟩
  · exact hsp.trans (congrFun (congrArg Hart.x (steps_swSave h.trap)) sp)
  · exact hepc.trans (congrFun (congrArg Hart.csr (steps_swSave h.trap)) .mepc)
  · exact (hsus τ hτ).congr fun b hb => swCall_keeps hc hs hroom hτ hb

/-- The first word of a frame is where its base points to. -/
theorem slot_frameBase_zero (a : BitVec 32) : slot (frameBase a) 0 = frameBase a := slot_zero _

/-- With room for the frame, its first word is on the stack. -/
theorem word_frameBase_subset {a : BitVec 32} (hroom : L.Room σ a) : word (frameBase a) ⊆ L.stack σ := by
  rw [← slot_frameBase_zero]
  exact (word_slot_subset_frame (by omega)).trans (Layout.frame_subset_stack hroom)

/-- The exchange in `SW_handler` writes the flag, the first word of the frame and the control block of the
interrupted thread. -/
theorem swSwitch_mem (hroom : L.Room σ (g.x sp)) (hsp : h.x sp = frameBase (g.x sp)) (hepc : h.csr .mepc = g.pc)
    (ht0 : h.x t0 = L.vars.flag) (hfrom : h.mem.loadWord L.vars.fromThread = L.cell σ) :
    (steps (swSwitch L.vars) h).mem =
      ((h.mem.storeWord L.vars.flag 0).storeWord (frameBase (g.x sp)) g.pc).storeWord (L.cell σ)
        (frameBase (g.x sp)) := by
  obtain ⟨hmem, -, -⟩ := steps_swSwitch L.vars ht0
  have hvars : L.vars.fromThread ∈ [L.vars.flag, L.vars.fromThread, L.vars.toThread] := by simp
  rw [hmem, hsp, hepc,
    loadWord_storeWord_of_disjoint ((L.vars_stack _ hvars σ).mono_right (word_frameBase_subset hroom)),
    loadWord_storeWord_of_disjoint (L.flag_vars _ (List.mem_cons_self ..)), hfrom]

/-- So it leaves every other byte alone. -/
theorem swSwitch_keeps (hroom : L.Room σ (g.x sp)) (hsp : h.x sp = frameBase (g.x sp)) (hepc : h.csr .mepc = g.pc)
    (ht0 : h.x t0 = L.vars.flag) (hfrom : h.mem.loadWord L.vars.fromThread = L.cell σ) {b : BitVec 32}
    (hflag : b ∉ word L.vars.flag) (hfr : b ∉ word (frameBase (g.x sp))) (hcell : b ∉ word (L.cell σ)) :
    (steps (swSwitch L.vars) h).mem b = h.mem b := by
  rw [swSwitch_mem hroom hsp hepc ht0 hfrom, storeWord_of_not_mem hcell, storeWord_of_not_mem hfr,
    storeWord_of_not_mem hflag]

/-- What belongs to another thread it leaves alone. -/
theorem swSwitch_keeps_own (hroom : L.Room σ (g.x sp)) (hsp : h.x sp = frameBase (g.x sp))
    (hepc : h.csr .mepc = g.pc) (ht0 : h.x t0 = L.vars.flag)
    (hfrom : h.mem.loadWord L.vars.fromThread = L.cell σ) (hτ : τ ≠ σ) {b : BitVec 32} (hb : b ∈ L.own τ) :
    (steps (swSwitch L.vars) h).mem b = h.mem b := by
  have hdis := Set.disjoint_left.mp (Layout.disjoint_own (L := L) hτ)
  refine swSwitch_keeps hroom hsp hepc ht0 hfrom ?_ ?_ ?_
  · exact Layout.not_mem_vars_of_own (by simp) hb
  · exact fun hw => hdis hb (Or.inl (word_frameBase_subset hroom hw))
  · exact fun hw => hdis hb (Or.inr hw)

/-- The words behind the first one of the frame of the interrupted thread it leaves alone. -/
theorem swSwitch_keeps_slot (hroom : L.Room σ (g.x sp)) (hsp : h.x sp = frameBase (g.x sp))
    (hepc : h.csr .mepc = g.pc) (ht0 : h.x t0 = L.vars.flag)
    (hfrom : h.mem.loadWord L.vars.fromThread = L.cell σ) {k : Nat} (hk1 : 1 ≤ k) (hk : k < 65) {b : BitVec 32}
    (hb : b ∈ word (slot (frameBase (g.x sp)) k)) : (steps (swSwitch L.vars) h).mem b = h.mem b := by
  refine swSwitch_keeps hroom hsp hepc ht0 hfrom ?_ ?_ ?_
  · exact Layout.not_mem_vars_of_own (by simp)
      (Or.inl (Layout.frame_subset_stack hroom (word_slot_subset_frame hk hb)))
  · rw [← slot_frameBase_zero]
    exact Set.disjoint_left.mp (disjoint_slots (by omega) (by omega) (by omega)) hb
  · exact fun hw => Set.disjoint_left.mp (Layout.disjoint_cell_frame hroom) hw (word_slot_subset_frame hk hb)

/-- The exchange in `SW_handler` leaves every thread suspended and goes to the frame of the new one. -/
theorem swSwitch_suspends [DecidableEq T] (hsaved : SavedAt h.mem (Ctx.ofInterrupt g)) (hroom : L.Room σ (g.x sp))
    (hsp : h.x sp = frameBase (g.x sp)) (hepc : h.csr .mepc = g.pc) (ht0 : h.x t0 = L.vars.flag)
    (hfrom : h.mem.loadWord L.vars.fromThread = L.cell σ) (hto : h.mem.loadWord L.vars.toThread = L.cell τ)
    (hsus : ∀ τ, τ ≠ σ → Suspended L h.mem τ (ctx τ)) :
    let h' := steps (swSwitch L.vars) h
    (∀ ρ, Suspended L h'.mem ρ (Function.update ctx σ (Ctx.ofInterrupt g) ρ)) ∧
    h'.x sp = frameBase (Function.update ctx σ (Ctx.ofInterrupt g) τ).sp ∧
    h'.csr .mepc = (Function.update ctx σ (Ctx.ofInterrupt g) τ).pc := by
  intro h'
  obtain ⟨-, hsp', hepc'⟩ := steps_swSwitch L.vars ht0
  have hmem : h'.mem = _ := swSwitch_mem hroom hsp hepc ht0 hfrom
  have hbase := word_frameBase_subset hroom
  have hto' : h'.mem.loadWord L.vars.toThread = L.cell τ := by
    rw [hmem, loadWord_storeWord_of_disjoint (L.vars_cell _ (by simp) σ),
      loadWord_storeWord_of_disjoint ((L.vars_stack _ (by simp) σ).mono_right hbase),
      loadWord_storeWord_of_disjoint (L.flag_vars _ (by simp)), hto]
  have hall : ∀ ρ, Suspended L h'.mem ρ (Function.update ctx σ (Ctx.ofInterrupt g) ρ) := by
    intro ρ
    by_cases hρ : ρ = σ
    · subst hρ
      rw [Function.update_self]
      refine ⟨⟨hsaved.congr (List.Subset.refl _) fun k hk1 hk b hb =>
        swSwitch_keeps_slot hroom hsp hepc ht0 hfrom hk1 hk hb, ?_⟩, ?_, hroom, List.Subset.refl _⟩
      · show h'.mem.loadWord (slot (frameBase (g.x sp)) 0) = g.pc
        rw [hmem, slot_frameBase_zero, loadWord_storeWord_of_disjoint ((L.stack_cell ρ ρ).mono_left hbase), loadWord_storeWord]
      · rw [hmem, loadWord_storeWord]
        rfl
    · rw [Function.update_of_ne hρ]
      exact (hsus ρ hρ).congr fun b hb => swSwitch_keeps_own hroom hsp hepc ht0 hfrom hρ hb
  rw [hto', (hall τ).cell] at hsp'
  refine ⟨hall, hsp', ?_⟩
  rw [hepc', hsp', ← slot_frameBase_zero]
  exact (hall τ).frame.pc

/-- The words that tell `SW_handler` which thread goes on: none to switch to, or the control blocks of the
interrupted thread and of the new one. -/
def Directs (L : Layout T) (m : ByteMemory) (σ : T) : Option T → Prop
  | none => m.loadWord L.vars.flag = 0
  | some τ => m.loadWord L.vars.flag ≠ 0 ∧ m.loadWord L.vars.fromThread = L.cell σ ∧
      m.loadWord L.vars.toThread = L.cell τ

/-- `SW_handler` resumes the thread the C code asked for, else the interrupted one, and leaves every other thread
suspended. -/
theorem swHandler_resumes [DecidableEq T] {c : Callees} (hc : c.Keep L.owned) (hs : ParksAside L σ h)
    (hroom : L.Room σ (h.x sp))
    (hsus : ∀ τ, τ ≠ σ → Suspended L h.mem τ (ctx τ)) {dest : Option T}
    (hto : Directs L (steps (swCall c ++ swTest L.vars) (steps swSave h.trap)).mem σ dest) :
    let h' := run 0 (swHandler L.vars c) h.trap
    Resumes h' (Function.update ctx σ (Ctx.ofInterrupt h) (dest.getD σ)) ∧
    ∀ ρ, ρ ≠ dest.getD σ → Suspended L h'.mem ρ (Function.update ctx σ (Ctx.ofInterrupt h) ρ) := by
  intro h'
  obtain ⟨hsaved, hsp, hepc, ht0, ht2, hsus'⟩ := swCall_saves hc hs hroom hsus
  have hrun : h' = _ := run_swHandler L.vars c h.trap
  have hget : ∀ g : Hart, g.get t2 = g.x t2 := fun _ => rfl
  simp only [hget, ht2] at hrun
  cases dest with
  | none =>
    have hflag : _ = _ := hto
    rw [if_pos hflag] at hrun
    obtain ⟨hres, hmem⟩ := swRestore_resumes hsaved (List.Subset.refl _) hsp hepc
    rw [hrun, Option.getD_none, Function.update_self]
    refine ⟨hres, fun ρ hρ => ?_⟩
    rw [Function.update_of_ne hρ, hmem]
    exact hsus' ρ hρ
  | some τ =>
    obtain ⟨hflag, hfrom, hto⟩ := hto
    rw [if_neg hflag] at hrun
    obtain ⟨hall, hsp2, hepc2⟩ := swSwitch_suspends hsaved hroom hsp hepc ht0 hfrom hto hsus'
    obtain ⟨hres, hmem⟩ := swRestore_resumes (hall τ).frame.toSavedAt (hall τ).regs hsp2 hepc2
    rw [hrun]
    refine ⟨hres, fun ρ _ => ?_⟩
    rw [hmem]
    exact hall ρ

end Switch

/-! ## Whole runs -/

/-- The hart, the thread that runs on it, and the contexts in which the threads were last suspended. -/
structure Sys (T : Type*) where
  hart : Hart
  cur : T
  ctx : T → Ctx

/-- What happens next: the running thread computes, it is interrupted with some C code under `SW_handler` that may
ask for another thread, or it calls `rt_hw_context_switch`. -/
inductive Event (T : Type*) where
  | thread (h : Hart)
  | interrupt (c : Callees) (dest : Option T)
  | yield (dest : T)

namespace Sys

variable [DecidableEq T]

/-- One event. -/
def next (L : Layout T) (s : Sys T) : Event T → Sys T
  | .thread h => { s with hart := h }
  | .interrupt c dest =>
    { hart := run 0 (swHandler L.vars c) s.hart.trap
      cur := dest.getD s.cur
      ctx := Function.update s.ctx s.cur (Ctx.ofInterrupt s.hart) }
  | .yield dest =>
    { hart := run 0 rtHwContextSwitch s.hart
      cur := dest
      ctx := Function.update s.ctx s.cur (Ctx.ofCall s.hart) }

/-- The threads from a given situation on. -/
def machine (L : Layout T) (s₀ : Sys T) : Machine (Sys T) (Event T) := ⟨s₀, next L⟩

/-- Every thread but the running one is suspended. -/
def Ready (L : Layout T) (s : Sys T) : Prop := ∀ σ, σ ≠ s.cur → Suspended L s.hart.mem σ (s.ctx σ)

/-- What the events may be: a thread leaves alone what belongs to the others; whoever is suspended has room for a
frame on its stack; the C code keeps to the calling convention and off the stacks, and the switch variables name
the threads it means; a call names the caller and the thread it gives the hart to. -/
def Allowed (L : Layout T) (s : Sys T) : Event T → Prop
  | .thread h => ∀ σ, σ ≠ s.cur → ∀ b ∈ L.own σ, h.mem b = s.hart.mem b
  | .interrupt c dest => L.Room s.cur (s.hart.x sp) ∧ c.Keep L.owned ∧
      Directs L (steps (swCall c ++ swTest L.vars) (steps swSave s.hart.trap)).mem s.cur dest
  | .yield dest => L.Room s.cur (s.hart.x sp) ∧ s.hart.x a0 = L.cell s.cur ∧ s.hart.x a1 = L.cell dest

/-- The word at the stack pointer is spared in this event: nothing is saved, or `t0` is there already. -/
def SparesStack (s : Sys T) : Event T → Prop
  | .thread _ => True
  | _ => Spared s.hart

/-- The save of this event, if it has one, parks `t0` where it harms no other thread. -/
def SparesOthers (L : Layout T) (s : Sys T) : Event T → Prop
  | .thread _ => True
  | _ => ParksAside L s.cur s.hart

omit [DecidableEq T] in
/-- What spares every stack spares those of the others. -/
theorem SparesStack.others {s : Sys T} {e : Event T} (h : SparesStack s e) : SparesOthers L s e := by
  cases e with
  | thread => trivial
  | interrupt => exact Or.inl h
  | yield => exact Or.inl h

/-- One event keeps the other threads suspended and resumes the thread it goes to. -/
theorem next_ready {s : Sys T} {e : Event T} (hready : Ready L s) (ha : Allowed L s e) (hs : SparesOthers L s e) :
    Ready L (next L s e) ∧
      ((∃ h, e = .thread h) ∨ Resumes (next L s e).hart ((next L s e).ctx (next L s e).cur)) := by
  cases e with
  | thread h => exact ⟨fun σ hσ => (hready σ hσ).congr fun b hb => ha σ hσ b hb, Or.inl ⟨h, rfl⟩⟩
  | interrupt c dest =>
    obtain ⟨hroom, hc, hdir⟩ := ha
    obtain ⟨hres, hsus⟩ := swHandler_resumes hc hs hroom hready hdir
    exact ⟨hsus, Or.inr hres⟩
  | yield dest =>
    obtain ⟨hroom, ha0, ha1⟩ := ha
    obtain ⟨hres, hsus⟩ := rtHwContextSwitch_resumes hs hroom ha0 ha1 hready
    exact ⟨fun σ _ => hsus σ, Or.inr hres⟩

/-- The invariant over whole runs. -/
theorem ready_run {s₀ : Sys T} (h0 : Ready L s₀) {w : Nat → Event T}
    (hw : (machine L s₀).Respects (Allowed L) w) (hs : (machine L s₀).Respects (SparesOthers L) w) (n : Nat) :
    Ready L ((machine L s₀).run w n) :=
  Machine.run_invariant (E := fun s e => Allowed L s e ∧ SparesOthers L s e) h0
    (fun _ _ hr he => (next_ready hr he.1 he.2).1) (fun n => ⟨hw n, hs n⟩) n

end Sys

end Rtos

end SocRV
