import SocRV.Rtos.Threads

/-!
# The context switch is transparent

A thread that gets the hart back goes on in the context in which it was suspended, and what it keeps on its stack
is not written by the save code, as long as the word at its stack pointer is spared.  The save code parks `t0` in
that word while it reads `fcsr`: the slot is the upper half of an eight-byte `fcsr` slot, and it lies outside the
frame when floating-point registers have four bytes.
-/

namespace SocRV

namespace Rtos

open Instr ByteMemory

/-- In every run of any number of threads in which the word at the stack pointer is spared: a thread that gets the
hart resumes in the context of its suspension; the save of an interrupted thread leaves every byte from its stack
pointer on and every byte outside its stack; the save of a thread that gives the hart away does so too but for the
word of its control block that receives its stack pointer. -/
theorem context_switch_transparent {T : Type*} [DecidableEq T] {L : Layout T} {s₀ : Sys T} (h0 : s₀.Ready L)
    {w : Nat → Event T} (hw : (Sys.machine L s₀).Respects (Sys.Allowed L) w)
    (hs : (Sys.machine L s₀).Respects Sys.SparesStack w) (n : Nat) :
    let s := (Sys.machine L s₀).run w n
    let s' := (Sys.machine L s₀).run w (n + 1)
    ((∃ h, w n = .thread h) ∨ Resumes s'.hart (s'.ctx s'.cur)) ∧
    (∀ c dest, w n = .interrupt c dest → ∀ b : BitVec 32,
      (s.hart.x sp).toNat ≤ b.toNat ∨ b ∉ L.stack s.cur → (steps swSave s.hart.trap).mem b = s.hart.mem b) ∧
    (∀ dest, w n = .yield dest → ∀ b : BitVec 32, (s.hart.x sp).toNat ≤ b.toNat ∨ b ∉ L.stack s.cur →
      b ∉ word (L.cell s.cur) → (run 0 switchPush s.hart).mem b = s.hart.mem b) := by
  intro s s'
  have hready : s.Ready L := Sys.ready_run h0 hw (fun k => (hs k).others) n
  have ha : s.Allowed L (w n) := hw n
  have hspare : s.SparesStack (w n) := hs n
  have hout : ∀ b : BitVec 32, L.Room s.cur (s.hart.x sp) → (s.hart.x sp).toNat ≤ b.toNat ∨ b ∉ L.stack s.cur →
      b ∉ frame (s.hart.x sp) := by
    rintro b hroom hb hf
    obtain ⟨hlo, hlt⟩ := Layout.frame_subset hroom hf
    rcases hb with hb | hb
    · omega
    · exact hb ⟨hlo, hlt.trans_le hroom.2⟩
  refine ⟨(Sys.next_ready hready ha hspare.others).2, fun c dest he b hb => ?_, fun dest he b hb hcell => ?_⟩
  · rw [he] at ha hspare
    exact swSave_of_not_mem_frame (h := s.hart.trap) (Or.inl hspare) (hout b ha.1 hb)
  · rw [he] at ha hspare
    rw [run_switchPush]
    rw [← ha.2.1] at hcell
    exact switched_of_not_mem_frame (Or.inl hspare) (hout b ha.1 hb) hcell

/-- Two threads with a page of stack each. -/
def twoThreads : Layout Bool where
  lo := fun σ => if σ then 0x3000 else 0x1000
  hi := fun σ => if σ then 0x4000 else 0x2000
  cell := fun σ => if σ then 0x5010 else 0x5000
  vars := ⟨0x6000, 0x6004, 0x6008⟩
  hi_le := by decide
  stack_stack := by decide
  cell_cell := by
    intro σ τ hne
    rw [Set.disjoint_left]
    intro b h1 h2
    rw [mem_word] at h1 h2
    cases σ <;> cases τ <;> simp [BitVec.toNat_sub] at * <;> omega
  stack_cell := by
    intro σ τ
    rw [Set.disjoint_left]
    intro b h1 h2
    rw [mem_word] at h2
    cases σ <;> cases τ <;> simp [BitVec.toNat_sub] at * <;> omega
  vars_stack := by
    intro a ha σ
    rw [Set.disjoint_left]
    intro b h1 h2
    rw [mem_word] at h1
    simp only [List.mem_cons, List.not_mem_nil, or_false] at ha
    rcases ha with rfl | rfl | rfl <;> cases σ <;> simp [BitVec.toNat_sub] at * <;> omega
  vars_cell := by
    intro a ha σ
    rw [Set.disjoint_left]
    intro b h1 h2
    rw [mem_word] at h1 h2
    simp only [List.mem_cons, List.not_mem_nil, or_false] at ha
    rcases ha with rfl | rfl | rfl <;> cases σ <;> simp [BitVec.toNat_sub] at * <;> omega
  flag_vars := by
    intro a ha
    rw [Set.disjoint_left]
    intro b h1 h2
    rw [mem_word] at h1 h2
    simp only [List.mem_cons, List.not_mem_nil, or_false] at ha
    rcases ha with rfl | rfl <;> simp [BitVec.toNat_sub] at * <;> omega

/-- A running thread about to give the hart away, and a second one that `rt_hw_stack_init` set up. -/
def yielding : Sys Bool where
  hart :=
    { pc := 0x100
      x := fun r => if r = sp then 0x1f00 else if r = ra then 0x104 else if r = a0 then 0x5000
        else if r = a1 then 0x5010 else 0
      f := fun _ => 0
      csr := fun _ => 0
      mem := (rtHwStackInit (fun _ => 0) 0x200 7 0x3ffc 0x300).2.storeWord (twoThreads.cell true)
        (rtHwStackInit (fun _ => 0) 0x200 7 0x3ffc 0x300).1 }
  cur := false
  ctx := fun _ => Ctx.initial 0x200 7 0x3ffc 0x300

/-- Both threads are ready. -/
theorem yielding_ready : yielding.Ready twoThreads := by
  intro σ hσ
  obtain rfl : σ = true := by cases σ <;> simp_all [yielding]
  have hroom : twoThreads.Room true ((0x3ffc + 4) &&& ~~~15) := by decide
  exact suspended_rtHwStackInit hroom

/-- The first thread gives the hart to the second one, which then rests. -/
def yieldOnce : Nat → Event Bool
  | 0 => .yield true
  | _ => .thread (run 0 rtHwContextSwitch yielding.hart)

/-- After the first event the hart has run the switch. -/
theorem yieldOnce_hart : ∀ n, ((Sys.machine twoThreads yielding).run yieldOnce (n + 1)).hart =
    run 0 rtHwContextSwitch yielding.hart
  | 0 => by simp only [Machine.run, Sys.machine, Sys.next, yieldOnce]
  | _ + 1 => by simp only [Machine.run, Sys.machine, Sys.next, yieldOnce]

/-- The hart goes on at the entry of the second thread, at the top of its stack. -/
example : (run 0 rtHwContextSwitch yielding.hart).pc = 0x200 ∧
    (run 0 rtHwContextSwitch yielding.hart).x sp = 0x4000 := by
  decide +kernel

/-- The thread that runs may call the switch. -/
theorem yieldOnce_allowed : (Sys.machine twoThreads yielding).Respects (Sys.Allowed twoThreads) yieldOnce
  | 0 => ⟨by decide, rfl, rfl⟩
  | n + 1 => fun _ _ _ _ => by rw [yieldOnce_hart]

/-- The switch of a call leaves the word at the stack pointer as it was. -/
theorem yieldOnce_spares : (Sys.machine twoThreads yielding).Respects Sys.SparesStack yieldOnce
  | 0 => show Spared _ by decide +kernel
  | _ + 1 => trivial

theorem context_switch_transparent_yieldOnce :
    ((Sys.machine twoThreads yielding).run yieldOnce 1).hart.pc = 0x200 ∧
    ((Sys.machine twoThreads yielding).run yieldOnce 1).hart.x a0 = 7 := by
  rcases (context_switch_transparent yielding_ready yieldOnce_allowed yieldOnce_spares 0).1 with ⟨h, hh⟩ | hres
  · exact absurd hh (by simp [yieldOnce])
  · exact ⟨hres.pc, hres.x a0 (by decide)⟩

/-- The same threads with another value in `t0`, which is not what the running thread keeps at its stack
pointer. -/
def interrupted : Sys Bool :=
  { yielding with hart := { yielding.hart with x := fun r => if r = t0 then 0x41 else yielding.hart.x r } }

/-- C code that does nothing. -/
def idle : Callees := ⟨id, id, id⟩

/-- An empty handler keeps everything. -/
theorem idle_keep (P : Set (BitVec 32)) : idle.Keep P := by
  constructor <;> simp [idle]

/-- An interrupt whose handler asks for no switch. -/
def interruptOnce : Nat → Event Bool
  | 0 => .interrupt idle none
  | _ => .thread (run 0 (swHandler twoThreads.vars idle) interrupted.hart.trap)

/-- After the first event the hart has run the handler. -/
theorem interruptOnce_hart : ∀ n, ((Sys.machine twoThreads interrupted).run interruptOnce (n + 1)).hart =
    run 0 (swHandler twoThreads.vars idle) interrupted.hart.trap
  | 0 => by simp only [Machine.run, Sys.machine, Sys.next, interruptOnce]
  | _ + 1 => by simp only [Machine.run, Sys.machine, Sys.next, interruptOnce]

/-- An interrupt that asks for no switch overwrites the word at the stack pointer of the interrupted thread. -/
theorem context_switch_clobbers_stack :
    interrupted.Ready twoThreads ∧
    (Sys.machine twoThreads interrupted).Respects (Sys.Allowed twoThreads) interruptOnce ∧
    interrupted.hart.x sp = 0x1f00 ∧ (0x1f00 : BitVec 32) ∈ twoThreads.stack interrupted.cur ∧
    interrupted.hart.mem 0x1f00 = 0 ∧ (steps swSave interrupted.hart.trap).mem 0x1f00 = 0x41 ∧
    ((Sys.machine twoThreads interrupted).run interruptOnce 1).hart.mem 0x1f00 = 0x41 := by
  refine ⟨yielding_ready, ?_, rfl, ⟨by decide, by decide⟩, by decide +kernel, by decide +kernel, ?_⟩
  · intro n
    cases n with
    | zero => exact ⟨by decide, idle_keep _, show _ = _ by decide +kernel⟩
    | succ n => exact fun _ _ _ _ => by rw [interruptOnce_hart]
  · rw [interruptOnce_hart]
    decide +kernel

end Rtos

end SocRV
