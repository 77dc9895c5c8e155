import SocRV.Rtos.Threads

/-!
# The interrupt enable of the threads

Each save leaves the interrupt enable of its thread in the third word of the frame, as the previous enable of
`mstatus`.  The two restore paths rebuild `mstatus` from that word differently: `rt_hw_context_switch_exit` writes
the register first, the end of `SW_handler` only sets bits on top of what the trap left.
-/

namespace SocRV

/-- The interrupt enable of a hart, bit 3 of `mstatus`. -/
def Hart.enabled (h : Hart) : Bool := (h.csr .mstatus).getLsbD 3

/-- Its value before the trap, bit 7. -/
def Hart.enabledBefore (h : Hart) : Bool := (h.csr .mstatus).getLsbD 7

namespace Rtos

open Instr ByteMemory

/-! ## Through a trap and back -/

/-- Masking with one bit tells that bit. -/
theorem and_bit_eq_zero (w : BitVec 32) {k : Nat} (hk : k < 32) :
    w &&& BitVec.twoPow 32 k = 0 ↔ w.getLsbD k = false := by
  rw [BitVec.and_twoPow]
  cases w.getLsbD k with
  | false => simp
  | true =>
    refine ⟨fun h => ?_, fun h => absurd h (by simp)⟩
    have hbit := congrArg (fun v => BitVec.getLsbD v k) h
    simp [hk] at hbit

/-- `mret` restores the interrupt enable. -/
theorem mret_enabled (h : Hart) : h.mret.enabled = h.enabledBefore := by
  have hbit : h.csr .mstatus &&& Hart.mpie = 0 ↔ _ := and_bit_eq_zero (h.csr .mstatus) (k := 7) (by omega)
  simp only [Hart.mret, Hart.enabled, Hart.enabledBefore, Hart.setCsr, if_true]
  cases hb : (h.csr .mstatus).getLsbD 7 with
  | false =>
    rw [if_pos (hbit.mpr hb)]
    simp [Hart.mie, Hart.mpie]
  | true =>
    rw [if_neg fun hz => absurd (hbit.mp hz) (by simp [hb])]
    simp [Hart.mie, Hart.mpie]

/-- A trap keeps the interrupt enable for its return. -/
theorem trap_enabledBefore (h : Hart) : h.trap.enabledBefore = h.enabled := by
  have hbit : h.csr .mstatus &&& Hart.mie = 0 ↔ _ := and_bit_eq_zero (h.csr .mstatus) (k := 3) (by omega)
  simp only [Hart.trap, Hart.enabled, Hart.enabledBefore, Hart.setCsr, if_true, reduceCtorEq, if_false]
  cases hb : (h.csr .mstatus).getLsbD 3 with
  | false =>
    rw [if_pos (hbit.mpr hb)]
    simp [Hart.mie, Hart.mpie]
  | true =>
    rw [if_neg fun hz => absurd (hbit.mp hz) (by simp [hb])]
    simp [Hart.mie, Hart.mpie]

/-- The third word of the frame at `sp`, of which both restores use the bit of the previous enable. -/
def recorded (m : ByteMemory) (base : BitVec 32) : Bool := (m.loadWord (slot base 2)).getLsbD 7

/-- The end of both restores leaves the enable that `mstatus` has for it. -/
theorem restoreRegs_enabled (h : Hart) : (steps restoreRegs h).enabled = h.enabledBefore := by
  have hsp : sp ∉ regs4 := by decide
  rw [restoreRegs, steps_append, steps_append, steps_append, steps_loadRegs hsp, steps_loadFregs]
  simp only [steps_cons, steps_nil, step, mret_enabled]
  rfl

/-- `SW_handler` ends with the recorded enable set on top of the one before the trap. -/
theorem swRestore_enabled (h : Hart) :
    (steps swRestore h).enabled = (h.enabledBefore || recorded h.mem (h.x sp)) := by
  rw [swRestore, steps_append, restoreRegs_enabled]
  simp only [steps_cons, steps_nil, step, Hart.get, Hart.set, Hart.setCsr, Hart.enabledBefore, recorded,
    show sp ≠ 0 by decide, show t0 ≠ 0 by decide, show sp ≠ t0 by decide, show sp ≠ ra by decide, if_true, if_false,
    add_regs, reduceCtorEq, BitVec.getLsbD_or]
  simp

/-- `rt_hw_context_switch_exit` ends with the recorded enable. -/
theorem exit_enabled (h : Hart) : (steps rtHwContextSwitchExit h).enabled = recorded h.mem (h.x sp) := by
  rw [rtHwContextSwitchExit, steps_append, restoreRegs_enabled]
  simp only [steps_cons, steps_nil, step, Hart.get, Hart.set, Hart.setCsr, Hart.enabledBefore, recorded,
    show sp ≠ 0 by decide, show t0 ≠ 0 by decide, show a0 ≠ 0 by decide, show sp ≠ t0 by decide,
    show sp ≠ ra by decide, show sp ≠ a0 by decide, if_true, if_false, add_regs, reduceCtorEq, BitVec.getLsbD_or]
  simp

/-! ## What the saves record -/

/-- `SW_handler` records an enable, whatever the interrupted thread had. -/
theorem swSave_recorded (h : Hart) : recorded (steps swSave h).mem (frameBase (h.x sp)) = true := by
  have hread : (steps swSave h).mem.loadWord (slot (frameBase (h.x sp)) 2) = 0x80 := by
    rw [steps_swSave]
    exact loadWord_storeSlots (fun p hp => (lt_of_mem_swSlots h p hp).trans (by omega)) (nodup_swSlots h)
      (by simp [swSlots])
  rw [recorded, hread]
  rfl

/-- `rt_hw_context_switch` records the enable of its caller. -/
theorem switched_recorded (h : Hart) : recorded (switched h).mem (frameBase (h.x sp)) = h.enabled := by
  have hread : (switched h).mem.loadWord (slot (frameBase (h.x sp)) 2) = savedMie h :=
    loadWord_storeSlots (fun p hp => (lt_of_mem_switchSlots h p hp).trans (by omega)) (nodup_switchSlots h)
      (List.mem_append_left _ (by simp))
  have hbit : h.csr .mstatus &&& 8 = 0 ↔ _ := and_bit_eq_zero (h.csr .mstatus) (k := 3) (by omega)
  rw [recorded, hread, savedMie, Hart.enabled]
  cases hb : (h.csr .mstatus).getLsbD 3 with
  | false =>
    rw [if_pos (hbit.mpr hb)]
    rfl
  | true =>
    rw [if_neg fun hz => absurd (hbit.mp hz) (by simp [hb])]
    rfl

/-- A record stays as long as nobody writes what belongs to its thread. -/
theorem recorded_congr {T : Type*} {L : Layout T} {σ : T} {m m' : ByteMemory} {a : BitVec 32} (hroom : L.Room σ a)
    (hm : ∀ b ∈ L.own σ, m' b = m b) : recorded m' (frameBase a) = recorded m (frameBase a) := by
  rw [recorded, recorded, loadWord_congr fun b hb =>
    hm b (Or.inl (Layout.frame_subset_stack hroom (word_slot_subset_frame (by omega) hb)))]

/-! ## One switch -/

/-- What the C code under `SW_handler` is trusted with besides: it leaves the enable from before the trap. -/
def Callees.KeepEnable (c : Callees) : Prop :=
  ∀ g ∈ [c.rtInterruptEnter, c.rtHwDoAfterSaveAbove, c.rtInterruptLeave], ∀ h : Hart,
    (g h).enabledBefore = h.enabledBefore

/-- When the C code returns, `mstatus` still has the enable of the interrupted thread. -/
theorem swCall_enabledBefore {c : Callees} (hc : c.KeepEnable) (v : SwitchVars) (h : Hart) :
    (steps (swCall c ++ swTest v) (steps swSave h.trap)).enabledBefore = h.enabled := by
  simp only [Callees.KeepEnable, List.forall_mem_cons, List.not_mem_nil, IsEmpty.forall_iff, implies_true,
    and_true] at hc
  obtain ⟨h1, h2, h3⟩ := hc
  have hexch : ∀ g : Hart, (step g (csrrw sp .mscratch sp)).enabledBefore = g.enabledBefore := fun _ => rfl
  have hcall : ∀ (f : Hart → Hart) (g : Hart), step g (call f) = f g := fun _ _ => rfl
  have htest : ∀ g : Hart, (steps (swTest v) g).enabledBefore = g.enabledBefore := fun _ => rfl
  have hsave : (steps swSave h.trap).enabledBefore = h.trap.enabledBefore := by
    rw [steps_swSave]
    simp [Hart.enabledBefore]
  rw [steps_append, htest]
  simp only [swCall, steps_cons, steps_nil]
  rw [hexch, hcall, h3, hcall, h2, hcall, h1, hexch, hsave, trap_enabledBefore]

/-- Exchanging the thread leaves the interrupt enable kept. -/
theorem swSwitch_enabledBefore (v : SwitchVars) (h : Hart) :
    (steps (swSwitch v) h).enabledBefore = h.enabledBefore := rfl

section Switch

variable {T : Type*} [DecidableEq T] {L : Layout T} {σ τ : T} {h : Hart} {ctx : T → Ctx} {mie : T → Bool}

/-- The frames of the threads but one record the given enables. -/
def Records (m : ByteMemory) (ctx : T → Ctx) (mie : T → Bool) (σ : T) : Prop :=
  ∀ τ, τ ≠ σ → recorded m (frameBase (ctx τ).sp) = mie τ

/-- After the save code of `rt_hw_context_switch` the frame of every thread records its enable. -/
theorem switched_records (hs : ParksAside L σ h) (hroom : L.Room σ (h.x sp)) (ha0 : h.x a0 = L.cell σ)
    (hsus : ∀ τ, τ ≠ σ → Suspended L h.mem τ (ctx τ)) (hrec : Records h.mem ctx mie σ) (ρ : T) :
    recorded (switched h).mem (frameBase (Function.update ctx σ (Ctx.ofCall h) ρ).sp) =
      Function.update mie σ h.enabled ρ := by
  by_cases hρ : ρ = σ
  · subst hρ
    rw [Function.update_self, Function.update_self]
    exact switched_recorded h
  · rw [Function.update_of_ne hρ, Function.update_of_ne hρ, ← hrec ρ hρ]
    refine recorded_congr (hsus ρ hρ).room fun b hb => switched_of_not_mem_frame (hs.not_mem hρ hb) ?_ ?_
    · exact Layout.not_mem_frame_of_own (Ne.symm hρ) hroom hb
    · rw [ha0]
      exact fun hw => Set.disjoint_left.mp (Layout.disjoint_own hρ) hb (Or.inr hw)

/-- `rt_hw_context_switch` runs the thread it goes to with the enable recorded for it, and records the enable of
its caller. -/
theorem rtHwContextSwitch_enabled (hs : ParksAside L σ h) (hroom : L.Room σ (h.x sp)) (ha0 : h.x a0 = L.cell σ)
    (ha1 : h.x a1 = L.cell τ) (hsus : ∀ τ, τ ≠ σ → Suspended L h.mem τ (ctx τ)) (hrec : Records h.mem ctx mie σ) :
    let h' := run 0 rtHwContextSwitch h
    Records h'.mem (Function.update ctx σ (Ctx.ofCall h)) (Function.update mie σ h.enabled) τ ∧
    h'.enabled = Function.update mie σ h.enabled τ := by
  intro h'
  have hall := switched_suspends hs hroom ha0 hsus
  have hrec' := switched_records hs hroom ha0 hsus hrec
  have hrun : h' = steps rtHwContextSwitchExit (step (switched h) (lw sp (bytes 0) a1)) := run_rtHwContextSwitch h
  have hsp := switched_sp ha1 (hall τ)
  have hmem := (exit_resumes (h := step (switched h) (lw sp (bytes 0) a1)) (hall τ).frame (hall τ).regs hsp).2
  rw [hrun]
  refine ⟨fun ρ _ => ?_, ?_⟩
  · rw [hmem]
    exact hrec' ρ
  · rw [exit_enabled, hsp]
    exact hrec' τ

/-- When the C code returns, the frame of the interrupted thread records an enable, and the others what they did. -/
theorem swCall_records {c : Callees} (hc : c.Keep L.owned) (hs : ParksAside L σ h) (hroom : L.Room σ (h.x sp))
    (hsus : ∀ τ, τ ≠ σ → Suspended L h.mem τ (ctx τ)) (hrec : Records h.mem ctx mie σ) (ρ : T) :
    recorded (steps (swCall c ++ swTest L.vars) (steps swSave h.trap)).mem
      (frameBase (Function.update ctx σ (Ctx.ofInterrupt h) ρ).sp) = Function.update mie σ true ρ := by
  by_cases hρ : ρ = σ
  · subst hρ
    rw [Function.update_self, Function.update_self]
    obtain ⟨-, -, hmem, -, -⟩ := steps_swCall hc L.vars (steps swSave h.trap)
    refine (recorded_congr hroom fun b hb => hmem b ⟨ρ, hb⟩).trans ?_
    exact swSave_recorded h.trap
  · rw [Function.update_of_ne hρ, Function.update_of_ne hρ, ← hrec ρ hρ]
    exact recorded_congr (hsus ρ hρ).room fun b hb => swCall_keeps hc hs hroom hρ hb

omit [DecidableEq T] in
/-- The exchange in `SW_handler` leaves what the frames record. -/
theorem swSwitch_recorded {g : Hart} {a : BitVec 32} (hroom : L.Room σ (g.x sp)) (hsp : h.x sp = frameBase (g.x sp))
    (hepc : h.csr .mepc = g.pc) (ht0 : h.x t0 = L.vars.flag)
    (hfrom : h.mem.loadWord L.vars.fromThread = L.cell σ) (ha : a = g.x sp ∨ ∃ τ, τ ≠ σ ∧ L.Room τ a) :
    recorded (steps (swSwitch L.vars) h).mem (frameBase a) = recorded h.mem (frameBase a) := by
  rcases ha with rfl | ⟨τ, hτ, hroomτ⟩
  · rw [recorded, recorded, loadWord_congr fun b hb =>
      swSwitch_keeps_slot hroom hsp hepc ht0 hfrom (k := 2) (by omega) (by omega) hb]
  · exact recorded_congr hroomτ fun b hb => swSwitch_keeps_own hroom hsp hepc ht0 hfrom hτ hb

/-- `SW_handler` runs the thread it goes to with interrupts enabled if the interrupted thread had them enabled or
an enable is recorded for the thread, and records an enable for the interrupted thread. -/
theorem swHandler_enabled {c : Callees} (hc : c.Keep L.owned) (hk : c.KeepEnable) (hs : ParksAside L σ h)
    (hroom : L.Room σ (h.x sp)) (hsus : ∀ τ, τ ≠ σ → Suspended L h.mem τ (ctx τ)) (hrec : Records h.mem ctx mie σ)
    {dest : Option T} (hto : Directs L (steps (swCall c ++ swTest L.vars) (steps swSave h.trap)).mem σ dest) :
    let h' := run 0 (swHandler L.vars c) h.trap
    Records h'.mem (Function.update ctx σ (Ctx.ofInterrupt h)) (Function.update mie σ true) (dest.getD σ) ∧
    h'.enabled = (h.enabled || Function.update mie σ true (dest.getD σ)) := by
  intro h'
  obtain ⟨hsaved, hsp, hepc, ht0, ht2, hsus'⟩ := swCall_saves hc hs hroom hsus
  have hrec' := swCall_records hc hs hroom hsus hrec
  have hbefore := swCall_enabledBefore hk L.vars h
  have hrun : h' = _ := run_swHandler L.vars c h.trap
  have hget : ∀ g : Hart, g.get t2 = g.x t2 := fun _ => rfl
  simp only [hget, ht2] at hrun
  cases dest with
  | none =>
    have hflag : _ = _ := hto
    rw [if_pos hflag] at hrun
    have hmem := (swRestore_resumes hsaved (List.Subset.refl _) hsp hepc).2
    rw [hrun, Option.getD_none]
    refine ⟨fun ρ _ => ?_, ?_⟩
    · rw [hmem]
      exact hrec' ρ
    · rw [swRestore_enabled, hbefore, hsp, ← hrec' σ, Function.update_self]
      rfl
  | some τ =>
    obtain ⟨hflag, hfrom, hto⟩ := hto
    rw [if_neg hflag] at hrun
    obtain ⟨hall, hsp2, hepc2⟩ := swSwitch_suspends hsaved hroom hsp hepc ht0 hfrom hto hsus'
    have hmem := (swRestore_resumes (hall τ).frame.toSavedAt (hall τ).regs hsp2 hepc2).2
    have hkeep : ∀ ρ, recorded
        (steps (swSwitch L.vars) (steps (swCall c ++ swTest L.vars) (steps swSave h.trap))).mem
        (frameBase (Function.update ctx σ (Ctx.ofInterrupt h) ρ).sp) = Function.update mie σ true ρ := by
      intro ρ
      refine (swSwitch_recorded hroom hsp hepc ht0 hfrom ?_).trans (hrec' ρ)
      by_cases hρ : ρ = σ
      · subst hρ
        rw [Function.update_self]
        exact Or.inl rfl
      · exact Or.inr ⟨ρ, hρ, (hall ρ).room⟩
    rw [hrun]
    refine ⟨fun ρ _ => ?_, ?_⟩
    · rw [hmem]
      exact hkeep ρ
    · rw [swRestore_enabled, swSwitch_enabledBefore, hbefore, hsp2, hkeep τ, Option.getD_some]

end Switch

/-! ## Whole runs -/

/-- The threads on the hart, with the interrupt enable each of them had when it was last suspended. -/
structure Marked (T : Type*) where
  sys : Sys T
  mie : T → Bool

namespace Marked

variable {T : Type*} [DecidableEq T] {L : Layout T} {s : Marked T} {e : Event T}

/-- One event; it suspends the running thread unless that just computes. -/
def next (L : Layout T) (s : Marked T) (e : Event T) : Marked T where
  sys := s.sys.next L e
  mie := match e with
    | .thread _ => s.mie
    | _ => Function.update s.mie s.sys.cur s.sys.hart.enabled

/-- The threads from a given situation on. -/
def machine (L : Layout T) (s₀ : Marked T) : Machine (Marked T) (Event T) := ⟨s₀, next L⟩

/-- Every thread but the running one is suspended, with its interrupt enable in its frame. -/
structure Ready (L : Layout T) (s : Marked T) : Prop where
  sys : s.sys.Ready L
  records : Records s.sys.hart.mem s.sys.ctx s.mie s.sys.cur

/-- What the events may be: as before, and an interrupt comes to a hart with interrupts enabled and leaves it to
C code that keeps the enable from before the trap. -/
def Allowed (L : Layout T) (s : Marked T) (e : Event T) : Prop :=
  s.sys.Allowed L e ∧ ∀ c dest, e = .interrupt c dest → s.sys.hart.enabled = true ∧ c.KeepEnable

/-- The save of the event, if it has one, parks `t0` where it harms no other thread. -/
def SparesOthers (L : Layout T) (s : Marked T) (e : Event T) : Prop := s.sys.SparesOthers L e

/-- The event is `SW_handler` exchanging the interrupted thread for one that was suspended with interrupts
disabled. -/
def SetsOnTop (s : Marked T) : Event T → Prop
  | .interrupt _ (some τ) => τ ≠ s.sys.cur ∧ s.mie τ = false
  | _ => False

/-- The thread that gets the hart in this event runs with the interrupt enable it was suspended with. -/
def Travels (L : Layout T) (s : Marked T) : Event T → Prop
  | .thread _ => True
  | e => (s.next L e).sys.hart.enabled = (s.next L e).mie (s.next L e).sys.cur

/-- One event keeps the records, and the interrupt enable travels unless the event sets bits on top. -/
theorem next_ready (h : s.Ready L) (ha : s.Allowed L e) (hs : s.SparesOthers L e) :
    (s.next L e).Ready L ∧ (s.Travels L e ↔ ¬s.SetsOnTop e) := by
  have hsys : (s.next L e).sys.Ready L := (Sys.next_ready h.sys ha.1 hs).1
  cases e with
  | thread g =>
    refine ⟨⟨hsys, fun σ hσ => ?_⟩, iff_of_true trivial id⟩
    exact (recorded_congr (h.sys σ hσ).room (ha.1 σ hσ)).trans (h.records σ hσ)
  | yield dest =>
    obtain ⟨hroom, ha0, ha1⟩ := ha.1
    obtain ⟨hrec, hen⟩ := rtHwContextSwitch_enabled hs hroom ha0 ha1 h.sys h.records
    exact ⟨⟨hsys, hrec⟩, iff_of_true hen id⟩
  | interrupt c dest =>
    obtain ⟨hroom, hc, hdir⟩ := ha.1
    obtain ⟨hmie, hk⟩ := ha.2 c dest rfl
    obtain ⟨hrec, hen⟩ := swHandler_enabled hc hk hs hroom h.sys h.records hdir
    rw [hmie, Bool.true_or] at hen
    rw [← hmie] at hrec
    refine ⟨⟨hsys, hrec⟩, ?_⟩
    have htravels : s.Travels L (.interrupt c dest) ↔
        true = Function.update s.mie s.sys.cur s.sys.hart.enabled (dest.getD s.sys.cur) :=
      Eq.congr hen rfl
    rw [htravels, hmie]
    cases dest with
    | none => simp [SetsOnTop]
    | some τ =>
      by_cases hτ : τ = s.sys.cur
      · simp [SetsOnTop, hτ]
      · rw [Option.getD_some, Function.update_of_ne hτ]
        simp [SetsOnTop, hτ]

/-- The invariant over whole runs. -/
theorem ready_run {s₀ : Marked T} (h0 : s₀.Ready L) {w : Nat → Event T}
    (hw : (machine L s₀).Respects (Allowed L) w)
    (hs : (machine L s₀).Respects (SparesOthers L) w) (n : Nat) :
    ((machine L s₀).run w n).Ready L :=
  Machine.run_invariant (E := fun s e => Allowed L s e ∧ SparesOthers L s e) h0
    (fun _ _ hr he => (next_ready hr he.1 he.2).1) (fun n => ⟨hw n, hs n⟩) n

end Marked

end Rtos

end SocRV
