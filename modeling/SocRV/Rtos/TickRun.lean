import SocRV.Rtos.Tick

/-!
# What the tick keeps

The registers the driver writes are followed through the stores that are still on their way: what they will be is
changed by a store when it is posted, and no longer when it is performed.
-/

namespace SocRV

namespace Tick

open SplitCounter

/-! ## The registers the driver writes -/

/-- The registers that decide about the requests, apart from the time. -/
structure TickRegs where
  mtimecmp : BitVec 64
  timerCtrl : BitVec 2
  softwareIrq : Bool

/-- The registers of the peripherals. -/
def regsOf (s : TickSources) : TickRegs := ⟨s.timer.mtimecmp, s.timer.timerCtrl, s.softwareIrq⟩

namespace TickRegs

/-- The registers at a given time. -/
def atTime (r : TickRegs) (mtime : BitVec 64) : TickSources := ⟨⟨mtime, r.mtimecmp, r.timerCtrl⟩, r.softwareIrq⟩

/-- The registers after a store. -/
def store (r : TickRegs) (p : Payload) : TickRegs := regsOf ((r.atTime 0).next (some p))

end TickRegs

/-- A store to `mtime`. -/
def setsTime (p : Payload) : Bool :=
  p.write && timerSel p && (p.addr.extractLsb' 2 6 == 0x00 || p.addr.extractLsb' 2 6 == 0x01)

/-- A store to `mtimecmp`. -/
def setsCompare (p : Payload) : Bool :=
  p.write && timerSel p && (p.addr.extractLsb' 2 6 == 0x02 || p.addr.extractLsb' 2 6 == 0x03)

/-- What a store does to the registers does not depend on the time. -/
theorem regsOf_next (s : TickSources) (p : Payload) : regsOf (s.next (some p)) = (regsOf s).store p := by
  unfold TickRegs.store regsOf TickRegs.atTime TickSources.next MachineTimer.next
  dsimp only
  by_cases hsel : timerSel p = true
  · rw [Option.filter_some_pos hsel]
    dsimp only
    split_ifs <;> rfl
  · rw [Option.filter_some_neg (Bool.not_eq_true _ ▸ hsel)]

/-- A request changes the register of the timer that it stores to, and no other. -/
theorem timer_next (s : TickSources) (req : Option Payload) :
    ((∀ p ∈ req, setsTime p = false) → (s.next req).timer.mtime = s.timer.count) ∧
    ((∀ p ∈ req, setsCompare p = false) → (s.next req).timer.mtimecmp = s.timer.mtimecmp) := by
  unfold TickSources.next MachineTimer.next setsTime setsCompare
  cases req with
  | none => exact ⟨fun _ => rfl, fun _ => rfl⟩
  | some p =>
    dsimp only
    by_cases hstore : p.write = true ∧ timerSel p = true
    · obtain ⟨hwrite, hsel⟩ := hstore
      rw [Option.filter_some_pos hsel]
      simp only [Option.mem_some, forall_eq', hwrite, hsel, Bool.and_true, Bool.true_and, Bool.or_eq_false_iff,
        beq_eq_false_iff_ne, Bool.not_true, Bool.false_eq_true, if_false]
      refine ⟨fun ⟨h0, h1⟩ => ?_, fun ⟨h2, h3⟩ => ?_⟩
      · rw [if_neg h0, if_neg h1]
        split_ifs <;> rfl
      · rw [if_neg h2, if_neg h3]
        split_ifs <;> rfl
    · by_cases hsel : timerSel p = true
      · have hread : p.write = false := Bool.not_eq_true _ ▸ fun hwrite => hstore ⟨hwrite, hsel⟩
        rw [Option.filter_some_pos hsel]
        dsimp only
        rw [hread]
        exact ⟨fun _ => rfl, fun _ => rfl⟩
      · rw [Option.filter_some_neg (Bool.not_eq_true _ ▸ hsel)]
        exact ⟨fun _ => rfl, fun _ => rfl⟩

/-- Without a store to it, the time goes on. -/
theorem mtime_next {s : TickSources} {req : Option Payload} (h : ∀ p ∈ req, setsTime p = false) :
    (s.next req).timer.mtime = s.timer.count :=
  (timer_next s req).1 h

/-- Without a store to it, the compare value stays. -/
theorem mtimecmp_next {s : TickSources} {req : Option Payload} (h : ∀ p ∈ req, setsCompare p = false) :
    (s.next req).timer.mtimecmp = s.timer.mtimecmp :=
  (timer_next s req).2 h

/-- The time does not go back before it wraps. -/
theorem mtime_le {s : TickSources} {req : Option Payload} (h : ∀ p ∈ req, setsTime p = false)
    (hlt : s.timer.mtime.toNat + 1 < 2 ^ 64) : s.timer.mtime.toNat ≤ (s.next req).timer.mtime.toNat := by
  rw [mtime_next h, MachineTimer.count]
  split
  · rw [BitVec.toNat_add, Nat.mod_eq_of_lt (by simpa using hlt)]
    exact Nat.le_add_right _ _
  · exact Nat.le_refl _

/-! ## The stores of the driver -/

section Stores

variable (r : TickRegs)

/-- All four strobes replace the word. -/
theorem mergeWstrb_all (old new : BitVec 32) : MachineTimer.mergeWstrb old new 0xf = new := by
  unfold MachineTimer.mergeWstrb
  apply BitVec.eq_of_getLsbD_eq
  intro i hi
  simp only [BitVec.getLsbD_append]
  grind

/-- A store to the timer. -/
theorem store_timer {a : BitVec 32} (v : BitVec 32) (h : timerSel (mmioWrite32 a 0) = true)
    (hsys : sysctrlSel (mmioWrite32 a 0) = false) : r.store (mmioWrite32 a v) =
      regsOf ⟨(r.atTime 0).timer.next (some (mmioWrite32 a v)), r.softwareIrq⟩ := by
  have h' : timerSel (mmioWrite32 a v) = true := h
  have hsys' : sysctrlSel (mmioWrite32 a v) = false := hsys
  unfold TickRegs.store regsOf TickSources.next
  dsimp only
  rw [Option.filter_some_pos h', hsys']
  rfl

/-- The store to the upper half of the compare register keeps the lower one. -/
theorem store_compareHigh (v : BitVec 32) :
    r.store (mmioWrite32 (timerBase + 0x0c) v) = { r with mtimecmp := v ++ lowOf r.mtimecmp } := by
  rw [store_timer r v (by decide) (by decide)]
  unfold MachineTimer.next mmioWrite32
  dsimp only
  rw [if_neg (by decide), if_neg (by decide), if_neg (by decide), if_neg (by decide), if_pos (by decide), mergeWstrb_all]
  rfl

/-- The store to the lower half of the compare register keeps the upper one. -/
theorem store_compareLow (v : BitVec 32) :
    r.store (mmioWrite32 (timerBase + 0x08) v) = { r with mtimecmp := highOf r.mtimecmp ++ v } := by
  rw [store_timer r v (by decide) (by decide)]
  unfold MachineTimer.next mmioWrite32
  dsimp only
  rw [if_neg (by decide), if_neg (by decide), if_neg (by decide), if_pos (by decide), mergeWstrb_all]
  rfl

/-- Starting the timer sets its control register. -/
theorem store_start : (timerStart true).foldl TickRegs.store r = { r with timerCtrl := 0b11 } := by
  show r.store (mmioWrite32 (timerBase + 0x10) 0b11) = _
  rw [store_timer r 0b11 (by decide) (by decide)]
  unfold MachineTimer.next mmioWrite32
  dsimp only
  rw [if_neg (by decide), if_neg (by decide), if_neg (by decide), if_neg (by decide), if_neg (by decide),
    if_pos (by decide), mergeWstrb_all]
  rfl

theorem store_trigger : r.store irqTriggerSoftware = { r with softwareIrq := true } := rfl

/-- A store that has nothing to do with the tick. -/
theorem store_other {p : Payload} (h : touchesTick p = false) : r.store p = r ∧ setsTime p = false := by
  unfold touchesTick at h
  rw [Bool.or_eq_false_iff] at h
  obtain ⟨hsel, hsys⟩ := h
  constructor
  · unfold TickRegs.store regsOf TickRegs.atTime TickSources.next TickSources.nextSoftwareIrq
    dsimp only
    rw [Option.filter_some_neg hsel]
    cases hs : sysctrlSel p with
    | false => rfl
    | true =>
      rw [hs, Bool.true_and] at hsys
      rw [hsys]
      simp [MachineTimer.next]
  · unfold setsTime
    rw [hsel, Bool.and_false, Bool.false_and]

/-- `timer_set_compare` sets the compare value. -/
theorem store_setCompare (d : BitVec 64) :
    (timerSetCompare d).foldl TickRegs.store r = { r with mtimecmp := d } := by
  unfold timerSetCompare
  rw [List.foldl_cons, List.foldl_cons, List.foldl_cons, List.foldl_nil, store_compareHigh, store_compareLow,
    store_compareHigh]
  dsimp only
  rw [lowOf_append, append_halves]

/-- Whether the time is set does not depend on the value. -/
theorem setsTime_mmioWrite32 (a v : BitVec 32) : setsTime (mmioWrite32 a v) = setsTime (mmioWrite32 a 0) := rfl

/-- The driver does not set the time. -/
theorem setsTime_setCompare (d : BitVec 64) : ∀ p ∈ timerSetCompare d, setsTime p = false := by
  intro p hp
  unfold timerSetCompare at hp
  simp only [List.mem_cons, List.not_mem_nil, or_false] at hp
  rcases hp with rfl | rfl | rfl <;> rw [setsTime_mmioWrite32] <;> decide

end Stores

/-! ## The invariant -/

namespace System

/-- The stores the handler is about to make. -/
def toCome (s : System) : List Payload :=
  match s.mode with
  | .posting stores _ => stores
  | _ => []

/-- Whether the deadline is moved and `rt_tick_increase` not called yet. -/
def ticking (s : System) : Bool :=
  match s.mode with
  | .posting _ tick => tick
  | _ => false

/-- What the registers are once every store is performed. -/
def final (s : System) : TickRegs := (s.posted ++ s.toCome).foldl TickRegs.store (regsOf s.sources)

/-- The peripherals once the posted stores are performed, at the present time. -/
def settled (s : System) : TickSources :=
  (s.posted.foldl TickRegs.store (regsOf s.sources)).atTime s.sources.timer.mtime

/-- An interrupt is requested, and no store on its way takes the request back. -/
def requested (s : System) : Bool := s.settled.timer.timerIrq || s.settled.softwareIrq

end System

/-- What every state of a run has that starts at `t₀` with the period `δ`. -/
structure Inv (t₀ δ : Nat) (s : System) : Prop where
  time : ∀ p ∈ s.posted ++ s.toCome, setsTime p = false
  delta : s.vars.tickDelta.toNat = δ
  compare : s.final.mtimecmp = s.vars.nextDeadline
  control : s.final.timerCtrl = 0b11
  deadline : s.vars.nextDeadline.toNat = t₀ + (s.ticks + 1 + s.ticking.toNat) * δ
  entered : s.mode = .entered → s.final.softwareIrq = true ∨ s.vars.nextDeadline ≤ s.sources.timer.mtime
  due : s.ticking = true → t₀ + (s.ticks + 1) * δ ≤ s.sources.timer.mtime.toNat

/-- What an action relies on: the time is more than a period away from wrapping, and an interrupt is taken on a request
that lasts. -/
def Allowed (δ : Nat) (s : System) (a : Action) : Prop :=
  s.sources.timer.mtime.toNat + δ < 2 ^ 64 ∧ (a = .take → s.requested = true)

section Step

variable {t₀ δ : Nat} {s s' : System}

/-- Nothing changes but the synchronisers and whether interrupts are enabled. -/
theorem Inv.of_eq (h : Inv t₀ δ s) (hsources : s'.sources = s.sources) (hposted : s'.posted = s.posted)
    (hvars : s'.vars = s.vars) (hticks : s'.ticks = s.ticks) (hcome : s'.toCome = s.toCome)
    (hticking : s'.ticking = s.ticking) (hentered : s'.mode = .entered → s.final.softwareIrq = true ∨
      s.vars.nextDeadline ≤ s.sources.timer.mtime) : Inv t₀ δ s' := by
  have hfinal : s'.final = s.final := by
    unfold System.final
    rw [hsources, hposted, hcome]
  refine ⟨?_, ?_, ?_, ?_, ?_, ?_, ?_⟩
  · rw [hposted, hcome]
    exact h.time
  · rw [hvars]
    exact h.delta
  · rw [hfinal, hvars]
    exact h.compare
  · rw [hfinal]
    exact h.control
  · rw [hvars, hticks, hticking]
    exact h.deadline
  · rw [hfinal, hvars, hsources]
    exact hentered
  · rw [hticking, hticks, hsources]
    exact h.due

/-- A peripheral clock edge: the registers go where they were going, and the time goes on. -/
theorem Inv.periph (h : Inv t₀ δ s) (hδ : 0 < δ) (htime : s.sources.timer.mtime.toNat + δ < 2 ^ 64)
    (req : Option Payload) {rest : List Payload} (hreq : s.posted = req.toList ++ rest) :
    Inv t₀ δ { s with sources := s.sources.next req, posted := rest } := by
  have hsets : ∀ p ∈ req, setsTime p = false := by
    intro p hp
    rw [Option.mem_def] at hp
    subst hp
    exact h.time p (List.mem_append_left _ (by rw [hreq]; exact List.mem_cons_self))
  have hlt : s.sources.timer.mtime.toNat + 1 < 2 ^ 64 := by omega
  have hmono := mtime_le hsets hlt
  have hfinal : System.final { s with sources := s.sources.next req, posted := rest } = s.final := by
    show (rest ++ s.toCome).foldl TickRegs.store (regsOf (s.sources.next req)) = _
    unfold System.final
    rw [hreq]
    cases req with
    | none => rfl
    | some p =>
      rw [regsOf_next]
      rfl
  refine ⟨?_, h.delta, ?_, ?_, h.deadline, ?_, fun ht => Nat.le_trans (h.due ht) hmono⟩
  · intro p hp
    refine h.time p ?_
    rw [hreq, List.append_assoc]
    exact List.mem_append_right _ hp
  · rw [hfinal]
    exact h.compare
  · rw [hfinal]
    exact h.control
  · rw [hfinal]
    intro hmode
    rcases h.entered hmode with hsoft | hdue
    · exact Or.inl hsoft
    · refine Or.inr ?_
      rw [BitVec.le_def] at hdue ⊢
      exact Nat.le_trans hdue hmono

/-- Code outside the handler posts a store that leaves the timer alone. -/
theorem Inv.post (h : Inv t₀ δ s) {p : Payload} (hout : s.outsideIrq = true) (hsets : setsTime p = false)
    (hcmp : ∀ r : TickRegs, (r.store p).mtimecmp = r.mtimecmp ∧ (r.store p).timerCtrl = r.timerCtrl) :
    Inv t₀ δ { s with posted := s.posted ++ [p] } := by
  have hcome : s.toCome = [] ∧ s.mode ≠ .entered := by
    unfold System.outsideIrq at hout
    unfold System.toCome
    cases hmode : s.mode <;> rw [hmode] at hout
    · exact ⟨rfl, by simp⟩
    · exact absurd hout (by decide)
    · simp at hout
    · exact ⟨rfl, by simp⟩
  have hcome' : System.toCome { s with posted := s.posted ++ [p] } = [] := hcome.1
  have hfinal : System.final { s with posted := s.posted ++ [p] } = s.final.store p := by
    unfold System.final
    rw [hcome', hcome.1, List.append_nil, List.append_nil, List.foldl_append]
    rfl
  refine ⟨?_, h.delta, ?_, ?_, h.deadline, fun hmode => absurd hmode hcome.2, h.due⟩
  · intro q hq
    rw [hcome', List.append_nil, List.mem_append, List.mem_singleton] at hq
    rcases hq with hq | rfl
    · exact h.time q (List.mem_append_left _ hq)
    · exact hsets
  · rw [hfinal, (hcmp _).1]
    exact h.compare
  · rw [hfinal, (hcmp _).2]
    exact h.control

/-- The handler has read the software request: it is about to take it back, or it moves the deadline that has passed. -/
theorem Inv.read (h : Inv t₀ δ s) (htime : s.sources.timer.mtime.toNat + δ < 2 ^ 64) (hmode : s.mode = .entered)
    (hempty : s.posted = []) :
    (s.sources.softwareIrq = true → Inv t₀ δ { s with mode := .posting [irqClearSoftware] false }) ∧
    (s.sources.softwareIrq = false → Inv t₀ δ { s with
      vars := { s.vars with nextDeadline := s.vars.nextDeadline + s.vars.tickDelta }
      mode := .posting (timerSetCompare (s.vars.nextDeadline + s.vars.tickDelta)) true }) := by
  have hcome : s.toCome = [] := by
    unfold System.toCome
    rw [hmode]
  have hticking : s.ticking = false := by
    unfold System.ticking
    rw [hmode]
  have hfinal : s.final = regsOf s.sources := by
    unfold System.final
    rw [hempty, hcome]
    rfl
  have hcompare := h.compare
  have hcontrol := h.control
  have hdeadline := h.deadline
  rw [hfinal] at hcompare hcontrol
  rw [hticking, Bool.toNat_false, Nat.add_zero] at hdeadline
  constructor
  · intro _
    have hfinal' : System.final { s with mode := .posting [irqClearSoftware] false } =
        { regsOf s.sources with softwareIrq := false } := by
      show (s.posted ++ [irqClearSoftware]).foldl TickRegs.store _ = _
      rw [hempty]
      rfl
    refine ⟨?_, h.delta, ?_, ?_, hdeadline, fun hm => absurd hm (by simp), fun ht => absurd ht Bool.false_ne_true⟩
    · intro p hp
      rw [show s.posted ++ System.toCome { s with mode := .posting [irqClearSoftware] false } = [irqClearSoftware] by
        rw [hempty]; rfl, List.mem_singleton] at hp
      rw [hp]
      decide
    · rw [hfinal']
      exact hcompare
    · rw [hfinal']
      exact hcontrol
  · intro hsoft
    have hpassed : s.vars.nextDeadline ≤ s.sources.timer.mtime := by
      rcases h.entered hmode with hs | hp
      · rw [hfinal] at hs
        exact absurd (hsoft.symm.trans hs) Bool.false_ne_true
      · exact hp
    rw [BitVec.le_def] at hpassed
    have hdelta := h.delta
    have hnext : (s.vars.nextDeadline + s.vars.tickDelta).toNat = s.vars.nextDeadline.toNat + δ := by
      rw [BitVec.toNat_add, hdelta, Nat.mod_eq_of_lt (by omega)]
    refine ⟨?_, hdelta, ?_, ?_, ?_, fun hm => absurd hm (by simp), fun _ => ?_⟩
    · intro p hp
      rw [List.mem_append, hempty] at hp
      rcases hp with hp | hp
      · exact absurd hp List.not_mem_nil
      · exact setsTime_setCompare _ p hp
    · show ((s.posted ++ timerSetCompare _).foldl TickRegs.store (regsOf s.sources)).mtimecmp = _
      rw [hempty, List.nil_append, store_setCompare]
    · show ((s.posted ++ timerSetCompare _).foldl TickRegs.store (regsOf s.sources)).timerCtrl = _
      rw [hempty, List.nil_append, store_setCompare]
      exact hcontrol
    · show (s.vars.nextDeadline + s.vars.tickDelta).toNat = t₀ + (s.ticks + 1 + 1) * δ
      rw [hnext, hdeadline, Nat.add_assoc, ← Nat.succ_mul]
    · rw [← hdeadline]
      exact hpassed

/-- The handler goes on. -/
theorem Inv.handler (h : Inv t₀ δ s) (htime : s.sources.timer.mtime.toNat + δ < 2 ^ 64)
    (hs : s.handlerStep = some s') : Inv t₀ δ s' := by
  unfold System.handlerStep at hs
  split at hs
  · rename_i hmode
    split at hs
    · rename_i hempty
      have hread := h.read htime hmode (List.isEmpty_iff.mp hempty)
      split at hs
      · rename_i hsoft
        rw [← Option.some.inj hs]
        exact hread.1 hsoft
      · rename_i hsoft
        rw [← Option.some.inj hs]
        exact hread.2 (Bool.eq_false_iff.mpr hsoft)
    · exact absurd hs (by simp)
  · -- a store of the handler goes from those to come to those posted
    rename_i p rest tick hmode
    rw [← Option.some.inj hs]
    have hcome : s.posted ++ s.toCome = (s.posted ++ [p]) ++ rest := by
      unfold System.toCome
      rw [hmode, List.append_assoc]
      rfl
    have hticking : s.ticking = tick := by
      unfold System.ticking
      rw [hmode]
    have hfinal : System.final { s with posted := s.posted ++ [p], mode := .posting rest tick } = s.final := by
      unfold System.final
      rw [hcome]
      rfl
    refine ⟨?_, h.delta, ?_, ?_, ?_, fun hm => absurd hm (by simp), fun ht => h.due (hticking.trans ht)⟩
    · intro q hq
      refine h.time q ?_
      rw [hcome]
      exact hq
    · rw [hfinal]
      exact h.compare
    · rw [hfinal]
      exact h.control
    · have hdeadline := h.deadline
      rw [hticking] at hdeadline
      exact hdeadline
  · rename_i hmode
    rw [← Option.some.inj hs]
    have hcome : s.toCome = [] := by
      unfold System.toCome
      rw [hmode]
    have hticking : s.ticking = true := by
      unfold System.ticking
      rw [hmode]
    have hfinal : System.final { s with ticks := s.ticks + 1, mode := .leaving } = s.final := by
      unfold System.final
      rw [hcome]
      rfl
    refine ⟨?_, h.delta, ?_, ?_, ?_, fun hm => absurd hm (by simp), fun ht => absurd ht Bool.false_ne_true⟩
    · intro p hp
      refine h.time p ?_
      rw [hcome]
      exact hp
    · rw [hfinal]
      exact h.compare
    · rw [hfinal]
      exact h.control
    · have hdeadline := h.deadline
      rw [hticking] at hdeadline
      exact hdeadline
  · rename_i hmode
    rw [← Option.some.inj hs]
    refine h.of_eq rfl rfl rfl rfl ?_ ?_ fun hm => absurd hm (by simp)
    · unfold System.toCome
      rw [hmode]
    · unfold System.ticking
      rw [hmode]
  · exact absurd hs (by simp)

/-- An interrupt is taken on a request that lasts. -/
theorem Inv.take (h : Inv t₀ δ s) (hmode : s.mode = .thread) (hreq : s.requested = true) :
    Inv t₀ δ { s with mode := .entered, mie := false } := by
  have hcome : s.toCome = [] := by
    unfold System.toCome
    rw [hmode]
  have hticking : s.ticking = false := by
    unfold System.ticking
    rw [hmode]
  refine h.of_eq rfl rfl rfl rfl hcome.symm hticking.symm fun _ => ?_
  have hfinal : s.final = s.posted.foldl TickRegs.store (regsOf s.sources) := by
    unfold System.final
    rw [hcome, List.append_nil]
  unfold System.requested at hreq
  rw [Bool.or_eq_true] at hreq
  rcases hreq with htimer | hsoft
  · refine Or.inr ?_
    unfold MachineTimer.timerIrq at htimer
    rw [Bool.and_eq_true, decide_eq_true_eq] at htimer
    rw [← h.compare, hfinal]
    exact htimer.2
  · refine Or.inl ?_
    rw [hfinal]
    exact hsoft

/-- Every action keeps the invariant. -/
theorem Inv.act (h : Inv t₀ δ s) (hδ : 0 < δ) {a : Action} (ha : Allowed δ s a) (hs : s.act a = some s') :
    Inv t₀ δ s' := by
  obtain ⟨htime, hfresh⟩ := ha
  cases a with
  | core =>
    rw [← Option.some.inj hs]
    exact h.of_eq rfl rfl rfl rfl rfl rfl h.entered
  | periph perform =>
    cases perform with
    | false =>
      rw [← Option.some.inj hs]
      exact h.periph hδ htime none rfl
    | true =>
      simp only [System.act] at hs
      split at hs
      · exact absurd hs (by simp)
      · rename_i p rest hposted
        rw [← Option.some.inj hs]
        exact h.periph hδ htime (some p) hposted
  | mask enable =>
    simp only [System.act] at hs
    split at hs
    · rw [← Option.some.inj hs]
      exact h.of_eq rfl rfl rfl rfl rfl rfl h.entered
    · exact absurd hs (by simp)
  | trigger =>
    simp only [System.act] at hs
    split at hs
    · rename_i hout
      rw [← Option.some.inj hs]
      exact h.post hout (by decide) fun r => by rw [store_trigger]; exact ⟨rfl, rfl⟩
    · exact absurd hs (by simp)
  | store p =>
    simp only [System.act] at hs
    split at hs
    · rename_i hout
      rw [Bool.and_eq_true, Bool.not_eq_true'] at hout
      rw [← Option.some.inj hs]
      refine h.post hout.1 (store_other s.final hout.2).2 fun r => ?_
      rw [(store_other r hout.2).1]
      exact ⟨rfl, rfl⟩
    · exact absurd hs (by simp)
  | take =>
    simp only [System.act] at hs
    split at hs
    · rename_i htake
      rw [Bool.and_eq_true, Bool.and_eq_true, beq_iff_eq] at htake
      rw [← Option.some.inj hs]
      exact h.take htake.1.1 (hfresh rfl)
    · exact absurd hs (by simp)
  | handler => exact h.handler htime hs
  | mret =>
    simp only [System.act] at hs
    split at hs
    · rename_i hmode
      rw [beq_iff_eq] at hmode
      rw [← Option.some.inj hs]
      refine h.of_eq rfl rfl rfl rfl ?_ ?_ fun hm => absurd hm (by simp)
      · unfold System.toCome
        rw [hmode]
      · unfold System.ticking
        rw [hmode]
    · exact absurd hs (by simp)

end Step

end Tick

end SocRV
