import SocRV.Rtos.InterruptEnable
import SocRV.Theorems.ContextSwitch

/-!
# The interrupt enable travels with the thread

A thread that gets the hart back runs with the interrupt enable it was suspended with, but for one case: the end of
`SW_handler` does not clear what the trap left in `mstatus`, so a thread that called `rt_hw_context_switch` with
interrupts disabled is resumed with interrupts enabled when an interrupt of another thread goes to it.
-/

namespace SocRV

namespace Rtos

open Instr ByteMemory

/-- In every run of any number of threads whose saves park `t0` where it harms no other thread, the thread that gets
the hart runs with the interrupt enable it was suspended with exactly when the event is not `SW_handler` exchanging
the interrupted thread for one that was suspended with interrupts disabled. -/
theorem interrupt_enable_travels {T : Type*} [DecidableEq T] {L : Layout T} {s₀ : Marked T} (h0 : s₀.Ready L)
    {w : Nat → Event T} (hw : (Marked.machine L s₀).Respects (Marked.Allowed L) w)
    (hs : (Marked.machine L s₀).Respects (Marked.SparesOthers L) w) (n : Nat) :
    ((Marked.machine L s₀).run w n).Travels L (w n) ↔ ¬((Marked.machine L s₀).run w n).SetsOnTop (w n) :=
  (Marked.next_ready (Marked.ready_run h0 hw hs n) (hw n) (hs n)).2

/-- The two threads of before; the second one, which never ran, starts with interrupts enabled. -/
def yieldingMarked : Marked Bool := ⟨yielding, fun _ => true⟩

/-- Both threads are ready, with their interrupt enables in their frames. -/
theorem yieldingMarked_ready : yieldingMarked.Ready twoThreads := by
  refine ⟨yielding_ready, fun σ hσ => ?_⟩
  obtain rfl : σ = true := by cases σ <;> simp_all [yieldingMarked, yielding]
  decide +kernel

/-- The hart of a run that does not depend on the marks. -/
theorem marked_sys {T : Type*} [DecidableEq T] {L : Layout T} {s₀ : Marked T} {w : Nat → Event T} (n : Nat) :
    ((Marked.machine L s₀).run w n).sys = (Sys.machine L s₀.sys).run w n := by
  induction n with
  | zero => rfl
  | succ n ih => exact congrArg (fun s => Sys.next L s (w n)) ih

theorem interrupt_enable_travels_yieldOnce :
    yieldingMarked.sys.hart.enabled = false ∧
    ((Marked.machine twoThreads yieldingMarked).run yieldOnce 1).sys.hart.enabled = true := by
  have hallowed : (Marked.machine twoThreads yieldingMarked).Respects (Marked.Allowed twoThreads) yieldOnce := by
    intro n
    refine ⟨?_, fun c dest he => ?_⟩
    · rw [marked_sys]
      exact yieldOnce_allowed n
    · cases n <;> simp [yieldOnce] at he
  have hspares : (Marked.machine twoThreads yieldingMarked).Respects (Marked.SparesOthers twoThreads) yieldOnce := by
    intro n
    rw [Marked.SparesOthers, marked_sys]
    exact (yieldOnce_spares n).others
  exact ⟨by decide, (interrupt_enable_travels yieldingMarked_ready hallowed hspares 0).mpr id⟩

/-! ## A critical section with interrupts on -/

/-- C code that asks for a switch to the first thread, as `rt_hw_context_switch_interrupt` does. -/
def askForFirst : Callees where
  rtInterruptEnter := id
  rtHwDoAfterSaveAbove := fun h => { h with
    mem := ((h.mem.storeWord twoThreads.vars.fromThread (twoThreads.cell true)).storeWord
      twoThreads.vars.toThread (twoThreads.cell false)).storeWord twoThreads.vars.flag 1 }
  rtInterruptLeave := id

/-- The handler that asks for the first thread keeps what threads own. -/
theorem askForFirst_keep : askForFirst.Keep twoThreads.owned := by
  constructor
  · simp [askForFirst]
  · simp [askForFirst]
  · simp [askForFirst]
  · rintro g hg h b ⟨σ, hb⟩
    have hvars : ∀ v ∈ [twoThreads.vars.flag, twoThreads.vars.fromThread, twoThreads.vars.toThread], b ∉ word v :=
      fun v hv => Layout.not_mem_vars_of_own hv hb
    simp only [askForFirst, List.mem_cons, List.not_mem_nil, or_false] at hg
    rcases hg with rfl | rfl | rfl
    · rfl
    · dsimp only
      rw [storeWord_of_not_mem (hvars _ (by simp)), storeWord_of_not_mem (hvars _ (by simp)),
        storeWord_of_not_mem (hvars _ (by simp))]
    · rfl

/-- The first thread gives the hart away with interrupts disabled, and an interrupt of the second one gives it
back. -/
def yieldAndBack : Nat → Event Bool
  | 0 => .yield true
  | 1 => .interrupt askForFirst (some false)
  | _ => .thread (run 0 (swHandler twoThreads.vars askForFirst) (run 0 rtHwContextSwitch yielding.hart).trap)

/-- After the second event the hart has run the switch and the handler. -/
theorem yieldAndBack_hart : ∀ n, ((Marked.machine twoThreads yieldingMarked).run yieldAndBack (n + 2)).sys.hart =
    run 0 (swHandler twoThreads.vars askForFirst) (run 0 rtHwContextSwitch yielding.hart).trap
  | 0 => by simp only [Machine.run, Marked.machine, Marked.next, Sys.next, yieldAndBack, yieldingMarked]
  | _ + 1 => by simp only [Machine.run, Marked.machine, Marked.next, Sys.next, yieldAndBack]

/-- A thread suspended with interrupts disabled is resumed by `SW_handler` with interrupts enabled. -/
theorem interrupt_enable_lost :
    yieldingMarked.Ready twoThreads ∧
    (Marked.machine twoThreads yieldingMarked).Respects (Marked.Allowed twoThreads) yieldAndBack ∧
    (Marked.machine twoThreads yieldingMarked).Respects (Marked.SparesOthers twoThreads) yieldAndBack ∧
    yieldingMarked.sys.cur = false ∧ yieldingMarked.sys.hart.enabled = false ∧
    ((Marked.machine twoThreads yieldingMarked).run yieldAndBack 2).sys.cur = false ∧
    ((Marked.machine twoThreads yieldingMarked).run yieldAndBack 2).mie false = false ∧
    ((Marked.machine twoThreads yieldingMarked).run yieldAndBack 2).sys.hart.enabled = true := by
  refine ⟨yieldingMarked_ready, ?_, ?_, rfl, by decide, rfl, by decide +kernel, ?_⟩
  · rintro (_ | _ | n)
    · exact ⟨⟨by decide, rfl, rfl⟩, fun c dest he => by simp [yieldAndBack] at he⟩
    · refine ⟨⟨by decide +kernel, askForFirst_keep, by decide +kernel, by decide +kernel, by decide +kernel⟩,
        fun c dest he => ?_⟩
      obtain ⟨rfl, rfl⟩ : askForFirst = c ∧ some false = dest := by simpa [yieldAndBack] using he
      exact ⟨by decide +kernel, by simp [Callees.KeepEnable, askForFirst, Hart.enabledBefore]⟩
    · exact ⟨fun _ _ _ _ => by rw [yieldAndBack_hart], fun c dest he => by simp [yieldAndBack] at he⟩
  · rintro (_ | _ | n)
    · exact Or.inl (show Spared _ by decide +kernel)
    · refine Or.inr fun τ hτ => ?_
      obtain rfl : τ = false := by cases τ <;> simp_all [Machine.run, Marked.machine, Marked.next, Sys.next, yieldAndBack]
      have hsp : ((Marked.machine twoThreads yieldingMarked).run yieldAndBack 1).sys.hart.x sp = 0x4000 := by
        decide +kernel
      rw [hsp, Set.disjoint_left]
      intro b h1 h2
      rw [mem_word] at h1
      rcases h2 with ⟨h2, h3⟩ | h2
      · simp [twoThreads, BitVec.toNat_sub] at *
        omega
      · rw [mem_word] at h2
        simp [twoThreads, BitVec.toNat_sub] at *
        omega
    · trivial
  · rw [yieldAndBack_hart]
    decide +kernel

end Rtos

end SocRV
