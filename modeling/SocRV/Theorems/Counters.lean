import SocRV.Core.Counters

/-!
# Split counters as one

The halves of each counter, read together, are one counter of the events, as long as no write replaces the low half in
a cycle in which it carries: that carry still reaches the high half.
-/

namespace SocRV

namespace Counters

/-- In every run, what is read of `mcycle`, `minstret` and `mtime` is a 64-bit counter of the events with writes to its
halves just as long as no low half is written in a cycle in which it carries. -/
theorem split_counters_exact (v : Nat → McycleIn) (u : Nat → MinstretIn) (s : TickSources) (w : Nat → Option Payload)
    (n : Nat) :
    ((∀ k ≤ n, (Mcycle.machine.run v k).read =
        SplitCounter.value (fun k => (v k).coutIn.toNat) (fun k _ => (v k).csr.toHalf mcycleLAddr mcycleHAddr) 0 k) ↔
      ∀ k < n, ¬ SplitCounter.Overwrites (v k).coutIn.toNat ((v k).csr.toHalf mcycleLAddr mcycleHAddr)
        (Mcycle.machine.run v k).read) ∧
    ((∀ k ≤ n, (Minstret.machine.run u k).read =
        SplitCounter.value (fun k => (u k).retired) (fun k _ => (u k).csr.toHalf minstretLAddr minstretHAddr) 0 k) ↔
      ∀ k < n, ¬ SplitCounter.Overwrites (u k).retired ((u k).csr.toHalf minstretLAddr minstretHAddr)
        (Minstret.machine.run u k).read) ∧
    ((∀ k ≤ n, mtimeRead ((Tick.peripherals s).run w k) =
        SplitCounter.value (fun k => (((Tick.peripherals s).run w k).timer.timerCtrl.getLsbD 0).toNat)
          (fun k => mtimeWrite (w k)) (mtimeRead s) k) ↔
      ∀ k < n, ¬ SplitCounter.Overwrites (((Tick.peripherals s).run w k).timer.timerCtrl.getLsbD 0).toNat
        (mtimeWrite (w k) (mtimeRead ((Tick.peripherals s).run w k))) (mtimeRead ((Tick.peripherals s).run w k))) := by
  have hbit : ∀ b : Bool, b.toNat < 2 ^ 32 := by decide
  have hcycle : Mcycle.machine.reset.read = 0 := by decide
  have hret : Minstret.machine.reset.read = 0 := by decide
  refine ⟨?_, ?_, ?_⟩
  · rw [← hcycle]
    exact SplitCounter.value_iff_of_ripple (fun k => (v k).coutIn.toNat)
      (fun k _ => (v k).csr.toHalf mcycleLAddr mcycleHAddr) (r := fun k => (Mcycle.machine.run v k).read)
      (fun _ => hbit _) (fun k => Mcycle.read_next _ (v k)) n
  · rw [← hret]
    exact SplitCounter.value_iff_of_ripple (fun k => (u k).retired)
      (fun k _ => (u k).csr.toHalf minstretLAddr minstretHAddr) (r := fun k => (Minstret.machine.run u k).read)
      (fun k => (u k).retired_lt) (fun k => Minstret.read_next (Minstret.enabled_run u k) (u k)) n
  · exact SplitCounter.value_iff_of_ripple
      (fun k => (((Tick.peripherals s).run w k).timer.timerCtrl.getLsbD 0).toNat) (fun k => mtimeWrite (w k))
      (r := fun k => mtimeRead ((Tick.peripherals s).run w k)) (fun _ => hbit _) (fun k => mtimeRead_next _ (w k)) n

/-- `mcyclel` is set to count to all ones in eight cycles, and set to zero in the ninth: `mcycleh` counts one. -/
theorem mcycleh_counts_overwritten :
    let write (v : BitVec 32) : McycleIn := { csr := ⟨true, mcycleLAddr, v⟩ }
    let w (n : Nat) : McycleIn := if n = 0 then write 0xfffffff7 else if n = 9 then write 0 else {}
    (Mcycle.machine.run w 9).read = 0xffffffff ∧ (Mcycle.machine.run w 10).read = 0x100000000 ∧
      ¬ ∀ k ≤ 10, (Mcycle.machine.run w k).read =
        SplitCounter.value (fun k => (w k).coutIn.toNat) (fun k _ => (w k).csr.toHalf mcycleLAddr mcycleHAddr) 0 k := by
  refine ⟨by decide +kernel, by decide +kernel, fun h => ?_⟩
  exact absurd (h 10 (Nat.le_refl 10)) (by decide +kernel)

end Counters

end SocRV
