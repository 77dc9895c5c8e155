import SocRV.Rtos.TimerRead

/-!
# The timer driver

What `timer_read` returns was the time during the call, unless `mtime` nearly comes round between two of its loads.
`timer_set_compare` goes from any compare value to any other without requesting an interrupt in between.
-/

namespace SocRV

namespace Tick

open SplitCounter

/-- The value of `timer_read` was the time in a cycle between its first load and its last, when `mtime` is not stored to
and counts no further than `2 ^ 64 - 2 ^ 32` in the last pass.  While `timer_set_compare` changes the compare value,
no interrupt is requested before the time 0xffffffff_00000000, and behind it one is requested just when it should. -/
theorem timer_driver (s : TickSources) (w : Nat → Option Payload) :
    (∀ first last done v, TimerRead s w first last done v →
      (∀ k, first ≤ k → k < done → ∀ p ∈ w k, setsTime p = false) →
      counts s w done - counts s w last ≤ 2 ^ 64 - 2 ^ 32 →
      ∃ n, first ≤ n ∧ n ≤ done ∧ (timerAt s w n).mtime = v) ∧
    ∀ deadline a b c, SetsCompare w deadline a b c →
      (∀ n, a < n → n ≤ c → (timerAt s w n).mtime < 0xffffffff00000000 → (timerAt s w n).timerIrq = false) ∧
      ∀ n, c < n → (∀ k, c < k → k < n → ∀ p ∈ w k, setsCompare p = false) →
        (timerAt s w n).timerIrq = ((timerAt s w n).timerCtrl.getLsbD 0 && (timerAt s w n).timerCtrl.getLsbD 1 &&
          decide (deadline ≤ (timerAt s w n).mtime)) := by
  refine ⟨fun first last done v h => ?_, fun deadline a b c h => ⟨?_, ?_⟩⟩
  · induction h with
    | returns hpass hsame =>
      intro hw hcount
      exact ⟨_, Nat.le_of_lt hpass.before, Nat.le_of_lt hpass.behind, (hpass.value hsame hw hcount).symm⟩
    | again hpass hne hlt hrest ih =>
      intro hw hcount
      have hbefore := Nat.lt_trans (Nat.lt_trans hpass.before hpass.behind) hlt
      obtain ⟨n, hfirst, hdone, htime⟩ := ih (fun k hk => hw k (by omega)) hcount
      exact ⟨n, by omega, hdone, htime⟩
  · intro n han hnc htime
    exact timerIrq_below (h.highOf_between han hnc) htime
  · intro n hcn hw
    rw [MachineTimer.timerIrq, h.mtimecmp_after hcn hw]

/-- A load from an address. -/
def load (address : BitVec 32) : Payload := ⟨false, address, 0, 0⟩

/-- Two passes of `timer_read`, and then `timer_set_compare` with the deadline `2 ^ 32 + 10`, an access in each cycle. -/
def promptAccesses (n : Nat) : Option Payload :=
  ([some (load mtimeHi), some (load mtimeLo), some (load mtimeHi), some (load mtimeHi), some (load mtimeLo),
    some (load mtimeHi)] ++ (timerSetCompare 0x10000000a).map some).getD n none

/-- The peripherals two counts before the low half of the time carries, with a compare value that is long past. -/
def atCarry : TickSources := ⟨⟨0xfffffffe, 5, 0b11⟩, false⟩

/-- The time carries during the first pass, so a second one is made and reads `2 ^ 32 + 2`.  The compare value goes from
5 to `2 ^ 32 + 10`: the request is gone from cycle 7 on, and comes back in cycle 12. -/
theorem timer_driver_prompt :
    TimerRead atCarry promptAccesses 0 3 5 0x100000002 ∧
      (∃ n, 0 ≤ n ∧ n ≤ 5 ∧ (timerAt atCarry promptAccesses n).mtime = 0x100000002) ∧
      (timerAt atCarry promptAccesses 6).timerIrq = true ∧ (timerAt atCarry promptAccesses 8).timerIrq = false ∧
      (timerAt atCarry promptAccesses 12).timerIrq = true := by
  have hfirst : Pass promptAccesses 0 1 2 :=
    ⟨⟨load mtimeHi, rfl, rfl, rfl⟩, ⟨load mtimeLo, rfl, rfl, rfl⟩, ⟨load mtimeHi, rfl, rfl, rfl⟩, by decide, by decide⟩
  have hsecond : Pass promptAccesses 3 4 5 :=
    ⟨⟨load mtimeHi, rfl, rfl, rfl⟩, ⟨load mtimeLo, rfl, rfl, rfl⟩, ⟨load mtimeHi, rfl, rfl, rfl⟩, by decide, by decide⟩
  have hread : TimerRead atCarry promptAccesses 0 3 5 0x100000002 :=
    TimerRead.again hfirst (by decide) (by decide) (TimerRead.returns hsecond (by decide))
  have hloads : ∀ k < 5, ∀ p ∈ promptAccesses k, setsTime p = false := by decide
  have hset : SetsCompare promptAccesses 0x10000000a 6 7 8 := ⟨rfl, by decide, by decide, fun n h6 h8 h7 => by omega⟩
  obtain ⟨hvalue, hcompare⟩ := timer_driver atCarry promptAccesses
  obtain ⟨hbelow, hafter⟩ := hcompare 0x10000000a 6 7 8 hset
  refine ⟨hread, hvalue 0 3 5 _ hread ?_ (by decide), by decide, hbelow 8 (by decide) (by decide) (by decide), ?_⟩
  · exact fun k _ hk => hloads k hk
  · rw [hafter 12 (by decide)]
    · decide
    · intro k hk _ p hp
      have hnone : promptAccesses k = none := by
        unfold promptAccesses
        rw [List.getD_eq_getElem?_getD, List.getElem?_eq_none hk]
        rfl
      rw [hnone] at hp
      exact nomatch hp

/-! ## A pass that takes too long -/

/-- The three loads of a pass, in cycles that are nearly `2 ^ 64` apart. -/
def slowLoads (n : Nat) : Option Payload :=
  if n = 0 then some (load mtimeHi)
  else if n = 2 ^ 32 - 3 then some (load mtimeLo)
  else if n = 2 ^ 64 - 5 then some (load mtimeHi)
  else none

/-- The peripherals at the time ten, with the counter enabled. -/
def atTen : TickSources := ⟨⟨10, 0xffffffffffffffff, 0b01⟩, false⟩

/-- A load changes nothing. -/
theorem next_load {s : TickSources} {req : Option Payload} (h : ∀ p ∈ req, p.write = false) :
    s.next req = s.next none := by
  cases req with
  | none => rfl
  | some p =>
    have hp := h p rfl
    unfold TickSources.next TickSources.nextSoftwareIrq
    dsimp only
    rw [hp, Bool.false_and, Bool.false_and, if_neg Bool.false_ne_true, ite_self]
    by_cases hsel : timerSel p = true
    · rw [Option.filter_some_pos hsel]
      unfold MachineTimer.next
      dsimp only
      rw [hp]
      rfl
    · rw [Option.filter_some_neg (Bool.not_eq_true _ ▸ hsel)]
      rfl

/-- All accesses are loads. -/
theorem slowLoads_load (n : Nat) : ∀ p ∈ slowLoads n, p.write = false := by
  intro p hp
  unfold slowLoads at hp
  split_ifs at hp
  · obtain rfl := Option.some.inj hp
    rfl
  · obtain rfl := Option.some.inj hp
    rfl
  · obtain rfl := Option.some.inj hp
    rfl
  · exact nomatch hp

/-- The time goes on through the slow loads. -/
theorem run_slowLoads (n : Nat) :
    (peripherals atTen).run slowLoads n = { atTen with timer.mtime := BitVec.ofNat 64 (10 + n) } := by
  induction n with
  | zero => rfl
  | succ n ih =>
    have hnext : (peripherals atTen).run slowLoads (n + 1) = ((peripherals atTen).run slowLoads n).next none :=
      next_load (slowLoads_load n)
    have htime : BitVec.ofNat 64 (10 + (n + 1)) = BitVec.ofNat 64 (10 + n) + 1 := BitVec.ofNat_add (10 + n) 1
    have hcount : ∀ t, (MachineTimer.mk t 0xffffffffffffffff 0b01).count = t + 1 :=
      fun t => if_pos (show (0b01 : BitVec 2).getLsbD 0 = true by decide)
    rw [hnext, ih, htime]
    exact congrArg (fun t => TickSources.mk ⟨t, 0xffffffffffffffff, 0b01⟩ false) (hcount _)

/-- Over the loads `mtime` counts on. -/
theorem mtime_slowLoads (n : Nat) : (timerAt atTen slowLoads n).mtime.toNat = (10 + n) % 2 ^ 64 := by
  unfold timerAt
  rw [run_slowLoads]
  exact BitVec.toNat_ofNat ..

/-- `timer_read` returns 7 while the time goes from 10 up to `2 ^ 64` and on to 5. -/
theorem timerRead_lapped :
    TimerRead atTen slowLoads 0 0 (2 ^ 64 - 5) 7 ∧ (∀ n, ∀ p ∈ slowLoads n, setsTime p = false) ∧
      ∀ n ≤ 2 ^ 64 - 5, (timerAt atTen slowLoads n).mtime ≠ 7 := by
  have hpass : Pass slowLoads 0 (2 ^ 32 - 3) (2 ^ 64 - 5) :=
    ⟨⟨load mtimeHi, rfl, rfl, rfl⟩, ⟨load mtimeLo, rfl, rfl, rfl⟩, ⟨load mtimeHi, rfl, rfl, rfl⟩, by decide, by decide⟩
  have hhigh : ∀ n, (10 + n) % 2 ^ 64 < 2 ^ 32 → loaded atTen slowLoads n mtimeHi = 0 := by
    intro n hn
    apply BitVec.eq_of_toNat_eq
    rw [loaded_mtimeHi, toNat_highOf, mtime_slowLoads]
    exact Nat.div_eq_of_lt hn
  have hlow : loaded atTen slowLoads (2 ^ 32 - 3) mtimeLo = 7 := by
    apply BitVec.eq_of_toNat_eq
    rw [loaded_mtimeLo, toNat_lowOf, mtime_slowLoads]
    rfl
  refine ⟨?_, ?_, ?_⟩
  · have hread := TimerRead.returns (s := atTen) hpass ((hhigh _ (by decide)).trans (hhigh _ (by decide)).symm)
    rwa [hhigh _ (by decide), hlow] at hread
  · intro n p hp
    unfold setsTime
    rw [slowLoads_load n p hp, Bool.false_and, Bool.false_and]
  · intro n hn heq
    have htime := congrArg BitVec.toNat heq
    rw [mtime_slowLoads] at htime
    change (10 + n) % 2 ^ 64 = 7 at htime
    omega

end Tick

end SocRV
