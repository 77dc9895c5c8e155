import SocRV.Soc.I2cCounters
import SocRV.Soc.I2cLines

/-!
# The I2C controller in every reachable state

The flags, the state and the recovery counter fit each other whatever is written and whatever the lines do, and a command
that ends says so once.  A command need not end: the timeout may be switched off.  Its counters stay within their limits
unless a write lowers a limit, and the data line changes under a clock that is let go only in a start or a stop.
-/

namespace SocRV

/-! ## Consistency -/

/-- What holds in the run of the controller on `w`. -/
structure I2cMaster.StaysConsistent (div timeout : BitVec 32) (w : Nat → Option Payload × Lines) : Prop where
  /-- A busy controller has a state other than `ST_IDLE`, so the default branch is never taken. -/
  busy : ∀ n, ((machine div timeout).run w n).busy = true ↔ ((machine div timeout).run w n).state ≠ .idle
  not_both : ∀ n, ¬(((machine div timeout).run w n).busy = true ∧ ((machine div timeout).run w n).done = true)
  recovery : ∀ n, ((machine div timeout).run w n).recoveryCount.toNat ≤ 8
  clock : ∀ n, ((machine div timeout).run w n).state = .idle → ((machine div timeout).run w n).busActive = true →
    ((machine div timeout).run w n).drives.sclLow = true
  /-- An accepted command ends, is reset or goes on; the done flag is set when it ends, and not before. -/
  command : ∀ n, ((machine div timeout).run w n).accepts (w n).1 = true →
    (∃ m ≥ n, (∀ k, n < k → k ≤ m → GoesOn ((machine div timeout).run w k)) ∧
      Ended ((machine div timeout).run w (m + 1))) ∨
    (∃ m > n, (∀ k, n < k → k ≤ m → GoesOn ((machine div timeout).run w k)) ∧ softReset (w m).1 = true) ∨
    ∀ k > n, GoesOn ((machine div timeout).run w k)
  /-- It ends when from some cycle on the timeout is not zero and stays, and `CONTROL` is not written. -/
  ends : ∀ n T, GoesOn ((machine div timeout).run w n) → T ≠ 0 →
    (∀ k ≥ n, ((machine div timeout).run w k).timeout = T ∧ controls (w k).1 = false) →
    ∃ m ≥ n, (∀ k, n ≤ k → k ≤ m → GoesOn ((machine div timeout).run w k)) ∧
      Ended ((machine div timeout).run w (m + 1))
  /-- The flags set at the end of a command, whatever is written to `STATUS` in that cycle. -/
  flags : ∀ n, GoesOn ((machine div timeout).run w n) → softReset (w n).1 = false →
    ((machine div timeout).run w (n + 1)).busy = false →
    ((machine div timeout).run w (n + 1)).done = true ∧
    (TimesOut ((machine div timeout).run w n) (w n).1 →
      ((machine div timeout).run w (n + 1)).timeoutError = true ∧
        ((machine div timeout).run w (n + 1)).busStuck = (!(w n).2.scl || !(w n).2.sda)) ∧
    (LosesArbitration ((machine div timeout).run w n) (w n).1 (w n).2 →
      ((machine div timeout).run w (n + 1)).arbitrationLost = true) ∧
    (((machine div timeout).run w n).state = .stopRelease →
      ((machine div timeout).run w (n + 1)).busStuck = (!(w n).2.scl || !(w n).2.sda))

namespace I2cMaster

variable {div timeout : BitVec 32} {w : Nat → Option Payload × Lines} {n : Nat}

/-- An accepted command starts or is refused. -/
theorem accept_next (haccept : ((machine div timeout).run w n).accepts (w n).1 = true) :
    GoesOn ((machine div timeout).run w (n + 1)) ∨ Ended ((machine div timeout).run w (n + 1)) := by
  have hcons := consistent_run div timeout w n
  have hbusy := accepts_not_busy haccept
  obtain ⟨p, -, hnext⟩ := accepted_next haccept (w n).2
  have hrun : (machine div timeout).run w (n + 1) = ((machine div timeout).run w n).acceptCommand p := hnext
  rw [hrun]
  rcases acceptCommand_cases (s := (machine div timeout).run w n) p with hgo | ⟨hb, hd, hs⟩
  · exact Or.inl hgo
  · exact Or.inr ⟨hb.trans hbusy, hd, hs.trans (hcons.idle hbusy)⟩

/-- What comes of an accepted command. -/
theorem command_run (haccept : ((machine div timeout).run w n).accepts (w n).1 = true) :
    (∃ m ≥ n, (∀ k, n < k → k ≤ m → GoesOn ((machine div timeout).run w k)) ∧
      Ended ((machine div timeout).run w (m + 1))) ∨
    (∃ m > n, (∀ k, n < k → k ≤ m → GoesOn ((machine div timeout).run w k)) ∧ softReset (w m).1 = true) ∨
    ∀ k > n, GoesOn ((machine div timeout).run w k) := by
  rcases accept_next haccept with hgo | hend
  · rcases hgo.until with hall | ⟨m, hm, hbefore, hsoft | ⟨-, hend⟩⟩
    · exact Or.inr (Or.inr fun k hk => hall k hk)
    · exact Or.inr (Or.inl ⟨m, hm, fun k hk hkm => hbefore k hk hkm, hsoft⟩)
    · exact Or.inl ⟨m, Nat.le_of_succ_le hm, fun k hk hkm => hbefore k hk hkm, hend⟩
  · exact Or.inl ⟨n, Nat.le_refl n, fun k hk hkn => absurd hk (Nat.not_lt_of_le hkn), hend⟩

end I2cMaster

/-- The controller stays consistent under any writes and on any lines. -/
theorem i2c_stays_consistent (div timeout : BitVec 32) (w : Nat → Option Payload × Lines) :
    I2cMaster.StaysConsistent div timeout w := by
  have hcons := I2cMaster.consistent_run div timeout w
  refine ⟨fun n => (hcons n).busy_iff, fun n => ?_, fun n => (hcons n).recovery, fun n hs hactive => ?_,
    fun n => I2cMaster.command_run, fun n T hgo hT hfrom => hgo.ends hT hfrom, fun n hgo hsoft hover => ?_⟩
  · rintro ⟨hbusy, hdone⟩
    exact Bool.false_ne_true (((hcons n).not_done hbusy).symm.trans hdone)
  · unfold I2cMaster.drives
    rw [hs]
    exact hactive
  · have hended : I2cMaster.Ended (((I2cMaster.machine div timeout).run w n).next (w n).1 (w n).2) := by
      rcases hgo.next (w n).1 (w n).2 with ⟨hreset, -⟩ | ⟨-, hgo' | hend⟩
      · exact absurd (hsoft.symm.trans hreset) Bool.false_ne_true
      · have hover' : (((I2cMaster.machine div timeout).run w n).next (w n).1 (w n).2).busy = false := hover
        exact absurd (hover'.symm.trans hgo'.busy) Bool.false_ne_true
      · exact hend
    exact ⟨hended.done, I2cMaster.timeout_flags hgo, I2cMaster.lost_flag hgo,
      fun hs => I2cMaster.stop_flag hgo hs hended hsoft⟩

/-- The timeout is switched off, and a start is commanded while someone else holds the clock low. -/
def startOnStuckClock (n : Nat) : Option Payload × Lines :=
  ([some ⟨true, 0x000, 1, 0xf⟩, some ⟨true, 0x018, 0, 0xf⟩, some ⟨true, 0x014, 1, 0xf⟩].getD n none, ⟨false, true⟩)

/-- The start goes on forever. -/
theorem i2c_start_goes_on (n : Nat) : I2cMaster.GoesOn ((I2cMaster.machine 124 500000).run startOnStuckClock (3 + n)) ∧
    ((I2cMaster.machine 124 500000).run startOnStuckClock (3 + n)).timeout = 0 ∧
    ((I2cMaster.machine 124 500000).run startOnStuckClock (3 + n)).state = .startRelease := by
  induction n with
  | zero => exact ⟨⟨by decide +kernel, by decide +kernel, by decide +kernel⟩, by decide +kernel, by decide +kernel⟩
  | succ n ih =>
    obtain ⟨hgo, htimeout, hstate⟩ := ih
    have hrest : startOnStuckClock (3 + n) = (none, ⟨false, true⟩) := by
      unfold startOnStuckClock
      rw [List.getD_eq_getElem?_getD, List.getElem?_eq_none (by simp)]
      rfl
    have hnext : (I2cMaster.machine 124 500000).run startOnStuckClock (3 + (n + 1)) =
        ((I2cMaster.machine 124 500000).run startOnStuckClock (3 + n)).next none ⟨false, true⟩ := by
      rw [← Nat.add_assoc, Machine.run_succ, hrest]
      rfl
    rw [hnext]
    have hcase := I2cMaster.busy_case hgo.busy hgo.state none ⟨false, true⟩
    generalize ((I2cMaster.machine 124 500000).run startOnStuckClock (3 + n)).next none ⟨false, true⟩ = t at hcase ⊢
    have hready : ((I2cMaster.machine 124 500000).run startOnStuckClock (3 + n)).ready ⟨false, true⟩ = false := by
      unfold I2cMaster.ready
      rw [hstate]
      rfl
    cases hcase with
    | reset hreq => exact absurd hreq Bool.false_ne_true
    | control hreq hsoft => exact absurd hreq Bool.false_ne_true
    | timeout ht => exact absurd htimeout ht.2.2.1
    | wait hc ht hr => exact ⟨⟨hgo.busy, hgo.done, hgo.state⟩, htimeout, hstate⟩
    | lost ha => exact absurd (hready.symm.trans ha.2.2.2.1) Bool.false_ne_true
    | count hc ht hr hl hp => exact absurd (hready.symm.trans hr) Bool.false_ne_true
    | leave hc ht hr hl hp => exact absurd (hready.symm.trans hr) Bool.false_ne_true

/-- Not every accepted command sets the done flag or is reset. -/
theorem i2c_command_need_not_end : ¬ ∀ div timeout w n,
    ((I2cMaster.machine div timeout).run w n).accepts (w n).1 = true →
      (∃ m > n, ((I2cMaster.machine div timeout).run w m).done = true) ∨ ∃ m > n, I2cMaster.softReset (w m).1 = true := by
  intro h
  rcases h 124 500000 startOnStuckClock 2 (by decide +kernel) with ⟨m, hm, hdone⟩ | ⟨m, hm, hreset⟩
  · obtain ⟨k, rfl⟩ := Nat.exists_eq_add_of_le (show 3 ≤ m from hm)
    exact Bool.false_ne_true ((i2c_start_goes_on k).1.done.symm.trans hdone)
  · have hrest : (startOnStuckClock m).1 = none := by
      unfold startOnStuckClock
      rw [List.getD_eq_getElem?_getD, List.getElem?_eq_none (show 3 ≤ m from hm)]
      rfl
    rw [hrest] at hreset
    exact absurd hreset Bool.false_ne_true

/-! ## The counters -/

/-- Up to any cycle the counters are within their limits exactly when no write has put a limit below what was counted. -/
theorem i2c_in_range_iff (div timeout : BitVec 32) (w : Nat → Option Payload × Lines) (n : Nat) :
    (∀ k ≤ n, ((I2cMaster.machine div timeout).run w k).InRange) ↔
      ∀ k < n, ¬ ((I2cMaster.machine div timeout).run w k).LowersClockDiv (w k).1 (w k).2 ∧
        ¬ ((I2cMaster.machine div timeout).run w k).LowersTimeout (w k).1 (w k).2 := by
  have hcons := I2cMaster.consistent_run div timeout w
  have hzero := I2cMaster.idle_phase_run div timeout w
  constructor
  · intro hall k hk
    have hnext : (((I2cMaster.machine div timeout).run w k).next (w k).1 (w k).2).InRange := hall (k + 1) hk
    exact ((hall k (Nat.le_of_lt hk)).next_iff (hcons k) (hzero k)).mp hnext
  · intro hlow k hk
    induction k with
    | zero => exact ⟨fun hb => absurd hb Bool.false_ne_true, Nat.zero_le _⟩
    | succ k ih => exact ((ih (Nat.le_of_lt hk)).next_iff (hcons k) (hzero k)).mpr (hlow k hk)

/-- A start is commanded, and while it runs `CLOCK_DIV` is set to 1 and `TIMEOUT` to 3. -/
def limitsLowered (n : Nat) : Option Payload × Lines :=
  ([some ⟨true, 0x000, 1, 0xf⟩, some ⟨true, 0x014, 1, 0xf⟩, none, none, none, none, some ⟨true, 0x008, 1, 0xf⟩,
    some ⟨true, 0x018, 3, 0xf⟩].getD n none, ⟨true, true⟩)

/-- Neither counter stays within its limit. -/
theorem i2c_out_of_range : (¬ ∀ div timeout w n, ((I2cMaster.machine div timeout).run w n).busy = true →
      ((I2cMaster.machine div timeout).run w n).timeout ≠ 0 →
      ((I2cMaster.machine div timeout).run w n).commandTimer < ((I2cMaster.machine div timeout).run w n).timeout) ∧
    ¬ ∀ div timeout w n,
      ((I2cMaster.machine div timeout).run w n).phaseCount ≤ ((I2cMaster.machine div timeout).run w n).clockDiv := by
  constructor
  · intro h
    exact absurd (h 124 500000 limitsLowered 8 (by decide +kernel) (by decide +kernel)) (by decide +kernel)
  · intro h
    exact absurd (h 124 500000 limitsLowered 8) (by decide +kernel)

/-! ## The lines -/

/-- Over two cycles in which the clock line is let go, the data line changes only in a start or a stop, if the controller is
not reset and no command times out. -/
theorem i2c_line_discipline (div timeout : BitVec 32) (w : Nat → Option Payload × Lines) (n : Nat)
    (hlow : ((I2cMaster.machine div timeout).run w n).drives.sclLow = false)
    (hlow' : ((I2cMaster.machine div timeout).run w (n + 1)).drives.sclLow = false)
    (hsda : ((I2cMaster.machine div timeout).run w n).drives.sdaLow ≠
      ((I2cMaster.machine div timeout).run w (n + 1)).drives.sdaLow) :
    (((I2cMaster.machine div timeout).run w n).state = .startRelease ∧
        ((I2cMaster.machine div timeout).run w (n + 1)).state = .startSdaLow) ∨
      (((I2cMaster.machine div timeout).run w n).state = .stopSclHigh ∧
        ((I2cMaster.machine div timeout).run w (n + 1)).state = .stopRelease) ∨
      I2cMaster.softReset (w n).1 = true ∨ ((I2cMaster.machine div timeout).run w n).TimesOut (w n).1 := by
  have hcons := I2cMaster.consistent_run div timeout w n
  cases hsoft : I2cMaster.softReset (w n).1 with
  | true => exact Or.inr (Or.inr (Or.inl rfl))
  | false =>
    by_cases ht : ((I2cMaster.machine div timeout).run w n).TimesOut (w n).1
    · exact Or.inr (Or.inr (Or.inr ht))
    · cases hb : ((I2cMaster.machine div timeout).run w n).busy with
      | false => exact absurd (hcons.idle_keepsSda (l := (w n).2) hb hsoft hlow hlow') hsda
      | true =>
        rcases (hcons.goesOn hb).next_keepsSda (l := (w n).2) hsoft ht with hkeep | hstart | hstop
        · exact absurd (hkeep hlow hlow') hsda
        · exact Or.inl hstart
        · exact Or.inr (Or.inl hstop)

/-- The start falls under such a clock. -/
theorem i2c_line_discipline_start :
    (((I2cMaster.machine 0 0).run limitsLowered 2).state = .startRelease ∧
        ((I2cMaster.machine 0 0).run limitsLowered 3).state = .startSdaLow) ∨
      (((I2cMaster.machine 0 0).run limitsLowered 2).state = .stopSclHigh ∧
        ((I2cMaster.machine 0 0).run limitsLowered 3).state = .stopRelease) ∨
      I2cMaster.softReset (limitsLowered 2).1 = true ∨ ((I2cMaster.machine 0 0).run limitsLowered 2).TimesOut none :=
  i2c_line_discipline 0 0 limitsLowered 2 (by decide +kernel) (by decide +kernel) (by decide +kernel)

end SocRV
