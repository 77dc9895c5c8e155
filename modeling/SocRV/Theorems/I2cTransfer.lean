import SocRV.Lib.Counting
import SocRV.Soc.I2cTransfer

/-!
# Byte transfers

A command that runs to its end without a reset, a timeout or a lost arbitration has made nine clock pulses: the byte goes
over the data line in the first eight, the acknowledge in the ninth.  No write to a register, no clock divider and no
device that holds the clock changes what goes over the lines.
-/

namespace SocRV

namespace I2cMaster

/-- The clock pulses that end in the `j` cycles from `k` on. -/
def pulses (div timeout : BitVec 32) (w : Nat → Option Payload × Lines) (k j : Nat) : List Pulse :=
  (machine div timeout).eventsFrom (fun s i => pulse s.drives (s.next i.1 i.2).drives i.2) w k j

/-- The command that is accepted in cycle `n` runs for `d` cycles and ends undisturbed. -/
structure RunsFor (div timeout : BitVec 32) (w : Nat → Option Payload × Lines) (n d : Nat) : Prop where
  pos : 0 < d
  accepted : ((machine div timeout).run w n).accepts (w n).1 = true
  busy : ∀ j < d, ((machine div timeout).run w (n + 1 + j)).busy = true
  ended : ((machine div timeout).run w (n + 1 + d)).busy = false
  undisturbed : ∀ j < d, Undisturbed ((machine div timeout).run w (n + 1 + j)) (w (n + 1 + j)).1 (w (n + 1 + j)).2

/-- The command of `d` cycles after `n` writes the byte `b`. -/
structure WritesByte (div timeout : BitVec 32) (w : Nat → Option Payload × Lines) (n d : Nat) (b : BitVec 8)
    (address : Bool) : Prop where
  /-- In every cycle in which the clock line is let go, the data line is as the bit of the pulse says. -/
  line : ∀ j < d, ((machine div timeout).run w (n + 1 + j)).drives.sclLow = false →
    (writeLine b)[(pulses div timeout w (n + 1) j).length]? =
      some (!((machine div timeout).run w (n + 1 + j)).drives.sdaLow)
  pulses : (pulses div timeout w (n + 1) d).map Pulse.released = writeLine b
  /-- A pulse ends in a cycle in which the clock line is high. -/
  clock : ∀ j < d, (I2cMaster.pulses div timeout w (n + 1) j).length <
    (I2cMaster.pulses div timeout w (n + 1) (j + 1)).length → (w (n + 1 + j)).2.scl = true
  /-- One cycle samples the acknowledge, at the end of the ninth pulse; no other sets an acknowledge flag. -/
  acknowledge : ∃ c < d, (I2cMaster.pulses div timeout w (n + 1) c).length = 8 ∧
    (I2cMaster.pulses div timeout w (n + 1) (c + 1)).length = 9 ∧ ∀ j < d,
      if j = c then
        SetsFlags ((machine div timeout).run w (n + 1 + j)) (w (n + 1 + j)).1 address (w (n + 1 + j)).2.sda
          ((machine div timeout).run w (n + 1 + j + 1))
      else
        KeepsFlags ((machine div timeout).run w (n + 1 + j)) (w (n + 1 + j)).1
          ((machine div timeout).run w (n + 1 + j + 1))

/-- The command of `d` cycles after `n` reads a byte. -/
structure ReadsByte (div timeout : BitVec 32) (w : Nat → Option Payload × Lines) (n d : Nat) (nack : Bool) : Prop where
  line : ∀ j < d, ((machine div timeout).run w (n + 1 + j)).drives.sclLow = false →
    (readLine nack)[(pulses div timeout w (n + 1) j).length]? =
      some (!((machine div timeout).run w (n + 1 + j)).drives.sdaLow)
  pulses : (pulses div timeout w (n + 1) d).map Pulse.released = readLine nack
  clock : ∀ j < d, (I2cMaster.pulses div timeout w (n + 1) j).length <
    (I2cMaster.pulses div timeout w (n + 1) (j + 1)).length → (w (n + 1 + j)).2.scl = true
  data : byteBits ((machine div timeout).run w (n + 1 + d)).rxData =
    ((I2cMaster.pulses div timeout w (n + 1) d).map Pulse.level).take 8
  valid : ((machine div timeout).run w (n + 1 + d)).rxValid = true

section Runs

variable {div timeout : BitVec 32} {w : Nat → Option Payload × Lines} {n d j k : Nat} {b : BitVec 8}
  {address nack : Bool}

/-- The clock pulses of one more cycle come last. -/
theorem pulses_succ (k j : Nat) : pulses div timeout w k (j + 1) = pulses div timeout w k j ++
    pulse ((machine div timeout).run w (k + j)).drives ((machine div timeout).run w (k + j + 1)).drives
      (w (k + j)).2 := rfl

/-- At most one pulse ends in a cycle. -/
theorem pulses_counts (k : Nat) : Counts fun j => (pulses div timeout w k j).length := by
  refine ⟨rfl, fun j => ?_, fun j => ?_⟩
  · rw [pulses_succ, List.length_append]
    exact Nat.le_add_right _ _
  · rw [pulses_succ, List.length_append]
    refine Nat.add_le_add_left ?_ _
    unfold pulse
    split
    · exact Nat.le_refl 1
    · exact Nat.zero_le 1

/-- A command that runs for `d` cycles goes on in each of them. -/
theorem RunsFor.goesOn (h : RunsFor div timeout w n d) (hj : j < d) :
    GoesOn ((machine div timeout).run w (n + 1 + j)) :=
  (consistent_run div timeout w (n + 1 + j)).goesOn (h.busy j hj)

/-- A phase of a command is not after its end. -/
theorem RunsFor.lt (h : RunsFor div timeout w n d) (hj : j < d)
    (hstate : ((machine div timeout).run w (n + 1 + (j + 1))).state ≠ .idle) : j + 1 < d := by
  rcases Nat.lt_or_ge (j + 1) d with hlt | hge
  · exact hlt
  · have heq : j + 1 = d := Nat.le_antisymm hj hge
    have hbusy := (consistent_run div timeout w (n + 1 + (j + 1))).busy_iff.mpr hstate
    rw [heq, h.ended] at hbusy
    exact absurd hbusy Bool.false_ne_true

/-! ## Writing -/

/-- Where the writing is in each of its cycles. -/
theorem RunsFor.write_at (h : RunsFor div timeout w n d)
    (h0 : WritePhase b 0 ((machine div timeout).run w (n + 1)))
    (haddress : ((machine div timeout).run w (n + 1)).commandAddress = address) (hj : j < d) :
    Follows (writeLine b) (pulses div timeout w (n + 1) j) ∧
      WritePhase b (pulses div timeout w (n + 1) j).length ((machine div timeout).run w (n + 1 + j)) ∧
      ((machine div timeout).run w (n + 1 + j)).commandAddress = address := by
  induction j with
  | zero => exact ⟨follows_nil _, h0, haddress⟩
  | succ j ih =>
    have hj' := Nat.lt_of_succ_lt hj
    obtain ⟨hfollows, hphase, haddr⟩ := ih hj'
    have hstep : WriteStep b address _ _ _ _ ((machine div timeout).run w (n + 1 + j + 1)) :=
      hphase.next (h.goesOn hj') haddr (h.undisturbed j hj')
    rw [pulses_succ]
    cases hstep with
    | quiet hp hflags hnext haddr' =>
      rw [hp, List.append_nil]
      exact ⟨hfollows, hnext, haddr'⟩
    | bit hp hr hk hscl hflags hnext haddr' =>
      rw [hp, List.length_append]
      exact ⟨hfollows.append hr _, hnext, haddr'⟩
    | acknowledge hp hk hscl hflags hnext haddr' =>
      rw [hp, List.length_append]
      refine ⟨hfollows.append ?_ _, hnext, haddr'⟩
      rw [hk]
      rfl
    | finish hp hk hflags hb => exact absurd (hb.symm.trans (h.busy (j + 1) hj)) Bool.false_ne_true

/-- A cycle of the writing. -/
theorem RunsFor.write_step (h : RunsFor div timeout w n d)
    (h0 : WritePhase b 0 ((machine div timeout).run w (n + 1)))
    (haddress : ((machine div timeout).run w (n + 1)).commandAddress = address) (hj : j < d) :
    WriteStep b address (pulses div timeout w (n + 1) j).length ((machine div timeout).run w (n + 1 + j))
      (w (n + 1 + j)).1 (w (n + 1 + j)).2 ((machine div timeout).run w (n + 1 + j + 1)) := by
  obtain ⟨-, hphase, haddr⟩ := h.write_at h0 haddress hj
  exact hphase.next (h.goesOn hj) haddr (h.undisturbed j hj)

/-- An undisturbed command in a write phase writes its byte. -/
theorem RunsFor.writes (h : RunsFor div timeout w n d)
    (h0 : WritePhase b 0 ((machine div timeout).run w (n + 1)))
    (haddress : ((machine div timeout).run w (n + 1)).commandAddress = address) :
    WritesByte div timeout w n d b address := by
  obtain ⟨e, rfl⟩ : ∃ e, d = e + 1 := Nat.exists_eq_succ_of_ne_zero (Nat.ne_of_gt h.pos)
  have hlast := h.write_step h0 haddress (Nat.lt_succ_self e)
  have hfollows := (h.write_at h0 haddress (Nat.lt_succ_self e)).1
  have hnot : ∀ {k}, WritePhase b k ((machine div timeout).run w (n + 1 + e + 1)) → False :=
    fun hphase => Nat.lt_irrefl _ (h.lt (Nat.lt_succ_self e) hphase.busy)
  -- the last cycle is the end: nine pulses have been made before
  obtain ⟨hlen, hnone⟩ : (pulses div timeout w (n + 1) e).length = 9 ∧
      pulses div timeout w (n + 1) (e + 1) = pulses div timeout w (n + 1) e := by
    rw [pulses_succ]
    cases hlast with
    | quiet _ _ hphase _ => exact (hnot hphase).elim
    | bit _ _ _ _ _ hphase _ => exact (hnot hphase).elim
    | acknowledge _ _ _ _ hphase _ => exact (hnot hphase).elim
    | finish hp hk _ _ => exact ⟨hk, by rw [hp, List.append_nil]⟩
  have hcounts : Counts fun j => (pulses div timeout w (n + 1) j).length := pulses_counts (n + 1)
  obtain ⟨c, hc, hc8, hc9⟩ := hcounts.exists_step (k := 8) (t := e) (by rw [hlen]; exact Nat.lt_succ_self 8)
  refine ⟨fun j hj hlow => (h.write_at h0 haddress hj).2.1.line hlow, ?_, fun j hj hlt => ?_, c, Nat.lt_succ_of_lt hc,
    hc8, hc9, fun j hj => ?_⟩
  · rw [hnone, hfollows, hlen]
    rfl
  · rw [pulses_succ, List.length_append] at hlt
    have hstep := h.write_step h0 haddress hj
    cases hstep with
    | quiet hp _ _ _ => exact absurd (by rw [hp] at hlt; exact hlt) (Nat.lt_irrefl _)
    | bit _ _ _ hscl _ _ _ => exact hscl
    | acknowledge _ _ hscl _ _ _ => exact hscl
    | finish hp _ _ _ => exact absurd (by rw [hp] at hlt; exact hlt) (Nat.lt_irrefl _)
  · have hstep := h.write_step h0 haddress hj
    split
    · rename_i hjc
      rw [← hjc] at hc8 hc9
      cases hstep with
      | quiet hp _ _ _ =>
        rw [pulses_succ, hp, List.append_nil, hc8] at hc9
        exact absurd hc9 (by decide)
      | bit _ _ hk _ _ _ _ => exact absurd hk (by rw [hc8]; exact Nat.lt_irrefl 8)
      | acknowledge _ _ _ hflags _ _ => exact hflags
      | finish _ hk _ _ => exact absurd (hc8.symm.trans hk) (by decide)
    · rename_i hjc
      cases hstep with
      | quiet _ hflags _ _ => exact hflags
      | bit _ _ _ _ hflags _ _ => exact hflags
      | acknowledge hp hk _ _ _ _ =>
        have hk9 : (pulses div timeout w (n + 1) (j + 1)).length = 9 := by
          rw [pulses_succ, hp, List.length_append, hk]
          rfl
        exact absurd (hcounts.step_unique hk hk9 hc8 hc9) hjc
      | finish _ _ hflags _ => exact hflags

/-! ## Reading -/

/-- Where the reading is in each of its cycles. -/
theorem RunsFor.read_at (h : RunsFor div timeout w n d)
    (h0 : ReadPhase nack 0 ((machine div timeout).run w (n + 1)))
    (hnack : ((machine div timeout).run w (n + 1)).readNack = nack) (hj : j < d) :
    Follows (readLine nack) (pulses div timeout w (n + 1) j) ∧
      Reads ((machine div timeout).run w (n + 1 + j)).rxShift (pulses div timeout w (n + 1) j) ∧
      ReadPhase nack (pulses div timeout w (n + 1) j).length ((machine div timeout).run w (n + 1 + j)) ∧
      ((machine div timeout).run w (n + 1 + j)).readNack = nack := by
  induction j with
  | zero => exact ⟨follows_nil _, reads_nil _, h0, hnack⟩
  | succ j ih =>
    have hj' := Nat.lt_of_succ_lt hj
    obtain ⟨hfollows, hreads, hphase, hnk⟩ := ih hj'
    have hstep : ReadStep nack _ _ _ ((machine div timeout).run w (n + 1 + j + 1)) :=
      hphase.next (h.goesOn hj') hnk (h.undisturbed j hj')
    rw [pulses_succ]
    cases hstep with
    | quiet hp hrx hnext hnk' =>
      rw [hp, List.append_nil]
      refine ⟨hfollows, ?_, hnext, hnk'⟩
      rw [← Nat.add_assoc, hrx]
      exact hreads
    | bit hp hk hscl hrx hnext hnk' =>
      rw [hp, List.length_append]
      refine ⟨hfollows.append (readLine_bit nack hk) _, ?_, hnext, hnk'⟩
      rw [← Nat.add_assoc, hrx]
      exact hreads.append hk _
    | acknowledge hp hk hscl hrx hnext hnk' =>
      rw [hp, List.length_append]
      refine ⟨hfollows.append ?_ _, ?_, hnext, hnk'⟩
      · rw [hk]
        rfl
      · rw [← Nat.add_assoc, hrx]
        exact hreads.append_of_le (Nat.le_of_eq hk.symm) _
    | finish hp hk hdata hvalid hb => exact absurd (hb.symm.trans (h.busy (j + 1) hj)) Bool.false_ne_true

/-- An undisturbed command in a read phase reads a byte. -/
theorem RunsFor.reads (h : RunsFor div timeout w n d)
    (h0 : ReadPhase nack 0 ((machine div timeout).run w (n + 1)))
    (hnack : ((machine div timeout).run w (n + 1)).readNack = nack) : ReadsByte div timeout w n d nack := by
  obtain ⟨e, rfl⟩ : ∃ e, d = e + 1 := Nat.exists_eq_succ_of_ne_zero (Nat.ne_of_gt h.pos)
  obtain ⟨hfollows, hreads, hphase, hnk⟩ := h.read_at h0 hnack (Nat.lt_succ_self e)
  have hlast : ReadStep nack _ _ _ ((machine div timeout).run w (n + 1 + e + 1)) :=
    hphase.next (h.goesOn (Nat.lt_succ_self e)) hnk (h.undisturbed e (Nat.lt_succ_self e))
  have hnot : ∀ {k}, ReadPhase nack k ((machine div timeout).run w (n + 1 + e + 1)) → False :=
    fun hphase => Nat.lt_irrefl _ (h.lt (Nat.lt_succ_self e) hphase.busy)
  have hline : ∀ j < e + 1, ((machine div timeout).run w (n + 1 + j)).drives.sclLow = false →
      (readLine nack)[(pulses div timeout w (n + 1) j).length]? =
        some (!((machine div timeout).run w (n + 1 + j)).drives.sdaLow) := by
    intro j hj hlow
    obtain ⟨-, -, hphase, hnk⟩ := h.read_at h0 hnack hj
    exact hphase.line hnk hlow
  cases hlast with
  | quiet _ _ hphase _ => exact (hnot hphase).elim
  | bit _ _ _ _ hphase _ => exact (hnot hphase).elim
  | acknowledge _ _ _ _ hphase _ => exact (hnot hphase).elim
  | finish hp hk hdata hvalid _ =>
    have hnone : pulses div timeout w (n + 1) (e + 1) = pulses div timeout w (n + 1) e := by
      rw [pulses_succ, hp, List.append_nil]
    refine ⟨hline, ?_, fun j hj hlt => ?_, ?_, hvalid⟩
    · rw [hnone, hfollows, hk]
      rfl
    · obtain ⟨-, -, hphase, hnk⟩ := h.read_at h0 hnack hj
      have hstep : ReadStep nack _ _ _ ((machine div timeout).run w (n + 1 + j + 1)) :=
        hphase.next (h.goesOn hj) hnk (h.undisturbed j hj)
      rw [pulses_succ, List.length_append] at hlt
      cases hstep with
      | quiet hp _ _ _ => exact absurd (by rw [hp] at hlt; exact hlt) (Nat.lt_irrefl _)
      | bit _ _ hscl _ _ _ => exact hscl
      | acknowledge _ _ hscl _ _ _ => exact hscl
      | finish hp _ _ _ _ => exact absurd (by rw [hp] at hlt; exact hlt) (Nat.lt_irrefl _)
    · have hdata' : ((machine div timeout).run w (n + 1 + (e + 1))).rxData = _ := hdata
      rw [hnone, hdata', hreads.levels (by rw [hk]; decide)]

/-! ## The start of a command -/

/-- A command that starts has its request in the registers. -/
theorem RunsFor.start (h : RunsFor div timeout w n d) :
    (commandOf (w n).1 = 0b0100 →
      WritePhase ((machine div timeout).run w n).txData 0 ((machine div timeout).run w (n + 1)) ∧
        ((machine div timeout).run w (n + 1)).commandAddress = addressOf (w n).1) ∧
    (commandOf (w n).1 = 0b1000 → ReadPhase (nackOf (w n).1) 0 ((machine div timeout).run w (n + 1)) ∧
      ((machine div timeout).run w (n + 1)).readNack = nackOf (w n).1) := by
  obtain ⟨p, hp, hnext⟩ := accepted_next h.accepted (w n).2
  have hbusy : ((machine div timeout).run w (n + 1)).busy = true := h.busy 0 h.pos
  have hnot := accepts_not_busy h.accepted
  have hrun : (machine div timeout).run w (n + 1) = ((machine div timeout).run w n).acceptCommand p := hnext
  unfold commandOf addressOf nackOf
  rw [hp]
  rw [hrun] at hbusy ⊢
  unfold acceptCommand at hbusy ⊢
  constructor
  · intro hcommand
    have hcommand' : p.wdata.extractLsb' 0 4 = 0b0100 := hcommand
    dsimp only at hbusy ⊢
    rw [hcommand'] at hbusy ⊢
    cases hactive : ((machine div timeout).run w n).busActive with
    | false =>
      rw [hactive] at hbusy
      exact absurd (hnot.symm.trans hbusy) Bool.false_ne_true
    | true => exact ⟨.bitLow rfl (by decide) rfl rfl, rfl⟩
  · intro hcommand
    have hcommand' : p.wdata.extractLsb' 0 4 = 0b1000 := hcommand
    dsimp only at hbusy ⊢
    rw [hcommand'] at hbusy ⊢
    cases hactive : ((machine div timeout).run w n).busActive with
    | false =>
      rw [hactive] at hbusy
      exact absurd (hnot.symm.trans hbusy) Bool.false_ne_true
    | true => exact ⟨.bitLow rfl (by decide) rfl, rfl⟩

end Runs

end I2cMaster

/-- A command that runs to its end undisturbed writes the byte that was in `TXDATA` when it was accepted, or reads one into
`RXDATA`. -/
theorem i2c_transfers_bytes (div timeout : BitVec 32) (w : Nat → Option Payload × Lines) (n d : Nat)
    (h : I2cMaster.RunsFor div timeout w n d) :
    (I2cMaster.commandOf (w n).1 = 0b0100 → I2cMaster.WritesByte div timeout w n d
      ((I2cMaster.machine div timeout).run w n).txData (I2cMaster.addressOf (w n).1)) ∧
    (I2cMaster.commandOf (w n).1 = 0b1000 →
      I2cMaster.ReadsByte div timeout w n d (I2cMaster.nackOf (w n).1)) := by
  obtain ⟨hwrite, hread⟩ := h.start
  constructor
  · intro hcommand
    obtain ⟨hphase, haddress⟩ := hwrite hcommand
    exact h.writes hphase haddress
  · intro hcommand
    obtain ⟨hphase, hnack⟩ := hread hcommand
    exact h.reads hphase hnack

/-- A start, and then the address `0x46`, with no device on the bus. -/
def addressNobody (n : Nat) : Option Payload × Lines :=
  ([some ⟨true, 0x000, 1, 0xf⟩, some ⟨true, 0x014, 1, 0xf⟩, some ⟨true, 0x00c, 0x46, 0xf⟩, none, none,
    some ⟨true, 0x014, 0x24, 0xf⟩].getD n none, ⟨true, true⟩)

/-- The address is written. -/
theorem i2c_transfers_bytes_address : (I2cMaster.commandOf (addressNobody 5).1 = 0b0100 →
      I2cMaster.WritesByte 0 0 addressNobody 5 19 0x46 true) ∧
    (I2cMaster.commandOf (addressNobody 5).1 = 0b1000 → I2cMaster.ReadsByte 0 0 addressNobody 5 19 false) :=
  i2c_transfers_bytes 0 0 addressNobody 5 19 {
    pos := by decide
    accepted := by decide +kernel
    busy := by decide +kernel
    ended := by decide +kernel
    undisturbed := by
      intro j hj
      have htimeout : ∀ j < 19, ((I2cMaster.machine 0 0).run addressNobody (5 + 1 + j)).timeout = 0 := by
        decide +kernel
      have hlost : ∀ j < 19, ((I2cMaster.machine 0 0).run addressNobody (5 + 1 + j)).lost
          (addressNobody (5 + 1 + j)).2 = false := by
        decide +kernel
      have hreset : ∀ j < 19, I2cMaster.softReset (addressNobody (5 + 1 + j)).1 = false := by decide +kernel
      refine ⟨hreset j hj, fun ht => ht.2.2.1 (htimeout j hj), fun ha => ?_⟩
      exact Bool.false_ne_true ((hlost j hj).symm.trans ha.2.2.2.2) }

end SocRV
