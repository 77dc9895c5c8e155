import SocRV.Soc.I2cMaster

/-!
# A cycle of the I2C controller

All that a cycle can do, said once: the request may reset the controller, start a command or only write a register, and a
command that runs may time out, lose the arbitration, wait, count or leave its phase.
-/

namespace SocRV

namespace I2cMaster

/-! ## The requests of a cycle -/

/-- The write that comes in a cycle. -/
def writeOf (req : Option Payload) : Option Payload := req.filter Payload.write

/-- `CONTROL` is written. -/
def controls (req : Option Payload) : Bool :=
  (writeOf req).elim false fun p => offset p == 0x000 && p.wstrb.getLsbD 0

/-- `CONTROL` is written with the reset bit. -/
def softReset (req : Option Payload) : Bool :=
  controls req && (writeOf req).elim false fun p => p.wdata.getLsbD 1

/-- `CONTROL` is written with the bits that start the recovery of the bus. -/
def recovers (s : I2cMaster) (req : Option Payload) : Bool :=
  controls req && !softReset req && !s.busy && (writeOf req).elim false fun p => p.wdata.getLsbD 2 && p.wdata.getLsbD 0

/-- `COMMAND` is written to an enabled controller that is not busy. -/
def accepts (s : I2cMaster) (req : Option Payload) : Bool :=
  s.controllerEnable && !s.busy && (writeOf req).elim false fun p => offset p == 0x014 && p.wstrb.getLsbD 0

/-- The registers after the writes that do not concern the state machine. -/
def written (s : I2cMaster) (req : Option Payload) : I2cMaster := (writeOf req).elim s s.writeRegisters

/-- The enable bit after a write to `CONTROL`. -/
def enableOf (req : Option Payload) : Bool := (writeOf req).elim false fun p => p.wdata.getLsbD 0

/-- The registers after a soft reset, and after the start of a recovery. -/
def cleared (s : I2cMaster) (enable : Bool) : I2cMaster :=
  { s with
    controllerEnable := enable
    state := .idle, busy := false, done := false
    addrNack := false, dataNack := false, timeoutError := false, arbitrationLost := false, busStuck := false
    busActive := false, rxValid := false, phaseCount := 0, commandTimer := 0 }

@[inherit_doc cleared]
def recovering (s : I2cMaster) (enable : Bool) : I2cMaster :=
  { s with
    controllerEnable := enable
    state := .recoverLow, busy := true, done := false, busActive := false
    recoveryCount := 0, phaseCount := 0, commandTimer := 0 }

/-! ## A cycle of a command -/

/-- The lines let the phase go on. -/
def ready (s : I2cMaster) (l : Lines) : Bool :=
  match s.state with
  | .startRelease => l.scl && l.sda
  | .startSdaLow | .stopSclHigh | .writeBitHigh | .writeAckHigh | .readBitHigh | .readAckHigh | .recoverHigh => l.scl
  | _ => true

/-- A one that is sent is not on the line. -/
def lost (s : I2cMaster) (l : Lines) : Bool :=
  s.state == .writeBitHigh && s.txShift.getLsbD s.bitIndex.toNat && !l.sda

/-- The registers when a phase is over. -/
def leave (s : I2cMaster) (l : Lines) : I2cMaster :=
  match s.state with
  | .startRelease => s.goto .startSdaLow
  | .startSdaLow => s.goto .startSclLow
  | .startSclLow => { s.finish with busActive := true }
  | .stopSdaLow => s.goto .stopSclHigh
  | .stopSclHigh => s.goto .stopRelease
  | .stopRelease => { s.finish with busActive := false, busStuck := !l.scl || !l.sda }
  | .writeBitLow => s.goto .writeBitHigh
  | .writeBitHigh =>
    if s.bitIndex = 0 then s.goto .writeAckLow else { s.goto .writeBitLow with bitIndex := s.bitIndex - 1 }
  | .writeAckLow => s.goto .writeAckHigh
  | .writeAckHigh =>
    { s.goto .writeAckFinish with
      addrNack := s.addrNack || (l.sda && s.commandAddress)
      dataNack := s.dataNack || (l.sda && !s.commandAddress) }
  | .writeAckFinish => s.finish
  | .readBitLow => s.goto .readBitHigh
  | .readBitHigh =>
    let bit := 1#8 <<< s.bitIndex.toNat
    let t := { s with rxShift := if l.sda then s.rxShift ||| bit else s.rxShift &&& ~~~bit }
    if s.bitIndex = 0 then t.goto .readAckLow else { t.goto .readBitLow with bitIndex := s.bitIndex - 1 }
  | .readAckLow => s.goto .readAckHigh
  | .readAckHigh => s.goto .readAckFinish
  | .readAckFinish => { s.finish with rxData := s.rxShift, rxValid := true }
  | .recoverLow => s.goto .recoverHigh
  | .recoverHigh =>
    if s.recoveryCount = 8 || l.sda then { s.goto .stopSdaLow with busActive := true, recoveryCount := 0 }
    else { s.goto .recoverLow with recoveryCount := s.recoveryCount + 1 }
  | .idle => s

/-- A cycle of the state machine waits, loses the arbitration, or counts and leaves. -/
theorem step_eq {s : I2cMaster} (h : s.state ≠ .idle) (div : BitVec 32) (l : Lines) :
    s.step div l = if s.ready l then
      (if s.lost l then { s.finish with arbitrationLost := true, busActive := false } else s.phase div (s.leave l))
    else s.wait := by
  unfold step ready lost leave
  cases hs : s.state
  case idle => exact absurd hs h
  case writeBitHigh => cases s.txShift.getLsbD s.bitIndex.toNat <;> cases l.sda <;> rfl
  all_goals rfl

/-- What a running command does in a cycle, after the register writes: `s` has the values from before the cycle. -/
inductive RunCase (s : I2cMaster) (div timeout : BitVec 32) (l : Lines) : I2cMaster → Prop where
  | timeout (ht : timeout ≠ 0 ∧ s.commandTimer = timeout - 1) : RunCase s div timeout l
      { s.finish with timeoutError := true, busStuck := !l.scl || !l.sda, busActive := false }
  | wait (ht : ¬(timeout ≠ 0 ∧ s.commandTimer = timeout - 1)) (hr : s.ready l = false) :
      RunCase s div timeout l { s.wait with commandTimer := s.commandTimer + 1 }
  | lost (ht : ¬(timeout ≠ 0 ∧ s.commandTimer = timeout - 1)) (hr : s.ready l = true) (hl : s.lost l = true) :
      RunCase s div timeout l { s.finish with arbitrationLost := true, busActive := false }
  | count (ht : ¬(timeout ≠ 0 ∧ s.commandTimer = timeout - 1)) (hr : s.ready l = true) (hl : s.lost l = false)
      (hc : s.phaseCount ≠ div) :
      RunCase s div timeout l { s with phaseCount := s.phaseCount + 1, commandTimer := s.commandTimer + 1 }
  | leave (ht : ¬(timeout ≠ 0 ∧ s.commandTimer = timeout - 1)) (hr : s.ready l = true) (hl : s.lost l = false)
      (hc : s.phaseCount = div) : RunCase s div timeout l
        (if (s.leave l).busy then { s.leave l with commandTimer := s.commandTimer + 1 } else s.leave l)

/-- A cycle of a running command is one of the cases. -/
theorem run_case {s : I2cMaster} (hb : s.busy = true) (hs : s.state ≠ .idle) (div timeout : BitVec 32) (l : Lines) :
    RunCase s div timeout l (s.run div timeout l) := by
  unfold run
  by_cases ht : timeout ≠ 0 ∧ s.commandTimer = timeout - 1
  · rw [if_pos ht]
    exact .timeout ht
  · rw [if_neg ht]
    dsimp only
    rw [step_eq hs]
    cases hr : s.ready l with
    | false =>
      rw [if_neg Bool.false_ne_true, if_pos (show s.wait.busy = true from hb)]
      exact .wait ht hr
    | true =>
      rw [if_pos rfl]
      cases hl : s.lost l with
      | true => exact .lost ht hr hl
      | false =>
        rw [if_neg Bool.false_ne_true]
        unfold phase
        by_cases hc : s.phaseCount = div
        · rw [if_pos hc]
          exact .leave ht hr hl hc
        · rw [if_neg hc, if_pos hb]
          exact .count ht hr hl hc

/-! ## A whole cycle -/

/-- What a cycle does. -/
inductive Cycle (s : I2cMaster) (req : Option Payload) (l : Lines) : I2cMaster → Prop where
  | reset (hreq : softReset req = true) : Cycle s req l (s.cleared (enableOf req))
  | recover (hreq : s.recovers req = true) : Cycle s req l (s.recovering (enableOf req))
  | control (hreq : controls req = true) (hsoft : softReset req = false) (hrec : s.recovers req = false) :
      Cycle s req l { s with controllerEnable := enableOf req }
  | accept {p : Payload} (hc : controls req = false) (hreq : s.accepts req = true) (hp : writeOf req = some p) :
      Cycle s req l (s.acceptCommand p)
  | run (hc : controls req = false) (hb : s.busy = true) :
      Cycle s req l ((s.written req).run s.clockDiv s.timeout l)
  | rest (hc : controls req = false) (hacc : s.accepts req = false) (hb : s.busy = false) :
      Cycle s req l (s.written req)

/-- A request to the control or the command register writes no other register. -/
theorem writeRegisters_other {s : I2cMaster} {p : Payload} (h : offset p = 0x000 ∨ offset p = 0x014) :
    s.writeRegisters p = s := by
  unfold writeRegisters
  rcases h with h | h
  · rw [h]
    rfl
  · rw [h]
    rfl

/-- A write to `CONTROL`. -/
theorem control_case {s : I2cMaster} {req : Option Payload} {p : Payload} (l : Lines) (hp : writeOf req = some p)
    (hctrl : (offset p == 0x000 && p.wstrb.getLsbD 0) = true) : Cycle s req l (s.writeControl p) := by
  have hcontrols : controls req = true := by
    unfold controls
    rw [hp]
    exact hctrl
  have hsoft : softReset req = p.wdata.getLsbD 1 := by
    unfold softReset
    rw [hcontrols, hp]
    rfl
  have henable : enableOf req = p.wdata.getLsbD 0 := by
    unfold enableOf
    rw [hp]
    rfl
  have hrecovers : s.recovers req = (!p.wdata.getLsbD 1 && !s.busy && (p.wdata.getLsbD 2 && p.wdata.getLsbD 0)) := by
    unfold recovers
    rw [hcontrols, hsoft, hp]
    rfl
  unfold writeControl
  rw [← henable]
  by_cases h1 : p.wdata.getLsbD 1 = true
  · rw [if_pos h1]
    exact .reset (hsoft.trans h1)
  · rw [if_neg h1]
    rw [Bool.not_eq_true] at h1
    by_cases h2 : (p.wdata.getLsbD 2 && enableOf req && !s.busy) = true
    · rw [if_pos h2]
      refine .recover ?_
      rw [hrecovers, h1, ← henable, Bool.not_false, Bool.true_and, Bool.and_comm]
      exact h2
    · rw [if_neg h2]
      rw [Bool.not_eq_true] at h2
      refine .control hcontrols (hsoft.trans h1) ?_
      rw [hrecovers, h1, ← henable, Bool.not_false, Bool.true_and, Bool.and_comm]
      exact h2

/-- Every cycle is one of these. -/
theorem next_case (s : I2cMaster) (req : Option Payload) (l : Lines) : Cycle s req l (s.next req l) := by
  unfold next
  cases hp : req.filter Payload.write with
  | none =>
    have hw : writeOf req = none := hp
    have hcontrols : controls req = false := by
      unfold controls
      rw [hw]
      rfl
    have hwritten : s.written req = s := by
      unfold written
      rw [hw]
      rfl
    cases hb : s.busy with
    | true =>
      have hrun : Cycle s req l ((s.written req).run s.clockDiv s.timeout l) := .run hcontrols hb
      rwa [hwritten] at hrun
    | false =>
      have haccepts : s.accepts req = false := by
        unfold accepts
        rw [hw]
        exact Bool.and_false _
      have hrest : Cycle s req l (s.written req) := .rest hcontrols haccepts hb
      rwa [hwritten] at hrest
  | some p =>
    have hw : writeOf req = some p := hp
    have hwritten : s.written req = s.writeRegisters p := by
      unfold written
      rw [hw]
      rfl
    dsimp only
    by_cases hctrl : (decide (offset p = 0x000) && p.wstrb.getLsbD 0) = true
    · rw [if_pos hctrl]
      have hoff : offset p = 0x000 := by
        rw [Bool.and_eq_true, decide_eq_true_eq] at hctrl
        exact hctrl.1
      rw [writeRegisters_other (Or.inl hoff)]
      exact control_case l hw hctrl
    · rw [if_neg hctrl]
      rw [Bool.not_eq_true] at hctrl
      have hcontrols : controls req = false := by
        unfold controls
        rw [hw]
        exact hctrl
      have haccepts : s.accepts req =
          (decide (offset p = 0x014) && p.wstrb.getLsbD 0 && s.controllerEnable && !s.busy) := by
        unfold accepts
        rw [hw, Bool.and_comm, Bool.and_assoc]
        rfl
      by_cases hacc : (decide (offset p = 0x014) && p.wstrb.getLsbD 0 && s.controllerEnable && !s.busy) = true
      · rw [if_pos hacc]
        have hoff : offset p = 0x014 := by
          simp only [Bool.and_eq_true, decide_eq_true_eq] at hacc
          exact hacc.1.1.1
        rw [writeRegisters_other (Or.inr hoff)]
        exact .accept hcontrols (haccepts.trans hacc) hw
      · rw [if_neg hacc]
        rw [Bool.not_eq_true] at hacc
        cases hb : s.busy with
        | true =>
          rw [if_pos rfl, ← hwritten]
          exact .run hcontrols hb
        | false =>
          rw [if_neg Bool.false_ne_true, ← hwritten]
          exact .rest hcontrols (haccepts.trans hacc) hb

/-- The registers that the writes outside the state machine leave alone. -/
theorem written_eq (s : I2cMaster) (req : Option Payload) : ∃ dn an da te al bs : Bool, ∃ cd ti : BitVec 32,
    ∃ td : BitVec 8, s.written req = { s with
      done := dn, addrNack := an, dataNack := da, timeoutError := te, arbitrationLost := al, busStuck := bs
      clockDiv := cd, timeout := ti, txData := td } ∧
    (dn = true → s.done = true) ∧ (an = true → s.addrNack = true) ∧ (da = true → s.dataNack = true) := by
  unfold written
  cases writeOf req with
  | none => exact ⟨_, _, _, _, _, _, _, _, _, rfl, id, id, id⟩
  | some p =>
    show ∃ dn an da te al bs : Bool, ∃ cd ti : BitVec 32, ∃ td : BitVec 8, s.writeRegisters p = _ ∧ _
    unfold writeRegisters
    split
    · exact ⟨_, _, _, _, _, _, _, _, _, rfl, fun h => (Bool.and_eq_true_iff.mp h).1,
        fun h => (Bool.and_eq_true_iff.mp h).1, fun h => (Bool.and_eq_true_iff.mp h).1⟩
    · split
      · exact ⟨_, _, _, _, _, _, _, _, _, rfl, id, id, id⟩
      · split
        · exact ⟨_, _, _, _, _, _, _, _, _, rfl, id, id, id⟩
        · split
          · exact ⟨_, _, _, _, _, _, _, _, _, rfl, id, id, id⟩
          · exact ⟨_, _, _, _, _, _, _, _, _, rfl, id, id, id⟩

/-- A write to `CONTROL` is no other write. -/
theorem written_control {s : I2cMaster} {req : Option Payload} (hc : controls req = true) : s.written req = s := by
  unfold controls at hc
  unfold written
  cases hp : writeOf req with
  | none => rfl
  | some p =>
    rw [hp] at hc
    have hoff : (offset p == 0x000 && p.wstrb.getLsbD 0) = true := hc
    rw [Bool.and_eq_true, beq_iff_eq] at hoff
    exact writeRegisters_other (Or.inl hoff.1)

/-! ## A cycle of a running command -/

/-- The command runs into its timeout in a cycle. -/
def TimesOut (s : I2cMaster) (req : Option Payload) : Prop :=
  s.busy = true ∧ controls req = false ∧ s.timeout ≠ 0 ∧ s.commandTimer = s.timeout - 1

/-- The command loses the arbitration in a cycle. -/
def LosesArbitration (s : I2cMaster) (req : Option Payload) (l : Lines) : Prop :=
  s.busy = true ∧ controls req = false ∧ ¬ TimesOut s req ∧ s.ready l = true ∧ s.lost l = true

/-- What a cycle does while a command runs; the guards speak of the registers before the cycle. -/
inductive BusyCase (s : I2cMaster) (req : Option Payload) (l : Lines) : I2cMaster → Prop where
  | reset (hreq : softReset req = true) : BusyCase s req l (s.cleared (enableOf req))
  | control (hreq : controls req = true) (hsoft : softReset req = false) :
      BusyCase s req l { s with controllerEnable := enableOf req }
  | timeout (ht : TimesOut s req) : BusyCase s req l
      { (s.written req).finish with timeoutError := true, busStuck := !l.scl || !l.sda, busActive := false }
  | wait (hc : controls req = false) (ht : ¬ TimesOut s req) (hr : s.ready l = false) :
      BusyCase s req l { (s.written req).wait with commandTimer := s.commandTimer + 1 }
  | lost (ha : LosesArbitration s req l) :
      BusyCase s req l { (s.written req).finish with arbitrationLost := true, busActive := false }
  | count (hc : controls req = false) (ht : ¬ TimesOut s req) (hr : s.ready l = true) (hl : s.lost l = false)
      (hp : s.phaseCount ≠ s.clockDiv) : BusyCase s req l
        { s.written req with phaseCount := s.phaseCount + 1, commandTimer := s.commandTimer + 1 }
  | leave (hc : controls req = false) (ht : ¬ TimesOut s req) (hr : s.ready l = true) (hl : s.lost l = false)
      (hp : s.phaseCount = s.clockDiv) : BusyCase s req l
        (if ((s.written req).leave l).busy then { (s.written req).leave l with commandTimer := s.commandTimer + 1 }
        else (s.written req).leave l)

/-- A cycle of a busy controller is one of the cases. -/
theorem busy_case {s : I2cMaster} (hb : s.busy = true) (hs : s.state ≠ .idle) (req : Option Payload) (l : Lines) :
    BusyCase s req l (s.next req l) := by
  have hcase := next_case s req l
  generalize s.next req l = t at hcase ⊢
  cases hcase with
  | reset hreq => exact .reset hreq
  | recover hreq =>
    unfold recovers at hreq
    rw [hb, Bool.not_true, Bool.and_false, Bool.false_and] at hreq
    exact absurd hreq Bool.false_ne_true
  | control hreq hsoft hrec => exact .control hreq hsoft
  | accept hc hreq hp =>
    unfold accepts at hreq
    rw [hb, Bool.not_true, Bool.and_false, Bool.false_and] at hreq
    exact absurd hreq Bool.false_ne_true
  | rest hc hacc hb' => exact absurd (hb'.symm.trans hb) Bool.false_ne_true
  | run hc _ =>
    obtain ⟨dn, an, da, te, al, bs, cd, ti, td, heq, -⟩ := written_eq s req
    have hb' : (s.written req).busy = true := by rw [heq]; exact hb
    have hs' : (s.written req).state ≠ .idle := by rw [heq]; exact hs
    have htimer : (s.written req).commandTimer = s.commandTimer := by rw [heq]
    have hphase : (s.written req).phaseCount = s.phaseCount := by rw [heq]
    have hready : (s.written req).ready l = s.ready l := by rw [heq]; rfl
    have hlost : (s.written req).lost l = s.lost l := by rw [heq]; rfl
    have hout : ¬(s.timeout ≠ 0 ∧ (s.written req).commandTimer = s.timeout - 1) → ¬ TimesOut s req := by
      rw [htimer]
      exact fun h ht => h ht.2.2
    have hrun := run_case hb' hs' s.clockDiv s.timeout l
    generalize (s.written req).run s.clockDiv s.timeout l = t at hrun ⊢
    cases hrun with
    | timeout ht =>
      rw [htimer] at ht
      exact .timeout ⟨hb, hc, ht⟩
    | wait ht hr =>
      rw [htimer]
      exact .wait hc (hout ht) (hready.symm.trans hr)
    | lost ht hr hl => exact .lost ⟨hb, hc, hout ht, hready.symm.trans hr, hlost.symm.trans hl⟩
    | count ht hr hl hp =>
      rw [htimer, hphase]
      rw [hphase] at hp
      exact .count hc (hout ht) (hready.symm.trans hr) (hlost.symm.trans hl) hp
    | leave ht hr hl hp =>
      rw [htimer]
      rw [hphase] at hp
      exact .leave hc (hout ht) (hready.symm.trans hr) (hlost.symm.trans hl) hp

end I2cMaster

end SocRV
