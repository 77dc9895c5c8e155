import SocRV.Soc.I2cInvariant

/-!
# Byte transfers of the I2C controller

Where a byte command is and how many clock pulses it has made belong together, whatever is written to the registers and
however long a device holds the clock.
-/

namespace SocRV

namespace I2cMaster

/-! ## The request of a command -/

/-- The command that is written, the address flag and the flag for the acknowledge of a read. -/
def commandOf (req : Option Payload) : BitVec 4 := (writeOf req).elim 0 fun p => p.wdata.extractLsb' 0 4

@[inherit_doc commandOf]
def addressOf (req : Option Payload) : Bool := (writeOf req).elim false fun p => p.wdata.getLsbD 5

@[inherit_doc commandOf]
def nackOf (req : Option Payload) : Bool := (writeOf req).elim false fun p => p.wdata.getLsbD 4

/-! ## A cycle of an undisturbed command -/

/-- The cycle brings no soft reset, no timeout and no lost arbitration. -/
structure Undisturbed (s : I2cMaster) (req : Option Payload) (l : Lines) : Prop where
  reset : softReset req = false
  timeout : ¬ TimesOut s req
  arbitration : ¬ LosesArbitration s req l

/-- The registers that a transfer goes by are the same. -/
structure Held (s t : I2cMaster) : Prop where
  state : t.state = s.state
  busActive : t.busActive = s.busActive
  bitIndex : t.bitIndex = s.bitIndex
  txShift : t.txShift = s.txShift
  rxShift : t.rxShift = s.rxShift
  commandAddress : t.commandAddress = s.commandAddress
  readNack : t.readNack = s.readNack

/-- The acknowledge flags are those that the register writes leave. -/
structure KeepsFlags (s : I2cMaster) (req : Option Payload) (t : I2cMaster) : Prop where
  addr : t.addrNack = (s.written req).addrNack
  data : t.dataNack = (s.written req).dataNack

/-- The acknowledge flags take up the level of the data line. -/
structure SetsFlags (s : I2cMaster) (req : Option Payload) (address level : Bool) (t : I2cMaster) : Prop where
  addr : t.addrNack = ((s.written req).addrNack || (level && address))
  data : t.dataNack = ((s.written req).dataNack || (level && !address))

/-- What an undisturbed command does in a cycle: it stays in its phase or leaves it. -/
inductive Proceeds (s : I2cMaster) (req : Option Payload) (l : Lines) : I2cMaster → Prop where
  | stay {t : I2cMaster} (h : Held s t) (hflags : KeepsFlags s req t) : Proceeds s req l t
  | leave {u : I2cMaster} (timer : BitVec 32) (h : Held s u) (hflags : KeepsFlags s req u) (hr : s.ready l = true) :
      Proceeds s req l { u.leave l with commandTimer := timer }

section Transfer

variable {s t : I2cMaster} {req : Option Payload} {l : Lines}

/-- A state that is held drives the same lines. -/
theorem Held.drives (h : Held s t) : t.drives = s.drives := by
  unfold I2cMaster.drives
  rw [h.state, h.busActive, h.bitIndex, h.txShift, h.readNack]

/-- The register writes do not touch a transfer. -/
theorem written_held (s : I2cMaster) (req : Option Payload) : Held s (s.written req) := by
  obtain ⟨dn, an, da, te, al, bs, cd, ti, td, heq, -⟩ := written_eq s req
  rw [heq]
  exact ⟨rfl, rfl, rfl, rfl, rfl, rfl, rfl⟩

/-- An undisturbed command that goes on proceeds. -/
theorem GoesOn.proceeds (h : GoesOn s) (hu : Undisturbed s req l) : Proceeds s req l (s.next req l) := by
  have hheld := written_held s req
  have hcase := busy_case h.busy h.state req l
  generalize s.next req l = t at hcase ⊢
  cases hcase with
  | reset hreq => exact absurd (hu.reset.symm.trans hreq) Bool.false_ne_true
  | control hreq _ =>
    refine .stay ⟨rfl, rfl, rfl, rfl, rfl, rfl, rfl⟩ ?_
    refine ⟨?_, ?_⟩
    · rw [written_control hreq]
    · rw [written_control hreq]
  | timeout ht => exact absurd ht hu.timeout
  | wait hc ht hr =>
    exact .stay ⟨hheld.1, hheld.2, hheld.3, hheld.4, hheld.5, hheld.6, hheld.7⟩ ⟨rfl, rfl⟩
  | lost ha => exact absurd ha hu.arbitration
  | count hc ht hr hl hp =>
    exact .stay ⟨hheld.1, hheld.2, hheld.3, hheld.4, hheld.5, hheld.6, hheld.7⟩ ⟨rfl, rfl⟩
  | leave hc ht hr hl hp =>
    split
    · exact .leave _ hheld ⟨rfl, rfl⟩ hr
    · exact .leave ((s.written req).leave l).commandTimer hheld ⟨rfl, rfl⟩ hr

/-- The number of the bit goes down by one until it is zero. -/
theorem bitIndex_next {k : Nat} (hk : k < 8) (hindex : s.bitIndex.toNat = 7 - k) :
    (s.bitIndex = 0 ∧ k + 1 = 8) ∨ (s.bitIndex ≠ 0 ∧ k + 1 < 8 ∧ (s.bitIndex - 1).toNat = 7 - (k + 1)) := by
  by_cases h0 : s.bitIndex = 0
  · refine Or.inl ⟨h0, ?_⟩
    rw [h0] at hindex
    have hzero : (0 : BitVec 3).toNat = 0 := rfl
    omega
  · have hne : s.bitIndex.toNat ≠ 0 := fun h => h0 (BitVec.eq_of_toNat_eq h)
    refine Or.inr ⟨h0, by omega, ?_⟩
    rw [toNat_pred _ hne, hindex]
    omega

/-! ## A byte that is written -/

/-- What the controller does with the data line in the nine pulses of a byte that is written. -/
def writeLine (b : BitVec 8) : List Bool := byteBits b ++ [true]

/-- Where the writing of `b` is after `k` pulses. -/
inductive WritePhase (b : BitVec 8) : Nat → I2cMaster → Prop where
  | bitLow {k : Nat} {s : I2cMaster} (hs : s.state = .writeBitLow) (hk : k < 8) (hindex : s.bitIndex.toNat = 7 - k)
      (htx : s.txShift = b) : WritePhase b k s
  | bitHigh {k : Nat} {s : I2cMaster} (hs : s.state = .writeBitHigh) (hk : k < 8) (hindex : s.bitIndex.toNat = 7 - k)
      (htx : s.txShift = b) : WritePhase b k s
  | ackLow {s : I2cMaster} (hs : s.state = .writeAckLow) : WritePhase b 8 s
  | ackHigh {s : I2cMaster} (hs : s.state = .writeAckHigh) : WritePhase b 8 s
  | ackFinish {s : I2cMaster} (hs : s.state = .writeAckFinish) : WritePhase b 9 s

/-- What a cycle of the writing of a byte does after `k` pulses: nothing on the bus, the end of a pulse, or the end. -/
inductive WriteStep (b : BitVec 8) (address : Bool) (k : Nat) (s : I2cMaster) (req : Option Payload) (l : Lines)
    (t : I2cMaster) : Prop where
  | quiet (hp : pulse s.drives t.drives l = []) (hflags : KeepsFlags s req t) (h : WritePhase b k t)
      (haddress : t.commandAddress = address) : WriteStep b address k s req l t
  | bit {r : Bool} (hp : pulse s.drives t.drives l = [⟨r, l.sda⟩]) (hr : (writeLine b)[k]? = some r) (hk : k < 8)
      (hscl : l.scl = true) (hflags : KeepsFlags s req t) (h : WritePhase b (k + 1) t) (haddress : t.commandAddress = address) :
      WriteStep b address k s req l t
  | acknowledge (hp : pulse s.drives t.drives l = [⟨true, l.sda⟩]) (hk : k = 8) (hscl : l.scl = true)
      (hflags : SetsFlags s req address l.sda t) (h : WritePhase b (k + 1) t) (haddress : t.commandAddress = address) :
      WriteStep b address k s req l t
  | finish (hp : pulse s.drives t.drives l = []) (hk : k = 9) (hflags : KeepsFlags s req t) (hb : t.busy = false) :
      WriteStep b address k s req l t

section Write

variable {b : BitVec 8} {address : Bool} {k : Nat}

/-- A phase of a write stays one while the state is held. -/
theorem WritePhase.held (h : WritePhase b k s) (hheld : Held s t) : WritePhase b k t := by
  cases h with
  | bitLow hs hk hindex htx =>
    exact .bitLow (hheld.state.trans hs) hk (by rw [hheld.bitIndex]; exact hindex) (hheld.txShift.trans htx)
  | bitHigh hs hk hindex htx =>
    exact .bitHigh (hheld.state.trans hs) hk (by rw [hheld.bitIndex]; exact hindex) (hheld.txShift.trans htx)
  | ackLow hs => exact .ackLow (hheld.state.trans hs)
  | ackHigh hs => exact .ackHigh (hheld.state.trans hs)
  | ackFinish hs => exact .ackFinish (hheld.state.trans hs)

/-- A phase of a write is not idle. -/
theorem WritePhase.busy (h : WritePhase b k s) : s.state ≠ .idle := by
  cases h with
  | bitLow hs _ _ _ => exact fun h => I2cState.noConfusion (hs.symm.trans h)
  | bitHigh hs _ _ _ => exact fun h => I2cState.noConfusion (hs.symm.trans h)
  | ackLow hs => exact fun h => I2cState.noConfusion (hs.symm.trans h)
  | ackHigh hs => exact fun h => I2cState.noConfusion (hs.symm.trans h)
  | ackFinish hs => exact fun h => I2cState.noConfusion (hs.symm.trans h)

/-- Bit `k` of a written byte is the one on the bus, the highest first. -/
theorem writeLine_bit (b : BitVec 8) (hk : k < 8) : (writeLine b)[k]? = some (busBit b k) := by
  unfold writeLine
  rw [List.getElem?_append_left (by rw [byteBits_length]; exact hk), byteBits_getElem? b hk]

/-- While the clock line is let go, the data line is as the byte says. -/
theorem WritePhase.line (h : WritePhase b k s) (hlow : s.drives.sclLow = false) :
    (writeLine b)[k]? = some (!s.drives.sdaLow) := by
  have hnot : ∀ d : Drives, s.drives = d → d.sclLow = true → False := by
    intro d hd hscl
    rw [hd, hscl] at hlow
    exact Bool.false_ne_true hlow.symm
  cases h with
  | bitLow hs hk hindex htx => exact (hnot _ (by unfold drives; rw [hs]) rfl).elim
  | bitHigh hs hk hindex htx =>
    have hd : s.drives = ⟨false, !busBit b k⟩ := by
      unfold drives busBit
      rw [hs, htx, hindex]
    rw [hd, Bool.not_not, writeLine_bit b hk]
  | ackLow hs => exact (hnot _ (by unfold drives; rw [hs]) rfl).elim
  | ackHigh hs =>
    have hd : s.drives = ⟨false, false⟩ := by
      unfold drives
      rw [hs]
    rw [hd]
    rfl
  | ackFinish hs => exact (hnot _ (by unfold drives; rw [hs]) rfl).elim

/-- A phase of the writing is left. -/
theorem WritePhase.leave {u : I2cMaster} (h : WritePhase b k u) (hheld : Held s u) (hflags : KeepsFlags s req u)
    (haddress : u.commandAddress = address) (hr : s.ready l = true) (timer : BitVec 32) :
    WriteStep b address k s req l { u.leave l with commandTimer := timer } := by
  have hdrives := hheld.drives
  cases h with
  | bitLow hs hk hindex htx =>
    have hleave : u.leave l = u.goto .writeBitHigh := by
      unfold I2cMaster.leave
      rw [hs]
    have hlow : s.drives.sclLow = true := by
      rw [← hdrives]
      unfold drives
      rw [hs]
    rw [hleave]
    exact .quiet (pulse_low hlow) ⟨hflags.addr, hflags.data⟩ (.bitHigh rfl hk hindex htx) haddress
  | bitHigh hs hk hindex htx =>
    have hscl : l.scl = true := by
      unfold ready at hr
      rw [← hheld.state, hs] at hr
      exact hr
    have hd : s.drives = ⟨false, !busBit b k⟩ := by
      rw [← hdrives]
      unfold drives busBit
      rw [hs, htx, hindex]
    have hfall : ∀ t : I2cMaster, t.drives.sclLow = true → pulse s.drives t.drives l = [⟨busBit b k, l.sda⟩] := by
      intro t ht
      rw [hd, pulse_fall rfl ht, Bool.not_not]
    have hleave : u.leave l = if u.bitIndex = 0 then u.goto .writeAckLow else
        { u.goto .writeBitLow with bitIndex := u.bitIndex - 1 } := by
      unfold I2cMaster.leave
      rw [hs]
    rw [hleave]
    rcases bitIndex_next hk hindex with ⟨h0, hk8⟩ | ⟨h0, hk8, hindex'⟩
    · rw [if_pos h0]
      refine .bit (hfall _ rfl) (writeLine_bit b hk) hk hscl ⟨hflags.addr, hflags.data⟩ ?_ haddress
      rw [hk8]
      exact .ackLow rfl
    · rw [if_neg h0]
      exact .bit (hfall _ rfl) (writeLine_bit b hk) hk hscl ⟨hflags.addr, hflags.data⟩ (.bitLow rfl hk8 hindex' htx) haddress
  | ackLow hs =>
    have hleave : u.leave l = u.goto .writeAckHigh := by
      unfold I2cMaster.leave
      rw [hs]
    have hlow : s.drives.sclLow = true := by
      rw [← hdrives]
      unfold drives
      rw [hs]
    rw [hleave]
    exact .quiet (pulse_low hlow) ⟨hflags.addr, hflags.data⟩ (.ackHigh rfl) haddress
  | ackHigh hs =>
    have hscl : l.scl = true := by
      unfold ready at hr
      rw [← hheld.state, hs] at hr
      exact hr
    have hd : s.drives = ⟨false, false⟩ := by
      rw [← hdrives]
      unfold drives
      rw [hs]
    have hleave : u.leave l = { u.goto .writeAckFinish with
        addrNack := u.addrNack || (l.sda && u.commandAddress)
        dataNack := u.dataNack || (l.sda && !u.commandAddress) } := by
      unfold I2cMaster.leave
      rw [hs]
    rw [hleave, haddress, hflags.addr, hflags.data]
    refine .acknowledge ?_ rfl hscl ⟨rfl, rfl⟩ (.ackFinish rfl) haddress
    rw [hd]
    exact pulse_fall rfl rfl
  | ackFinish hs =>
    have hleave : u.leave l = u.finish := by
      unfold I2cMaster.leave
      rw [hs]
    have hlow : s.drives.sclLow = true := by
      rw [← hdrives]
      unfold drives
      rw [hs]
    rw [hleave]
    exact .finish (pulse_low hlow) rfl ⟨hflags.addr, hflags.data⟩ rfl

/-- An undisturbed cycle of the writing of a byte. -/
theorem WritePhase.next (h : WritePhase b k s) (hgo : GoesOn s) (haddress : s.commandAddress = address)
    (hu : Undisturbed s req l) : WriteStep b address k s req l (s.next req l) := by
  have hproceeds := hgo.proceeds hu
  generalize s.next req l = t at hproceeds ⊢
  cases hproceeds with
  | stay hheld hflags =>
    exact .quiet (pulse_same hheld.drives) hflags (h.held hheld) (hheld.commandAddress.trans haddress)
  | leave timer hheld hflags hr =>
    exact (h.held hheld).leave hheld hflags (hheld.commandAddress.trans haddress) hr timer

end Write

/-! ## A byte that is read -/

/-- What the controller does with the data line in the nine pulses of a byte that is read. -/
def readLine (nack : Bool) : List Bool := List.replicate 8 true ++ [nack]

/-- Where the reading of a byte is after `k` pulses; `nack` says that it will not be acknowledged. -/
inductive ReadPhase (nack : Bool) : Nat → I2cMaster → Prop where
  | bitLow {k : Nat} {s : I2cMaster} (hs : s.state = .readBitLow) (hk : k < 8) (hindex : s.bitIndex.toNat = 7 - k) :
      ReadPhase nack k s
  | bitHigh {k : Nat} {s : I2cMaster} (hs : s.state = .readBitHigh) (hk : k < 8) (hindex : s.bitIndex.toNat = 7 - k) :
      ReadPhase nack k s
  | ackLow {s : I2cMaster} (hs : s.state = .readAckLow) : ReadPhase nack 8 s
  | ackHigh {s : I2cMaster} (hs : s.state = .readAckHigh) : ReadPhase nack 8 s
  | ackFinish {s : I2cMaster} (hs : s.state = .readAckFinish) : ReadPhase nack 9 s

/-- What a cycle of the reading of a byte does after `k` pulses. -/
inductive ReadStep (nack : Bool) (k : Nat) (s : I2cMaster) (l : Lines) (t : I2cMaster) : Prop where
  | quiet (hp : pulse s.drives t.drives l = []) (hrx : t.rxShift = s.rxShift) (h : ReadPhase nack k t)
      (hnack : t.readNack = nack) : ReadStep nack k s l t
  | bit (hp : pulse s.drives t.drives l = [⟨true, l.sda⟩]) (hk : k < 8) (hscl : l.scl = true)
      (hrx : t.rxShift = setBusBit s.rxShift k l.sda) (h : ReadPhase nack (k + 1) t) (hnack : t.readNack = nack) :
      ReadStep nack k s l t
  | acknowledge (hp : pulse s.drives t.drives l = [⟨nack, l.sda⟩]) (hk : k = 8) (hscl : l.scl = true)
      (hrx : t.rxShift = s.rxShift) (h : ReadPhase nack (k + 1) t) (hnack : t.readNack = nack) : ReadStep nack k s l t
  | finish (hp : pulse s.drives t.drives l = []) (hk : k = 9) (hdata : t.rxData = s.rxShift) (hvalid : t.rxValid = true)
      (hb : t.busy = false) : ReadStep nack k s l t

section Read

variable {nack : Bool} {k : Nat}

/-- A phase of a read stays one while the state is held. -/
theorem ReadPhase.held (h : ReadPhase nack k s) (hheld : Held s t) : ReadPhase nack k t := by
  cases h with
  | bitLow hs hk hindex => exact .bitLow (hheld.state.trans hs) hk (by rw [hheld.bitIndex]; exact hindex)
  | bitHigh hs hk hindex => exact .bitHigh (hheld.state.trans hs) hk (by rw [hheld.bitIndex]; exact hindex)
  | ackLow hs => exact .ackLow (hheld.state.trans hs)
  | ackHigh hs => exact .ackHigh (hheld.state.trans hs)
  | ackFinish hs => exact .ackFinish (hheld.state.trans hs)

/-- A phase of a read is not idle. -/
theorem ReadPhase.busy (h : ReadPhase nack k s) : s.state ≠ .idle := by
  cases h with
  | bitLow hs _ _ => exact fun h => I2cState.noConfusion (hs.symm.trans h)
  | bitHigh hs _ _ => exact fun h => I2cState.noConfusion (hs.symm.trans h)
  | ackLow hs => exact fun h => I2cState.noConfusion (hs.symm.trans h)
  | ackHigh hs => exact fun h => I2cState.noConfusion (hs.symm.trans h)
  | ackFinish hs => exact fun h => I2cState.noConfusion (hs.symm.trans h)

/-- While a byte is read the controller lets the line go. -/
theorem readLine_bit (nack : Bool) (hk : k < 8) : (readLine nack)[k]? = some true := by
  unfold readLine
  rw [List.getElem?_append_left (by rw [List.length_replicate]; exact hk), List.getElem?_replicate, if_pos hk]

/-- While the clock line is let go, the data line is let be for the byte and then as commanded. -/
theorem ReadPhase.line (h : ReadPhase nack k s) (hnack : s.readNack = nack) (hlow : s.drives.sclLow = false) :
    (readLine nack)[k]? = some (!s.drives.sdaLow) := by
  have hnot : ∀ d : Drives, s.drives = d → d.sclLow = true → False := by
    intro d hd hscl
    rw [hd, hscl] at hlow
    exact Bool.false_ne_true hlow.symm
  cases h with
  | bitLow hs hk hindex => exact (hnot _ (by unfold drives; rw [hs]) rfl).elim
  | bitHigh hs hk hindex =>
    have hd : s.drives = ⟨false, false⟩ := by
      unfold drives
      rw [hs]
    rw [hd, readLine_bit nack hk]
    rfl
  | ackLow hs => exact (hnot _ (by unfold drives; rw [hs]) rfl).elim
  | ackHigh hs =>
    have hd : s.drives = ⟨false, !nack⟩ := by
      unfold drives
      rw [hs, ← hnack]
    rw [hd, Bool.not_not]
    rfl
  | ackFinish hs => exact (hnot _ (by unfold drives; rw [hs]) rfl).elim

/-- A phase of the reading is left. -/
theorem ReadPhase.leave {u : I2cMaster} (h : ReadPhase nack k u) (hheld : Held s u) (hnack : u.readNack = nack)
    (hr : s.ready l = true) (timer : BitVec 32) : ReadStep nack k s l { u.leave l with commandTimer := timer } := by
  have hdrives := hheld.drives
  cases h with
  | bitLow hs hk hindex =>
    have hleave : u.leave l = u.goto .readBitHigh := by
      unfold I2cMaster.leave
      rw [hs]
    have hlow : s.drives.sclLow = true := by
      rw [← hdrives]
      unfold drives
      rw [hs]
    rw [hleave]
    exact .quiet (pulse_low hlow) hheld.rxShift (.bitHigh rfl hk hindex) hnack
  | bitHigh hs hk hindex =>
    have hscl : l.scl = true := by
      unfold ready at hr
      rw [← hheld.state, hs] at hr
      exact hr
    have hd : s.drives = ⟨false, false⟩ := by
      rw [← hdrives]
      unfold drives
      rw [hs]
    have hfall : ∀ t : I2cMaster, t.drives.sclLow = true → pulse s.drives t.drives l = [⟨true, l.sda⟩] := by
      intro t ht
      rw [hd, pulse_fall rfl ht, Bool.not_false]
    have hleave : u.leave l = if u.bitIndex = 0 then
          { u with rxShift := setBusBit s.rxShift k l.sda }.goto .readAckLow else
        { { u with rxShift := setBusBit s.rxShift k l.sda }.goto .readBitLow with bitIndex := u.bitIndex - 1 } := by
      unfold I2cMaster.leave
      rw [hs]
      dsimp only
      rw [hindex, hheld.rxShift]
      rfl
    rw [hleave]
    rcases bitIndex_next hk hindex with ⟨h0, hk8⟩ | ⟨h0, hk8, hindex'⟩
    · rw [if_pos h0]
      refine .bit (hfall _ rfl) hk hscl rfl ?_ hnack
      rw [hk8]
      exact .ackLow rfl
    · rw [if_neg h0]
      exact .bit (hfall _ rfl) hk hscl rfl (.bitLow rfl hk8 hindex') hnack
  | ackLow hs =>
    have hleave : u.leave l = u.goto .readAckHigh := by
      unfold I2cMaster.leave
      rw [hs]
    have hlow : s.drives.sclLow = true := by
      rw [← hdrives]
      unfold drives
      rw [hs]
    rw [hleave]
    exact .quiet (pulse_low hlow) hheld.rxShift (.ackHigh rfl) hnack
  | ackHigh hs =>
    have hscl : l.scl = true := by
      unfold ready at hr
      rw [← hheld.state, hs] at hr
      exact hr
    have hd : s.drives = ⟨false, !nack⟩ := by
      rw [← hdrives]
      unfold drives
      rw [hs, ← hnack]
    have hleave : u.leave l = u.goto .readAckFinish := by
      unfold I2cMaster.leave
      rw [hs]
    rw [hleave]
    refine .acknowledge ?_ rfl hscl hheld.rxShift (.ackFinish rfl) hnack
    rw [hd, pulse_fall rfl rfl, Bool.not_not]
  | ackFinish hs =>
    have hleave : u.leave l = { u.finish with rxData := u.rxShift, rxValid := true } := by
      unfold I2cMaster.leave
      rw [hs]
    have hlow : s.drives.sclLow = true := by
      rw [← hdrives]
      unfold drives
      rw [hs]
    rw [hleave]
    exact .finish (pulse_low hlow) rfl hheld.rxShift rfl rfl

/-- An undisturbed cycle of the reading of a byte. -/
theorem ReadPhase.next (h : ReadPhase nack k s) (hgo : GoesOn s) (hnack : s.readNack = nack)
    (hu : Undisturbed s req l) : ReadStep nack k s l (s.next req l) := by
  have hproceeds := hgo.proceeds hu
  generalize s.next req l = t at hproceeds ⊢
  cases hproceeds with
  | stay hheld hflags =>
    exact .quiet (pulse_same hheld.drives) hheld.rxShift (h.held hheld) (hheld.readNack.trans hnack)
  | leave timer hheld hflags hr => exact (h.held hheld).leave hheld (hheld.readNack.trans hnack) hr timer

end Read

end Transfer

end I2cMaster

end SocRV
