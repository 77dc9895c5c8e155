import SocRV.Soc.UartRun

/-!
# Round trips through the UART

With `uart_tx` wired to `uart_rx`, the bytes accepted by the transmitter arrive at the receiver, in order and unaltered,
for every divisor of at least 3.  The `BAUD` register also accepts 2: there the synchroniser and the extra cycle behind
the half bit make the receiver sample each bit one bit late.
-/

namespace SocRV

/-! ## The divisor 2 -/

/-- A write of all four bytes of a register, and a read of `RXDATA`. -/
def writeReg (addr : BitVec 12) (data : BitVec 32) : UartIn :=
  { reqValid := true, reqWrite := true, reqAddr := addr, reqWdata := data, reqWstrb := 0xf }

@[inherit_doc writeReg]
def readRxdata : UartIn := { reqValid := true, reqAddr := 0x004 }

/-- `BAUD` is set to 2, a zero byte is sent, and `RXDATA` is read in every cycle from then on. -/
def sendZeroAtTwo (n : Nat) : UartIn := [writeReg 0x00c 2, writeReg 0x000 0].getD n readRxdata

/-- What a reader of `RXDATA` keeps: the receive FIFO has a byte at most. -/
structure ReadsAtTwo (s : Uart) : Prop where
  baudDiv : s.baudDiv = 2
  uartCtrl : s.uartCtrl = 0b11
  rxCount : s.rxCount = 0 ∨ s.rxCount = 1

namespace ReadsAtTwo

/-- A receive FIFO with a byte at most is not full. -/
theorem rxFull {s : Uart} (h : ReadsAtTwo s) : s.rxFull = false := by
  unfold Uart.rxFull
  rcases h.rxCount with h0 | h1
  · rw [h0]
    rfl
  · rw [h1]
    rfl

/-- A cycle that reads `RXDATA` keeps it at a byte at most. -/
theorem next {s : Uart} (h : ReadsAtTwo s) (rx : Bool) : ReadsAtTwo (s.next { readRxdata with uartRx := rx }) := by
  refine ⟨h.baudDiv, h.uartCtrl, ?_⟩
  have hpop : s.rxPop { readRxdata with uartRx := rx } = !s.rxEmpty := by
    simp [Uart.rxPop, Uart.reqReady, Uart.register, readRxdata]
  have hcount : (s.next { readRxdata with uartRx := rx }).rxCount = Uart.count s.rxCount s.rxPush (!s.rxEmpty) := by
    rw [← hpop]
    rfl
  rw [hcount, Uart.rxEmpty]
  rcases h.rxCount with h0 | h1
  · rw [h0]
    cases s.rxPush
    · exact Or.inl rfl
    · exact Or.inr rfl
  · rw [h1]
    cases s.rxPush
    · exact Or.inl rfl
    · exact Or.inr rfl

end ReadsAtTwo

/-- The zero byte is sent under the conditions of an exchange. -/
theorem exchange_sendZeroAtTwo : Uart.Exchange 50000000 115200 2 sendZeroAtTwo 1 := by
  have hreads : ∀ n ≥ 2, ReadsAtTwo ((Uart.loopback 50000000 115200).run sendZeroAtTwo n) := by
    intro n hn
    induction n, hn using Nat.le_induction with
    | base => exact ⟨by decide +kernel, by decide +kernel, by decide +kernel⟩
    | succ n hn ih =>
      have hread : sendZeroAtTwo n = readRxdata := by
        unfold sendZeroAtTwo
        rw [List.getD_eq_getElem?_getD, List.getElem?_eq_none hn]
        rfl
      rw [Machine.run_succ, hread]
      exact ih.next _
  have hread : ∀ n ≥ 1, ReadsAtTwo ((Uart.loopback 50000000 115200).run sendZeroAtTwo n) := by
    intro n hn
    rcases Nat.eq_or_lt_of_le hn with h1 | h2
    · subst h1
      exact ⟨by decide +kernel, by decide +kernel, by decide +kernel⟩
    · exact hreads n h2
  refine ⟨fun n hn => ?_, fun n hn => (hread n hn).baudDiv, fun n hn => (hread n hn).uartCtrl,
    fun n hn => (hread n hn).rxFull⟩
  have h0 : n = 0 := Nat.lt_one_iff.mp hn
  subst h0
  decide +kernel

/-- `0x80` is received for it. -/
theorem received_sendZeroAtTwo :
    Uart.received 50000000 115200 sendZeroAtTwo 26 = [0x80] ∧ Uart.accepted 50000000 115200 sendZeroAtTwo 26 = [0x00] :=
  ⟨by decide +kernel, by decide +kernel⟩

/-- The divisor 2 alters bytes. -/
theorem not_roundTrips_two : ¬ Uart.RoundTrips 2 := by
  intro h
  obtain ⟨hreceived, haccepted⟩ := received_sendZeroAtTwo
  have hprefix := (h _ _ _ _ exchange_sendZeroAtTwo).1 26
  rw [hreceived, haccepted] at hprefix
  exact absurd hprefix (by decide)

/-! ## Every divisor -/

/-- Of the divisors that `BAUD` accepts, those of at least 3 let every sequence of bytes make the round trip. -/
theorem uart_round_trip_iff (D : BitVec 32) (hD : 2 ≤ D) : Uart.RoundTrips D ↔ 3 ≤ D := by
  rw [BitVec.le_def] at hD ⊢
  constructor
  · intro h
    by_contra hlt
    have htwo : D = 2 := BitVec.eq_of_toNat_eq (Nat.le_antisymm (Nat.le_of_lt_succ (Nat.lt_of_not_le hlt)) hD)
    rw [htwo] at h
    exact not_roundTrips_two h
  · intro hle clockHz baud w n₀ hexchange
    exact hexchange.roundTrip hle

theorem uart_round_trip_iff_reset : (2 : BitVec 32) ≤ Uart.resetDiv 50000000 115200 ∧
    Uart.RoundTrips (Uart.resetDiv 50000000 115200) :=
  ⟨by decide, (uart_round_trip_iff (Uart.resetDiv 50000000 115200) (by decide)).mpr (by decide)⟩

/-- The register accepts 2, but not every byte makes the round trip then. -/
theorem uart_alters_at_two : (2 : BitVec 32) ≤ 2 ∧ ¬ Uart.RoundTrips 2 := ⟨by decide, not_roundTrips_two⟩

end SocRV
