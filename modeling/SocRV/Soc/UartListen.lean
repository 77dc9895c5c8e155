import SocRV.Soc.UartReceive

/-!
# The tolerance of the receiver

The sender has a bit period of its own.  The samples drift against its bits, but by less than the half bit that the first
sample is taken behind the edge, and the last sample is taken early enough for the receiver to see the next edge.
-/

namespace SocRV

namespace Uart

variable (clockHz baud : Nat) (D : BitVec 32) (P : Nat) (w : Nat → UartIn) (n₀ M : Nat)

/-- What is stored in the `n` cycles from cycle `k` on. -/
def heard (k n : Nat) : List (BitVec 8) := (machine clockHz baud).eventsFrom delivers w k n

/-- The sender's bit period `P` is close enough to the divisor. -/
structure Tolerates : Prop where
  last_after : 9 * P ≤ 1 + D.toNat / 2 + 9 * D.toNat
  last_before : 2 + D.toNat / 2 + 9 * D.toNat ≤ 10 * P
  first_before : 2 + D.toNat / 2 ≤ P

/-- From cycle `n₀` on the line carries the bytes of `fs`; the receiver waits on a high line, and in the first `M` cycles
it is enabled, with the divisor `D`, and the FIFO is not full. -/
structure Listens (fs : List (Nat × BitVec 8)) : Prop where
  waits : ((machine clockHz baud).run w n₀).rxBusy = false
  rxMeta : ((machine clockHz baud).run w n₀).rxMeta = true
  rxSync : ((machine clockHz baud).run w n₀).rxSync = true
  rxSyncQ : ((machine clockHz baud).run w n₀).rxSyncQ = true
  line : ∀ c, (w (n₀ + c)).uartRx = (serialLine P fs).getD c true
  baudDiv : ∀ c < M, ((machine clockHz baud).run w (n₀ + c)).baudDiv = D
  enabled : ∀ c < M, ((machine clockHz baud).run w (n₀ + c)).uartCtrl.getLsbD 1 = true
  room : ∀ c < M, ((machine clockHz baud).run w (n₀ + c)).rxFull = false

/-- What the receiver sees: the line as it comes out of the flip-flops. -/
structure Sees (k : Nat) (L : Nat → Bool) : Prop where
  rxSync : ∀ c, ((machine clockHz baud).run w (k + c)).rxSync = L c
  rxSyncQ : ((machine clockHz baud).run w k).rxSyncQ = true
  baudDiv : ∀ c < M, ((machine clockHz baud).run w (k + c)).baudDiv = D
  enabled : ∀ c < M, ((machine clockHz baud).run w (k + c)).uartCtrl.getLsbD 1 = true
  room : ∀ c < M, ((machine clockHz baud).run w (k + c)).rxFull = false

variable {clockHz baud D P w n₀ M}

/-- The line comes through the flip-flops two cycles late. -/
theorem Listens.sees {fs : List (Nat × BitVec 8)} (h : Listens clockHz baud D P w n₀ M fs) :
    Sees clockHz baud D w M n₀ ((List.replicate 2 true ++ serialLine P fs).getD · true) := by
  refine ⟨fun c => ?_, h.rxSyncQ, h.baudDiv, h.enabled, h.room⟩
  rcases c with _ | _ | c
  · exact h.rxSync
  · exact h.rxMeta
  · show (w (n₀ + c)).uartRx = _
    rw [h.line c]
    rfl

section Frame

variable {k : Nat} {L : Nat → Bool} (hD : 3 ≤ D.toNat) (htol : Tolerates D P) (h : Sees clockHz baud D w M k L)

include h in
/-- What the receiver sees from a later cycle on. -/
theorem Sees.later {e : Nat} (he : e ≤ M) (hq : ((machine clockHz baud).run w (k + e)).rxSyncQ = true) :
    Sees clockHz baud D w (M - e) (k + e) fun c => L (e + c) := by
  refine ⟨fun c => ?_, hq, fun c hc => ?_, fun c hc => ?_, fun c hc => ?_⟩
  · rw [Nat.add_assoc]
    exact h.rxSync (e + c)
  · rw [Nat.add_assoc]
    exact h.baudDiv (e + c) (by omega)
  · rw [Nat.add_assoc]
    exact h.enabled (e + c) (by omega)
  · rw [Nat.add_assoc]
    exact h.room (e + c) (by omega)

include h in
/-- While the line is high, a receiver that waits goes on waiting. -/
theorem Sees.wait (hbusy : ((machine clockHz baud).run w k).rxBusy = false) {g : Nat} (hhigh : ∀ c < g, L c = true) :
    ((machine clockHz baud).run w (k + g)).rxBusy = false ∧ ((machine clockHz baud).run w (k + g)).rxSyncQ = true ∧
      heard clockHz baud w k g = [] := by
  induction g with
  | zero => exact ⟨hbusy, h.rxSyncQ, rfl⟩
  | succ g ih =>
    obtain ⟨hwait, -, hheard⟩ := ih fun c hc => hhigh c (Nat.lt_succ_of_lt hc)
    have hsync := (h.rxSync g).trans (hhigh g (Nat.lt_succ_self g))
    obtain ⟨hwait', hstore⟩ := next_waits (w (k + g)) hwait hsync
    refine ⟨hwait', hsync, ?_⟩
    show heard clockHz baud w k g ++ _ = []
    rw [hheard, delivers_none (i := w (k + g)) hstore]
    rfl

include hD htol h in
/-- In a frame, the receiver counts down to its samples, each of which lies in the bit it is meant for. -/
theorem Sees.frame (hbusy : ((machine clockHz baud).run w k).rxBusy = false) {b : BitVec 8}
    (hbits : ∀ j < 10, ∀ y < P, L (j * P + y) = lineBit b j) {x : Nat} (hx : x ≤ D.toNat / 2 + 9 * D.toNat)
    (hxM : 1 + x ≤ M) :
    heard clockHz baud w k (1 + x) = [] ∧ ∃ j i, Receives ((machine clockHz baud).run w (k + (1 + x))) b j i ∧
      j ≤ 9 ∧ i < D.toNat ∧ x + i = D.toNat / 2 + j * D.toNat := by
  have hfirst := htol.first_before
  have hafter := htol.last_after
  have hbefore := htol.last_before
  induction x with
  | zero =>
    have hlow : ((machine clockHz baud).run w k).rxSync = false := by
      have hstart := hbits 0 (by omega) 0 (by omega)
      rw [Nat.zero_mul] at hstart
      exact (h.rxSync 0).trans hstart
    obtain ⟨hrx, hstore⟩ := next_detect (w k) b hbusy (h.enabled 0 (by omega)) h.rxSyncQ hlow
    have hbaud : ((machine clockHz baud).run w k).baudDiv = D := h.baudDiv 0 (by omega)
    rw [hbaud] at hrx
    refine ⟨?_, 0, D.toNat / 2, hrx, by omega, by omega, by omega⟩
    show [] ++ delivers ((machine clockHz baud).run w k) (w k) = []
    exact delivers_none (i := w k) hstore
  | succ x ih =>
    obtain ⟨hheard, j, i, hrx, hj, hi, hsum⟩ := ih (by omega) (by omega)
    have hnext : ∀ {j' i' : Nat}, Receives (((machine clockHz baud).run w (k + (1 + x))).next (w (k + (1 + x)))) b j' i' ∧
        ((machine clockHz baud).run w (k + (1 + x))).rxStore = false → j' ≤ 9 → i' < D.toNat →
        x + 1 + i' = D.toNat / 2 + j' * D.toNat →
        heard clockHz baud w k (1 + (x + 1)) = [] ∧
          ∃ j i, Receives ((machine clockHz baud).run w (k + (1 + (x + 1)))) b j i ∧ j ≤ 9 ∧ i < D.toNat ∧
            x + 1 + i = D.toNat / 2 + j * D.toNat := by
      intro j' i' hrx' hj' hi' hsum'
      refine ⟨?_, j', i', hrx'.1, hj', hi', hsum'⟩
      show heard clockHz baud w k (1 + x) ++ _ = []
      rw [hheard]
      exact delivers_none (i := w (k + (1 + x))) hrx'.2
    by_cases hi0 : i = 0
    · subst hi0
      have hbaud := h.baudDiv (1 + x) (by omega)
      have hj9 : j < 9 := by
        by_contra hge
        have hj9' : j = 9 := by omega
        rw [hj9'] at hsum
        omega
      -- the sample lies in bit `j`
      have hsync : ((machine clockHz baud).run w (k + (1 + x))).rxSync = lineBit b j := by
        have hin : j * P ≤ 1 + x ∧ 1 + x < j * P + P := by
          clear hrx ih hbits hnext hheard
          obtain rfl | rfl | rfl | rfl | rfl | rfl | rfl | rfl | rfl :
            j = 0 ∨ j = 1 ∨ j = 2 ∨ j = 3 ∨ j = 4 ∨ j = 5 ∨ j = 6 ∨ j = 7 ∨ j = 8 := by omega
          all_goals omega
        have hbit := hbits j (by omega) (1 + x - j * P) (by omega)
        rw [Nat.add_sub_cancel' hin.1] at hbit
        exact (h.rxSync (1 + x)).trans hbit
      have hsum' : x + 1 + (D.toNat - 1) = D.toNat / 2 + (j + 1) * D.toNat := by
        rw [Nat.succ_mul]
        omega
      refine @hnext (j + 1) (D.toNat - 1) ?_ (by omega) (by omega) hsum'
      rw [← hbaud]
      by_cases hj0 : j = 0
      · subst hj0
        exact hrx.next_start (w (k + (1 + x))) hsync (by rw [hbaud]; omega)
      · rw [lineBit_data b (by omega) (by omega)] at hsync
        exact hrx.next_data (w (k + (1 + x))) (by omega) (by omega) hsync (by rw [hbaud]; omega)
    · exact hnext (hrx.next_count (w (k + (1 + x))) hi0) hj (by omega) (by omega)

include hD htol h in
/-- Behind the sample of the stop bit the byte is stored, and the receiver waits for the next edge. -/
theorem Sees.stop (hbusy : ((machine clockHz baud).run w k).rxBusy = false) {b : BitVec 8}
    (hbits : ∀ j < 10, ∀ y < P, L (j * P + y) = lineBit b j) (hM : 2 + D.toNat / 2 + 9 * D.toNat ≤ M) :
    heard clockHz baud w k (2 + D.toNat / 2 + 9 * D.toNat) = [b] ∧
      ((machine clockHz baud).run w (k + (2 + D.toNat / 2 + 9 * D.toNat))).rxBusy = false ∧
      ((machine clockHz baud).run w (k + (2 + D.toNat / 2 + 9 * D.toNat))).rxSyncQ = true := by
  have hafter := htol.last_after
  have hbefore := htol.last_before
  obtain ⟨hheard, j, i, hrx, hj, hi, hsum⟩ := h.frame hD htol hbusy hbits (Nat.le_refl _) (by omega)
  have hj9 : j = 9 := by
    by_contra hne
    have hle : j * D.toNat ≤ 8 * D.toNat := Nat.mul_le_mul_right _ (by omega)
    omega
  subst hj9
  have hi0 : i = 0 := by omega
  subst hi0
  have hsync : ((machine clockHz baud).run w (k + (1 + (D.toNat / 2 + 9 * D.toNat)))).rxSync = true := by
    have hbit := hbits 9 (by omega) (1 + (D.toNat / 2 + 9 * D.toNat) - 9 * P) (by omega)
    rw [Nat.add_sub_cancel' (by omega)] at hbit
    exact (h.rxSync _).trans (hbit.trans (lineBit_high b (Nat.le_refl 9)))
  obtain ⟨hbusy', hstore, hshift⟩ :=
    hrx.next_stop (w (k + (1 + (D.toNat / 2 + 9 * D.toNat)))) hsync (h.room _ (by omega))
  have hidx : 2 + D.toNat / 2 + 9 * D.toNat = 1 + (D.toNat / 2 + 9 * D.toNat) + 1 := by omega
  rw [hidx]
  refine ⟨?_, hbusy', hsync⟩
  show heard clockHz baud w k _ ++ _ = [b]
  rw [hheard]
  exact delivers_some (i := w (k + (1 + (D.toNat / 2 + 9 * D.toNat)))) hstore hshift

end Frame

/-! ## Sequences of frames -/

/-- A byte behind a gap, as the receiver sees it. -/
theorem serialLine_bits {P G g : Nat} {b : BitVec 8} (fs : List (Nat × BitVec 8)) {j y : Nat} (hj : j < 10)
    (hy : y < P) :
    (List.replicate G true ++ serialLine P ((g, b) :: fs)).getD (G + g + (j * P + y)) true = lineBit b j := by
  have hbit := serialBits_getD (by rwa [serialFrame_length b]) hy true
  have hlt : j * P + y < (serialBits P (serialFrame b)).length := by
    rw [serialBits_length, serialFrame_length]
    have hle : j * P ≤ 9 * P := Nat.mul_le_mul_right _ (by omega)
    omega
  unfold lineBit
  rw [← hbit]
  simp only [List.getD_eq_getElem?_getD]
  rw [serialLine, List.getElem?_append_right (by rw [List.length_replicate]; omega), List.length_replicate,
    List.getElem?_append_right (by rw [List.length_replicate]; omega), List.length_replicate,
    List.getElem?_append_left (by omega), show G + g + (j * P + y) - G - g = j * P + y by omega]

/-- The gap before the first byte. -/
theorem serialLine_gap {P G g : Nat} {b : BitVec 8} {fs : List (Nat × BitVec 8)} {c : Nat} (hc : c < G + g) :
    (List.replicate G true ++ serialLine P ((g, b) :: fs)).getD c true = true := by
  simp only [List.getD_eq_getElem?_getD]
  by_cases hG : c < G
  · rw [List.getElem?_append_left (by rwa [List.length_replicate]), List.getElem?_replicate_of_lt hG]
    rfl
  · rw [serialLine, List.getElem?_append_right (by rw [List.length_replicate]; omega), List.length_replicate,
      List.getElem?_append_left (by rw [List.length_replicate]; omega), List.getElem?_replicate_of_lt (by omega)]
    rfl

/-- What is left of a line when all but the last `r` cycles of its first byte are over: the stop bit lasts as long. -/
theorem serialLine_rest {P G g r : Nat} {b : BitVec 8} {fs : List (Nat × BitVec 8)} (hr : r ≤ P) (c : Nat) :
    (List.replicate G true ++ serialLine P ((g, b) :: fs)).getD (G + g + (10 * P - r) + c) true =
      (List.replicate r true ++ serialLine P fs).getD c true := by
  by_cases hc : c < r
  · have hbit := serialLine_bits (P := P) (G := G) (g := g) (b := b) (j := 9) (y := P - r + c) fs (by omega)
      (by omega)
    rw [show G + g + (10 * P - r) + c = G + g + (9 * P + (P - r + c)) by omega, hbit, lineBit_high b (Nat.le_refl 9)]
    simp only [List.getD_eq_getElem?_getD]
    rw [List.getElem?_append_left (by rwa [List.length_replicate]), List.getElem?_replicate_of_lt hc]
    rfl
  · simp only [List.getD_eq_getElem?_getD]
    rw [serialLine, List.getElem?_append_right (by rw [List.length_replicate]; omega), List.length_replicate,
      List.getElem?_append_right (by rw [List.length_replicate]; omega), List.length_replicate,
      List.getElem?_append_right (by rw [serialBits_length, serialFrame_length]; omega), serialBits_length,
      serialFrame_length, List.getElem?_append_right (by rw [List.length_replicate]; omega), List.length_replicate,
      show G + g + (10 * P - r) + c - G - g - 10 * P = c - r by omega]

/-- A line from some cycle on, the receiver waiting there. -/
def Awaits (clockHz baud : Nat) (D : BitVec 32) (P : Nat) (w : Nat → UartIn) (M k G : Nat)
    (fs : List (Nat × BitVec 8)) : Prop :=
  Sees clockHz baud D w M k ((List.replicate G true ++ serialLine P fs).getD · true) ∧
    ((machine clockHz baud).run w k).rxBusy = false

section Awaits

variable {k G g : Nat} {b : BitVec 8} {fs : List (Nat × BitVec 8)} (hD : 3 ≤ D.toNat) (htol : Tolerates D P)

/-- Nothing is heard of a line at rest. -/
theorem Awaits.rest (h : Awaits clockHz baud D P w M k G []) (m : Nat) : heard clockHz baud w k m = [] := by
  refine (h.1.wait h.2 (g := m) fun c _ => ?_).2.2
  rw [serialLine, List.append_nil]
  by_cases hc : c < G
  · simp [List.getD_eq_getElem?_getD, hc]
  · simp [List.getD_eq_getElem?_getD, Nat.le_of_not_lt hc]

include hD htol

/-- Nothing is heard of the first byte before its stop bit is sampled. -/
theorem Awaits.before (h : Awaits clockHz baud D P w M k G ((g, b) :: fs)) {m : Nat} (hM : m ≤ M)
    (hm : m < G + g + (2 + D.toNat / 2 + 9 * D.toNat)) : heard clockHz baud w k m = [] := by
  by_cases hgap : m ≤ G + g
  · exact (h.1.wait h.2 (g := m) fun c hc => serialLine_gap (Nat.lt_of_lt_of_le hc hgap)).2.2
  · obtain ⟨hbusy, hq, hheard⟩ := h.1.wait h.2 (g := G + g) fun c hc => serialLine_gap hc
    have hlater := h.1.later (e := G + g) (by omega) hq
    obtain ⟨x, rfl⟩ := Nat.exists_eq_add_of_le (show G + g + 1 ≤ m by omega)
    have hframe := hlater.frame hD htol hbusy (b := b) (x := x) (fun j hj y hy => serialLine_bits fs hj hy) (by omega)
      (by omega)
    rw [show G + g + 1 + x = G + g + (1 + x) by omega]
    unfold heard at hheard hframe ⊢
    rw [Machine.eventsFrom_add, hheard, hframe.1]
    rfl

/-- Then the byte is heard, and the receiver waits for the others. -/
theorem Awaits.after (h : Awaits clockHz baud D P w M k G ((g, b) :: fs))
    (hM : G + g + (2 + D.toNat / 2 + 9 * D.toNat) ≤ M) :
    heard clockHz baud w k (G + g + (2 + D.toNat / 2 + 9 * D.toNat)) = [b] ∧
      Awaits clockHz baud D P w (M - (G + g + (2 + D.toNat / 2 + 9 * D.toNat)))
        (k + (G + g + (2 + D.toNat / 2 + 9 * D.toNat))) (10 * P - (2 + D.toNat / 2 + 9 * D.toNat)) fs := by
  have hafter := htol.last_after
  have hbefore := htol.last_before
  obtain ⟨hbusy, hq, hheard⟩ := h.1.wait h.2 (g := G + g) fun c hc => serialLine_gap hc
  have hlater := h.1.later (e := G + g) (by omega) hq
  obtain ⟨hbyte, hbusy', hq'⟩ :=
    hlater.stop hD htol hbusy (b := b) (fun j hj y hy => serialLine_bits fs hj hy) (by omega)
  have hrest := hlater.later (by omega) hq'
  have hline : (fun c => (List.replicate G true ++ serialLine P ((g, b) :: fs)).getD
      (G + g + (2 + D.toNat / 2 + 9 * D.toNat + c)) true) =
      fun c => (List.replicate (10 * P - (2 + D.toNat / 2 + 9 * D.toNat)) true ++ serialLine P fs).getD c true := by
    funext c
    rw [← serialLine_rest (P := P) (G := G) (g := g) (b := b) (by omega) c, ← Nat.add_assoc]
    congr 2
    omega
  rw [hline, Nat.sub_sub, Nat.add_assoc k (G + g)] at hrest
  rw [Nat.add_assoc k (G + g)] at hbusy'
  refine ⟨?_, hrest, hbusy'⟩
  unfold heard at hheard hbyte ⊢
  rw [Machine.eventsFrom_add, hheard, hbyte]
  rfl

/-- What is heard is the first part of the bytes sent, and every byte whose frame is over. -/
theorem Awaits.hears (h : Awaits clockHz baud D P w M k G fs) {m : Nat} (hm : m ≤ M) :
    heard clockHz baud w k m <+: serialBytes fs ∧
      ∀ fs', fs' <+: fs → G + (serialLine P fs').length ≤ m → serialBytes fs' <+: heard clockHz baud w k m := by
  have hbefore := htol.last_before
  have hfirst := htol.first_before
  induction fs generalizing k G M m with
  | nil =>
    rw [h.rest m]
    refine ⟨List.nil_prefix, fun fs' hfs' _ => ?_⟩
    rw [List.prefix_nil.mp hfs']
    exact List.nil_prefix
  | cons f fs ih =>
    obtain ⟨g, b⟩ := f
    by_cases hlt : m < G + g + (2 + D.toNat / 2 + 9 * D.toNat)
    · rw [h.before hD htol hm hlt]
      refine ⟨List.nil_prefix, fun fs' hfs' hlen => ?_⟩
      cases fs' with
      | nil => exact List.nil_prefix
      | cons f' fs' =>
        obtain ⟨rfl, -⟩ := List.cons_prefix_cons.mp hfs'
        rw [serialLine_cons_length] at hlen
        omega
    · obtain ⟨hbyte, hrest⟩ := h.after hD htol (by omega)
      obtain ⟨m', rfl⟩ := Nat.exists_eq_add_of_le (Nat.le_of_not_lt hlt)
      obtain ⟨hpre, hall⟩ := ih hrest (m := m') (by omega)
      have hsplit : heard clockHz baud w k (G + g + (2 + D.toNat / 2 + 9 * D.toNat) + m') =
          b :: heard clockHz baud w (k + (G + g + (2 + D.toNat / 2 + 9 * D.toNat))) m' := by
        unfold heard at hbyte ⊢
        rw [Machine.eventsFrom_add, hbyte]
        rfl
      rw [hsplit]
      refine ⟨List.cons_prefix_cons.mpr ⟨rfl, hpre⟩, fun fs' hfs' hlen => ?_⟩
      cases fs' with
      | nil => exact List.nil_prefix
      | cons f' fs' =>
        obtain ⟨rfl, hfs''⟩ := List.cons_prefix_cons.mp hfs'
        rw [serialLine_cons_length] at hlen
        exact List.cons_prefix_cons.mpr ⟨rfl, hall fs' hfs'' (by omega)⟩

end Awaits

end Uart

end SocRV
