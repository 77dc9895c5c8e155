import SocRV.Lib.Machine
import SocRV.Sim.UartStimulus

/-!
# The decoder on a line

`UartDecoder` counts one and a half bit times down from the first low level, and then a bit time for each sample: every
sample falls into the middle of the bit it is meant for.  So it hears the frames on a line, whatever the gaps between
them.
-/

namespace SocRV

namespace UartDecoder

/-- The decoder as it samples a line. -/
def machine (C : Nat) : Machine UartDecoder Bool := ⟨{}, fun s tx => (s.sample C tx).1⟩

/-- The byte decoded in a cycle. -/
def decoded (C : Nat) (s : UartDecoder) (tx : Bool) : Bytes := (s.sample C tx).2.toList

/-- The decoder waits for a start bit. -/
structure Rests (s : UartDecoder) : Prop where
  receiving : s.receiving = false
  framingError : s.framingError = false

/-- The decoder has sampled `e` cycles of the frame of `b`, and bit `j` is its next one. -/
structure Hears (C : Nat) (b : BitVec 8) (j e : Nat) (s : UartDecoder) : Prop where
  receiving : s.receiving = true
  framingError : s.framingError = false
  index : s.bitIndex = j
  index_le : j ≤ 8
  count : e + s.countdown = C + C / 2 + j * C
  bits : ∀ m < 8, s.byte.getLsbD m = (decide (m < j) && b.getLsbD m)

variable {C : Nat} {b : BitVec 8} {j e : Nat} {s : UartDecoder}

/-- A start bit. -/
theorem Rests.next_start (h : Rests s) (hC : 0 < C) (b : BitVec 8) :
    Hears C b 0 1 (s.sample C false).1 ∧ decoded C s false = [] := by
  have hsample : s.sample C false =
      ({ s with receiving := true, countdown := C + C / 2 - 1, bitIndex := 0, byte := 0 }, none) := by
    unfold sample
    rw [h.receiving]
    rfl
  unfold decoded
  rw [hsample]
  refine ⟨⟨rfl, h.framingError, rfl, Nat.zero_le 8, ?_, fun m hm => ?_⟩, rfl⟩
  · show 1 + (C + C / 2 - 1) = C + C / 2 + 0 * C
    omega
  · rw [decide_eq_false (Nat.not_lt_zero m), Bool.false_and]
    exact BitVec.getLsbD_zero

/-- A high line. -/
theorem Rests.next_high (h : Rests s) : (s.sample C true).1 = s ∧ decoded C s true = [] := by
  unfold decoded sample
  rw [h.receiving]
  exact ⟨rfl, rfl⟩

/-- Between two samples. -/
theorem Hears.next_count (h : Hears C b j e s) (hcount : 0 < s.countdown) (tx : Bool) :
    Hears C b j (e + 1) (s.sample C tx).1 ∧ decoded C s tx = [] := by
  have hsample : s.sample C tx = ({ s with countdown := s.countdown - 1 }, none) := by
    unfold sample
    rw [h.receiving, if_neg (by decide), if_pos hcount]
  have hsum := h.count
  unfold decoded
  rw [hsample]
  refine ⟨⟨h.receiving, h.framingError, h.index, h.index_le, ?_, h.bits⟩, rfl⟩
  show e + 1 + (s.countdown - 1) = C + C / 2 + j * C
  omega

/-- The byte with one bit more. -/
theorem bits_succ {x : BitVec 8} (hx : ∀ m < 8, x.getLsbD m = (decide (m < j) && b.getLsbD m)) (hj : j < 8) :
    ∀ m < 8, (if b.getLsbD j then x ||| BitVec.ofNat 8 (1 <<< j) else x).getLsbD m =
      (decide (m < j + 1) && b.getLsbD m) := by
  intro m hm
  have hone : (BitVec.ofNat 8 (1 <<< j)).getLsbD m = decide (m = j) := by
    rw [BitVec.getLsbD_ofNat, decide_eq_true hm, Bool.true_and, Nat.one_shiftLeft, Nat.testBit_two_pow]
    exact decide_eq_decide.mpr eq_comm
  have hlt : decide (m < j + 1) = (decide (m < j) || decide (m = j)) := by
    rw [← Bool.decide_or]
    exact decide_eq_decide.mpr Nat.lt_succ_iff_lt_or_eq
  by_cases hmj : m = j
  · subst hmj
    rw [hlt, decide_eq_true (rfl : m = m), Bool.or_true, Bool.true_and]
    cases hbit : b.getLsbD m with
    | true => rw [if_pos rfl, BitVec.getLsbD_or, hone, decide_eq_true (rfl : m = m), Bool.or_true]
    | false => rw [if_neg Bool.false_ne_true, hx m hm, hbit, Bool.and_false]
  · rw [hlt, decide_eq_false hmj, Bool.or_false, ← hx m hm]
    split
    · rw [BitVec.getLsbD_or, hone, decide_eq_false hmj, Bool.or_false]
    · rfl

/-- The sample of a bit. -/
theorem Hears.next_bit (h : Hears C b j e s) (hC : 0 < C) (hcount : s.countdown = 0) (hj : j < 8) :
    Hears C b (j + 1) (e + 1) (s.sample C (b.getLsbD j)).1 ∧ decoded C s (b.getLsbD j) = [] := by
  have hsample : s.sample C (b.getLsbD j) =
      ({ s with
          byte := if b.getLsbD j then s.byte ||| BitVec.ofNat 8 (1 <<< j) else s.byte
          bitIndex := j + 1
          countdown := C - 1 }, none) := by
    unfold sample
    rw [h.receiving, if_neg (by decide), if_neg (by omega), if_pos (by rw [h.index]; exact hj), h.index]
    rfl
  have hsum := h.count
  unfold decoded
  rw [hsample]
  refine ⟨⟨h.receiving, h.framingError, rfl, hj, ?_, bits_succ h.bits hj⟩, rfl⟩
  show e + 1 + (C - 1) = C + C / 2 + (j + 1) * C
  rw [Nat.succ_mul]
  omega

/-- The sample of the stop bit. -/
theorem Hears.next_stop (h : Hears C b 8 e s) (hcount : s.countdown = 0) :
    Rests (s.sample C true).1 ∧ decoded C s true = [b] := by
  have hsample : s.sample C true = ({ s with receiving := false }, some s.byte) := by
    unfold sample
    rw [h.receiving, if_neg (by decide), if_neg (by omega), if_neg (by rw [h.index]; decide), if_pos rfl]
  have hbyte : s.byte = b := by
    refine BitVec.eq_of_getLsbD_eq fun m hm => ?_
    rw [h.bits m hm, decide_eq_true hm, Bool.true_and]
  unfold decoded
  rw [hsample]
  exact ⟨⟨rfl, h.framingError⟩, congrArg (fun x => [x]) hbyte⟩

/-- `e` cycles of the frame of `b` have been sampled: the decoder rests before the start bit and behind the sample of the
stop bit. -/
def Tracks (C : Nat) (b : BitVec 8) (e : Nat) (s : UartDecoder) : Prop :=
  if e = 0 ∨ 9 * C + C / 2 < e then Rests s else ∃ j, Hears C b j e s

/-- A decoder that tracks a line has seen no framing error. -/
theorem Tracks.framingError (h : Tracks C b e s) : s.framingError = false := by
  unfold Tracks at h
  split at h
  · exact h.framingError
  · obtain ⟨j, hj⟩ := h
    exact hj.framingError

/-- The level in the middle of bit `k` of a frame. -/
theorem middle_div (hC : 0 < C) (k : Nat) : (k * C + C / 2) / C = k := by
  rw [Nat.mul_comm, Nat.mul_add_div hC, Nat.div_eq_of_lt (Nat.div_lt_self hC (by decide)), Nat.add_zero]

/-- A cycle of a frame. -/
theorem Tracks.next (hC : 0 < C) (h : Tracks C b e s) (he : e < 10 * C) :
    Tracks C b (e + 1) (s.sample C ((serialFrame b).getD (e / C) true)).1 ∧
      decoded C s ((serialFrame b).getD (e / C) true) = if e = 9 * C + C / 2 then [b] else [] := by
  have hhalf : C / 2 < C := Nat.div_lt_self hC (by decide)
  unfold Tracks at h
  by_cases h0 : e = 0
  · subst h0
    rw [if_pos (Or.inl rfl)] at h
    obtain ⟨hnext, hdecoded⟩ := h.next_start hC b
    rw [Nat.zero_div, if_neg (by omega)]
    unfold Tracks
    rw [if_neg (by omega)]
    exact ⟨⟨0, hnext⟩, hdecoded⟩
  · by_cases hstop : 9 * C + C / 2 < e
    · rw [if_pos (Or.inr hstop)] at h
      have hnine : e / C = 9 := Nat.div_eq_of_lt_le (by omega) (by omega)
      obtain ⟨hnext, hdecoded⟩ := h.next_high (C := C)
      have htrue : (serialFrame b).getD (e / C) true = true := by
        rw [hnine]
        rfl
      unfold Tracks
      rw [htrue, if_pos (Or.inr (Nat.lt_succ_of_lt hstop)), if_neg (by omega), hnext]
      exact ⟨h, hdecoded⟩
    · rw [if_neg (by omega)] at h
      obtain ⟨j, hj⟩ := h
      have hsum := hj.count
      have hle : j * C ≤ 8 * C := Nat.mul_le_mul_right C hj.index_le
      by_cases hcount : 0 < s.countdown
      · obtain ⟨hnext, hdecoded⟩ := hj.next_count hcount ((serialFrame b).getD (e / C) true)
        unfold Tracks
        rw [if_neg (by omega), if_neg (by omega)]
        exact ⟨⟨j, hnext⟩, hdecoded⟩
      · have hzero : s.countdown = 0 := Nat.eq_zero_of_not_pos hcount
        have hmiddle : e / C = j + 1 := by
          rw [← middle_div hC (j + 1), Nat.succ_mul]
          congr 1
          omega
        rcases Nat.lt_or_eq_of_le hj.index_le with hlt | rfl
        · have hbit : (serialFrame b).getD (e / C) true = b.getLsbD j := by
            rw [hmiddle, serialFrame_getD b (by omega), if_neg (Nat.succ_ne_zero j), if_pos (by omega),
              Nat.add_sub_cancel]
          have hnot : (j + 1) * C ≤ 8 * C := Nat.mul_le_mul_right C hlt
          rw [Nat.succ_mul] at hnot
          obtain ⟨hnext, hdecoded⟩ := hj.next_bit hC hzero hlt
          unfold Tracks
          rw [hbit, if_neg (by omega), if_neg (by omega)]
          exact ⟨⟨j + 1, hnext⟩, hdecoded⟩
        · have hbit : (serialFrame b).getD (e / C) true = true := by
            rw [hmiddle]
            rfl
          obtain ⟨hnext, hdecoded⟩ := hj.next_stop hzero
          unfold Tracks
          rw [hbit, if_pos (by omega), if_pos (by omega)]
          exact ⟨hnext, hdecoded⟩

/-! ## Lines -/

/-- While a frame is on the line, the decoder keeps track of it; its byte is decoded with the stop bit. -/
theorem run_frame (hC : 0 < C) {f : Nat → Bool} {q : Nat} (hrest : Rests ((machine C).run f q))
    (hf : ∀ c < 10 * C, f (q + c) = (serialFrame b).getD (c / C) true) (he : e ≤ 10 * C) :
    Tracks C b e ((machine C).run f (q + e)) ∧ (machine C).events (decoded C) f (q + e) =
      (machine C).events (decoded C) f q ++ if 9 * C + C / 2 < e then [b] else [] := by
  induction e with
  | zero =>
    rw [if_neg (Nat.not_lt_zero _), List.append_nil]
    unfold Tracks
    rw [if_pos (Or.inl rfl)]
    exact ⟨hrest, rfl⟩
  | succ e ih =>
    obtain ⟨htracks, hevents⟩ := ih (Nat.le_of_succ_le he)
    obtain ⟨hnext, hdecoded⟩ := htracks.next hC he
    rw [← hf e he] at hnext hdecoded
    refine ⟨hnext, ?_⟩
    rw [← Nat.add_assoc, Machine.events, hevents, hdecoded, List.append_assoc]
    congr 1
    by_cases hlt : 9 * C + C / 2 < e
    · rw [if_pos hlt, if_neg (by omega), if_pos (by omega)]
      rfl
    · by_cases heq : e = 9 * C + C / 2
      · rw [if_neg hlt, if_pos heq, if_pos (by omega)]
        rfl
      · rw [if_neg hlt, if_neg heq, if_neg (by omega)]
        rfl

/-- The decoder hears what the line carries. -/
theorem run_carries (hC : 0 < C) {f : Nat → Bool} {bs : Bytes} {q : Nat} (h : SerialCarries C f bs q) :
    Rests ((machine C).run f q) ∧ (machine C).events (decoded C) f q = bs := by
  induction h with
  | start => exact ⟨⟨rfl, rfl⟩, rfl⟩
  | high _ hhigh ih =>
    obtain ⟨hrest, hevents⟩ := ih
    obtain ⟨hnext, hdecoded⟩ := hrest.next_high (C := C)
    rw [Machine.events, hevents, hhigh, hdecoded, List.append_nil]
    refine ⟨?_, rfl⟩
    rw [Machine.run_succ, hhigh]
    show Rests (UartDecoder.sample C _ true).1
    rwa [hnext]
  | frame _ hf ih =>
    obtain ⟨hrest, hevents⟩ := ih
    obtain ⟨htracks, hframe⟩ := run_frame hC hrest hf (Nat.le_refl _)
    have hhalf : C / 2 < C := Nat.div_lt_self hC (by decide)
    unfold Tracks at htracks
    rw [if_pos (by omega)] at htracks
    rw [if_pos (by omega), hevents] at hframe
    exact ⟨htracks, hframe⟩

/-- A decoder that hears the first bytes of a message has heard nothing else. -/
structure Heard (C : Nat) (f : Nat → Bool) (n : Nat) (bs : Bytes) : Prop where
  framingError : ((machine C).run f n).framingError = false
  order : (machine C).events (decoded C) f n <+: bs

/-- Behind the frames that a line carries. -/
theorem heard_of_carries (hC : 0 < C) {f : Nat → Bool} {bs cs : Bytes} {q : Nat} (h : SerialCarries C f bs q)
    (hbs : bs <+: cs) : Heard C f q cs := by
  obtain ⟨hrest, hevents⟩ := run_carries hC h
  refine ⟨hrest.framingError, ?_⟩
  rwa [hevents]

/-- Within a frame behind those. -/
theorem heard_within (hC : 0 < C) {f : Nat → Bool} {bs cs : Bytes} {q : Nat} (h : SerialCarries C f bs q)
    (hf : ∀ c < 10 * C, f (q + c) = (serialFrame b).getD (c / C) true) (he : e ≤ 10 * C) (hbs : bs ++ [b] <+: cs) :
    Heard C f (q + e) cs := by
  obtain ⟨hrest, hevents⟩ := run_carries hC h
  obtain ⟨htracks, hframe⟩ := run_frame hC hrest hf he
  refine ⟨htracks.framingError, ?_⟩
  rw [hframe, hevents]
  split
  · exact hbs
  · rw [List.append_nil]
    exact (List.prefix_append bs [b]).trans hbs

end UartDecoder

end SocRV
