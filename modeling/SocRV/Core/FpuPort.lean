import SocRV.Core.FpState
import SocRV.Lib.OneSlot

/-!
# Decode and the floating-point unit

`dec_decode_ctl` hands a floating-point instruction to `mycpu_fpu` and keeps its address, its word and its trigger hits
until the answer comes.  What else lets decode issue the instruction is an input, so are the flushes and the choices of
`fpnew`: when it takes an operation, when it answers and which one.
-/

namespace SocRV

/-- `writes_fpr_o`. -/
def Fpu.writesFpr (i : FpuIn) : Bool := i.fpTag.getLsbD 5

/-- The outputs of `mycpu_fpu` for the tag of a request are the destination of its instruction. -/
theorem Fpu.requestTag_out {s : Fpu} {i : FpuIn} (h : i.fpTag = s.requestTag) :
    Fpu.rd i = instRd s.instQ ∧ Fpu.writesGpr i = fpWritesGpr s.instQ ∧ Fpu.writesFpr i = !fpWritesGpr s.instQ := by
  have hall : ∀ a b : Bool, ∀ r : BitVec 5,
      (BitVec.ofBool a ++ BitVec.ofBool b ++ r : BitVec 7).extractLsb' 0 5 = r ∧
        (BitVec.ofBool a ++ BitVec.ofBool b ++ r : BitVec 7).getLsbD 6 = a ∧
        (BitVec.ofBool a ++ BitVec.ofBool b ++ r : BitVec 7).getLsbD 5 = b := by decide
  unfold Fpu.rd Fpu.writesGpr Fpu.writesFpr
  rw [h]
  exact hall (fpWritesGpr s.instQ) (!fpWritesGpr s.instQ) (s.instQ.extractLsb' 7 5)

/-- A floating-point instruction in decode: the word `i0`, the word `i0_inst_d` as it was fetched, the address and the
trigger hits. -/
structure FpuInst where
  inst : BitVec 32
  instD : BitVec 32
  pc : BitVec 31
  triggerMatch : BitVec 4
  deriving DecidableEq, Repr

/-- The registers of `mycpu_fpu` and those of decode that belong to its instruction.  `accepted` stands for `fpnew`: the
tags of the operations it has taken and neither answered nor dropped. -/
structure FpuPort where
  fpu : Fpu := {}
  fpuStallFf : Bool := false
  fpuPc : BitVec 31 := 0
  fpuInst : BitVec 32 := 0
  fpuTrigger : BitVec 4 := 0
  accepted : List (BitVec 7) := []
  deriving DecidableEq, Repr

/-- The inputs of a cycle.  `issue` holds the terms of `i0_legal_decode_d & i0_dp.fpu` that this port has no part in. -/
structure FpuPortIn where
  issue : Bool := false
  i0 : FpuInst
  flush : Bool := false
  fpInReady : Bool := false
  fpOutValid : Bool := false
  fpTag : BitVec 7 := 0
  deriving DecidableEq, Repr

namespace FpuPort

variable (s : FpuPort) (i : FpuPortIn)

/-- `fpu_stall`. -/
def fpuStall : Bool := s.fpu.busy || s.fpuStallFf

/-- `i0_fpu_decode_d`. -/
def i0FpuDecodeD : Bool := i.issue && !s.fpuStall && s.fpu.reqReady && !i.flush

/-- The ports of `mycpu_fpu`. -/
def fpuIn : FpuIn where
  reqValid := s.i0FpuDecodeD i
  inst := i.i0.inst
  flush := i.flush
  fpInReady := i.fpInReady
  fpOutValid := i.fpOutValid
  fpTag := i.fpTag

/-- `fpu_resp_valid`. -/
def fpuRespValid : Bool := Fpu.respValid (s.fpuIn i)

/-- What `fpnew` may answer in a cycle: an operation it has taken, or takes now. -/
def answerable : List (BitVec 7) :=
  s.accepted ++ if s.fpu.pendingQ && i.fpInReady then [s.fpu.requestTag] else []

/-- The registers after a core cycle. -/
def next : FpuPort where
  fpu := s.fpu.next (s.fpuIn i)
  fpuStallFf := s.fpu.busy
  fpuPc := rvdffs (s.i0FpuDecodeD i) i.i0.pc s.fpuPc
  fpuInst := rvdffs (s.i0FpuDecodeD i) i.i0.instD s.fpuInst
  fpuTrigger := rvdffs (s.i0FpuDecodeD i) i.i0.triggerMatch s.fpuTrigger
  accepted :=
    if i.flush then [] else if i.fpOutValid then (s.answerable i).erase i.fpTag else s.answerable i

/-- Decode and the unit from reset. -/
def machine : Machine FpuPort FpuPortIn := ⟨{}, next⟩

/-- The operations in flight: one that waits for `fpnew`, and those that `fpnew` has taken. -/
def inFlight : Nat := s.fpu.pendingQ.toNat + s.accepted.length

/-! ## What the port holds -/

/-- The registers of the unit and of decode are those of the instruction. -/
structure Keeps (r : FpuInst) : Prop where
  instQ : s.fpu.instQ = r.inst
  pc : s.fpuPc = r.pc
  inst : s.fpuInst = r.instD
  trigger : s.fpuTrigger = r.triggerMatch

/-- The instruction that the port works on, if there is one. -/
inductive Holds : Option FpuInst → FpuPort → Prop where
  | idle {s : FpuPort} (hp : s.fpu.pendingQ = false) (ha : s.fpu.activeQ = false) (hacc : s.accepted = []) :
      Holds none s
  | waiting {r : FpuInst} {s : FpuPort} (hp : s.fpu.pendingQ = true) (ha : s.fpu.activeQ = false)
      (hacc : s.accepted = []) (hr : s.Keeps r) : Holds (some r) s
  | working {r : FpuInst} {s : FpuPort} (hp : s.fpu.pendingQ = false) (ha : s.fpu.activeQ = true)
      (hacc : s.accepted = [s.fpu.requestTag]) (hr : s.Keeps r) : Holds (some r) s

section Step

variable {s : FpuPort} {i : FpuPortIn} {o : Option FpuInst} {r : FpuInst}

/-- At most one operation is in flight. -/
theorem Holds.inFlight_le (h : Holds o s) : s.inFlight ≤ 1 := by
  unfold inFlight
  cases h with
  | idle hp ha hacc =>
    rw [hp, hacc]
    exact Nat.zero_le 1
  | waiting hp ha hacc hr =>
    rw [hp, hacc]
    exact Nat.le_refl 1
  | working hp ha hacc hr =>
    rw [hp, hacc]
    exact Nat.le_refl 1

/-- The FPU is busy exactly when it holds an operation. -/
theorem Holds.busy (h : Holds o s) : s.fpu.busy = o.isSome := by
  unfold Fpu.busy
  cases h with
  | idle hp ha hacc =>
    rw [hp, ha]
    rfl
  | waiting hp ha hacc hr =>
    rw [hp, ha]
    rfl
  | working hp ha hacc hr =>
    rw [hp, ha]
    rfl

/-- Nothing is in flight when the port is empty. -/
theorem Holds.inFlight_eq (h : Holds o s) (hnone : s.inFlight = 0) : o = none := by
  unfold inFlight at hnone
  cases h with
  | idle hp ha hacc => rfl
  | waiting hp ha hacc hr =>
    rw [hp, hacc] at hnone
    exact absurd hnone Nat.one_ne_zero
  | working hp ha hacc hr =>
    rw [hp, hacc] at hnone
    exact absurd hnone Nat.one_ne_zero

/-- Decode issues an instruction only into the empty port, and not in a flush. -/
theorem Holds.decode (h : Holds o s) (hd : s.i0FpuDecodeD i = true) : o = none ∧ i.flush = false := by
  unfold i0FpuDecodeD fpuStall at hd
  rw [h.busy] at hd
  simp only [Bool.and_eq_true, Bool.not_eq_true', Bool.or_eq_false_iff] at hd
  exact ⟨Option.not_isSome_iff_eq_none.mp (by rw [hd.1.1.2.1]; exact Bool.false_ne_true), hd.2⟩

/-- The control registers of the unit after a cycle without a flush. -/
theorem fpu_next (hf : i.flush = false) : (s.next i).fpu =
    { pendingQ := if s.fpu.pendingQ && i.fpInReady then false
        else (s.i0FpuDecodeD i && s.fpu.reqReady) || s.fpu.pendingQ
      activeQ := if i.fpOutValid then false else (s.fpu.pendingQ && i.fpInReady) || s.fpu.activeQ
      instQ := if s.i0FpuDecodeD i && s.fpu.reqReady then i.i0.inst else s.fpu.instQ } := by
  show s.fpu.next (s.fpuIn i) = _
  unfold Fpu.next
  rw [if_neg (by rw [show (s.fpuIn i).flush = i.flush from rfl, hf]; exact Bool.false_ne_true)]
  rfl

/-- An answer takes its operation out of those accepted. -/
theorem accepted_next (hf : i.flush = false) : (s.next i).accepted =
    if i.fpOutValid then (s.answerable i).erase i.fpTag else s.answerable i := by
  show (if i.flush then [] else _) = _
  rw [hf, if_neg Bool.false_ne_true]

/-- The registers of the instruction stay while decode issues nothing. -/
theorem keeps_next (h : s.Keeps r) (hf : i.flush = false) (hd : s.i0FpuDecodeD i = false) : (s.next i).Keeps r := by
  refine ⟨?_, ?_, ?_, ?_⟩
  · rw [fpu_next hf, hd]
    exact h.instQ
  · show rvdffs (s.i0FpuDecodeD i) _ _ = _
    rw [hd]
    exact h.pc
  · show rvdffs (s.i0FpuDecodeD i) _ _ = _
    rw [hd]
    exact h.inst
  · show rvdffs (s.i0FpuDecodeD i) _ _ = _
    rw [hd]
    exact h.trigger

/-- A flush empties the port. -/
theorem flush_next (hf : i.flush = true) : Holds none (s.next i) := by
  have hfpu : (s.next i).fpu = { s.fpu with pendingQ := false, activeQ := false } := by
    show s.fpu.next (s.fpuIn i) = _
    unfold Fpu.next
    exact if_pos hf
  refine .idle (by rw [hfpu]) (by rw [hfpu]) ?_
  show (if i.flush then [] else _) = _
  rw [hf, if_pos rfl]

/-- What an answer of `fpnew` belongs to. -/
theorem Holds.answer (h : Holds o s) (hans : i.fpTag ∈ s.answerable i) :
    ∃ r, o = some r ∧ s.Keeps r ∧ i.fpTag = s.fpu.requestTag ∧ (s.answerable i).erase i.fpTag = [] ∧
      (s.fpu.pendingQ = true → i.fpInReady = true) := by
  unfold answerable at hans ⊢
  cases h with
  | idle hp ha hacc =>
    rw [hp, hacc, Bool.false_and, if_neg Bool.false_ne_true] at hans
    exact absurd hans List.not_mem_nil
  | @waiting r _ hp ha hacc hr =>
    rw [hp, hacc, Bool.true_and, List.nil_append] at hans
    rw [hacc, hp, Bool.true_and, List.nil_append]
    cases hready : i.fpInReady with
    | false =>
      rw [hready, if_neg Bool.false_ne_true] at hans
      exact absurd hans List.not_mem_nil
    | true =>
      rw [hready, if_pos rfl, List.mem_singleton] at hans
      refine ⟨r, rfl, hr, hans, ?_, fun _ => rfl⟩
      rw [if_pos rfl, hans, List.erase_cons_head]
  | @working r _ hp ha hacc hr =>
    rw [hp, hacc, Bool.false_and, if_neg Bool.false_ne_true, List.append_nil, List.mem_singleton] at hans
    rw [hp, hacc, Bool.false_and, if_neg Bool.false_ne_true, List.append_nil]
    refine ⟨r, rfl, hr, hans, ?_, fun h => absurd h Bool.false_ne_true⟩
    rw [hans, List.erase_cons_head]

/-- A cycle without a flush and without an answer. -/
theorem Holds.next_quiet (h : Holds o s) (hf : i.flush = false) (hans : i.fpOutValid = false) :
    Holds (if s.i0FpuDecodeD i then some i.i0 else o) (s.next i) := by
  have hfpu := fpu_next (s := s) hf
  have hacc' := accepted_next (s := s) hf
  rw [hans, if_neg Bool.false_ne_true] at hfpu hacc'
  cases hd : s.i0FpuDecodeD i with
  | true =>
    obtain rfl := (h.decode hd).1
    obtain ⟨hp, ha, hacc⟩ := h
    have hready : s.fpu.reqReady = true := by
      unfold Fpu.reqReady
      rw [hp, ha]
      rfl
    rw [hd, hready, hp, ha] at hfpu
    unfold answerable at hacc'
    rw [hacc, hp] at hacc'
    refine .waiting (by rw [hfpu]; rfl) (by rw [hfpu]; rfl) hacc' ⟨by rw [hfpu]; rfl, ?_, ?_, ?_⟩
    · show rvdffs (s.i0FpuDecodeD i) _ _ = _
      rw [hd]
      rfl
    · show rvdffs (s.i0FpuDecodeD i) _ _ = _
      rw [hd]
      rfl
    · show rvdffs (s.i0FpuDecodeD i) _ _ = _
      rw [hd]
      rfl
  | false =>
    rw [hd, Bool.false_and, Bool.false_or] at hfpu
    rw [if_neg Bool.false_ne_true]
    unfold answerable at hacc'
    cases h with
    | idle hp ha hacc =>
      rw [hp, ha] at hfpu
      rw [hacc, hp] at hacc'
      exact .idle (by rw [hfpu]; rfl) (by rw [hfpu]; rfl) hacc'
    | waiting hp ha hacc hr =>
      rw [hp, ha] at hfpu
      rw [hacc, hp] at hacc'
      cases hready : i.fpInReady with
      | false =>
        rw [hready] at hfpu hacc'
        exact .waiting (by rw [hfpu]; rfl) (by rw [hfpu]; rfl) hacc' (keeps_next hr hf hd)
      | true =>
        rw [hready] at hfpu hacc'
        have htag : (s.next i).fpu.requestTag = s.fpu.requestTag := by
          rw [hfpu]
          rfl
        exact .working (by rw [hfpu]; rfl) (by rw [hfpu]; rfl) (hacc'.trans (by rw [htag]; rfl)) (keeps_next hr hf hd)
    | working hp ha hacc hr =>
      rw [hp, ha] at hfpu
      rw [hacc, hp] at hacc'
      have htag : (s.next i).fpu.requestTag = s.fpu.requestTag := by
        rw [hfpu]
        rfl
      exact .working (by rw [hfpu]; rfl) (by rw [hfpu]; rfl) (hacc'.trans (by rw [htag]; rfl)) (keeps_next hr hf hd)

/-- What the port holds after a cycle. -/
theorem Holds.next (h : Holds o s) (hans : i.fpOutValid = true → i.fpTag ∈ s.answerable i) :
    Holds (if i.flush then none else if s.i0FpuDecodeD i then some i.i0 else if s.fpuRespValid i then none else o)
      (s.next i) := by
  cases hf : i.flush with
  | true =>
    rw [if_pos rfl]
    exact flush_next hf
  | false =>
    rw [if_neg Bool.false_ne_true]
    have hresp : s.fpuRespValid i = i.fpOutValid := by
      show (i.fpOutValid && !i.flush) = _
      rw [hf, Bool.not_false, Bool.and_true]
    rw [hresp]
    cases hv : i.fpOutValid with
    | false =>
      rw [if_neg Bool.false_ne_true]
      exact h.next_quiet hf hv
    | true =>
      obtain ⟨r, hr, -, -, herase, hready⟩ := h.answer (hans hv)
      have hd : s.i0FpuDecodeD i = false := by
        rw [← Bool.not_eq_true]
        intro hd
        rw [(h.decode hd).1] at hr
        exact absurd hr (by simp)
      rw [hd, if_neg Bool.false_ne_true, if_pos rfl]
      have hfpu := fpu_next (s := s) hf
      have hacc' := accepted_next (s := s) hf
      rw [hv, if_pos rfl] at hfpu hacc'
      rw [hd, Bool.false_and, Bool.false_or] at hfpu
      refine .idle ?_ (by rw [hfpu]) (hacc'.trans herase)
      rw [hfpu]
      dsimp only
      cases hp : s.fpu.pendingQ with
      | false => rfl
      | true =>
        rw [hready hp]
        rfl

end Step

end FpuPort

end SocRV
