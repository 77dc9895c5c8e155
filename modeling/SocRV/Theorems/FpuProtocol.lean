import SocRV.Core.FpuPort

/-!
# Requests and responses of the floating-point unit

Decode issues one floating-point instruction at a time, and the unit answers it once, unless a flush comes first.
-/

namespace SocRV

namespace FpuPort

section Run

variable (w : Nat → FpuPortIn)

/-- Decode issues an instruction to the unit, the unit answers, and the pipeline is flushed. -/
def decodes (n : Nat) : Bool := (machine.run w n).i0FpuDecodeD (w n)

@[inherit_doc decodes]
def responds (n : Nat) : Bool := (machine.run w n).fpuRespValid (w n)

@[inherit_doc decodes]
def flushes (n : Nat) : Bool := (w n).flush

/-- The instruction issued in cycle `k` is answered, or flushed, in cycle `m`. -/
def Answered (k m : Nat) : Prop := Answers (decodes w) (responds w) (flushes w) k m

@[inherit_doc Answered]
def Flushed (k m : Nat) : Prop := Cancels (decodes w) (responds w) (flushes w) k m

/-- What `mycpu_fpu` relies on: `fpnew` answers an operation that it has taken and not answered or dropped before, with the
tag of that operation; it takes an operation that is offered to it, and answers one that it has taken, in the end. -/
structure FpnewAnswers : Prop where
  tag : ∀ n, (w n).fpOutValid = true → (w n).fpTag ∈ (machine.run w n).answerable (w n)
  takes : ∀ n, (machine.run w n).fpu.pendingQ = true → ∃ m ≥ n, (w m).fpInReady = true ∨ (w m).flush = true
  finishes : ∀ n, (machine.run w n).accepted ≠ [] → ∃ m ≥ n, (w m).fpOutValid = true ∨ (w m).flush = true

/-- What holds of the requests and responses of a run. -/
structure Protocol : Prop where
  single : ∀ n, (machine.run w n).inFlight ≤ 1
  /-- An instruction that is issued is answered exactly once, or flushed and not answered. -/
  outcome : ∀ k, decodes w k = true → ((∃! m, Answered w k m) ∧ ∀ m, ¬ Flushed w k m) ∨
    ((∀ m, ¬ Answered w k m) ∧ ∃ m, Flushed w k m)
  response : ∀ m, responds w m = true → ∃! k, Answered w k m
  /-- The answer has the destination of the instruction, and the registers of decode are still those of it. -/
  data : ∀ k m, Answered w k m → Fpu.rd ((machine.run w m).fpuIn (w m)) = instRd (w k).i0.inst ∧
    Fpu.writesGpr ((machine.run w m).fpuIn (w m)) = fpWritesGpr (w k).i0.inst ∧
    Fpu.writesFpr ((machine.run w m).fpuIn (w m)) = !fpWritesGpr (w k).i0.inst ∧
    (machine.run w m).Keeps (w k).i0
  /-- Decode is not left stalled with nothing in flight: a stall that is still there then is over a cycle later. -/
  stall : ∀ n, (machine.run w n).fpuStall = true → (machine.run w n).inFlight = 0 →
    (machine.run w (n + 1)).fpuStall = false

variable {w} {n k m : Nat}

/-- The port holds the instruction that was issued and neither answered nor flushed. -/
theorem holds_run (h : FpnewAnswers w) (n : Nat) :
    Holds ((holder (decodes w) (responds w) (flushes w) n).map fun k => (w k).i0) (machine.run w n) := by
  induction n with
  | zero => exact .idle rfl rfl rfl
  | succ n ih =>
    have hnext := ih.next (h.tag n)
    rw [holder]
    show Holds (Option.map _ (if (w n).flush then none else if (machine.run w n).i0FpuDecodeD (w n) then some n else
      if (machine.run w n).fpuRespValid (w n) then none else _)) ((machine.run w n).next (w n))
    split
    · rename_i hf
      rwa [if_pos hf] at hnext
    · rename_i hf
      rw [if_neg hf] at hnext
      split
      · rename_i hd
        rwa [if_pos hd] at hnext
      · rename_i hd
        rw [if_neg hd] at hnext
        split
        · rename_i hr
          rwa [if_pos hr] at hnext
        · rename_i hr
          rwa [if_neg hr] at hnext

/-- Instructions are issued one at a time. -/
theorem oneAtATime (h : FpnewAnswers w) : OneAtATime (decodes w) (responds w) (flushes w) := by
  constructor
  · intro n hd
    obtain ⟨hnone, hf⟩ := (holds_run h n).decode hd
    exact ⟨Option.map_eq_none_iff.mp hnone, hf⟩
  · intro n hr
    have hr' : ((w n).fpOutValid && !(w n).flush) = true := hr
    rw [Bool.and_eq_true, Bool.not_eq_true'] at hr'
    obtain ⟨r, hsome, -⟩ := (holds_run h n).answer (h.tag n hr'.1)
    refine ⟨fun hnone => ?_, hr'.2⟩
    rw [hnone] at hsome
    exact absurd hsome (by simp)

/-! ## Every request ends -/

/-- An operation that `fpnew` has taken ends. -/
theorem accepted_ends (h : FpnewAnswers w) (hacc : (machine.run w n).accepted ≠ []) :
    ∃ m ≥ n, responds w m = true ∨ flushes w m = true := by
  obtain ⟨m, hm, hv | hf⟩ := h.finishes n hacc
  · cases hf : (w m).flush with
    | true => exact ⟨m, hm, Or.inr hf⟩
    | false =>
      refine ⟨m, hm, Or.inl ?_⟩
      show ((w m).fpOutValid && !(w m).flush) = true
      rw [hv, hf]
      rfl
  · exact ⟨m, hm, Or.inr hf⟩

/-- An operation that waits is offered until `fpnew` takes it. -/
theorem pending_stays (hp : (machine.run w n).fpu.pendingQ = true) {d : Nat}
    (hquiet : ∀ j < d, (w (n + j)).fpInReady = false ∧ (w (n + j)).flush = false) :
    (machine.run w (n + d)).fpu.pendingQ = true := by
  induction d with
  | zero => exact hp
  | succ d ih =>
    obtain ⟨hready, hf⟩ := hquiet d (Nat.lt_succ_self d)
    have hpd := ih fun j hj => hquiet j (Nat.lt_succ_of_lt hj)
    rw [← Nat.add_assoc, Machine.run_succ]
    show ((machine.run w (n + d)).next (w (n + d))).fpu.pendingQ = true
    rw [fpu_next hf]
    dsimp only
    rw [hready, Bool.and_false, if_neg Bool.false_ne_true, hpd, Bool.or_true]

/-- An operation that waits ends. -/
theorem pending_ends (h : FpnewAnswers w) (hp : (machine.run w n).fpu.pendingQ = true) :
    ∃ m ≥ n, responds w m = true ∨ flushes w m = true := by
  have hex : ∃ d, (w (n + d)).fpInReady = true ∨ (w (n + d)).flush = true := by
    obtain ⟨m, hm, htaken⟩ := h.takes n hp
    obtain ⟨d, rfl⟩ := Nat.exists_eq_add_of_le hm
    exact ⟨d, htaken⟩
  have hpd : (machine.run w (n + Nat.find hex)).fpu.pendingQ = true := by
    refine pending_stays hp fun j hj => ?_
    have hnot := Nat.find_min hex hj
    rwa [not_or, Bool.not_eq_true, Bool.not_eq_true] at hnot
  have hn : n + Nat.find hex ≥ n := Nat.le_add_right n _
  cases hf : (w (n + Nat.find hex)).flush with
  | true => exact ⟨_, hn, Or.inr hf⟩
  | false =>
    have hready : (w (n + Nat.find hex)).fpInReady = true := by
      rcases Nat.find_spec hex with hready | hflush
      · exact hready
      · exact absurd (hf.symm.trans hflush) Bool.false_ne_true
    cases hv : (w (n + Nat.find hex)).fpOutValid with
    | true =>
      refine ⟨_, hn, Or.inl ?_⟩
      show ((w (n + Nat.find hex)).fpOutValid && !(w (n + Nat.find hex)).flush) = true
      rw [hv, hf]
      rfl
    | false =>
      -- taken, and not answered in the same cycle
      have hacc : (machine.run w (n + Nat.find hex + 1)).accepted = _ := accepted_next hf
      have hne : (machine.run w (n + Nat.find hex + 1)).accepted ≠ [] := by
        rw [hacc, hv, if_neg Bool.false_ne_true]
        unfold answerable
        rw [hpd, hready]
        simp
      obtain ⟨m, hm, hend⟩ := accepted_ends h hne
      exact ⟨m, Nat.le_trans hn (Nat.le_of_succ_le hm), hend⟩

/-- The instruction in the port ends. -/
theorem holder_ends (h : FpnewAnswers w) (hk : holder (decodes w) (responds w) (flushes w) n = some k) :
    ∃ m ≥ n, responds w m = true ∨ flushes w m = true := by
  have hholds := holds_run h n
  rw [hk] at hholds
  cases hholds with
  | waiting hp ha hacc hr => exact pending_ends h hp
  | working hp ha hacc hr => exact accepted_ends h (by rw [hacc]; simp)

/-! ## The protocol -/

/-- What belongs to an answer. -/
theorem answered_data (h : FpnewAnswers w) (hans : Answered w k m) :
    Fpu.rd ((machine.run w m).fpuIn (w m)) = instRd (w k).i0.inst ∧
      Fpu.writesGpr ((machine.run w m).fpuIn (w m)) = fpWritesGpr (w k).i0.inst ∧
      Fpu.writesFpr ((machine.run w m).fpuIn (w m)) = !fpWritesGpr (w k).i0.inst ∧
      (machine.run w m).Keeps (w k).i0 := by
  have hholder : holder (decodes w) (responds w) (flushes w) m = some k :=
    (oneAtATime h).holds hans.made hans.lt fun j hj hjm =>
      ⟨hans.first j hj hjm, hans.kept j hj (Nat.le_of_lt hjm)⟩
  have hvalid : (w m).fpOutValid = true := by
    have hresp : ((w m).fpOutValid && !(w m).flush) = true := hans.answer
    exact (Bool.and_eq_true_iff.mp hresp).1
  have hholds := holds_run h m
  rw [hholder] at hholds
  obtain ⟨r, hr, hkeeps, htag, -⟩ := hholds.answer (h.tag m hvalid)
  obtain rfl := Option.some.inj hr
  obtain ⟨hrd, hgpr, hfpr⟩ := Fpu.requestTag_out (i := (machine.run w m).fpuIn (w m)) htag
  rw [hkeeps.instQ] at hrd hgpr hfpr
  exact ⟨hrd, hgpr, hfpr, hkeeps⟩

/-- A stall with nothing in flight is over in the next cycle. -/
theorem stall_ends (h : FpnewAnswers w) (hstall : (machine.run w n).fpuStall = true)
    (hnone : (machine.run w n).inFlight = 0) : (machine.run w (n + 1)).fpuStall = false := by
  have hholds := holds_run h n
  rw [hholds.inFlight_eq hnone] at hholds
  have hd : (machine.run w n).i0FpuDecodeD (w n) = false := by
    unfold i0FpuDecodeD
    rw [hstall, Bool.not_true, Bool.and_false, Bool.false_and, Bool.false_and]
  have hnext := hholds.next (h.tag n)
  rw [hd, if_neg Bool.false_ne_true, ite_self, ite_self] at hnext
  have hff : (machine.run w (n + 1)).fpuStallFf = (machine.run w n).fpu.busy := rfl
  have hbusy : (machine.run w (n + 1)).fpu.busy = false := hnext.busy
  unfold fpuStall
  rw [hbusy, hff, hholds.busy]
  rfl

end Run

end FpuPort

/-- Decode and the floating-point unit keep the protocol, whatever is issued and flushed and however long `fpnew` takes. -/
theorem fpu_protocol (w : Nat → FpuPortIn) (h : FpuPort.FpnewAnswers w) : FpuPort.Protocol w := by
  have hone := FpuPort.oneAtATime h
  refine ⟨fun n => (FpuPort.holds_run h n).inFlight_le, fun k hk => ?_, fun m hm => hone.answered hm,
    fun k m => FpuPort.answered_data h, fun n => FpuPort.stall_ends h⟩
  exact hone.outcome hk fun n => FpuPort.holder_ends h

/-- `fadd.s f1, f2, f3`, taken in the next cycle and answered two cycles later. -/
def addOnce (n : Nat) : FpuPortIn :=
  [{ issue := true, i0 := ⟨0x003100d3, 0x003100d3, 0x40, 0⟩ },
    { i0 := ⟨0, 0, 0, 0⟩, fpInReady := true }, { i0 := ⟨0, 0, 0, 0⟩ },
    { i0 := ⟨0, 0, 0, 0⟩, fpOutValid := true, fpTag := 0b0100001 }].getD n { i0 := ⟨0, 0, 0, 0⟩, fpInReady := true }

/-- After that the port is empty. -/
theorem addOnce_rest (n : Nat) : FpuPort.machine.run addOnce (5 + n) = FpuPort.machine.run addOnce 5 := by
  induction n with
  | zero => rfl
  | succ n ih =>
    have hrest : addOnce (5 + n) = { i0 := ⟨0, 0, 0, 0⟩, fpInReady := true } := by
      unfold addOnce
      rw [List.getD_eq_getElem?_getD, List.getElem?_eq_none (Nat.le_trans (by decide : 4 ≤ 5) (Nat.le_add_right 5 n))]
      rfl
    rw [← Nat.add_assoc, Machine.run_succ, ih, hrest]
    decide +kernel

/-- The addition goes by the protocol. -/
theorem fpu_protocol_add : FpuPort.Protocol addOnce := by
  refine fpu_protocol addOnce ⟨fun n hv => ?_, fun n _ => ⟨n + 4, Nat.le_add_right n 4, Or.inl ?_⟩, fun n hacc => ?_⟩
  · rcases Nat.lt_or_ge n 4 with hlt | hge
    · have hall : ∀ n < 4, (addOnce n).fpOutValid = true →
          (addOnce n).fpTag ∈ (FpuPort.machine.run addOnce n).answerable (addOnce n) := by decide +kernel
      exact hall n hlt hv
    · unfold addOnce at hv
      rw [List.getD_eq_getElem?_getD, List.getElem?_eq_none hge] at hv
      exact absurd hv Bool.false_ne_true
  · unfold addOnce
    rw [List.getD_eq_getElem?_getD, List.getElem?_eq_none (by simp)]
    rfl
  · rcases Nat.lt_or_ge n 4 with hlt | hge
    · exact ⟨3, Nat.le_of_lt_succ hlt, Or.inl (by decide +kernel)⟩
    · rcases Nat.eq_or_lt_of_le hge with rfl | hgt
      · exact absurd (by decide +kernel) hacc
      · obtain ⟨d, rfl⟩ := Nat.exists_eq_add_of_le hgt
        refine absurd ?_ hacc
        rw [addOnce_rest d]
        decide +kernel

/-! ## The port in the core -/

/-- `i0_legal_decode_d & i0_dp.fpu` without the terms of the floating-point unit and of the flushes. -/
def Dec.fpuIssue (s : Dec) (i : DecIn) : Bool :=
  i.i0.valid && !(i.i0Hazard || (s.psStall || (i.exuDivStall || s.divStallFf)) || s.presyncStall i ||
    ((i0dp i).store && i.lsuStoreStallAny) || ((i0dp i).load && i.lsuLoadStallAny)) && !i.freeze &&
    i0Legal i && (i0dp i).fpu

/-- Decode issues to the unit as the port says. -/
theorem Dec.i0FpuDecodeD_eq (s : Dec) (i : DecIn) : s.i0FpuDecodeD i =
    (s.fpuIssue i && !(i.fpuBusy || s.fpuStallFf) && i.fpuReqReady && !(s.flushFinalE3 || i.flushLowerWb)) := by
  unfold i0FpuDecodeD i0LegalDecodeD i0DecodeD fpuIssue i0BlockD postsyncStall
  cases (i0dp i).fpu
  · simp
  · cases i.fpuReqReady
    · simp
    · grind

/-- The inputs of the port in a cycle of the core; the fetched word and the trigger hits are free. -/
def Cpu.fpuPortIn (s : Cpu) (i : CpuIn) (instD : BitVec 32) (triggerMatch : BitVec 4) : FpuPortIn where
  issue := s.dec.fpuIssue (s.decIn i)
  i0 := ⟨i.dec.i0.instr, instD, i.dec.i0.pc, triggerMatch⟩
  flush := s.dec.flushFinalE3 || s.flushLowerWb
  fpInReady := i.fpu.fpInReady
  fpOutValid := i.fpu.fpOutValid
  fpTag := i.fpu.fpTag

/-- The port has the registers of the core. -/
structure FpuPort.Of (p : FpuPort) (s : Cpu) : Prop where
  fpu : p.fpu = s.fpu
  fpuStallFf : p.fpuStallFf = s.dec.fpuStallFf
  fpuPc : p.fpuPc = s.dec.fpuPc

/-- A cycle of the core is one of the port. -/
theorem FpuPort.Of.next {p : FpuPort} {s : Cpu} (h : p.Of s) (i : CpuIn) (instD : BitVec 32)
    (triggerMatch : BitVec 4) : (p.next (s.fpuPortIn i instD triggerMatch)).Of (s.next i) ∧
      p.i0FpuDecodeD (s.fpuPortIn i instD triggerMatch) = s.dec.i0FpuDecodeD (s.decIn i) ∧
      p.fpuRespValid (s.fpuPortIn i instD triggerMatch) = s.fpuRespValid i := by
  have hdecode : p.i0FpuDecodeD (s.fpuPortIn i instD triggerMatch) = s.dec.i0FpuDecodeD (s.decIn i) := by
    rw [Dec.i0FpuDecodeD_eq]
    unfold FpuPort.i0FpuDecodeD FpuPort.fpuStall
    rw [h.fpu, h.fpuStallFf]
    rfl
  refine ⟨⟨?_, ?_, ?_⟩, hdecode, rfl⟩
  · have hin : p.fpuIn (s.fpuPortIn i instD triggerMatch) = s.fpuIn i := by
      unfold FpuPort.fpuIn
      rw [hdecode]
      rfl
    show p.fpu.next _ = s.fpu.next _
    rw [hin, h.fpu]
  · show p.fpu.busy = s.fpu.busy
    rw [h.fpu]
  · show rvdffs (p.i0FpuDecodeD _) _ p.fpuPc = rvdffs (s.dec.i0FpuDecodeD _) _ s.dec.fpuPc
    rw [hdecode, h.fpuPc]
    rfl

/-- So every run of the core is one of the port. -/
theorem FpuPort.of_run (m : DccmMem) (w : Nat → CpuIn) (instD : Nat → BitVec 32) (triggerMatch : Nat → BitVec 4)
    (n : Nat) : (FpuPort.machine.run
      (fun n => ((Cpu.machine m).run w n).fpuPortIn (w n) (instD n) (triggerMatch n)) n).Of
        ((Cpu.machine m).run w n) := by
  induction n with
  | zero => exact ⟨rfl, rfl, rfl⟩
  | succ n ih => exact (ih.next (w n) (instD n) (triggerMatch n)).1

end SocRV
