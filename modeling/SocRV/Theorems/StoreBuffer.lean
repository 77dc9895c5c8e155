import SocRV.Lsu.StbufFifo

/-!
# The store buffer is a FIFO

For every run in which decode honours the store stall, with any flushes, freezes, drains and misaligned stores: the
valid entries are the slots behind `RdPtr`, they are never overwritten, they leave in the order in which they entered,
and an entry is written to the DCCM when it leaves if and only if its store committed in DC5.
-/

namespace SocRV

namespace LsuMem

/-- The valid entries are the `c` slots from `RdPtr` up to `WrPtr`, and `stbuf_numvld_any` counts them; no valid entry is
overwritten.  What entered is what left and what the buffer holds, in order; the decisions of DC5 are for what entered,
in order, each with the tag of its own store; and what left was written to the DCCM as decided, so an entry of a store
that did not commit was dropped.  The DCCM changes only when an entry is written, and then by the data of that entry. -/
theorem stbuf_fifo {m : DccmMem} {w : Nat → LscIn} (hw : (machine m).Respects HonoursStoreStall w) (n : Nat) :
    let s := (machine m).run w n
    let s' := (machine m).run w (n + 1)
    let entered := (machine m).events entering w n
    let left := (machine m).events leaving w n
    let decided := (machine m).events deciding w n
    (∃ c ≤ 8, s.stbuf.wrPtr = s.stbuf.rdPtr + BitVec.ofNat 3 c ∧ s.stbuf.numvldAny = c ∧
      ∀ x, (s.stbuf.entry x).dataVld = true ↔ (x - s.stbuf.rdPtr).toNat < c) ∧
    (∀ x, s.stbuf.wrEn (s.stbufIn (w n)) x = true → (s.stbuf.entry x).dataVld = false) ∧
    (∃ q, entered.map Prod.snd = left.map Prod.fst ++ q ∧ q.length = s.stbuf.numvldAny ∧
      ∀ x, (s.stbuf.entry x).dataVld = true → q[(x - s.stbuf.rdPtr).toNat]? = some (s.stbuf.entry x).content) ∧
    decided.map Prod.fst <+: entered.map Prod.fst ∧
    left.map Prod.snd <+: decided.map Prod.snd ∧
    (s.stbufCommitAny (w n) = true →
      s.leaving (w n) = [((s.stbuf.entry s.stbuf.rdPtr).content, true)] ∧
      (s.stbuf.entry s.stbuf.rdPtr).dataVld = true ∧
      ∀ bank row, s'.mem.bankMem bank row =
        if dccmBank s.stbuf.addrAny = bank ∧ row = dccmRow s.stbuf.addrAny then s.stbuf.dataAny
        else s.mem.bankMem bank row) ∧
    (s.stbufCommitAny (w n) = false → s'.mem.bankMem = s.mem.bankMem) := by
  intro s s' entered left decided
  obtain ⟨q, ms, h⟩ := tracks_run hw n
  have hvld : ∀ x, (s.stbuf.entry x).dataVld = true ↔ (x - s.stbuf.rdPtr).toNat < q.length := fun x => by
    rw [h.fifo.vld, decide_eq_true_iff]
    rfl
  have hmem : s'.mem = s.mem.next (s.memIn (w n)) := rfl
  refine ⟨⟨q.length, h.fifo.le, h.fifo.wr, h.fifo.numvldAny_eq, hvld⟩, fun x hx => ?_,
    ⟨q, h.contents, h.fifo.numvldAny_eq.symm, fun x hx => h.fifo.content x ((hvld x).mp hx)⟩,
    ⟨_, h.tags.symm⟩, ⟨_, h.marks.symm⟩, fun hc => ?_, fun hc => ?_⟩
  · rw [h.fifo.wrEn_eq h.room_taken, decide_eq_true_iff] at hx
    rw [h.fifo.vld, decide_eq_false_iff_not]
    omega
  · have hrd : s.stbuf.rdPtrEn (s.stbufIn (w n)) = true := Bool.or_eq_true_iff.mpr (Or.inl hc)
    have hfree : (w n).freeze = false := by
      simp only [stbufCommitAny, Bool.and_eq_true, Bool.not_eq_true'] at hc
      exact hc.1.2
    refine ⟨by rw [leaving, hrd, if_pos rfl, hc], ?_, fun bank row => ?_⟩
    · have hlt := h.fifo.taken_lt (i := s.stbufIn (w n)) reqvldAny_of_commitAny hrd
      rw [hvld, BitVec.sub_self]
      exact Nat.lt_of_le_of_lt (Nat.zero_le _) hlt
    · rw [hmem]
      simp [DccmMem.next, DccmMem.bankWrite, memIn, hc, hfree]
  · rw [hmem]
    funext bank row
    simp [DccmMem.next, DccmMem.bankWrite, memIn, hc]

/-- A word store to `0x20002`, which takes two entries and is killed in DC5, and a word store to `0x20008` behind it. -/
def crossingStore : List LscIn :=
  [{ p := { word := true, store := true, valid := true, tag := 1 }, rs1D := 0x20002, rs2D := 0xaabbccdd }, {}, {},
    { p := { word := true, store := true, valid := true, tag := 2 }, rs1D := 0x20008, rs2D := 0x11223344 }, {},
    { flush := { dc5 := true } }]

/-- The two entries of the first store are dropped and that of the second is written. -/
theorem stbuf_fifo_crossingStore :
    (((machine { bankMem := fun _ _ => 0 }).events deciding (crossingStore.getD · {}) 10).map Prod.fst <+:
      ((machine { bankMem := fun _ _ => 0 }).events entering (crossingStore.getD · {}) 10).map Prod.fst) ∧
    (machine { bankMem := fun _ _ => 0 }).events deciding (crossingStore.getD · {}) 10 =
      [(1, false), (1, false), (2, true)] ∧
    ((machine { bankMem := fun _ _ => 0 }).events leaving (crossingStore.getD · {}) 10).map Prod.snd =
      [false, false, true] ∧
    ((machine { bankMem := fun _ _ => 0 }).run (crossingStore.getD · {}) 10).mem.bankMem 2 0 = 0x11223344 :=
  ⟨(stbuf_fifo (Machine.respects_getD (by decide +kernel) fun _ hv => absurd hv (by decide)) 10).2.2.2.1, by decide +kernel,
    by decide +kernel, by decide +kernel⟩

end LsuMem

end SocRV
