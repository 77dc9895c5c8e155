import SocRV.Lsu.Dccm

/-!
# The store buffer as a FIFO

A store that crosses a word is misaligned and traps, but it still takes two entries of the buffer before it does.  For
any mix of stores: the entries lie in a window behind `RdPtr` that never overruns the eight slots, those of the stores
in DC4 and DC5 are the last ones and are not marked yet, and an entry is marked for draining only in the cycle in which
its own store commits in DC5.  What leaves the buffer, and whether it is written or dropped, is therefore what entered
it, in the same order, with the commits in the same order.
-/

namespace SocRV

/-- What an entry holds for its store: the word, its byte enables and its data. -/
def StbufEntry.content (e : StbufEntry) : BitVec 16 × BitVec 4 × BitVec 32 := (e.addr, e.byteen, e.data)

namespace Stbuf

variable {s : Stbuf} {i : StbufIn} {c : Nat}

/-- The place of a slot behind `RdPtr`. -/
def dist (s : Stbuf) (x : BitVec 3) : Nat := (x - s.rdPtr).toNat

/-- The entries of the store in DC4. -/
def takenDc4 (s : Stbuf) : Nat := specvld s.reqvldDc4 s.dualWriteDc4

/-- The entries of the store in DC5. -/
def takenDc5 (s : Stbuf) : Nat := specvld s.reqvldDc5 s.dualWriteDc5

/-- The entries of the store that leaves DC3. -/
def takenDc3 (s : Stbuf) (i : StbufIn) : Nat := specvld i.storeReqvldDc3 s.dualDc3

/-- The buffer holds `c` entries behind `RdPtr`, the last of them those of the stores in DC5 and DC4; only the others
are marked, each for draining or for dropping. -/
structure Window (s : Stbuf) (c : Nat) : Prop where
  le : c ≤ 8
  wr : s.wrPtr = s.rdPtr + BitVec.ofNat 3 c
  dc4 : s.wrPtr = s.wrPtrDc4 + BitVec.ofNat 3 s.takenDc4
  dc5 : s.wrPtrDc4 = s.wrPtrDc5 + BitVec.ofNat 3 s.takenDc5
  taken : s.takenDc4 + s.takenDc5 ≤ c
  vld : ∀ x, (s.entry x).dataVld = decide (s.dist x < c)
  unmarked : ∀ x, c ≤ s.dist x + s.takenDc4 + s.takenDc5 →
    (s.entry x).drainVld = false ∧ (s.entry x).flushVld = false
  one : ∀ x, (s.entry x).drainVld = true → (s.entry x).flushVld = false

theorem window_reset : Window {} 0 :=
  ⟨by decide, by decide, by decide, by decide, by decide, fun _ => rfl, fun _ _ => ⟨rfl, rfl⟩, nofun⟩

/-- A store takes at most two entries. -/
theorem specvld_le (a b : Bool) : specvld a b ≤ 2 := by revert a b; decide

theorem dist_lt (s : Stbuf) (x : BitVec 3) : s.dist x < 8 := (x - s.rdPtr).isLt

/-- A slot by its place. -/
theorem eq_iff_dist (s : Stbuf) (x : BitVec 3) (k : Nat) : x = s.rdPtr + BitVec.ofNat 3 k ↔ s.dist x = k % 8 := by
  unfold dist
  constructor
  · rintro rfl
    rw [BitVec.add_comm, BitVec.add_sub_cancel, BitVec.toNat_ofNat]
  · intro h
    rw [← Ring.add_sub_self s.rdPtr x, h]
    congr 1
    apply BitVec.eq_of_toNat_eq
    simp

/-- A slot is at `RdPtr` when its place is the first. -/
theorem eq_rdPtr_iff (x : BitVec 3) : x = s.rdPtr ↔ s.dist x = 0 := by
  simpa using s.eq_iff_dist x 0

namespace Window

variable (h : Window s c)

include h

/-- A slot is at `WrPtr` when its place is behind the entries held. -/
theorem eq_wrPtr_iff (x : BitVec 3) : x = s.wrPtr ↔ s.dist x = c % 8 := by
  rw [h.wr, eq_iff_dist]

/-- The slot after `WrPtr` is one place further, around the ring. -/
theorem eq_wrPtr_succ_iff (x : BitVec 3) : x = s.wrPtr + 1 ↔ s.dist x = (c + 1) % 8 := by
  rw [h.wr, BitVec.add_assoc, show (1 : BitVec 3) = BitVec.ofNat 3 1 from rfl, ← BitVec.ofNat_add, eq_iff_dist]

/-- The first entry of the store in DC5. -/
theorem wrPtrDc5_eq : s.wrPtrDc5 = s.rdPtr + BitVec.ofNat 3 (c - s.takenDc4 - s.takenDc5) := by
  have h4 := h.dc4
  rw [h.dc5, h.wr, BitVec.add_assoc, ← BitVec.ofNat_add] at h4
  have hsum : c = c - s.takenDc4 - s.takenDc5 + (s.takenDc5 + s.takenDc4) := by
    have := h.taken
    omega
  rw [hsum, BitVec.ofNat_add, ← BitVec.add_assoc] at h4
  exact ((BitVec.add_left_inj _).mp h4).symm

/-- The slots a store that leaves DC3 writes are the next free ones. -/
theorem wrEn_eq (hroom : c + s.takenDc3 i ≤ 8) (x : BitVec 3) :
    s.wrEn i x = decide (c ≤ s.dist x ∧ s.dist x < c + s.takenDc3 i) := by
  have hlt := s.dist_lt x
  rw [Bool.eq_iff_iff, decide_eq_true_iff]
  unfold wrEn dualWriteDc3
  simp only [Bool.and_eq_true, Bool.or_eq_true, beq_iff_eq, h.eq_wrPtr_iff, h.eq_wrPtr_succ_iff]
  simp only [takenDc3, specvld] at hroom ⊢
  cases hst : i.storeReqvldDc3 <;> cases hd : s.dualDc3 <;> simp [hst, hd] at hroom ⊢ <;> omega

/-- The slots that are marked are those of the store in DC5. -/
theorem drainOrFlushEn_eq (x : BitVec 3) :
    s.drainOrFlushEn x =
      decide (c - s.takenDc4 - s.takenDc5 ≤ s.dist x ∧ s.dist x < c - s.takenDc4) := by
  have hlt := s.dist_lt x
  have hle := h.le
  have htaken := h.taken
  have hsucc : x = s.wrPtrDc5 + 1 ↔ s.dist x = (c - s.takenDc4 - s.takenDc5 + 1) % 8 := by
    rw [h.wrPtrDc5_eq, BitVec.add_assoc, show (1 : BitVec 3) = BitVec.ofNat 3 1 from rfl, ← BitVec.ofNat_add,
      eq_iff_dist]
  have hfirst : x = s.wrPtrDc5 ↔ s.dist x = (c - s.takenDc4 - s.takenDc5) % 8 := by
    rw [h.wrPtrDc5_eq, eq_iff_dist]
  rw [Bool.eq_iff_iff, decide_eq_true_iff]
  unfold drainOrFlushEn
  simp only [Bool.and_eq_true, Bool.or_eq_true, beq_iff_eq, hfirst, hsucc]
  simp only [takenDc5, specvld] at htaken ⊢
  cases hst : s.reqvldDc5 <;> cases hd : s.dualWriteDc5 <;> simp [hst, hd] at htaken ⊢ <;> omega

/-- Only a marked entry leaves, so the entries of DC4 and DC5 stay. -/
theorem taken_lt (hcommit : i.stbufCommitAny = true → s.reqvldAny = true) (hrd : s.rdPtrEn i = true) :
    s.takenDc4 + s.takenDc5 < c := by
  by_contra hge
  have hzero : s.dist s.rdPtr = 0 := (s.eq_rdPtr_iff _).mp rfl
  obtain ⟨hd, hf⟩ := h.unmarked s.rdPtr (by omega)
  simp only [rdPtrEn, reqvldFlushedAny, hf, Bool.or_false] at hrd
  have := hcommit hrd
  rw [reqvldAny, hd] at this
  cases this

end Window

/-- The entry that is cleared is the one at `RdPtr`, when that pointer moves. -/
theorem reset_eq (x : BitVec 3) : s.reset i x = (s.rdPtrEn i && decide (s.dist x = 0)) := by
  unfold reset
  rw [Bool.eq_iff_iff]
  simp only [Bool.and_eq_true, beq_iff_eq, decide_eq_true_iff, eq_rdPtr_iff]

/-- The places after a cycle. -/
theorem dist_next (x : BitVec 3) :
    (s.next i).dist x = if s.rdPtrEn i then (if s.dist x = 0 then 7 else s.dist x - 1) else s.dist x := by
  unfold dist
  have hrd : (s.next i).rdPtr = if s.rdPtrEn i then s.rdPtr + 1 else s.rdPtr := rfl
  rw [hrd]
  cases s.rdPtrEn i with
  | false => rfl
  | true =>
    simp only [if_true]
    generalize s.rdPtr = r
    revert x r
    decide

/-- The entries after a cycle: one leaves if `RdPtr` moves, and those of the store that leaves DC3 come. -/
def nextCount (s : Stbuf) (i : StbufIn) (c : Nat) : Nat := c - (s.rdPtrEn i).toNat + s.takenDc3 i

/-- The entries of DC4 are those the store leaving DC3 has taken. -/
theorem takenDc4_next : (s.next i).takenDc4 = s.takenDc3 i := by
  have hand : ∀ a b : Bool, specvld a (b && a) = specvld a b := by decide
  exact hand _ _

/-- The entries of DC5 are those that DC4 had. -/
theorem takenDc5_next : (s.next i).takenDc5 = s.takenDc4 := rfl

/-- `WrPtr` moves by the entries taken. -/
theorem wrPtr_next : (s.next i).wrPtr = s.wrPtr + BitVec.ofNat 3 (s.takenDc3 i) := by
  simp only [next, dualWriteDc3, takenDc3, specvld]
  rcases Bool.eq_false_or_eq_true i.storeReqvldDc3 with hst | hst <;>
    rcases Bool.eq_false_or_eq_true s.dualDc3 with hd | hd <;> simp [hst, hd]

/-- `RdPtr` moves by one when it is enabled. -/
theorem rdPtr_next : (s.next i).rdPtr = s.rdPtr + BitVec.ofNat 3 (s.rdPtrEn i).toNat := by
  simp only [next]
  cases s.rdPtrEn i <;> simp

/-- The mark for draining after a cycle. -/
theorem drainVld_next (x : BitVec 3) : ((s.next i).entry x).drainVld =
    (!s.reset i x && rvdffs (s.drainOrFlushEn x && i.commitDc5) true (s.entry x).drainVld) := rfl

/-- The mark for dropping after a cycle. -/
theorem flushVld_next (x : BitVec 3) : ((s.next i).entry x).flushVld =
    (!s.reset i x && rvdffs (s.drainOrFlushEn x && !i.commitDc5) true (s.entry x).flushVld) := rfl

/-- With the entry that leaves, those of DC4 and DC5 are still in the window. -/
theorem Window.pop_le (h : Window s c) (hcommit : i.stbufCommitAny = true → s.reqvldAny = true) :
    (s.rdPtrEn i).toNat + s.takenDc4 + s.takenDc5 ≤ c := by
  have htaken := h.taken
  cases hrd : s.rdPtrEn i with
  | false =>
    simp only [Bool.toNat_false]
    omega
  | true =>
    have := h.taken_lt hcommit hrd
    simp only [Bool.toNat_true]
    omega

/-- A slot that is not cleared moves up by the entry that leaves. -/
theorem dist_next_of_not_reset {x : BitVec 3} (hr : s.reset i x = false) :
    (s.next i).dist x + (s.rdPtrEn i).toNat = s.dist x := by
  rw [reset_eq] at hr
  rw [dist_next]
  cases hrd : s.rdPtrEn i with
  | false => simp
  | true =>
    have hpos : s.dist x ≠ 0 := by simpa [hrd] using hr
    simp only [if_true, if_neg hpos, Bool.toNat_true]
    omega

/-- The slot that is cleared becomes the last one. -/
theorem dist_next_of_reset {x : BitVec 3} (hr : s.reset i x = true) :
    (s.next i).dist x = 7 ∧ (s.rdPtrEn i).toNat = 1 := by
  rw [reset_eq, Bool.and_eq_true, decide_eq_true_iff] at hr
  rw [dist_next, hr.1, if_pos rfl, if_pos hr.2]
  exact ⟨rfl, rfl⟩

/-- A cycle keeps the window, if there is room for what enters and a drain finds an entry. -/
theorem Window.next (h : Window s c) (hroom : c + s.takenDc3 i ≤ 8)
    (hcommit : i.stbufCommitAny = true → s.reqvldAny = true) : Window (s.next i) (s.nextCount i c) := by
  have htaken := h.taken
  have hpop := h.pop_le hcommit
  have hle := h.le
  unfold nextCount
  refine ⟨by omega, ?_, ?_, h.dc4, ?_, fun x => ?_, fun x hx => ?_, fun x hx => ?_⟩
  · rw [wrPtr_next, rdPtr_next, h.wr, BitVec.add_assoc, BitVec.add_assoc, ← BitVec.ofNat_add, ← BitVec.ofNat_add]
    congr 2
    omega
  · rw [wrPtr_next, takenDc4_next]
    rfl
  · rw [takenDc4_next, takenDc5_next]
    omega
  · have hvld : ((s.next i).entry x).dataVld = (!s.reset i x && rvdffs (s.wrEn i x) true (s.entry x).dataVld) := rfl
    rw [hvld, h.vld, h.wrEn_eq hroom]
    cases hr : s.reset i x with
    | true =>
      obtain ⟨h7, h1⟩ := dist_next_of_reset hr
      rw [h7, h1]
      rw [Bool.not_true, Bool.false_and, eq_comm, decide_eq_false_iff_not]
      omega
    | false =>
      have hplace := dist_next_of_not_reset hr
      rw [Bool.not_false, Bool.true_and, Bool.eq_iff_iff, rvdffs]
      by_cases hw : c ≤ s.dist x ∧ s.dist x < c + s.takenDc3 i
      · rw [if_pos (by rwa [decide_eq_true_iff]), decide_eq_true_iff]
        simp only [true_iff]
        omega
      · rw [if_neg (by rwa [decide_eq_true_iff]), decide_eq_true_iff, decide_eq_true_iff]
        omega
  · rw [takenDc4_next, takenDc5_next] at hx
    rw [drainVld_next, flushVld_next]
    cases hr : s.reset i x with
    | true => exact ⟨rfl, rfl⟩
    | false =>
      have hplace := dist_next_of_not_reset hr
      have hold := h.unmarked x (by omega)
      have hmark : s.drainOrFlushEn x = false := by
        rw [h.drainOrFlushEn_eq, decide_eq_false_iff_not]
        omega
      simp [hmark, hold]
  · rw [drainVld_next, Bool.and_eq_true, Bool.not_eq_true'] at hx
    rw [flushVld_next, hx.1, Bool.not_false, Bool.true_and]
    cases hmark : s.drainOrFlushEn x with
    | false =>
      rw [hmark] at hx
      exact h.one x hx.2
    | true =>
      -- the entry of DC5 has no mark yet, so it gets one of the two
      rw [h.drainOrFlushEn_eq, decide_eq_true_iff] at hmark
      have hold := h.unmarked x (by omega)
      cases hc : i.commitDc5 with
      | true => simp [hold]
      | false => simp [hc, hold] at hx

/-- The number of valid entries is the length of the window. -/
theorem Window.numvldAny_eq (h : Window s c) : s.numvldAny = c := by
  have hcount : ∀ r : BitVec 3, ∀ c ≤ 8,
      (List.range 8).countP (fun n => decide ((BitVec.ofNat 3 n - r).toNat < c)) = c := by decide
  unfold numvldAny
  simp only [h.vld]
  exact hcount s.rdPtr c h.le

/-! ## Contents and marks in order -/

/-- What the store that leaves DC3 enters. -/
def allocated (s : Stbuf) (i : StbufIn) : List (BitVec 16 × BitVec 4 × BitVec 32) :=
  if i.storeReqvldDc3 then
    (i.addrDc3, i.pktDc3.byteenLo i.addrDc3, i.datafnLoDc3) ::
      if s.dualDc3 then [(i.endAddrDc3, i.pktDc3.byteenHi i.addrDc3, i.datafnHiDc3)] else []
  else []

theorem allocated_length : (s.allocated i).length = s.takenDc3 i := by
  unfold allocated takenDc3 specvld
  split_ifs <;> rfl

/-- The buffer holds the contents `q` in the order of the slots, and of them the first are marked as `ms` says. -/
structure Fifo (s : Stbuf) (q : List (BitVec 16 × BitVec 4 × BitVec 32)) (ms : List Bool) : Prop extends
    Window s q.length where
  content : ∀ x, s.dist x < q.length → q[s.dist x]? = some (s.entry x).content
  length : ms.length + s.takenDc4 + s.takenDc5 = q.length
  marked : ∀ x, s.dist x < ms.length →
    ms[s.dist x]? = some (s.entry x).drainVld ∧ (s.entry x).flushVld = !(s.entry x).drainVld

theorem fifo_reset : Fifo {} [] [] := { window_reset with content := nofun, length := rfl, marked := nofun }

section Step

variable {q : List (BitVec 16 × BitVec 4 × BitVec 32)} {ms : List Bool}

/-- An entry that is not written keeps its content. -/
theorem content_next_of_not_wrEn {x : BitVec 3} (hw : s.wrEn i x = false) :
    ((s.next i).entry x).content = (s.entry x).content := by
  simp [next, nextEntry, StbufEntry.content, hw]

/-- The content of a slot that is written. -/
theorem content_next_of_wrEn (h : Window s c) (hroom : c + s.takenDc3 i ≤ 8) {x : BitVec 3}
    (hw : s.wrEn i x = true) : (s.allocated i)[s.dist x - c]? = some ((s.next i).entry x).content := by
  have hplace := hw
  rw [h.wrEn_eq hroom, decide_eq_true_iff] at hplace
  have hst : i.storeReqvldDc3 = true := by
    simp only [wrEn, Bool.and_eq_true] at hw
    exact hw.1
  have hsel : s.selLo i x = decide (s.dist x = c) := by
    rw [Bool.eq_iff_iff, decide_eq_true_iff]
    simp only [selLo, hst, Bool.or_true, Bool.true_and, beq_iff_eq, h.eq_wrPtr_iff]
    omega
  simp only [next, nextEntry, StbufEntry.content, hw, rvdffs_true, hsel, decide_eq_true_eq, allocated, hst, if_true]
  by_cases hfirst : s.dist x = c
  · simp [hfirst]
  · have hd : s.dualDc3 = true := by
      by_contra hd
      simp only [takenDc3, specvld, hst, hd, if_true] at hplace
      simp at hplace
      omega
    have hsecond : s.dist x - c = 1 := by
      have := specvld_le i.storeReqvldDc3 s.dualDc3
      unfold takenDc3 at hplace
      omega
    simp [hfirst, hd, hsecond]

/-- The mark of the oldest entry says whether it is written when it leaves. -/
theorem Fifo.head (h : Fifo s q ms) (hcommit : i.stbufCommitAny = true → s.reqvldAny = true)
    (hrd : s.rdPtrEn i = true) :
    q.head? = some (s.entry s.rdPtr).content ∧ ms.head? = some i.stbufCommitAny := by
  have hzero : s.dist s.rdPtr = 0 := (s.eq_rdPtr_iff _).mp rfl
  have hpop := h.taken_lt hcommit hrd
  have hlen := h.length
  have hq := h.content s.rdPtr (by omega)
  obtain ⟨hm, hf⟩ := h.marked s.rdPtr (by omega)
  rw [hzero, ← List.head?_eq_getElem?] at hq hm
  refine ⟨hq, hm.trans ?_⟩
  congr 1
  cases hd : (s.entry s.rdPtr).drainVld with
  | true =>
    simp only [rdPtrEn, reqvldFlushedAny, hf, hd, Bool.not_true, Bool.or_false] at hrd
    exact hrd.symm
  | false =>
    by_contra hc
    have hany := hcommit (by simpa using hc)
    rw [reqvldAny, hd] at hany
    cases hany

/-- After a cycle the buffer holds what it held, without the entry that leaves and with those that enter; the entries
of the store in DC5 get their marks. -/
theorem Fifo.next (h : Fifo s q ms) (hroom : q.length + s.takenDc3 i ≤ 8)
    (hcommit : i.stbufCommitAny = true → s.reqvldAny = true) :
    Fifo (s.next i) ((q ++ s.allocated i).drop (s.rdPtrEn i).toNat)
      ((ms ++ List.replicate s.takenDc5 i.commitDc5).drop (s.rdPtrEn i).toNat) := by
  have hpop := h.pop_le hcommit
  have hlen := h.length
  have hqlen : ((q ++ s.allocated i).drop (s.rdPtrEn i).toNat).length = s.nextCount i q.length := by
    rw [List.length_drop, List.length_append, allocated_length, nextCount]
    omega
  have hmlen : ((ms ++ List.replicate s.takenDc5 i.commitDc5).drop (s.rdPtrEn i).toNat).length =
      ms.length + s.takenDc5 - (s.rdPtrEn i).toNat := by
    rw [List.length_drop, List.length_append, List.length_replicate]
  have hwindow := h.toWindow.next hroom hcommit
  have hle := hwindow.le
  rw [← hqlen] at hwindow
  unfold nextCount at hqlen hle
  refine { hwindow with content := fun x hx => ?_, length := ?_, marked := fun x hx => ?_ }
  · cases hr : s.reset i x with
    | true =>
      obtain ⟨h7, h1⟩ := dist_next_of_reset hr
      omega
    | false =>
      have hplace := dist_next_of_not_reset hr
      rw [List.getElem?_drop, Nat.add_comm, hplace]
      cases hw : s.wrEn i x with
      | false =>
        rw [content_next_of_not_wrEn hw]
        rw [h.wrEn_eq hroom, decide_eq_false_iff_not] at hw
        rw [List.getElem?_append_left (by omega)]
        exact h.content x (by omega)
      | true =>
        have hnew := content_next_of_wrEn h.toWindow hroom hw
        rw [h.wrEn_eq hroom, decide_eq_true_iff] at hw
        rw [List.getElem?_append_right hw.1]
        exact hnew
  · rw [takenDc4_next, takenDc5_next, hmlen, hqlen]
    omega
  · rw [hmlen] at hx
    cases hr : s.reset i x with
    | true =>
      obtain ⟨h7, h1⟩ := dist_next_of_reset hr
      omega
    | false =>
      have hplace := dist_next_of_not_reset hr
      rw [List.getElem?_drop, Nat.add_comm, hplace, drainVld_next, flushVld_next, hr, Bool.not_false, Bool.true_and,
        Bool.true_and]
      cases hmark : s.drainOrFlushEn x with
      | false =>
        rw [h.drainOrFlushEn_eq, decide_eq_false_iff_not] at hmark
        rw [List.getElem?_append_left (by omega)]
        exact h.marked x (by omega)
      | true =>
        rw [h.drainOrFlushEn_eq, decide_eq_true_iff] at hmark
        obtain ⟨hd, hf⟩ := h.unmarked x (by omega)
        rw [List.getElem?_append_right (by omega), List.getElem?_replicate_of_lt (by omega), hd, hf]
        cases i.commitDc5 <;> exact ⟨rfl, rfl⟩

end Step

end Stbuf

/-! ## Room -/

namespace LsuMem

variable {s : LsuMem} {i : LscIn} {c : Nat}

/-- Decode issues a store only while `lsu_stbuf_full_any` is low. -/
def HonoursStoreStall (s : LsuMem) (i : LscIn) : Prop :=
  i.p.valid = true → i.p.store = true → s.stbufFullAny i = false

instance : Decidable (s.HonoursStoreStall i) :=
  inferInstanceAs (Decidable (i.p.valid = true → i.p.store = true → s.stbufFullAny i = false))

/-- The entries a store in DC1 may need: its address may still change while it waits there. -/
def roomDc1 (s : LsuMem) : Nat := if s.lsc.pktDc1.valid && s.lsc.pktDc1.store then 2 else 0

/-- The entries a store in DC2 needs. -/
def roomDc2 (s : LsuMem) : Nat :=
  Stbuf.specvld (s.lsc.pktDc2.valid && s.lsc.pktDc2.store && s.lsc.addrInDccmDc2) s.stbuf.dualDc2

/-- The entries a store in DC3 needs. -/
def roomDc3 (s : LsuMem) : Nat :=
  Stbuf.specvld (s.lsc.pktDc3.valid && s.lsc.pktDc3.store && s.lsc.addrInDccmDc3) s.stbuf.dualDc3

/-- The stores on their way still fit behind the `c` entries of the buffer. -/
def Room (s : LsuMem) (c : Nat) : Prop := c + s.roomDc1 + s.roomDc2 + s.roomDc3 ≤ 8

theorem specvld_mono {a a' b : Bool} (h : a = true → a' = true) : Stbuf.specvld a b ≤ Stbuf.specvld a' b := by
  cases a with
  | false => exact Nat.zero_le _
  | true =>
    exact Nat.le_of_eq (by rw [h rfl])

/-- The store that enters the buffer had its room in DC3. -/
theorem takenDc3_le : s.stbuf.takenDc3 (s.stbufIn i) ≤ if i.freeze then 0 else s.roomDc3 := by
  have hst : (s.stbufIn i).storeReqvldDc3 = s.storeReqvldDc3 i := rfl
  unfold Stbuf.takenDc3
  rw [hst]
  cases hf : i.freeze with
  | true => simp [storeReqvldDc3, hf, Stbuf.specvld]
  | false =>
    refine specvld_mono fun h => ?_
    simp only [storeReqvldDc3, Bool.and_eq_true] at h ⊢
    exact h.1.1

/-- A store in DC1 may need two entries, or what it needed in a freeze. -/
theorem roomDc1_next (hg : s.lsc.Gated) :
    (s.next i).roomDc1 ≤ if i.freeze then s.roomDc1 else if i.p.valid && i.p.store then 2 else 0 := by
  unfold roomDc1
  cases hv : (s.next i).lsc.pktDc1.valid with
  | false => exact Nat.zero_le _
  | true =>
    rcases Lsc.of_next_validDc1 hg hv with ⟨hf, hold, heq⟩ | ⟨hf, hnew, -, heq⟩
    · have hf' : i.freeze = true := hf
      have heq' : (s.next i).lsc.pktDc1 = s.lsc.pktDc1 := heq
      exact Nat.le_of_eq (by rw [hf', if_pos rfl, heq', hold])
    · have hf' : i.freeze = false := hf
      have hnew' : i.p.valid = true := hnew
      have heq' : (s.next i).lsc.pktDc1 = i.p := heq
      rw [hf', heq', hnew']
      exact Nat.le_refl _

theorem roomDc2_next (hg : s.lsc.Gated) :
    (s.next i).roomDc2 ≤ if i.freeze then s.roomDc2 else
      Stbuf.specvld (s.lsc.pktDc1.valid && s.lsc.pktDc1.store) (Stbuf.dualDc1 (s.stbufIn i)) := by
  unfold roomDc2
  cases hv : (s.next i).lsc.pktDc2.valid with
  | false => exact Nat.zero_le _
  | true =>
    rcases Lsc.of_next_validDc2 hg hv with ⟨hf, hold, heq, -, hin, -⟩ | ⟨hf, hnew, -, heq, -⟩
    · have hf' : i.freeze = true := hf
      have heq' : (s.next i).lsc.pktDc2 = s.lsc.pktDc2 := heq
      have hin' : (s.next i).lsc.addrInDccmDc2 = s.lsc.addrInDccmDc2 := hin
      have hdual : (s.next i).stbuf.dualDc2 = s.stbuf.dualDc2 := by
        simp [next, Stbuf.next, stbufIn, Lsc.freezeC1Dc2Clken, Lsc.freezeC1Clken, hf']
      exact Nat.le_of_eq (by rw [hf', if_pos rfl, heq', hold, hin', hdual])
    · have hf' : i.freeze = false := hf
      have heq' : (s.next i).lsc.pktDc2 = s.lsc.pktDc1 := heq
      have hdual : (s.next i).stbuf.dualDc2 = Stbuf.dualDc1 (s.stbufIn i) := by
        simp [next, Stbuf.next, stbufIn, Lsc.freezeC1Dc2Clken, Lsc.freezeC1Clken, hf', hnew]
      rw [hf', heq', hnew, hdual]
      exact specvld_mono fun h => (Bool.and_eq_true_iff.mp h).1

theorem roomDc3_next (hg : s.lsc.Gated) :
    (s.next i).roomDc3 ≤ if i.freeze then s.roomDc3 else s.roomDc2 := by
  unfold roomDc3
  cases hv : (s.next i).lsc.pktDc3.valid with
  | false => exact Nat.zero_le _
  | true =>
    rcases Lsc.of_next_validDc3 hg hv with ⟨hf, hold, heq, -, hin, -⟩ | ⟨hf, hnew, -, heq, -, hin, -⟩
    · have hf' : i.freeze = true := hf
      have heq' : (s.next i).lsc.pktDc3 = s.lsc.pktDc3 := heq
      have hin' : (s.next i).lsc.addrInDccmDc3 = s.lsc.addrInDccmDc3 := hin
      have hdual : (s.next i).stbuf.dualDc3 = s.stbuf.dualDc3 := by
        simp [next, Stbuf.next, stbufIn, Lsc.freezeC1Dc3Clken, Lsc.freezeC1Clken, hf']
      exact Nat.le_of_eq (by rw [hf', if_pos rfl, heq', hold, hin', hdual])
    · have hf' : i.freeze = false := hf
      have heq' : (s.next i).lsc.pktDc3 = s.lsc.pktDc2 := heq
      have hin' : (s.next i).lsc.addrInDccmDc3 = s.lsc.addrInDccmDc2 := hin
      have hdual : (s.next i).stbuf.dualDc3 = s.stbuf.dualDc2 := by
        simp [next, Stbuf.next, stbufIn, Lsc.freezeC1Dc3Clken, Lsc.freezeC1Clken, hf', hnew]
      rw [hf', heq', hin', hdual, roomDc2, hnew]
      exact Nat.le_refl _

/-- A store that is issued finds room for two entries behind all that are on their way. -/
theorem room_of_issue (hnum : s.stbuf.numvldAny = c) (hc : c ≤ 8) (hfull : s.stbufFullAny i = false) :
    c + Stbuf.specvld (s.lsc.pktDc1.valid && s.lsc.pktDc1.store) (Stbuf.dualDc1 (s.stbufIn i)) + s.roomDc2 +
      s.roomDc3 ≤ 6 := by
  unfold stbufFullAny Stbuf.fullAny Stbuf.specvldAny at hfull
  rw [hnum, decide_eq_false_iff_not] at hfull
  have h1 : Stbuf.specvld (s.lsc.pktDc1.valid && s.lsc.pktDc1.store) (Stbuf.dualDc1 (s.stbufIn i)) ≤
      Stbuf.specvld (s.stbufIn i).isldstDc1 (Stbuf.dualDc1 (s.stbufIn i)) := by
    refine specvld_mono fun h => ?_
    simp only [stbufIn, Bool.and_eq_true, Bool.or_eq_true] at h ⊢
    exact ⟨h.1, Or.inr h.2⟩
  have h2 : s.roomDc2 ≤ Stbuf.specvld (s.stbufIn i).dccmLdstDc2 s.stbuf.dualDc2 := by
    refine specvld_mono fun h => ?_
    simp only [stbufIn, Bool.and_eq_true, Bool.or_eq_true] at h ⊢
    exact ⟨⟨h.1.1, Or.inr h.1.2⟩, h.2⟩
  have h3 : s.roomDc3 ≤ Stbuf.specvld (s.stbufIn i).dccmLdstDc3 s.stbuf.dualDc3 := by
    refine specvld_mono fun h => ?_
    simp only [stbufIn, Bool.and_eq_true, Bool.or_eq_true] at h ⊢
    exact ⟨⟨h.1.1, Or.inr h.1.2⟩, h.2⟩
  -- the sum has four bits and stays below sixteen
  have hle1 := Stbuf.specvld_le (s.stbufIn i).isldstDc1 (Stbuf.dualDc1 (s.stbufIn i))
  have hle2 := Stbuf.specvld_le (s.stbufIn i).dccmLdstDc2 s.stbuf.dualDc2
  have hle3 := Stbuf.specvld_le (s.stbufIn i).dccmLdstDc3 s.stbuf.dualDc3
  omega

/-- A cycle keeps room for the stores on their way, as decode honours the stall. -/
theorem Room.next (h : Room s c) (hg : s.lsc.Gated) (hi : s.HonoursStoreStall i) (hnum : s.stbuf.numvldAny = c)
    (hc : c ≤ 8) : Room (s.next i) (s.stbuf.nextCount (s.stbufIn i) c) := by
  have h0 := takenDc3_le (s := s) (i := i)
  have h1 := roomDc1_next (i := i) hg
  have h2 := roomDc2_next (i := i) hg
  have h3 := roomDc3_next (i := i) hg
  have hspec : Stbuf.specvld (s.lsc.pktDc1.valid && s.lsc.pktDc1.store) (Stbuf.dualDc1 (s.stbufIn i)) ≤ s.roomDc1 := by
    unfold Stbuf.specvld roomDc1
    split_ifs <;> omega
  unfold Room Stbuf.nextCount at *
  cases hf : i.freeze with
  | true =>
    simp only [hf, if_true] at h0 h1 h2 h3
    omega
  | false =>
    simp only [hf, Bool.false_eq_true, if_false] at h0 h1 h2 h3
    by_cases hp : (i.p.valid && i.p.store) = true
    · rw [if_pos hp] at h1
      rw [Bool.and_eq_true] at hp
      have := room_of_issue hnum hc (hi hp.1 hp.2)
      omega
    · rw [if_neg hp] at h1
      omega

/-! ## Whole runs -/

/-- What enters the buffer in a cycle, with the tag of its store. -/
def entering (s : LsuMem) (i : LscIn) : List (Nat × BitVec 16 × BitVec 4 × BitVec 32) :=
  (s.stbuf.allocated (s.stbufIn i)).map (s.lsc.pktDc3.tag, ·)

/-- What leaves the buffer in a cycle, and whether it is written to the DCCM. -/
def leaving (s : LsuMem) (i : LscIn) : List ((BitVec 16 × BitVec 4 × BitVec 32) × Bool) :=
  if s.stbuf.rdPtrEn (s.stbufIn i) then [((s.stbuf.entry s.stbuf.rdPtr).content, s.stbufCommitAny i)] else []

/-- The entries of the store in DC5, with its tag and whether it commits. -/
def deciding (s : LsuMem) (i : LscIn) : List (Nat × Bool) :=
  List.replicate s.stbuf.takenDc5 (s.lsc.pktDc5.tag, s.lsc.commitDc5 i)

/-- The tags of the stores in DC5 and DC4, once for each entry. -/
def undecided (s : LsuMem) : List Nat :=
  List.replicate s.stbuf.takenDc5 s.lsc.pktDc5.tag ++ List.replicate s.stbuf.takenDc4 s.lsc.pktDc4.tag

/-- The buffer holds what entered and has not left, the decisions are those for what entered, in the same order, and
what left was written as decided. -/
structure Tracks (entered : List (Nat × BitVec 16 × BitVec 4 × BitVec 32))
    (left : List ((BitVec 16 × BitVec 4 × BitVec 32) × Bool)) (decided : List (Nat × Bool)) (s : LsuMem)
    (q : List (BitVec 16 × BitVec 4 × BitVec 32)) (ms : List Bool) : Prop where
  gated : s.lsc.Gated
  fifo : s.stbuf.Fifo q ms
  room : s.Room q.length
  contents : entered.map Prod.snd = left.map Prod.fst ++ q
  marks : decided.map Prod.snd = left.map Prod.snd ++ ms
  tags : entered.map Prod.fst = decided.map Prod.fst ++ s.undecided

theorem tracks_reset (m : DccmMem) : Tracks [] [] [] { mem := m } [] [] where
  gated := Lsc.gated_reset
  fifo := Stbuf.fifo_reset
  room := Nat.zero_le 8
  contents := rfl
  marks := rfl
  tags := rfl

/-- The DCCM is written only for a marked entry. -/
theorem reqvldAny_of_commitAny (h : (s.stbufIn i).stbufCommitAny = true) : s.stbuf.reqvldAny = true := by
  have hc : s.stbufCommitAny i = true := h
  simp only [stbufCommitAny, Bool.and_eq_true] at hc
  exact hc.1.1

section Step

variable {entered : List (Nat × BitVec 16 × BitVec 4 × BitVec 32)}
  {left : List ((BitVec 16 × BitVec 4 × BitVec 32) × Bool)} {decided : List (Nat × Bool)}
  {q : List (BitVec 16 × BitVec 4 × BitVec 32)} {ms : List Bool}

/-- The stores on their way leave room for the one that enters. -/
theorem Tracks.room_taken (h : Tracks entered left decided s q ms) :
    q.length + s.stbuf.takenDc3 (s.stbufIn i) ≤ 8 := by
  have hroom := h.room
  have htaken := takenDc3_le (s := s) (i := i)
  unfold Room at hroom
  split_ifs at htaken <;> omega

/-- A cycle keeps the queue, the decisions and what has left in one order. -/
theorem Tracks.next (h : Tracks entered left decided s q ms) (hi : s.HonoursStoreStall i) :
    Tracks (entered ++ s.entering i) (left ++ s.leaving i) (decided ++ s.deciding i) (s.next i)
      ((q ++ s.stbuf.allocated (s.stbufIn i)).drop (s.stbuf.rdPtrEn (s.stbufIn i)).toNat)
      ((ms ++ List.replicate s.stbuf.takenDc5 (s.lsc.commitDc5 i)).drop (s.stbuf.rdPtrEn (s.stbufIn i)).toNat) := by
  have hfifo : (s.next i).stbuf.Fifo _ _ := h.fifo.next h.room_taken reqvldAny_of_commitAny
  have hroom := h.room.next h.gated hi h.fifo.numvldAny_eq h.fifo.le
  refine ⟨h.gated.next _, hfifo, ?_, ?_, ?_, ?_⟩
  · have hpop := h.fifo.pop_le (i := s.stbufIn i) reqvldAny_of_commitAny
    have hlen : ((q ++ s.stbuf.allocated (s.stbufIn i)).drop (s.stbuf.rdPtrEn (s.stbufIn i)).toNat).length =
        s.stbuf.nextCount (s.stbufIn i) q.length := by
      rw [List.length_drop, List.length_append, Stbuf.allocated_length, Stbuf.nextCount]
      omega
    rwa [hlen]
  · have hentering : (s.entering i).map Prod.snd = s.stbuf.allocated (s.stbufIn i) := by
      simp [entering, Function.comp_def]
    rw [List.map_append, hentering, h.contents, List.map_append, List.append_assoc, List.append_assoc]
    congr 1
    unfold leaving
    cases hrd : s.stbuf.rdPtrEn (s.stbufIn i) with
    | false => simp
    | true =>
      obtain ⟨hq, -⟩ := h.fifo.head reqvldAny_of_commitAny hrd
      obtain ⟨e, q', rfl⟩ : ∃ e q', q = e :: q' := List.exists_cons_of_ne_nil (fun hnil => by simp [hnil] at hq)
      simp only [List.head?_cons, Option.some.injEq] at hq
      simp [hq]
  · have hdeciding : (s.deciding i).map Prod.snd = List.replicate s.stbuf.takenDc5 (s.lsc.commitDc5 i) := by
      simp [deciding]
    rw [List.map_append, hdeciding, h.marks, List.map_append, List.append_assoc, List.append_assoc]
    congr 1
    unfold leaving
    cases hrd : s.stbuf.rdPtrEn (s.stbufIn i) with
    | false => simp
    | true =>
      obtain ⟨-, hm⟩ := h.fifo.head reqvldAny_of_commitAny hrd
      obtain ⟨b, ms', rfl⟩ : ∃ b ms', ms = b :: ms' := List.exists_cons_of_ne_nil (fun hnil => by simp [hnil] at hm)
      simp only [List.head?_cons, Option.some.injEq] at hm
      have hc : (s.stbufIn i).stbufCommitAny = s.stbufCommitAny i := rfl
      simp [hm, hc]
  · have hentering : (s.entering i).map Prod.fst =
        List.replicate (s.stbuf.takenDc3 (s.stbufIn i)) s.lsc.pktDc3.tag := by
      simp [entering, Function.comp_def, Stbuf.allocated_length]
    have hdeciding : (s.deciding i).map Prod.fst = List.replicate s.stbuf.takenDc5 s.lsc.pktDc5.tag := by
      simp [deciding]
    have hundecided : (s.next i).undecided = List.replicate s.stbuf.takenDc4 s.lsc.pktDc4.tag ++
        List.replicate (s.stbuf.takenDc3 (s.stbufIn i)) s.lsc.pktDc3.tag := by
      have h4 : (s.next i).stbuf.takenDc4 = s.stbuf.takenDc3 (s.stbufIn i) := Stbuf.takenDc4_next
      unfold undecided
      rw [h4]
      rfl
    rw [List.map_append, List.map_append, hentering, hdeciding, hundecided, h.tags, undecided]
    simp

end Step

/-- In every run in which decode honours the stall the buffer tracks its stores. -/
theorem tracks_run {m : DccmMem} {w : Nat → LscIn} (hw : (machine m).Respects HonoursStoreStall w) (n : Nat) :
    ∃ q ms, Tracks ((machine m).events entering w n) ((machine m).events leaving w n)
      ((machine m).events deciding w n) ((machine m).run w n) q ms := by
  induction n with
  | zero => exact ⟨[], [], tracks_reset m⟩
  | succ n ih =>
    obtain ⟨q, ms, h⟩ := ih
    exact ⟨_, _, h.next (hw n)⟩

end LsuMem

end SocRV
