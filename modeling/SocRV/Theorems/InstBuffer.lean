import SocRV.Core.DecIbCtl

/-!
# The instruction buffer is a bounded queue

Whatever the aligner presents and decode takes, the ring of two or four slots holds the instructions the aligner has
retired and decode has not taken, in order; decode sees the two oldest, and the buffer accepts exactly what the
aligner retires.
-/

namespace SocRV

namespace DecIb

/-- In every run of the buffer with two or four slots: decode sees the oldest and the second-oldest instruction of
the queue, each with its own pc data, branch packet and compressed instruction; the counter is the length of the
queue, which stays within the slots; the head pointers agree; the aligner retires what the buffer accepts, and
nothing while a flush empties the buffer; and between flushes nothing is lost, duplicated or reordered. -/
theorem instruction_buffer_fifo {d : IbDepth} {β : Type*} {b : β} {w : Nat → DecIbIn β}
    (hw : (machine d b).Respects Driven w) (n : Nat) :
    let s := (machine d b).run w n
    let q := fifo (machine d b) w n
    (∀ e, q[0]? = some e → s.decI0 = e) ∧ (∀ e, q[1]? = some e → s.decI1 = e) ∧
    s.ibCount.toNat = q.length ∧ q.length ≤ d.entries ∧ Heads s ∧
    (s.ifuI0Val (w n) = s.i0Shift (w n) ∧ s.ifuI1Val (w n) = s.i1Shift (w n)) ∧
    (s.flushFinal = true → s.retired (w n) = [] ∧ fifo (machine d b) w (n + 1) = []) ∧
    (∀ m, (∀ j < m, ((machine d b).run w (n + j)).flushFinal = false) →
      q ++ during (machine d b) (fun s i => s.inserted i ++ s.retired i) w n m =
        during (machine d b) decoded w n m ++ fifo (machine d b) w (n + m)) := by
  intro s q
  have h : Refines s q := refines_run hw n
  refine ⟨fun e he => ?_, fun e he => ?_, h.count, h.length_le, h.heads, ⟨ifuI0Val_eq h.flushed, ifuI1Val_eq h.flushed⟩,
    fun hf => ⟨?_, ?_⟩, fun m hm => conservation hw hm⟩
  · obtain ⟨hlt, rfl⟩ := List.getElem?_eq_some_iff.mp he
    exact h.decI0_eq hlt
  · obtain ⟨hlt, rfl⟩ := List.getElem?_eq_some_iff.mp he
    exact h.decI1_eq hlt
  · obtain ⟨h0, h1⟩ := not_valid_of_flushed (i := w n) (h.flushed hf)
    simp [retired, i0Shift, i1Shift, h0, h1]
  · show fifoNext _ _ _ = _
    rw [fifoNext, if_pos hf]

/-- A cycle in which the aligner has nothing and decode takes nothing. -/
def quiet : DecIbIn Unit := { i0 := ⟨0, {}, 0, ()⟩, i1 := ⟨0, {}, 0, ()⟩ }

/-- Two fetch groups of two instructions each; decode takes one instruction while the second pair arrives. -/
def twoPairs : List (DecIbIn Unit) :=
  [{ quiet with f0valIn := 0b1111 },
    { quiet with f0valIn := 0b1111, i0 := ⟨0x13, { pc := 0 }, 0, ()⟩, i1 := ⟨0x93, { pc := 2 }, 0, ()⟩ },
    { quiet with decI0DecodeD := true, i0 := ⟨0x113, { pc := 4 }, 0, ()⟩, i1 := ⟨0x193, { pc := 6 }, 0, ()⟩ }]

theorem instruction_buffer_fifo_twoPairs :
    ((machine .four ()).run (twoPairs.getD · quiet) 3).decI0.instr = 0x93 ∧
    ((machine .four ()).run (twoPairs.getD · quiet) 3).decI1.instr = 0x113 := by
  have hw : (machine .four ()).Respects Driven (twoPairs.getD · quiet) := by
    refine Machine.respects_getD_of_stable (I := fun s => s.f0val = 0 ∧ s.f1val = 0) ?_ ?_ ?_ ?_
    · intro n hn
      have hcases : n = 0 ∨ n = 1 ∨ n = 2 := by
        simp only [twoPairs, List.length_cons, List.length_nil] at hn
        omega
      rcases hcases with rfl | rfl | rfl
      · constructor <;> decide
      · constructor <;> decide
      · constructor <;> decide
    · decide
    · exact fun s _ => ⟨rfl, rfl⟩
    · intro s hs
      obtain ⟨h0, h1⟩ := not_valid_of_flushed (i := quiet) hs
      exact ⟨fun h => absurd h (by simp [h1]), fun h => absurd h (by decide), fun h => absurd h (by decide),
        fun h => absurd h (by decide), fun _ => h0⟩
  obtain ⟨h0, h1, -⟩ := instruction_buffer_fifo hw 3
  have he0 := h0 ⟨0x93, { pc := 2 }, 0, ()⟩ (by decide)
  have he1 := h1 ⟨0x113, { pc := 4 }, 0, ()⟩ (by decide)
  exact ⟨congrArg IbEntry.instr he0, congrArg IbEntry.instr he1⟩

end DecIb

end SocRV
