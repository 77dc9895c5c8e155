import Mathlib.Algebra.Group.Nat.Defs
import Mathlib.Data.List.Basic
import Mathlib.Tactic.Common

/-!
# Two-wire buses

A clock and a data line, each low when anyone pulls it low.  The master makes the clock pulses: it lets the clock line go
and pulls it low again.  A byte goes over the bus in eight pulses, the most significant bit first.
-/

namespace SocRV

/-- Which lines the master pulls low. -/
structure Drives where
  sclLow : Bool := false
  sdaLow : Bool := false
  deriving DecidableEq, Repr

/-- The levels of the lines. -/
structure Lines where
  scl : Bool
  sda : Bool
  deriving DecidableEq, Repr

/-- A clock pulse at its end: whether the master lets the data line be, and the level of that line. -/
structure Pulse where
  released : Bool
  level : Bool
  deriving DecidableEq, Repr

/-- The pulse that ends with a cycle: `d` and `d'` are the drives in it and in the next one. -/
def pulse (d d' : Drives) (l : Lines) : List Pulse := if !d.sclLow && d'.sclLow then [⟨!d.sdaLow, l.sda⟩] else []

section Pulse

variable {d d' : Drives} {l : Lines}

/-- No pulse ends while the master holds the lines as they are. -/
theorem pulse_same (h : d' = d) : pulse d d' l = [] := by
  unfold pulse
  rw [h, Bool.not_and_self, if_neg Bool.false_ne_true]

/-- No pulse ends while the clock is pulled low, or is let go next. -/
theorem pulse_low (h : d.sclLow = true) : pulse d d' l = [] := by
  unfold pulse
  rw [h]
  rfl

/-- A pulse ends. -/
theorem pulse_fall (h : d.sclLow = false) (h' : d'.sclLow = true) : pulse d d' l = [⟨!d.sdaLow, l.sda⟩] := by
  unfold pulse
  rw [h, h']
  rfl

end Pulse

/-! ## Bytes -/

/-- Bit `k` of a byte in the order of the bus. -/
def busBit (b : BitVec 8) (k : Nat) : Bool := b.getLsbD (7 - k)

/-- The bits of a byte in the order of the bus. -/
def byteBits (b : BitVec 8) : List Bool := (List.range 8).map (busBit b)

@[simp] theorem byteBits_length (b : BitVec 8) : (byteBits b).length = 8 := by
  unfold byteBits
  rw [List.length_map, List.length_range]

/-- Bit `k` on the bus, the highest first. -/
theorem byteBits_getElem? (b : BitVec 8) {k : Nat} (hk : k < 8) : (byteBits b)[k]? = some (busBit b k) := by
  unfold byteBits
  rw [List.getElem?_map, List.getElem?_range hk]
  rfl

/-- The byte with bit `k` set to a level. -/
def setBusBit (b : BitVec 8) (k : Nat) (level : Bool) : BitVec 8 :=
  if level then b ||| 1#8 <<< (7 - k) else b &&& ~~~(1#8 <<< (7 - k))

/-- Setting a bit changes that one only. -/
theorem busBit_setBusBit (b : BitVec 8) {j k : Nat} (hj : j < 8) (hk : k < 8) (level : Bool) :
    busBit (setBusBit b k level) j = if j = k then level else busBit b j := by
  have hone : (1#8 <<< (7 - k)).getLsbD (7 - j) = decide (j = k) := by
    rw [← BitVec.twoPow_eq, BitVec.getLsbD_twoPow, decide_eq_true (by omega), Bool.true_and]
    exact decide_eq_decide.mpr (by omega)
  unfold busBit setBusBit
  by_cases hjk : j = k
  · rw [if_pos hjk]
    rw [decide_eq_true hjk] at hone
    cases level
    · rw [if_neg Bool.false_ne_true, BitVec.getLsbD_and, BitVec.getLsbD_not, hone]
      simp
    · rw [if_pos rfl, BitVec.getLsbD_or, hone, Bool.or_true]
  · rw [if_neg hjk]
    rw [decide_eq_false hjk] at hone
    cases level
    · rw [if_neg Bool.false_ne_true, BitVec.getLsbD_and, BitVec.getLsbD_not, hone, decide_eq_true (by omega)]
      simp
    · rw [if_pos rfl, BitVec.getLsbD_or, hone, Bool.or_false]

/-! ## Frames -/

/-- The master has let the data line be, or not, in each pulse as the bits say. -/
def Follows (bits : List Bool) (ps : List Pulse) : Prop := ps.map Pulse.released = bits.take ps.length

theorem follows_nil (bits : List Bool) : Follows bits [] := rfl

/-- One more pulse. -/
theorem Follows.append {bits : List Bool} {ps : List Pulse} (h : Follows bits ps) {r : Bool}
    (hr : bits[ps.length]? = some r) (v : Bool) : Follows bits (ps ++ [⟨r, v⟩]) := by
  unfold Follows at h ⊢
  rw [List.map_append, h, List.length_append, List.length_singleton, List.take_add_one, hr]
  rfl

/-- The levels of the pulses so far, up to eight of them, are those bits of the byte. -/
def Reads (b : BitVec 8) (ps : List Pulse) : Prop := ∀ k < 8, ∀ p, ps[k]? = some p → p.level = busBit b k

theorem reads_nil (b : BitVec 8) : Reads b [] := by
  intro k _ p hp
  exact absurd hp (by simp)

/-- A level that is read into the byte. -/
theorem Reads.append {b : BitVec 8} {ps : List Pulse} (h : Reads b ps) (hlen : ps.length < 8) (p : Pulse) :
    Reads (setBusBit b ps.length p.level) (ps ++ [p]) := by
  intro k hk q hq
  rw [busBit_setBusBit b hk hlen]
  rcases Nat.lt_trichotomy k ps.length with hlt | heq | hgt
  · rw [List.getElem?_append_left hlt] at hq
    rw [if_neg (Nat.ne_of_lt hlt)]
    exact h k hk q hq
  · rw [if_pos heq]
    rw [heq, List.getElem?_append_right (Nat.le_refl _), Nat.sub_self] at hq
    exact congrArg Pulse.level (Option.some.inj hq).symm
  · rw [List.getElem?_eq_none (by rw [List.length_append]; exact hgt)] at hq
    exact absurd hq (by simp)

/-- Pulses after the eighth. -/
theorem Reads.append_of_le {b : BitVec 8} {ps : List Pulse} (h : Reads b ps) (hlen : 8 ≤ ps.length)
    (qs : List Pulse) : Reads b (ps ++ qs) := by
  intro k hk q hq
  rw [List.getElem?_append_left (Nat.lt_of_lt_of_le hk hlen)] at hq
  exact h k hk q hq

/-- After eight pulses the byte is there. -/
theorem Reads.levels {b : BitVec 8} {ps : List Pulse} (h : Reads b ps) (hlen : 8 ≤ ps.length) :
    (ps.map Pulse.level).take 8 = byteBits b := by
  refine List.ext_getElem? fun k => ?_
  by_cases hk : k < 8
  · obtain ⟨p, hp⟩ : ∃ p, ps[k]? = some p := ⟨_, List.getElem?_eq_getElem (Nat.lt_of_lt_of_le hk hlen)⟩
    rw [List.getElem?_take_of_lt hk, List.getElem?_map, hp, byteBits_getElem? b hk, ← h k hk p hp]
    rfl
  · rw [List.getElem?_eq_none (by rw [List.length_take]; omega),
      List.getElem?_eq_none (by rw [byteBits_length]; omega)]

end SocRV
