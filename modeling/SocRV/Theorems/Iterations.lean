import SocRV.Rtos.Iterations

/-!
# The accepted numbers of iterations

`parse_iterations` checks the range of a value that has already wrapped at `2 ^ 32`.
-/

namespace SocRV

namespace Coremark

/-- `parse_iterations` accepts the argument `s` just when it is a number from 1 to 1000000, stores that number then, and
returns -1 otherwise. -/
structure ParsesIterations (command s : CString) : Prop where
  accepts : (parseIterations [command, s]).1 = 0 ↔ ∃ v, Denotes s v ∧ 1 ≤ v ∧ v ≤ 1000000
  stores : ∀ v, Denotes s v → 1 ≤ v → v ≤ 1000000 → (parseIterations [command, s]).2.toNat = v
  rejects : (parseIterations [command, s]).1 ≠ 0 → (parseIterations [command, s]).1 = -1

/-- The argument is parsed as it should be unless it is a number above 1000000 whose value modulo `2 ^ 32` is not. -/
theorem parsesIterations_iff (command s : CString) :
    ParsesIterations command s ↔ ¬ ∃ v, Denotes s v ∧ 1000000 < v ∧ 1 ≤ v % 2 ^ 32 ∧ v % 2 ^ 32 ≤ 1000000 := by
  by_cases hs : ∃ v, Denotes s v
  · obtain ⟨v, hv⟩ := hs
    have hparse := parseIterations_of_denotes command hv
    by_cases hrange : v % 2 ^ 32 = 0 ∨ 1000000 < v % 2 ^ 32
    · rw [if_pos hrange] at hparse
      refine iff_of_true ⟨?_, ?_, ?_⟩ ?_
      · rw [hparse]
        refine iff_of_false (by decide) ?_
        rintro ⟨w, hw, h1, hmax⟩
        obtain rfl := hv.unique hw
        omega
      · intro w hw h1 hmax
        obtain rfl := hv.unique hw
        omega
      · intro _
        rw [hparse]
      · rintro ⟨w, hw, -, h1, hmax⟩
        obtain rfl := hv.unique hw
        omega
    · rw [if_neg hrange] at hparse
      by_cases hv' : v ≤ 1000000
      · refine iff_of_true ⟨?_, ?_, ?_⟩ ?_
        · rw [hparse]
          exact iff_of_true rfl ⟨v, hv, by omega, hv'⟩
        · intro w hw _ _
          obtain rfl := hv.unique hw
          rw [hparse, BitVec.toNat_ofNat, Nat.mod_eq_of_lt (by omega)]
        · intro hne
          rw [hparse] at hne
          exact absurd rfl hne
        · rintro ⟨w, hw, hbig, -⟩
          obtain rfl := hv.unique hw
          omega
      · refine iff_of_false ?_ (not_not.mpr ⟨v, hv, by omega, by omega, by omega⟩)
        intro h
        obtain ⟨w, hw, -, hmax⟩ := h.accepts.mp (by rw [hparse])
        obtain rfl := hv.unique hw
        exact hv' hmax
  · have hparse := parseIterations_of_not_denotes command fun v hv => hs ⟨v, hv⟩
    refine iff_of_true ⟨?_, ?_, ?_⟩ ?_
    · rw [hparse]
      exact iff_of_false (by decide) fun ⟨v, hv, _⟩ => hs ⟨v, hv⟩
    · intro v hv
      exact absurd ⟨v, hv⟩ hs
    · intro _
      rw [hparse]
    · rintro ⟨v, hv, _⟩
      exact hs ⟨v, hv⟩

/-- `coremark 4294967297` runs one iteration. -/
theorem wrapped_iterations :
    let command : CString := [0x63, 0x6f, 0x72, 0x65, 0x6d, 0x61, 0x72, 0x6b]
    let s : CString := [0x34, 0x32, 0x39, 0x34, 0x39, 0x36, 0x37, 0x32, 0x39, 0x37]
    parseIterations [command, s] = (0, 1) ∧ Denotes s 4294967297 ∧ ¬ ParsesIterations command s := by
  have hs : Denotes [0x34, 0x32, 0x39, 0x34, 0x39, 0x36, 0x37, 0x32, 0x39, 0x37] 4294967297 :=
    ⟨[], _, rfl, by decide, by decide, by decide, by decide⟩
  refine ⟨by decide, hs, fun h => ?_⟩
  obtain ⟨v, hv, -, hmax⟩ := h.accepts.mp (by decide)
  obtain rfl := hs.unique hv
  omega

end Coremark

end SocRV
