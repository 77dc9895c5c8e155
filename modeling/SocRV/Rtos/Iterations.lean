import Mathlib.Algebra.Group.Nat.Defs
import Mathlib.Data.List.TakeWhile
import Mathlib.Tactic.Common

/-!
# The argument of the command `coremark`

`strtoul` of the C library the software is linked with, and `parse_iterations`, which reads the number of iterations
with it.  An `unsigned long` has 32 bits, and the value of the digits wraps.
-/

namespace SocRV

/-- The characters of a C string before its NUL. -/
abbrev CString := List (BitVec 8)

namespace Coremark

/-- A space or a tab. -/
def isBlank (c : BitVec 8) : Bool := c == 0x20 || c == 0x09

/-- A decimal digit. -/
def isDecimal (c : BitVec 8) : Bool := decide (0x30 ≤ c) && decide (c ≤ 0x39)

/-- The value of a digit or letter. -/
def digitOf (c : BitVec 8) : Option (BitVec 32) :=
  if 0x30 ≤ c ∧ c ≤ 0x39 then some ((c - 0x30).setWidth 32)
  else if 0x61 ≤ c ∧ c ≤ 0x7a then some ((c - 0x61).setWidth 32 + 10)
  else if 0x41 ≤ c ∧ c ≤ 0x5a then some ((c - 0x41).setWidth 32 + 10)
  else none

/-- The loop over the digits: the value, and where it stops. -/
def strtoulDigits (base : BitVec 32) : BitVec 32 → CString → BitVec 32 × CString
  | value, [] => (value, [])
  | value, c :: rest =>
    match digitOf c with
    | none => (value, c :: rest)
    | some digit => if base ≤ digit then (value, c :: rest) else strtoulDigits base (value * base + digit) rest

/-- The prefix of a hexadecimal number stands at the cursor. -/
def isHexPrefix (cursor : CString) : Bool :=
  cursor.getD 0 0 == 0x30 && (cursor.getD 1 0 == 0x78 || cursor.getD 1 0 == 0x58)

/-- `strtoul`: the value, and the string from `*end` on. -/
def strtoul (text : CString) (base : BitVec 32) : BitVec 32 × CString :=
  let cursor := text.dropWhile isBlank
  if base = 0 then
    if isHexPrefix cursor then strtoulDigits 16 0 (cursor.drop 2)
    else if cursor.getD 0 0 = 0x30 then strtoulDigits 8 0 cursor
    else strtoulDigits 10 0 cursor
  else if base = 16 ∧ isHexPrefix cursor then strtoulDigits base 0 (cursor.drop 2)
  else strtoulDigits base 0 cursor

/-- `COREMARK_DEFAULT_ITERATIONS` and `COREMARK_MAX_ITERATIONS`. -/
def defaultIterations : BitVec 32 := 10000

@[inherit_doc defaultIterations]
def maxIterations : BitVec 32 := 1000000

/-- `parse_iterations` of the `argc` strings `argv`: what it returns, and `*iterations`. -/
def parseIterations (argv : List CString) : Int × BitVec 32 :=
  if argv.length = 1 then (0, defaultIterations)
  else if argv.length ≠ 2 then (-1, defaultIterations)
  else
    let text := argv.getD 1 []
    let parsed := strtoul text 10
    if text = [] ∨ parsed.2 ≠ [] ∨ parsed.1 = 0 ∨ maxIterations < parsed.1 then (-1, defaultIterations)
    else (0, parsed.1)

/-! ## Decimal numbers -/

/-- The number that the decimal digits `ds` continue `n` to. -/
def decimal (n : Nat) (ds : CString) : Nat := ds.foldl (fun n c => 10 * n + (c - 0x30).toNat) n

/-- The string is blanks and then one or more decimal digits, of value `v`. -/
def Denotes (s : CString) (v : Nat) : Prop :=
  ∃ blanks ds, s = blanks ++ ds ∧ (∀ c ∈ blanks, isBlank c = true) ∧ ds ≠ [] ∧ (∀ c ∈ ds, isDecimal c = true) ∧
    decimal 0 ds = v

/-- A digit is no blank. -/
theorem isBlank_of_isDecimal {c : BitVec 8} (h : isDecimal c = true) : isBlank c = false := by
  unfold isDecimal at h
  unfold isBlank
  rw [Bool.and_eq_true, decide_eq_true_eq, decide_eq_true_eq] at h
  rw [Bool.or_eq_false_iff, beq_eq_false_iff_ne, beq_eq_false_iff_ne]
  exact ⟨by bv_omega, by bv_omega⟩

/-- The digits below ten are the decimal ones. -/
theorem digitOf_of_isDecimal {c : BitVec 8} (h : isDecimal c = true) :
    digitOf c = some (BitVec.ofNat 32 (c - 0x30).toNat) ∧ (c - 0x30).toNat < 10 := by
  unfold isDecimal at h
  rw [Bool.and_eq_true, decide_eq_true_eq, decide_eq_true_eq] at h
  unfold digitOf
  rw [if_pos h]
  exact ⟨congrArg some (by bv_omega), by bv_omega⟩

@[inherit_doc digitOf_of_isDecimal]
theorem digitOf_of_not_isDecimal {c : BitVec 8} {d : BitVec 32} (h : isDecimal c = false) (hd : digitOf c = some d) :
    10 ≤ d := by
  unfold isDecimal at h
  rw [← Bool.decide_and, decide_eq_false_iff_not] at h
  unfold digitOf at hd
  rw [if_neg h] at hd
  split_ifs at hd with hlow hup
  · obtain rfl := Option.some.inj hd
    bv_omega
  · obtain rfl := Option.some.inj hd
    bv_omega

/-- In base ten the loop reads the decimal digits that come first, and its value is theirs modulo `2 ^ 32`. -/
theorem strtoulDigits_ten (n : Nat) (cs : CString) :
    strtoulDigits 10 (BitVec.ofNat 32 n) cs =
      (BitVec.ofNat 32 (decimal n (cs.takeWhile isDecimal)), cs.dropWhile isDecimal) := by
  induction cs generalizing n with
  | nil => rfl
  | cons c rest ih =>
    by_cases hc : isDecimal c = true
    · obtain ⟨hdigit, hlt⟩ := digitOf_of_isDecimal hc
      have hbase : ¬ (10 : BitVec 32) ≤ BitVec.ofNat 32 (c - 0x30).toNat := by
        intro hle
        rw [BitVec.le_def, BitVec.toNat_ofNat, Nat.mod_eq_of_lt (by omega)] at hle
        exact absurd hle (by simpa using hlt)
      have hvalue : BitVec.ofNat 32 n * 10 + BitVec.ofNat 32 (c - 0x30).toNat =
          BitVec.ofNat 32 (10 * n + (c - 0x30).toNat) := by
        rw [BitVec.ofNat_add, BitVec.ofNat_mul, BitVec.mul_comm]
        rfl
      rw [strtoulDigits, hdigit]
      dsimp only
      rw [if_neg hbase, hvalue, ih, List.takeWhile_cons_of_pos hc, List.dropWhile_cons_of_pos hc]
      rfl
    · rw [List.takeWhile_cons_of_neg hc, List.dropWhile_cons_of_neg hc, strtoulDigits]
      cases hdigit : digitOf c with
      | none => rfl
      | some d =>
        dsimp only
        rw [if_pos (digitOf_of_not_isDecimal (Bool.not_eq_true _ ▸ hc) hdigit)]
        rfl

/-- What `strtoul` gives in base ten. -/
theorem strtoul_ten (s : CString) :
    strtoul s 10 = (BitVec.ofNat 32 (decimal 0 ((s.dropWhile isBlank).takeWhile isDecimal)),
      (s.dropWhile isBlank).dropWhile isDecimal) := by
  unfold strtoul
  dsimp only
  rw [if_neg (by decide), if_neg (fun h => absurd h.1 (by decide))]
  exact strtoulDigits_ten 0 _

/-- A string denotes a number when nothing is left behind the digits that follow its blanks. -/
theorem denotes_iff (s : CString) (v : Nat) :
    Denotes s v ↔ s.dropWhile isBlank ≠ [] ∧ (s.dropWhile isBlank).dropWhile isDecimal = [] ∧
      decimal 0 ((s.dropWhile isBlank).takeWhile isDecimal) = v := by
  constructor
  · rintro ⟨blanks, ds, rfl, hblanks, hne, hds, rfl⟩
    have hdrop : (blanks ++ ds).dropWhile isBlank = ds := by
      rw [List.dropWhile_append_of_pos hblanks]
      cases ds with
      | nil => rfl
      | cons c rest =>
        rw [List.dropWhile_cons_of_neg]
        rw [isBlank_of_isDecimal (hds c (List.mem_cons_self ..))]
        exact Bool.false_ne_true
    rw [hdrop]
    exact ⟨hne, List.dropWhile_eq_nil_iff.mpr hds, by rw [List.takeWhile_eq_self_iff.mpr hds]⟩
  · rintro ⟨hne, hrest, rfl⟩
    have hall := List.dropWhile_eq_nil_iff.mp hrest
    refine ⟨s.takeWhile isBlank, s.dropWhile isBlank, List.takeWhile_append_dropWhile.symm, ?_, hne, hall, ?_⟩
    · intro c hc
      exact List.mem_takeWhile_imp hc
    · rw [List.takeWhile_eq_self_iff.mpr hall]

/-- A string denotes at most one number. -/
theorem Denotes.unique {s : CString} {v w : Nat} (hv : Denotes s v) (hw : Denotes s w) : v = w :=
  ((denotes_iff s v).mp hv).2.2.symm.trans ((denotes_iff s w).mp hw).2.2

/-- `parse_iterations` of one argument. -/
theorem parseIterations_pair (command s : CString) :
    parseIterations [command, s] =
      if s = [] ∨ (strtoul s 10).2 ≠ [] ∨ (strtoul s 10).1 = 0 ∨ maxIterations < (strtoul s 10).1 then
        (-1, defaultIterations)
      else (0, (strtoul s 10).1) := by
  have hlen : [command, s].length = 2 := rfl
  have htext : [command, s].getD 1 [] = s := rfl
  unfold parseIterations
  dsimp only
  rw [hlen, htext, if_neg (by decide), if_neg (by decide)]

/-- `parse_iterations` judges the wrapped value of the number. -/
theorem parseIterations_of_denotes {s : CString} {v : Nat} (command : CString) (h : Denotes s v) :
    parseIterations [command, s] =
      if v % 2 ^ 32 = 0 ∨ 1000000 < v % 2 ^ 32 then (-1, defaultIterations) else (0, BitVec.ofNat 32 v) := by
  obtain ⟨hne, hrest, hv⟩ := (denotes_iff s v).mp h
  have hs : s ≠ [] := by
    rintro rfl
    exact hne rfl
  have hzero : (BitVec.ofNat 32 v = 0) ↔ v % 2 ^ 32 = 0 := by
    rw [← BitVec.toNat_inj, BitVec.toNat_ofNat]
    rfl
  have hmax : maxIterations < BitVec.ofNat 32 v ↔ 1000000 < v % 2 ^ 32 := by
    rw [BitVec.lt_def, BitVec.toNat_ofNat]
    rfl
  rw [parseIterations_pair, strtoul_ten, hrest, hv]
  simp only [hs, ne_eq, not_true_eq_false, false_or, hzero, hmax]

/-- A string that is no number is rejected. -/
theorem parseIterations_of_not_denotes {s : CString} (command : CString) (h : ∀ v, ¬ Denotes s v) :
    parseIterations [command, s] = (-1, defaultIterations) := by
  rw [parseIterations_pair, strtoul_ten]
  by_cases hrest : (s.dropWhile isBlank).dropWhile isDecimal = []
  · -- only blanks: the value of no digits is zero, which is rejected
    have hblank : s.dropWhile isBlank = [] := by
      by_contra hne
      exact h _ ((denotes_iff s _).mpr ⟨hne, hrest, rfl⟩)
    rw [if_pos]
    rw [hblank]
    exact .inr (.inr (.inl rfl))
  · rw [if_pos (.inr (.inl hrest))]

end Coremark

end SocRV
