import Mathlib.Algebra.Group.Nat.Defs
import Mathlib.Tactic.Common

/-!
# Binary32 arithmetic

What a 32-bit word stands for, and the exact results of the operations on such numbers: a signed magnitude still to be
rounded, an infinity, or a NaN.  How a magnitude is rounded to a word is a parameter (`Rounding`); comparisons, sign
injection, classification and the conversion to an integer need no such parameter.
-/

namespace SocRV.Binary32

/-- The rounding modes: to nearest with ties to even, towards zero, down, up, to nearest with ties away. -/
inductive RoundMode where
  | rne
  | rtz
  | rdn
  | rup
  | rmm
  deriving DecidableEq, Repr

/-- What a word stands for: a signed magnitude, an infinity, or a NaN. -/
inductive Datum where
  | num (neg : Bool) (mag : Rat)
  | inf (neg : Bool)
  | nan (signaling : Bool)
  deriving DecidableEq, Repr

/-- The exact result of an operation; `root` is the square root of a magnitude. -/
inductive Exact where
  | num (neg : Bool) (mag : Rat)
  | root (mag : Rat)
  | inf (neg : Bool)
  | divByZero (neg : Bool)
  | nan
  | invalid
  deriving DecidableEq, Repr

/-- The word of a result and its flags: invalid, divide by zero, overflow, underflow, inexact from the top bit down. -/
abbrev FpResult := BitVec 32 × BitVec 5

/-- How a signed magnitude and a square root are rounded to a word. -/
structure Rounding where
  num : RoundMode → Bool → Rat → FpResult
  root : RoundMode → Rat → FpResult

/-- The flag of an invalid operation. -/
def flagNV : BitVec 5 := 0b10000

@[inherit_doc flagNV]
def flagDZ : BitVec 5 := 0b01000

@[inherit_doc flagNV]
def flagNX : BitVec 5 := 0b00001

/-! ## Words -/

section Word

variable (w : BitVec 32)

/-- The sign bit. -/
def signBit : Bool := w.getLsbD 31

/-- The exponent field. -/
def exponent : BitVec 8 := w.extractLsb' 23 8

/-- The fraction field. -/
def fraction : BitVec 23 := w.extractLsb' 0 23

/-- The magnitude of a finite word: the significand times a power of two, in units of the smallest subnormal. -/
def magnitude : Rat :=
  let significand : Nat := if exponent w = 0 then (fraction w).toNat else 2 ^ 23 + (fraction w).toNat
  (significand * 2 ^ ((exponent w).toNat - 1) : Nat) / (2 ^ 149 : Nat)

/-- What a word stands for. -/
def datum : Datum :=
  if exponent w = 0xff then
    if fraction w = 0 then .inf (signBit w) else .nan (!w.getLsbD 22)
  else .num (signBit w) (magnitude w)

/-- The word with its sign turned. -/
def turned : BitVec 32 := w ^^^ 0x80000000

/-- The word with another sign. -/
def withSign (neg : Bool) : BitVec 32 := BitVec.ofBool neg ++ w.extractLsb' 0 31

end Word

/-- One, and the two zeros. -/
def oneWord : BitVec 32 := 0x3f800000

@[inherit_doc oneWord]
def zeroWord (neg : Bool) : BitVec 32 := if neg then 0x80000000 else 0

/-- The canonical NaN. -/
def canonicalNan : BitVec 32 := 0x7fc00000

/-- An infinity as a word. -/
def infWord (neg : Bool) : BitVec 32 := if neg then 0xff800000 else 0x7f800000

/-! ## Arithmetic -/

/-- The result of an operation that delivers one of its exact operands. -/
def Datum.exact : Datum → Exact
  | .num neg mag => .num neg mag
  | .inf neg => .inf neg
  | .nan signaling => if signaling then .invalid else .nan

/-- The sum of two signed magnitudes; an exact zero of opposite signs is negative only when rounding down. -/
def sumNum (rm : RoundMode) (s : Bool) (m : Rat) (t : Bool) (n : Rat) : Exact :=
  if s = t then .num s (m + n)
  else if n < m then .num s (m - n)
  else if m < n then .num t (n - m)
  else .num (rm == .rdn) 0

/-- The sum. -/
def Datum.add (rm : RoundMode) : Datum → Datum → Exact
  | .nan s, .nan t => (Datum.nan (s || t)).exact
  | .nan s, _ => (Datum.nan s).exact
  | _, .nan t => (Datum.nan t).exact
  | .inf s, .inf t => if s = t then .inf s else .invalid
  | .inf s, .num _ _ => .inf s
  | .num _ _, .inf t => .inf t
  | .num s m, .num t n => sumNum rm s m t n

/-- The exact product; zero times infinity is invalid whatever is done with it. -/
def Datum.product : Datum → Datum → Datum
  | .nan s, .nan t => .nan (s || t)
  | .nan s, _ => .nan s
  | _, .nan t => .nan t
  | .inf s, .inf t => .inf (s ^^ t)
  | .inf s, .num t n => if n = 0 then .nan true else .inf (s ^^ t)
  | .num s m, .inf t => if m = 0 then .nan true else .inf (s ^^ t)
  | .num s m, .num t n => .num (s ^^ t) (m * n)

/-- The product. -/
def Datum.mul (a b : Datum) : Exact := (a.product b).exact

/-- The fused multiply-add: nothing is rounded before the end. -/
def Datum.mulAdd (rm : RoundMode) (a b c : Datum) : Exact := (a.product b).add rm c

/-- The quotient. -/
def Datum.div : Datum → Datum → Exact
  | .nan s, .nan t => (Datum.nan (s || t)).exact
  | .nan s, _ => (Datum.nan s).exact
  | _, .nan t => (Datum.nan t).exact
  | .inf _, .inf _ => .invalid
  | .inf s, .num t _ => .inf (s ^^ t)
  | .num s _, .inf t => .num (s ^^ t) 0
  | .num s m, .num t n =>
    if n = 0 then (if m = 0 then .invalid else .divByZero (s ^^ t)) else .num (s ^^ t) (m / n)

/-- The square root; that of a negative zero is the negative zero. -/
def Datum.sqrt : Datum → Exact
  | .nan s => (Datum.nan s).exact
  | .inf s => if s then .invalid else .inf s
  | .num s m => if m = 0 then .num s 0 else if s then .invalid else .root m

/-- The word and the flags of an exact result. -/
def Exact.result (R : Rounding) (rm : RoundMode) : Exact → FpResult
  | .num neg mag => R.num rm neg mag
  | .root mag => R.root rm mag
  | .inf neg => (infWord neg, 0)
  | .divByZero neg => (infWord neg, flagDZ)
  | .nan => (canonicalNan, 0)
  | .invalid => (canonicalNan, flagNV)

/-- The number of the other sign. -/
def Datum.negate : Datum → Datum
  | .num neg mag => .num (!neg) mag
  | .inf neg => .inf (!neg)
  | .nan signaling => .nan signaling

/-- A number has a nonnegative magnitude. -/
def Datum.Nonneg : Datum → Prop
  | .num _ mag => 0 ≤ mag
  | _ => True

/-- The magnitude of a datum is not negative. -/
theorem datum_nonneg (w : BitVec 32) : (datum w).Nonneg := by
  unfold datum
  split_ifs
  · trivial
  · trivial
  · unfold Datum.Nonneg magnitude
    have hden : (0 : Rat) ≤ ((2 ^ 149 : Nat) : Rat)⁻¹ := by decide +kernel
    rw [Rat.div_def]
    exact Rat.mul_nonneg (by exact_mod_cast Nat.zero_le _) hden

/-- One stands for one, and a zero for a zero. -/
theorem datum_oneWord : datum oneWord = .num false 1 := by decide +kernel

/-- A zero word is a zero of its sign. -/
theorem datum_zeroWord (neg : Bool) : datum (zeroWord neg) = .num neg 0 := by
  cases neg <;> decide +kernel

/-- Turning the sign changes the highest bit only. -/
@[simp] theorem getLsbD_turned (w : BitVec 32) (k : Nat) : (turned w).getLsbD k = (w.getLsbD k ^^ decide (k = 31)) := by
  have hmask : (0x80000000 : BitVec 32) = BitVec.twoPow 32 31 := by decide
  unfold turned
  rw [BitVec.getLsbD_xor, hmask, BitVec.getLsbD_twoPow]
  by_cases hk : k = 31
  · subst hk
    rfl
  · simp [hk, Ne.symm hk]

/-- A word with its sign turned stands for the number of the other sign. -/
theorem datum_turned (w : BitVec 32) : datum (turned w) = (datum w).negate := by
  have hexp : exponent (turned w) = exponent w := by
    apply BitVec.eq_of_getLsbD_eq
    intro k hk
    simp only [exponent, BitVec.getLsbD_extractLsb', getLsbD_turned]
    have hne : ¬ 23 + k = 31 := by omega
    simp [hne]
  have hfrac : fraction (turned w) = fraction w := by
    apply BitVec.eq_of_getLsbD_eq
    intro k hk
    simp only [fraction, BitVec.getLsbD_extractLsb', getLsbD_turned]
    have hne : ¬ k = 31 := by omega
    simp [hne]
  have hsign : signBit (turned w) = !signBit w := by
    unfold signBit
    rw [getLsbD_turned]
    exact Bool.xor_true _
  have hmag : magnitude (turned w) = magnitude w := by
    unfold magnitude
    rw [hexp, hfrac]
  unfold datum
  rw [hexp, hfrac, hsign, hmag, getLsbD_turned]
  split_ifs
  · rfl
  · simp [Datum.negate]
  · rfl

theorem product_num (s : Bool) (m : Rat) (t : Bool) (n : Rat) :
    (Datum.num s m).product (.num t n) = .num (s ^^ t) (m * n) := rfl

theorem product_num_inf (s : Bool) (m : Rat) (t : Bool) :
    (Datum.num s m).product (.inf t) = if m = 0 then .nan true else .inf (s ^^ t) := rfl

theorem product_inf_num (s t : Bool) (n : Rat) :
    (Datum.inf s).product (.num t n) = if n = 0 then .nan true else .inf (s ^^ t) := rfl

/-- Turning a factor turns the product. -/
theorem product_negate (a b : Datum) : a.negate.product b = (a.product b).negate := by
  cases a <;> cases b
  case num.num s m t n => exact congrArg (Datum.num · (m * n)) (Bool.not_xor ..)
  case num.inf s m t =>
    rw [product_num_inf, apply_ite Datum.negate]
    exact congrArg (fun x => if m = 0 then Datum.nan true else .inf x) (Bool.not_xor ..)
  case inf.num s t n =>
    rw [product_inf_num, apply_ite Datum.negate]
    exact congrArg (fun x => if n = 0 then Datum.nan true else .inf x) (Bool.not_xor ..)
  case inf.inf s t => exact congrArg Datum.inf (Bool.not_xor ..)
  all_goals rfl

/-- One times a number is the number. -/
theorem product_one (b : Datum) : (Datum.num false 1).product b = b := by
  cases b with
  | num t n => rw [product_num, Rat.one_mul, Bool.false_xor]
  | inf t => rw [product_num_inf, if_neg (by decide), Bool.false_xor]
  | nan t => rfl

/-- The product of magnitudes is not negative. -/
theorem product_nonneg {a b : Datum} (ha : a.Nonneg) (hb : b.Nonneg) : (a.product b).Nonneg := by
  cases a <;> cases b
  case num.num => exact Rat.mul_nonneg ha hb
  case num.inf =>
    rw [product_num_inf]
    split_ifs <;> trivial
  case inf.num =>
    rw [product_inf_num]
    split_ifs <;> trivial
  all_goals trivial

/-- Multiplying one and adding is adding. -/
theorem mulAdd_one (rm : RoundMode) (b c : Datum) : (datum oneWord).mulAdd rm b c = b.add rm c := by
  unfold Datum.mulAdd
  rw [datum_oneWord, product_one]

/-- Adding the zero whose sign is negative unless rounding is downwards leaves every number as it is. -/
theorem add_zeroWord (rm : RoundMode) {d : Datum} (hd : d.Nonneg) :
    d.add rm (datum (zeroWord (rm != .rdn))) = d.exact := by
  rw [datum_zeroWord]
  cases d with
  | nan s => rfl
  | inf s => rfl
  | num s m =>
    have hm : 0 ≤ m := hd
    show sumNum rm s m (rm != .rdn) 0 = .num s m
    unfold sumNum
    by_cases hs : s = (rm != .rdn)
    · rw [if_pos hs, Rat.add_zero]
    · rw [if_neg hs]
      by_cases h0 : 0 < m
      · rw [if_pos h0]
        congr 1
        grind
      · have hz : m = 0 := by grind
        rw [if_neg h0, if_neg (by rw [hz]; decide), hz]
        cases s <;> cases rm <;> first | rfl | exact absurd rfl hs

/-- Multiplying and adding that zero is multiplying. -/
theorem mulAdd_zeroWord (rm : RoundMode) (a b : BitVec 32) :
    (datum a).mulAdd rm (datum b) (datum (zeroWord (rm != .rdn))) = (datum a).mul (datum b) := by
  unfold Datum.mulAdd Datum.mul
  exact add_zeroWord rm (product_nonneg (datum_nonneg a) (datum_nonneg b))

/-! ## Sign injection, comparison and classification -/

/-- A signed magnitude as a number. -/
def signed (neg : Bool) (mag : Rat) : Rat := if neg then -mag else mag

/-- Less than; nothing is less or greater than a NaN. -/
def Datum.lt : Datum → Datum → Bool
  | .nan _, _ => false
  | _, .nan _ => false
  | .inf s, .inf t => s && !t
  | .inf s, .num _ _ => s
  | .num _ _, .inf t => !t
  | .num s m, .num t n => signed s m < signed t n

/-- Equal; the two zeros are, a NaN is equal to nothing. -/
def Datum.eq : Datum → Datum → Bool
  | .inf s, .inf t => s == t
  | .num s m, .num t n => signed s m == signed t n
  | _, _ => false

/-- A NaN, and a signalling one. -/
def Datum.isNan : Datum → Bool
  | .nan _ => true
  | _ => false

@[inherit_doc Datum.isNan]
def Datum.isSignaling : Datum → Bool
  | .nan s => s
  | _ => false

/-- The orders a comparison can ask for. -/
inductive Comparison where
  | le
  | lt
  | eq
  deriving DecidableEq, Repr

/-- A comparison: the orders complain about every NaN, equality about a signalling one only. -/
def comparison (k : Comparison) (a b : BitVec 32) : Bool × BitVec 5 :=
  let d := datum a
  let e := datum b
  let nan := d.isNan || e.isNan
  let signaling := d.isSignaling || e.isSignaling
  match k with
  | .le => (d.lt e || d.eq e, if nan then flagNV else 0)
  | .lt => (d.lt e, if nan then flagNV else 0)
  | .eq => (d.eq e, if signaling then flagNV else 0)

/-- The smaller and the larger of two words: the negative zero is below the positive one, and a number is preferred to
a NaN. -/
def minMax (max : Bool) (a b : BitVec 32) : FpResult :=
  let d := datum a
  let e := datum b
  let below := d.lt e || (d.eq e && signBit a)
  (if d.isNan && e.isNan then canonicalNan
    else if d.isNan then b
    else if e.isNan then a
    else if below ^^ max then a else b,
   if d.isSignaling || e.isSignaling then flagNV else 0)

/-- The signs a sign injection can give. -/
inductive Injection where
  | copy
  | opposite
  | xor
  deriving DecidableEq, Repr

/-- The first word with a sign made from the second one's. -/
def inject (k : Injection) (a b : BitVec 32) : BitVec 32 :=
  match k with
  | .copy => withSign a (signBit b)
  | .opposite => withSign a (!signBit b)
  | .xor => withSign a (signBit a ^^ signBit b)

/-- The class of a word, one bit of ten. -/
def classify (w : BitVec 32) : BitVec 32 :=
  let neg := signBit w
  if exponent w = 0xff then
    if fraction w = 0 then (if neg then 0x001 else 0x080) else (if w.getLsbD 22 then 0x200 else 0x100)
  else if exponent w = 0 then
    if fraction w = 0 then (if neg then 0x008 else 0x010) else (if neg then 0x004 else 0x020)
  else (if neg then 0x002 else 0x040)

/-! ## Conversion -/

/-- A magnitude rounded to a whole one. -/
def roundWhole (rm : RoundMode) (neg : Bool) (m : Rat) : Int :=
  let whole := m.floor
  let rest := m - whole
  let up := match rm with
    | .rne => decide ((1 / 2 : Rat) < rest) || (decide (rest = 1 / 2) && decide (whole % 2 = 1))
    | .rtz => false
    | .rdn => neg && decide (0 < rest)
    | .rup => !neg && decide (0 < rest)
    | .rmm => decide ((1 / 2 : Rat) ≤ rest)
  if up then whole + 1 else whole

/-- The least and the greatest value of an integer register. -/
def intBounds (unsigned : Bool) : Int × Int :=
  if unsigned then (0, 4294967295) else (-2147483648, 2147483647)

/-- The conversion to an integer: what does not fit is invalid and gives the nearest bound, a NaN the greatest one. -/
def toInteger (unsigned : Bool) (rm : RoundMode) (w : BitVec 32) : FpResult :=
  let (lo, hi) := intBounds unsigned
  match datum w with
  | .nan _ => (BitVec.ofInt 32 hi, flagNV)
  | .inf neg => (BitVec.ofInt 32 (if neg then lo else hi), flagNV)
  | .num neg m =>
    let whole := roundWhole rm neg m
    let v := if neg then -whole else whole
    if v < lo then (BitVec.ofInt 32 lo, flagNV)
    else if hi < v then (BitVec.ofInt 32 hi, flagNV)
    else (BitVec.ofInt 32 v, if (whole : Rat) = m then 0 else flagNX)

/-- The conversion from an integer. -/
def ofInteger (unsigned : Bool) (x : BitVec 32) : Exact :=
  let v : Int := if unsigned then x.toNat else x.toInt
  .num (v < 0) v.natAbs

end SocRV.Binary32
