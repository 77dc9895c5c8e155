import Mathlib.Algebra.Group.Nat.Defs
import Mathlib.Tactic.Common

/-!
# Core primitives

The flip-flops and adders of `core_primitives.sv` the core is built from.  `rvdffs`, `rvdffe` and `rvdff_fpga`
all keep their value unless they are enabled and differ only in how the clock is gated, so one definition
stands for the three.
-/

namespace SocRV

/-- The next value of an enabled flip-flop. -/
def rvdffs {α : Type} (en : Bool) (din dout : α) : α := if en then din else dout

@[simp] theorem rvdffs_true {α : Type} (din dout : α) : rvdffs true din dout = din := rfl

@[simp] theorem rvdffs_false {α : Type} (din dout : α) : rvdffs false din dout = dout := rfl

/-- A register that is given its own value keeps it. -/
@[simp] theorem rvdffs_self {α : Type} (en : Bool) (d : α) : rvdffs en d d = d := by cases en <;> rfl

/-- The next value of an enabled flip-flop with a clear, which wins. -/
def rvdffsc (en clear din dout : Bool) : Bool := !clear && rvdffs en din dout

/-- The load/store address adder: the low twelve bits are added with a carry, and the high twenty bits are
kept, incremented or decremented by the carry and the sign of the offset. -/
def rvlsadder (rs1 : BitVec 32) (offset : BitVec 12) : BitVec 32 :=
  let low := (rs1.extractLsb' 0 12).zeroExtend 13 + offset.zeroExtend 13
  let cout := low.msb
  let sign := offset.msb
  let rs1Hi := rs1.extractLsb' 12 20
  let hi := if sign == cout then rs1Hi else if cout then rs1Hi + 1#20 else rs1Hi - 1#20
  hi ++ low.extractLsb' 0 12

/-- The address adder adds the sign-extended offset. -/
theorem rvlsadder_eq (rs1 : BitVec 32) (offset : BitVec 12) :
    rvlsadder rs1 offset = rs1 + offset.signExtend 32 := by
  apply BitVec.eq_of_toNat_eq
  have hrs1 := rs1.isLt
  have hoffset := offset.isLt
  simp only [rvlsadder, BitVec.msb_eq_decide, BitVec.toNat_append, BitVec.toNat_add, BitVec.toNat_signExtend,
    BitVec.extractLsb'_toNat, BitVec.toNat_setWidth, apply_ite BitVec.toNat, BitVec.toNat_sub,
    BitVec.toNat_ofNat, Nat.shiftRight_eq_div_pow, BitVec.truncate_eq_setWidth]
  rw [← Nat.shiftLeft_add_eq_or_of_lt (by omega), Nat.shiftLeft_eq]
  simp only [beq_iff_eq, decide_eq_decide, decide_eq_true_eq]
  split_ifs <;> omega

/-- The branch adder, built like the address adder, on addresses without their lowest bit. -/
def rvbradder (pc : BitVec 31) (offset : BitVec 12) : BitVec 31 :=
  let low := (pc.extractLsb' 0 12).zeroExtend 13 + offset.zeroExtend 13
  let cout := low.msb
  let sign := offset.msb
  let pcHi := pc.extractLsb' 12 19
  let hi := if sign == cout then pcHi else if cout then pcHi + 1#19 else pcHi - 1#19
  hi ++ low.extractLsb' 0 12

/-- The branch adder adds the sign-extended offset. -/
theorem rvbradder_eq (pc : BitVec 31) (offset : BitVec 12) :
    rvbradder pc offset = pc + offset.signExtend 31 := by
  apply BitVec.eq_of_toNat_eq
  have hpc := pc.isLt
  have hoffset := offset.isLt
  simp only [rvbradder, BitVec.msb_eq_decide, BitVec.toNat_append, BitVec.toNat_add, BitVec.toNat_signExtend,
    BitVec.extractLsb'_toNat, BitVec.toNat_setWidth, apply_ite BitVec.toNat, BitVec.toNat_sub,
    BitVec.toNat_ofNat, Nat.shiftRight_eq_div_pow, BitVec.truncate_eq_setWidth]
  rw [← Nat.shiftLeft_add_eq_or_of_lt (by omega), Nat.shiftLeft_eq]
  simp only [beq_iff_eq, decide_eq_decide, decide_eq_true_eq]
  split_ifs <;> omega

end SocRV
