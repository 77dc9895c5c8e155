import SocRV.Core.DecDecCtl
import SocRV.Lib.Rv32f

/-!
# The request of the floating-point unit to `fpnew`

`mycpu_fpu` decodes the instruction it holds a second time, into an operation of `fpnew`, its modifier, a rounding mode
that for some operations selects a variant, and three operand slots.  What `fpnew` makes of these is the table its units
document.
-/

namespace SocRV

open Binary32

/-- `operation_e`. -/
inductive FpnewOp where
  | fmadd
  | fnmsub
  | add
  | mul
  | div
  | sqrt
  | sgnj
  | minmax
  | cmp
  | classify
  | f2f
  | f2i
  | i2f
  | cpkab
  | cpkcd
  | adds
  deriving DecidableEq, Repr

/-- The enumerators of `roundmode_e` that are rounding modes of the instruction set. -/
def rneBits : BitVec 3 := 0b000

@[inherit_doc rneBits]
def rtzBits : BitVec 3 := 0b001

@[inherit_doc rneBits]
def rdnBits : BitVec 3 := 0b010

@[inherit_doc rneBits]
def rupBits : BitVec 3 := 0b011

/-- What `mycpu_fpu` presents to `fpnew`; `request_tag` is taken apart. -/
structure FpnewRequest where
  operation : FpnewOp := .add
  opMod : Bool := false
  roundMode : BitVec 3
  operand0 : BitVec 32
  operand1 : BitVec 32
  operand2 : BitVec 32
  writesGpr : Bool := false
  writesFpr : Bool := true
  rd : BitVec 5
  deriving DecidableEq, Repr

/-- The `always_comb` block of `mycpu_fpu`, for the instruction `inst_q`. -/
def fpuRequest (inst : BitVec 32) (frm : BitVec 3) (intRs1 frs1 frs2 frs3 : BitVec 32) : FpnewRequest :=
  let q : FpnewRequest :=
    { operand0 := frs1
      operand1 := frs2
      operand2 := frs3
      roundMode := if funct3 inst = 0b111 then frm else funct3 inst
      rd := inst.extractLsb' 7 5 }
  if opcode inst = 0b1000011 then { q with operation := .fmadd }
  else if opcode inst = 0b1000111 then { q with operation := .fmadd, opMod := true }
  else if opcode inst = 0b1001011 then { q with operation := .fnmsub }
  else if opcode inst = 0b1001111 then { q with operation := .fnmsub, opMod := true }
  else if opcode inst = 0b1010011 then
    if funct7 inst = 0b0000000 then { q with operation := .add, operand1 := frs1, operand2 := frs2 }
    else if funct7 inst = 0b0000100 then
      { q with operation := .add, opMod := true, operand1 := frs1, operand2 := frs2 }
    else if funct7 inst = 0b0001000 then { q with operation := .mul }
    else if funct7 inst = 0b0001100 then { q with operation := .div }
    else if funct7 inst = 0b0101100 then { q with operation := .sqrt }
    else if funct7 inst = 0b0010000 then
      { q with
        operation := .sgnj
        roundMode := if funct3 inst = 0b000 then rneBits else if funct3 inst = 0b001 then rtzBits else rdnBits }
    else if funct7 inst = 0b0010100 then
      { q with operation := .minmax, roundMode := if (funct3 inst).getLsbD 0 then rtzBits else rneBits }
    else if funct7 inst = 0b1010000 then
      { q with
        operation := .cmp
        writesGpr := true
        writesFpr := false
        roundMode := if funct3 inst = 0b010 then rdnBits else if funct3 inst = 0b001 then rtzBits else rneBits }
    else if funct7 inst = 0b1100000 then
      { q with operation := .f2i, opMod := inst.getLsbD 20, writesGpr := true, writesFpr := false }
    else if funct7 inst = 0b1101000 then
      { q with operation := .i2f, opMod := inst.getLsbD 20, operand0 := intRs1 }
    else if funct7 inst = 0b1110000 then
      let q := { q with writesGpr := true, writesFpr := false }
      if funct3 inst = 0b001 then { q with operation := .classify }
      else { q with operation := .sgnj, roundMode := rupBits, opMod := true }
    else if funct7 inst = 0b1111000 then { q with operation := .sgnj, roundMode := rupBits, operand0 := intRs1 }
    else q
  else q

/-- A word with its sign turned when the modifier is set. -/
def addend (opMod : Bool) (w : BitVec 32) : BitVec 32 := if opMod then turned w else w

/-- The table of operations of `fpnew`: those of `fpnew_fma` as its operand adjustments to a fused multiply-add, the
others as the variant their rounding mode selects.  Other requests have no documented result. -/
def FpnewRequest.result (R : Rounding) (q : FpnewRequest) : Option FpResult :=
  let a := q.operand0
  let b := q.operand1
  let c := q.operand2
  match q.operation with
  | .fmadd =>
    (RoundMode.ofBits q.roundMode).map fun m =>
      ((datum a).mulAdd m (datum b) (datum (addend q.opMod c))).result R m
  | .fnmsub =>
    (RoundMode.ofBits q.roundMode).map fun m =>
      ((datum (turned a)).mulAdd m (datum b) (datum (addend q.opMod c))).result R m
  | .add | .adds =>
    (RoundMode.ofBits q.roundMode).map fun m =>
      ((datum oneWord).mulAdd m (datum b) (datum (addend q.opMod c))).result R m
  | .mul =>
    (RoundMode.ofBits q.roundMode).map fun m =>
      ((datum a).mulAdd m (datum b) (datum (zeroWord (m != .rdn)))).result R m
  | .div => (RoundMode.ofBits q.roundMode).map fun m => ((datum a).div (datum b)).result R m
  | .sqrt => (RoundMode.ofBits q.roundMode).map fun m => (datum a).sqrt.result R m
  | .sgnj =>
    if q.roundMode = rneBits then some (inject .copy a b, 0)
    else if q.roundMode = rtzBits then some (inject .opposite a b, 0)
    else if q.roundMode = rdnBits then some (inject .xor a b, 0)
    else if q.roundMode = rupBits then some (a, 0)
    else none
  | .minmax =>
    if q.roundMode = rneBits then some (minMax false a b)
    else if q.roundMode = rtzBits then some (minMax true a b)
    else none
  | .cmp =>
    -- an order that complains about a NaN is false whatever the modifier
    let ordered := !((datum a).isNan || (datum b).isNan)
    let boolean (invert : Bool) (r : Bool × BitVec 5) : Option FpResult := some (if r.1 ^^ invert then 1 else 0, r.2)
    if q.roundMode = rneBits then boolean (q.opMod && ordered) (comparison .le a b)
    else if q.roundMode = rtzBits then boolean (q.opMod && ordered) (comparison .lt a b)
    else if q.roundMode = rdnBits then boolean q.opMod (comparison .eq a b)
    else none
  | .classify => some (classify a, 0)
  | .f2i => (RoundMode.ofBits q.roundMode).map fun m => toInteger q.opMod m a
  | .i2f => (RoundMode.ofBits q.roundMode).map fun m => (ofInteger q.opMod a).result R m
  | .f2f | .cpkab | .cpkcd => none

end SocRV
