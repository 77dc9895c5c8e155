import Mathlib.Algebra.Group.Nat.Defs
import Mathlib.Tactic.Common

/-!
# The instruction decoder

`dec_dec_ctl` is a table of Boolean equations over the bits of an instruction; `dec_decode_ctl` puts the
floating-point instructions on top of it for slot `i0` and turns an instruction that could not be fetched, or whose
branch prediction is inconsistent, into a harmless one.
-/

namespace SocRV

/-- `dec_pkt_t`. -/
structure DecPkt where
  alu : Bool := false
  rs1 : Bool := false
  rs2 : Bool := false
  imm12 : Bool := false
  rd : Bool := false
  shimm5 : Bool := false
  imm20 : Bool := false
  pc : Bool := false
  load : Bool := false
  store : Bool := false
  lsu : Bool := false
  add : Bool := false
  sub : Bool := false
  land : Bool := false
  lor : Bool := false
  lxor : Bool := false
  sll : Bool := false
  sra : Bool := false
  srl : Bool := false
  slt : Bool := false
  unsign : Bool := false
  condbr : Bool := false
  beq : Bool := false
  bne : Bool := false
  bge : Bool := false
  blt : Bool := false
  jal : Bool := false
  byte : Bool := false
  half : Bool := false
  word : Bool := false
  csrRead : Bool := false
  csrClr : Bool := false
  csrSet : Bool := false
  csrWrite : Bool := false
  csrImm : Bool := false
  presync : Bool := false
  postsync : Bool := false
  ebreak : Bool := false
  ecall : Bool := false
  mret : Bool := false
  mul : Bool := false
  rs1Sign : Bool := false
  rs2Sign : Bool := false
  low : Bool := false
  div : Bool := false
  rem : Bool := false
  fpu : Bool := false
  fpload : Bool := false
  fpstore : Bool := false
  fence : Bool := false
  fenceI : Bool := false
  pmAlu : Bool := false
  legal : Bool := false

/-- `out.legal` of `dec_dec_ctl`, one product of the source's equation a line. -/
def decLegal (b : Nat → Bool) : Bool :=
  (!b 31 && !b 30 && b 29 && b 28 && !b 27 && !b 26 && !b 25 && !b 24 && !b 23 && !b 22 && b 21 && !b 20 && !b 19 &&
    !b 18 && !b 17 && !b 16 && !b 15 && !b 14 && !b 11 && !b 10 && !b 9 && !b 8 && !b 7 && b 6 && b 5 && b 4 && !b 3
    && !b 2 && b 1 && b 0) ||
  (!b 31 && !b 30 && !b 29 && b 28 && !b 27 && !b 26 && !b 25 && !b 24 && !b 23 && b 22 && !b 21 && b 20 && !b 19 &&
    !b 18 && !b 17 && !b 16 && !b 15 && !b 14 && !b 11 && !b 10 && !b 9 && !b 8 && !b 7 && b 6 && b 5 && b 4 && !b 3
    && !b 2 && b 1 && b 0) ||
  (!b 31 && !b 30 && !b 29 && !b 28 && !b 27 && !b 26 && !b 25 && !b 24 && !b 23 && !b 22 && !b 21 && !b 19 && !b 18
    && !b 17 && !b 16 && !b 15 && !b 14 && !b 11 && !b 10 && !b 9 && !b 8 && !b 7 && b 5 && b 4 && !b 3 && !b 2 && b 1
    && b 0) ||
  (!b 31 && !b 30 && !b 29 && !b 28 && !b 27 && !b 26 && !b 25 && !b 6 && b 4 && !b 3 && b 1 && b 0) ||
  (!b 31 && !b 29 && !b 28 && !b 27 && !b 26 && !b 25 && !b 14 && !b 13 && !b 12 && !b 6 && !b 3 && !b 2 && b 1 &&
    b 0) ||
  (!b 31 && !b 29 && !b 28 && !b 27 && !b 26 && !b 25 && b 14 && !b 13 && b 12 && !b 6 && b 4 && !b 3 && b 1 && b 0)
    ||
  (!b 31 && !b 30 && !b 29 && !b 28 && !b 27 && !b 26 && !b 6 && b 5 && b 4 && !b 3 && b 1 && b 0) ||
  (!b 14 && !b 13 && !b 12 && b 6 && b 5 && !b 4 && !b 3 && b 1 && b 0) ||
  (b 14 && b 6 && b 5 && !b 4 && !b 3 && !b 2 && b 1 && b 0) ||
  (!b 12 && !b 6 && !b 5 && b 4 && !b 3 && b 1 && b 0) ||
  (!b 14 && !b 13 && b 5 && !b 4 && !b 3 && !b 2 && b 1 && b 0) ||
  (b 12 && b 6 && b 5 && b 4 && !b 3 && !b 2 && b 1 && b 0) ||
  (!b 31 && !b 30 && !b 29 && !b 28 && !b 27 && !b 26 && !b 25 && !b 24 && !b 23 && !b 22 && !b 21 && !b 20 && !b 19
    && !b 18 && !b 17 && !b 16 && !b 15 && !b 14 && !b 13 && !b 11 && !b 10 && !b 9 && !b 8 && !b 7 && !b 6 && !b 5 &&
    !b 4 && b 3 && b 2 && b 1 && b 0) ||
  (!b 31 && !b 30 && !b 29 && !b 28 && !b 19 && !b 18 && !b 17 && !b 16 && !b 15 && !b 14 && !b 13 && !b 12 && !b 11
    && !b 10 && !b 9 && !b 8 && !b 7 && !b 6 && !b 5 && !b 4 && b 3 && b 2 && b 1 && b 0) ||
  (b 13 && b 6 && b 5 && b 4 && !b 3 && !b 2 && b 1 && b 0) ||
  (!b 13 && !b 6 && !b 5 && !b 4 && !b 3 && !b 2 && b 1 && b 0) ||
  (b 6 && b 5 && !b 4 && b 3 && b 2 && b 1 && b 0) ||
  (b 13 && !b 6 && !b 5 && b 4 && !b 3 && b 1 && b 0) ||
  (!b 14 && !b 12 && !b 6 && !b 4 && !b 3 && !b 2 && b 1 && b 0) ||
  (!b 6 && b 4 && !b 3 && b 2 && b 1 && b 0)

/-- `dec_dec_ctl`, with `b k` for `i[k]`. -/
def decDecCtl (i : BitVec 32) : DecPkt :=
  let b := i.getLsbD
  { alu := b 2 || b 6 || (!b 25 && b 4) || (!b 5 && b 4)
    rs1 := (!b 14 && !b 13 && !b 2) || (!b 13 && b 11 && !b 2) || (b 19 && b 13 && !b 2) || (!b 13 && b 10 && !b 2)
      || (b 18 && b 13 && !b 2) || (!b 13 && b 9 && !b 2) || (b 17 && b 13 && !b 2) || (!b 13 && b 8 && !b 2) ||
      (b 16 && b 13 && !b 2) || (!b 13 && b 7 && !b 2) || (b 15 && b 13 && !b 2) || (!b 4 && !b 3) || (!b 6 && !b 2)
    rs2 := (b 5 && !b 4 && !b 2) || (!b 6 && b 5 && !b 2)
    imm12 := (!b 4 && !b 3 && b 2) || (b 13 && !b 5 && b 4 && !b 2) || (!b 13 && !b 12 && b 6 && b 4) || (!b 12 &&
      !b 5 && b 4 && !b 2)
    rd := (!b 5 && !b 2) || (b 5 && b 2) || b 4
    shimm5 := !b 13 && b 12 && !b 5 && b 4 && !b 2
    imm20 := (b 5 && b 3) || (b 4 && b 2)
    pc := (!b 5 && !b 3 && b 2) || (b 5 && b 3)
    load := !b 5 && !b 4 && !b 2
    store := !b 6 && b 5 && !b 4
    lsu := !b 6 && !b 4 && !b 2
    add := (!b 14 && !b 13 && !b 12 && !b 5 && b 4) || (!b 5 && !b 3 && b 2) || (!b 30 && !b 25 && !b 14 && !b 13 &&
      !b 12 && !b 6 && b 4 && !b 2)
    sub := (b 30 && !b 12 && !b 6 && b 5 && b 4 && !b 2) || (!b 25 && !b 14 && b 13 && !b 6 && b 4 && !b 2) ||
      (!b 14 && b 13 && !b 5 && b 4 && !b 2) || (b 6 && !b 4 && !b 2)
    land := (b 14 && b 13 && b 12 && !b 5 && !b 2) || (!b 25 && b 14 && b 13 && b 12 && !b 6 && !b 2)
    lor := (!b 6 && b 3) || (!b 25 && b 14 && b 13 && !b 12 && b 4 && !b 2) || (b 5 && b 4 && b 2) || (!b 12 && b 6
      && b 4) || (b 13 && b 6 && b 4) || (b 14 && b 13 && !b 12 && !b 5 && !b 2) || (b 7 && b 6 && b 4) || (b 8 &&
      b 6 && b 4) || (b 9 && b 6 && b 4) || (b 10 && b 6 && b 4) || (b 11 && b 6 && b 4)
    lxor := (!b 25 && b 14 && !b 13 && !b 12 && b 4 && !b 2) || (b 14 && !b 13 && !b 12 && !b 5 && b 4 && !b 2)
    sll := !b 25 && !b 14 && !b 13 && b 12 && !b 6 && b 4 && !b 2
    sra := b 30 && !b 13 && b 12 && !b 6 && b 4 && !b 2
    srl := !b 30 && !b 25 && b 14 && !b 13 && b 12 && !b 6 && b 4 && !b 2
    slt := (!b 25 && !b 14 && b 13 && !b 6 && b 4 && !b 2) || (!b 14 && b 13 && !b 5 && b 4 && !b 2)
    unsign := (!b 14 && b 13 && b 12 && !b 5 && !b 2) || (b 13 && b 6 && !b 4 && !b 2) || (b 14 && !b 5 && !b 4) ||
      (!b 25 && !b 14 && b 13 && b 12 && !b 6 && !b 2) || (b 25 && b 14 && b 12 && !b 6 && b 5 && !b 2)
    condbr := b 6 && !b 4 && !b 2
    beq := !b 14 && !b 12 && b 6 && !b 4 && !b 2
    bne := !b 14 && b 12 && b 6 && !b 4 && !b 2
    bge := b 14 && b 12 && b 5 && !b 4 && !b 2
    blt := b 14 && !b 12 && b 5 && !b 4 && !b 2
    jal := b 6 && b 2
    byte := !b 13 && !b 12 && !b 6 && !b 4 && !b 2
    half := b 12 && !b 6 && !b 4 && !b 2
    word := b 13 && !b 6 && !b 4
    csrRead := (b 13 && b 6 && b 4) || (b 7 && b 6 && b 4) || (b 8 && b 6 && b 4) || (b 9 && b 6 && b 4) || (b 10 &&
      b 6 && b 4) || (b 11 && b 6 && b 4)
    csrClr := (b 15 && b 13 && b 12 && b 6 && b 4) || (b 16 && b 13 && b 12 && b 6 && b 4) || (b 17 && b 13 && b 12
      && b 6 && b 4) || (b 18 && b 13 && b 12 && b 6 && b 4) || (b 19 && b 13 && b 12 && b 6 && b 4)
    csrSet := (b 15 && !b 12 && b 6 && b 4) || (b 16 && !b 12 && b 6 && b 4) || (b 17 && !b 12 && b 6 && b 4) ||
      (b 18 && !b 12 && b 6 && b 4) || (b 19 && !b 12 && b 6 && b 4)
    csrWrite := !b 13 && b 12 && b 6 && b 4
    csrImm := (b 14 && !b 13 && b 6 && b 4) || (b 15 && b 14 && b 6 && b 4) || (b 16 && b 14 && b 6 && b 4) || (b 17
      && b 14 && b 6 && b 4) || (b 18 && b 14 && b 6 && b 4) || (b 19 && b 14 && b 6 && b 4)
    presync := (!b 5 && b 3) || (b 25 && b 14 && !b 6 && b 5 && !b 2) || (!b 13 && b 7 && b 6 && b 4) || (!b 13 &&
      b 8 && b 6 && b 4) || (!b 13 && b 9 && b 6 && b 4) || (!b 13 && b 10 && b 6 && b 4) || (!b 13 && b 11 && b 6
      && b 4) || (b 15 && b 13 && b 6 && b 4) || (b 16 && b 13 && b 6 && b 4) || (b 17 && b 13 && b 6 && b 4) ||
      (b 18 && b 13 && b 6 && b 4) || (b 19 && b 13 && b 6 && b 4)
    postsync := (b 12 && !b 5 && b 3) || (!b 22 && !b 13 && !b 12 && b 6 && b 4) || (b 25 && b 14 && !b 6 && b 5 &&
      !b 2) || (!b 13 && b 7 && b 6 && b 4) || (!b 13 && b 8 && b 6 && b 4) || (!b 13 && b 9 && b 6 && b 4) ||
      (!b 13 && b 10 && b 6 && b 4) || (!b 13 && b 11 && b 6 && b 4) || (b 15 && b 13 && b 6 && b 4) || (b 16 &&
      b 13 && b 6 && b 4) || (b 17 && b 13 && b 6 && b 4) || (b 18 && b 13 && b 6 && b 4) || (b 19 && b 13 && b 6 &&
      b 4)
    ebreak := !b 22 && b 20 && !b 13 && !b 12 && b 6 && b 4
    ecall := !b 21 && !b 20 && !b 13 && !b 12 && b 6 && b 4
    mret := b 29 && !b 13 && !b 12 && b 6 && b 4
    mul := b 25 && !b 14 && !b 6 && b 5 && b 4 && !b 2
    rs1Sign := (b 25 && !b 14 && b 13 && !b 12 && !b 6 && b 5 && b 4 && !b 2) || (b 25 && !b 14 && !b 13 && b 12 &&
      !b 6 && b 4 && !b 2)
    rs2Sign := b 25 && !b 14 && !b 13 && b 12 && !b 6 && b 4 && !b 2
    low := b 25 && !b 14 && !b 13 && !b 12 && b 5 && b 4 && !b 2
    div := b 25 && b 14 && !b 6 && b 5 && !b 2
    rem := b 25 && b 14 && b 13 && !b 6 && b 5 && !b 2
    fpu := false
    fpload := false
    fpstore := false
    fence := !b 5 && b 3
    fenceI := b 12 && !b 5 && b 3
    pmAlu := (b 28 && b 22 && !b 13 && !b 12 && b 4) || (b 4 && b 2) || (!b 25 && !b 6 && b 4) || (!b 5 && b 4)
    legal := decLegal b }

/-! ## Floating-point instructions -/

section Fp

variable (i : BitVec 32)

/-- `i[6:0]`. -/
def opcode : BitVec 7 := i.extractLsb' 0 7

/-- `i[14:12]`. -/
def funct3 : BitVec 3 := i.extractLsb' 12 3

/-- `i[31:25]`. -/
def funct7 : BitVec 7 := i.extractLsb' 25 7

/-- The fused multiply-adds of `i0_fp_op`. -/
def fpFused : Bool :=
  opcode i == 0b1000011 || opcode i == 0b1000111 || opcode i == 0b1001011 || opcode i == 0b1001111

/-- `i0_fp_op`. -/
def fpOp : Bool := opcode i == 0b1010011 || fpFused i

/-- `i0_fpload`. -/
def fpload : Bool := opcode i == 0b0000111 && funct3 i == 0b010

/-- `i0_fpstore`. -/
def fpstore : Bool := opcode i == 0b0100111 && funct3 i == 0b010

/-- `i0_fp_any` and `i1_fp_any`. -/
def fpAny : Bool := fpOp i || fpload i || fpstore i

/-- `i0_rm_legal`. -/
def rmLegal (frm : BitVec 3) : Bool := funct3 i ≤ 0b100 || (funct3 i == 0b111 && frm ≤ 0b100)

/-- `i0_fp_encoding_legal`. -/
def fpEncodingLegal (frm : BitVec 3) : Bool :=
  let rs2 : BitVec 5 := i.extractLsb' 20 5
  let rs2Hi : BitVec 4 := i.extractLsb' 21 4
  if fpFused i then i.extractLsb' 25 2 == 0b00#2 && rmLegal i frm
  else if opcode i == 0b1010011 then
    if funct7 i == 0b0000000 || funct7 i == 0b0000100 || funct7 i == 0b0001000 || funct7 i == 0b0001100 then
      rmLegal i frm
    else if funct7 i == 0b0101100 then rs2 == 0 && rmLegal i frm
    else if funct7 i == 0b0010000 then funct3 i ≤ 0b010
    else if funct7 i == 0b0010100 then funct3 i ≤ 0b001
    else if funct7 i == 0b1010000 then funct3 i ≤ 0b010
    else if funct7 i == 0b1100000 then rs2Hi == 0 && rmLegal i frm
    else if funct7 i == 0b1101000 then rs2Hi == 0 && rmLegal i frm
    else if funct7 i == 0b1110000 then rs2 == 0 && (funct3 i == 0b000 || funct3 i == 0b001)
    else if funct7 i == 0b1111000 then rs2 == 0 && funct3 i == 0b000
    else false
  else false

/-- `i0_fp_writes_gpr`. -/
def fpWritesGpr : Bool :=
  opcode i == 0b1010011 && (funct7 i == 0b1010000 || funct7 i == 0b1100000 || funct7 i == 0b1110000)

/-- `i0_fp_reads_gpr`. -/
def fpReadsGpr : Bool := opcode i == 0b1010011 && (funct7 i == 0b1101000 || funct7 i == 0b1111000)

/-- The packet of an instruction that could not be fetched or whose prediction is inconsistent. -/
def DecPkt.error : DecPkt := { alu := true, rs1 := true, rs2 := true, lor := true, legal := true, postsync := true }

/-- `i0_dp`: the table, then the floating-point instructions, then the errors. -/
def i0Dp (fpEnabled : Bool) (frm : BitVec 3) (bad : Bool) : DecPkt :=
  if bad then DecPkt.error
  else if fpOp i then
    { legal := fpEnabled && fpEncodingLegal i frm
      fpu := true
      rd := fpWritesGpr i
      rs1 := fpReadsGpr i
      presync := true
      postsync := true }
  else if fpload i then
    { legal := fpEnabled, fpload := true, load := true, lsu := true, add := true, rs1 := true, imm12 := true,
      word := true }
  else if fpstore i then
    { legal := fpEnabled, fpstore := true, store := true, lsu := true, add := true, rs1 := true, imm12 := true,
      word := true }
  else decDecCtl i

/-- `i1_dp`. -/
def i1Dp (bad : Bool) : DecPkt := if bad then DecPkt.error else decDecCtl i

end Fp

/-! ## What the packets have in common -/

/-- What decode and the pipeline rely on: loads and stores are what the load/store unit gets, and they, the ALU, the
divider and the floating-point unit are apart; a long operation waits for the older ones and holds the younger. -/
structure DecPkt.Wf (p : DecPkt) : Prop where
  lsu : p.legal = true → p.lsu = (p.load || p.store)
  kind : p.legal = true → p.lsu = true → p.load = !p.store
  alu : p.legal = true → p.alu = true → p.lsu = false ∧ p.div = false ∧ p.fpu = false
  div : p.legal = true → p.div = true →
    p.lsu = false ∧ p.fpu = false ∧ p.presync = true ∧ p.postsync = true ∧ p.jal = false ∧ p.condbr = false
  fpu : p.fpu = true → p.lsu = false ∧ p.div = false ∧ p.presync = true ∧ p.postsync = true ∧ p.jal = false ∧
    p.condbr = false

/-- The major opcodes with bit 6 set and bit 5 clear are not integer instructions. -/
theorem decLegal_five {b : Nat → Bool} (h : decLegal b = true) (h6 : b 6 = true) : b 5 = true := by
  by_contra h5
  simp [decLegal, h6, h5] at h

/-- The only opcode with bits 6 to 4 equal to 010 is that of the integer stores, whose third function bit is clear. -/
theorem decLegal_store {b : Nat → Bool} (h : decLegal b = true) (h6 : b 6 = false) (h5 : b 5 = true)
    (h4 : b 4 = false) : b 2 = false ∧ b 14 = false := by
  constructor
  · by_contra h2
    simp [decLegal, h6, h5, h4, h2] at h
  · by_contra h14
    simp [decLegal, h6, h5, h4, h14] at h

/-- Every packet of the table is one decode can rely on. -/
theorem decDecCtl_wf (i : BitVec 32) : (decDecCtl i).Wf := by
  have hfive := decLegal_five (b := i.getLsbD)
  have hstore := decLegal_store (b := i.getLsbD)
  unfold decDecCtl
  generalize i.getLsbD = b at hfive hstore ⊢
  constructor
  · intro h
    have h6 := hfive h
    have h5 := hstore h
    dsimp only
    cases e6 : b 6 <;> cases e5 : b 5 <;> cases e4 : b 4 <;> cases e2 : b 2 <;> simp_all
  · intro h hl
    have h6 := hfive h
    dsimp only at hl ⊢
    cases e6 : b 6 <;> cases e5 : b 5 <;> cases e4 : b 4 <;> cases e2 : b 2 <;> simp_all
  · intro h ha
    dsimp only at ha ⊢
    cases e6 : b 6 <;> cases e5 : b 5 <;> cases e4 : b 4 <;> cases e2 : b 2 <;> simp_all
  · intro h hd
    have h5 := hstore h
    dsimp only at hd ⊢
    cases e6 : b 6 <;> cases e5 : b 5 <;> cases e4 : b 4 <;> cases e2 : b 2 <;> simp_all
  · intro h
    cases h

theorem DecPkt.error_wf : DecPkt.error.Wf :=
  ⟨fun _ => rfl, nofun, fun _ _ => ⟨rfl, rfl, rfl⟩, nofun, nofun⟩

theorem i0Dp_wf (i : BitVec 32) (fpEnabled : Bool) (frm : BitVec 3) (bad : Bool) : (i0Dp i fpEnabled frm bad).Wf := by
  unfold i0Dp
  split_ifs
  · exact DecPkt.error_wf
  · exact ⟨fun _ => rfl, nofun, nofun, nofun, fun _ => ⟨rfl, rfl, rfl, rfl, rfl, rfl⟩⟩
  · exact ⟨fun _ => rfl, fun _ _ => rfl, nofun, nofun, nofun⟩
  · exact ⟨fun _ => rfl, fun _ _ => rfl, nofun, nofun, nofun⟩
  · exact decDecCtl_wf i

theorem i1Dp_wf (i : BitVec 32) (bad : Bool) : (i1Dp i bad).Wf := by
  unfold i1Dp
  split_ifs
  · exact DecPkt.error_wf
  · exact decDecCtl_wf i

end SocRV
