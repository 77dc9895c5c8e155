import SocRV.Core.Primitives

/-!
# The floating-point unit's request port

`mycpu_fpu` holds one operation at a time: it waits for `fpnew` to accept it, then for the answer.  A flush drops it.
`fpnew` is not part of the model: when it is ready, when it answers and with which tag are inputs.
-/

namespace SocRV

/-- The control registers of `mycpu_fpu` and the instruction it works on. -/
structure Fpu where
  pendingQ : Bool := false
  activeQ : Bool := false
  instQ : BitVec 32 := 0
  deriving DecidableEq, Repr

/-- The request, the flush, and what `fpnew` says in a cycle. -/
structure FpuIn where
  reqValid : Bool := false
  inst : BitVec 32 := 0
  flush : Bool := false
  fpInReady : Bool := false
  fpOutValid : Bool := false
  fpTag : BitVec 7 := 0
  deriving DecidableEq, Repr

namespace Fpu

variable (s : Fpu) (i : FpuIn)

/-- `req_ready_o`. -/
def reqReady : Bool := !s.pendingQ && !s.activeQ

/-- `busy_o`. -/
def busy : Bool := s.pendingQ || s.activeQ

/-- `resp_valid_o`. -/
def respValid (i : FpuIn) : Bool := i.fpOutValid && !i.flush

/-- `writes_gpr_o`. -/
def writesGpr (i : FpuIn) : Bool := i.fpTag.getLsbD 6

/-- `rd_o`. -/
def rd (i : FpuIn) : BitVec 5 := i.fpTag.extractLsb' 0 5

/-- The registers after a core cycle: of the three assignments the last one that applies wins. -/
def next : Fpu :=
  if i.flush then { s with pendingQ := false, activeQ := false }
  else
    { pendingQ := if s.pendingQ && i.fpInReady then false else (i.reqValid && s.reqReady) || s.pendingQ
      activeQ := if i.fpOutValid then false else (s.pendingQ && i.fpInReady) || s.activeQ
      instQ := if i.reqValid && s.reqReady then i.inst else s.instQ }

/-- `fpnew` answers an operation it has accepted and not yet answered, a cycle after it accepted it at the earliest. -/
def Answers : Prop := i.fpOutValid = true → s.activeQ = true

instance : Decidable (s.Answers i) := inferInstanceAs (Decidable (i.fpOutValid = true → s.activeQ = true))

end Fpu

end SocRV
