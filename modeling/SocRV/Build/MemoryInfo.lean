import SocRV.Lib.HexText
import SocRV.Lib.Regex

/-!
# The memory info generator

`scripts/generate_manual_mmi.py`: the rows of a map of block RAMs are classified by their cell names into the lanes of
the instruction memory and the banks of the data memory, and written out as the memory arrays of an MMI file.
-/

namespace SocRV

namespace MemoryInfo

/-- The fields of `Bram` that are used. -/
structure Bram where
  cell : Text
  loc : Text
  refName : Text
  readWidthA : Int
  readWidthB : Int
  writeWidthA : Int
  writeWidthB : Int
  portaLayout : Text
  portbLayout : Text
  deriving DecidableEq, Repr

/-- The widths and bit layouts of the two ports. -/
structure Ports where
  readWidthA : Int
  readWidthB : Int
  writeWidthA : Int
  writeWidthB : Int
  portaLayout : Text
  portbLayout : Text
  deriving DecidableEq, Repr

/-- The tuple `actual` of a row. -/
def Bram.ports (b : Bram) : Ports :=
  ⟨b.readWidthA, b.readWidthB, b.writeWidthA, b.writeWidthB, b.portaLayout, b.portbLayout⟩

/-- A tuple of the geometries: one width and one layout for all. -/
def Ports.uniform (width : Int) (layout : String) : Ports :=
  ⟨width, width, width, width, layout.toList, layout.toList⟩

/-- `ICCM_7SERIES_GEOMETRY`. -/
def iccm7SeriesGeometry : List Ports := List.replicate 8 (.uniform 4 "p0_d4")

/-- `ICCM_ULTRASCALE_GEOMETRY`. -/
def iccmUltrascaleGeometry : List Ports :=
  List.replicate 4 (.uniform 18 "p2_d16") ++ List.replicate 2 (.uniform 9 "p1_d8") ++
    [.uniform 4 "p0_d4", .uniform 2 "p0_d1"]

/-! ## The cell names -/

/-- A digit between two, as a group. -/
def digitGroup (low high : Char) : Regex := .group (.one fun c => decide (low ≤ c) && decide (c ≤ high))

/-- `(?:bram_)?`. -/
def bramOpt : Regex := .alt (.lit "bram_".toList) (.lit [])

/-- `ICCM_RE`. -/
def iccmRe : Regex := .seqAll
  [.lit "/iccm/".toList,
    .alt (.seqAll [.lit "lane".toList, digitGroup '0' '3', .lit "_reg_".toList, bramOpt, digitGroup '0' '7'])
      (.seqAll [.lit "lane_q_reg[".toList, digitGroup '0' '3', .lit "]_".toList, digitGroup '0' '7']),
    .atEnd]

/-- `DCCM_RE`. -/
def dccmRe : Regex := .seqAll
  [.lit "/dccm_bank_gen[".toList, digitGroup '0' '7', .lit "].bank_mem_reg_".toList, bramOpt, digitGroup '0' '1', .atEnd]

/-- Where a row belongs: the slice of a lane or of a bank. -/
inductive Position where
  | iccm (lane slice : Nat)
  | dccm (bank slice : Nat)
  deriving DecidableEq, Repr

/-- `int` of a text of digits. -/
def readInt (t : Text) : Nat := t.foldl (fun n c => 10 * n + (c.toNat - '0'.toNat)) 0

/-- The position that the cell name of a row gives.  Each alternative of `ICCM_RE` captures both its digits. -/
def position (cell : Text) : Option Position :=
  match iccmRe.search cell with
  | some groups => do
    let lane ← (groups.getD 0 none).or (groups.getD 2 none)
    let slice ← (groups.getD 1 none).or (groups.getD 3 none)
    return .iccm (readInt lane) (readInt slice)
  | none => match dccmRe.search cell with
    | some groups => do
      let bank ← groups.getD 0 none
      let slice ← groups.getD 1 none
      return .dccm (readInt bank) (readInt slice)
    | none => none

/-! ## Classification -/

/-- An error, with what its message tells. -/
inductive Error where
  | noPart
  | duplicateCell (cell : Text)
  | duplicateLoc (loc : Text)
  | unrecognized (cell : Text)
  | keyError (key : Nat)
  | count (n : Nat)
  | laneSlices (lane : Nat)
  | laneGeometry (lane : Nat) (geometry : List Ports)
  | laneDiffers (lane : Nat)
  | bankSlices (bank : Nat)
  | bankGeometry (cell : Text) (actual : Ports)
  | unsupported (cell refName : Text)
  deriving DecidableEq, Repr

/-- The slices of a lane or bank: the rows by their index. -/
abbrev Slices := List (Nat × Bram)

/-- `slices[index] = bram`. -/
def Slices.set (s : Slices) (index : Nat) (b : Bram) : Slices := (index, b) :: s.filter fun p => p.1 ≠ index

/-- `slices[index]`. -/
def Slices.get? (s : Slices) (index : Nat) : Option Bram := s.lookup index

/-- `set(slices) == set(range(n))`. -/
def Slices.complete (s : Slices) (n : Nat) : Bool :=
  s.all (fun p => decide (p.1 < n)) && (List.range n).all fun i => (s.get? i).isSome

/-- The dictionaries of `classify`, by lane and by bank, and what it has seen. -/
structure Classes where
  iccm : Nat → Slices := fun _ => []
  dccm : Nat → Slices := fun _ => []
  seenCells : List Text := []
  seenLocs : List Text := []

/-- One round of the loop over the rows. -/
def classifyRow (s : Classes) (b : Bram) : Except Error Classes :=
  if b.cell ∈ s.seenCells then .error (.duplicateCell b.cell)
  else if b.loc ∈ s.seenLocs then .error (.duplicateLoc b.loc)
  else
    let seen : Classes := { s with seenCells := b.cell :: s.seenCells, seenLocs := b.loc :: s.seenLocs }
    match position b.cell with
    | some (.iccm lane slice) =>
      if lane < 4 then .ok { seen with iccm := fun l => if l = lane then (s.iccm l).set slice b else s.iccm l }
      else .error (.keyError lane)
    | some (.dccm bank slice) =>
      if bank < 8 then .ok { seen with dccm := fun k => if k = bank then (s.dccm k).set slice b else s.dccm k }
      else .error (.keyError bank)
    | none => .error (.unrecognized b.cell)

/-- The geometry of a lane: the ports of its eight slices. -/
def laneGeometry (slices : Slices) : List Ports := (List.range 8).filterMap fun i => (slices.get? i).map Bram.ports

/-- The checks of a lane; `iccm_geometry` is that of the lanes before, if there are any. -/
def checkLane (iccmGeometry : Option (List Ports)) (lane : Nat) (slices : Slices) : Except Error (Option (List Ports)) :=
  if !slices.complete 8 then .error (.laneSlices lane)
  else
    let geometry := laneGeometry slices
    if geometry ∉ [iccm7SeriesGeometry, iccmUltrascaleGeometry] then .error (.laneGeometry lane geometry)
    else match iccmGeometry with
      | none => .ok (some geometry)
      | some g => if geometry ≠ g then .error (.laneDiffers lane) else .ok iccmGeometry

/-- The check of a slice of a bank. -/
def checkBankSlice (slices : Slices) (bank index : Nat) (layout : String) : Except Error Unit :=
  match slices.get? index with
  | none => .error (.bankSlices bank)
  | some b => if b.ports ≠ .uniform 18 layout then .error (.bankGeometry b.cell b.ports) else .ok ()

/-- The checks of a bank. -/
def checkBank (bank : Nat) (slices : Slices) : Except Error Unit :=
  if !slices.complete 2 then .error (.bankSlices bank)
  else do
    checkBankSlice slices bank 0 "p2_d16"
    checkBankSlice slices bank 1 "p0_d14"

/-- `classify`. -/
def classify (brams : List Bram) : Except Error Classes := do
  let s ← brams.foldlM classifyRow {}
  if brams.length ≠ 48 then .error (.count brams.length)
  else
    let _ ← (List.range 4).foldlM (fun g lane => checkLane g lane (s.iccm lane)) none
    (List.range 8).forM fun bank => checkBank bank (s.dccm bank)
    return s

/-! ## The MMI file -/

/-- The elements of a port: its bits, its addresses and its layout. -/
structure Port where
  msb : Nat
  lsb : Nat
  first : Nat
  last : Nat
  pattern : Text
  deriving DecidableEq, Repr

/-- An element `BRAM`. -/
structure Element where
  memType : Text
  placement : Text
  readWidthA : Int
  readWidthB : Int
  portA : Port
  portB : Port
  deriving DecidableEq, Repr

/-- Where a row goes: its bits and addresses. -/
structure Span where
  lsb : Nat
  msb : Nat
  first : Nat
  last : Nat
  deriving DecidableEq, Repr

/-- `removeprefix`. -/
def removePrefix (u t : Text) : Text := if u.isPrefixOf t then t.drop u.length else t

/-- `add_bram`: the element of a row. -/
def addBram (b : Bram) (s : Span) : Except Error Element :=
  let element (memType : String) : Element :=
    { memType := memType.toList
      placement := removePrefix (memType.toList ++ ['_']) b.loc
      readWidthA := b.readWidthA
      readWidthB := b.readWidthB
      portA := ⟨s.msb, s.lsb, s.first, s.last, b.portaLayout⟩
      portB := ⟨s.msb, s.lsb, s.first, s.last, b.portbLayout⟩ }
  if "RAMB36".toList.isPrefixOf b.refName then .ok (element "RAMB36")
  else if "RAMB18".toList.isPrefixOf b.refName then .ok (element "RAMB18")
  else .error (.unsupported b.cell b.refName)

/-- The places of the slices of a lane. -/
def laneSpans (geometry : List Ports) : List Span :=
  if geometry = iccm7SeriesGeometry then (List.range 8).map fun i => ⟨i * 4, i * 4 + 3, 0, 8191⟩
  else
    ((List.range 4).map fun i => ⟨0, 17, i * 2048, i * 2048 + 2047⟩) ++
      ((List.range 2).map fun i => ⟨18, 26, i * 4096, i * 4096 + 4095⟩) ++ [⟨27, 30, 0, 8191⟩, ⟨31, 31, 0, 8191⟩]

/-- The places of the slices of a bank. -/
def bankSpans : List Span := [⟨0, 17, 0, 2047⟩, ⟨18, 31, 0, 2047⟩]

/-- The elements of slices in their places. -/
def addBrams (slices : Slices) (spans : List Span) : Except Error (List Element) :=
  spans.zipIdx.mapM fun p => match slices.get? p.2 with
    | none => .error (.keyError p.2)
    | some b => addBram b p.1

/-- An element `MemoryArray` with its layout. -/
structure MemoryArray where
  name : String
  elements : List Element

/-- `generate`, from the metadata entry `part` and the rows to the memory arrays of the MMI file. -/
def generate (part : Option String) (brams : List Bram) : Except Error (List MemoryArray) :=
  if part.getD "" = "" then .error .noPart
  else do
    let s ← classify brams
    let lanes ← (List.range 4).mapM fun lane => do
      let elements ← addBrams (s.iccm lane) (laneSpans (laneGeometry (s.iccm lane)))
      return ⟨s!"ICCM_LANE{lane}", elements⟩
    let banks ← (List.range 8).mapM fun bank => do
      let elements ← addBrams (s.dccm bank) bankSpans
      return ⟨s!"DCCM_BANK{bank}", elements⟩
    return lanes ++ banks

end MemoryInfo

end SocRV
