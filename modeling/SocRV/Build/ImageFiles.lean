import Mathlib.Algebra.Group.Nat.Defs
import SocRV.Build.Elf2Mem
import SocRV.Lib.Script

/-!
# The files of an image

`convert` of `scripts/elf2mem.py` as it works on files: the checks, and between them the files that are written and the
entries of the manifest that are made of them.
-/

namespace SocRV

namespace Elf2Mem

/-! ## Files -/

/-- A resolved path, by its parts. -/
abbrev Path := List String

/-- A path as the manifest records it: inside the repository by the parts below its root, else as a whole. -/
inductive ManifestPath where
  | relative (parts : List String)
  | absolute (parts : List String)
  deriving DecidableEq, Repr

/-- `manifest_path`. -/
def manifestPath (root path : Path) : ManifestPath :=
  if root <+: path then .relative (path.drop root.length) else .absolute path

/-- The path that a recorded one stands for: `repo_path` of it, unless it is absolute. -/
def ManifestPath.locate (root : Path) : ManifestPath → Path
  | .relative parts => root ++ parts
  | .absolute parts => parts

/-- An entry of the manifest for a region. -/
structure RegionEntry where
  name : String
  base : Nat
  size : Nat
  used : Nat
  storedWords : Nat
  file : ManifestPath
  sha256 : Text
  deriving DecidableEq, Repr

/-- An entry of the manifest for a bank. -/
structure BankEntry where
  name : String
  file : ManifestPath
  size : Nat
  storedWords : Nat
  sha256 : Text
  deriving DecidableEq, Repr

/-- An entry of the manifest for a segment. -/
structure Placement where
  region : String
  address : Nat
  fileSize : Nat
  memorySize : Nat
  flags : Nat
  deriving DecidableEq, Repr

/-- The entry `isa`. -/
structure Isa where
  xlen : Nat
  march : String
  mabi : String
  deriving DecidableEq, Repr

/-- The entry `test_status`. -/
structure TestStatus where
  base : Nat
  passMagic : String
  failMagic : String
  deriving DecidableEq, Repr

/-- The manifest of an image. -/
structure Manifest where
  profile : String
  elfPath : ManifestPath
  elfSha256 : Text
  entry : Nat
  regions : List RegionEntry
  segments : List Placement
  banks : List BankEntry
  isa : Option Isa
  testStatus : Option TestStatus
  memoryMapSha256 : Option Text
  deriving DecidableEq, Repr

/-- What a file holds: bytes, or a document that is written and read as JSON. -/
inductive Content where
  | bytes (b : List (BitVec 8))
  | json (m : Manifest)
  deriving DecidableEq

/-- A text file, as bytes of ASCII. -/
def Content.text (t : Text) : Content := .bytes (t.map fun c => BitVec.ofNat 8 c.toNat)

/-- The files that exist. -/
abbrev Files := Path → Option Content

/-- A file with a new content. -/
def Files.write (fs : Files) (path : Path) (c : Content) : Files := fun p => if p = path then some c else fs p

/-- An exception: a `ValueError` with its message, or any other. -/
inductive Raised where
  | value (message : String)
  | other
  deriving DecidableEq, Repr

/-- The host that the scripts run on: where the repository is, the digest of a file, and the bytes of a JSON document. -/
structure Host where
  root : Path
  sha256 : Content → Text
  dump : Manifest → List (BitVec 8)

/-- The scripts over the files. -/
abbrev FileScript := Script Files Raised

/-- Write a file. -/
def write (path : Path) (c : Content) : FileScript Unit := Script.modify fun fs => fs.write path c

/-- `path.read_bytes()`. -/
def readBytes (h : Host) (path : Path) : FileScript (List (BitVec 8)) := Script.read fun fs => match fs path with
  | none => .error .other
  | some (.bytes b) => .ok b
  | some (.json m) => .ok (h.dump m)

/-- `sha256_file`. -/
def sha256File (h : Host) (path : Path) : FileScript Text := Script.read fun fs => match fs path with
  | none => .error .other
  | some c => .ok (h.sha256 c)

/-- A computation whose errors are `ValueError`s. -/
def checked {α : Type} (r : Except String α) : FileScript α := Script.read fun _ => r.mapError .value

/-! ## The conversion -/

/-- A region with the path of its file. -/
structure RegionFile where
  region : Region
  output : Path

/-- The arguments of `convert` behind the regions, the contract by what is read of it. -/
structure Arguments where
  profile : String := "unspecified"
  contract : Option (Isa × String × String) := none
  memoryMapHash : Option Text := none
  testStatusBase : Option Nat := none
  trim : Bool := false
  codeBankLow : Option Path := none
  codeBankHigh : Option Path := none
  iccmLanes : List Path := []
  dccmBanks : List Path := []

/-- What the arguments ask for. -/
def Arguments.options (o : Arguments) : Options where
  trim := o.trim
  codeBankLow := o.codeBankLow.isSome
  codeBankHigh := o.codeBankHigh.isSome
  iccmLanes := o.iccmLanes.length
  dccmBanks := o.dccmBanks.length

variable (h : Host)

/-- One round of the loop over the regions: its file, and the entry for it. -/
def writeRegion (trim : Bool) (r : Region) (output : Path) : FileScript RegionEntry := do
  write output (.text (r.wordMem trim))
  let digest ← sha256File h output
  return {
    name := r.name
    base := r.base
    size := r.size
    used := r.usedEnd
    storedWords := (r.written trim).storedWords
    file := manifestPath h.root output
    sha256 := digest }

/-- The entry of an instruction bank. -/
def codeBankEntry (r : Region) (name : String) (output : Path) (digest : Text) : BankEntry where
  name := name
  file := manifestPath h.root output
  size := r.size / 2
  storedWords := r.size / 8
  sha256 := digest

/-- `write_instruction_banks`. -/
def instructionBankFiles (r : Region) (low high : Path) : FileScript (List BankEntry) := do
  let texts ← checked (writeInstructionBanks r)
  write low (.text texts.1)
  write high (.text texts.2)
  let lowDigest ← sha256File h low
  let highDigest ← sha256File h high
  return [codeBankEntry h r "CODE_LO" low lowDigest, codeBankEntry h r "CODE_HI" high highDigest]

/-- One round of the loop over the banks. -/
def writeBank (r : Region) (bankCount : Nat) (namePrefix : String) (bank : Nat) (output : Path) (text : Text) :
    FileScript BankEntry := do
  write output (.text text)
  let digest ← sha256File h output
  return {
    name := namePrefix ++ toString bank
    file := manifestPath h.root output
    size := r.size / bankCount
    storedWords := r.size / (4 * bankCount)
    sha256 := digest }

/-- `write_interleaved_banks`. -/
def interleavedBankFiles (r : Region) (outputs : List Path) (namePrefix : String) : FileScript (List BankEntry) := do
  let texts ← checked (writeInterleavedBanks r outputs.length)
  (outputs.zip texts).zipIdx.mapM fun p => writeBank h r outputs.length namePrefix p.2 p.1.1 p.1.2

/-- The instruction banks, if they are asked for. -/
def codeBankFiles (regions : List Region) (o : Arguments) : FileScript (List BankEntry) :=
  match o.codeBankLow, o.codeBankHigh with
  | none, none => pure []
  | some low, some high => match regions.find? (·.name == "CODE") with
    | none => Script.raise (.value "CODE region is required for instruction bank generation")
    | some r => instructionBankFiles h r low high
  | _, _ => Script.raise (.value "both instruction bank output paths are required")

/-- The banks of a region, if files are asked for: exactly `expected` of them. -/
def bankFiles (regions : List Region) (name namePrefix : String) (outputs : List Path) (expected : Nat)
    (few missing : String) : FileScript (List BankEntry) :=
  if outputs = [] then pure []
  else if outputs.length ≠ expected then Script.raise (.value few)
  else match regions.find? (·.name == name) with
    | none => Script.raise (.value missing)
    | some r => interleavedBankFiles h r outputs namePrefix

/-- The entry of a segment: the region that contains it. -/
def placement (regions : List Region) (s : Segment) : Placement where
  region := ((regions.find? (·.contains s.address s.memorySize)).map (·.name)).getD ""
  address := s.address
  fileSize := s.data.length
  memorySize := s.memorySize
  flags := s.flags

/-- The entries for a contract; the base of the test status is formatted as a number. -/
def contractEntries (o : Arguments) : Except Raised (Option Isa × Option TestStatus) :=
  match o.contract, o.testStatusBase with
  | none, _ => .ok (none, none)
  | some _, none => .error .other
  | some (isa, pass, fail), some base => .ok (some isa, some ⟨base, pass, fail⟩)

/-- The manifest, behind all the files. -/
def writeManifest (elf manifest : Path) (o : Arguments) (entry : Nat) (regions : List RegionEntry)
    (segments : List Placement) (banks : List BankEntry) : FileScript Unit := do
  let digest ← sha256File h elf
  let entries ← Script.read fun _ => contractEntries o
  write manifest (.json {
    profile := o.profile
    elfPath := manifestPath h.root elf
    elfSha256 := digest
    entry := entry
    regions := regions
    segments := segments
    banks := banks
    isa := entries.1
    testStatus := entries.2
    memoryMapSha256 := o.memoryMapHash })

/-- The flat files, the banks and the manifest of the placed regions. -/
def writeImage (elf manifest : Path) (o : Arguments) (entry : Nat) (segments : List Placement)
    (placed : List (Region × Path)) : FileScript Unit := do
  let regions ← placed.mapM fun p => writeRegion h o.trim p.1 p.2
  let written := placed.map fun p => p.1.written o.trim
  let codeBanks ← codeBankFiles h written o
  let lanes ← bankFiles h written "CODE" "ICCM_LANE" o.iccmLanes 4 "exactly four --iccm-lane outputs are required"
    "CODE region is required for ICCM lane generation"
  let banks ← bankFiles h written "DATA" "DCCM_BANK" o.dccmBanks 8 "exactly eight --dccm-bank outputs are required"
    "DATA region is required for DCCM bank generation"
  writeManifest h elf manifest o entry regions segments (codeBanks ++ lanes ++ banks)

/-- `convert` on files. -/
def convertFiles (elf : Path) (regions : List RegionFile) (manifest : Path) (o : Arguments) : FileScript Unit := do
  let blob ← readBytes h elf
  let parsed ← checked (parseElf32Little blob)
  let placed ← checked (parsed.2.foldlM placeSegment (regions.map (·.region)))
  let segments := parsed.2.map (placement (regions.map (·.region)))
  writeImage h elf manifest o parsed.1 segments (placed.zip (regions.map (·.output)))

end Elf2Mem

end SocRV
