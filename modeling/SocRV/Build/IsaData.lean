import Mathlib.Algebra.Group.Nat.Defs
import SocRV.Build.ImageFiles

/-!
# The ISA dataset

`build_test` and `replace_dataset` of `scripts/generate_isa_data.py`, which build a test in a staging directory and copy
the dataset to `data/isa`, and `check_manifest` of `scripts/check_images.py`.
-/

namespace SocRV

namespace IsaData

open Elf2Mem Script

/-- What is read of `memory_map.json`: the base and size of a region. -/
structure MapDocument where
  region : String → Option (Nat × Nat)

/-- What is read of `software_contract.json`: its ISA, the magic numbers of the test status and the offset of the status
register of `SYSCTRL`. -/
structure ContractDocument where
  isa : Isa
  passMagic : String
  failMagic : String
  statusOffset : Nat

/-- The tools that a test is built with, as they answer on the given files: the ELF file and the link map of the compiler,
and the disassembly. -/
structure Toolchain where
  gcc : Files → (suite name march mabi : String) → Option (List (BitVec 8) × List (BitVec 8))
  objdump : Content → Option (List (BitVec 8))

/-- What `build_test` returns, the paths by their parts. -/
structure TestEntry where
  suite : String
  name : String
  march : String
  mabi : String
  source : List String
  sourceSha256 : Text
  elf : List String
  elfSha256 : Text
  imageManifest : List String

variable (h : Host)

/-- `repo_path`. -/
def repoPath (parts : List String) : Path := h.root ++ parts

/-- An entry of a dictionary, or a `KeyError`. -/
def required {α : Type} (r : Option α) : FileScript α := Script.read fun _ => match r with
  | none => .error .other
  | some a => .ok a

/-- `Region.parse` of the text that names a region of the map and its file; a region has no size 0. -/
def parseRegion (m : MapDocument) (name : String) (output : Path) : FileScript RegionFile := do
  let place ← required (m.region name)
  if place.2 = 0 then Script.raise .other
  else return ⟨Region.fresh name place.1 place.2, output⟩

/-- `read_json` of a manifest. -/
def readJson (path : Path) : FileScript Manifest := Script.read fun fs => match fs path with
  | some (.json m) => .ok m
  | some (.bytes _) => .error (.value "manifest root must be an object")
  | none => .error .other

/-- `Path(...).name`. -/
def baseName : ManifestPath → String
  | .relative parts => parts.getLast?.getD ""
  | .absolute parts => parts.getLast?.getD ""

/-- The changes that `build_test` makes in the manifest. -/
def rewriteManifest (suite name march mabi : String) (m : Manifest) (isa : Isa) : Manifest :=
  { m with
    isa := some { isa with march := march, mabi := mabi }
    elfPath := .relative ["data", "isa", suite, name, "firmware.elf"]
    regions := m.regions.map fun r => { r with file := .relative ["data", "isa", suite, name, baseName r.file] } }

/-- The ELF file of a test, compiled and disassembled. -/
def compile (t : Toolchain) (suite name march mabi : String) (output : Path) : FileScript Unit := do
  let built ← Script.read fun fs => match t.gcc fs suite name march mabi with
    | none => .error .other
    | some files => .ok files
  write (output ++ ["firmware.map"]) (.bytes built.2)
  write (output ++ ["firmware.elf"]) (.bytes built.1)
  let disassembly ← required (t.objdump (.bytes built.1))
  write (output ++ ["firmware.dis"]) (.bytes disassembly)

/-- The arguments that `build_test` calls `convert` with. -/
def testArguments (suite name : String) (output : Path) (k : ContractDocument) (memoryMapHash : Text)
    (testStatusBase : Nat) : Arguments where
  profile := "riscv-tests/" ++ suite ++ "/" ++ name
  contract := some (k.isa, k.passMagic, k.failMagic)
  memoryMapHash := some memoryMapHash
  testStatusBase := some testStatusBase
  trim := true
  iccmLanes := ["iccm_lane0.mem", "iccm_lane1.mem", "iccm_lane2.mem", "iccm_lane3.mem"].map fun file => output ++ [file]
  dccmBanks := ["dccm_bank0.mem", "dccm_bank1.mem", "dccm_bank2.mem", "dccm_bank3.mem", "dccm_bank4.mem",
    "dccm_bank5.mem", "dccm_bank6.mem", "dccm_bank7.mem"].map fun file => output ++ [file]

/-- `build_test`. -/
def buildTest (t : Toolchain) (suite name : String) (output : Path) (march mabi : String) (m : MapDocument)
    (k : ContractDocument) (memoryMapHash : Text) : FileScript TestEntry := do
  let sourceParts := ["software", "riscv-tests", "upstream", "isa", suite, name ++ ".S"]
  let elf := output ++ ["firmware.elf"]
  let imageManifest := output ++ ["image.json"]
  let _ ← sha256File h (repoPath h sourceParts)
  if ¬ h.root <+: elf then Script.raise (.value "the output is not in the subpath of the repository")
  else do
    compile t suite name march mabi output
    let code ← parseRegion m "CODE" (output ++ ["code.mem"])
    let data ← parseRegion m "DATA" (output ++ ["data.mem"])
    let sysctrl ← required (m.region "SYSCTRL")
    convertFiles h elf [code, data] imageManifest
      (testArguments suite name output k memoryMapHash (sysctrl.1 + k.statusOffset))
    let document ← readJson imageManifest
    let isa ← required document.isa
    write imageManifest (.json (rewriteManifest suite name march mabi document isa))
    let sourceDigest ← sha256File h (repoPath h sourceParts)
    let elfDigest ← sha256File h elf
    return {
      suite := suite
      name := name
      march := march
      mabi := mabi
      source := sourceParts
      sourceSha256 := sourceDigest
      elf := elf.drop (output.length - 2)
      elfSha256 := elfDigest
      imageManifest := imageManifest.drop (output.length - 2) }

/-! ## Installation -/

/-- The staging directory of `generate`. -/
def staging : Path := repoPath h ["build", "isa-data", "generated"]

/-- `DESTINATION`. -/
def destination : Path := repoPath h ["data", "isa"]

/-- The files with the directory removed. -/
def removeTree (dir : Path) (fs : Files) : Files := fun p => if dir <+: p then none else fs p

/-- The files with one directory copied to the place of another. -/
def copyTree (source target : Path) (fs : Files) : Files := fun p =>
  if target <+: p then fs (source ++ p.drop target.length) else fs p

/-- Where `replace_dataset` preserves the dataset that is there. -/
def backup (fs : Files) : Path :=
  let digest := match fs (destination h ++ ["manifest.json"]) with
    | some c => String.ofList ((h.sha256 c).take 12)
    | none => "unmanifested"
  repoPath h ["build", "quarantine", "data-isa-" ++ digest]

/-- `replace_dataset` of the staging directory.  The dataset that is there is moved to its backup, or removed when there is
a backup of it already. -/
def replaceDataset (hasBackup : Bool) (fs : Files) : Files :=
  let kept := if hasBackup then fs else copyTree (destination h) (backup h fs) fs
  copyTree (staging h) (destination h) (removeTree (destination h) kept)

/-- The files after the installation, with the staging directory removed. -/
def installed (hasBackup : Bool) (fs : Files) : Files := removeTree (staging h) (replaceDataset h hasBackup fs)

/-! ## The check -/

/-- A path as text. -/
def pathText (path : Path) : String := "/" ++ "/".intercalate path

/-- The check of a recorded file: it exists and has the recorded digest. -/
def checkFile (fs : Files) (kind : String) (file : ManifestPath × Text) : Except Raised Unit :=
  let path := file.1.locate h.root
  let mismatch := Raised.value (kind ++ " hash mismatch: " ++ pathText path)
  match fs path with
  | none => .error mismatch
  | some c => if h.sha256 c ≠ file.2 then .error mismatch else .ok ()

/-- The check of the place of a region. -/
def checkRegion (m : MapDocument) (r : RegionEntry) : Except Raised Unit :=
  match m.region r.name with
  | none => .error (.value ("image contains unknown region: " ++ r.name))
  | some place =>
    if r.base ≠ place.1 ∨ r.size ≠ place.2 then
      .error (.value ("image region " ++ r.name ++ " does not match the current map"))
    else .ok ()

/-- The file of a region, as it is recorded. -/
def regionFile (r : RegionEntry) : ManifestPath × Text := (r.file, r.sha256)

/-- The file of a bank, as it is recorded. -/
def bankFile (b : BankEntry) : ManifestPath × Text := (b.file, b.sha256)

/-- `check_manifest`, with the validation by the schema as `valid`. -/
def checkManifest (valid : Manifest → Bool) (m : MapDocument) (k : ContractDocument) (path : Path) (fs : Files) :
    Except Raised Unit := do
  let document ← (readJson path fs).1
  if !valid document then .error .other
  else
    let expectedMapHash ← (sha256File h (repoPath h ["data", "soc", "memory_map.json"]) fs).1
    if document.memoryMapSha256 ≠ some expectedMapHash then
      .error (.value ("image uses a stale memory map: " ++ pathText path ++ "; rebuild the profile"))
    else
      document.regions.forM (checkRegion m)
      let sysctrl ← (required (m.region "SYSCTRL") fs).1
      let status ← (required document.testStatus fs).1
      if status.base ≠ sysctrl.1 + k.statusOffset then
        .error (.value ("image test-status address is stale: " ++ pathText path ++ "; rebuild the profile"))
      else
        checkFile h fs "ELF" (document.elfPath, document.elfSha256)
        (document.regions.map regionFile).forM (checkFile h fs "region")
        (document.banks.map bankFile).forM (checkFile h fs "bank")

end IsaData

end SocRV
