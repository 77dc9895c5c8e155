import Mathlib.Algebra.Group.Nat.Defs
import SocRV.Build.ImageFiles
import SocRV.Lib.Checked

/-!
# What the conversion writes

The stages of the conversion on files: which of them return, which raise a `ValueError`, and that a file once written stays
a written one.
-/

namespace SocRV

namespace Elf2Mem

open Script

variable (h : Host)

/-- The exception is a `ValueError`. -/
def Raised.IsValue : Raised → Prop
  | .value _ => True
  | .other => False

/-! ## Writing and reading -/

@[simp] theorem Files.write_self (fs : Files) (path : Path) (c : Content) : fs.write path c path = some c := if_pos rfl

/-- Writing a file leaves the others. -/
theorem Files.write_of_ne {path p : Path} (fs : Files) (c : Content) (hne : p ≠ path) : fs.write path c p = fs p :=
  if_neg hne

/-- A file that exists has a digest. -/
theorem sha256File_of_some {fs : Files} {path : Path} {c : Content} (hc : fs path = some c) :
    sha256File h path fs = (.ok (h.sha256 c), fs) := by
  unfold sha256File Script.read
  dsimp only
  rw [hc]

/-- Hashing a file that is missing raises an error other than a `ValueError`. -/
theorem sha256File_of_none {fs : Files} {path : Path} (hc : fs path = none) :
    sha256File h path fs = (.error .other, fs) := by
  unfold sha256File Script.read
  dsimp only
  rw [hc]

/-- A file just written is hashed as what was written. -/
theorem sha256File_write (fs : Files) (path : Path) (c : Content) :
    sha256File h path (fs.write path c) = (.ok (h.sha256 c), fs.write path c) :=
  sha256File_of_some h (fs.write_self path c)

/-- Hashing a file raises no `ValueError`. -/
theorem sha256File_avoids (path : Path) : Avoids Raised.IsValue (sha256File h path) := by
  intro fs e t he
  cases hc : fs path with
  | none =>
    rw [sha256File_of_none h hc] at he
    cases he
    exact id
  | some c =>
    rw [sha256File_of_some h hc] at he
    cases congrArg Prod.fst he

/-- The file of a region and its entry. -/
theorem writeRegion_eq (trim : Bool) (r : Region) (output : Path) (fs : Files) :
    ∃ e : RegionEntry, e.file = manifestPath h.root output ∧
      writeRegion h trim r output fs = (.ok e, fs.write output (.text (r.wordMem trim))) := by
  have hwrite : write output (.text (r.wordMem trim)) fs = (.ok (), fs.write output (.text (r.wordMem trim))) := rfl
  rw [writeRegion, bind_ok hwrite, bind_ok (sha256File_write h fs output _)]
  exact ⟨_, rfl, rfl⟩

/-- The file of a bank and its entry. -/
theorem writeBank_eq (r : Region) (bankCount : Nat) (namePrefix : String) (bank : Nat) (output : Path) (text : Text)
    (fs : Files) : ∃ e : BankEntry, e.file = manifestPath h.root output ∧
      writeBank h r bankCount namePrefix bank output text fs = (.ok e, fs.write output (.text text)) := by
  have hwrite : write output (.text text) fs = (.ok (), fs.write output (.text text)) := rfl
  rw [writeBank, bind_ok hwrite, bind_ok (sha256File_write h fs output _)]
  exact ⟨_, rfl, rfl⟩

/-! ## The regions by name -/

/-- The size of the first region of a name. -/
def regionSize (rs : List Region) (name : String) : Option Nat := (rs.find? (·.name == name)).map (·.size)

/-- A map that keeps names and sizes keeps the size found under a name. -/
theorem regionSize_map {g : Region → Region} (hname : ∀ r, (g r).name = r.name) (hsize : ∀ r, (g r).size = r.size)
    (rs : List Region) (name : String) : regionSize (rs.map g) name = regionSize rs name := by
  have hcomp : (fun r : Region => r.name == name) ∘ g = fun r => r.name == name := by
    funext r
    rw [Function.comp_apply, hname]
  rw [regionSize, regionSize, List.find?_map, hcomp, Option.map_map]
  congr 1
  funext r
  exact hsize r

/-- A size found under a name is that of the first region so named. -/
theorem of_regionSize {rs : List Region} {name : String} {n : Nat} (hn : regionSize rs name = some n) :
    ∃ r, rs.find? (·.name == name) = some r ∧ r.name = name ∧ r.size = n := by
  obtain ⟨r, hr, rfl⟩ := Option.map_eq_some_iff.mp hn
  exact ⟨r, hr, by simpa using List.find?_some hr, rfl⟩

/-- Placing keeps the number of the regions, and their names and sizes. -/
theorem placed_sizes {ss : List Segment} {rs rs' : List Region} (hp : ss.foldlM placeSegment rs = .ok rs') :
    rs'.length = rs.length ∧ ∀ name, regionSize rs' name = regionSize rs name := by
  refine foldlM_keeps (P := fun q => q.length = rs.length ∧ ∀ name, regionSize q name = regionSize rs name) ?_ hp
    ⟨rfl, fun _ => rfl⟩
  rintro q s - q' ⟨hlen, hsizes⟩ hs
  obtain ⟨-, hs⟩ := ok_of_check hs
  cases hs
  refine ⟨(List.length_map ..).trans hlen, fun name => ?_⟩
  rw [regionSize_map, hsizes]
  · intro r
    by_cases hc : r.contains s.address s.memorySize = true
    · rw [if_pos hc]
      rfl
    · rw [if_neg hc]
  · intro r
    by_cases hc : r.contains s.address s.memorySize = true
    · rw [if_pos hc]
      rfl
    · rw [if_neg hc]

/-! ## The options -/

/-- The instruction banks are not asked for, or both, of a region that they split. -/
def CodeBanksFit (rs : List Region) (o : Arguments) : Prop :=
  o.codeBankLow.isSome = o.codeBankHigh.isSome ∧
    (o.codeBankLow.isSome = true → ∃ n, regionSize rs "CODE" = some n ∧ n % 8 = 0)

/-- The banks are not asked for, or as many as expected, of a region that they split. -/
def BanksFit (rs : List Region) (name : String) (outputs : List Path) (expected : Nat) : Prop :=
  outputs = [] ∨ outputs.length = expected ∧ ∃ n, regionSize rs name = some n ∧ n % (4 * expected) = 0

/-- The options fit the regions. -/
structure Fits (rs : List Region) (o : Arguments) : Prop where
  code : CodeBanksFit rs o
  lanes : BanksFit rs "CODE" o.iccmLanes 4
  banks : BanksFit rs "DATA" o.dccmBanks 8

variable {rs : List Region} {o : Arguments}

/-- A check that succeeds goes on with its value and the files it found. -/
theorem checked_ok {α : Type} {r : Except String α} {a : α} (hr : r = .ok a) (fs : Files) :
    checked r fs = (.ok a, fs) := by
  rw [hr]
  rfl

/-- A check that fails raises a `ValueError` and leaves the files. -/
theorem checked_error {α : Type} {r : Except String α} {msg : String} (hr : r = .error msg) (fs : Files) :
    checked r fs = (.error (.value msg), fs) := by
  rw [hr]
  rfl

theorem write_eq (path : Path) (c : Content) (fs : Files) : write path c fs = (.ok (), fs.write path c) := rfl

/-- A file that was written before another is still there. -/
theorem Files.write_write (fs : Files) (path path' : Path) (c c' : Content) :
    ∃ d, (fs.write path c).write path' c' path = some d := by
  by_cases hp : path = path'
  · rw [hp, Files.write_self]
    exact ⟨_, rfl⟩
  · rw [Files.write_of_ne _ _ hp, Files.write_self]
    exact ⟨_, rfl⟩

/-- The instruction banks are written whenever the region splits. -/
theorem instructionBankFiles_succeeds {r : Region} {texts : Text × Text} (low high : Path)
    (hr : writeInstructionBanks r = .ok texts) : Succeeds (instructionBankFiles h r low high) := by
  intro fs
  obtain ⟨d, hd⟩ := fs.write_write low high (.text texts.1) (.text texts.2)
  rw [instructionBankFiles, bind_ok (checked_ok hr fs), bind_ok (write_eq low _ fs), bind_ok (write_eq high _ _),
    bind_ok (sha256File_of_some h hd), bind_ok (sha256File_write h _ high _)]
  exact ⟨_, _, rfl⟩

/-- The interleaved banks are written whenever the region splits. -/
theorem interleavedBankFiles_succeeds {r : Region} {texts : List Text} {outputs : List Path} (namePrefix : String)
    (hr : writeInterleavedBanks r outputs.length = .ok texts) :
    Succeeds (interleavedBankFiles h r outputs namePrefix) := by
  intro fs
  rw [interleavedBankFiles, bind_ok (checked_ok hr fs)]
  refine Succeeds.mapM (fun p _ => ?_) fs
  intro fs'
  obtain ⟨e, -, he⟩ := writeBank_eq h r outputs.length namePrefix p.2 p.1.1 p.1.2 fs'
  exact ⟨e, _, he⟩

/-- A raised message is a `ValueError`. -/
theorem raises_raise {α : Type} (msg : String) : Raises Raised.IsValue (raise (.value msg) : FileScript α) :=
  fun fs => ⟨_, fs, rfl, trivial⟩

/-- A script raises a `ValueError` when its first check fails. -/
theorem raises_checked {α β : Type} {r : Except String α} {msg : String} (f : α → FileScript β) (hr : r = .error msg) :
    Raises Raised.IsValue (checked r >>= f) := Raises.bind fun fs => ⟨_, fs, checked_error hr fs, trivial⟩

/-- The instruction banks are written when they fit. -/
theorem codeBankFiles_succeeds (hfit : CodeBanksFit rs o) : Succeeds (codeBankFiles h rs o) := by
  obtain ⟨hpair, hcode⟩ := hfit
  unfold codeBankFiles
  cases hl : o.codeBankLow with
  | none =>
    rw [hl] at hpair
    rw [Option.isSome_eq_false_iff.mp hpair.symm |> Option.isNone_iff_eq_none.mp]
    exact Succeeds.pure _
  | some low =>
    rw [hl] at hpair hcode
    obtain ⟨high, hhigh⟩ := Option.isSome_iff_exists.mp hpair.symm
    obtain ⟨n, hn, hmod⟩ := hcode rfl
    obtain ⟨r, hr, hname, hsize⟩ := of_regionSize hn
    rw [hhigh]
    simp only [hr]
    have htexts : ∃ texts, writeInstructionBanks r = .ok texts := by
      rw [writeInstructionBanks, if_neg (not_not.mpr hname), hsize, if_neg (not_not.mpr hmod)]
      exact ⟨_, rfl⟩
    exact instructionBankFiles_succeeds h low high htexts.choose_spec

/-- Instruction banks that do not fit are refused. -/
theorem codeBankFiles_raises (hfit : ¬ CodeBanksFit rs o) : Raises Raised.IsValue (codeBankFiles h rs o) := by
  unfold codeBankFiles
  cases hl : o.codeBankLow with
  | none =>
    cases hh : o.codeBankHigh with
    | none =>
      refine absurd ⟨by rw [hl, hh], fun hsome => ?_⟩ hfit
      rw [hl] at hsome
      cases hsome
    | some high => exact raises_raise _
  | some low =>
    cases hh : o.codeBankHigh with
    | none => exact raises_raise _
    | some high =>
      dsimp only
      cases hr : rs.find? (·.name == "CODE") with
      | none => exact raises_raise _
      | some r =>
        have hname : r.name = "CODE" := by simpa using List.find?_some hr
        have hmod : r.size % 8 ≠ 0 := by
          intro hmod
          refine hfit ⟨by rw [hl, hh]; rfl, fun _ => ⟨r.size, ?_, hmod⟩⟩
          rw [regionSize, hr, Option.map_some]
        have herror : writeInstructionBanks r = .error "CODE region must be a multiple of one 64-bit fetch word" := by
          rw [writeInstructionBanks, if_neg (not_not.mpr hname), if_pos hmod]
        exact raises_checked _ herror

section Banks

variable {name namePrefix few missing : String} {outputs : List Path} {expected : Nat}

/-- The banks are written when they fit. -/
theorem bankFiles_succeeds (hpos : 0 < expected) (hfit : BanksFit rs name outputs expected) :
    Succeeds (bankFiles h rs name namePrefix outputs expected few missing) := by
  unfold bankFiles
  rcases hfit with hnil | ⟨hlen, n, hn, hmod⟩
  · rw [if_pos hnil]
    exact Succeeds.pure _
  · obtain ⟨r, hr, -, hsize⟩ := of_regionSize hn
    have hne : outputs ≠ [] := by
      rintro rfl
      rw [List.length_nil] at hlen
      omega
    rw [if_neg hne, if_neg (not_not.mpr hlen)]
    simp only [hr]
    refine interleavedBankFiles_succeeds h namePrefix (if_neg ?_)
    rw [hlen, hsize]
    omega

/-- Banks that do not fit are refused. -/
theorem bankFiles_raises (hfit : ¬ BanksFit rs name outputs expected) :
    Raises Raised.IsValue (bankFiles h rs name namePrefix outputs expected few missing) := by
  unfold bankFiles
  have hne : outputs ≠ [] := fun hnil => hfit (.inl hnil)
  rw [if_neg hne]
  by_cases hlen : outputs.length ≠ expected
  · rw [if_pos hlen]
    exact raises_raise _
  · rw [if_neg hlen]
    rw [not_not] at hlen
    cases hr : rs.find? (·.name == name) with
    | none => exact raises_raise _
    | some r =>
      refine raises_checked _ (if_pos (.inr fun hmod => hfit (.inr ⟨hlen, r.size, ?_, ?_⟩)))
      · rw [regionSize, hr, Option.map_some]
      · rw [← hlen]
        exact hmod

/-- The banks of the conversion without files. -/
theorem writeBanks_iff (hpos : 0 < expected) (few missing : String) :
    (∃ texts, writeBanks rs name outputs.length expected few missing = .ok texts) ↔
      BanksFit rs name outputs expected := by
  unfold writeBanks
  by_cases hnil : outputs = []
  · rw [if_pos (by rw [hnil]; rfl)]
    exact ⟨fun _ => .inl hnil, fun _ => ⟨_, rfl⟩⟩
  · rw [if_neg (mt List.length_eq_zero_iff.mp hnil)]
    constructor
    · rintro ⟨texts, htexts⟩
      obtain ⟨hlen, htexts⟩ := ok_of_check htexts
      rw [not_not] at hlen
      cases hr : rs.find? (·.name == name) with
      | none =>
        rw [hr] at htexts
        cases htexts
      | some r =>
        rw [hr] at htexts
        obtain ⟨hmod, -⟩ := ok_of_check htexts
        rw [hlen] at hmod
        refine .inr ⟨hlen, r.size, ?_, by omega⟩
        rw [regionSize, hr, Option.map_some]
    · rintro (h | ⟨hlen, n, hn, hmod⟩)
      · exact absurd h hnil
      · obtain ⟨r, hr, -, hsize⟩ := of_regionSize hn
        rw [if_neg (not_not.mpr hlen), hr]
        refine ⟨_, if_neg ?_⟩
        rw [hlen, hsize]
        omega

end Banks

/-- The instruction banks of the conversion without files. -/
theorem writeCodeBanks_iff : (∃ texts, writeCodeBanks rs o.options = .ok texts) ↔ CodeBanksFit rs o := by
  unfold writeCodeBanks CodeBanksFit
  constructor
  · rintro ⟨texts, htexts⟩
    obtain ⟨hpair, htexts⟩ := ok_of_check htexts
    refine ⟨not_not.mp hpair, fun hlow => ?_⟩
    have hasked : o.options.codeBankLow = true := hlow
    rw [if_pos hasked] at htexts
    cases hr : rs.find? (·.name == "CODE") with
    | none =>
      rw [hr] at htexts
      cases htexts
    | some r =>
      rw [hr] at htexts
      dsimp only at htexts
      refine ⟨r.size, by rw [regionSize, hr, Option.map_some], ?_⟩
      by_contra hmod
      have hname : r.name = "CODE" := by simpa using List.find?_some hr
      rw [writeInstructionBanks, if_neg (not_not.mpr hname), if_pos hmod] at htexts
      cases htexts
  · rintro ⟨hpair, hcode⟩
    have hpaired : o.options.codeBankLow = o.options.codeBankHigh := hpair
    rw [if_neg (not_not.mpr hpaired)]
    by_cases hlow : o.options.codeBankLow = true
    · obtain ⟨n, hn, hmod⟩ := hcode hlow
      obtain ⟨r, hr, hname, hsize⟩ := of_regionSize hn
      rw [if_pos hlow, hr]
      dsimp only
      rw [writeInstructionBanks, if_neg (not_not.mpr hname), hsize, if_neg (not_not.mpr hmod)]
      exact ⟨_, rfl⟩
    · rw [if_neg hlow]
      exact ⟨_, rfl⟩

/-! ## The whole conversion -/

/-- The words of the regions are always written. -/
theorem writeRegions_succeeds (trim : Bool) (placed : List (Region × Path)) :
    Succeeds (placed.mapM fun p => writeRegion h trim p.1 p.2) := by
  refine Succeeds.mapM fun p _ fs => ?_
  obtain ⟨e, -, he⟩ := writeRegion_eq h trim p.1 p.2 fs
  exact ⟨e, _, he⟩

/-- The manifest is written without a `ValueError`. -/
theorem writeManifest_avoids (elf manifest : Path) (o : Arguments) (entry : Nat) (regions : List RegionEntry)
    (segments : List Placement) (banks : List BankEntry) :
    Avoids Raised.IsValue (writeManifest h elf manifest o entry regions segments banks) := by
  refine (sha256File_avoids h elf).bind fun digest => Avoids.bind ?_ fun entries => (Succeeds.modify _).avoids
  intro fs e t he
  unfold Script.read contractEntries at he
  split at he
  · cases congrArg Prod.fst he
  · cases he
    exact id
  · cases congrArg Prod.fst he

/-- Whether the options fit depends on the names and sizes of the regions only. -/
theorem Fits.of_sizes {rs' : List Region} (heq : ∀ name, regionSize rs' name = regionSize rs name) (hfit : Fits rs o) :
    Fits rs' o := by
  obtain ⟨hcode, hlanes, hbanks⟩ := hfit
  constructor
  · unfold CodeBanksFit
    rw [heq]
    exact hcode
  · unfold BanksFit
    rw [heq]
    exact hlanes
  · unfold BanksFit
    rw [heq]
    exact hbanks

section Image

variable (elf manifest : Path) (entry : Nat) (segments : List Placement) (placed : List (Region × Path))

/-- When the options fit, writing the image raises no `ValueError`. -/
theorem writeImage_avoids (hfit : Fits (placed.map fun p => p.1.written o.trim) o) :
    Avoids Raised.IsValue (writeImage h elf manifest o entry segments placed) := by
  refine (writeRegions_succeeds h o.trim placed).avoids.bind fun regions => ?_
  refine (codeBankFiles_succeeds h hfit.code).avoids.bind fun codeBanks => ?_
  refine (bankFiles_succeeds h (by decide) hfit.lanes).avoids.bind fun lanes => ?_
  refine (bankFiles_succeeds h (by decide) hfit.banks).avoids.bind fun banks => ?_
  exact writeManifest_avoids h elf manifest o entry regions segments _

/-- When they do not fit, it raises one, after the flat files. -/
theorem writeImage_raises (hfit : ¬ Fits (placed.map fun p => p.1.written o.trim) o) :
    Raises Raised.IsValue (writeImage h elf manifest o entry segments placed) := by
  refine Raises.behind (writeRegions_succeeds h o.trim placed) fun regions => ?_
  by_cases hcode : CodeBanksFit (placed.map fun p => p.1.written o.trim) o
  · refine Raises.behind (codeBankFiles_succeeds h hcode) fun codeBanks => ?_
    by_cases hlanes : BanksFit (placed.map fun p => p.1.written o.trim) "CODE" o.iccmLanes 4
    · refine Raises.behind (bankFiles_succeeds h (by decide) hlanes) fun lanes => ?_
      exact Raises.bind (bankFiles_raises h fun hbanks => hfit ⟨hcode, hlanes, hbanks⟩)
    · exact Raises.bind (bankFiles_raises h hlanes)
  · exact Raises.bind (codeBankFiles_raises h hcode)

end Image

/-! ## Files that were written -/

/-- The file is not what the given bytes are. -/
def Overwritten (path : Path) (b : List (BitVec 8)) (fs : Files) : Prop := ∃ c, fs path = some c ∧ c ≠ .bytes b

section Overwritten

variable {path : Path} {b : List (BitVec 8)}

/-- Writing other contents keeps a file overwritten. -/
theorem overwritten_write {path' : Path} {c : Content} (hc : c ≠ .bytes b) : Keeps (Overwritten path b) (write path' c) := by
  intro fs hfs
  rw [write_eq]
  by_cases hp : path = path'
  · exact ⟨c, by rw [hp]; exact fs.write_self path' c, hc⟩
  · obtain ⟨d, hd, hne⟩ := hfs
    exact ⟨d, (fs.write_of_ne c hp).trans hd, hne⟩

/-- A text of hexadecimal words is no ELF file. -/
theorem unlines_ne {ls : List Text} (hls : ∀ l ∈ ls, ∃ n, l = formatHex 8 n) (hb : 0x7f ∈ b) :
    Content.text (unlines ls) ≠ .bytes b := by
  intro heq
  rw [← Content.bytes.inj heq, List.mem_map] at hb
  obtain ⟨c, hc, hcode⟩ := hb
  obtain ⟨l, hl, hc⟩ := List.mem_flatMap.mp hc
  obtain ⟨n, rfl⟩ := hls l hl
  rcases List.mem_append.mp hc with hc | hc
  · obtain ⟨d, hd, rfl⟩ := mem_formatHex hc
    have hall : ∀ d < 16, BitVec.ofNat 8 (hexDigit d).toNat ≠ 0x7f := by decide
    exact hall d hd hcode
  · rw [List.mem_singleton.mp hc] at hcode
    exact absurd hcode (by decide)

theorem keeps_writeBank (r : Region) (bankCount : Nat) (namePrefix : String) (bank : Nat) (output : Path) {text : Text}
    (htext : Content.text text ≠ .bytes b) :
    Keeps (Overwritten path b) (writeBank h r bankCount namePrefix bank output text) :=
  (overwritten_write htext).bind fun _ => (Keeps.read _).bind fun _ => Keeps.pure _

/-- A check in front of a script changes nothing that the script keeps. -/
theorem keeps_checked_bind {α β : Type} {P : Files → Prop} {r : Except String α} {f : α → FileScript β}
    (hf : ∀ a, r = .ok a → Keeps P (f a)) : Keeps P (checked r >>= f) := by
  cases hr : r with
  | error msg =>
    intro fs hfs
    rw [bind_error (checked_error rfl fs)]
    exact hfs
  | ok a =>
    intro fs hfs
    rw [bind_ok (checked_ok rfl fs)]
    exact hf a hr fs hfs

theorem keeps_writeManifest (elf manifest : Path) (o : Arguments) (entry : Nat) (regions : List RegionEntry)
    (segments : List Placement) (banks : List BankEntry) :
    Keeps (Overwritten path b) (writeManifest h elf manifest o entry regions segments banks) :=
  (Keeps.read _).bind fun _ => (Keeps.read _).bind fun _ => overwritten_write (by simp)

variable (hb : 0x7f ∈ b)

include hb

/-- The words of a region are text, never the given bytes. -/
theorem wordMem_ne (r : Region) (trim : Bool) : Content.text (r.wordMem trim) ≠ .bytes b := by
  refine unlines_ne (fun l hl => ?_) hb
  obtain ⟨k, -, rfl⟩ := List.mem_map.mp hl
  exact ⟨_, rfl⟩

theorem keeps_writeRegion (trim : Bool) (r : Region) (output : Path) :
    Keeps (Overwritten path b) (writeRegion h trim r output) :=
  (overwritten_write (wordMem_ne hb r trim)).bind fun _ => (Keeps.read _).bind fun _ => Keeps.pure _

theorem keeps_instructionBankFiles (r : Region) (low high : Path) :
    Keeps (Overwritten path b) (instructionBankFiles h r low high) := by
  refine keeps_checked_bind fun texts htexts => ?_
  obtain ⟨-, htexts⟩ := ok_of_check htexts
  obtain ⟨-, htexts⟩ := ok_of_check htexts
  cases htexts
  have hlines : ∀ k, Content.text (unlines ((List.range (r.size / 8)).map fun i => r.wordLine (8 * i + k))) ≠ .bytes b := by
    intro k
    refine unlines_ne (fun l hl => ?_) hb
    obtain ⟨i, -, rfl⟩ := List.mem_map.mp hl
    exact ⟨_, rfl⟩
  refine (overwritten_write (hlines 0)).bind fun _ => ?_
  refine (overwritten_write (hlines 4)).bind fun _ => ?_
  exact (Keeps.read _).bind fun _ => (Keeps.read _).bind fun _ => Keeps.pure _

theorem keeps_interleavedBankFiles (r : Region) (outputs : List Path) (namePrefix : String) :
    Keeps (Overwritten path b) (interleavedBankFiles h r outputs namePrefix) := by
  refine keeps_checked_bind fun texts htexts => Keeps.mapM fun p hp => ?_
  obtain ⟨-, htexts⟩ := ok_of_check htexts
  cases htexts
  refine keeps_writeBank h _ _ _ _ _ ?_
  have hmem : p.1.2 ∈ (List.range outputs.length).map fun bank => unlines (bankWords r outputs.length bank) :=
    (List.of_mem_zip (List.fst_mem_of_mem_zipIdx hp)).2
  obtain ⟨bank, -, hbank⟩ := List.mem_map.mp hmem
  rw [← hbank]
  refine unlines_ne (fun l hl => ?_) hb
  obtain ⟨row, -, rfl⟩ := List.mem_map.mp hl
  exact ⟨_, rfl⟩

theorem keeps_codeBankFiles (rs : List Region) (o : Arguments) : Keeps (Overwritten path b) (codeBankFiles h rs o) := by
  unfold codeBankFiles
  split
  · exact Keeps.pure _
  · split
    · exact Keeps.raise _
    · exact keeps_instructionBankFiles h hb _ _ _
  · exact Keeps.raise _

theorem keeps_bankFiles (rs : List Region) (name namePrefix : String) (outputs : List Path) (expected : Nat)
    (few missing : String) :
    Keeps (Overwritten path b) (bankFiles h rs name namePrefix outputs expected few missing) := by
  unfold bankFiles
  split
  · exact Keeps.pure _
  · split
    · exact Keeps.raise _
    · split
      · exact Keeps.raise _
      · exact keeps_interleavedBankFiles h hb _ _ _

/-- The file of the first region is written, and written it stays. -/
theorem writeImage_overwrites (elf manifest : Path) (o : Arguments) (entry : Nat) (segments : List Placement) (r : Region)
    (placed : List (Region × Path)) :
    Ensures (Overwritten path b) (writeImage h elf manifest o entry segments ((r, path) :: placed)) := by
  have hfirst : Ensures (Overwritten path b) (writeRegion h o.trim r path) := by
    intro fs
    obtain ⟨e, -, he⟩ := writeRegion_eq h o.trim r path fs
    rw [he]
    exact ⟨_, fs.write_self _ _, wordMem_ne hb r o.trim⟩
  have hregions : Ensures (Overwritten path b) (((r, path) :: placed).mapM fun p => writeRegion h o.trim p.1 p.2) := by
    rw [List.mapM_cons]
    refine hfirst.bind fun _ => Keeps.bind (Keeps.mapM fun p _ => ?_) fun _ => Keeps.pure _
    exact keeps_writeRegion h hb o.trim p.1 p.2
  refine hregions.bind fun _ => (keeps_codeBankFiles h hb _ _).bind fun _ => ?_
  refine (keeps_bankFiles h hb _ _ _ _ _ _ _).bind fun _ => (keeps_bankFiles h hb _ _ _ _ _ _ _).bind fun _ => ?_
  exact keeps_writeManifest h _ _ _ _ _ _ _

end Overwritten

/-- An ELF file has the first byte of its magic number in it. -/
theorem mem_of_parseElf32Little {blob : List (BitVec 8)} {p : Nat × List Segment} (hp : parseElf32Little blob = .ok p) :
    0x7f ∈ blob := by
  obtain ⟨-, hp⟩ := ok_of_check hp
  obtain ⟨hmagic, -⟩ := ok_of_check hp
  rw [not_not] at hmagic
  have hmem : 0x7f ∈ slice (slice blob 0 16) 0 4 := by
    rw [show slice (slice blob 0 16) 0 4 = _ from hmagic]
    exact List.mem_cons_self ..
  exact List.mem_of_mem_drop (List.mem_of_mem_take (List.mem_of_mem_drop (List.mem_of_mem_take hmem)))

/-- An ELF file has a segment. -/
theorem segments_of_parseElf32Little {blob : List (BitVec 8)} {p : Nat × List Segment}
    (hp : parseElf32Little blob = .ok p) : p.2 ≠ [] := by
  obtain ⟨-, hp⟩ := ok_of_check hp
  obtain ⟨-, hp⟩ := ok_of_check hp
  obtain ⟨-, hp⟩ := ok_of_check hp
  obtain ⟨-, hp⟩ := ok_of_check hp
  obtain ⟨-, hp⟩ := ok_of_check hp
  obtain ⟨ss, -, hp⟩ := ok_of_bind hp
  obtain ⟨hne, hp⟩ := ok_of_check hp
  cases hp
  rintro rfl
  exact hne rfl

end Elf2Mem

end SocRV
