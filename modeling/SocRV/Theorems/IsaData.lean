import Mathlib.Algebra.Group.Nat.Defs
import SocRV.Build.ImageWrites
import SocRV.Build.IsaData
import SocRV.Theorems.ElfLoading

/-!
# Installed images

The manifest of an installed image records its banks where they were in the staging directory, so it names files that are
gone when the staging directory is.
-/

namespace SocRV

namespace IsaData

open Elf2Mem Script

/-- The files that a manifest records, with their digests. -/
def recordedFiles (m : Manifest) : List (ManifestPath × Text) :=
  (m.elfPath, m.elfSha256) :: (m.regions.map regionFile ++ m.banks.map bankFile)

/-- The image has a manifest, and every file that it records is below `data/isa` and has the recorded digest. -/
def SelfContained (h : Host) (path : Path) (fs : Files) : Prop :=
  ∃ m, fs path = some (.json m) ∧ ∀ file ∈ recordedFiles m,
    destination h <+: file.1.locate h.root ∧ ∃ c, fs (file.1.locate h.root) = some c ∧ h.sha256 c = file.2

/-- A path of the manifest is found again from its root. -/
theorem locate_manifestPath (root path : Path) : (manifestPath root path).locate root = path := by
  unfold manifestPath
  split_ifs with hp
  · obtain ⟨parts, rfl⟩ := hp
    rw [ManifestPath.locate, List.drop_left]
  · rfl

section Build

variable {h : Host} {fs fs' : Files}

/-- What is only read leaves the files as they are. -/
theorem of_read_ok {α : Type} {f : Files → Except Raised α} {a : α} (hr : Script.read f fs = (.ok a, fs')) :
    f fs = .ok a ∧ fs' = fs :=
  ⟨congrArg Prod.fst hr, (congrArg Prod.snd hr).symm⟩

/-- A write that succeeds leaves what was written. -/
theorem of_write_ok {path : Path} {c : Content} {a : Unit} (hr : write path c fs = (.ok a, fs')) :
    fs' = fs.write path c := (congrArg Prod.snd hr).symm

/-- The first bank that is written is recorded with its path. -/
theorem of_bankFiles {rs : List Region} {name namePrefix few missing : String} {output : Path} {outputs : List Path}
    {expected : Nat} {entries : List BankEntry}
    (hr : bankFiles h rs name namePrefix (output :: outputs) expected few missing fs = (.ok entries, fs')) :
    ∃ e ∈ entries, e.file = manifestPath h.root output := by
  unfold bankFiles at hr
  rw [if_neg (List.cons_ne_nil _ _)] at hr
  split_ifs at hr with hlen
  · cases congrArg Prod.fst hr
  · cases hfind : rs.find? (·.name == name) with
    | none =>
      simp only [hfind] at hr
      cases congrArg Prod.fst hr
    | some r =>
      simp only [hfind] at hr
      obtain ⟨texts, fs₁, htexts, hr⟩ := of_bind_ok hr
      obtain ⟨htexts, -⟩ := of_read_ok htexts
      cases hw : writeInterleavedBanks r (output :: outputs).length with
      | error msg =>
        rw [hw] at htexts
        cases htexts
      | ok texts' =>
        rw [hw] at htexts
        cases htexts
        obtain ⟨-, hw⟩ := ok_of_check hw
        cases hw
        rw [List.length_cons, List.range_succ_eq_map, List.map_cons, List.zip_cons_cons, List.zipIdx_cons,
          List.mapM_cons] at hr
        obtain ⟨e, fs₂, he, hr⟩ := of_bind_ok hr
        obtain ⟨es, fs₃, -, hr⟩ := of_bind_ok hr
        cases congrArg Prod.fst hr
        obtain ⟨e', hfile, heq⟩ := writeBank_eq h r (outputs.length + 1) namePrefix 0 output
          (unlines (bankWords r (outputs.length + 1) 0)) fs₁
        rw [heq] at he
        cases congrArg Prod.fst he
        exact ⟨_, List.mem_cons_self .., hfile⟩

/-- The manifest of a conversion records the first lane with its path. -/
theorem of_convertFiles {elf manifest : Path} {lanes : List Path} {regions : List RegionFile} {o : Arguments} {a : Unit}
    (lane : Path) (hlanes : o.iccmLanes = lane :: lanes)
    (hr : convertFiles h elf regions manifest o fs = (.ok a, fs')) :
    ∃ m, fs' manifest = some (.json m) ∧ ∃ e ∈ m.banks, e.file = manifestPath h.root lane := by
  obtain ⟨blob, fs₁, -, hr⟩ := of_bind_ok hr
  obtain ⟨parsed, fs₂, -, hr⟩ := of_bind_ok hr
  obtain ⟨placed, fs₃, -, hr⟩ := of_bind_ok hr
  obtain ⟨entries, fs₄, -, hr⟩ := of_bind_ok hr
  obtain ⟨codeBanks, fs₅, -, hr⟩ := of_bind_ok hr
  obtain ⟨laneEntries, fs₆, hlane, hr⟩ := of_bind_ok hr
  obtain ⟨banks, fs₇, -, hr⟩ := of_bind_ok hr
  obtain ⟨digest, fs₈, -, hr⟩ := of_bind_ok hr
  obtain ⟨isa, fs₉, -, hr⟩ := of_bind_ok hr
  rw [hlanes] at hlane
  obtain ⟨e, he, hfile⟩ := of_bankFiles hlane
  rw [of_write_ok hr, Files.write_self]
  refine ⟨_, rfl, e, ?_, hfile⟩
  exact List.mem_append_left _ (List.mem_append_right _ he)

/-- The manifest of a built test records its first lane in the directory that it was built in. -/
theorem of_buildTest {t : Toolchain} {suite name march mabi : String} {output : Path} {m : MapDocument}
    {k : ContractDocument} {hash : Text} {entry : TestEntry}
    (hr : buildTest h t suite name output march mabi m k hash fs = (.ok entry, fs')) :
    ∃ document, fs' (output ++ ["image.json"]) = some (.json document) ∧
      ∃ e ∈ document.banks, e.file = manifestPath h.root (output ++ ["iccm_lane0.mem"]) := by
  obtain ⟨_, fs₁, -, hr⟩ := of_bind_ok hr
  split_ifs at hr with hroot
  · obtain ⟨_, fs₂, -, hr⟩ := of_bind_ok hr
    obtain ⟨code, fs₃, -, hr⟩ := of_bind_ok hr
    obtain ⟨data, fs₄, -, hr⟩ := of_bind_ok hr
    obtain ⟨sysctrl, fs₅, -, hr⟩ := of_bind_ok hr
    obtain ⟨_, fs₆, hconvert, hr⟩ := of_bind_ok hr
    obtain ⟨document, fs₇, hread, hr⟩ := of_bind_ok hr
    obtain ⟨isa, fs₈, hisa, hr⟩ := of_bind_ok hr
    obtain ⟨_, fs₉, hwrite, hr⟩ := of_bind_ok hr
    obtain ⟨sourceDigest, fs₁₀, hsource, hr⟩ := of_bind_ok hr
    obtain ⟨elfDigest, fs₁₁, helf, hr⟩ := of_bind_ok hr
    obtain ⟨m₀, hm₀, e, he, hfile⟩ := of_convertFiles (output ++ ["iccm_lane0.mem"]) rfl hconvert
    have hjson := (of_read_ok hread).1
    rw [hm₀] at hjson
    cases hjson
    have hfs : fs₁₁ = fs' := congrArg Prod.snd hr
    rw [← hfs, (of_read_ok helf).2, (of_read_ok hsource).2, of_write_ok hwrite, Files.write_self]
    exact ⟨_, rfl, e, he, hfile⟩
  · cases congrArg Prod.fst hr

end Build

section Install

variable {h : Host}

/-- Two directories below the root with different names have nothing in common. -/
theorem not_below_of_ne {root a b q : List String} {x y : String} (hne : x ≠ y) :
    ¬ root ++ x :: a <+: root ++ y :: b ++ q := by
  rintro ⟨rest, heq⟩
  rw [List.append_assoc, List.append_assoc] at heq
  exact hne (List.cons.inj (List.append_cancel_left heq)).1

/-- A file that is installed is the staged one, unless it is gone. -/
theorem installed_destination (hasBackup : Bool) (fs : Files) (q : Path) :
    installed h hasBackup fs (destination h ++ q) = none ∨
      installed h hasBackup fs (destination h ++ q) = fs (staging h ++ q) := by
  unfold installed removeTree
  split_ifs with hgone
  · exact .inl rfl
  · right
    have hdestination : ¬ destination h <+: staging h ++ q := not_below_of_ne (by decide)
    have hbackup : ¬ backup h fs <+: staging h ++ q := by
      rintro ⟨rest, heq⟩
      unfold backup staging repoPath at heq
      rw [List.append_assoc, List.append_assoc] at heq
      have htail := List.append_cancel_left heq
      exact absurd (List.cons.inj (List.cons.inj htail).2).1 (by decide)
    unfold replaceDataset copyTree removeTree
    rw [if_pos (List.prefix_append ..), List.drop_left, if_neg hdestination]
    split_ifs
    · rfl
    · exact if_neg hbackup

/-- The staging directory is gone. -/
theorem installed_staging (hasBackup : Bool) (fs : Files) (q : Path) :
    installed h hasBackup fs (staging h ++ q) = none := if_pos (List.prefix_append ..)

variable {fs fs' : Files} {t : Toolchain} {suite name march mabi : String} {m : MapDocument} {k : ContractDocument}
    {hash : Text} {entry : TestEntry}

/-- A file that is gone does not pass. -/
theorem checkFile_gone {fs : Files} {kind : String} {file : ManifestPath × Text}
    (hgone : fs (file.1.locate h.root) = none) : checkFile h fs kind file ≠ .ok () := by
  unfold checkFile
  dsimp only
  rw [hgone]
  intro heq
  cases heq

/-- The installed manifest, if there is one, records a bank whose file is gone. -/
theorem bank_gone (hbuild : buildTest h t suite name (staging h ++ [suite, name]) march mabi m k hash fs = (.ok entry, fs'))
    (hasBackup : Bool) {document : Manifest}
    (hdocument : installed h hasBackup fs' (destination h ++ [suite, name, "image.json"]) = some (.json document)) :
    ∃ b ∈ document.banks, installed h hasBackup fs' (b.file.locate h.root) = none := by
  obtain ⟨document', hstaged, b, hb, hfile⟩ := of_buildTest hbuild
  rw [List.append_assoc] at hstaged
  have heq : document' = document := by
    rcases installed_destination hasBackup fs' [suite, name, "image.json"] with hnone | hcopy
    · rw [hnone] at hdocument
      cases hdocument
    · rw [hcopy] at hdocument
      exact Content.json.inj (Option.some.inj (hstaged.symm.trans hdocument))
  refine ⟨b, heq ▸ hb, ?_⟩
  rw [hfile, locate_manifestPath, List.append_assoc]
  exact installed_staging hasBackup fs' _

/-- No test that is built in the staging directory has a self-contained image after its installation, and `check_manifest`
accepts none. -/
theorem installed_not_selfContained
    (hbuild : buildTest h t suite name (staging h ++ [suite, name]) march mabi m k hash fs = (.ok entry, fs'))
    (hasBackup : Bool) (valid : Manifest → Bool) (m' : MapDocument) (k' : ContractDocument) :
    ¬ SelfContained h (destination h ++ [suite, name, "image.json"]) (installed h hasBackup fs') ∧
      checkManifest h valid m' k' (destination h ++ [suite, name, "image.json"]) (installed h hasBackup fs') ≠ .ok () := by
  constructor
  · rintro ⟨document, hdocument, hfiles⟩
    obtain ⟨b, hb, hgone⟩ := bank_gone hbuild hasBackup hdocument
    have hmem : bankFile b ∈ recordedFiles document :=
      List.mem_cons_of_mem _ (List.mem_append_right _ (List.mem_map_of_mem hb))
    obtain ⟨-, c, hc, -⟩ := hfiles _ hmem
    rw [show installed h hasBackup fs' ((bankFile b).1.locate h.root) = none from hgone] at hc
    cases hc
  · intro hcheck
    obtain ⟨document, hread, hcheck⟩ := ok_of_bind hcheck
    have hdocument : installed h hasBackup fs' (destination h ++ [suite, name, "image.json"]) = some (.json document) := by
      unfold readJson Script.read at hread
      dsimp only at hread
      split at hread
      · cases hread
        assumption
      · cases hread
      · cases hread
    obtain ⟨b, hb, hgone⟩ := bank_gone hbuild hasBackup hdocument
    obtain ⟨-, hcheck⟩ := ok_of_check hcheck
    obtain ⟨mapHash, -, hcheck⟩ := ok_of_bind hcheck
    obtain ⟨-, hcheck⟩ := ok_of_check hcheck
    obtain ⟨⟨⟩, -, hcheck⟩ := ok_of_bind hcheck
    obtain ⟨sysctrl, -, hcheck⟩ := ok_of_bind hcheck
    obtain ⟨status, -, hcheck⟩ := ok_of_bind hcheck
    obtain ⟨-, hcheck⟩ := ok_of_check hcheck
    obtain ⟨⟨⟩, -, hcheck⟩ := ok_of_bind hcheck
    obtain ⟨⟨⟩, -, hbanks⟩ := ok_of_bind hcheck
    have hbank := ok_of_forM hbanks _ (List.mem_map_of_mem hb)
    exact checkFile_gone hgone hbank

end Install

/-! ## A test -/

/-- A host whose digests are the sizes of the files. -/
def sizeHost : Host where
  root := ["repo"]
  sha256 c := match c with
    | .bytes b => formatHex 64 b.length
    | .json m => formatHex 64 m.banks.length
  dump _ := []

/-- A map with small memories. -/
def smallMap : MapDocument where
  region name := [("CODE", (0, 16)), ("DATA", (0x1000, 32)), ("SYSCTRL", (0x10003000, 0x1000))].lookup name

def smallContract : ContractDocument where
  isa := ⟨32, "rv32imf_zicsr", "ilp32f"⟩
  passMagic := "0x50415353"
  failMagic := "0x4641494c"
  statusOffset := 0

/-- The build of a test whose source and memory map are there, with tools that answer with a small program. -/
def addBuild : Except Raised TestEntry × Files :=
  buildTest sizeHost ⟨fun _ _ _ _ _ => some (plainElf, []), fun _ => some []⟩ "rv32ui" "add"
    (staging sizeHost ++ ["rv32ui", "add"]) "rv32i_zicsr" "ilp32" smallMap smallContract (formatHex 64 0)
    (Files.write (Files.write (fun _ => none) ["repo", "data", "soc", "memory_map.json"] (.bytes []))
      ["repo", "software", "riscv-tests", "upstream", "isa", "rv32ui", "add.S"] (.bytes []))

/-- The build of one test succeeds. -/
theorem addBuild_ok : ∃ entry, addBuild = (.ok entry, addBuild.2) := by
  have hok : addBuild.1.toBool = true := by decide +kernel
  cases hb : addBuild with
  | mk r fs =>
    rw [hb] at hok
    cases r with
    | error e => cases hok
    | ok entry => exact ⟨entry, rfl⟩

theorem installed_not_selfContained_add :
    ¬ SelfContained sizeHost (destination sizeHost ++ ["rv32ui", "add", "image.json"])
        (installed sizeHost false addBuild.2) ∧
      checkManifest sizeHost (fun _ => true) smallMap smallContract
        (destination sizeHost ++ ["rv32ui", "add", "image.json"]) (installed sizeHost false addBuild.2) ≠ .ok () := by
  obtain ⟨entry, hbuild⟩ := addBuild_ok
  exact installed_not_selfContained hbuild false (fun _ => true) smallMap smallContract

/-- The bank paths of a manifest. -/
def bankPaths : Option Content → List ManifestPath
  | some (.json m) => m.banks.map BankEntry.file
  | _ => []

/-- The installed manifest of the test records its first lane below `build`, where there is no file any more, and the check
finds that. -/
theorem addBuild_lane_gone :
    addBuild.1.toBool = true ∧
      .relative ["build", "isa-data", "generated", "rv32ui", "add", "iccm_lane0.mem"] ∈
        bankPaths (installed sizeHost false addBuild.2 (destination sizeHost ++ ["rv32ui", "add", "image.json"])) ∧
      installed sizeHost false addBuild.2
        ["repo", "build", "isa-data", "generated", "rv32ui", "add", "iccm_lane0.mem"] = none ∧
      checkManifest sizeHost (fun _ => true) smallMap smallContract
        (destination sizeHost ++ ["rv32ui", "add", "image.json"]) (installed sizeHost false addBuild.2) =
        .error (.value "bank hash mismatch: /repo/build/isa-data/generated/rv32ui/add/iccm_lane0.mem") := by
  refine ⟨by decide +kernel, by decide +kernel, ?_, ?_⟩
  · exact installed_staging false addBuild.2 ["rv32ui", "add", "iccm_lane0.mem"]
  · decide +kernel

end IsaData

end SocRV
