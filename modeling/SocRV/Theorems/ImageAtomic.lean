import Mathlib.Algebra.Group.Nat.Defs
import SocRV.Build.ImageWrites
import SocRV.Theorems.ElfLoading

/-!
# Conversions that raise

The bank options are checked behind the loop that writes the flat files, so a conversion that is refused for them has
already changed the files of the regions.
-/

namespace SocRV

namespace Elf2Mem

open Script

/-- A conversion of the given ELF file that raises a `ValueError` has changed no file, whatever the files were. -/
def Atomic (h : Host) (elf : Path) (blob : List (BitVec 8)) (regions : List RegionFile) (manifest : Path)
    (o : Arguments) : Prop :=
  ∀ fs, readBytes h elf fs = (.ok blob, fs) → ∀ message fs',
    convertFiles h elf regions manifest o fs = (.error (.value message), fs') → fs' = fs

/-- The file is accepted, and each of its segments lies in exactly one region. -/
def Placeable (blob : List (BitVec 8)) (rs : List Region) : Prop :=
  ∃ p placed, parseElf32Little blob = .ok p ∧ p.2.foldlM placeSegment rs = .ok placed

section Convert

variable {h : Host} {elf manifest : Path} {blob : List (BitVec 8)} {regions : List RegionFile} {o : Arguments}

/-- What remains of a conversion whose file is accepted and placed. -/
theorem convertFiles_eq {fs : Files} {p : Nat × List Segment} {placed : List Region}
    (hblob : readBytes h elf fs = (.ok blob, fs)) (hp : parseElf32Little blob = .ok p)
    (hplaced : p.2.foldlM placeSegment (regions.map (·.region)) = .ok placed) :
    convertFiles h elf regions manifest o fs =
      writeImage h elf manifest o p.1 (p.2.map (placement (regions.map (·.region))))
        (placed.zip (regions.map (·.output))) fs := by
  rw [convertFiles, bind_ok hblob, bind_ok (checked_ok hp fs), bind_ok (checked_ok hplaced fs)]

/-- A conversion whose file is not accepted or not placed stops before the first write. -/
theorem convertFiles_refused {fs : Files} (hblob : readBytes h elf fs = (.ok blob, fs))
    (hp : ¬ Placeable blob (regions.map (·.region))) : ∃ e, convertFiles h elf regions manifest o fs = (.error e, fs) := by
  rw [convertFiles, bind_ok hblob]
  cases hparse : parseElf32Little blob with
  | error msg =>
    rw [bind_error (checked_error rfl fs)]
    exact ⟨_, rfl⟩
  | ok p =>
    rw [bind_ok (checked_ok rfl fs)]
    cases hplace : p.2.foldlM placeSegment (regions.map (·.region)) with
    | error msg =>
      rw [bind_error (checked_error rfl fs)]
      exact ⟨_, rfl⟩
    | ok placed => exact absurd ⟨p, placed, hparse, hplace⟩ hp

/-- The options fit the written regions just when they fit the regions that were given. -/
theorem fits_placed {ss : List Segment} {placed : List Region}
    (hplaced : ss.foldlM placeSegment (regions.map (·.region)) = .ok placed) :
    Fits ((placed.zip (regions.map (·.output))).map fun p => p.1.written o.trim) o ↔
      Fits (regions.map (·.region)) o := by
  obtain ⟨hlen, hsizes⟩ := placed_sizes hplaced
  have hfst : (placed.zip (regions.map (·.output))).map Prod.fst = placed := by
    refine List.map_fst_zip (Nat.le_of_eq ?_)
    rw [hlen, List.length_map, List.length_map]
  have hmap : (placed.zip (regions.map (·.output))).map (fun p => p.1.written o.trim) =
      placed.map (·.written o.trim) := by
    rw [← hfst, List.map_map, hfst]
    rfl
  have hwritten : ∀ name, regionSize (placed.map (·.written o.trim)) name =
      regionSize (regions.map (·.region)) name := by
    intro name
    rw [regionSize_map (g := fun r => r.written o.trim) (fun _ => rfl) fun _ => rfl, hsizes]
  rw [hmap]
  exact ⟨Fits.of_sizes fun name => (hwritten name).symm, Fits.of_sizes hwritten⟩

/-- Segments are only placed when there is a region. -/
theorem cons_of_placed {p : Nat × List Segment} {placed : List Region} (hp : parseElf32Little blob = .ok p)
    (hplaced : p.2.foldlM placeSegment (regions.map (·.region)) = .ok placed) :
    ∃ r path rest, placed.zip (regions.map (·.output)) = (r, path) :: rest := by
  obtain ⟨hlen, -⟩ := placed_sizes hplaced
  cases regions with
  | nil =>
    cases hss : p.2 with
    | nil => exact absurd hss (segments_of_parseElf32Little hp)
    | cons s ss =>
      rw [hss, List.foldlM_cons] at hplaced
      obtain ⟨rs, hs, -⟩ := ok_of_bind hplaced
      cases hs
  | cons r rest =>
    cases placed with
    | nil => cases hlen
    | cons q qs => exact ⟨q, r.output, _, rfl⟩

/-- A conversion is refused for its options when it has already overwritten a file. -/
theorem convertFiles_late {fs : Files} (hblob : readBytes h elf fs = (.ok blob, fs))
    (hp : Placeable blob (regions.map (·.region))) (hfit : ¬ Fits (regions.map (·.region)) o) :
    ∃ path message fs', convertFiles h elf regions manifest o fs = (.error (.value message), fs') ∧
      Overwritten path blob fs' := by
  obtain ⟨p, placed, hparse, hplaced⟩ := hp
  obtain ⟨r, path, rest, hzip⟩ := cons_of_placed hparse hplaced
  have hraises := writeImage_raises h elf manifest p.1 (p.2.map (placement (regions.map (·.region))))
    (placed.zip (regions.map (·.output))) (mt (fits_placed hplaced).mp hfit) fs
  obtain ⟨e, fs', heq, hvalue⟩ := hraises
  have hover : Ensures (Overwritten path blob) _ :=
    writeImage_overwrites h (mem_of_parseElf32Little hparse) elf manifest o p.1
      (p.2.map (placement (regions.map (·.region)))) r rest
  specialize hover fs
  rw [← hzip, heq] at hover
  cases e with
  | value message => exact ⟨path, message, fs', (convertFiles_eq hblob hparse hplaced).trans heq, hover⟩
  | other => exact absurd hvalue id

/-- Options that do not fit the regions leave a placeable image half written. -/
theorem not_atomic (hp : Placeable blob (regions.map (·.region))) (hfit : ¬ Fits (regions.map (·.region)) o) :
    ¬ Atomic h elf blob regions manifest o := by
  intro hatomic
  have hblob : readBytes h elf (fun q => if q = elf then some (.bytes blob) else none) =
      (.ok blob, fun q => if q = elf then some (.bytes blob) else none) := by
    unfold readBytes Script.read
    dsimp only
    rw [if_pos rfl]
  obtain ⟨path, message, fs', heq, c, hc, hne⟩ := convertFiles_late hblob hp hfit
  rw [hatomic _ hblob message fs' heq] at hc
  dsimp only at hc
  split_ifs at hc
  exact hne (Option.some.inj hc).symm

end Convert

/-- The conversion without files accepts the same inputs: those that are placed and whose options fit. -/
theorem convert_ok_iff {blob : List (BitVec 8)} {rs : List Region} {o : Arguments} :
    (∃ out, convert blob rs o.options = .ok out) ↔ Placeable blob rs ∧ Fits rs o := by
  have hsizes : ∀ {placed : List Region} {ss : List Segment}, ss.foldlM placeSegment rs = .ok placed →
      ∀ name, regionSize (placed.map (·.written o.trim)) name = regionSize rs name := by
    intro placed ss hplaced name
    rw [regionSize_map (g := fun r => r.written o.trim) (fun _ => rfl) fun _ => rfl, (placed_sizes hplaced).2]
  constructor
  · rintro ⟨out, h⟩
    obtain ⟨p, hp, h⟩ := ok_of_bind h
    obtain ⟨placed, hplaced, h⟩ := ok_of_bind h
    obtain ⟨codeBanks, hcode, h⟩ := ok_of_bind h
    obtain ⟨lanes, hlanes, h⟩ := ok_of_bind h
    obtain ⟨banks, hbanks, -⟩ := ok_of_bind h
    refine ⟨⟨p, placed, hp, hplaced⟩, Fits.of_sizes (fun name => (hsizes hplaced name).symm) ?_⟩
    exact ⟨writeCodeBanks_iff.mp ⟨_, hcode⟩, (writeBanks_iff (by decide) _ _).mp ⟨_, hlanes⟩,
      (writeBanks_iff (by decide) _ _).mp ⟨_, hbanks⟩⟩
  · rintro ⟨⟨p, placed, hp, hplaced⟩, hfit⟩
    have hfit := Fits.of_sizes (hsizes hplaced) hfit
    obtain ⟨codeBanks, hcode⟩ := writeCodeBanks_iff.mpr hfit.code
    obtain ⟨lanes, hlanes⟩ := (writeBanks_iff (by decide) "exactly four --iccm-lane outputs are required"
      "CODE region is required for ICCM lane generation").mpr hfit.lanes
    obtain ⟨banks, hbanks⟩ := (writeBanks_iff (by decide) "exactly eight --dccm-bank outputs are required"
      "DATA region is required for DCCM bank generation").mpr hfit.banks
    have hrun : convert blob rs o.options = .ok
        { regions := placed.map (·.written o.trim), wordMems := placed.map (·.wordMem o.trim), codeBanks,
          iccmLanes := lanes, dccmBanks := banks } := by
      have hlaneCount : o.options.iccmLanes = o.iccmLanes.length := rfl
      have hbankCount : o.options.dccmBanks = o.dccmBanks.length := rfl
      have htrim : o.options.trim = o.trim := rfl
      simp only [convert, hp, hplaced, htrim, hcode, hlaneCount, hlanes, hbankCount, hbanks, bind, Except.bind, pure,
        Except.pure]
    exact ⟨_, hrun⟩

/-- A conversion that raises a `ValueError` leaves all files as they were just when the file is refused before the first
write, for its form or for a segment that does not lie in exactly one region, or when the bank options fit the
regions. -/
theorem atomic_iff (h : Host) (elf : Path) (blob : List (BitVec 8)) (regions : List RegionFile) (manifest : Path)
    (o : Arguments) :
    Atomic h elf blob regions manifest o ↔
      (Placeable blob (regions.map (·.region)) → Fits (regions.map (·.region)) o) := by
  constructor
  · intro hatomic hp
    by_contra hfit
    exact not_atomic hp hfit hatomic
  · intro hcond fs hblob message fs' heq
    by_cases hp : Placeable blob (regions.map (·.region))
    · obtain ⟨p, placed, hparse, hplaced⟩ := hp
      rw [convertFiles_eq hblob hparse hplaced] at heq
      have hfit := (fits_placed hplaced).mpr (hcond ⟨p, placed, hparse, hplaced⟩)
      exact absurd trivial (writeImage_avoids h elf manifest p.1 _ _ hfit fs _ fs' heq)
    · obtain ⟨e, he⟩ := @convertFiles_refused h elf manifest blob regions o fs hblob hp
      exact congrArg Prod.snd (heq.symm.trans he)

/-- The two small regions with their files. -/
def smallFiles : List RegionFile :=
  [⟨Region.fresh "CODE" 0 16, ["repo", "code.mem"]⟩, ⟨Region.fresh "DATA" 0x1000 16, ["repo", "data.mem"]⟩]

/-- With a path for the low instruction bank only, the conversion is refused behind the flat files. -/
theorem lowBank_not_atomic :
    ¬ Atomic ⟨["repo"], fun _ => [], fun _ => []⟩ ["repo", "plain.elf"] plainElf smallFiles ["repo", "image.json"]
      { codeBankLow := some ["repo", "low.mem"] } := by
  refine not_atomic ?_ fun hfit => ?_
  · have hok : (convert plainElf smallRegions {}).toBool = true := by decide +kernel
    cases hc : convert plainElf smallRegions {} with
    | error e =>
      rw [hc] at hok
      cases hok
    | ok out =>
      obtain ⟨p, placed, hp, hplaced, -⟩ := of_convert hc
      exact ⟨p, placed, hp, hplaced⟩
  · exact absurd hfit.code.1 (by decide)

end Elf2Mem

end SocRV
