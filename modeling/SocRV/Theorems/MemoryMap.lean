import Mathlib.Algebra.Group.Nat.Defs
import SocRV.Build.MemoryConstants

/-!
# The generator and the check of the memory map

A map whose region names have no digits is read back from the header and from the package, and the check accepts just the
values of the map.  The patterns do not match a digit, so a name with one is lost on the way.
-/

namespace SocRV

namespace MemoryMap

/-- The header is rendered from the document `c`, the other outputs are as they are rendered, and the peripherals have
their regions. -/
structure Fresh (m : Document) (k : Contract) (c : Document) (files : Output → Option Text) : Prop where
  header : files .memory = some (renderMemory c)
  others : ∀ o, o ≠ .memory → files o = some (k.rendered o)
  peripherals : ∀ p ∈ k.peripherals, p.2 ∈ m.regions.map Region.name

/-- The constants of the map are read back from the header and from the package, and a package and a header with these
constants pass the check just when they have the values of the map. -/
structure Agree (m : Document) : Prop where
  header : parseConstants (renderMemory m) cPattern = some (expected m)
  package : parseConstants (renderPackage m.regions) svPattern = some (expected m)
  check : ∀ (rtl c : Document) (k : Contract) (files : Output → Option Text),
    rtl.regions.map Region.name = m.regions.map Region.name → c.regions.map Region.name = m.regions.map Region.name →
    Fresh m k c files → (failures m k (renderPackage rtl.regions) files = some [] ↔ rtl.regions = m.regions ∧ c = m)

/-- Whether a document is legible depends on the names of its regions. -/
theorem legible_of_names {regions regions' : List Region} (h : regions'.map Region.name = regions.map Region.name)
    (hl : Legible regions) : Legible regions' := by
  intro r hr
  have hmem : r.name ∈ regions.map Region.name := h ▸ List.mem_map_of_mem hr
  obtain ⟨r', hr', heq⟩ := List.mem_map.mp hmem
  exact heq ▸ hl r' hr'

/-- The names of the constants depend on the names of the regions only. -/
theorem keys_of_names {regions regions' : List Region} (h : regions'.map Region.name = regions.map Region.name) :
    (constants regions').map Prod.fst = (constants regions).map Prod.fst := by
  have hkeys : ∀ regions : List Region, (constants regions).map Prod.fst =
      (regions.map Region.name).flatMap fun n => [n ++ '_' :: Kind.base.text, n ++ '_' :: Kind.size.text] := by
    intro regions
    rw [constants, List.map_flatMap, List.flatMap_map]
    rfl
  rw [hkeys, hkeys, h]

/-- Regions with the same constants are the same. -/
theorem regions_of_constants {regions regions' : List Region} (h : constants regions' = constants regions) :
    regions' = regions := by
  induction regions' generalizing regions with
  | nil =>
    cases regions with
    | nil => rfl
    | cons r regions => cases h
  | cons r' regions' ih =>
    cases regions with
    | nil => cases h
    | cons r regions =>
      have hcons : ∀ (r : Region) regions, constants (r :: regions) =
          (r.key .base, r.value .base) :: (r.key .size, r.value .size) :: constants regions := fun _ _ => rfl
      rw [hcons, hcons] at h
      obtain ⟨hbase, h⟩ := List.cons.inj h
      obtain ⟨hsize, h⟩ := List.cons.inj h
      obtain ⟨hkey, hbase⟩ := Prod.mk.inj hbase
      obtain ⟨-, hsize⟩ := Prod.mk.inj hsize
      have hname := (key_injective hkey).1
      have hbase : r'.base = r.base := BitVec.eq_of_toNat_eq hbase
      have hsize : r'.size = r.size := BitVec.eq_of_toNat_eq hsize
      rw [ih h]
      cases r'
      cases r
      cases hname
      cases hbase
      cases hsize
      rfl

/-- Dictionaries with the same keys and values are the same. -/
theorem dict_ext {d d' : Dict} (hd : (d.map Prod.fst).Nodup) (hkeys : d.map Prod.fst = d'.map Prod.fst)
    (h : ∀ p ∈ d', d.get p.1 = some p.2) : d = d' := by
  have hlen : d.length = d'.length := by
    exact (List.length_map Prod.fst).symm.trans ((congrArg List.length hkeys).trans (List.length_map Prod.fst))
  refine List.ext_getElem hlen fun i hi hi' => ?_
  have hkey : d[i].1 = d'[i].1 := by
    have hget := congrArg (fun l : List Text => l[i]?) hkeys
    rw [List.getElem?_map, List.getElem?_map, List.getElem?_eq_getElem hi, List.getElem?_eq_getElem hi'] at hget
    exact Option.some.inj hget
  have hvalue := h d'[i] (List.getElem_mem hi')
  rw [← hkey, Dict.get_of_mem hd (List.getElem_mem hi)] at hvalue
  exact Prod.ext hkey (Option.some.inj hvalue)

/-- Different documents have different headers, when they can be read. -/
theorem renderMemory_injective {m c : Document} (hm : Legible m.regions) (hc : Legible c.regions)
    (h : renderMemory c = renderMemory m) : c = m := by
  have hparse := parseConstants_renderMemory hc
  rw [h, parseConstants_renderMemory hm, expected_eq, expected_eq] at hparse
  have hregions := regions_of_constants (Option.some.inj hparse).symm
  rw [renderMemory_eq, renderMemory_eq, hregions] at h
  have hsplit : ∀ a h e : Text,
      unlines [[], a ++ (h ++ ['u']), [], e] = ('\n' :: a) ++ (h ++ ('u' :: '\n' :: unlines [[], e])) := by
    intro a h e
    rw [unlines_cons, unlines_cons]
    simp only [List.nil_append, List.append_assoc, List.cons_append]
  have hbottom := List.append_cancel_left (List.append_cancel_left h)
  rw [hsplit, hsplit] at hbottom
  have hdigits := List.append_cancel_left hbottom
  have hvector := congrArg readHex (List.append_cancel_right hdigits)
  rw [readHex_formatHex, readHex_formatHex] at hvector
  cases c
  cases m
  cases hregions
  cases hvector
  rfl

section Check

variable {m rtl c : Document} {k : Contract} {files : Output → Option Text}

/-- The failures of the check of documents that can be read. -/
theorem failures_eq (hrtl : Legible rtl.regions) (hc : Legible c.regions) (hf : Fresh m k c files) :
    failures m k (renderPackage rtl.regions) files = some ((if renderMemory c = renderMemory m then [] else [.stale .memory]) ++
      (constants m.regions).flatMap (constantFailures (constants rtl.regions) (constants c.regions))) := by
  have hstale : ((renderedOutputs m k).filterMap fun p => if files p.1 = some p.2 then none else some (.stale p.1)) =
      if renderMemory c = renderMemory m then [] else [Failure.stale .memory] := by
    rw [renderedOutputs]
    by_cases heq : renderMemory c = renderMemory m
    · simp [hf.header, hf.others, heq]
    · simp [hf.header, hf.others, heq]
  have hunknown : (k.peripherals.filterMap fun p =>
      if p.2 ∈ m.regions.map Region.name then none else some (Failure.unknownRegion p.1 p.2)) = [] := by
    rw [List.filterMap_eq_nil_iff]
    intro p hp
    exact if_pos (hf.peripherals p hp)
  rw [failures, parseConstants_renderPackage rtl.distinct hrtl, hf.header, expected_eq]
  simp only [Option.bind_eq_bind, Option.bind_some, parseConstants_renderMemory hc, hstale, hunknown, expected_eq,
    List.append_nil]
  rfl

/-- The check passes just when the package and the header have the values of the map. -/
theorem failures_nil_iff (hm : Legible m.regions) (hrtl : rtl.regions.map Region.name = m.regions.map Region.name)
    (hc : c.regions.map Region.name = m.regions.map Region.name) (hf : Fresh m k c files) :
    failures m k (renderPackage rtl.regions) files = some [] ↔ rtl.regions = m.regions ∧ c = m := by
  have hlc := legible_of_names hc hm
  rw [failures_eq (legible_of_names hrtl hm) hlc hf, Option.some.injEq, List.append_eq_nil_iff, List.flatMap_eq_nil_iff]
  constructor
  · rintro ⟨hstale, hconstants⟩
    have htext : renderMemory c = renderMemory m := by
      by_contra hne
      rw [if_neg hne] at hstale
      cases hstale
    refine ⟨regions_of_constants ?_, renderMemory_injective hm hlc htext⟩
    refine dict_ext (nodup_keys rtl.distinct) (keys_of_names hrtl) fun p hp => ?_
    by_contra hne
    have hnil := hconstants p hp
    rw [constantFailures, if_neg hne] at hnil
    cases hnil
  · rintro ⟨hregions, rfl⟩
    refine ⟨if_pos rfl, fun p hp => ?_⟩
    have hget := Dict.get_of_mem (nodup_keys c.distinct) hp
    rw [constantFailures, hregions, hget]
    simp

end Check

/-- The generator and the check agree on a map just when no region has a digit in its name. -/
theorem agree_iff (m : Document) : Agree m ↔ ∀ r ∈ m.regions, ∀ c ∈ r.name, isDigit c = false := by
  have hlegible : Legible m.regions ↔ ∀ r ∈ m.regions, ∀ c ∈ r.name, isDigit c = false :=
    forall₂_congr fun r _ => readable_iff
  rw [← hlegible]
  constructor
  · intro h
    exact legible_of_parse h.header
  · intro h
    refine ⟨parseConstants_renderMemory h, ?_, fun rtl c k files hrtl hc hf => failures_nil_iff h hrtl hc hf⟩
    rw [expected_eq]
    exact parseConstants_renderPackage m.distinct h

/-- The map of the repository. -/
def socMap : Document where
  regions := [⟨"CODE".toList, 0x00000000, 0x00020000, by decide⟩, ⟨"DATA".toList, 0x00020000, 0x00010000, by decide⟩,
    ⟨"TIMER".toList, 0x10000000, 0x00001000, by decide⟩, ⟨"UART".toList, 0x10001000, 0x00001000, by decide⟩,
    ⟨"GPIO".toList, 0x10002000, 0x00001000, by decide⟩, ⟨"SYSCTRL".toList, 0x10003000, 0x00001000, by decide⟩,
    ⟨"I2C".toList, 0x10004000, 0x00001000, by decide⟩]
  resetVector := 0
  distinct := by decide

example : localparamLine 12 ("I2C_BASE".toList, 0x10004000) =
    "   localparam logic [31:0] I2C_BASE     = 32'h1000_4000;".toList := by decide +kernel

/-- The region I2C of that map is not read back. -/
theorem socMap_not_agree : ¬ Agree socMap := by
  intro h
  have hi2c : Readable "I2C".toList :=
    legible_of_parse h.header ⟨"I2C".toList, 0x10004000, 0x00001000, by decide⟩ (by simp [socMap])
  exact absurd (hi2c '2' (by decide)) (by decide)

end MemoryMap

end SocRV
