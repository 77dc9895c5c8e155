import SocRV.Build.Elf2Mem
import SocRV.Lib.Checked
import SocRV.Lib.Overlay
import Mathlib.Algebra.Group.Nat.Defs
import Mathlib.Data.List.Pairwise

/-!
# What the regions hold after loading

A segment is a write to the addresses it covers.  The regions, read by address, hold what the writes of the segments
leave, in the order of the program headers: the youngest write that covers an address decides.
-/

namespace SocRV

namespace Elf2Mem

/-! ## Slices -/

/-- What a byte array holds after an assignment of as many bytes as the slice has. -/
theorem getElem?_assignSlice {l data : List (BitVec 8)} {start stop k : Nat} (hstop : stop = start + data.length)
    (h : stop ≤ l.length) :
    (assignSlice l start stop data)[k]? = if start ≤ k ∧ k < stop then data[k - start]? else l[k]? := by
  subst hstop
  have htake : (l.take start).length = start := by
    rw [List.length_take]
    omega
  rw [assignSlice, Nat.max_eq_right (Nat.le_add_right _ _), List.append_assoc]
  by_cases hlow : k < start
  · rw [if_neg (by omega), List.getElem?_append_left (by omega), List.getElem?_take_of_lt hlow]
  rw [List.getElem?_append_right (by omega), htake]
  by_cases hmid : k < start + data.length
  · rw [if_pos ⟨by omega, hmid⟩, List.getElem?_append_left (by omega)]
  · rw [if_neg (by omega), List.getElem?_append_right (by omega), List.getElem?_drop]
    congr 1
    omega

/-! ## Segments as writes -/

/-- A segment covers an address. -/
def Segment.Covers (s : Segment) (x : Nat) : Prop := s.address ≤ x ∧ x < s.address + s.memorySize

instance (s : Segment) (x : Nat) : Decidable (s.Covers x) :=
  inferInstanceAs (Decidable (s.address ≤ x ∧ x < s.address + s.memorySize))

/-- The write of a segment: its data, then zeros. -/
def Segment.write (s : Segment) : Overlay Nat (Option (BitVec 8)) := fun x =>
  if s.Covers x then some (some (s.data.getD (x - s.address) 0)) else none

/-- The byte that a region holds at an address, if the address is in the region. -/
def Region.byteAt (r : Region) (x : Nat) : Option (BitVec 8) :=
  if r.contains x 1 then r.image[x - r.base]? else none

/-- The byte at an address of the regions. -/
def byteAt (rs : List Region) (x : Nat) : Option (BitVec 8) := rs.findSome? (·.byteAt x)

/-- Two regions have no address in common. -/
def Region.Disjoint (r q : Region) : Prop := r.base + r.size ≤ q.base ∨ q.base + q.size ≤ r.base

instance : Std.Symm Region.Disjoint := ⟨fun _ _ h => Or.symm h⟩

instance (r q : Region) : Decidable (r.Disjoint q) :=
  inferInstanceAs (Decidable (r.base + r.size ≤ q.base ∨ q.base + q.size ≤ r.base))

/-- A region contains a range that lies between its ends. -/
theorem Region.contains_iff {r : Region} {x n : Nat} :
    r.contains x n = true ↔ r.base ≤ x ∧ x + n ≤ r.base + r.size := by
  rw [Region.contains, Bool.and_eq_true, decide_eq_true_eq, decide_eq_true_eq]

@[simp] theorem Region.place_name (r : Region) (s : Segment) : (r.place s).name = r.name := rfl

@[simp] theorem Region.place_base (r : Region) (s : Segment) : (r.place s).base = r.base := rfl

@[simp] theorem Region.place_size (r : Region) (s : Segment) : (r.place s).size = r.size := rfl

/-- Placing a segment does not move the region. -/
theorem Region.place_contains (r : Region) (s : Segment) (x n : Nat) :
    (r.place s).contains x n = r.contains x n := rfl

/-- A region with a segment placed in it. -/
theorem Region.getElem?_placed {r : Region} {s : Segment} (hc : r.contains s.address s.memorySize = true)
    (hd : s.data.length ≤ s.memorySize) {x : Nat} (hx : r.base ≤ x) :
    (r.placed s)[x - r.base]? = (s.write x).getD (r.image[x - r.base]?) := by
  obtain ⟨hlow, hend⟩ := Region.contains_iff.mp hc
  have hsized := r.sized
  have hdata : (assignSlice r.image (s.address - r.base) (s.address - r.base + s.data.length) s.data)[x - r.base]? = _ :=
    getElem?_assignSlice rfl (by omega)
  have hcov : s.Covers x ↔ s.address - r.base ≤ x - r.base ∧ x - r.base < s.address - r.base + s.memorySize := by
    unfold Segment.Covers
    omega
  have hidx : x - r.base - (s.address - r.base) = x - s.address := by omega
  rw [Segment.write]
  unfold Region.placed
  by_cases hfill : s.address - r.base + s.memorySize > s.address - r.base + s.data.length
  · simp only [if_pos hfill]
    have hlen := length_le_assignSlice r.image (s.address - r.base) s.data
    have hstop : s.address - r.base + s.memorySize = s.address - r.base + s.data.length +
        (List.replicate (s.address - r.base + s.memorySize - (s.address - r.base) - s.data.length)
          (0 : BitVec 8)).length := by
      rw [List.length_replicate]
      omega
    rw [getElem?_assignSlice hstop (by omega), hdata]
    by_cases h0 : s.address - r.base + s.data.length ≤ x - r.base ∧ x - r.base < s.address - r.base + s.memorySize
    · rw [if_pos h0, if_pos (hcov.mpr (by omega)), Option.getD_some, List.getElem?_replicate, if_pos (by omega),
        List.getD_eq_getElem?_getD, List.getElem?_eq_none (by omega), Option.getD_none]
    rw [if_neg h0]
    by_cases h1 : s.address - r.base ≤ x - r.base ∧ x - r.base < s.address - r.base + s.data.length
    · rw [if_pos h1, if_pos (hcov.mpr (by omega)), Option.getD_some, hidx, List.getD_eq_getElem?_getD,
        List.getElem?_eq_getElem (by omega), Option.getD_some]
    · rw [if_neg h1, if_neg (by rw [hcov]; omega), Option.getD_none]
  · simp only [if_neg hfill]
    rw [hdata]
    by_cases h1 : s.address - r.base ≤ x - r.base ∧ x - r.base < s.address - r.base + s.data.length
    · rw [if_pos h1, if_pos (hcov.mpr (by omega)), Option.getD_some, hidx, List.getD_eq_getElem?_getD,
        List.getElem?_eq_getElem (by omega), Option.getD_some]
    · rw [if_neg h1, if_neg (by rw [hcov]; omega), Option.getD_none]

/-- The bytes of a region with a segment placed in it are those of the write on top. -/
theorem Region.byteAt_place {r : Region} {s : Segment} (hc : r.contains s.address s.memorySize = true)
    (hd : s.data.length ≤ s.memorySize) (x : Nat) : (r.place s).byteAt x = (s.write x).getD (r.byteAt x) := by
  rw [Region.byteAt, Region.byteAt, Region.place_contains]
  by_cases hx : r.contains x 1 = true
  · rw [if_pos hx, if_pos hx]
    exact Region.getElem?_placed hc hd (Region.contains_iff.mp hx).1
  · have hno : ¬s.Covers x := by
      rw [Region.contains_iff] at hx hc
      unfold Segment.Covers
      omega
    rw [if_neg hx, if_neg hx, Segment.write, if_neg hno, Option.getD_none]

/-- A list whose only value is found somewhere finds it. -/
theorem findSome?_eq_some_of {α β : Type*} {f : α → Option β} {l : List α} {v : β}
    (hall : ∀ a ∈ l, f a = none ∨ f a = some v) (hex : ∃ a ∈ l, f a = some v) : l.findSome? f = some v := by
  induction l with
  | nil =>
    obtain ⟨a, ha, -⟩ := hex
    cases ha
  | cons a l ih =>
    rcases hall a (List.mem_cons_self ..) with h | h
    · rw [List.findSome?_cons_of_isNone (by rw [h]; rfl)]
      refine ih (fun b hb => hall b (List.mem_cons_of_mem _ hb)) ?_
      obtain ⟨b, hb, hv⟩ := hex
      rcases List.mem_cons.mp hb with rfl | hb
      · rw [h] at hv
        cases hv
      · exact ⟨b, hb, hv⟩
    · rw [List.findSome?_cons_of_isSome (by rw [h]; rfl), h]

/-- Two functions that agree on a list find the same in it. -/
theorem findSome?_congr {α β : Type*} {f g : α → Option β} {l : List α} (h : ∀ a ∈ l, f a = g a) :
    l.findSome? f = l.findSome? g := by
  induction l with
  | nil => rfl
  | cons a l ih =>
    rw [List.findSome?_cons, List.findSome?_cons, h a (List.mem_cons_self ..),
      ih fun b hb => h b (List.mem_cons_of_mem _ hb)]

/-! ## Placing the segments -/

/-- No two regions have an address in common. -/
def Apart (rs : List Region) : Prop := rs.Pairwise Region.Disjoint

instance (rs : List Region) : Decidable (Apart rs) := inferInstanceAs (Decidable (rs.Pairwise Region.Disjoint))

/-- Two regions that share an address are the same. -/
theorem Apart.eq_of_shared {rs : List Region} (h : Apart rs) {r q : Region} (hr : r ∈ rs) (hq : q ∈ rs) {x : Nat}
    (hrx : r.contains x 1 = true) (hqx : q.contains x 1 = true) : r = q := by
  by_contra hne
  have hdis : r.Disjoint q := h.forall hr hq hne
  rw [Region.contains_iff] at hrx hqx
  unfold Region.Disjoint at hdis
  omega

/-- What a round of the loop does: a segment that one region contains is placed in it. -/
theorem of_placeSegment {rs rs' : List Region} {s : Segment} (h : placeSegment rs s = .ok rs') :
    (∃ r ∈ rs, r.contains s.address s.memorySize = true) ∧
      rs' = rs.map fun r => if r.contains s.address s.memorySize then r.place s else r := by
  obtain ⟨hlen, h⟩ := ok_of_check h
  rw [not_not, List.length_eq_one_iff] at hlen
  obtain ⟨r, hr⟩ := hlen
  have hmem : r ∈ rs.filter (·.contains s.address s.memorySize) := by
    rw [hr]
    exact List.mem_singleton_self r
  rw [List.mem_filter] at hmem
  exact ⟨⟨r, hmem.1, hmem.2⟩, (Except.ok.inj h).symm⟩

/-- A region after a round has its name and its place. -/
theorem placed_contains (r : Region) (s : Segment) (x n : Nat) :
    (if r.contains s.address s.memorySize then r.place s else r).contains x n = r.contains x n := by
  cases r.contains s.address s.memorySize <;> rfl

/-- Placing a segment keeps the regions apart. -/
theorem Apart.placeSegment {rs rs' : List Region} {s : Segment} (h : Apart rs)
    (hp : Elf2Mem.placeSegment rs s = .ok rs') : Apart rs' := by
  rw [(of_placeSegment hp).2, Apart, List.pairwise_map]
  refine h.imp fun {r q} hrq => ?_
  cases r.contains s.address s.memorySize <;> cases q.contains s.address s.memorySize <;> exact hrq

/-- A round puts the write of its segment on top of what the regions hold. -/
theorem byteAt_placeSegment {rs rs' : List Region} {s : Segment} (h : Apart rs) (hd : s.data.length ≤ s.memorySize)
    (hp : Elf2Mem.placeSegment rs s = .ok rs') : byteAt rs' = Overlay.laid (byteAt rs) s.write := by
  obtain ⟨⟨q, hq, hqs⟩, rfl⟩ := of_placeSegment hp
  funext x
  rw [byteAt, List.findSome?_map, Overlay.laid]
  by_cases hx : s.Covers x
  · have hqx : q.contains x 1 = true := by
      rw [Region.contains_iff] at hqs ⊢
      unfold Segment.Covers at hx
      omega
    have hw : s.write x = some (some (s.data.getD (x - s.address) 0)) := if_pos hx
    rw [hw, Option.getD_some]
    refine findSome?_eq_some_of (fun r hr => ?_) ⟨q, hq, ?_⟩
    · by_cases hrx : r.contains x 1 = true
      · rw [h.eq_of_shared hr hq hrx hqx, Function.comp_apply, if_pos hqs, Region.byteAt_place hqs hd, hw]
        exact Or.inr rfl
      · rw [Function.comp_apply, Region.byteAt, placed_contains, if_neg hrx]
        exact Or.inl rfl
    · rw [Function.comp_apply, if_pos hqs, Region.byteAt_place hqs hd, hw]
      rfl
  · have hw : s.write x = none := if_neg hx
    rw [hw, Option.getD_none]
    refine findSome?_congr fun r _ => ?_
    rw [Function.comp_apply]
    by_cases hr : r.contains s.address s.memorySize = true
    · rw [if_pos hr, Region.byteAt_place hr hd, hw, Option.getD_none]
    · rw [if_neg hr]

/-- The loop over the segments lays their writes, oldest first. -/
theorem byteAt_placeSegments {ss : List Segment} {rs rs' : List Region} (h : Apart rs)
    (hd : ∀ s ∈ ss, s.data.length ≤ s.memorySize) (hp : ss.foldlM placeSegment rs = .ok rs') :
    byteAt rs' = Overlay.laidAll (byteAt rs) (ss.map Segment.write) ∧ Apart rs' := by
  induction ss generalizing rs with
  | nil =>
    cases hp
    exact ⟨rfl, h⟩
  | cons s ss ih =>
    rw [List.foldlM_cons] at hp
    obtain ⟨rs₁, hs, hp⟩ := ok_of_bind hp
    obtain ⟨hbytes, hapart⟩ := ih (h.placeSegment hs) (fun q hq => hd q (List.mem_cons_of_mem _ hq)) hp
    refine ⟨?_, hapart⟩
    rw [hbytes, List.map_cons, Overlay.laidAll_cons, byteAt_placeSegment h (hd s (List.mem_cons_self ..)) hs]

/-! ## The segments of a file -/

/-- The indices of the headers that are loaded. -/
def loaded (blob : List (BitVec 8)) (indices : List Nat) : List Nat :=
  indices.filter fun index => (programHeader blob index).loads

/-- What is checked of a header that is loaded. -/
structure ProgramHeader.Fits (h : ProgramHeader) (blob : List (BitVec 8)) : Prop where
  data : h.fileSize ≤ h.memorySize
  file : h.fileOffset + h.fileSize ≤ blob.length

/-- A header that is accepted is loaded and fits, or is not loaded at all. -/
theorem of_parseHeader {blob : List (BitVec 8)} {index : Nat} {s : Option Segment}
    (h : parseHeader blob index = .ok s) :
    if (programHeader blob index).loads then
      s = some ((programHeader blob index).segment blob) ∧ (programHeader blob index).Fits blob
    else s = none := by
  obtain ⟨-, h⟩ := ok_of_check h
  cases hl : (programHeader blob index).loads with
  | false =>
    simp only [hl] at h
    cases h
    exact rfl
  | true =>
    simp only [hl, Bool.not_true, Bool.false_eq_true, if_false] at h
    obtain ⟨hsize, h⟩ := ok_of_check h
    obtain ⟨hfile, h⟩ := ok_of_check h
    cases h
    exact ⟨rfl, ⟨by omega, by omega⟩⟩

/-- The segments are those of the headers that are loaded, in their order. -/
theorem of_parseHeaders {blob : List (BitVec 8)} {indices : List Nat} {ss : List Segment}
    (h : parseHeaders blob indices = .ok ss) :
    ss = (loaded blob indices).map (fun index => (programHeader blob index).segment blob) ∧
      ∀ index ∈ loaded blob indices, (programHeader blob index).Fits blob := by
  induction indices generalizing ss with
  | nil =>
    cases h
    exact ⟨rfl, nofun⟩
  | cons index rest ih =>
    rw [parseHeaders] at h
    obtain ⟨s, hs, h⟩ := ok_of_bind h
    obtain ⟨ss', hss, h⟩ := ok_of_bind h
    cases h
    obtain ⟨hrest, hfits⟩ := ih hss
    have hone := of_parseHeader hs
    rw [loaded, List.filter_cons]
    cases hl : (programHeader blob index).loads with
    | false =>
      rw [hl, if_neg (by decide)] at hone
      rw [hone, if_neg (by decide), hrest]
      exact ⟨rfl, hfits⟩
    | true =>
      rw [hl, if_pos rfl] at hone
      rw [hone.1, if_pos rfl, hrest]
      refine ⟨rfl, fun j hj => ?_⟩
      rcases List.mem_cons.mp hj with rfl | hj
      · exact hone.2
      · exact hfits j hj

/-- The indices of the program headers of a file. -/
def headerIndices (blob : List (BitVec 8)) : List Nat := List.range (elfHeader blob).programCount

/-- The segments of an accepted file are those of its program headers. -/
theorem of_parseElf32Little {blob : List (BitVec 8)} {p : Nat × List Segment} (h : parseElf32Little blob = .ok p) :
    parseHeaders blob (headerIndices blob) = .ok p.2 := by
  obtain ⟨-, h⟩ := ok_of_check h
  obtain ⟨-, h⟩ := ok_of_check h
  obtain ⟨-, h⟩ := ok_of_check h
  obtain ⟨-, h⟩ := ok_of_check h
  obtain ⟨-, h⟩ := ok_of_check h
  obtain ⟨ss, hss, h⟩ := ok_of_bind h
  obtain ⟨-, h⟩ := ok_of_check h
  cases h
  exact hss

/-! ## The conversion -/

/-- Writing the flat file leaves what the region holds. -/
theorem Region.byteAt_written (r : Region) (trim : Bool) (x : Nat) : (r.written trim).byteAt x = r.byteAt x := by
  have hcontains : (r.written trim).contains x 1 = r.contains x 1 := rfl
  rw [Region.byteAt, Region.byteAt, hcontains]
  by_cases hx : r.contains x 1 = true
  · have hsized := r.sized
    rw [if_pos hx, if_pos hx]
    rw [Region.contains_iff] at hx
    have hlt : x - r.base < r.image.length := by omega
    exact List.getElem?_append_left hlt
  · rw [if_neg hx, if_neg hx]

/-- What an accepted conversion has done. -/
theorem of_convert {blob : List (BitVec 8)} {rs : List Region} {o : Options} {out : Output}
    (h : convert blob rs o = .ok out) :
    ∃ p placed, parseElf32Little blob = .ok p ∧ p.2.foldlM placeSegment rs = .ok placed ∧
      out.regions = placed.map (·.written o.trim) ∧ out.wordMems = placed.map (·.wordMem o.trim) ∧
      writeBanks out.regions "CODE" o.iccmLanes 4 "exactly four --iccm-lane outputs are required"
        "CODE region is required for ICCM lane generation" = .ok out.iccmLanes ∧
      writeBanks out.regions "DATA" o.dccmBanks 8 "exactly eight --dccm-bank outputs are required"
        "DATA region is required for DCCM bank generation" = .ok out.dccmBanks := by
  obtain ⟨p, hp, h⟩ := ok_of_bind h
  obtain ⟨placed, hplaced, h⟩ := ok_of_bind h
  obtain ⟨codeBanks, -, h⟩ := ok_of_bind h
  obtain ⟨lanes, hlanes, h⟩ := ok_of_bind h
  obtain ⟨banks, hbanks, h⟩ := ok_of_bind h
  cases h
  exact ⟨p, placed, hp, hplaced, rfl, rfl, hlanes, hbanks⟩

/-- A region keeps its name and its place from the first to the last. -/
def SamePlace (r q : Region) : Prop := r.name = q.name ∧ r.base = q.base ∧ r.size = q.size

/-- Placing the segments keeps every region in its place. -/
theorem samePlace_placeSegments {ss : List Segment} {rs rs' : List Region} (hp : ss.foldlM placeSegment rs = .ok rs') :
    ∀ r ∈ rs', ∃ q ∈ rs, SamePlace r q := by
  induction ss generalizing rs with
  | nil =>
    cases hp
    exact fun r hr => ⟨r, hr, rfl, rfl, rfl⟩
  | cons s ss ih =>
    rw [List.foldlM_cons] at hp
    obtain ⟨rs₁, hs, hp⟩ := ok_of_bind hp
    intro r hr
    obtain ⟨q, hq, hname, hbase, hsize⟩ := ih hp r hr
    rw [(of_placeSegment hs).2] at hq
    obtain ⟨q', hq', rfl⟩ := List.mem_map.mp hq
    refine ⟨q', hq', ?_⟩
    cases hc : q'.contains s.address s.memorySize <;> simp only [hc] at hname hbase hsize <;>
      exact ⟨hname, hbase, hsize⟩

/-- The regions of an accepted conversion are those it was given, with other images. -/
theorem samePlace_convert {blob : List (BitVec 8)} {rs : List Region} {o : Options} {out : Output}
    (h : convert blob rs o = .ok out) : ∀ r ∈ out.regions, ∃ q ∈ rs, SamePlace r q := by
  obtain ⟨p, placed, -, hplaced, hregions, -⟩ := of_convert h
  intro r hr
  rw [hregions] at hr
  obtain ⟨q, hq, rfl⟩ := List.mem_map.mp hr
  exact samePlace_placeSegments hplaced q hq

/-- The regions of an accepted file hold the writes of its segments, in the order of the headers. -/
theorem byteAt_convert {blob : List (BitVec 8)} {rs : List Region} {o : Options} {out : Output} (ha : Apart rs)
    (h : convert blob rs o = .ok out) :
    byteAt out.regions = Overlay.laidAll (byteAt rs)
        ((loaded blob (headerIndices blob)).map fun index => ((programHeader blob index).segment blob).write) ∧
      ∀ index ∈ loaded blob (headerIndices blob), (programHeader blob index).Fits blob := by
  obtain ⟨p, placed, hp, hplaced, hregions, -⟩ := of_convert h
  obtain ⟨hss, hfits⟩ := of_parseHeaders (of_parseElf32Little hp)
  refine ⟨?_, hfits⟩
  have hd : ∀ s ∈ p.2, s.data.length ≤ s.memorySize := by
    intro s hs
    rw [hss, List.mem_map] at hs
    obtain ⟨index, hindex, rfl⟩ := hs
    refine Nat.le_trans ?_ (hfits index hindex).data
    simp only [ProgramHeader.segment, slice, List.length_take]
    omega
  have hbytes := (byteAt_placeSegments ha hd hplaced).1
  have hwritten : byteAt out.regions = byteAt placed := by
    funext x
    rw [hregions, byteAt, List.findSome?_map]
    exact findSome?_congr fun r _ => r.byteAt_written o.trim x
  rw [hwritten, hbytes, hss, List.map_map]
  rfl

end Elf2Mem

end SocRV
