import Mathlib.Algebra.Group.Nat.Defs
import Mathlib.Data.List.Nodup
import Mathlib.Data.List.Perm.Subperm
import SocRV.Build.MemoryInfo
import SocRV.Lib.Checked

/-!
# What the memory info describes

The rows that `classify` accepts are one for each position, and the elements of a memory array are the rows of its
positions and tile its bits and addresses.
-/

namespace SocRV

namespace MemoryInfo

/-! ## Tilings -/

/-- The block holds a bit of an address. -/
def Span.Covers (s : Span) (bit address : Nat) : Prop :=
  s.lsb ≤ bit ∧ bit ≤ s.msb ∧ s.first ≤ address ∧ address ≤ s.last

/-- The blocks tile a rectangle: they lie in it, and each bit of each address is in exactly one of them. -/
structure Tiles (blocks : List Span) (width depth : Nat) : Prop where
  inside : ∀ s ∈ blocks, s.msb < width ∧ s.last < depth
  once : ∀ bit < width, ∀ address < depth, ∃! i : Nat, ∃ s : Span, blocks[i]? = some s ∧ s.Covers bit address

/-- Blocks tile a rectangle when a formula tells for each bit and address which block it is in. -/
theorem tiles_of_index {blocks : List Span} {width depth : Nat} (index : Nat → Nat → Nat)
    (hinside : ∀ s ∈ blocks, s.msb < width ∧ s.last < depth)
    (hlt : ∀ bit < width, ∀ address < depth, index bit address < blocks.length)
    (hindex : ∀ bit < width, ∀ address < depth, ∀ p ∈ blocks.zipIdx, p.1.Covers bit address ↔ index bit address = p.2) :
    Tiles blocks width depth := by
  refine ⟨hinside, fun bit hbit address haddress => ?_⟩
  have hcovers : ∀ i s, blocks[i]? = some s → (s.Covers bit address ↔ index bit address = i) := by
    intro i s hs
    exact hindex bit hbit address haddress (s, i) (List.mk_mem_zipIdx_iff_getElem?.mpr hs)
  have hget := List.getElem?_eq_getElem (hlt bit hbit address haddress)
  refine ⟨index bit address, ⟨_, hget, (hcovers _ _ hget).mpr rfl⟩, ?_⟩
  rintro i ⟨s, hs, hc⟩
  exact ((hcovers i s hs).mp hc).symm

/-- The text of a bit layout. -/
def bitLayout (parity data : Nat) : Text := s!"p{parity}_d{data}".toList

/-- A bit layout is for as many bits as the block is wide. -/
def Span.Fits (s : Span) (layout : Text) : Prop :=
  ∃ parity data, layout = bitLayout parity data ∧ parity + data + s.lsb = s.msb + 1

/-- Both layouts are for as many bits as the block is wide. -/
def Span.FitsPorts (s : Span) (p : Ports) : Prop := s.Fits p.portaLayout ∧ s.Fits p.portbLayout

/-- Two ports of one layout fit when its bits are as many as the block is wide. -/
theorem fitsPorts_uniform {s : Span} {width : Int} {layout : String} (parity data : Nat)
    (h : layout.toList = bitLayout parity data) (hbits : parity + data + s.lsb = s.msb + 1) :
    s.FitsPorts (.uniform width layout) := ⟨⟨parity, data, h, hbits⟩, ⟨parity, data, h, hbits⟩⟩

/-- Eight slices of four bits tile a lane. -/
theorem tiles_7series : Tiles (laneSpans iccm7SeriesGeometry) 32 8192 := by
  have hspans : laneSpans iccm7SeriesGeometry = (List.range 8).map fun i => ⟨i * 4, i * 4 + 3, 0, 8191⟩ := if_pos rfl
  rw [hspans]
  refine tiles_of_index (fun bit _ => bit / 4) ?_ ?_ ?_
  · intro s hs
    obtain ⟨i, hi, rfl⟩ := List.mem_map.mp hs
    rw [List.mem_range] at hi
    dsimp only
    omega
  · intro bit hbit _ _
    rw [List.length_map, List.length_range]
    omega
  · rintro bit hbit address haddress ⟨s, i⟩ hp
    rw [List.mk_mem_zipIdx_iff_getElem?, List.getElem?_map, Option.map_eq_some_iff] at hp
    obtain ⟨j, hj, rfl⟩ := hp
    obtain ⟨-, rfl⟩ := List.getElem?_eq_some_iff.mp hj
    rw [List.getElem_range]
    unfold Span.Covers
    dsimp only
    omega

/-- The blocks of a lane in the geometry with slices of four shapes. -/
theorem laneSpans_ultrascale : laneSpans iccmUltrascaleGeometry =
    [⟨0, 17, 0, 2047⟩, ⟨0, 17, 2048, 4095⟩, ⟨0, 17, 4096, 6143⟩, ⟨0, 17, 6144, 8191⟩, ⟨18, 26, 0, 4095⟩,
      ⟨18, 26, 4096, 8191⟩, ⟨27, 30, 0, 8191⟩, ⟨31, 31, 0, 8191⟩] := by
  rw [laneSpans, if_neg (by decide)]
  rfl

/-- Which slice of a lane holds a bit of an address, in the geometry with slices of four shapes. -/
def ultrascaleIndex (bit address : Nat) : Nat :=
  if bit < 18 then address / 2048 else if bit < 27 then 4 + address / 4096 else if bit < 31 then 6 else 7

/-- Slices of four shapes tile a lane. -/
theorem tiles_ultrascale : Tiles (laneSpans iccmUltrascaleGeometry) 32 8192 := by
  rw [laneSpans_ultrascale]
  refine tiles_of_index ultrascaleIndex (by decide) ?_ ?_
  · intro bit hbit address haddress
    unfold ultrascaleIndex
    simp only [List.length_cons, List.length_nil]
    split_ifs <;> omega
  · intro bit hbit address haddress
    generalize hi : ultrascaleIndex bit address = i
    unfold ultrascaleIndex at hi
    unfold Span.Covers
    simp only [List.zipIdx_cons, List.zipIdx_nil, List.forall_mem_cons, List.not_mem_nil, false_implies, implies_true,
      and_true]
    split_ifs at hi <;> omega

/-- Two slices tile a bank. -/
theorem tiles_bank : Tiles bankSpans 32 2048 := by
  refine tiles_of_index (fun bit _ => bit / 18) (by decide) ?_ ?_
  · intro bit hbit address _
    simp only [bankSpans, List.length_cons, List.length_nil]
    omega
  · intro bit hbit address haddress
    unfold Span.Covers bankSpans
    simp only [List.zipIdx_cons, List.zipIdx_nil, List.forall_mem_cons, List.not_mem_nil, false_implies, implies_true,
      and_true]
    omega

/-- The layouts of each geometry are those of its blocks. -/
theorem forall₂_fitsPorts {geometry : List Ports} (h : geometry ∈ [iccm7SeriesGeometry, iccmUltrascaleGeometry]) :
    List.Forall₂ Span.FitsPorts (laneSpans geometry) geometry := by
  have h4 : ∀ s : Span, 4 + s.lsb = s.msb + 1 → s.FitsPorts (.uniform 4 "p0_d4") := fun s hs =>
    fitsPorts_uniform 0 4 (by decide) (by omega)
  have h18 : ∀ s : Span, 18 + s.lsb = s.msb + 1 → s.FitsPorts (.uniform 18 "p2_d16") := fun s hs =>
    fitsPorts_uniform 2 16 (by decide) (by omega)
  have h9 : ∀ s : Span, 9 + s.lsb = s.msb + 1 → s.FitsPorts (.uniform 9 "p1_d8") := fun s hs =>
    fitsPorts_uniform 1 8 (by decide) (by omega)
  have h1 : ∀ s : Span, 1 + s.lsb = s.msb + 1 → s.FitsPorts (.uniform 2 "p0_d1") := fun s hs =>
    fitsPorts_uniform 0 1 (by decide) (by omega)
  rw [List.mem_cons, List.mem_singleton] at h
  rcases h with rfl | rfl
  · exact .cons (h4 _ rfl) (.cons (h4 _ rfl) (.cons (h4 _ rfl) (.cons (h4 _ rfl) (.cons (h4 _ rfl) (.cons (h4 _ rfl)
      (.cons (h4 _ rfl) (.cons (h4 _ rfl) .nil)))))))
  · rw [laneSpans_ultrascale]
    exact .cons (h18 _ rfl) (.cons (h18 _ rfl) (.cons (h18 _ rfl) (.cons (h18 _ rfl) (.cons (h9 _ rfl) (.cons (h9 _ rfl)
      (.cons (h4 _ rfl) (.cons (h1 _ rfl) .nil)))))))

/-- In both geometries the blocks tile a lane. -/
theorem tiles_lane {geometry : List Ports} (h : geometry ∈ [iccm7SeriesGeometry, iccmUltrascaleGeometry]) :
    Tiles (laneSpans geometry) 32 8192 := by
  rw [List.mem_cons, List.mem_singleton] at h
  rcases h with rfl | rfl
  · exact tiles_7series
  · exact tiles_ultrascale

/-! ## The elements of an array -/

/-- The block of a port. -/
def Port.span (p : Port) : Span := ⟨p.lsb, p.msb, p.first, p.last⟩

/-- The element is that of a row. -/
structure Element.IsOf (e : Element) (b : Bram) : Prop where
  memType : e.memType.isPrefixOf b.refName = true
  placement : e.placement = removePrefix (e.memType ++ ['_']) b.loc
  readWidthA : e.readWidthA = b.readWidthA
  readWidthB : e.readWidthB = b.readWidthB
  patternA : e.portA.pattern = b.portaLayout
  patternB : e.portB.pattern = b.portbLayout

/-- The elements are those of the rows of their positions, and tile a memory of 32 bits and so many addresses; their bit
layouts are for as many bits as they are given. -/
structure Exact (rows : List Bram) (position' : Nat → Position) (depth : Nat) (elements : List Element) : Prop where
  rows : ∀ i e, elements[i]? = some e → ∃ b ∈ rows, position b.cell = some (position' i) ∧ e.IsOf b
  tilesA : Tiles (elements.map fun e => e.portA.span) 32 depth
  tilesB : Tiles (elements.map fun e => e.portB.span) 32 depth
  layouts : ∀ e ∈ elements, e.portA.span.Fits e.portA.pattern ∧ e.portB.span.Fits e.portB.pattern

/-- An element that is added is that of its row, with the given block at both ports. -/
theorem of_addBram {b : Bram} {s : Span} {e : Element} (h : addBram b s = .ok e) :
    e.IsOf b ∧ e.portA.span = s ∧ e.portB.span = s := by
  unfold addBram at h
  split_ifs at h with h36 h18
  · cases h
    exact ⟨⟨h36, rfl, rfl, rfl, rfl, rfl⟩, rfl, rfl⟩
  · cases h
    exact ⟨⟨h18, rfl, rfl, rfl, rfl, rfl⟩, rfl, rfl⟩

/-- Each block gets the element of the row with its index. -/
theorem of_addBrams {slices : Slices} {spans : List Span} {elements : List Element}
    (h : addBrams slices spans = .ok elements) :
    List.Forall₂ (fun p e => ∃ b, slices.get? p.2 = some b ∧ addBram b p.1 = .ok e) spans.zipIdx elements := by
  refine (ok_of_mapM h).imp fun p e hp => ?_
  cases hb : slices.get? p.2 with
  | none =>
    rw [hb] at hp
    cases hp
  | some b =>
    rw [hb] at hp
    exact ⟨b, rfl, hp⟩

/-- The elements of rows in blocks that tile a memory. -/
theorem exact_of_addBrams {rows : List Bram} {position' : Nat → Position} {depth : Nat} {slices : Slices}
    {spans : List Span} {elements : List Element} (h : addBrams slices spans = .ok elements)
    (hrows : ∀ i b, slices.get? i = some b → b ∈ rows ∧ position b.cell = some (position' i))
    (htiles : Tiles spans 32 depth) (hfits : ∀ i s b, spans[i]? = some s → slices.get? i = some b → s.FitsPorts b.ports) :
    Exact rows position' depth elements := by
  have hall := of_addBrams h
  have hlen : spans.length = elements.length := by
    rw [← hall.length_eq, List.length_zipIdx]
  have hget : ∀ i e, elements[i]? = some e →
      ∃ s b, spans[i]? = some s ∧ slices.get? i = some b ∧ e.IsOf b ∧ e.portA.span = s ∧ e.portB.span = s := by
    intro i e he
    obtain ⟨hi, rfl⟩ := List.getElem?_eq_some_iff.mp he
    have his : i < spans.zipIdx.length := by
      rw [hall.length_eq]
      exact hi
    obtain ⟨b, hb, hadd⟩ := hall.get his hi
    rw [List.get_eq_getElem, List.getElem_zipIdx, Nat.zero_add] at hb hadd
    rw [List.length_zipIdx] at his
    exact ⟨spans[i], b, List.getElem?_eq_getElem his, hb, of_addBram hadd⟩
  have hspans : ∀ span : Element → Span, (∀ (i : Nat) e s, elements[i]? = some e → spans[i]? = some s → span e = s) →
      elements.map span = spans := by
    intro span hspan
    refine List.ext_getElem (by rw [List.length_map, hlen]) fun i hi his => ?_
    rw [List.length_map] at hi
    rw [List.getElem_map]
    exact hspan i _ _ (List.getElem?_eq_getElem hi) (List.getElem?_eq_getElem his)
  refine ⟨?_, ?_, ?_, ?_⟩
  · intro i e he
    obtain ⟨s, b, -, hb, hof, -⟩ := hget i e he
    obtain ⟨hmem, hpos⟩ := hrows i b hb
    exact ⟨b, hmem, hpos, hof⟩
  · rw [hspans _ fun i e s he hs => ?_]
    · exact htiles
    · obtain ⟨s', b, hs', -, -, hA, -⟩ := hget i e he
      exact hA.trans (Option.some.inj (hs'.symm.trans hs))
  · rw [hspans _ fun i e s he hs => ?_]
    · exact htiles
    · obtain ⟨s', b, hs', -, -, -, hB⟩ := hget i e he
      exact hB.trans (Option.some.inj (hs'.symm.trans hs))
  · intro e he
    obtain ⟨i, hi⟩ := List.mem_iff_getElem?.mp he
    obtain ⟨s, b, hs, hb, hof, hA, hB⟩ := hget i e hi
    obtain ⟨hfA, hfB⟩ := hfits i s b hs hb
    rw [hA, hB, hof.patternA, hof.patternB]
    exact ⟨hfA, hfB⟩

/-! ## The rows of the positions -/

/-- The positions of the lanes and banks. -/
def allPositions : List Position :=
  ((List.range 4).flatMap fun lane => (List.range 8).map (.iccm lane)) ++
    (List.range 8).flatMap fun bank => (List.range 2).map (.dccm bank)

/-- A slice that is set is found, and the others are as before. -/
@[simp] theorem Slices.get?_set (s : Slices) (i j : Nat) (b : Bram) :
    (s.set i b).get? j = if j = i then some b else s.get? j := by
  unfold Slices.get? Slices.set
  rw [List.lookup_cons]
  by_cases hj : j = i
  · rw [if_pos hj, beq_iff_eq.mpr hj]
  · rw [if_neg hj, beq_eq_false_iff_ne.mpr hj]
    dsimp only
    induction s with
    | nil => rfl
    | cons p s ih =>
      obtain ⟨k, c⟩ := p
      by_cases hk : k = i
      · subst hk
        rw [List.filter_cons_of_neg (by simp), ih, List.lookup_cons, beq_eq_false_iff_ne.mpr hj]
      · rw [List.filter_cons_of_pos (by simpa using hk), List.lookup_cons, List.lookup_cons, ih]

/-- A row that a dictionary holds is the one just put there, or was there before. -/
theorem get?_update {f : Nat → Slices} {k l i j : Nat} {b c : Bram}
    (h : (if l = k then (f l).set i b else f l).get? j = some c) : (l = k ∧ j = i ∧ c = b) ∨ (f l).get? j = some c := by
  by_cases hl : l = k
  · rw [if_pos hl, Slices.get?_set] at h
    by_cases hj : j = i
    · rw [if_pos hj] at h
      exact .inl ⟨hl, hj, (Option.some.inj h).symm⟩
    · rw [if_neg hj] at h
      exact .inr h
  · rw [if_neg hl] at h
    exact .inr h

/-- What the dictionaries hold are rows of their positions. -/
structure Classified (rows : List Bram) (s : Classes) : Prop where
  iccm : ∀ lane i b, (s.iccm lane).get? i = some b → b ∈ rows ∧ position b.cell = some (.iccm lane i)
  dccm : ∀ bank i b, (s.dccm bank).get? i = some b → b ∈ rows ∧ position b.cell = some (.dccm bank i)

/-- Classifying a row keeps rows of their positions in the dictionaries. -/
theorem classified_row {rows : List Bram} {s s' : Classes} {b : Bram} (hb : b ∈ rows) (h : Classified rows s)
    (hrow : classifyRow s b = .ok s') : Classified rows s' := by
  obtain ⟨-, hrow⟩ := ok_of_check hrow
  obtain ⟨-, hrow⟩ := ok_of_check hrow
  cases hp : position b.cell with
  | none =>
    simp only [hp] at hrow
    cases hrow
  | some p =>
    cases p with
    | iccm lane slice =>
      simp only [hp] at hrow
      split_ifs at hrow
      cases hrow
      refine ⟨fun l i c hc => ?_, h.dccm⟩
      rcases get?_update (f := s.iccm) hc with ⟨rfl, rfl, rfl⟩ | hc
      · exact ⟨hb, hp⟩
      · exact h.iccm l i c hc
    | dccm bank slice =>
      simp only [hp] at hrow
      split_ifs at hrow
      cases hrow
      refine ⟨h.iccm, fun k i c hc => ?_⟩
      rcases get?_update (f := s.dccm) hc with ⟨rfl, rfl, rfl⟩ | hc
      · exact ⟨hb, hp⟩
      · exact h.dccm k i c hc

/-- What a lane has passed. -/
theorem of_checkLane {g g' : Option (List Ports)} {lane : Nat} {slices : Slices}
    (h : checkLane g lane slices = .ok g') :
    slices.complete 8 = true ∧ laneGeometry slices ∈ [iccm7SeriesGeometry, iccmUltrascaleGeometry] := by
  obtain ⟨hcomplete, h⟩ := ok_of_check h
  obtain ⟨hgeometry, -⟩ := ok_of_check h
  rw [Bool.not_eq_true', Bool.not_eq_false] at hcomplete
  exact ⟨hcomplete, not_not.mp hgeometry⟩

/-- Complete slices have every one of them. -/
theorem isSome_of_complete {slices : Slices} {n i : Nat} (h : slices.complete n = true) (hi : i < n) :
    ∃ b, slices.get? i = some b := by
  unfold Slices.complete at h
  rw [Bool.and_eq_true, List.all_eq_true, List.all_eq_true] at h
  exact Option.isSome_iff_exists.mp (h.2 i (List.mem_range.mpr hi))

/-- The geometry of a full lane lists the ports of its slices. -/
theorem laneGeometry_getElem? {slices : Slices} {i : Nat} {b : Bram} (h : slices.complete 8 = true) (hi : i < 8)
    (hb : slices.get? i = some b) : (laneGeometry slices)[i]? = some b.ports := by
  have hmap : ∀ xs : List Nat, (∀ j ∈ xs, j < 8) →
      (xs.filterMap fun j => (slices.get? j).map Bram.ports).map some = xs.map fun j => (slices.get? j).map Bram.ports := by
    intro xs hxs
    induction xs with
    | nil => rfl
    | cons j xs ih =>
      obtain ⟨c, hc⟩ := isSome_of_complete h (hxs j (List.mem_cons_self ..))
      have hj : (slices.get? j).map Bram.ports = some c.ports := by rw [hc, Option.map_some]
      rw [List.filterMap_cons_some (f := fun j => (slices.get? j).map Bram.ports) hj, List.map_cons, List.map_cons, hj,
        ih fun k hk => hxs k (List.mem_cons_of_mem _ hk)]
  have hget := congrArg (fun l => l[i]?) (hmap (List.range 8) fun j hj => List.mem_range.mp hj)
  rw [← laneGeometry] at hget
  rw [List.getElem?_map, List.getElem?_map, List.getElem?_range hi, Option.map_some, hb, Option.map_some] at hget
  obtain ⟨p, hp, heq⟩ := Option.map_eq_some_iff.mp hget
  rw [hp, Option.some.inj heq]

/-- What a bank has passed. -/
theorem of_checkBank {bank : Nat} {slices : Slices} (h : checkBank bank slices = .ok ()) :
    slices.complete 2 = true ∧ (∀ b, slices.get? 0 = some b → b.ports = .uniform 18 "p2_d16") ∧
    ∀ b, slices.get? 1 = some b → b.ports = .uniform 18 "p0_d14" := by
  have hslice : ∀ {index : Nat} {layout : String}, checkBankSlice slices bank index layout = .ok () →
      ∀ b, slices.get? index = some b → b.ports = .uniform 18 layout := by
    intro index layout hcheck b hb
    unfold checkBankSlice at hcheck
    rw [hb] at hcheck
    exact not_not.mp (ok_of_check hcheck).1
  obtain ⟨hcomplete, h⟩ := ok_of_check h
  obtain ⟨⟨⟩, h0, h1⟩ := ok_of_bind h
  rw [Bool.not_eq_true', Bool.not_eq_false] at hcomplete
  exact ⟨hcomplete, hslice h0, hslice h1⟩

/-- What `classify` has found when it accepts. -/
structure Accepted (rows : List Bram) (s : Classes) : Prop extends Classified rows s where
  count : rows.length = 48
  lanes : ∀ lane < 4, (s.iccm lane).complete 8 = true ∧
    laneGeometry (s.iccm lane) ∈ [iccm7SeriesGeometry, iccmUltrascaleGeometry]
  banks : ∀ bank < 8, checkBank bank (s.dccm bank) = .ok ()

/-- What `classify` accepts is as said. -/
theorem accepted_of_classify {rows : List Bram} {s : Classes} (h : classify rows = .ok s) : Accepted rows s := by
  obtain ⟨t, hrows, h⟩ := ok_of_bind h
  obtain ⟨hcount, h⟩ := ok_of_check h
  obtain ⟨g, hlanes, h⟩ := ok_of_bind h
  obtain ⟨⟨⟩, hbanks, h⟩ := ok_of_bind h
  cases h
  have hnone : Classified rows {} := by
    constructor
    · intro _ _ _ h
      cases h
    · intro _ _ _ h
      cases h
  refine ⟨foldlM_keeps (fun s b hb s' => classified_row hb) hrows hnone, not_not.mp hcount, fun lane hlane => ?_,
    fun bank hbank => ok_of_forM hbanks bank (List.mem_range.mpr hbank)⟩
  obtain ⟨c, c', hc⟩ := ok_of_foldlM hlanes lane (List.mem_range.mpr hlane)
  exact of_checkLane hc

/-- The rows are one for each position: there are as many as positions, and every position has one. -/
theorem perm_positions {rows : List Bram} {s : Classes} (h : Accepted rows s) :
    (rows.map fun b => position b.cell).Perm (allPositions.map some) := by
  have hnodup : (allPositions.map some).Nodup := by decide
  have hsub : allPositions.map some ⊆ rows.map fun b => position b.cell := by
    intro p hp
    obtain ⟨q, hq, rfl⟩ := List.mem_map.mp hp
    rw [List.mem_map]
    rcases List.mem_append.mp hq with hq | hq
    · obtain ⟨lane, hlane, hq⟩ := List.mem_flatMap.mp hq
      obtain ⟨i, hi, rfl⟩ := List.mem_map.mp hq
      obtain ⟨b, hb⟩ := isSome_of_complete (h.lanes lane (List.mem_range.mp hlane)).1 (List.mem_range.mp hi)
      exact ⟨b, h.iccm lane i b hb⟩
    · obtain ⟨bank, hbank, hq⟩ := List.mem_flatMap.mp hq
      obtain ⟨i, hi, rfl⟩ := List.mem_map.mp hq
      obtain ⟨hcomplete, -⟩ := of_checkBank (h.banks bank (List.mem_range.mp hbank))
      obtain ⟨b, hb⟩ := isSome_of_complete hcomplete (List.mem_range.mp hi)
      exact ⟨b, h.dccm bank i b hb⟩
  refine ((List.subperm_of_subset hnodup hsub).perm_of_length_le ?_).symm
  rw [List.length_map, h.count]
  decide

/-- The elements of a lane are exact. -/
theorem exact_lane {rows : List Bram} {s : Classes} {lane : Nat} {elements : List Element} (h : Accepted rows s)
    (hlane : lane < 4) (hadd : addBrams (s.iccm lane) (laneSpans (laneGeometry (s.iccm lane))) = .ok elements) :
    Exact rows (.iccm lane) 8192 elements := by
  obtain ⟨hcomplete, hgeometry⟩ := h.lanes lane hlane
  refine exact_of_addBrams hadd (h.iccm lane) (tiles_lane hgeometry) fun i t b ht hb => ?_
  have hall := forall₂_fitsPorts hgeometry
  obtain ⟨hi, rfl⟩ := List.getElem?_eq_some_iff.mp ht
  have hi' : i < (laneGeometry (s.iccm lane)).length := by
    rw [← hall.length_eq]
    exact hi
  have hlen : (laneGeometry (s.iccm lane)).length ≤ 8 := by
    rw [List.mem_cons, List.mem_singleton] at hgeometry
    rcases hgeometry with hg | hg
    · rw [hg]
      decide
    · rw [hg]
      decide
  have hports := laneGeometry_getElem? hcomplete (by omega) hb
  rw [List.getElem?_eq_getElem hi'] at hports
  have hfits := hall.get hi hi'
  rw [List.get_eq_getElem, List.get_eq_getElem, Option.some.inj hports] at hfits
  exact hfits

/-- The elements of a bank are exact. -/
theorem exact_bank {rows : List Bram} {s : Classes} {bank : Nat} {elements : List Element} (h : Accepted rows s)
    (hbank : bank < 8) (hadd : addBrams (s.dccm bank) bankSpans = .ok elements) :
    Exact rows (.dccm bank) 2048 elements := by
  obtain ⟨-, h0, h1⟩ := of_checkBank (h.banks bank hbank)
  refine exact_of_addBrams hadd (h.dccm bank) tiles_bank fun i t b ht hb => ?_
  match i with
  | 0 =>
    cases ht
    rw [h0 b hb]
    exact fitsPorts_uniform 2 16 (by decide) rfl
  | 1 =>
    cases ht
    rw [h1 b hb]
    exact fitsPorts_uniform 0 14 (by decide) rfl
  | i + 2 => cases ht

end MemoryInfo

end SocRV
