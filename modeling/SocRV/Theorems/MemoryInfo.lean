import Mathlib.Algebra.Group.Nat.Defs
import SocRV.Build.MemoryTiling

/-!
# The memory info is exact

The generator refuses the rows, or they are one for each slice of a lane or bank and the memory arrays that it writes
are tiled by them.
-/

namespace SocRV

namespace MemoryInfo

/-- The memory arrays are those of the four lanes and the eight banks, the rows are one for each of their positions, and
each array is tiled by the rows of its positions. -/
structure Describes (rows : List Bram) (mmi : List MemoryArray) : Prop where
  positions : (rows.map fun b => position b.cell).Perm (allPositions.map some)
  lanes : ∀ lane < 4, ∃ elements, mmi[lane]? = some ⟨s!"ICCM_LANE{lane}", elements⟩ ∧
    Exact rows (.iccm lane) 8192 elements
  banks : ∀ bank < 8, ∃ elements, mmi[4 + bank]? = some ⟨s!"DCCM_BANK{bank}", elements⟩ ∧
    Exact rows (.dccm bank) 2048 elements
  count : mmi.length = 12

/-- Two rows of a described memory at one position are the same row. -/
theorem Describes.unique {rows : List Bram} {mmi : List MemoryArray} (h : Describes rows mmi) {b c : Bram} (hb : b ∈ rows)
    (hc : c ∈ rows) (hpos : position b.cell = position c.cell) : b = c := by
  have hnodup : (rows.map fun b => position b.cell).Nodup := h.positions.nodup_iff.mpr (by decide)
  exact List.inj_on_of_nodup_map hnodup hb hc hpos

/-- For any rows, the generator raises an error, or the rows are one for each slice of a lane or bank and the arrays it
writes are tiled by them; rows with different cell names are then at different positions. -/
theorem generate_exact (part : Option String) (rows : List Bram) :
    (∃ e, generate part rows = .error e) ∨
      ∃ mmi, generate part rows = .ok mmi ∧ Describes rows mmi ∧
        ∀ b ∈ rows, ∀ c ∈ rows, b.cell ≠ c.cell → position b.cell ≠ position c.cell := by
  cases hg : generate part rows with
  | error e => exact .inl ⟨e, rfl⟩
  | ok mmi =>
    right
    obtain ⟨-, h⟩ := ok_of_check hg
    obtain ⟨s, hclassify, h⟩ := ok_of_bind h
    obtain ⟨lanes, hlanes, h⟩ := ok_of_bind h
    obtain ⟨banks, hbanks, h⟩ := ok_of_bind h
    cases h
    have haccepted := accepted_of_classify hclassify
    have hlanes' := ok_of_mapM hlanes
    have hbanks' := ok_of_mapM hbanks
    have hnlanes : lanes.length = 4 := by rw [← hlanes'.length_eq, List.length_range]
    have hnbanks : banks.length = 8 := by rw [← hbanks'.length_eq, List.length_range]
    have hdescribes : Describes rows (lanes ++ banks) := by
      refine ⟨perm_positions haccepted, fun lane hlane => ?_, fun bank hbank => ?_, ?_⟩
      · have hrange : lane < (List.range 4).length := by
          rw [List.length_range]
          exact hlane
        have hround := hlanes'.get hrange (by omega)
        rw [List.get_eq_getElem, List.getElem_range] at hround
        obtain ⟨elements, hadd, heq⟩ := ok_of_bind hround
        refine ⟨elements, ?_, exact_lane haccepted hlane hadd⟩
        rw [List.getElem?_append_left (by omega), List.getElem?_eq_getElem (by omega)]
        exact congrArg some (Except.ok.inj heq).symm
      · have hrange : bank < (List.range 8).length := by
          rw [List.length_range]
          exact hbank
        have hround := hbanks'.get hrange (by omega)
        rw [List.get_eq_getElem, List.getElem_range] at hround
        obtain ⟨elements, hadd, heq⟩ := ok_of_bind hround
        refine ⟨elements, ?_, exact_bank haccepted hbank hadd⟩
        rw [List.getElem?_append_right (by omega), hnlanes, Nat.add_sub_cancel_left,
          List.getElem?_eq_getElem (by omega)]
        exact congrArg some (Except.ok.inj heq).symm
      · rw [List.length_append, hnlanes, hnbanks]
    exact ⟨_, rfl, hdescribes, fun b hb c hc hne hpos => hne (congrArg Bram.cell (hdescribes.unique hb hc hpos))⟩

end MemoryInfo

end SocRV
