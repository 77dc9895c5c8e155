import SocRV.Soc.I2cInvariant

/-!
# The lines that the I2C controller drives

While the clock line is let go, the data line is an announcement: it falls in a start and rises in a stop.  No other step
of the controller changes it then.
-/

namespace SocRV

namespace I2cMaster

/-- From one cycle to the next the data line stays as it is, unless the clock line is driven low in one of them. -/
def KeepsSda (s t : I2cMaster) : Prop :=
  s.drives.sclLow = false → t.drives.sclLow = false → s.drives.sdaLow = t.drives.sdaLow

/-- The step that makes the start, or the one that makes the stop. -/
def StartOrStop (s t : I2cMaster) : Prop :=
  (s.state = .startRelease ∧ t.state = .startSdaLow) ∨ (s.state = .stopSclHigh ∧ t.state = .stopRelease)

section Lines

variable {s t : I2cMaster} {req : Option Payload} {l : Lines}

/-- Nothing changes where the drives are the same. -/
theorem keepsSda_of_eq (h : s.drives = t.drives) : KeepsSda s t := fun _ _ => congrArg Drives.sdaLow h

/-- While the clock is low the data line may change. -/
theorem keepsSda_of_low (h : s.drives.sclLow = true) : KeepsSda s t :=
  fun hs _ => absurd (hs.symm.trans h) Bool.false_ne_true

/-- A data line may change while the clock goes low. -/
theorem keepsSda_of_next_low (h : t.drives.sclLow = true) : KeepsSda s t :=
  fun _ ht => absurd (ht.symm.trans h) Bool.false_ne_true

/-- The register writes do not move the lines. -/
theorem written_drives (s : I2cMaster) (req : Option Payload) :
    (s.written req).drives = s.drives ∧ (s.written req).state = s.state := by
  obtain ⟨dn, an, da, te, al, bs, cd, ti, td, heq, -⟩ := written_eq s req
  rw [heq]
  exact ⟨rfl, rfl⟩

/-- Leaving a phase changes the data line only under a clock that is driven low, in a start or in a stop. -/
theorem leave_keepsSda (h : s.state ≠ .idle) (l : Lines) : KeepsSda s (s.leave l) ∨ StartOrStop s (s.leave l) := by
  cases hs : s.state
  case idle => exact absurd hs h
  case startRelease =>
    refine Or.inr (Or.inl ⟨hs, ?_⟩)
    unfold leave
    rw [hs]
    rfl
  case stopSclHigh =>
    refine Or.inr (Or.inr ⟨hs, ?_⟩)
    unfold leave
    rw [hs]
    rfl
  case stopRelease =>
    refine Or.inl (keepsSda_of_eq ?_)
    unfold leave drives
    rw [hs]
    rfl
  case startSdaLow | writeBitHigh | writeAckHigh | readBitHigh | readAckHigh | recoverHigh =>
    refine Or.inl (keepsSda_of_next_low ?_)
    unfold leave
    rw [hs]
    dsimp only
    first | rfl | (split <;> rfl)
  all_goals
    refine Or.inl (keepsSda_of_low ?_)
    unfold drives
    rw [hs]

/-- A cycle of a running command, neither reset nor timed out, changes the data line only so. -/
theorem GoesOn.next_keepsSda (h : GoesOn s) (hsoft : softReset req = false) (ht : ¬ TimesOut s req) :
    KeepsSda s (s.next req l) ∨ StartOrStop s (s.next req l) := by
  obtain ⟨hdrives, hstate⟩ := written_drives s req
  have hcase := busy_case h.busy h.state req l
  generalize s.next req l = t at hcase ⊢
  cases hcase with
  | reset hreq => exact absurd (hsoft.symm.trans hreq) Bool.false_ne_true
  | control hreq _ => exact Or.inl (keepsSda_of_eq rfl)
  | timeout ht' => exact absurd ht' ht
  | wait hc _ hr => exact Or.inl (keepsSda_of_eq hdrives.symm)
  | count hc _ hr hl hp => exact Or.inl (keepsSda_of_eq hdrives.symm)
  | lost ha =>
    -- the bit that is not on the line is a one, so the data line is not driven
    have hlost := ha.2.2.2.2
    unfold lost at hlost
    simp only [Bool.and_eq_true, beq_iff_eq] at hlost
    refine Or.inl (keepsSda_of_eq ?_)
    unfold drives
    rw [hlost.1.1, hlost.1.2]
    rfl
  | leave hc _ hr hl hp =>
    have hleave := leave_keepsSda (s := s.written req) (hstate ▸ h.state) l
    unfold KeepsSda StartOrStop at hleave ⊢
    rw [hdrives, hstate] at hleave
    split
    · exact hleave
    · exact hleave

/-- Between commands only the clock line may be driven. -/
theorem idle_drives (hs : s.state = .idle) : s.drives = ⟨s.busActive, false⟩ := by
  unfold drives
  rw [hs]

/-- A cycle between commands does not change the data line. -/
theorem Consistent.idle_keepsSda (h : Consistent s) (hb : s.busy = false) (hsoft : softReset req = false) :
    KeepsSda s (s.next req l) := by
  have hs := h.idle hb
  have hdrives := idle_drives hs
  have hrefused : ∀ t : I2cMaster, t.state = .idle → t.busActive = s.busActive → KeepsSda s t := by
    intro t ht hactive
    refine keepsSda_of_eq ?_
    rw [hdrives, idle_drives ht, hactive]
  have hcase := next_case s req l
  generalize s.next req l = t at hcase ⊢
  cases hcase with
  | reset hreq => exact absurd (hsoft.symm.trans hreq) Bool.false_ne_true
  | recover hreq => exact keepsSda_of_next_low rfl
  | control hreq _ hrec => exact keepsSda_of_eq rfl
  | @accept p hc hreq hp =>
    unfold acceptCommand
    dsimp only
    split
    · intro hlow hlow'
      rw [hdrives]
      rfl
    · split
      · exact keepsSda_of_next_low rfl
      · split
        · split
          · rename_i hactive
            exact keepsSda_of_low (by rw [hdrives]; exact hactive)
          · exact hrefused _ hs rfl
        · split
          · split
            · rename_i hactive
              exact keepsSda_of_low (by rw [hdrives]; exact hactive)
            · exact hrefused _ hs rfl
          · exact hrefused _ hs rfl
  | run hc hb' => exact absurd (hb.symm.trans hb') Bool.false_ne_true
  | rest hc hacc _ => exact keepsSda_of_eq (written_drives s req).1.symm

end Lines

end I2cMaster

end SocRV
