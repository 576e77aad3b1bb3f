import PrinterSdk.Render.UnitConversion
import PrinterSdk.Sheet.Plan

/-!
# The dots of paper

Lengths are converted exactly, and larger paper never gets fewer dots, at every resolution
of at most 25400 dots an inch, which is one dot a micrometre.  At a finer one the cast of
`round_ratio` cuts off what `dots_u32` would refuse.
-/

namespace PrinterSdk.Sheet

open PrinterSdk.Data PrinterSdk.Label PrinterSdk.Render

/-- Lengths are converted to the nearest number of dots, with the sign and the order
kept. -/
structure ExactConversion (dpi : UInt16) : Prop where
  nearest : ∀ value : Int64,
    NearestAway 25400 (value.toInt * dpi.toNat) (micrometresToDots value dpi).toInt
  odd : ∀ value opposite : Int64, opposite.toInt = -value.toInt →
    (micrometresToDots opposite dpi).toInt = -(micrometresToDots value dpi).toInt
  monotone : ∀ value longer : Int64, value ≤ longer →
    micrometresToDots value dpi ≤ micrometresToDots longer dpi

/-- Paper that is no smaller gets no fewer dots. -/
def MonotonePaper (dpi : UInt16) : Prop :=
  ∀ (resolution : NonZeroU16), resolution.1 = dpi →
    ∀ (small large : SheetLayout) (limits limits' : ProcessingLimits) (paper paper' : UInt32 × UInt32),
      small.paperWidthUm ≤ large.paperWidthUm → small.paperHeightUm ≤ large.paperHeightUm →
      paperDots small resolution limits = .ok paper →
      paperDots large resolution limits' = .ok paper' →
      paper.1 ≤ paper'.1 ∧ paper.2 ≤ paper'.2

section

variable {dpi : UInt16}

/-- Exact numbers of dots are odd and monotone. -/
theorem exactConversion_of_nearest (nearest : ∀ value : Int64,
    NearestAway 25400 (value.toInt * dpi.toNat) (micrometresToDots value dpi).toInt) :
    ExactConversion dpi where
  nearest := nearest
  odd := by
    intro value opposite turned
    have rounds := (nearest value).neg
    rw [← Int.neg_mul, ← turned] at rounds
    exact (nearest opposite).unique (by decide) rounds
  monotone := by
    intro value longer most
    have product : value.toInt * dpi.toNat ≤ longer.toInt * dpi.toNat :=
      Int.mul_le_mul_of_nonneg_right (Int64.le_iff_toInt_le.mp most) (Int.natCast_nonneg _)
    exact Int64.le_iff_toInt_le.mpr
      ((nearest value).mono (by decide) (nearest longer) product)

theorem ExactConversion.monotonePaper (exact : ExactConversion dpi) : MonotonePaper dpi := by
  rintro resolution rfl small large limits limits' ⟨width, height⟩ ⟨width', height'⟩ wider taller
    measured measured'
  obtain ⟨across, down⟩ := paperDots_eq_ok measured
  obtain ⟨across', down'⟩ := paperDots_eq_ok measured'
  have wide := Int64.le_iff_toInt_le.mp (exact.monotone _ _ wider)
  have high := Int64.le_iff_toInt_le.mp (exact.monotone _ _ taller)
  rw [across, across'] at wide
  rw [down, down'] at high
  exact ⟨UInt32.le_iff_toNat_le.mpr (Int.ofNat_le.mp wide),
    UInt32.le_iff_toNat_le.mpr (Int.ofNat_le.mp high)⟩

end

/-- The conversion is exact, odd and monotone, and keeps the order of papers, at the
resolutions of at most 25400 dots an inch, and at no other.  A single length is converted
exactly when its number of dots is an `i64`. -/
theorem unit_conversion_iff (dpi : UInt16) :
    (ExactConversion dpi ∧ MonotonePaper dpi ↔ dpi.toNat ≤ 25400) ∧
      ∀ value : Int64,
        NearestAway 25400 (value.toInt * dpi.toNat) (micrometresToDots value dpi).toInt ↔
          -25400 * 2 ^ 63 - 12700 < value.toInt * dpi.toNat ∧
            value.toInt * dpi.toNat < 25400 * 2 ^ 63 - 12700 := by
  constructor
  · constructor
    · rintro ⟨exact, -⟩
      apply Nat.le_of_not_lt
      intro fine
      exact not_isI64_dots fine ((micrometresToDots_nearestAway_iff _ _).mp (exact.nearest _))
    · intro coarse
      have exact : ExactConversion dpi := exactConversion_of_nearest fun value =>
        (micrometresToDots_nearestAway_iff value dpi).mpr (isI64_dots value coarse)
      exact ⟨exact, exact.monotonePaper⟩
  · intro value
    exact (micrometresToDots_nearestAway_iff value dpi).trans (isI64_dots_iff _)

/-- Paper of seven billion metres. -/
def endlessPaper : SheetLayout := ⟨"endless", 7149573502284620601, 1000, []⟩

def smallPaper : SheetLayout := ⟨"small", 1000, 1000, []⟩

/-- The finest resolution. -/
def finest : NonZeroU16 := ⟨65535, by decide⟩

/-- Paper of seven billion metres gets two dots, a millimetre gets 2580. -/
theorem endless_paper_shrinks :
    ¬NearestAway 25400 ((7149573502284620601 : Int64).toInt * (65535 : UInt16).toNat)
        (micrometresToDots 7149573502284620601 65535).toInt ∧
      paperDots smallPaper finest .default = .ok (2580, 2580) ∧
      paperDots endlessPaper finest .default = .ok (2, 2580) := by
  refine ⟨?_, by decide +kernel, by decide +kernel⟩
  rw [micrometresToDots_nearestAway_iff]
  decide +kernel

end PrinterSdk.Sheet
