import PrinterSdk.Label.Document
import Mathlib.Algebra.Group.Int.Defs

/-!
# Dots

Documents are measured in micrometres and printed in dots, so every length is rounded to
the resolution of the printer.
-/

namespace PrinterSdk.Render

/-- `RenderError`. -/
inductive RenderError where
  | validation (message : String)
  | tooLarge
  | resource (message : String)
  | barcode (message : String)
  | qr
  | font (message : String)
  deriving DecidableEq, Repr

/-- The rounded ratio of `round_ratio`, half away from zero, before its cast. -/
def roundedRatio (numerator divisor : Int) : Int :=
  let sign := if numerator < 0 then -1 else 1
  sign * (((numerator.natAbs : Int) + divisor / 2) / divisor)

/-- `round_ratio`.  The cast of the quotient to `i64` wraps. -/
def roundRatio (numerator divisor : Int) : Int64 :=
  Int64.ofInt (roundedRatio numerator divisor)

/-- `micrometres_to_dots`. -/
def micrometresToDots (value : Int64) (dpi : UInt16) : Int64 :=
  roundRatio (value.toInt * dpi.toNat) 25400

/-- `u32::try_from` of a number of dots. -/
def dotsTryU32 (dots : Int64) : Option UInt32 :=
  if 0 ≤ dots.toInt ∧ dots.toInt < 2 ^ 32 then some (UInt32.ofNat dots.toInt.toNat) else none

theorem dotsTryU32_eq_some {dots : Int64} {result : UInt32} :
    dotsTryU32 dots = some result ↔ dots.toInt = result.toNat := by
  unfold dotsTryU32
  have bound := result.toNat_lt
  split
  · next fits =>
      have short : dots.toInt.toNat < UInt32.size := by
        rw [UInt32.size]
        omega
      rw [Option.some.injEq, ← UInt32.toNat_inj, UInt32.toNat_ofNat_of_lt' short]
      omega
  · next overflows =>
      constructor
      · intro converted
        cases converted
      · intro same
        exact absurd ⟨by omega, by omega⟩ overflows

end PrinterSdk.Render
