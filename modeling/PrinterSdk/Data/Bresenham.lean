import Mathlib.Algebra.Order.Ring.Int
import Mathlib.Logic.Function.Iterate
import Mathlib.Tactic.Linarith
import Mathlib.Tactic.Ring

/-!
# Walks along a digital line

A walk from a corner of a box to the opposite one takes a step along the longer side in every
turn, and one along the other side when its error asks for it.  The error tells how far the
walk is from the line between the corners.
-/

namespace PrinterSdk.Data

/-- The steps that a walk has taken along both sides of its box, and its error. -/
@[ext] structure Walk where
  err : Int
  x : Int
  y : Int
  deriving DecidableEq, Repr

namespace Walk

/-- A turn of a walk in a box of the given sides. -/
def step (width height : Int) (walk : Walk) : Walk :=
  let doubled := 2 * walk.err
  let across := if -height ≤ doubled then ⟨walk.err - height, walk.x + 1, walk.y⟩ else walk
  if doubled ≤ width then ⟨across.err + width, across.x, across.y + 1⟩ else across

/-- A walk before its first turn. -/
def start (width height : Int) : Walk := ⟨width - height, 0, 0⟩

/-- A walk after a number of turns. -/
def after (width height : Int) (turns : Nat) : Walk :=
  (step width height)^[turns] (start width height)

theorem after_succ (width height : Int) (turns : Nat) :
    after width height (turns + 1) = step width height (after width height turns) :=
  Function.iterate_succ_apply' ..

/-! ## The other side first -/

/-- The walk with its sides exchanged. -/
def swap (walk : Walk) : Walk := ⟨-walk.err, walk.y, walk.x⟩

theorem step_swap (width height : Int) (walk : Walk) :
    step height width walk.swap = (step width height walk).swap := by
  have first : -width ≤ 2 * -walk.err ↔ 2 * walk.err ≤ width := by omega
  have second : 2 * -walk.err ≤ height ↔ -height ≤ 2 * walk.err := by omega
  simp only [step, swap, first, second]
  split <;> split <;> ext <;> simp only [] <;> omega

theorem after_swap (width height : Int) (turns : Nat) :
    after height width turns = (after width height turns).swap := by
  induction turns with
  | zero =>
      ext
      · exact (Int.neg_sub width height).symm
      · rfl
      · rfl
  | succ turns ih => rw [after_succ, after_succ, ih, step_swap]

/-! ## The longer side -/

/-- A walk across is next to the line: in the middle of a column of the box, the line is less
than half a row away. -/
structure Near (width height : Int) (turns : Nat) (walk : Walk) : Prop where
  x : walk.x = turns
  err : walk.err = width * walk.y + width - (height * turns + height)
  above : 2 * (width * walk.y) ≤ 2 * (height * turns) + width
  below : 2 * (height * turns) < 2 * (width * walk.y) + width

section

variable {width height : Int} {turns : Nat} {walk : Walk}

theorem near_start (positive : 0 < width) : Near width height 0 (start width height) where
  x := rfl
  err := by simp [start]
  above := by simpa [start] using Int.le_of_lt positive
  below := by simpa [start] using positive

/-- A turn takes a step across, and stays next to the line. -/
theorem Near.step (nonneg : 0 ≤ height) (longer : height ≤ width)
    (near : Near width height turns walk) :
    Near width height (turns + 1) (walk.step width height) := by
  obtain ⟨x, err, above, below⟩ := near
  have across : -height ≤ 2 * walk.err := by omega
  have turned : height * ((turns + 1 : Nat) : Int) = height * turns + height := by
    push_cast
    ring
  have lower : width * (walk.y + 1) = width * walk.y + width := by ring
  by_cases down : 2 * walk.err ≤ width
  · have next : walk.step width height = ⟨walk.err - height + width, walk.x + 1, walk.y + 1⟩ := by
      simp only [Walk.step, across, down, if_true]
    rw [next]
    constructor
    · simp [x]
    · simp only [lower, turned]
      omega
    · simp only [lower, turned]
      omega
    · simp only [lower, turned]
      omega
  · have next : walk.step width height = ⟨walk.err - height, walk.x + 1, walk.y⟩ := by
      simp only [Walk.step, across, down, if_true, if_false]
    rw [next]
    constructor
    · simp [x]
    · simp only [turned]
      omega
    · simp only [turned]
      omega
    · simp only [turned]
      omega

theorem near_after (nonneg : 0 ≤ height) (longer : height ≤ width) (positive : 0 < width)
    (turns : Nat) : Near width height turns (after width height turns) := by
  induction turns with
  | zero => exact near_start positive
  | succ turns ih =>
      rw [after_succ]
      exact ih.step nonneg longer

/-- A walk next to the line is in its box. -/
theorem Near.inside (nonneg : 0 ≤ height) (positive : 0 < width)
    (near : Near width height turns walk) (less : turns ≤ width) :
    0 ≤ walk.y ∧ walk.y ≤ height := by
  have reached : height * turns ≤ width * height := by
    rw [Int.mul_comm width]
    exact Int.mul_le_mul_of_nonneg_left less nonneg
  have started : 0 ≤ height * turns := Int.mul_nonneg nonneg (Int.natCast_nonneg turns)
  obtain ⟨-, -, above, below⟩ := near
  constructor
  · by_contra negative
    have less : width * walk.y ≤ width * (-1) :=
      Int.mul_le_mul_of_nonneg_left (by omega) (Int.le_of_lt positive)
    omega
  · by_contra beyond
    have less : width * (height + 1) ≤ width * walk.y :=
      Int.mul_le_mul_of_nonneg_left (by omega) (Int.le_of_lt positive)
    have more : width * (height + 1) = width * height + width := by ring
    omega

/-- After the last turn it is at the opposite corner. -/
theorem Near.last (positive : 0 < width) (near : Near width height turns walk)
    (ended : turns = width) : walk.y = height := by
  obtain ⟨-, -, above, below⟩ := near
  rw [ended, Int.mul_comm height] at above below
  rcases Int.lt_trichotomy walk.y height with less | same | more
  · have product : width * (walk.y + 1) ≤ width * height :=
      Int.mul_le_mul_of_nonneg_left less (Int.le_of_lt positive)
    have lower : width * (walk.y + 1) = width * walk.y + width := by ring
    omega
  · exact same
  · have product : width * (height + 1) ≤ width * walk.y :=
      Int.mul_le_mul_of_nonneg_left more (Int.le_of_lt positive)
    have lower : width * (height + 1) = width * height + width := by ring
    omega

end

/-! ## Both sides -/

/-- A turn takes at most one step in each direction. -/
theorem step_moves (width height : Int) (walk : Walk) :
    ((step width height walk).x = walk.x ∨ (step width height walk).x = walk.x + 1) ∧
      ((step width height walk).y = walk.y ∨ (step width height walk).y = walk.y + 1) := by
  by_cases across : -height ≤ 2 * walk.err <;> by_cases down : 2 * walk.err ≤ width <;>
    simp [step, across, down]

/-- A walk is in its box, its error is small, and it is at the opposite corner after as many
turns as the longer side is long. -/
structure OnWay (width height : Int) (turns : Nat) (walk : Walk) : Prop where
  across : 0 ≤ walk.x ∧ walk.x ≤ width
  down : 0 ≤ walk.y ∧ walk.y ≤ height
  small : |2 * walk.err| ≤ 3 * max width height
  last : walk.x = width ∧ walk.y = height ↔ (turns : Int) = max width height

section

variable {width height : Int} {turns : Nat} {walk : Walk}

theorem OnWay.swap (way : OnWay width height turns walk) :
    OnWay height width turns walk.swap where
  across := way.down
  down := way.across
  small := by
    have small := way.small
    rw [max_comm, Walk.swap, Int.mul_neg, abs_neg]
    exact small
  last := by
    rw [max_comm, ← way.last]
    exact and_comm

/-- A walk whose longer side is across. -/
theorem onWay_across (nonneg : 0 ≤ height) (longer : height ≤ width) (less : turns ≤ width) :
    OnWay width height turns (after width height turns) := by
  have most : max width height = width := max_eq_left longer
  rcases (Int.le_trans nonneg longer).eq_or_lt with none | positive
  · obtain rfl : turns = 0 := by omega
    obtain rfl : height = 0 := by omega
    rw [← none]
    exact ⟨by decide, by decide, by decide, by decide⟩
  · have near := near_after nonneg longer positive turns
    have inside := near.inside nonneg positive less
    refine ⟨⟨?_, ?_⟩, inside, ?_, ?_⟩
    · rw [near.x]
      exact Int.natCast_nonneg turns
    · rw [near.x]
      exact less
    · obtain ⟨-, err, above, below⟩ := near
      rw [most, abs_le]
      omega
    · rw [most, near.x]
      exact ⟨And.left, fun ended => ⟨ended, near.last positive ended⟩⟩

/-- Every walk, whichever side is longer. -/
theorem onWay_after (wide : 0 ≤ width) (high : 0 ≤ height) (less : turns ≤ max width height) :
    OnWay width height turns (after width height turns) := by
  rcases Int.le_total height width with longer | longer
  · rw [max_eq_left longer] at less
    exact onWay_across high longer less
  · rw [max_eq_right longer] at less
    rw [after_swap]
    exact (onWay_across wide longer less).swap

end

end Walk

end PrinterSdk.Data
