import Mathlib.Data.List.Basic
import Mathlib.Tactic.Ring

/-!
# Splitting a list into consecutive chunks

`chunks size values` is the list of consecutive blocks of `size` elements, the
last one possibly shorter, as Rust's `slice::chunks` produces them.  The library
calls panic on a zero size; callers of this module exclude it, and the results
below assume a positive size.
-/

namespace PrinterSdk.Data

variable {α : Type}

/-- Consecutive blocks of `size` elements, in order. -/
def chunks (size : Nat) (values : List α) : List (List α) :=
  (List.range ((values.length + size - 1) / size)).map fun index =>
    (values.drop (index * size)).take size

@[simp] theorem chunks_nil {size : Nat} (positive : 0 < size) :
    chunks size ([] : List α) = [] := by
  simp [chunks, positive]

/-- A nonempty list is its first block followed by the blocks of the rest. -/
theorem chunks_eq_cons {size : Nat} (positive : 0 < size) {values : List α}
    (nonempty : values ≠ []) :
    chunks size values = values.take size :: chunks size (values.drop size) := by
  have lengthPositive : 0 < values.length := List.length_pos_iff.mpr nonempty
  have count : (values.length + size - 1) / size =
      ((values.drop size).length + size - 1) / size + 1 := by
    rw [List.length_drop]
    by_cases short : values.length ≤ size
    · have remainder : values.length - size + size - 1 = size - 1 := by omega
      have total : values.length + size - 1 = (values.length - 1) + size := by omega
      rw [remainder, total, Nat.add_div_right _ positive]
      rw [Nat.div_eq_of_lt (by omega : values.length - 1 < size)]
      rw [Nat.div_eq_of_lt (by omega : size - 1 < size)]
    · have total : values.length + size - 1 =
          (values.length - size + size - 1) + size := by omega
      rw [total, Nat.add_div_right _ positive]
  unfold chunks
  rw [count, List.range_succ_eq_map]
  simp only [List.map_cons, Nat.zero_mul, List.drop_zero, List.map_map,
    List.cons.injEq, true_and]
  apply List.map_congr_left
  intro index _
  simp only [Function.comp, List.drop_drop]
  congr 2
  rw [Nat.succ_eq_add_one]
  ring

/-- Where a block of the split sits in the source list. -/
theorem chunks_split {size : Nat} (positive : 0 < size) {values : List α}
    {before after : List (List α)} {piece : List α}
    (split : chunks size values = before ++ piece :: after) :
    before.flatten = values.take (before.length * size) ∧
      piece = (values.drop (before.length * size)).take size ∧
      before.length * size < values.length := by
  induction before generalizing values with
  | nil =>
      by_cases empty : values = []
      · rw [empty, chunks_nil positive] at split
        simp at split
      · rw [chunks_eq_cons positive empty] at split
        have pieceEq := (List.cons.inj split).1
        have lengthPositive := List.length_pos_iff.mpr empty
        simpa [pieceEq] using lengthPositive
  | cons first before ih =>
      by_cases empty : values = []
      · rw [empty, chunks_nil positive] at split
        simp at split
      · rw [chunks_eq_cons positive empty] at split
        have firstEq := (List.cons.inj split).1
        have tail := ih (List.cons.inj split).2
        obtain ⟨flat, pieceEq, bound⟩ := tail
        have total : (before.length + 1) * size = size + before.length * size := by ring
        refine ⟨?_, ?_, ?_⟩
        · rw [List.flatten_cons, flat, ← firstEq, List.length_cons, total,
            List.take_add]
        · rw [pieceEq, List.drop_drop, List.length_cons, total]
        · rw [List.length_drop] at bound
          rw [List.length_cons, total]
          omega

/-- Splitting loses and reorders nothing. -/
@[simp] theorem flatten_chunks {size : Nat} (positive : 0 < size)
    (values : List α) : (chunks size values).flatten = values := by
  induction lengthEq : values.length using Nat.strong_induction_on
    generalizing values with
  | _ length ih =>
      by_cases empty : values = []
      · simp [empty, chunks_nil positive]
      · have lengthPositive := List.length_pos_iff.mpr empty
        rw [chunks_eq_cons positive empty, List.flatten_cons]
        rw [ih (values.drop size).length (by rw [List.length_drop]; omega) _ rfl]
        exact List.take_append_drop size values

/-- No block is longer than the chunk size. -/
theorem length_le_of_mem_chunks {size : Nat} {values piece : List α}
    (member : piece ∈ chunks size values) : piece.length ≤ size := by
  simp only [chunks, List.mem_map] at member
  obtain ⟨index, _, pieceEq⟩ := member
  rw [← pieceEq]
  exact List.length_take_le _ _

end PrinterSdk.Data
