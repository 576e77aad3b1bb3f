import Mathlib.Algebra.Order.Floor.Div
import Mathlib.Algebra.Order.Floor.Extended
import PrinterSdk.Protocol.BrotherRaster

/-!
# The length of packed rows

The dearest packets are a literal of one byte and a run of two, which together take four
bytes for three.  A literal is written only before a run, at the end, or when there are
127 of them, so what a short one costs too much is owed until the run behind it is written.
-/

namespace PrinterSdk.Protocol

open PrinterSdk.Data

namespace PackState

variable {state : PackState} {consumed : Nat}

/-- What was written and what is kept cost at most four bytes for three that were
consumed.  Inside a run two thirds of a byte may be owed. -/
structure Economical (state : PackState) (consumed : Nat) : Prop where
  literals : state.inRepeat = false →
    3 * state.result.length + 4 * state.literal.length ≤ 4 * consumed
  run : state.inRepeat = true → state.literal = [] ∧ 1 ≤ state.repeats ∧
    3 * state.result.length + 4 * state.repeats ≤ 4 * consumed + 2

theorem economical_initial : Economical {} 0 where
  literals := fun _ => Nat.le_refl 0
  run := by
    intro repeating
    cases repeating

theorem literal_flushLiteral (state : PackState) : state.flushLiteral.literal = [] := by
  unfold flushLiteral
  split
  · next empty => exact List.isEmpty_iff.mp empty
  · rfl

theorem inRepeat_flushLiteral (state : PackState) :
    state.flushLiteral.inRepeat = state.inRepeat := by
  unfold flushLiteral
  split
  · rfl
  · rfl

/-- Writing literals costs their header. -/
theorem length_flushLiteral (present : state.literal ≠ []) :
    state.flushLiteral.result.length = state.result.length + state.literal.length + 1 := by
  unfold flushLiteral
  rw [if_neg (fun empty => present (List.isEmpty_iff.mp empty)), List.length_append,
    List.length_cons]
  rfl

/-- Literals that are written owe at most two thirds of a byte. -/
theorem length_flushLiteral_le (state : PackState) :
    3 * state.flushLiteral.result.length ≤
      3 * state.result.length + 4 * state.literal.length + 2 := by
  by_cases empty : state.literal = []
  · have same : state.flushLiteral = state := by
      unfold flushLiteral
      exact if_pos (List.isEmpty_iff.mpr empty)
    rw [same]
    exact Nat.le_trans (Nat.le_add_right _ (4 * state.literal.length)) (Nat.le_add_right _ 2)
  · have some : 1 ≤ state.literal.length := List.length_pos_iff.mpr empty
    rw [length_flushLiteral empty]
    omega

theorem length_pushRun (state : PackState) (byte : UInt8) :
    (state.pushRun byte).result.length = state.result.length + 2 := by
  rw [pushRun, List.length_append]
  rfl

/-- A byte that equals its successor begins a run. -/
theorem Economical.begin (economical : state.Economical consumed)
    (outside : state.inRepeat = false) :
    Economical { state.flushLiteral with inRepeat := true, repeats := 1 } (consumed + 1) where
  literals := by
    intro repeating
    cases repeating
  run := by
    intro _
    refine ⟨literal_flushLiteral state, Nat.le_refl 1, ?_⟩
    have paid := economical.literals outside
    have owed := length_flushLiteral_le state
    change 3 * state.flushLiteral.result.length + 4 * 1 ≤ 4 * (consumed + 1) + 2
    omega

/-- A byte that equals its successor lengthens a run. -/
theorem Economical.lengthen {byte : UInt8} (economical : state.Economical consumed)
    (inside : state.inRepeat = true) : (state.turn byte byte).Economical (consumed + 1) := by
  obtain ⟨emptied, least, paid⟩ := economical.run inside
  unfold turn
  rw [if_pos rfl, inside]
  simp only [Bool.not_true, Bool.false_eq_true, if_false]
  by_cases full : state.repeats = 127
  · rw [if_pos full]
    refine ⟨fun outside => absurd (inside.symm.trans outside) (by simp), fun _ => ?_⟩
    refine ⟨emptied, Nat.le_refl 1, ?_⟩
    have longer := length_pushRun state byte
    change 3 * (state.pushRun byte).result.length + 4 * 1 ≤ 4 * (consumed + 1) + 2
    omega
  · rw [if_neg full]
    refine ⟨fun outside => absurd (inside.symm.trans outside) (by simp), fun _ => ?_⟩
    refine ⟨emptied, Nat.le_add_left 1 _, ?_⟩
    change 3 * state.result.length + 4 * (state.repeats + 1) ≤ 4 * (consumed + 1) + 2
    omega

/-- A byte that differs from its successor ends a run, which pays what was owed. -/
theorem Economical.finish {byte next : UInt8} (economical : state.Economical consumed)
    (inside : state.inRepeat = true) (different : byte ≠ next) :
    (state.turn byte next).Economical (consumed + 1) := by
  obtain ⟨emptied, least, paid⟩ := economical.run inside
  unfold turn
  rw [if_neg different, if_pos inside]
  refine ⟨fun _ => ?_, Bool.noConfusion⟩
  have longer := length_pushRun { state with repeats := state.repeats + 1 } byte
  change 3 * (pushRun { state with repeats := state.repeats + 1 } byte).result.length +
    4 * state.literal.length ≤ 4 * (consumed + 1)
  rw [longer, emptied, List.length_nil]
  change 3 * (state.result.length + 2) + 4 * 0 ≤ 4 * (consumed + 1)
  omega

/-- A byte that differs from its successor is kept as a literal. -/
theorem Economical.keep {byte next : UInt8} (economical : state.Economical consumed)
    (outside : state.inRepeat = false) (different : byte ≠ next) :
    (state.turn byte next).Economical (consumed + 1) := by
  have paid := economical.literals outside
  unfold turn
  rw [if_neg different, outside]
  simp only [Bool.false_eq_true, if_false]
  by_cases full : state.literal.length = 127
  · rw [if_pos full]
    have present : state.literal ≠ [] := by
      intro empty
      rw [empty] at full
      cases full
    have longer := length_flushLiteral present
    refine ⟨fun _ => ?_, fun repeating => ?_⟩
    · change 3 * state.flushLiteral.result.length +
        4 * (state.flushLiteral.literal ++ [byte]).length ≤ 4 * (consumed + 1)
      rw [literal_flushLiteral, longer, List.nil_append, List.length_singleton]
      omega
    · have still := (inRepeat_flushLiteral state).symm.trans repeating
      exact absurd (outside.symm.trans still) (by simp)
  · rw [if_neg full]
    refine ⟨fun _ => ?_, fun repeating => absurd (outside.symm.trans repeating) (by simp)⟩
    change 3 * state.result.length + 4 * (state.literal ++ [byte]).length ≤ 4 * (consumed + 1)
    rw [List.length_append, List.length_singleton]
    omega

/-- Every turn keeps the account. -/
theorem Economical.turn {byte : UInt8} (economical : state.Economical consumed) (next : UInt8) :
    (state.turn byte next).Economical (consumed + 1) := by
  cases repeating : state.inRepeat with
  | true =>
      by_cases same : byte = next
      · rw [← same]
        exact economical.lengthen repeating
      · exact economical.finish repeating same
  | false =>
      by_cases same : byte = next
      · have begun := economical.begin repeating
        rw [PackState.turn, if_pos same, repeating]
        exact begun
      · exact economical.keep repeating same

/-- The last byte is written with what was kept. -/
theorem Economical.last (economical : state.Economical consumed) (byte : UInt8) :
    3 * (state.pack [byte]).length ≤ 4 * (consumed + 1) + 2 := by
  unfold pack
  cases repeating : state.inRepeat with
  | true =>
      obtain ⟨-, least, paid⟩ := economical.run repeating
      rw [if_pos rfl, length_pushRun]
      change 3 * (state.result.length + 2) ≤ 4 * (consumed + 1) + 2
      omega
  | false =>
      have paid := economical.literals repeating
      have owed := length_flushLiteral_le { state with literal := state.literal ++ [byte] }
      rw [if_neg Bool.false_ne_true]
      rw [List.length_append, List.length_singleton, repeating] at owed
      refine Nat.le_trans owed ?_
      change 3 * state.result.length + 4 * (state.literal.length + 1) + 2 ≤ _
      omega

theorem Economical.pack (byte : UInt8) (rest : Bytes) (economical : state.Economical consumed) :
    3 * (state.pack (byte :: rest)).length ≤ 4 * (consumed + (byte :: rest).length) + 2 := by
  induction rest generalizing state consumed byte with
  | nil => exact economical.last byte
  | cons next rest ih =>
      have later := ih next (@Economical.turn state consumed byte economical next)
      rw [Nat.add_assoc, Nat.add_comm 1] at later
      exact later

end PackState

/-- Three packed bytes stand for at least four, but for the last two thirds of a byte. -/
theorem length_packbits (data : Bytes) : 3 * (packbits data).length ≤ 4 * data.length + 2 := by
  unfold packbits
  split
  · exact Nat.zero_le _
  · exact Nat.le_refl _
  · next present _ =>
      cases data with
      | nil => exact absurd rfl present
      | cons byte rest =>
          have packed := PackState.economical_initial.pack byte rest
          rw [Nat.zero_add] at packed
          exact packed

theorem length_packbits_le_ceilDiv (data : Bytes) :
    (packbits data).length ≤ (4 * data.length) ⌈/⌉ 3 := by
  have paid := length_packbits data
  rw [Nat.ceilDiv_eq_add_pred_div]
  omega

example : (packbits [7, 9, 9, 8]).length = (4 * 4) ⌈/⌉ 3 := by decide

/-- A row of at most 191 bytes is packed into at most 255. -/
theorem lineFits_of_length {row : Bytes} (short : row.length ≤ 191) : LineFits true row := by
  have paid := length_packbits (mirrorRow row)
  rw [(mirrorRow_mirrors row).length] at paid
  change (packbits (mirrorRow row)).length ≤ 255
  omega

theorem length_of_mem_chunks {size : Nat} {data row : Bytes} (member : row ∈ chunks size data) :
    row.length ≤ size := by
  obtain ⟨index, -, rfl⟩ := List.mem_map.mp member
  exact List.length_take_le _ _

/-- Packed rows are at most a third longer than what they stand for.  The line of a row of
at most 191 bytes announces its length, so the lines of a raster that is no wider are
records behind their lengths. -/
theorem packbits_expansion :
    (∀ data : Bytes, (packbits data).length ≤ (4 * data.length) ⌈/⌉ 3) ∧
      (∀ row : Bytes, row.length ≤ 191 → (brotherLineBytes true row).length ≤ 255 ∧
        ∃ field : UInt8, brotherRasterLine true row =
            lineLead ++ field :: brotherLineBytes true row ∧
          field.toNat = (brotherLineBytes true row).length) ∧
      ∀ (raster : Raster) (lines : Bytes),
        (brotherRasterLines raster true : Outcome PlanError Bytes) = .ok lines →
        raster.widthBytes.toNat ≤ 191 →
        RecordsOf lineLead lines
          ((chunks raster.widthBytes.toNat raster.data).map (brotherLineBytes true)) := by
  have fits : ∀ row : Bytes, row.length ≤ 191 → (brotherLineBytes true row).length ≤ 255 :=
    fun row short => (lineFits_iff true row).mp (lineFits_of_length short)
  refine ⟨length_packbits_le_ceilDiv, ?_, ?_⟩
  · intro row short
    refine ⟨fits row short, UInt8.ofNat (brotherLineBytes true row).length, rfl, ?_⟩
    rw [UInt8.toNat_ofNat']
    exact Nat.mod_eq_of_lt (Nat.lt_succ_of_le (fits row short))
  · intro raster lines encoded narrow
    unfold brotherRasterLines at encoded
    split at encoded
    · cases encoded
    · cases encoded
      constructor
      · intro record member
        obtain ⟨row, inside, rfl⟩ := List.mem_map.mp member
        exact fits row (Nat.le_trans (length_of_mem_chunks inside) narrow)
      · rw [List.flatMap_map]
        rfl

end PrinterSdk.Protocol
