import PrinterSdk.Data.Text

/-!
# Offsets of records

Records are written one behind the other.  A record starts where the ones before it end, and
records of one width start at multiples of it.
-/

namespace PrinterSdk.Data

section

variable {α : Type}

/-- Where a record starts, behind the ones before it. -/
def offsetOf (records : List (List α)) (index : Nat) : Nat :=
  (records.take index).flatten.length

@[simp] theorem offsetOf_zero (records : List (List α)) : offsetOf records 0 = 0 := rfl

@[simp] theorem offsetOf_succ (record : List α) (rest : List (List α)) (index : Nat) :
    offsetOf (record :: rest) (index + 1) = record.length + offsetOf rest index :=
  List.length_append

theorem flatten_split (records : List (List α)) (index : Nat) :
    records.flatten = (records.take index).flatten ++ (records.drop index).flatten := by
  rw [← List.flatten_append, List.take_append_drop]

theorem offsetOf_le (records : List (List α)) (index : Nat) :
    offsetOf records index ≤ records.flatten.length := by
  rw [flatten_split records index, List.length_append]
  exact Nat.le_add_right _ _

/-- What is written at the offset of a record starts with it. -/
theorem record_at {records : List (List α)} {index : Nat} {record : List α}
    (located : records[index]? = some record) (before after : List α) :
    record <+: (before ++ records.flatten ++ after).drop
      (before.length + offsetOf records index) := by
  obtain ⟨inside, same⟩ := List.getElem?_eq_some_iff.mp located
  have rest : records.drop index = record :: records.drop (index + 1) := by
    rw [List.drop_eq_getElem_cons inside, same]
  have parts : before ++ records.flatten ++ after =
      (before ++ (records.take index).flatten) ++ ((records.drop index).flatten ++ after) := by
    rw [flatten_split records index, List.append_assoc, List.append_assoc, List.append_assoc]
  have position : (before ++ (records.take index).flatten).length =
      before.length + offsetOf records index := List.length_append
  rw [parts, List.drop_left' position, rest, List.flatten_cons, List.append_assoc]
  exact List.prefix_append _ _

/-- Records of one width start at its multiples. -/
theorem offsetOf_uniform {records : List (List α)} {width index : Nat}
    (uniform : ∀ record ∈ records, record.length = width) (inside : index ≤ records.length) :
    offsetOf records index = width * index := by
  induction index generalizing records with
  | zero => rfl
  | succ index ih =>
      cases records with
      | nil => exact absurd inside (Nat.not_succ_le_zero _)
      | cons record rest =>
          obtain ⟨here, later⟩ := List.forall_mem_cons.mp uniform
          rw [offsetOf_succ, here, ih later (Nat.le_of_succ_le_succ inside), Nat.mul_succ,
            Nat.add_comm]

theorem length_flatten_uniform {records : List (List α)} {width : Nat}
    (uniform : ∀ record ∈ records, record.length = width) :
    records.flatten.length = width * records.length := by
  rw [← offsetOf_uniform uniform (Nat.le_refl _), offsetOf, List.take_length]

/-- A record of one width is cut out again. -/
theorem record_of_width {records : List (List α)} {width index : Nat} {record : List α}
    (uniform : ∀ record ∈ records, record.length = width)
    (located : records[index]? = some record) (before after : List α) :
    ((before ++ records.flatten ++ after).drop (before.length + width * index)).take width =
      record := by
  obtain ⟨inside, same⟩ := List.getElem?_eq_some_iff.mp located
  have found := record_at located before after
  rw [offsetOf_uniform uniform (Nat.le_of_lt inside)] at found
  have wide : record.length = width := uniform record (same ▸ List.getElem_mem inside)
  rw [← wide] at found ⊢
  exact (List.prefix_iff_eq_take.mp found).symm

end

end PrinterSdk.Data
