import PrinterSdk.Data.BigEndian

/-!
# Records with a one-byte length

A stream of records, each behind a fixed lead and a byte that announces its length.  A
writer that casts the length to a byte writes a record too long for its length byte
without noticing.
-/

namespace PrinterSdk.Data

section

variable (lead : Bytes)

/-- A record behind its lead and the low byte of its length. -/
def writeRecord (record : Bytes) : Bytes := lead ++ UInt8.ofNat record.length :: record

/-- The stream consists of the records, and every length byte is the length of its
record. -/
structure RecordsOf (stream : Bytes) (records : List Bytes) : Prop where
  short : ∀ record ∈ records, record.length ≤ 255
  written : stream = records.flatMap (writeRecord lead)

end

variable {lead : Bytes}

/-- Streams that agree begin with records whose lengths agree in their low byte. -/
theorem writeRecord_append_inj {left right leftRest rightRest : Bytes}
    (same : writeRecord lead left ++ leftRest = writeRecord lead right ++ rightRest) :
    left.length % 256 = right.length % 256 ∧ left ++ leftRest = right ++ rightRest := by
  unfold writeRecord at same
  rw [List.append_assoc, List.append_assoc] at same
  obtain ⟨lengths, rest⟩ := List.cons.inj (List.append_cancel_left same)
  have low := congrArg UInt8.toNat lengths
  rw [UInt8.toNat_ofNat', UInt8.toNat_ofNat'] at low
  exact ⟨low, rest⟩

/-- Whoever reads a stream of records back from the bytes that a writer has cast the
lengths of finds the written records, provided that what a record stands for is not the
meaning of a proper beginning of it. -/
theorem RecordsOf.eq_written {α : Type} {means : α → Bytes → Prop}
    (free : ∀ {value part whole}, part <+: whole → means value part → means value whole →
      part = whole)
    {values : List α} {records written : List Bytes}
    (parsed : RecordsOf lead (written.flatMap (writeRecord lead)) records)
    (readMeans : List.Forall₂ means values records)
    (writtenMeans : List.Forall₂ means values written) : records = written := by
  induction readMeans generalizing written with
  | nil =>
      cases writtenMeans
      rfl
  | @cons value record values records recordMeans _ ih =>
      cases writtenMeans with
      | @cons _ whole _ written wholeMeans laterMeans =>
          have same : writeRecord lead whole ++ written.flatMap (writeRecord lead) =
              writeRecord lead record ++ records.flatMap (writeRecord lead) := parsed.written
          obtain ⟨low, rest⟩ := writeRecord_append_inj same
          have small := parsed.short record List.mem_cons_self
          have shorter : record.length ≤ whole.length := by
            rw [Nat.mod_eq_of_lt (Nat.lt_succ_of_le small)] at low
            exact low ▸ Nat.mod_le _ _
          have beginning : record <+: whole :=
            List.prefix_of_prefix_length_le (List.prefix_append _ _)
              (rest ▸ List.prefix_append _ _) shorter
          have equal := free beginning recordMeans wholeMeans
          subst equal
          have later : RecordsOf lead (written.flatMap (writeRecord lead)) records :=
            ⟨fun other member => parsed.short other (List.mem_cons_of_mem _ member),
              List.append_cancel_left rest⟩
          rw [ih later laterMeans]

/-- A stream parses in one way only. -/
theorem RecordsOf.unique {stream : Bytes} {left right : List Bytes}
    (first : RecordsOf lead stream left) (second : RecordsOf lead stream right) :
    left = right := by
  induction left generalizing stream right with
  | nil =>
      cases right with
      | nil => rfl
      | cons record right =>
          have empty := first.written.symm.trans second.written
          rw [List.flatMap_nil, List.flatMap_cons, writeRecord] at empty
          simp at empty
  | cons record left ih =>
      cases right with
      | nil =>
          have empty := second.written.symm.trans first.written
          rw [List.flatMap_nil, List.flatMap_cons, writeRecord] at empty
          simp at empty
      | cons other right =>
          have same := first.written.symm.trans second.written
          rw [List.flatMap_cons, List.flatMap_cons] at same
          obtain ⟨low, rest⟩ := writeRecord_append_inj same
          have small := first.short record List.mem_cons_self
          have otherSmall := second.short other List.mem_cons_self
          have lengths : record.length = other.length := by
            rw [Nat.mod_eq_of_lt (Nat.lt_succ_of_le small),
              Nat.mod_eq_of_lt (Nat.lt_succ_of_le otherSmall)] at low
            exact low
          obtain ⟨equal, later⟩ := List.append_inj rest lengths
          have leftLater : RecordsOf lead (left.flatMap (writeRecord lead)) left :=
            ⟨fun _ member => first.short _ (List.mem_cons_of_mem _ member), rfl⟩
          have rightLater : RecordsOf lead (left.flatMap (writeRecord lead)) right :=
            ⟨fun _ member => second.short _ (List.mem_cons_of_mem _ member), later⟩
          rw [equal, ih leftLater rightLater]

end PrinterSdk.Data
