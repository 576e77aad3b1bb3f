import PrinterSdk.Data.BigEndian
import PrinterSdk.Data.Machine
import PrinterSdk.Data.Outcome

/-!
# The BER cursor

SNMP messages are nested tag-length-value elements.  `Cursor` walks one level of
them: it reads a tag, the length octets in their short or long form, and the
value, and a nested element is a fresh cursor over that value.  Each method is
described by the octets it reads, in both directions: it returns a value exactly
when the input continues with an element that spells it.
-/

namespace PrinterSdk.Snmp

open PrinterSdk.Data

/-- `SnmpError`. -/
inductive SnmpError where
  | invalidOid
  | unregisteredObject
  | limitExceeded
  | malformed
  | requestIdMismatch
  | invalidObjectKey
  | duplicateObject
  | invalidValue
  deriving DecidableEq, Repr

/-- `Cursor`. -/
structure Cursor where
  bytes : Bytes
  offset : Nat
  deriving DecidableEq, Repr

/-- A method of the cursor. -/
abbrev Read (α : Type) := Method Cursor SnmpError α

/-- `checked_sub`. -/
def checkedSub (left right : Nat) : Option Nat :=
  if right ≤ left then some (left - right) else none

/-- `output[8 - bytes.len()..].copy_from_slice(bytes)` on an array of eight octets.  More
than eight octets make the difference panic, and so does a slice of another length. -/
def copyToEnd (output bytes : Bytes) : Outcome SnmpError Bytes := do
  let start ← okOr (checkedSub 8 bytes.length) .panic
  let target ← sliced output start output.length
  if target.length = bytes.length then .ok (output.take start ++ bytes) else panics

/-- `decode_integer`: two's complement, sign-extended to eight octets. -/
def decodeInteger (bytes : Bytes) : Outcome SnmpError Int64 :=
  if bytes.isEmpty ∨ 8 < bytes.length then
    fail .malformed
  else do
    let first ← indexed bytes 0
    let fill : UInt8 := if first &&& 0x80 = 0 then 0 else 0xff
    let output ← copyToEnd (List.replicate 8 fill) bytes
    return (UInt64.ofNat (beNat output)).toInt64

/-- `decode_unsigned`. -/
def decodeUnsigned (bytes : Bytes) : Outcome SnmpError UInt64 :=
  if bytes.isEmpty ∨ 9 < bytes.length ∨ bytes.length = 9 ∧ bytes.head? ≠ some 0 then
    fail .malformed
  else do
    let stripped := if bytes.head? = some 0 then bytes.tail else bytes
    let output ← copyToEnd (List.replicate 8 0) stripped
    return UInt64.ofNat (beNat output)

namespace Cursor

/-- `Cursor::new`. -/
def new (bytes : Bytes) : Cursor := ⟨bytes, 0⟩

/-- `Cursor::remaining`.  A slice that starts behind the end panics. -/
def remaining (cursor : Cursor) : Outcome SnmpError Bytes :=
  if cursor.offset ≤ cursor.bytes.length then
    .ok (cursor.bytes.drop cursor.offset)
  else
    panics

/-- The next octet: `get(self.offset)` and `self.offset += 1`, which panics at the end of
`usize`. -/
def octet : Read UInt8 := do
  let cursor ← get
  match cursor.bytes[cursor.offset]? with
  | none => Method.fail .malformed
  | some octet =>
      let offset ← (okOr (checkedAdd cursor.offset 1) .panic : Outcome SnmpError Nat)
      set { cursor with offset }
      return octet

/-- The next `count` octets: `checked_add` and `get(self.offset..end)`. -/
def octets (count : Nat) : Read Bytes := do
  let cursor ← get
  match checkedAdd cursor.offset count with
  | none => Method.fail .malformed
  | some finish =>
      if finish ≤ cursor.bytes.length then
        set { cursor with offset := finish }
        return (cursor.bytes.drop cursor.offset).take count
      else
        Method.fail .malformed

/-- `Cursor::length`.  The long form takes at most the eight octets of a `usize`. -/
def length : Read Nat := do
  let first ← octet
  if first &&& 0x80 = 0 then
    return first.toNat
  else
    let count := (first &&& 0x7f).toNat
    if count = 0 ∨ 8 < count then
      Method.fail .malformed
    else
      let digits ← octets count
      if digits.head? = some 0 then
        Method.fail .malformed
      else
        return beNat digits

/-- `Cursor::any`. -/
def any (maximum : Nat) : Read (UInt8 × Bytes) := do
  let tag ← octet
  let length ← length
  if maximum < length then
    Method.fail .limitExceeded
  else
    let value ← octets length
    return (tag, value)

/-- `Cursor::value`. -/
def value (tag : UInt8) (maximum : Nat) : Read Bytes := do
  let (actual, value) ← any maximum
  if actual = tag then return value else Method.fail .malformed

/-- `Cursor::nested`. -/
def nested (tag : UInt8) : Read Cursor := do
  let cursor ← get
  let value ← value tag cursor.bytes.length
  return new value

/-- `Cursor::integer`. -/
def integer : Read Int64 := do
  let value ← value 0x02 8
  decodeInteger value

/-- `Cursor::finish`. -/
def finish (cursor : Cursor) : Outcome SnmpError Unit := do
  let remaining ← cursor.remaining
  if remaining.isEmpty then .ok () else fail .malformed

end Cursor

/-! ## Numbers -/

/-- The octets of a number end up behind its fill. -/
theorem copyToEnd_of_le {bytes : Bytes} (fill : UInt8) (fits : bytes.length ≤ 8) :
    copyToEnd (List.replicate 8 fill) bytes =
      .ok (List.replicate (8 - bytes.length) fill ++ bytes) := by
  have start : checkedSub 8 bytes.length = some (8 - bytes.length) := if_pos fits
  have slice := sliced_of_le (ε := SnmpError) (Nat.sub_le 8 bytes.length)
    (List.length_replicate (n := 8) (a := fill)).ge
  have width : ((List.replicate 8 fill).drop (8 - bytes.length)).length = bytes.length := by
    rw [List.length_drop, List.length_replicate]
    omega
  rw [copyToEnd, start]
  change (sliced _ (8 - bytes.length) 8 >>= _) = _
  rw [slice]
  change (if _ then _ else _) = _
  rw [if_pos (by rw [List.length_take, width]; omega), List.take_replicate,
    Nat.min_eq_left (Nat.sub_le 8 _)]

theorem decodeInteger_cons {first : UInt8} {rest : Bytes} (fits : (first :: rest).length ≤ 8) :
    decodeInteger (first :: rest) =
      .ok (UInt64.ofNat (beNat (List.replicate (8 - (first :: rest).length)
        (if first &&& 0x80 = 0 then 0 else 0xff) ++ first :: rest))).toInt64 := by
  have accepted : ¬((first :: rest).isEmpty = true ∨ 8 < (first :: rest).length) := by
    rintro (empty | long)
    · cases empty
    · omega
  rw [decodeInteger, if_neg accepted]
  change (copyToEnd _ (first :: rest) >>= _) = _
  rw [copyToEnd_of_le _ fits]
  rfl

/-! ## Elements -/

/-- Length octets that `Cursor::length` reads as `length`. -/
inductive LengthOctets : Bytes → Nat → Prop where
  | short (first : UInt8) (clear : first &&& 0x80 = 0) :
      LengthOctets [first] first.toNat
  | long (first : UInt8) (digits : Bytes) (marked : first &&& 0x80 ≠ 0)
      (count : (first &&& 0x7f).toNat = digits.length)
      (present : digits.length ≠ 0) (fits : digits.length ≤ 8)
      (minimal : digits.head? ≠ some 0) :
      LengthOctets (first :: digits) (beNat digits)

/-- The octets of one element: its tag, its length octets and its value. -/
def elementBytes (tag : UInt8) (lengthOctets value : Bytes) : Bytes :=
  tag :: lengthOctets ++ value

namespace Cursor

/-- The cursor behind the next `count` octets. -/
def skip (cursor : Cursor) (count : Nat) : Cursor :=
  { cursor with offset := cursor.offset + count }

/-- The input still to be read. -/
def rest (cursor : Cursor) : Bytes := cursor.bytes.drop cursor.offset

/-- From `cursor` the octets `read` are read and `next` is reached. -/
structure Reads (cursor : Cursor) (read : Bytes) (next : Cursor) : Prop where
  consumed : read <+: cursor.rest
  state : cursor.skip read.length = next

variable {cursor middle next : Cursor} {read more : Bytes}

theorem Reads.split (reads : cursor.Reads read next) :
    read ++ next.rest = cursor.rest := by
  rcases reads with ⟨⟨tail, same⟩, rfl⟩
  rw [← same]
  change read ++ cursor.bytes.drop (cursor.offset + read.length) = _
  rw [← List.drop_drop]
  change read ++ cursor.rest.drop read.length = _
  rw [← same, List.drop_left]

theorem Reads.bytes_eq (reads : cursor.Reads read next) : next.bytes = cursor.bytes := by
  rw [← reads.state]
  rfl

theorem Reads.offset_eq (reads : cursor.Reads read next) :
    next.offset = cursor.offset + read.length := by
  rw [← reads.state]
  rfl

/-- A cursor that has read something stands inside its input. -/
theorem Reads.offset_le (reads : cursor.Reads read next) (started : read ≠ []) :
    next.offset ≤ next.bytes.length := by
  have split := congrArg List.length reads.split
  have length : 0 < read.length := List.length_pos_iff.mpr started
  have advanced := reads.offset_eq
  simp only [rest, List.length_append, List.length_drop, reads.bytes_eq] at split ⊢
  omega

/-- Reading a concatenation is reading its parts one after the other. -/
theorem reads_append :
    cursor.Reads (read ++ more) next ↔
      ∃ middle, cursor.Reads read middle ∧ middle.Reads more next := by
  constructor
  · intro reads
    have consumed : read <+: cursor.rest :=
      (List.prefix_append read more).trans reads.consumed
    have first : cursor.Reads read (cursor.skip read.length) := ⟨consumed, rfl⟩
    refine ⟨_, first, ?_, ?_⟩
    · have whole := reads.consumed
      rw [← first.split] at whole
      exact (List.prefix_append_right_inj read).mp whole
    · rw [← reads.state]
      simp [skip, Nat.add_assoc]
  · rintro ⟨middle, first, second⟩
    refine ⟨?_, ?_⟩
    · rw [← first.split]
      exact (List.prefix_append_right_inj read).mpr second.consumed
    · rw [← second.state, ← first.state]
      simp [skip, Nat.add_assoc]

theorem reads_cons (first : UInt8) :
    cursor.Reads (first :: more) next ↔
      ∃ middle, cursor.Reads [first] middle ∧ middle.Reads more next := by
  rw [← List.singleton_append]
  exact reads_append

theorem octet_eq_ok (first : UInt8) :
    octet cursor = .ok (first, next) ↔ next.offset ≤ usizeMax ∧ cursor.Reads [first] next := by
  have head : cursor.bytes[cursor.offset]? = some first ↔ [first] <+: cursor.rest := by
    rw [rest, ← List.head?_drop]
    cases cursor.bytes.drop cursor.offset <;> simp [eq_comm]
  unfold octet
  simp only [Method.bind_eq_ok, Method.get_eq_ok, Prod.mk.injEq]
  constructor
  · rintro ⟨_, _, ⟨rfl, rfl⟩, returned⟩
    cases found : cursor.bytes[cursor.offset]? with
    | none =>
        rw [found] at returned
        simp at returned
    | some octet =>
        rw [found] at returned
        simp only [Method.bind_eq_ok, Method.lift_eq_ok, okOr_eq_ok, Method.set_eq_ok,
          Method.pure_eq_ok, Prod.mk.injEq] at returned
        rcases returned with ⟨_, _, ⟨advanced, rfl⟩, _, _, ⟨_, rfl⟩, rfl, rfl⟩
        rcases checkedAdd_eq_some.mp advanced with ⟨fits, rfl⟩
        exact ⟨fits, head.mp found, rfl⟩
  · rintro ⟨fits, consumed, rfl⟩
    have advanced : checkedAdd cursor.offset 1 = some (cursor.offset + 1) :=
      checkedAdd_eq_some.mpr ⟨fits, rfl⟩
    refine ⟨cursor, cursor, ⟨rfl, rfl⟩, ?_⟩
    rw [head.mpr consumed]
    dsimp only
    rw [advanced]
    rfl

theorem octets_eq_ok (count : Nat) (read : Bytes) :
    octets count cursor = .ok (read, next) ↔
      read.length = count ∧ next.offset ≤ usizeMax ∧ cursor.offset ≤ cursor.bytes.length ∧
        cursor.Reads read next := by
  unfold octets
  simp only [Method.bind_eq_ok, Method.get_eq_ok, Prod.mk.injEq]
  constructor
  · rintro ⟨_, _, ⟨rfl, rfl⟩, returned⟩
    cases machine : checkedAdd cursor.offset count with
    | none =>
        rw [machine] at returned
        simp at returned
    | some finish =>
        rcases checkedAdd_eq_some.mp machine with ⟨fits, rfl⟩
        rw [machine] at returned
        dsimp only at returned
        split at returned
        · rename_i inside
          simp only [Method.bind_eq_ok, Method.set_eq_ok, Method.pure_eq_ok,
            Prod.mk.injEq] at returned
          rcases returned with ⟨_, _, ⟨_, rfl⟩, rfl, rfl⟩
          have width : ((cursor.bytes.drop cursor.offset).take count).length = count := by
            simp only [List.length_take, List.length_drop]
            omega
          refine ⟨width, fits, by omega, List.take_prefix _ _, ?_⟩
          rw [width]
          rfl
        · simp at returned
  · rintro ⟨rfl, fits, started, reads⟩
    refine ⟨cursor, cursor, ⟨rfl, rfl⟩, ?_⟩
    have advanced := reads.offset_eq
    have split := congrArg List.length reads.split
    have same := reads.bytes_eq
    have machine : checkedAdd cursor.offset read.length = some next.offset :=
      checkedAdd_eq_some.mpr ⟨advanced ▸ fits, advanced.symm⟩
    have inside : next.offset ≤ cursor.bytes.length := by
      simp only [rest, List.length_append, List.length_drop] at split
      omega
    have taken : (cursor.bytes.drop cursor.offset).take read.length = read :=
      (List.prefix_iff_eq_take.mp reads.consumed).symm
    rw [machine]
    dsimp only
    rw [if_pos inside]
    simp only [Method.bind_eq_ok, Method.set_eq_ok, Method.pure_eq_ok, Prod.mk.injEq]
    refine ⟨⟨⟩, _, ⟨trivial, rfl⟩, taken, ?_⟩
    rw [← reads.state]
    rfl

theorem length_eq_ok (length : Nat) :
    Cursor.length cursor = .ok (length, next) ↔
      ∃ read, LengthOctets read length ∧ cursor.Reads read next ∧ next.offset ≤ usizeMax := by
  unfold Cursor.length
  simp only [Method.bind_eq_ok, octet_eq_ok]
  constructor
  · rintro ⟨first, middle, ⟨single, reads⟩, returned⟩
    split at returned
    · rename_i clear
      cases (Method.pure_eq_ok _ _ _).mp returned
      exact ⟨[first], .short first clear, reads, single⟩
    · rename_i marked
      split at returned
      · simp at returned
      · rename_i count
        simp only [Method.bind_eq_ok, octets_eq_ok] at returned
        rcases returned with ⟨digits, last, ⟨width, fits, -, tail⟩, returned⟩
        split at returned
        · simp at returned
        · rename_i minimal
          cases (Method.pure_eq_ok _ _ _).mp returned
          refine ⟨first :: digits, ?_, (reads_cons first).mpr ⟨middle, reads, tail⟩, fits⟩
          exact .long first digits marked width.symm (by omega) (by omega) minimal
  · rintro ⟨read, spelled, reads, machine⟩
    cases spelled with
    | short first clear =>
        refine ⟨first, next, ⟨machine, reads⟩, ?_⟩
        rw [if_pos clear]
        rfl
    | long first digits marked count present fits minimal =>
        rcases (reads_cons first).mp reads with ⟨middle, head, tail⟩
        have before : middle.offset ≤ usizeMax := by
          have advanced := tail.offset_eq
          omega
        refine ⟨first, middle, ⟨before, head⟩, ?_⟩
        rw [if_neg marked, if_neg (by omega)]
        simp only [Method.bind_eq_ok, octets_eq_ok]
        refine ⟨digits, next, ⟨count.symm, machine, head.offset_le (by simp), tail⟩, ?_⟩
        rw [if_neg minimal]
        rfl

/-- `any` reads exactly the elements whose value is within `maximum`. -/
theorem any_eq_ok (maximum : Nat) (tag : UInt8) (value : Bytes) :
    any maximum cursor = .ok ((tag, value), next) ↔
      value.length ≤ maximum ∧ next.offset ≤ usizeMax ∧
        ∃ lengthOctets, LengthOctets lengthOctets value.length ∧
          cursor.Reads (elementBytes tag lengthOctets value) next := by
  unfold any
  simp only [Method.bind_eq_ok, octet_eq_ok]
  constructor
  · rintro ⟨first, tagged, ⟨-, head⟩, length, measured, counted, returned⟩
    rcases (length_eq_ok length).mp counted with
      ⟨lengthOctets, spelled, octets, -⟩
    split at returned
    · simp at returned
    · rename_i bounded
      simp only [Method.bind_eq_ok, octets_eq_ok] at returned
      rcases returned with ⟨read, last, ⟨rfl, fits, -, tail⟩, returned⟩
      cases (Method.pure_eq_ok _ _ _).mp returned
      refine ⟨Nat.le_of_not_lt bounded, fits, lengthOctets, spelled, ?_⟩
      exact reads_append.mpr ⟨_, (reads_cons tag).mpr ⟨_, head, octets⟩, tail⟩
  · rintro ⟨bounded, fits, lengthOctets, spelled, reads⟩
    rcases reads_append.mp reads with ⟨measured, before, tail⟩
    rcases (reads_cons tag).mp before with ⟨tagged, head, octets⟩
    have later : measured.offset ≤ usizeMax := by
      have advanced := tail.offset_eq
      omega
    have first : tagged.offset ≤ usizeMax := by
      have advanced := octets.offset_eq
      omega
    refine ⟨tag, tagged, ⟨first, head⟩, value.length, measured, ?_, ?_⟩
    · exact (length_eq_ok _).mpr ⟨lengthOctets, spelled, octets, later⟩
    · rw [if_neg (Nat.not_lt.mpr bounded)]
      simp only [Method.bind_eq_ok, octets_eq_ok]
      exact ⟨value, next, ⟨rfl, fits, before.offset_le (by simp), tail⟩, rfl⟩

theorem value_eq_ok (tag : UInt8) (maximum : Nat) (value : Bytes) :
    Cursor.value tag maximum cursor = .ok (value, next) ↔
      value.length ≤ maximum ∧ next.offset ≤ usizeMax ∧
        ∃ lengthOctets, LengthOctets lengthOctets value.length ∧
          cursor.Reads (elementBytes tag lengthOctets value) next := by
  rw [← any_eq_ok]
  unfold Cursor.value
  simp only [Method.bind_eq_ok]
  constructor
  · rintro ⟨⟨actual, read⟩, last, returned, matched⟩
    dsimp only at matched
    split at matched
    · rename_i same
      cases (Method.pure_eq_ok _ _ _).mp matched
      rw [← same]
      exact returned
    · simp at matched
  · intro returned
    refine ⟨(tag, value), next, returned, ?_⟩
    dsimp only
    rw [if_pos rfl]
    rfl

theorem nested_eq_ok (tag : UInt8) (inner : Cursor) :
    nested tag cursor = .ok (inner, next) ↔
      ∃ content, Cursor.value tag cursor.bytes.length cursor = .ok (content, next) ∧
        inner = new content := by
  unfold nested
  simp only [Method.bind_eq_ok, Method.get_eq_ok, Method.pure_eq_ok, Prod.mk.injEq]
  constructor
  · rintro ⟨_, _, ⟨rfl, rfl⟩, content, last, returned, rfl, rfl⟩
    exact ⟨content, returned, rfl⟩
  · rintro ⟨content, returned, rfl⟩
    exact ⟨cursor, cursor, ⟨rfl, rfl⟩, content, next, returned, rfl, rfl⟩

theorem integer_eq_ok (number : Int64) :
    integer cursor = .ok (number, next) ↔
      ∃ digits, Cursor.value 0x02 8 cursor = .ok (digits, next) ∧
        decodeInteger digits = .ok number := by
  unfold integer
  simp only [Method.bind_eq_ok, Method.lift_eq_ok]
  constructor
  · rintro ⟨digits, _, returned, decoded, rfl⟩
    exact ⟨digits, returned, decoded⟩
  · rintro ⟨digits, returned, decoded⟩
    exact ⟨digits, next, returned, decoded, rfl⟩

theorem finish_eq_ok (started : cursor.offset ≤ cursor.bytes.length) (result : Unit) :
    finish cursor = .ok result ↔ cursor.rest = [] := by
  unfold finish remaining
  rw [if_pos started]
  change (if (cursor.rest.isEmpty : Bool) then _ else _) = _ ↔ _
  cases cursor.rest with
  | nil => simp
  | cons head tail => simp [fail]

/-! ## No method of a cursor panics

A cursor stands inside bytes that a machine can address. -/

theorem noPanic_octet (machine : cursor.bytes.length ≤ usizeMax) : NoPanic (octet cursor) := by
  apply Method.noPanic_get
  cases found : cursor.bytes[cursor.offset]? with
  | none => exact Method.noPanic_methodFail _ _
  | some octet =>
      have inside := (List.getElem?_eq_some_iff.mp found).1
      have advanced : checkedAdd cursor.offset 1 = some (cursor.offset + 1) :=
        checkedAdd_eq_some.mpr ⟨Nat.le_trans inside machine, rfl⟩
      dsimp only
      rw [advanced]
      exact noPanic_ok _

theorem noPanic_octets (count : Nat) (cursor : Cursor) : NoPanic (octets count cursor) := by
  apply Method.noPanic_bind (noPanic_ok _)
  intro state middle _
  cases checkedAdd state.offset count with
  | none => exact Method.noPanic_methodFail _ _
  | some finish =>
      dsimp only
      split
      · exact noPanic_ok _
      · exact Method.noPanic_methodFail _ _

theorem noPanic_length (machine : cursor.bytes.length ≤ usizeMax) :
    NoPanic (Cursor.length cursor) := by
  apply Method.noPanic_bind (noPanic_octet machine)
  rintro first middle -
  split
  · exact Method.noPanic_methodPure _ _
  · dsimp only
    split
    · exact Method.noPanic_methodFail _ _
    · apply Method.noPanic_bind (noPanic_octets _ _)
      rintro digits last -
      split
      · exact Method.noPanic_methodFail _ _
      · exact Method.noPanic_methodPure _ _

theorem noPanic_any (maximum : Nat) (machine : cursor.bytes.length ≤ usizeMax) :
    NoPanic (any maximum cursor) := by
  apply Method.noPanic_bind (noPanic_octet machine)
  rintro tag tagged read
  rw [← ((octet_eq_ok tag).mp read).2.bytes_eq] at machine
  apply Method.noPanic_bind (noPanic_length machine)
  rintro length measured -
  split
  · exact Method.noPanic_methodFail _ _
  · apply Method.noPanic_bind (noPanic_octets _ _)
    rintro value last -
    exact Method.noPanic_methodPure _ _

theorem noPanic_value (tag : UInt8) (maximum : Nat) (machine : cursor.bytes.length ≤ usizeMax) :
    NoPanic (Cursor.value tag maximum cursor) := by
  apply Method.noPanic_bind (noPanic_any maximum machine)
  rintro ⟨actual, value⟩ last -
  dsimp only
  split
  · exact Method.noPanic_methodPure _ _
  · exact Method.noPanic_methodFail _ _

theorem noPanic_nested (tag : UInt8) (machine : cursor.bytes.length ≤ usizeMax) :
    NoPanic (nested tag cursor) := by
  apply Method.noPanic_get
  apply Method.noPanic_bind (noPanic_value _ _ machine)
  rintro value last -
  exact Method.noPanic_methodPure _ _

theorem noPanic_decodeInteger (bytes : Bytes) : NoPanic (decodeInteger bytes) := by
  by_cases refused : bytes.isEmpty ∨ 8 < bytes.length
  · rw [decodeInteger, if_pos refused]
    exact noPanic_fail _
  · cases bytes with
    | nil => exact absurd (.inl rfl) refused
    | cons first rest =>
        rw [decodeInteger_cons (Nat.not_lt.mp fun long => refused (.inr long))]
        exact noPanic_ok _

theorem noPanic_integer (machine : cursor.bytes.length ≤ usizeMax) :
    NoPanic (integer cursor) := by
  apply Method.noPanic_bind (noPanic_value _ _ machine)
  rintro digits last -
  exact Method.noPanic_lift _ (noPanic_decodeInteger digits)

theorem noPanic_remaining (inside : cursor.offset ≤ cursor.bytes.length) :
    NoPanic cursor.remaining := by
  rw [remaining, if_pos inside]
  exact noPanic_ok _

theorem noPanic_finish (inside : cursor.offset ≤ cursor.bytes.length) :
    NoPanic cursor.finish := by
  apply NoPanic.bind (noPanic_remaining inside)
  rintro remaining -
  split
  · exact noPanic_ok _
  · exact noPanic_fail _

theorem bytes_of_value {tag : UInt8} {maximum : Nat} {value : Bytes}
    (returned : Cursor.value tag maximum cursor = .ok (value, next)) :
    next.bytes = cursor.bytes := by
  rcases (value_eq_ok _ _ _).mp returned with ⟨-, -, lengthOctets, -, reads⟩
  exact reads.bytes_eq

theorem bytes_of_integer {number : Int64} (returned : integer cursor = .ok (number, next)) :
    next.bytes = cursor.bytes := by
  rcases (integer_eq_ok _).mp returned with ⟨digits, read, -⟩
  exact bytes_of_value read

/-- A nested cursor stands in bytes of the outer one. -/
theorem bytes_of_nested {tag : UInt8} {inner : Cursor}
    (returned : nested tag cursor = .ok (inner, next)) :
    inner.bytes.length ≤ cursor.bytes.length ∧ next.bytes = cursor.bytes := by
  rcases (nested_eq_ok _ _).mp returned with ⟨content, read, rfl⟩
  exact ⟨((value_eq_ok _ _ _).mp read).1, bytes_of_value read⟩

/-- Every element moves the cursor on, and not past the end of its input. -/
theorem advanced_of_value {tag : UInt8} {maximum : Nat} {value : Bytes}
    (returned : Cursor.value tag maximum cursor = .ok (value, next)) :
    next.offset ≤ next.bytes.length ∧ next.rest.length < cursor.rest.length := by
  rcases (value_eq_ok _ _ _).mp returned with ⟨-, -, lengthOctets, -, reads⟩
  have split := congrArg List.length reads.split
  refine ⟨reads.offset_le (by simp [elementBytes]), ?_⟩
  simp only [elementBytes, List.length_append, List.length_cons] at split
  omega

end Cursor

end PrinterSdk.Snmp
