import PrinterSdk.Data.Text

/-!
# Credit-flow notification frames

On a credit-controlled BLE link a printer grants write credits with frames
`[01 n]` and announces a payload limit with frames `[02 lo hi]`; every other frame
is a response.  Both BLE adapters read this format.
-/

namespace PrinterSdk.Protocol

open PrinterSdk.Data

/-- `u16::from_le_bytes`. -/
def limitFromLeBytes (low high : UInt8) : Nat :=
  low.toNat + 256 * high.toNat

/-- Credits granted by a frame. -/
def creditOf : Bytes → Nat
  | [0x01, credits] => credits.toNat
  | _ => 0

/-- The payload limit a frame announces; a zero limit announces none. -/
def limitOf : Bytes → Option Nat
  | [0x02, low, high] =>
      if limitFromLeBytes low high ≠ 0 then some (limitFromLeBytes low high) else none
  | _ => none

/-- Credit and limit frames. -/
def isControl : Bytes → Bool
  | [0x01, _] => true
  | [0x02, _, _] => true
  | _ => false

/-- Credits granted by a sequence of frames. -/
def creditTotal (frames : List Bytes) : Nat :=
  (frames.map creditOf).sum

/-- The most recent non-zero limit of a sequence of frames. -/
def lastLimit (frames : List Bytes) : Option Nat :=
  (frames.filterMap limitOf).getLast?

/-- The frames that are responses. -/
def responses (frames : List Bytes) : List Bytes :=
  frames.filter fun bytes => !isControl bytes

@[simp] theorem creditTotal_append (left right : List Bytes) :
    creditTotal (left ++ right) = creditTotal left + creditTotal right := by
  simp [creditTotal]

@[simp] theorem creditTotal_singleton (bytes : Bytes) :
    creditTotal [bytes] = creditOf bytes := by
  simp [creditTotal]

theorem lastLimit_append (left right : List Bytes) :
    lastLimit (left ++ right) = (lastLimit right).or (lastLimit left) := by
  simp [lastLimit, List.getLast?_append]

@[simp] theorem lastLimit_singleton (bytes : Bytes) : lastLimit [bytes] = limitOf bytes := by
  cases announced : limitOf bytes <;> simp [lastLimit, announced]

@[simp] theorem responses_append (left right : List Bytes) :
    responses (left ++ right) = responses left ++ responses right :=
  List.filter_append ..

theorem responses_mono {left right : List Bytes} (within : left <+: right) :
    responses left <+: responses right :=
  within.filter _

/-- A frame of neither shape is a response. -/
theorem isControl_eq_false {bytes : Bytes} (noCredit : ∀ count, bytes ≠ [0x01, count])
    (noLimit : ∀ low high, bytes ≠ [0x02, low, high]) : isControl bytes = false := by
  unfold isControl
  split
  · exact absurd rfl (noCredit _)
  · exact absurd rfl (noLimit _ _)
  · rfl

theorem creditOf_of_not_control {bytes : Bytes} (response : isControl bytes = false) :
    creditOf bytes = 0 := by
  unfold creditOf
  split
  · simp [isControl] at response
  · rfl

theorem limitOf_of_not_control {bytes : Bytes} (response : isControl bytes = false) :
    limitOf bytes = none := by
  unfold limitOf
  split
  · simp [isControl] at response
  · rfl

theorem isControl_of_mem_responses {frames : List Bytes} {bytes : Bytes}
    (member : bytes ∈ responses frames) : isControl bytes = false := by
  simpa [responses] using (List.mem_filter.mp member).2

end PrinterSdk.Protocol
