import PrinterSdk.Data.BigEndian

/-!
# The PackBits format

A packed stream is a sequence of packets.  A header up to 127 announces one literal more
than its value, and a header from 129 on announces a byte that stands for 257 less the
header copies of itself.  The header 128 announces nothing and is refused.
-/

namespace PrinterSdk.Data.PackBits

/-! ## The reader -/

/-- What the reader expects next. -/
inductive Expect where
  | header
  /-- One literal more than `left`. -/
  | literals (left : Nat)
  | repeated (count : Nat)
  deriving DecidableEq, Repr

/-- What follows the first of `left + 1` literals. -/
def Expect.afterLiteral : Nat → Expect
  | 0 => .header
  | left + 1 => .literals left

/-- What a header announces. -/
def announced (header : UInt8) : Option Expect :=
  if header < 128 then some (.literals header.toNat)
  else if header = 128 then none
  else some (.repeated (257 - header.toNat))

/-- Read a stream to its end. -/
def unpack : Expect → Bytes → Option Bytes
  | .header, [] => some []
  | _, [] => none
  | .header, header :: rest => (announced header).bind fun expect => unpack expect rest
  | .literals left, byte :: rest =>
      (unpack (.afterLiteral left) rest).map fun later => byte :: later
  | .repeated count, byte :: rest =>
      (unpack .header rest).map fun later => List.replicate count byte ++ later

/-- The headers that the reader comes across. -/
def headers : Expect → Bytes → List UInt8
  | _, [] => []
  | .header, header :: rest =>
      match announced header with
      | some expect => header :: headers expect rest
      | none => [header]
  | .literals left, _ :: rest => headers (.afterLiteral left) rest
  | .repeated _, _ :: rest => headers .header rest

/-- A stream that is read to its end is read on behind it. -/
theorem unpack_append {expect : Expect} {bytes : Bytes} (more : Bytes) {data : Bytes}
    (read : unpack expect bytes = some data) :
    unpack expect (bytes ++ more) = (unpack .header more).map fun later => data ++ later := by
  induction bytes generalizing expect data with
  | nil =>
      cases expect with
      | header =>
          cases read
          simp
      | literals left => cases read
      | repeated count => cases read
  | cons byte rest ih =>
      cases expect with
      | header =>
          obtain ⟨after, announces, later⟩ := Option.bind_eq_some_iff.mp read
          rw [List.cons_append, unpack, announces, Option.bind_some]
          exact ih later
      | literals left =>
          obtain ⟨later, reads, rfl⟩ := Option.map_eq_some_iff.mp read
          rw [List.cons_append, unpack, ih reads, Option.map_map]
          rfl
      | repeated count =>
          obtain ⟨later, reads, rfl⟩ := Option.map_eq_some_iff.mp read
          rw [List.cons_append, unpack, ih reads, Option.map_map]
          simp [Function.comp_def]

/-- A header that is not refused announces at least one byte. -/
theorem unpack_eq_nil {bytes : Bytes} (read : unpack .header bytes = some []) : bytes = [] := by
  cases bytes with
  | nil => rfl
  | cons header rest =>
      obtain ⟨expect, announces, later⟩ := Option.bind_eq_some_iff.mp read
      unfold announced at announces
      split at announces
      · cases announces
        cases rest with
        | nil => cases later
        | cons byte rest =>
            obtain ⟨data, -, same⟩ := Option.map_eq_some_iff.mp later
            cases same
      · split at announces
        · cases announces
        · cases announces
          cases rest with
          | nil => cases later
          | cons byte rest =>
              obtain ⟨data, -, same⟩ := Option.map_eq_some_iff.mp later
              have counted := congrArg List.length same
              have bound := header.toNat_lt
              simp at counted
              omega

/-- No proper beginning of a stream stands for all of its data. -/
theorem unpack_inj_of_prefix {part whole data : Bytes} (starts : part <+: whole)
    (first : unpack .header part = some data) (second : unpack .header whole = some data) :
    part = whole := by
  obtain ⟨more, rfl⟩ := starts
  rw [unpack_append more first] at second
  obtain ⟨later, reads, same⟩ := Option.map_eq_some_iff.mp second
  have nothing : later = [] := List.append_right_eq_self.mp same
  rw [nothing] at reads
  rw [unpack_eq_nil reads, List.append_nil]

/-! ## Packets -/

/-- One packet of a stream. -/
inductive Packet where
  | literals (bytes : Bytes)
  | run (count : Nat) (byte : UInt8)
  deriving DecidableEq, Repr

namespace Packet

/-- The packet has a header of its kind. -/
def Encodable : Packet → Prop
  | .literals bytes => 1 ≤ bytes.length ∧ bytes.length ≤ 128
  | .run count _ => 2 ≤ count ∧ count ≤ 128

/-- The header of the packet. -/
def header : Packet → UInt8
  | .literals bytes => UInt8.ofNat (bytes.length - 1)
  | .run count _ => UInt8.ofNat (257 - count)

/-- The packet in the stream. -/
def wire (packet : Packet) : Bytes :=
  packet.header :: match packet with
    | .literals bytes => bytes
    | .run _ byte => [byte]

/-- The data that the packet stands for. -/
def data : Packet → Bytes
  | .literals bytes => bytes
  | .run count byte => List.replicate count byte

theorem announced_literals {bytes : Bytes} (encodable : (literals bytes).Encodable) :
    announced (literals bytes).header = some (.literals (bytes.length - 1)) := by
  obtain ⟨-, most⟩ := encodable
  have small : (UInt8.ofNat (bytes.length - 1)).toNat = bytes.length - 1 := by
    rw [UInt8.toNat_ofNat']
    omega
  have low : (literals bytes).header < 128 := by
    rw [UInt8.lt_iff_toNat_lt, header, small]
    exact Nat.lt_of_lt_of_le (by omega : bytes.length - 1 < 128) (Nat.le_refl _)
  unfold announced
  rw [if_pos low, header, small]

theorem announced_run {count : Nat} {byte : UInt8} (encodable : (run count byte).Encodable) :
    announced (run count byte).header = some (.repeated count) := by
  obtain ⟨least, most⟩ := encodable
  have value : (UInt8.ofNat (257 - count)).toNat = 257 - count := by
    rw [UInt8.toNat_ofNat']
    omega
  have high : ¬(run count byte).header < 128 := by
    rw [UInt8.lt_iff_toNat_lt, header, value]
    exact Nat.not_lt.mpr (by change 128 ≤ _; omega)
  have other : (run count byte).header ≠ 128 := by
    intro same
    have equal := congrArg UInt8.toNat same
    rw [header, value] at equal
    change _ = 128 at equal
    omega
  unfold announced
  rw [if_neg high, if_neg other, header, value]
  congr 2
  omega

theorem unpack_literals (bytes more : Bytes) (present : bytes ≠ []) :
    unpack (.literals (bytes.length - 1)) (bytes ++ more) =
      (unpack .header more).map fun later => bytes ++ later := by
  induction bytes with
  | nil => exact absurd rfl present
  | cons byte rest ih =>
      cases rest with
      | nil => rfl
      | cons next rest =>
          have step := ih (List.cons_ne_nil next rest)
          rw [List.cons_append, List.length_cons, Nat.add_sub_cancel, unpack]
          change (unpack (.literals ((next :: rest).length - 1)) _).map _ = _
          rw [step, Option.map_map]
          rfl

theorem headers_literals (bytes more : Bytes) (present : bytes ≠ []) :
    headers (.literals (bytes.length - 1)) (bytes ++ more) = headers .header more := by
  induction bytes with
  | nil => exact absurd rfl present
  | cons byte rest ih =>
      cases rest with
      | nil => rfl
      | cons next rest => exact ih (List.cons_ne_nil next rest)

/-- The reader reads a packet as its data. -/
theorem unpack_wire (packet : Packet) (encodable : packet.Encodable) (more : Bytes) :
    unpack .header (packet.wire ++ more) =
      (unpack .header more).map fun later => packet.data ++ later := by
  cases packet with
  | literals bytes =>
      have present : bytes ≠ [] := List.length_pos_iff.mp encodable.1
      rw [wire, List.cons_append, unpack, announced_literals encodable, Option.bind_some]
      exact unpack_literals bytes more present
  | run count byte =>
      rw [wire, List.cons_append, unpack, announced_run encodable, Option.bind_some]
      rfl

theorem headers_wire (packet : Packet) (encodable : packet.Encodable) (more : Bytes) :
    headers .header (packet.wire ++ more) = packet.header :: headers .header more := by
  cases packet with
  | literals bytes =>
      have present : bytes ≠ [] := List.length_pos_iff.mp encodable.1
      rw [wire, List.cons_append, headers, announced_literals encodable]
      exact congrArg _ (headers_literals bytes more present)
  | run count byte =>
      rw [wire, List.cons_append, headers, announced_run encodable]
      rfl

theorem header_ne (packet : Packet) (encodable : packet.Encodable) : packet.header ≠ 128 := by
  intro same
  cases packet with
  | literals bytes =>
      have announces := announced_literals encodable
      rw [same] at announces
      cases announces
  | run count byte =>
      have announces := announced_run encodable
      rw [same] at announces
      cases announces

end Packet

/-- The stream of a list of packets. -/
def stream (packets : List Packet) : Bytes := packets.flatMap Packet.wire

/-- The data that a list of packets stands for. -/
def contents (packets : List Packet) : Bytes := packets.flatMap Packet.data

section

variable {packets : List Packet} (encodable : ∀ packet ∈ packets, packet.Encodable)

include encodable

theorem unpack_stream : unpack .header (stream packets) = some (contents packets) := by
  induction packets with
  | nil => rfl
  | cons packet rest ih =>
      obtain ⟨first, later⟩ := List.forall_mem_cons.mp encodable
      rw [stream, contents, List.flatMap_cons, List.flatMap_cons, packet.unpack_wire first]
      change (unpack .header (stream rest)).map _ = _
      rw [ih later]
      rfl

theorem headers_stream : headers .header (stream packets) = packets.map Packet.header := by
  induction packets with
  | nil => rfl
  | cons packet rest ih =>
      obtain ⟨first, later⟩ := List.forall_mem_cons.mp encodable
      rw [stream, List.flatMap_cons, packet.headers_wire first, List.map_cons]
      exact congrArg _ (ih later)

/-- The refused header is not in a stream of packets. -/
theorem not_mem_headers : 128 ∉ headers .header (stream packets) := by
  rw [headers_stream encodable]
  intro refused
  obtain ⟨packet, member, same⟩ := List.mem_map.mp refused
  exact packet.header_ne (encodable packet member) same

end

end PrinterSdk.Data.PackBits
