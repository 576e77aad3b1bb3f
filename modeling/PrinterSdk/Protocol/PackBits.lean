import PrinterSdk.Data.PackBits
import PrinterSdk.Protocol.Raster

/-!
# Packed rows

`packbits` keeps the literals or the run it has not written yet beside the packets it
has written.  What it writes is a stream of packets that stands for its input.
-/

namespace PrinterSdk.Protocol

open PrinterSdk.Data PrinterSdk.Data.PackBits

namespace PackState

variable {state : PackState} {consumed : Bytes}

/-- What was consumed is in the packets written so far and in what is kept: literals,
or copies of the byte that comes next. -/
structure Packing (state : PackState) (packets : List Packet) (consumed : Bytes)
    (next : UInt8) : Prop where
  encodable : ∀ packet ∈ packets, packet.Encodable
  written : state.result = stream packets
  literals : state.inRepeat = false →
    state.literal.length ≤ 127 ∧ consumed = contents packets ++ state.literal
  run : state.inRepeat = true → state.literal = [] ∧ 1 ≤ state.repeats ∧ state.repeats ≤ 127 ∧
    consumed = contents packets ++ List.replicate state.repeats next

theorem packing_initial (next : UInt8) : Packing {} [] [] next where
  encodable := by simp
  written := rfl
  literals := fun _ => ⟨Nat.zero_le _, rfl⟩
  run := by simp

theorem stream_snoc (packets : List Packet) (packet : Packet) :
    stream (packets ++ [packet]) = stream packets ++ packet.wire := by
  simp [stream]

theorem contents_snoc (packets : List Packet) (packet : Packet) :
    contents (packets ++ [packet]) = contents packets ++ packet.data := by
  simp [contents]

theorem encodable_snoc {packets : List Packet} {packet : Packet}
    (encodable : ∀ packet ∈ packets, packet.Encodable) (last : packet.Encodable) :
    ∀ other ∈ packets ++ [packet], other.Encodable := by
  intro other member
  rcases List.mem_append.mp member with old | new
  · exact encodable other old
  · rw [List.mem_singleton.mp new]
    exact last

/-- The literals that are kept are written as a packet, if there are any. -/
theorem flushLiteral_packets {packets : List Packet}
    (encodable : ∀ packet ∈ packets, packet.Encodable) (written : state.result = stream packets)
    (short : state.literal.length ≤ 128) :
    ∃ more, (∀ packet ∈ more, packet.Encodable) ∧ state.flushLiteral.result = stream more ∧
      contents more = contents packets ++ state.literal ∧ state.flushLiteral.literal = [] := by
  unfold flushLiteral
  by_cases empty : state.literal = []
  · rw [empty]
    exact ⟨packets, encodable, written, (List.append_nil _).symm, empty⟩
  · have present : 1 ≤ state.literal.length := List.length_pos_iff.mpr empty
    rw [if_neg (by simpa using empty)]
    have fits : Packet.Encodable (.literals state.literal) := ⟨present, short⟩
    refine ⟨packets ++ [.literals state.literal], encodable_snoc encodable fits, ?_,
      contents_snoc packets _, rfl⟩
    rw [stream_snoc, ← written]
    rfl

/-- The run that is kept is written as a packet. -/
theorem pushRun_packets {packets : List Packet} (byte : UInt8)
    (encodable : ∀ packet ∈ packets, packet.Encodable) (written : state.result = stream packets)
    (least : 2 ≤ state.repeats) (most : state.repeats ≤ 128) :
    (∀ packet ∈ packets ++ [.run state.repeats byte], packet.Encodable) ∧
      (state.pushRun byte).result = stream (packets ++ [.run state.repeats byte]) ∧
      contents (packets ++ [.run state.repeats byte]) =
        contents packets ++ List.replicate state.repeats byte := by
  have fits : Packet.Encodable (.run state.repeats byte) := ⟨least, most⟩
  refine ⟨encodable_snoc encodable fits, ?_, contents_snoc packets _⟩
  rw [stream_snoc, ← written]
  rfl

/-- A byte that equals its successor begins a run. -/
theorem Packing.begin {packets : List Packet} {byte : UInt8}
    (packing : state.Packing packets consumed byte) (outside : state.inRepeat = false) :
    ∃ more, Packing { state.flushLiteral with inRepeat := true, repeats := 1 } more
      (consumed ++ [byte]) byte := by
  obtain ⟨short, split⟩ := packing.literals outside
  obtain ⟨more, encodable, written, data, emptied⟩ :=
    flushLiteral_packets packing.encodable packing.written (by omega)
  refine ⟨more, encodable, written, by simp, fun _ => ⟨emptied, Nat.le_refl 1, by simp, ?_⟩⟩
  rw [data, ← split]
  rfl

/-- A byte that equals its successor lengthens a run; a run of 127 is written first. -/
theorem Packing.lengthen {packets : List Packet} {byte : UInt8}
    (packing : state.Packing packets consumed byte) (inside : state.inRepeat = true) :
    ∃ more, Packing (state.turn byte byte) more (consumed ++ [byte]) byte := by
  obtain ⟨emptied, least, most, split⟩ := packing.run inside
  unfold turn
  rw [if_pos rfl, inside]
  simp only [Bool.not_true, Bool.false_eq_true, if_false]
  by_cases full : state.repeats = 127
  · rw [if_pos full]
    obtain ⟨encodable, written, data⟩ := pushRun_packets byte packing.encodable packing.written
      (by omega) (by omega)
    refine ⟨_, encodable, written, by simp [pushRun, inside],
      fun _ => ⟨emptied, Nat.le_refl 1, by simp, ?_⟩⟩
    rw [data, ← split]
    rfl
  · rw [if_neg full]
    refine ⟨packets, packing.encodable, packing.written, by simp [inside],
      fun _ => ⟨emptied, by simp, ?_, ?_⟩⟩
    · change state.repeats + 1 ≤ 127
      omega
    · rw [split, List.append_assoc, List.replicate_succ']

/-- A byte that differs from its successor ends a run. -/
theorem Packing.finish {packets : List Packet} {byte next : UInt8}
    (packing : state.Packing packets consumed byte) (inside : state.inRepeat = true)
    (different : byte ≠ next) :
    ∃ more, Packing (state.turn byte next) more (consumed ++ [byte]) next := by
  obtain ⟨emptied, least, most, split⟩ := packing.run inside
  obtain ⟨encodable, written, data⟩ :=
    @pushRun_packets { state with repeats := state.repeats + 1 } packets byte packing.encodable
      packing.written (Nat.succ_le_succ least) (Nat.succ_le_succ most)
  unfold turn
  rw [if_neg different, if_pos inside]
  refine ⟨_, encodable, written, fun _ => ⟨by simp [pushRun, emptied], ?_⟩, by simp⟩
  rw [data, split, List.append_assoc, ← List.replicate_succ']
  simp [pushRun, emptied]

/-- A byte that differs from its successor is kept as a literal; 127 literals are
written first. -/
theorem Packing.keep {packets : List Packet} {byte next : UInt8}
    (packing : state.Packing packets consumed byte) (outside : state.inRepeat = false)
    (different : byte ≠ next) :
    ∃ more, Packing (state.turn byte next) more (consumed ++ [byte]) next := by
  obtain ⟨short, split⟩ := packing.literals outside
  unfold turn
  rw [if_neg different, outside]
  simp only [Bool.false_eq_true, if_false]
  by_cases full : state.literal.length = 127
  · rw [if_pos full]
    obtain ⟨more, encodable, written, data, emptied⟩ :=
      flushLiteral_packets packing.encodable packing.written (by omega)
    have kept : state.flushLiteral.inRepeat = false := by
      unfold flushLiteral
      split
      · exact outside
      · exact outside
    refine ⟨more, encodable, written, fun _ => ?_, by simp [kept]⟩
    simp [emptied, data, split]
  · rw [if_neg full]
    refine ⟨packets, packing.encodable, packing.written, fun _ => ⟨?_, ?_⟩, by simp [outside]⟩
    · simp only [List.length_append, List.length_singleton]
      omega
    · rw [split, List.append_assoc]

/-- Every turn keeps the account of what was consumed. -/
theorem Packing.turn {packets : List Packet} {byte : UInt8}
    (packing : state.Packing packets consumed byte) (next : UInt8) :
    ∃ more, Packing (state.turn byte next) more (consumed ++ [byte]) next := by
  by_cases same : byte = next
  · subst same
    cases repeating : state.inRepeat with
    | true => exact packing.lengthen repeating
    | false =>
        obtain ⟨more, begun⟩ := packing.begin repeating
        refine ⟨more, ?_⟩
        unfold PackState.turn
        simpa [repeating] using begun
  · cases repeating : state.inRepeat with
    | true => exact packing.finish repeating same
    | false => exact packing.keep repeating same

/-- What is kept at the last byte is written with it. -/
theorem Packing.last {packets : List Packet} {byte : UInt8}
    (packing : state.Packing packets consumed byte) :
    ∃ more, (∀ packet ∈ more, packet.Encodable) ∧ state.pack [byte] = stream more ∧
      contents more = consumed ++ [byte] := by
  unfold pack
  cases repeating : state.inRepeat with
  | true =>
      rw [if_pos rfl]
      obtain ⟨-, least, most, split⟩ := packing.run repeating
      obtain ⟨encodable, written, data⟩ :=
        @pushRun_packets { state with repeats := state.repeats + 1 } packets byte
          packing.encodable packing.written (Nat.succ_le_succ least) (Nat.succ_le_succ most)
      refine ⟨_, encodable, written, ?_⟩
      rw [data, split, List.append_assoc, ← List.replicate_succ']
  | false =>
      rw [if_neg Bool.false_ne_true]
      obtain ⟨short, split⟩ := packing.literals repeating
      have room : (state.literal ++ [byte]).length ≤ 128 := by
        rw [List.length_append, List.length_singleton]
        omega
      obtain ⟨more, encodable, written, data, -⟩ :=
        @flushLiteral_packets { state with literal := state.literal ++ [byte], inRepeat := false }
          packets packing.encodable packing.written room
      refine ⟨more, encodable, written, ?_⟩
      rw [data, split, List.append_assoc]

theorem Packing.pack {packets : List Packet} {byte : UInt8} (rest : Bytes)
    (packing : state.Packing packets consumed byte) :
    ∃ more, (∀ packet ∈ more, packet.Encodable) ∧ state.pack (byte :: rest) = stream more ∧
      contents more = consumed ++ byte :: rest := by
  induction rest generalizing state packets consumed byte with
  | nil => exact packing.last
  | cons next rest ih =>
      obtain ⟨later, step⟩ := packing.turn next
      obtain ⟨more, encodable, written, data⟩ := ih step
      refine ⟨more, encodable, written, ?_⟩
      rw [data, List.append_assoc, List.singleton_append]

end PackState

/-- A packed row is a stream of packets that stands for the row. -/
theorem packbits_eq_stream (data : Bytes) :
    ∃ packets, (∀ packet ∈ packets, Packet.Encodable packet) ∧ packbits data = stream packets ∧
      contents packets = data := by
  unfold packbits
  split
  · exact ⟨[], by simp, rfl, rfl⟩
  · next byte =>
      refine ⟨[.literals [byte]], ?_, rfl, rfl⟩
      intro packet member
      rw [List.mem_singleton.mp member]
      exact ⟨Nat.le_refl 1, by simp⟩
  · next present _ =>
      cases data with
      | nil => exact absurd rfl present
      | cons byte rest => exact (PackState.packing_initial byte).pack rest

theorem unpack_packbits (data : Bytes) : unpack .header (packbits data) = some data := by
  obtain ⟨packets, encodable, written, rfl⟩ := packbits_eq_stream data
  rw [written]
  exact unpack_stream encodable

/-- The reader consumes a packed row to its end, recovers the row, and comes across no
refused header. -/
theorem packbits_round_trip (data : Bytes) :
    unpack .header (packbits data) = some data ∧ 128 ∉ headers .header (packbits data) := by
  refine ⟨unpack_packbits data, ?_⟩
  obtain ⟨packets, encodable, written, -⟩ := packbits_eq_stream data
  rw [written]
  exact not_mem_headers encodable

example : packbits [7, 7, 7, 1, 2] = [254, 7, 1, 1, 2] := by decide

end PrinterSdk.Protocol
