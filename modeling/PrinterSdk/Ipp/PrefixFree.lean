import PrinterSdk.Ipp.DecodeTotal
import PrinterSdk.Ipp.RoundTrip

/-!
# Accepted messages are prefix-free

Where one message starts, no other one does: the groups of a message are read up to the tag
that ends them, and a group can be read in one way only.  No message is therefore the
beginning of another.
-/

namespace PrinterSdk.Ipp

open PrinterSdk.Data

namespace Decoder

variable {limits : Limits} {decoder : Decoder}

/-- One state is read from another by the same bytes in one way. -/
theorem Parsed.unique {bytes : Bytes} {cost : Counters} {result other : Decoder}
    (first : Parsed limits decoder bytes cost result)
    (second : Parsed limits decoder bytes cost other) : result = other :=
  first.state.symm.trans second.state

/-- The next byte that is read is determined by the input. -/
theorem Parsed.head {byte other : UInt8} {bytes more : Bytes} {cost further : Counters}
    {result final : Decoder} (first : Parsed limits decoder (byte :: bytes) cost result)
    (second : Parsed limits decoder (other :: more) further final) : byte = other := by
  have left := first.split
  rw [← second.split] at left
  exact (List.cons.inj left).1

/-- The attributes of a group are read in one way, when another group or the end of the
message follows them. -/
theorem attributes_unique {attributes others : List Attribute} {middle other : Decoder}
    (ready : decoder.Ready limits)
    (formed : ∀ attr ∈ attributes, attr.WellFormed limits (rule limits))
    (otherFormed : ∀ attr ∈ others, attr.WellFormed limits (rule limits))
    (first : Parsed limits decoder (attributesWire attributes) (attributesCost attributes) middle)
    (second : Parsed limits decoder (attributesWire others) (attributesCost others) other)
    (stops : Stops middle) (otherStops : Stops other) :
    attributes = others ∧ middle = other := by
  have room : decoder.rest.length < decoder.rest.length + 1 := Nat.lt_succ_self _
  have loop : attributesLoop (decoder.rest.length + 1) [] decoder = .ok (attributes, middle) :=
    (attributesLoop_eq_ok ready room).mpr
      ⟨_, _, attributesRead_attributes [] attributes formed, first, stops⟩
  have otherLoop : attributesLoop (decoder.rest.length + 1) [] decoder = .ok (others, other) :=
    (attributesLoop_eq_ok ready room).mpr
      ⟨_, _, attributesRead_attributes [] others otherFormed, second, otherStops⟩
  exact Prod.mk.inj (Except.ok.inj (loop.symm.trans otherLoop))

/-- The groups of a message are read in one way, up to the tag that ends them. -/
theorem groups_unique {groups others : List AttributeGroup} {result final : Decoder}
    (ready : decoder.Ready limits)
    (formed : ∀ group ∈ groups, group.WellFormed limits (rule limits))
    (otherFormed : ∀ group ∈ others, group.WellFormed limits (rule limits))
    (first : Parsed limits decoder (groupsWire groups ++ [endOfAttributesTag])
      (groupsCost groups) result)
    (second : Parsed limits decoder (groupsWire others ++ [endOfAttributesTag])
      (groupsCost others) final) :
    result = final := by
  induction groups generalizing others decoder with
  | nil =>
      cases others with
      | nil => exact first.unique second
      | cons other rest =>
          have same : endOfAttributesTag = other.tag := first.head second
          have delimits := (otherFormed other List.mem_cons_self).delimiter
          rw [← same] at delimits
          exact absurd delimits (by decide)
  | cons group groups ih =>
      have here := formed group List.mem_cons_self
      have later : ∀ next ∈ groups, next.WellFormed limits (rule limits) :=
        fun next member => formed next (List.mem_cons_of_mem _ member)
      cases others with
      | nil =>
          have same : group.tag = endOfAttributesTag := first.head second
          have delimits := here.delimiter
          rw [same] at delimits
          exact absurd delimits (by decide)
      | cons other others =>
          have there := otherFormed other List.mem_cons_self
          have otherLater : ∀ next ∈ others, next.WellFormed limits (rule limits) :=
            fun next member => otherFormed next (List.mem_cons_of_mem _ member)
          have tags : group.tag = other.tag := first.head second
          obtain ⟨tagged, marked, counted, charged, middle, inner, rest⟩ := parsed_group.mp first
          obtain ⟨_, otherMarked, _, otherCharged, otherMiddle, otherInner, otherRest⟩ :=
            parsed_group.mp second
          rw [← tags] at otherMarked
          obtain rfl := marked.unique otherMarked
          obtain rfl := charged.unique otherCharged
          have stops : Stops middle := by
            apply stops_of_groups result.rest later
            simpa using rest.split
          have otherStops : Stops otherMiddle := by
            apply stops_of_groups final.rest otherLater
            simpa using otherRest.split
          obtain ⟨-, rfl⟩ := attributes_unique charged.ready here.attributes there.attributes
            inner otherInner stops otherStops
          exact ih inner.ready later otherLater rest otherRest

end Decoder

/-- A message that was decoded is read from any input it starts. -/
theorem parsed_of_decode {accepted more : Bytes} {limits : Limits} {message : Message}
    (returned : decode accepted limits = .ok message)
    (machine : (accepted ++ more).length ≤ usizeMax) :
    Decoder.Parsed limits ⟨accepted ++ more, 0, limits, 0⟩
      (message.header ++ (groupsWire message.groups ++ [endOfAttributesTag]))
      (0 + groupsCost message.groups)
      ⟨accepted ++ more, accepted.length, limits, groupsCost message.groups⟩ := by
  obtain ⟨-, affordable, wire, -⟩ := (decode_eq_ok accepted limits message).mp returned
  rw [Message.wire] at wire
  rw [wire]
  refine ⟨List.prefix_append _ _, ⟨rfl, ?_, machine, affordable.cost⟩, ?_⟩
  · rw [List.length_append]
    exact Nat.le_add_right _ _
  · simp [Decoder.after]

/-- An accepted input cannot be continued to another one. -/
theorem extension_eq_nil {accepted more : Bytes} {limits : Limits} {message longer : Message}
    (returned : decode accepted limits = .ok message)
    (extended : decode (accepted ++ more) limits = .ok longer) : more = [] := by
  obtain ⟨formed, -, wire, -⟩ := (decode_eq_ok accepted limits message).mp returned
  obtain ⟨longerFormed, affordable, longerWire, -⟩ :=
    (decode_eq_ok (accepted ++ more) limits longer).mp extended
  have machine : (accepted ++ more).length ≤ usizeMax := by
    rw [← longerWire]
    exact Nat.le_trans affordable.length (Nat.le_of_lt_succ (UInt64.toNat_lt _))
  have first := parsed_of_decode returned machine
  have second := @parsed_of_decode (accepted ++ more) [] limits longer extended
    (by rwa [List.append_nil])
  rw [List.append_nil] at second
  have headers : message.header = longer.header := by
    have length : ∀ any : Message, any.header.length = 8 := fun any => by simp [Message.header]
    rw [Message.wire] at wire longerWire
    have same := longerWire
    rw [← wire, List.append_assoc] at same
    exact (List.append_inj same.symm ((length message).trans (length longer).symm)).1
  rw [← headers] at second
  obtain ⟨start, header, groups⟩ := Decoder.parsed_append.mp first
  obtain ⟨other, otherHeader, otherGroups⟩ := Decoder.parsed_append.mp second
  obtain rfl := header.unique otherHeader
  have same := Decoder.groups_unique header.ready formed longerFormed groups otherGroups
  have lengths : accepted.length = (accepted ++ more).length := congrArg Decoder.offset same
  rw [List.length_append] at lengths
  exact List.eq_nil_of_length_eq_zero (by omega)

/-- What is not accepted is refused with an error. -/
theorem refused_of_not_ok {input : Bytes} {limits : Limits}
    (never : ∀ message, decode input limits ≠ .ok message) :
    ∃ error, decode input limits = .error (.error error) := by
  have quiet := noPanic_decode input limits
  cases returned : decode input limits with
  | ok message => exact absurd returned (never message)
  | error fault =>
      cases fault with
      | error error => exact ⟨error, rfl⟩
      | panic => exact absurd returned quiet

/-- The decoder refuses every proper beginning and every proper continuation of a message
it accepts. -/
theorem decode_prefixFree (limits : Limits) (accepted : Bytes) (message : Message)
    (returned : decode accepted limits = .ok message) :
    (∀ shorter, shorter <+: accepted → shorter ≠ accepted →
        ∃ error, decode shorter limits = .error (.error error)) ∧
      ∀ longer, accepted <+: longer → longer ≠ accepted →
        ∃ error, decode longer limits = .error (.error error) := by
  constructor
  · rintro shorter ⟨more, rfl⟩ proper
    apply refused_of_not_ok
    intro other truncated
    rw [extension_eq_nil truncated returned, List.append_nil] at proper
    exact proper rfl
  · rintro longer ⟨more, rfl⟩ proper
    apply refused_of_not_ok
    intro other extended
    rw [extension_eq_nil returned extended, List.append_nil] at proper
    exact proper rfl

theorem decode_prefixFree_nestedMessage :
    (decode nestedMessage.wire .default).isOk = true ∧
      (∀ shorter, shorter <+: nestedMessage.wire → shorter ≠ nestedMessage.wire →
        ∃ error, decode shorter .default = .error (.error error)) ∧
      ∀ longer, nestedMessage.wire <+: longer → longer ≠ nestedMessage.wire →
        ∃ error, decode longer .default = .error (.error error) := by
  have result : (decode nestedMessage.wire .default).isOk = true := by decide +kernel
  obtain ⟨message, returned⟩ := exists_of_isOk result
  exact ⟨result, decode_prefixFree .default nestedMessage.wire message returned⟩

end PrinterSdk.Ipp
