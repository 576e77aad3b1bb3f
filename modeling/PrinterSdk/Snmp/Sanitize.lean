import PrinterSdk.Snmp.Response

/-!
# The evidence of a response

A message is laid out as an outer header, the version, the header of the community
and the community itself, the PDU, and whatever follows the outer element.
`Layout` names these parts.  The decoder accepts bytes exactly along one layout,
and whether it accepts them does not depend on the community octets; the mask it
then writes is displaced by the octets behind the outer element.
-/

namespace PrinterSdk.Snmp

open PrinterSdk.Data

/-- The parts of a message, with the length octets that delimit them. -/
structure Layout where
  outerLength : Bytes
  versionLength : Bytes
  version : Bytes
  communityLength : Bytes
  community : Bytes
  pduLength : Bytes
  pdu : Bytes
  trailing : Bytes
  deriving DecidableEq, Repr

namespace Layout

variable (layout : Layout)

/-- The version element. -/
def versionElement : Bytes := elementBytes 0x02 layout.versionLength layout.version

/-- The community element. -/
def communityElement : Bytes :=
  elementBytes 0x04 layout.communityLength layout.community

/-- The PDU element. -/
def pduElement : Bytes := elementBytes 0xa2 layout.pduLength layout.pdu

/-- The contents of the outer element. -/
def content : Bytes :=
  layout.versionElement ++ layout.communityElement ++ layout.pduElement

/-- The whole message. -/
def bytes : Bytes :=
  elementBytes 0x30 layout.outerLength layout.content ++ layout.trailing

/-- Every length is spelled by the octets that stand before it. -/
structure Delimited : Prop where
  outer : LengthOctets layout.outerLength layout.content.length
  version : LengthOctets layout.versionLength layout.version.length
  community : LengthOctets layout.communityLength layout.community.length
  pdu : LengthOctets layout.pduLength layout.pdu.length

/-- The same message with other community octets. -/
def withCommunity (community : Bytes) : Layout := { layout with community }

/-- The same message with every community octet masked. -/
def masked : Layout :=
  layout.withCommunity (List.replicate layout.community.length 0x2a)

/-- The octets before the community. -/
def before : Bytes :=
  0x30 :: layout.outerLength ++ layout.versionElement ++ (0x04 :: layout.communityLength)

/-- The octets behind the community. -/
def behind : Bytes := layout.pduElement ++ layout.trailing

theorem bytes_eq :
    layout.bytes = layout.before ++ layout.community ++ layout.behind := by
  simp [bytes, content, before, behind, communityElement, elementBytes]

@[simp] theorem before_withCommunity (community : Bytes) :
    (layout.withCommunity community).before = layout.before := rfl

@[simp] theorem behind_withCommunity (community : Bytes) :
    (layout.withCommunity community).behind = layout.behind := rfl

variable {layout} {community : Bytes}

theorem Delimited.withCommunity (delimited : layout.Delimited)
    (same : community.length = layout.community.length) :
    (layout.withCommunity community).Delimited where
  outer := by
    have content : (layout.withCommunity community).content.length =
        layout.content.length := by
      simp [Layout.withCommunity, Layout.content, versionElement, communityElement,
        pduElement, elementBytes, same]
    rw [content]
    exact delimited.outer
  version := delimited.version
  community := by
    change LengthOctets layout.communityLength community.length
    rw [same]
    exact delimited.community
  pdu := delimited.pdu

end Layout

/-! ## Layouts are determined by their bytes -/

/-- Length octets end where they say. -/
theorem LengthOctets.unique {octets others rest more : Bytes} {length size : Nat}
    (spelled : LengthOctets octets length) (respelled : LengthOctets others size)
    (same : octets ++ rest = others ++ more) :
    octets = others ∧ length = size ∧ rest = more := by
  cases spelled with
  | short first clear =>
      cases respelled with
      | short other =>
          rcases List.cons.inj same with ⟨rfl, rfl⟩
          exact ⟨rfl, rfl, rfl⟩
      | long other digits marked =>
          exact absurd ((List.cons.inj same).1 ▸ clear) marked
  | long first digits marked count =>
      cases respelled with
      | short other clear =>
          exact absurd ((List.cons.inj same).1 ▸ clear) marked
      | long other others _ recount =>
          rcases List.cons.inj same with ⟨rfl, tails⟩
          rcases List.append_inj tails (count.symm.trans recount) with ⟨rfl, rfl⟩
          exact ⟨rfl, rfl, rfl⟩

theorem elementBytes_unique {tag : UInt8} {octets others value other rest more : Bytes}
    (spelled : LengthOctets octets value.length) (respelled : LengthOctets others other.length)
    (same : elementBytes tag octets value ++ rest = elementBytes tag others other ++ more) :
    octets = others ∧ value = other ∧ rest = more := by
  simp only [elementBytes, List.cons_append, List.append_assoc, List.cons.injEq,
    true_and] at same
  rcases spelled.unique respelled same with ⟨rfl, length, tails⟩
  rcases List.append_inj tails length with ⟨rfl, rfl⟩
  exact ⟨rfl, rfl, rfl⟩

theorem Layout.Delimited.unique {layout other : Layout} (delimited : layout.Delimited)
    (redelimited : other.Delimited) (same : layout.bytes = other.bytes) :
    layout = other := by
  rcases elementBytes_unique delimited.outer redelimited.outer same with
    ⟨outer, contents, trailing⟩
  simp only [Layout.content, List.append_assoc] at contents
  rcases elementBytes_unique delimited.version redelimited.version contents with
    ⟨versionLength, version, tails⟩
  rcases elementBytes_unique delimited.community redelimited.community tails with
    ⟨communityLength, community, pdus⟩
  have pdus : layout.pduElement ++ [] = other.pduElement ++ [] := by rw [pdus]
  rcases elementBytes_unique delimited.pdu redelimited.pdu pdus with ⟨pduLength, pdu, -⟩
  cases layout
  cases other
  simp_all

/-! ## The walk along a layout -/

/-- A layout the decoder can walk down to its PDU. -/
structure Layout.Walkable (layout : Layout) : Prop where
  delimited : layout.Delimited
  version : decodeInteger layout.version = .ok 1
  community : layout.community.length ≤ 255
  machine : (elementBytes 0x30 layout.outerLength layout.content).length ≤ usizeMax

namespace Cursor

theorem reads_new {bytes read : Bytes} {next : Cursor} :
    (new bytes).Reads read next ↔ ∃ tail, read ++ tail = bytes ∧ ⟨bytes, read.length⟩ = next := by
  constructor
  · rintro ⟨⟨tail, same⟩, rfl⟩
    refine ⟨tail, ?_, ?_⟩
    · exact same
    · simp [skip, new]
  · rintro ⟨tail, same, rfl⟩
    refine ⟨⟨tail, same⟩, ?_⟩
    simp [skip, new]

/-- A cursor behind `done` reads what follows it. -/
theorem reads_behind (done read tail : Bytes) :
    Reads ⟨done ++ (read ++ tail), done.length⟩ read
      ⟨done ++ (read ++ tail), (done ++ read).length⟩ := by
  refine ⟨⟨tail, ?_⟩, ?_⟩
  · simp [rest]
  · simp [skip]

end Cursor

theorem length_le_of_decodeInteger {bytes : Bytes} {number : Int64}
    (decoded : decodeInteger bytes = .ok number) : bytes.length ≤ 8 := by
  by_contra long
  rw [decodeInteger, if_pos (.inr (Nat.not_le.mp long))] at decoded
  cases decoded

namespace Layout

variable {layout : Layout}

/-- The community element starts behind the version element. -/
def atCommunity (layout : Layout) : Cursor :=
  ⟨layout.content, layout.versionElement.length⟩

/-- The PDU starts behind the community element. -/
def atPdu (layout : Layout) : Cursor :=
  ⟨layout.content, (layout.versionElement ++ layout.communityElement).length⟩

/-- The end of the outer element. -/
def atEnd (layout : Layout) : Cursor := ⟨layout.content, layout.content.length⟩

theorem Walkable.outer_read (walkable : layout.Walkable) :
    Cursor.nested 0x30 (Cursor.new layout.bytes) = .ok (Cursor.new layout.content,
      ⟨layout.bytes, (elementBytes 0x30 layout.outerLength layout.content).length⟩) := by
  apply (Cursor.nested_eq_ok _ _).mpr
  refine ⟨layout.content, (Cursor.value_eq_ok _ _ _).mpr ?_, rfl⟩
  refine ⟨?_, walkable.machine, layout.outerLength, walkable.delimited.outer, ?_⟩
  · simp [Cursor.new, bytes, elementBytes]
    omega
  · exact Cursor.reads_new.mpr ⟨layout.trailing, rfl, rfl⟩

theorem Walkable.content_le (walkable : layout.Walkable) :
    layout.content.length ≤ usizeMax := by
  have machine := walkable.machine
  simp only [elementBytes, List.length_append] at machine
  omega

theorem Walkable.version_read (walkable : layout.Walkable) :
    Cursor.integer (Cursor.new layout.content) = .ok (1, layout.atCommunity) := by
  have content := walkable.content_le
  apply (Cursor.integer_eq_ok _).mpr
  refine ⟨layout.version, (Cursor.value_eq_ok _ _ _).mpr ?_, walkable.version⟩
  refine ⟨length_le_of_decodeInteger walkable.version, ?_, layout.versionLength,
    walkable.delimited.version, ?_⟩
  · simp only [Layout.content, atCommunity, List.length_append] at content ⊢
    omega
  · apply Cursor.reads_new.mpr
    exact ⟨layout.communityElement ++ layout.pduElement, by simp [Layout.content, versionElement], rfl⟩

theorem Walkable.community_read (walkable : layout.Walkable) :
    Cursor.value 0x04 255 layout.atCommunity = .ok (layout.community, layout.atPdu) := by
  have content := walkable.content_le
  apply (Cursor.value_eq_ok _ _ _).mpr
  refine ⟨walkable.community, ?_, layout.communityLength, walkable.delimited.community, ?_⟩
  · simp only [Layout.content, atPdu, List.length_append] at content ⊢
    omega
  · have reads := Cursor.reads_behind layout.versionElement layout.communityElement
      layout.pduElement
    rw [← List.append_assoc] at reads
    exact reads

theorem Walkable.pdu_read (walkable : layout.Walkable) :
    Cursor.nested 0xa2 layout.atPdu = .ok (Cursor.new layout.pdu, layout.atEnd) := by
  apply (Cursor.nested_eq_ok _ _).mpr
  refine ⟨layout.pdu, (Cursor.value_eq_ok _ _ _).mpr ?_, rfl⟩
  refine ⟨?_, walkable.content_le, layout.pduLength, walkable.delimited.pdu, ?_⟩
  · simp only [atPdu, Layout.content, pduElement, elementBytes, List.length_append]
    omega
  · have reads := Cursor.reads_behind (layout.versionElement ++ layout.communityElement)
      layout.pduElement []
    rw [List.append_nil] at reads
    exact reads

theorem atEnd_finish (layout : Layout) : layout.atEnd.finish = .ok () := by
  apply (Cursor.finish_eq_ok (Nat.le_refl _) _).mpr
  simp [atEnd, Cursor.rest]

theorem Walkable.withCommunity {community : Bytes} (walkable : layout.Walkable)
    (same : community.length = layout.community.length) :
    (layout.withCommunity community).Walkable where
  delimited := walkable.delimited.withCommunity same
  version := walkable.version
  community := same ▸ walkable.community
  machine := by
    have machine := walkable.machine
    simp only [Layout.withCommunity, content, versionElement, communityElement, pduElement,
      elementBytes, List.length_append, List.length_cons, same] at machine ⊢
    exact machine

end Layout

/-- Bytes the decoder walks down to the PDU are laid out for it. -/
theorem exists_walkable {bytes community : Bytes} {outer after versioned located pdu last : Cursor}
    (opened : Cursor.nested 0x30 (Cursor.new bytes) = .ok (outer, after))
    (version : Cursor.integer outer = .ok (1, versioned))
    (secret : Cursor.value 0x04 255 versioned = .ok (community, located))
    (nested : Cursor.nested 0xa2 located = .ok (pdu, last))
    (finished : last.finish = .ok ()) :
    ∃ layout : Layout, layout.Walkable ∧ layout.bytes = bytes ∧
      pdu = Cursor.new layout.pdu := by
  rcases (Cursor.nested_eq_ok _ _).mp opened with ⟨content, outerValue, rfl⟩
  rcases (Cursor.value_eq_ok _ _ _).mp outerValue with
    ⟨-, machine, outerLength, outerSpelled, outerRead⟩
  rcases (Cursor.integer_eq_ok _).mp version with ⟨digits, versionValue, decoded⟩
  rcases (Cursor.value_eq_ok _ _ _).mp versionValue with
    ⟨-, -, versionLength, versionSpelled, versionRead⟩
  rcases (Cursor.value_eq_ok _ _ _).mp secret with
    ⟨communityFits, -, communityLength, communitySpelled, communityRead⟩
  rcases (Cursor.nested_eq_ok _ _).mp nested with ⟨inner, pduValue, rfl⟩
  rcases (Cursor.value_eq_ok _ _ _).mp pduValue with
    ⟨-, -, pduLength, pduSpelled, pduRead⟩
  have atEnd : last.rest = [] :=
    (Cursor.finish_eq_ok (pduRead.offset_le (by simp [elementBytes])) _).mp finished
  let layout : Layout := ⟨outerLength, versionLength, digits, communityLength, community,
    pduLength, inner, after.rest⟩
  -- what is left behind each element is the next one, down to the end of the content
  have contents : layout.content = content := by
    change _ = (Cursor.new content).rest
    rw [← versionRead.split, ← communityRead.split, ← pduRead.split, atEnd, List.append_nil]
    exact List.append_assoc _ _ _
  have spelled : LengthOctets layout.outerLength layout.content.length := by
    rw [contents]
    exact outerSpelled
  refine ⟨layout, ⟨⟨spelled, versionSpelled, communitySpelled, pduSpelled⟩, decoded,
    communityFits, ?_⟩, ?_, rfl⟩
  · have advanced := outerRead.offset_eq
    rw [contents]
    simp only [Cursor.new, Nat.zero_add] at advanced
    rw [← advanced]
    exact machine
  · change elementBytes 0x30 outerLength layout.content ++ after.rest = (Cursor.new bytes).rest
    rw [contents]
    exact outerRead.split

/-! ## The mask -/

namespace Layout

/-- Where `sanitize_v2c_message` starts its mask. -/
def maskStart (layout : Layout) : Nat := layout.before.length + layout.trailing.length

/-- The message as `sanitize_v2c_message` masks it. -/
def displaced (layout : Layout) : Bytes :=
  layout.bytes.take layout.maskStart ++ List.replicate layout.community.length 0x2a ++
    layout.bytes.drop (layout.maskStart + layout.community.length)

/-- The mask lies inside the message. -/
def MaskFits (layout : Layout) : Prop :=
  layout.maskStart + layout.community.length ≤ layout.bytes.length ∧
    layout.maskStart + layout.community.length ≤ usizeMax

variable {layout : Layout}

instance (layout : Layout) : Decidable layout.MaskFits :=
  inferInstanceAs (Decidable (_ ∧ _))

/-- Along a layout the second walk always finds its place, and the mask is refused
only when it does not fit; the place is computed without an overflow. -/
theorem Walkable.sanitize_eq (walkable : layout.Walkable) :
    sanitizeV2cMessage layout.bytes =
      if usizeMax < layout.maskStart then panics
      else if layout.MaskFits then .ok layout.displaced else fail .malformed := by
  have header : (checkedSub layout.atPdu.offset layout.atCommunity.offset).bind
      (fun length => checkedSub length layout.community.length) =
      some (layout.communityLength.length + 1) := by
    simp [checkedSub, atPdu, atCommunity, communityElement, elementBytes]
    omega
  have outer : checkedSub layout.bytes.length layout.atPdu.bytes.length =
      some (layout.outerLength.length + 1 + layout.trailing.length) := by
    simp [checkedSub, atPdu, Layout.bytes, elementBytes]
    omega
  have start : layout.outerLength.length + 1 + layout.trailing.length +
      layout.atCommunity.offset + (layout.communityLength.length + 1) = layout.maskStart := by
    simp [maskStart, before, atCommunity]
    omega
  have walked : sanitizeV2cMessage layout.bytes =
      (okOr ((checkedAdd (layout.outerLength.length + 1 + layout.trailing.length)
          layout.atCommunity.offset).bind (checkedAdd · (layout.communityLength.length + 1)))
          .panic >>= fun start =>
        okOr (checkedAdd start layout.community.length) (.error .malformed) >>=
        fun finish => okOr (fillRange layout.bytes start finish) (.error .malformed)) := by
    unfold sanitizeV2cMessage
    rw [walkable.outer_read]
    change (Cursor.integer (Cursor.new layout.content) >>= _) = _
    rw [walkable.version_read]
    change (Cursor.value 0x04 255 layout.atCommunity >>= _) = _
    rw [walkable.community_read]
    change (okOr ((checkedSub layout.atPdu.offset layout.atCommunity.offset).bind _) _ >>= _) = _
    rw [header]
    change (okOr (checkedSub layout.bytes.length layout.atPdu.bytes.length) _ >>= _) = _
    rw [outer]
    rfl
  rw [walked]
  by_cases placed : layout.maskStart ≤ usizeMax
  · rw [checkedAdd_bind (start.symm ▸ placed), start, if_neg (Nat.not_lt.mpr placed)]
    change (okOr (checkedAdd layout.maskStart _) _ >>= _) = _
    by_cases machine : layout.maskStart + layout.community.length ≤ usizeMax
    · rw [checkedAdd, if_pos machine]
      change okOr (fillRange _ _ _) _ = _
      by_cases inside : layout.maskStart + layout.community.length ≤ layout.bytes.length
      · rw [fillRange, if_pos ⟨Nat.le_add_right _ _, inside⟩, if_pos ⟨inside, machine⟩,
          Nat.add_sub_cancel_left]
        rfl
      · rw [fillRange, if_neg (fun within => inside within.2),
          if_neg (fun fits => inside fits.1)]
        rfl
    · rw [checkedAdd, if_neg machine, if_neg (fun fits => machine fits.2)]
      rfl
  · have overflows : (checkedAdd (layout.outerLength.length + 1 + layout.trailing.length)
        layout.atCommunity.offset).bind (checkedAdd · (layout.communityLength.length + 1)) =
        none := by
      rw [Option.bind_eq_none_iff]
      intro total added
      obtain ⟨-, rfl⟩ := checkedAdd_eq_some.mp added
      rw [start.symm] at placed
      exact if_neg placed
    rw [overflows, if_pos (Nat.not_le.mp placed)]
    rfl

theorem Walkable.sanitize_eq_ok (walkable : layout.Walkable) (sanitized : Bytes) :
    sanitizeV2cMessage layout.bytes = .ok sanitized ↔
      layout.MaskFits ∧ sanitized = layout.displaced := by
  rw [walkable.sanitize_eq]
  by_cases fits : layout.MaskFits
  · have placed : ¬usizeMax < layout.maskStart :=
      Nat.not_lt.mpr (Nat.le_trans (Nat.le_add_right _ _) fits.2)
    simp [fits, placed, eq_comm]
  · by_cases placed : usizeMax < layout.maskStart <;> simp [fits, placed, fail, panics]

/-- The mask starts inside the message, so that its start is computed without an overflow. -/
theorem Walkable.noPanic_sanitize (walkable : layout.Walkable)
    (machine : layout.bytes.length ≤ usizeMax) : NoPanic (sanitizeV2cMessage layout.bytes) := by
  have placed : ¬usizeMax < layout.maskStart := by
    rw [bytes_eq] at machine
    simp only [maskStart, behind, List.length_append] at machine ⊢
    omega
  rw [walkable.sanitize_eq, if_neg placed]
  split
  · exact noPanic_ok _
  · exact noPanic_fail _

end Layout

/-! ## Evidence -/

/-- A message is accepted exactly along a layout whose version and PDU are accepted
and whose mask fits; the community octets are not looked at. -/
theorem decodeResponse_eq_ok (sha256 : Sha256) (bytes : Bytes) (expectedRequestId : Int32)
    (limits : DecodeLimits) (response : Response) :
    decodeResponse sha256 bytes expectedRequestId limits = .ok response ↔
      bytes.length ≤ limits.maximumMessageBytes ∧
        ∃ (layout : Layout) (pdu : Pdu), layout.Walkable ∧ layout.bytes = bytes ∧
          layout.MaskFits ∧
          decodePdu expectedRequestId limits (Cursor.new layout.pdu) = .ok pdu ∧
          response = pdu.response sha256 bytes.length layout.displaced := by
  unfold decodeResponse
  constructor
  · intro accepted
    split at accepted
    · cases accepted
    · rename_i within
      simp only [except_bind_eq_ok, Prod.exists] at accepted
      rcases accepted with ⟨outer, after, opened, version, versioned, versionRead, accepted⟩
      split at accepted
      · cases accepted
      · rename_i isOne
        rw [not_not.mp isOne] at versionRead
        simp only [except_bind_eq_ok, Prod.exists, except_pure_eq_ok] at accepted
        rcases accepted with ⟨community, located, secret, inner, last, nested, _, finished,
          pdu, decoded, sanitized, masked, rfl⟩
        rcases exists_walkable opened versionRead secret nested finished with
          ⟨layout, walkable, rfl, rfl⟩
        rcases (walkable.sanitize_eq_ok sanitized).mp masked with ⟨fits, rfl⟩
        exact ⟨Nat.le_of_not_lt within, layout, pdu, walkable, rfl, fits, decoded, rfl⟩
  · rintro ⟨within, layout, pdu, walkable, rfl, fits, decoded, rfl⟩
    rw [if_neg (Nat.not_lt.mpr within)]
    simp only [walkable.outer_read, walkable.version_read, walkable.community_read,
      walkable.pdu_read, layout.atEnd_finish, decoded,
      (walkable.sanitize_eq_ok layout.displaced).mpr ⟨fits, rfl⟩, except_bind_eq_ok,
      Except.ok.injEq, exists_eq_left', ne_eq, not_true_eq_false, if_false,
      except_pure_eq_ok]
    exact ⟨⟨⟩, trivial, trivial⟩

namespace Layout

variable {layout : Layout}

/-- The mask covers the community when nothing follows the outer element. -/
theorem displaced_of_trailing (none : layout.trailing = []) :
    layout.displaced = layout.masked.bytes := by
  have start : layout.maskStart = layout.before.length := by simp [maskStart, none]
  unfold displaced
  rw [start, masked, bytes_eq, bytes_eq, before_withCommunity, behind_withCommunity,
    ← List.length_append, List.drop_left, List.append_assoc layout.before,
    List.take_left]
  rfl

theorem displaced_of_community (none : layout.community = []) :
    layout.displaced = layout.masked.bytes := by
  have same : layout.masked = layout := by
    cases layout
    cases none
    rfl
  rw [same]
  simp [displaced, none]

/-- With octets behind the outer element the first community octet is kept. -/
theorem first_of_displaced {first : UInt8} {rest : Bytes} (followed : layout.trailing ≠ [])
    (community : layout.community = first :: rest) :
    layout.displaced[layout.before.length]? = some first := by
  have length : 0 < layout.trailing.length := List.length_pos_iff.mpr followed
  have inside : layout.before.length < layout.maskStart := by
    unfold maskStart
    omega
  have here : layout.bytes[layout.before.length]? = some first := by
    rw [bytes_eq, community, List.append_assoc, List.getElem?_append_right (Nat.le_refl _)]
    simp
  have bound : layout.before.length < (layout.bytes.take layout.maskStart).length := by
    have found := (List.getElem?_eq_some_iff.mp here).1
    simp only [List.length_take]
    omega
  rw [displaced, List.append_assoc, List.getElem?_append_left bound, List.getElem?_take,
    if_pos inside]
  exact here

theorem masked_withCommunity {community : Bytes}
    (same : community.length = layout.community.length) :
    (layout.withCommunity community).masked = layout.masked := by
  simp [masked, withCommunity, same]

theorem MaskFits.withCommunity {community : Bytes} (fits : layout.MaskFits)
    (same : community.length = layout.community.length) :
    (layout.withCommunity community).MaskFits := by
  unfold MaskFits at fits ⊢
  rw [bytes_eq] at fits ⊢
  simp only [maskStart, List.length_append, before_withCommunity,
    behind_withCommunity] at fits ⊢
  simp only [Layout.withCommunity, same]
  exact fits

end Layout

/-- The evidence of a response to a message laid out as `layout` hides its community:
the sanitized bytes are the message with exactly the community octets masked, and no
other community of the same length gives other evidence. -/
def EvidenceHidesCommunity (sha256 : Sha256) (expectedRequestId : Int32)
    (limits : DecodeLimits) (layout : Layout) (response : Response) : Prop :=
  response.evidence.sanitizedBytes = some layout.masked.bytes ∧
    ∀ (community : Bytes) (other : Response),
      community.length = layout.community.length →
      decodeResponse sha256 (layout.withCommunity community).bytes expectedRequestId limits =
        .ok other →
      other.evidence.sanitizedBytes = response.evidence.sanitizedBytes ∧
        other.evidence.credentialElidedHash = response.evidence.credentialElidedHash

section

variable {sha256 : Sha256} {expectedRequestId : Int32} {limits : DecodeLimits}
variable {layout : Layout} {response : Response}

/-- Along a given layout the evidence is the displaced mask. -/
theorem evidence_of_accepted (delimited : layout.Delimited)
    (accepted : decodeResponse sha256 layout.bytes expectedRequestId limits = .ok response) :
    response.evidence.sanitizedBytes = some layout.displaced ∧
      response.evidence.credentialElidedHash = sha256 (evidenceInput layout.displaced) := by
  rcases (decodeResponse_eq_ok _ _ _ _ _).mp accepted with
    ⟨-, other, pdu, walkable, same, -, -, rfl⟩
  rw [walkable.delimited.unique delimited same]
  exact ⟨rfl, rfl⟩

/-- Whatever the community, a message of the same lengths is accepted too. -/
theorem accepted_withCommunity {community : Bytes} (delimited : layout.Delimited)
    (same : community.length = layout.community.length)
    (accepted : decodeResponse sha256 layout.bytes expectedRequestId limits = .ok response) :
    ∃ other, decodeResponse sha256 (layout.withCommunity community).bytes
      expectedRequestId limits = .ok other := by
  rcases (decodeResponse_eq_ok _ _ _ _ _).mp accepted with
    ⟨within, found, pdu, walkable, equal, fits, decoded, rfl⟩
  cases walkable.delimited.unique delimited equal
  refine ⟨_, (decodeResponse_eq_ok _ _ _ _ _).mpr ⟨?_, layout.withCommunity community, pdu,
    walkable.withCommunity same, rfl, fits.withCommunity same, decoded, rfl⟩⟩
  rw [Layout.bytes_eq] at within ⊢
  simp only [List.length_append, Layout.withCommunity, same] at within ⊢
  exact within

/-- A mask at its place hides the community. -/
theorem hides_of_displaced (delimited : layout.Delimited)
    (accepted : decodeResponse sha256 layout.bytes expectedRequestId limits = .ok response)
    (placed : ∀ community, community.length = layout.community.length →
      (layout.withCommunity community).displaced = layout.masked.bytes) :
    EvidenceHidesCommunity sha256 expectedRequestId limits layout response := by
  have own : layout.displaced = layout.masked.bytes := placed layout.community rfl
  rcases evidence_of_accepted delimited accepted with ⟨sanitized, hash⟩
  refine ⟨own ▸ sanitized, ?_⟩
  intro community other same accepted
  rcases evidence_of_accepted (delimited.withCommunity same) accepted with ⟨resanitized, rehash⟩
  have equal : (layout.withCommunity community).displaced = layout.displaced :=
    (placed community same).trans own.symm
  rw [resanitized, sanitized, rehash, hash, equal]
  exact ⟨rfl, rfl⟩

/-- Octets behind the outer element displace the mask, and the first community octet
then reaches the evidence. -/
theorem not_hides_of_trailing (delimited : layout.Delimited)
    (accepted : decodeResponse sha256 layout.bytes expectedRequestId limits = .ok response)
    (followed : layout.trailing ≠ []) (secret : layout.community ≠ []) :
    ¬EvidenceHidesCommunity sha256 expectedRequestId limits layout response := by
  rintro ⟨-, hidden⟩
  obtain ⟨first, rest, community⟩ := List.exists_cons_of_ne_nil secret
  have length : ((first + 1) :: rest).length = layout.community.length := by simp [community]
  obtain ⟨other, reaccepted⟩ := accepted_withCommunity delimited length accepted
  have equal := (hidden _ other length reaccepted).1
  rw [(evidence_of_accepted delimited accepted).1,
    (evidence_of_accepted (delimited.withCommunity length) reaccepted).1] at equal
  have kept := Layout.first_of_displaced followed community
  have changed : (layout.withCommunity ((first + 1) :: rest)).displaced[layout.before.length]? =
      some (first + 1) :=
    @Layout.first_of_displaced (layout.withCommunity ((first + 1) :: rest)) _ _ followed rfl
  rw [Option.some.inj equal, kept] at changed
  simp at changed

end

/-- The evidence of an accepted response hides the community string exactly when the
message ends with its outer element or the community string is empty. -/
theorem decodeResponse_hides_iff (sha256 : Sha256) (bytes : Bytes) (expectedRequestId : Int32)
    (limits : DecodeLimits) (response : Response)
    (accepted : decodeResponse sha256 bytes expectedRequestId limits = .ok response) :
    ∃ layout : Layout, layout.Delimited ∧ layout.bytes = bytes ∧
      (∀ other : Layout, other.Delimited → other.bytes = bytes → other = layout) ∧
      (EvidenceHidesCommunity sha256 expectedRequestId limits layout response ↔
        layout.trailing = [] ∨ layout.community = []) := by
  rcases (decodeResponse_eq_ok _ _ _ _ _).mp accepted with ⟨-, layout, -, walkable, rfl, -⟩
  have delimited := walkable.delimited
  refine ⟨layout, delimited, rfl, fun other redelimited same =>
    redelimited.unique delimited same, ?_, ?_⟩
  · intro hides
    by_contra exposed
    rw [not_or] at exposed
    exact not_hides_of_trailing delimited accepted exposed.1 exposed.2 hides
  · intro placed
    apply hides_of_displaced delimited accepted
    intro community same
    rw [← Layout.masked_withCommunity same]
    rcases placed with none | none
    · exact Layout.displaced_of_trailing none
    · apply Layout.displaced_of_community
      rw [none] at same
      exact List.eq_nil_of_length_eq_zero same

/-- A response to request 42 that reports a null value for one object. -/
def sampleLayout (community trailing : Bytes) : Layout where
  outerLength := [27]
  versionLength := [1]
  version := [1]
  communityLength := [2]
  community
  pduLength := [18]
  pdu := [2, 1, 42, 2, 1, 0, 2, 1, 0, 0x30, 7, 0x30, 5, 6, 1, 0x2b, 5, 0]
  trailing

/-- The SHA-256 digests of the evidence of the sample messages. -/
def sampleSha256 : Sha256 := fun input =>
  if input = evidenceInput (sampleLayout [0x61, 0x62] [0]).displaced then
    ⟨[0xf0, 0x8b, 0x57, 0x11, 0xd0, 0xee, 0xe5, 0x29, 0x6d, 0x47, 0x52,
      0xff, 0xc8, 0x9c, 0xc9, 0xc5, 0xd7, 0x18, 0xad, 0xbc, 0xfa, 0x63,
      0x7f, 0xa4, 0x2e, 0x23, 0x60, 0x51, 0x60, 0x50, 0xba, 0x41], rfl⟩
  else if input = evidenceInput (sampleLayout [0x63, 0x62] [0]).displaced then
    ⟨[0xf4, 0x16, 0xe9, 0xd9, 0x2a, 0x53, 0x77, 0x0a, 0xff, 0x5e, 0x1a,
      0xde, 0x42, 0x20, 0x4c, 0x07, 0x31, 0x13, 0xbc, 0xa3, 0x07, 0x91,
      0x1f, 0x2b, 0x7b, 0x2b, 0xff, 0xed, 0x3f, 0xc7, 0xd9, 0x1c], rfl⟩
  else
    ⟨[0xcf, 0x19, 0x23, 0x6e, 0xd3, 0xcc, 0x8b, 0x40, 0x74, 0x06, 0x68,
      0xd7, 0x33, 0x15, 0xc5, 0x8c, 0x57, 0x91, 0xa5, 0x09, 0x66, 0xaf,
      0x7c, 0x00, 0x11, 0xe9, 0xaf, 0xcd, 0x60, 0x98, 0xf3, 0x5f], rfl⟩

theorem decodeResponse_hides_sample :
    ∃ response,
      decodeResponse sampleSha256 (sampleLayout [0x61, 0x62] []).bytes 42 .default =
        .ok response ∧
      ∃ layout : Layout, layout.Delimited ∧
        layout.bytes = (sampleLayout [0x61, 0x62] []).bytes ∧
        (∀ other : Layout, other.Delimited →
          other.bytes = (sampleLayout [0x61, 0x62] []).bytes → other = layout) ∧
        (EvidenceHidesCommunity sampleSha256 42 .default layout response ↔
          layout.trailing = [] ∨ layout.community = []) := by
  have accepted : (decodeResponse sampleSha256 (sampleLayout [0x61, 0x62] []).bytes 42
      .default).isOk = true := by decide +kernel
  cases decoded : decodeResponse sampleSha256 (sampleLayout [0x61, 0x62] []).bytes 42
      .default with
  | error fault =>
      rw [decoded] at accepted
      cases accepted
  | ok response =>
      exact ⟨response, rfl, decodeResponse_hides_iff _ _ _ _ _ decoded⟩

/-- One octet behind the outer element: two communities give different evidence. -/
theorem trailing_octet_exposes_community :
    ((decodeResponse sampleSha256 (sampleLayout [0x61, 0x62] [0]).bytes 42 .default).map
        (·.evidence.sanitizedBytes) =
      .ok (some [0x30, 27, 2, 1, 1, 4, 2, 0x61, 0x2a, 0x2a, 18, 2, 1, 42, 2, 1, 0, 2, 1, 0,
        0x30, 7, 0x30, 5, 6, 1, 0x2b, 5, 0, 0])) ∧
    ((decodeResponse sampleSha256 (sampleLayout [0x63, 0x62] [0]).bytes 42 .default).map
        (·.evidence.sanitizedBytes) =
      .ok (some [0x30, 27, 2, 1, 1, 4, 2, 0x63, 0x2a, 0x2a, 18, 2, 1, 42, 2, 1, 0, 2, 1, 0,
        0x30, 7, 0x30, 5, 6, 1, 0x2b, 5, 0, 0])) := by
  constructor
  · decide +kernel
  · decide +kernel

/-! ## No panic -/

/-- `decode_response` returns a response or an error on every input that a machine can
address: no index, slice, difference or sum fails. -/
theorem noPanic_decodeResponse (sha256 : Sha256) (bytes : Bytes) (expectedRequestId : Int32)
    (limits : DecodeLimits) (machine : bytes.length ≤ usizeMax) :
    NoPanic (decodeResponse sha256 bytes expectedRequestId limits) := by
  unfold decodeResponse
  split
  · exact noPanic_fail _
  · apply NoPanic.bind (@Cursor.noPanic_nested (Cursor.new bytes) 0x30 machine)
    rintro ⟨outer, after⟩ opened
    have within : outer.bytes.length ≤ usizeMax :=
      Nat.le_trans (Cursor.bytes_of_nested opened).1 machine
    apply NoPanic.bind (Cursor.noPanic_integer within)
    rintro ⟨version, versioned⟩ versionRead
    dsimp only
    split
    · exact noPanic_fail _
    · rename_i isOne
      rw [not_not.mp isOne] at versionRead
      rw [← Cursor.bytes_of_integer versionRead] at within
      apply NoPanic.bind (Cursor.noPanic_value _ _ within)
      rintro ⟨community, located⟩ secret
      rw [← Cursor.bytes_of_value secret] at within
      apply NoPanic.bind (Cursor.noPanic_nested _ within)
      rintro ⟨inner, last⟩ nested
      have small := Nat.le_trans (Cursor.bytes_of_nested nested).1 within
      rcases (Cursor.nested_eq_ok _ _).mp nested with ⟨content, read, _⟩
      apply NoPanic.bind (Cursor.noPanic_finish (Cursor.advanced_of_value read).1)
      rintro ⟨⟩ finished
      apply NoPanic.bind (noPanic_decodePdu _ _ small)
      rintro pdu -
      rcases exists_walkable opened versionRead secret nested finished with
        ⟨layout, walkable, rfl, -⟩
      apply NoPanic.bind (walkable.noPanic_sanitize machine)
      rintro sanitized -
      exact noPanic_pure _

theorem noPanic_decodeResponse_trailing :
    (sampleLayout [0x61, 0x62] [0, 0]).bytes.length ≤ usizeMax ∧
      NoPanic (decodeResponse sampleSha256 (sampleLayout [0x61, 0x62] [0, 0]).bytes 42 .default) :=
  ⟨by decide, noPanic_decodeResponse _ _ _ _ (by decide)⟩

end PrinterSdk.Snmp
