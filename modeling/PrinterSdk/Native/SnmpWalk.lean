import PrinterSdk.Data.Machine
import PrinterSdk.Interaction.Program
import PrinterSdk.Snmp.ObjectId
import Mathlib.Order.Lattice

/-!
# Walks over an agent's objects

`SnmpClient::walk` asks an agent for the object behind the last one it was told of, until the
agent leaves the root or ends its view.  The agent answers as it likes: the replies are those
of the environment.  What the walk does with one reply is `walkStep`, and its whole runs
follow from what a step that goes on says of the reply.

The client library is outside the repository.  Its object identifiers are their arcs, and
which of them it refuses is a parameter.
-/

namespace PrinterSdk.Native.SnmpWalk

open PrinterSdk.Data PrinterSdk.Interaction PrinterSdk.Snmp

/-! ## Limits and errors -/

/-- `ClientLimits`, with the timeout in nanoseconds. -/
structure ClientLimits where
  timeout : Nat
  retries : Nat
  maximumResponseBytes : Nat
  maximumWalkSteps : Nat
  maximumOidsPerRequest : Nat
  decode : DecodeLimits

/-- `ClientLimits::default`. -/
def ClientLimits.default : ClientLimits where
  timeout := 2 * 10 ^ 9
  retries := 1
  maximumResponseBytes := 65507
  maximumWalkSteps := 128
  maximumOidsPerRequest := 16
  decode := .default

/-- `ClientError`. -/
inductive ClientError where
  | invalidLimits
  | unregisteredObject
  | timeout
  | responseTooLarge
  | protocol (error : SnmpError)
  | agent
  | walkLimit
  | transport
  | ambiguousWrite
  deriving DecidableEq, Repr

/-- `ClientLimits::validate`. -/
def ClientLimits.validate (limits : ClientLimits) : Except ClientError ClientLimits :=
  if limits.timeout = 0 ∨ 300 * 10 ^ 9 < limits.timeout ∨ 5 < limits.retries ∨
      limits.maximumResponseBytes < 484 ∨ 65507 < limits.maximumResponseBytes ∨
      limits.decode.maximumMessageBytes < limits.maximumResponseBytes ∨
      limits.maximumWalkSteps = 0 ∨ 4096 < limits.maximumWalkSteps ∨
      limits.maximumOidsPerRequest = 0 ∨
      limits.decode.maximumVarbinds < limits.maximumOidsPerRequest then
    .error .invalidLimits
  else
    .ok limits

/-! ## The client library -/

/-- The kinds of `async_snmp::Error` that are told apart. -/
inductive ErrorKind where
  | timeout
  | constructionTimeout
  | outboundMessageTooLarge
  | snmp
  | auth
  | report
  | decode
  | malformedResponse
  | responseShape
  | invalidMessage
  | invalidOid
  | other
  deriving DecidableEq, Repr

/-- `map_read_error`. -/
def mapReadError : ErrorKind → ClientError
  | .timeout | .constructionTimeout => .timeout
  | .outboundMessageTooLarge => .responseTooLarge
  | .snmp | .auth | .report => .agent
  | .decode | .malformedResponse | .responseShape | .invalidMessage | .invalidOid =>
      .protocol .malformed
  | .other => .transport

/-- `async_snmp::Value`, which may get more variants. -/
inductive WireValue where
  | integer (value : Int32)
  | octetString (value : Bytes)
  | null
  | objectIdentifier (value : ObjectId)
  | ipAddress (value : { bytes : Bytes // bytes.length = 4 })
  | counter32 (value : UInt32)
  | gauge32 (value : UInt32)
  | uinteger32 (value : UInt32)
  | timeTicks (value : UInt32)
  | opaqueBytes (value : Bytes)
  | nsap (value : Bytes)
  | counter64 (value : UInt64)
  | noSuchObject
  | noSuchInstance
  | endOfMibView
  | unknown (tag : UInt8) (data : Bytes)
  | other
  deriving DecidableEq, Repr

/-- `async_snmp::VarBind`. -/
structure WireVarBind where
  oid : ObjectId
  value : WireValue
  deriving DecidableEq, Repr

/-- The values that `from_wire_varbind` converts. -/
def fromWireValue : WireValue → Option ObjectValue
  | .integer value => some (.integer value.toInt64)
  | .octetString value => some (.bytes value)
  | .null => some .null
  | .objectIdentifier value => some (.objectId value)
  | .ipAddress value => some (.ipAddress value)
  | .counter32 value => some (.counter32 value)
  | .gauge32 value => some (.gauge32 value)
  | .uinteger32 value => some (.unsigned32 value)
  | .timeTicks value => some (.timeTicks value)
  | .opaqueBytes value => some (.opaqueBytes value)
  | .nsap value => some (.nsap value)
  | .counter64 value => some (.counter64 value)
  | .noSuchObject => some .noSuchObject
  | .noSuchInstance => some .noSuchInstance
  | .endOfMibView => some .endOfMibView
  | .unknown tag data => some (.unknown tag data)
  | .other => none

/-- `from_wire_varbind`. -/
def fromWireVarbind (binding : WireVarBind) : Except ClientError VarBind :=
  match fromWireValue binding.value with
  | some value => .ok ⟨binding.oid, value⟩
  | none => .error (.protocol .malformed)

/-- `to_wire_oid`. -/
def toWireOid (valid : ObjectId → Bool) (oid : ObjectId) : Except ClientError ObjectId :=
  if valid oid then .ok oid else .error (.protocol .invalidOid)

/-- What comes of a GETNEXT request: the deadline passes, the request fails, or there is a
response, with one binding or with another number of them. -/
inductive GetNextReply where
  | deadline
  | failed (kind : ErrorKind)
  | several
  | single (binding : WireVarBind)
  deriving DecidableEq, Repr

/-- The errors of a request, and `into_single`. -/
def GetNextReply.intoSingle : GetNextReply → Except ClientError WireVarBind
  | .deadline => .error .timeout
  | .failed kind => .error (mapReadError kind)
  | .several => .error (.protocol .malformed)
  | .single binding => .ok binding

/-- The operations of a walk. -/
inductive Op where
  | buildClient
  | getNext (current : ObjectId)
  deriving DecidableEq, Repr

/-- The operations of a walk with what they report. -/
abbrev operations : Signature where
  Op := Op
  Reply := fun
    | .buildClient => Except ClientError Unit
    | .getNext _ => GetNextReply

/-! ## Limits on what is kept -/

/-- `usize::saturating_mul`. -/
def saturatingMul (left right : Nat) : Nat := min (left * right) usizeMax

/-- The bytes that `enforce_decoded_limits` counts for a value. -/
def valueBytes : ObjectValue → Nat
  | .bytes value | .opaqueBytes value | .nsap value | .unknown _ value => value.length
  | .objectId value => saturatingMul value.arcs.length 5
  | _ => 8

/-- The loop of `enforce_decoded_limits`, with the bytes counted so far. -/
def estimateBytes (limits : ClientLimits) : Nat → List VarBind → Except ClientError Nat
  | estimated, [] => .ok estimated
  | estimated, binding :: rest =>
      if limits.decode.maximumValueBytes < valueBytes binding.value then
        .error .responseTooLarge
      else
        let estimated := saturatingAdd estimated (saturatingMul binding.oid.arcs.length 5)
        let estimated := saturatingAdd estimated (valueBytes binding.value)
        estimateBytes limits (saturatingAdd estimated 16) rest

/-- `enforce_decoded_limits`. -/
def enforceDecodedLimits (varbinds : List VarBind) (limits : ClientLimits) :
    Except ClientError Unit := do
  refuseIf (limits.decode.maximumVarbinds < varbinds.length) .responseTooLarge
  let estimated ← estimateBytes limits 64 varbinds
  refuseIf (limits.maximumResponseBytes < estimated) .responseTooLarge

/-! ## The walk -/

/-- How one turn of the loop ends when it does not fail. -/
inductive Turn where
  | finished
  | goesOn (current : ObjectId) (output : List VarBind)
  deriving DecidableEq, Repr

section

variable (valid : ObjectId → Bool) (registry : ObjectRegistry) (root : ObjectId)
  (limits : ClientLimits)

/-- The body of the loop of `SnmpClient::walk` behind a request. -/
def walkStep (current : ObjectId) (output : List VarBind) (reply : GetNextReply) :
    Except ClientError Turn := do
  let binding ← reply.intoSingle
  let converted ← fromWireVarbind binding
  if ¬converted.oid.isWithin root ∨ converted.value = .endOfMibView then
    return .finished
  else
    refuseIf (converted.oid ≤ current) (.protocol .malformed)
    let current ← toWireOid valid converted.oid
    if (registry.get converted.oid).isSome then
      let output := output ++ [converted]
      enforceDecodedLimits output limits
      return .goesOn current output
    else
      return .goesOn current output

/-- The loop of `SnmpClient::walk`. -/
def walkLoop : Nat → ObjectId → List VarBind →
    Program operations (Except ClientError (List VarBind))
  | 0, _, _ => .done (.error .walkLimit)
  | steps + 1, current, output =>
      @Program.ask operations _ (.getNext current) fun reply =>
        match walkStep valid registry root limits current output reply with
        | .error error => .done (.error error)
        | .ok .finished => .done (.ok output)
        | .ok (.goesOn current output) => walkLoop steps current output

/-- `SnmpClient::walk`. -/
def walk : Program operations (Except ClientError (List VarBind)) :=
  match limits.validate with
  | .error error => .done (.error error)
  | .ok limits =>
      if !registry.permitsRoot root then
        .done (.error .unregisteredObject)
      else
        @Program.ask operations _ .buildClient fun built =>
          match built with
          | .error error => .done (.error error)
          | .ok () =>
              match toWireOid valid root with
              | .error error => .done (.error error)
              | .ok current =>
                  walkLoop valid registry root limits limits.maximumWalkSteps current []

end

/-! ## What a run has received -/

/-- The binding that a reply carries. -/
def GetNextReply.received (reply : GetNextReply) : Option VarBind :=
  (reply.intoSingle.bind fromWireVarbind).toOption

/-- The bindings that the replies of a run carry, in order. -/
def received (trace : List (Event operations)) : List VarBind :=
  trace.filterMap fun
    | ⟨.buildClient, _⟩ => none
    | ⟨.getNext _, reply⟩ => reply.received

/-- How many GETNEXT requests a run has sent, the one it waits for included. -/
def requests (trace : List (Event operations))
    (residual : Program operations (Except ClientError (List VarBind))) : Nat :=
  (trace.map Event.op ++ residual.pending.toList).countP fun op => op ≠ .buildClient

/-- The identifier that the agent gave last. -/
def previous (current : ObjectId) (bindings : List VarBind) : ObjectId :=
  (bindings.map VarBind.oid).getLastD current

/-- The binding lies in the root, and the agent has not come to the end of its view. -/
def Inside (root : ObjectId) (binding : VarBind) : Prop :=
  binding.oid.isWithin root = true ∧ binding.value ≠ .endOfMibView

/-- The identifiers increase from the first one on. -/
def Increasing (current : ObjectId) (bindings : List VarBind) : Prop :=
  (current :: bindings.map VarBind.oid).IsChain (· < ·)

section

variable {valid : ObjectId → Bool} {registry : ObjectRegistry} {root : ObjectId}
  {limits : ClientLimits} {current : ObjectId} {output : List VarBind} {reply : GetNextReply}

/-- The bindings that are registered. -/
def registered (registry : ObjectRegistry) (bindings : List VarBind) : List VarBind :=
  bindings.filter fun binding => (registry.get binding.oid).isSome

/-- A turn that does not fail has received a binding, which ends the walk unless it lies inside
the root; then its identifier is larger, and it is kept when it is registered. -/
theorem walkStep_eq_ok {turn : Turn}
    (stepped : walkStep valid registry root limits current output reply = .ok turn) :
    ∃ binding, reply.received = some binding ∧
      ((¬Inside root binding ∧ turn = .finished) ∨
        (Inside root binding ∧ current < binding.oid ∧
          turn = .goesOn binding.oid (output ++ registered registry [binding]))) := by
  obtain ⟨wire, single, stepped⟩ := (except_bind_eq_ok _ _ _).mp stepped
  obtain ⟨binding, converted, stepped⟩ := (except_bind_eq_ok _ _ _).mp stepped
  refine ⟨binding, ?_, ?_⟩
  · rw [GetNextReply.received, single]
    change (fromWireVarbind wire).toOption = _
    rw [converted]
    rfl
  · by_cases leaves : ¬binding.oid.isWithin root ∨ binding.value = .endOfMibView
    · rw [if_pos leaves] at stepped
      left
      constructor
      · rintro ⟨within, goes⟩
        cases leaves with
        | inl outside => exact outside within
        | inr ended => exact goes ended
      · exact ((except_pure_eq_ok _ _).mp stepped).symm
    · rw [if_neg leaves] at stepped
      obtain ⟨within, goes⟩ := not_or.mp leaves
      obtain ⟨_, larger, stepped⟩ := (except_bind_eq_ok _ _ _).mp stepped
      obtain ⟨next, wired, stepped⟩ := (except_bind_eq_ok _ _ _).mp stepped
      have same : binding.oid = next := by
        rw [toWireOid] at wired
        split at wired
        · exact Except.ok.inj wired
        · cases wired
      right
      refine ⟨⟨not_not.mp within, goes⟩, not_le.mp ((refuseIf_eq_ok _ _ _).mp larger), ?_⟩
      rw [registered, List.filter_cons, List.filter_nil, same]
      rw [same] at stepped
      by_cases known : (registry.get next).isSome = true
      · rw [if_pos known] at stepped ⊢
        obtain ⟨_, _, stepped⟩ := (except_bind_eq_ok _ _ _).mp stepped
        exact ((except_pure_eq_ok _ _).mp stepped).symm
      · rw [if_neg known] at stepped ⊢
        rw [List.append_nil]
        exact ((except_pure_eq_ok _ _).mp stepped).symm

/-- A converted binding has its identifier, and ends the view only if it did so before. -/
theorem received_single {wire : WireVarBind} {binding : VarBind}
    (carried : (GetNextReply.single wire).received = some binding) :
    binding.oid = wire.oid ∧ (binding.value = .endOfMibView → wire.value = .endOfMibView) := by
  change (fromWireVarbind wire).toOption = some binding at carried
  rw [fromWireVarbind] at carried
  cases converted : fromWireValue wire.value with
  | none =>
      rw [converted] at carried
      cases carried
  | some value =>
      rw [converted] at carried
      cases carried
      refine ⟨rfl, ?_⟩
      intro ended
      change value = .endOfMibView at ended
      rw [ended] at converted
      revert converted
      cases wire.value <;> intro converted <;> first | rfl | cases converted

/-! ## Runs of the loop -/

variable {steps : Nat} {trace : List (Event operations)}
  {residual : Program operations (Except ClientError (List VarBind))}

/-- The loop waits for a reply, or it has one that makes it fail, ends it or lets it go on. -/
theorem loop_cases
    (reached : Program.After (walkLoop valid registry root limits (steps + 1) current output) trace
      residual) :
    (trace = [] ∧ residual.pending = some (.getNext current)) ∨
    ∃ reply rest, trace = ⟨.getNext current, reply⟩ :: rest ∧
      ((∃ error, rest = [] ∧ residual = .done (.error error)) ∨
      (∃ binding, GetNextReply.received reply = some binding ∧ ¬Inside root binding ∧ rest = [] ∧
        residual = .done (.ok output)) ∨
      ∃ binding, GetNextReply.received reply = some binding ∧ Inside root binding ∧
        current < binding.oid ∧
        Program.After (walkLoop valid registry root limits steps binding.oid
          (output ++ registered registry [binding])) rest residual) := by
  cases reached with
  | refl => exact .inl ⟨rfl, rfl⟩
  | step reply reached =>
      right
      refine ⟨reply, _, rfl, ?_⟩
      cases stepped : walkStep valid registry root limits current output reply with
      | error error =>
          simp only [stepped] at reached
          cases reached
          exact .inl ⟨error, rfl, rfl⟩
      | ok turn =>
          right
          obtain ⟨binding, carried, ended | goes⟩ := walkStep_eq_ok stepped
          · obtain ⟨outside, rfl⟩ := ended
            simp only [stepped] at reached
            cases reached
            exact .inl ⟨binding, carried, outside, rfl, rfl⟩
          · obtain ⟨inside, larger, rfl⟩ := goes
            simp only [stepped] at reached
            exact .inr ⟨binding, carried, inside, larger, reached⟩

theorem requests_cons (asked : ObjectId) (reply : GetNextReply) :
    requests (⟨.getNext asked, reply⟩ :: trace) residual = requests trace residual + 1 := by
  rw [requests, List.map_cons, List.cons_append, List.countP_cons]
  rfl

theorem received_cons {asked : ObjectId} {binding : VarBind}
    (carried : reply.received = some binding) :
    received (⟨.getNext asked, reply⟩ :: trace) = binding :: received trace :=
  List.filterMap_cons_some carried

theorem previous_cons (binding : VarBind) (bindings : List VarBind) :
    previous current (binding :: bindings) = previous binding.oid bindings := by
  rw [previous, List.map_cons, List.getLastD_cons]
  rfl

/-- The loop asks once a turn. -/
theorem loop_requests
    (reached : Program.After (walkLoop valid registry root limits steps current output) trace
      residual) : requests trace residual ≤ steps := by
  induction steps generalizing current output trace with
  | zero =>
      cases reached
      exact Nat.le_refl 0
  | succ steps ih =>
      rcases loop_cases reached with ⟨rfl, waiting⟩ | ⟨reply, rest, rfl, turned⟩
      · rw [requests, waiting]
        exact Nat.succ_le_succ (Nat.zero_le steps)
      · rw [requests_cons]
        apply Nat.succ_le_succ
        rcases turned with ⟨_, rfl, rfl⟩ | ⟨_, _, _, rfl, rfl⟩ | ⟨_, _, _, _, reached⟩
        · exact Nat.zero_le steps
        · exact Nat.zero_le steps
        · exact ih reached

/-- A loop that returns has received bindings of increasing identifiers inside the root and then
one that is not inside, and returns what it had with those that are registered. -/
theorem loop_returns {result : List VarBind}
    (reached : Program.After (walkLoop valid registry root limits steps current output) trace
      (.done (.ok result))) :
    ∃ earlier last, received trace = earlier ++ [last] ∧
      (∀ binding ∈ earlier, Inside root binding) ∧ ¬Inside root last ∧
      Increasing current earlier ∧ result = output ++ registered registry earlier ∧
      requests trace (.done (.ok result)) = earlier.length + 1 := by
  induction steps generalizing current output trace with
  | zero => cases reached
  | succ steps ih =>
      rcases loop_cases reached with ⟨_, waiting⟩ | ⟨reply, rest, rfl, turned⟩
      · cases waiting
      · rw [requests_cons]
        rcases turned with ⟨_, _, failed⟩ | ⟨last, carried, outside, rfl, same⟩ |
          ⟨binding, carried, inside, larger, reached⟩
        · cases failed
        · cases same
          rw [received_cons carried]
          refine ⟨[], last, rfl, ?_, outside, .singleton _, (List.append_nil _).symm, rfl⟩
          intro binding member
          cases member
        · obtain ⟨earlier, last, bindings, insides, outside, increasing, rfl, count⟩ := ih reached
          rw [received_cons carried, bindings, count]
          refine ⟨binding :: earlier, last, rfl, ?_, outside, .cons_cons larger increasing, ?_, rfl⟩
          · exact List.forall_mem_cons.mpr ⟨inside, insides⟩
          · rw [List.append_assoc, registered, registered, registered, ← List.filter_append]
            rfl

/-- The loop asks behind the identifier it was given last, and fails at a binding inside the root
that is not behind it. -/
theorem loop_answered {earlier : List (Event operations)} {asked : ObjectId} {wire : WireVarBind}
    (reached : Program.After (walkLoop valid registry root limits steps current output)
      (earlier ++ [⟨.getNext asked, .single wire⟩]) residual) :
    asked = previous current (received earlier) ∧
      (wire.oid.isWithin root = true → wire.value ≠ .endOfMibView →
        ¬previous current (received earlier) < wire.oid →
        ∃ error, residual = .done (.error error)) := by
  induction earlier generalizing current output steps with
  | nil =>
      cases steps with
      | zero => cases reached
      | succ steps =>
          rcases loop_cases reached with ⟨none, _⟩ | ⟨reply, rest, same, turned⟩
          · cases none
          · cases same
            refine ⟨rfl, ?_⟩
            intro within goes stays
            rcases turned with ⟨error, _, failed⟩ | ⟨binding, carried, outside, _⟩ |
              ⟨binding, carried, _, larger, _⟩
            · exact ⟨error, failed⟩
            · obtain ⟨same, ends⟩ := received_single carried
              rw [← same] at within
              exact absurd ⟨within, fun ended => goes (ends ended)⟩ outside
            · rw [(received_single carried).1] at larger
              exact absurd larger stays
  | cons event earlier ih =>
      cases steps with
      | zero => cases reached
      | succ steps =>
          rcases loop_cases reached with ⟨none, _⟩ | ⟨reply, rest, same, turned⟩
          · cases none
          · obtain ⟨rfl, tails⟩ := List.cons.inj same
            rcases turned with ⟨_, rfl, _⟩ | ⟨_, _, _, rfl, _⟩ |
              ⟨binding, carried, _, _, reached⟩
            · cases earlier <;> cases tails
            · cases earlier <;> cases tails
            · rw [← tails] at reached
              rw [received_cons carried, previous_cons]
              exact ih reached

/-! ## Runs of the walk -/

/-- A walk that has sent a request is in its loop, behind the building of the client. -/
theorem walk_cases
    (reached : Program.After (walk valid registry root limits) trace residual) :
    (requests trace residual = 0 ∧ ∀ output, residual ≠ .done (.ok output)) ∨
    ∃ built rest, trace = ⟨.buildClient, built⟩ :: rest ∧
      Program.After (walkLoop valid registry root limits limits.maximumWalkSteps root []) rest
        residual := by
  cases validated : limits.validate with
  | error error =>
      simp only [walk, validated] at reached
      cases reached
      exact .inl ⟨rfl, nofun⟩
  | ok checked =>
      have same : limits = checked := by
        rw [ClientLimits.validate] at validated
        split at validated
        · cases validated
        · exact Except.ok.inj validated
      simp only [walk, validated, ← same] at reached
      split at reached
      · cases reached
        exact .inl ⟨rfl, nofun⟩
      · cases reached with
        | refl => exact .inl ⟨rfl, nofun⟩
        | step built reached =>
            match built, reached with
            | .error error, reached =>
                cases reached
                exact .inl ⟨rfl, nofun⟩
            | .ok (), reached =>
                by_cases wired : valid root
                · right
                  refine ⟨.ok (), _, rfl, ?_⟩
                  simpa only [toWireOid, wired, ↓reduceIte] using reached
                · simp only [toWireOid, wired, Bool.false_eq_true, ↓reduceIte] at reached
                  cases reached
                  exact .inl ⟨rfl, nofun⟩

theorem requests_build {built : Except ClientError Unit} :
    requests (⟨.buildClient, built⟩ :: trace) residual = requests trace residual := by
  rw [requests, List.map_cons, List.cons_append, List.countP_cons]
  rfl

theorem requests_answered {earlier : List (Event operations)} {asked : ObjectId}
    {reply : GetNextReply} :
    0 < requests (earlier ++ [⟨.getNext asked, reply⟩]) residual := by
  rw [requests, List.countP_pos_iff]
  refine ⟨.getNext asked, ?_, rfl⟩
  simp

/-- Identifiers that increase from one on are ordered. -/
theorem Increasing.pairwise {bindings : List VarBind} (increasing : Increasing current bindings) :
    (bindings.map VarBind.oid).Pairwise (· < ·) :=
  (List.pairwise_cons.mp (List.isChain_iff_pairwise.mp increasing)).2

theorem pairwise_registered {bindings : List VarBind}
    (ordered : (bindings.map VarBind.oid).Pairwise (· < ·)) :
    ((registered registry bindings).map VarBind.oid).Pairwise (· < ·) :=
  ordered.sublist (List.filter_sublist.map VarBind.oid)

/-- Whatever the agent replies, a walk sends no more requests than its limit, and asks behind the
identifier it was given last; it fails at a reply inside the root that is not behind it; and what
it returns is increasing, inside the root, registered, and all that is registered of what the
agent gave before the first reply that leaves the root or ends the view. -/
theorem walk_safe
    (reached : Program.After (walk valid registry root limits) trace residual) :
    requests trace residual ≤ limits.maximumWalkSteps ∧
    (∀ earlier asked wire, trace = earlier ++ [⟨.getNext asked, .single wire⟩] →
      asked = previous root (received earlier) ∧
      (wire.oid.isWithin root = true → wire.value ≠ .endOfMibView →
        ¬previous root (received earlier) < wire.oid →
        ∃ error, residual = .done (.error error))) ∧
    ∀ output, residual = .done (.ok output) →
      (output.map VarBind.oid).Pairwise (· < ·) ∧ (output.map VarBind.oid).Nodup ∧
      (∀ binding ∈ output, binding.oid.isWithin root = true ∧
        (registry.get binding.oid).isSome = true) ∧
      ∃ before last, received trace = before ++ [last] ∧
        requests trace residual = before.length + 1 ∧
        (∀ binding ∈ before, Inside root binding) ∧ ¬Inside root last ∧
        output = registered registry before := by
  rcases walk_cases reached with ⟨none, fails⟩ | ⟨built, rest, rfl, looped⟩
  · refine ⟨none ▸ Nat.zero_le _, ?_, ?_⟩
    · rintro earlier asked wire rfl
      exact absurd none (Nat.ne_of_gt requests_answered)
    · intro output returned
      exact absurd returned (fails output)
  · rw [requests_build]
    refine ⟨loop_requests looped, ?_, ?_⟩
    · intro earlier asked wire same
      cases earlier with
      | nil => cases same
      | cons event earlier =>
          obtain ⟨rfl, rfl⟩ := List.cons.inj same
          have answered := loop_answered looped
          exact answered
    · rintro output rfl
      obtain ⟨before, last, bindings, insides, outside, increasing, kept, count⟩ :=
        loop_returns looped
      rw [List.nil_append] at kept
      have ordered : (output.map VarBind.oid).Pairwise (· < ·) := by
        rw [kept]
        exact pairwise_registered increasing.pairwise
      refine ⟨ordered, ordered.imp ne_of_lt, ?_, before, last, bindings, count, insides, outside,
        kept⟩
      intro binding member
      rw [kept, registered, List.mem_filter] at member
      exact ⟨(insides binding member.1).1, member.2⟩

end

/-- An agent that has the object `1.3` and then `2.5`. -/
def sampleAgent (_ : Unit) : (op : Op) → operations.Reply op × Unit
  | .buildClient => (.ok (), ())
  | .getNext ⟨[1]⟩ => (.single ⟨⟨[1, 3]⟩, .integer 7⟩, ())
  | .getNext _ => (.single ⟨⟨[2, 5]⟩, .null⟩, ())

theorem walk_safe_sample :
    ∃ trace, requests trace (.done (.ok [⟨⟨[1, 3]⟩, .integer 7⟩])) ≤ 128 ∧
      received trace = [⟨⟨[1, 3]⟩, .integer 7⟩, ⟨⟨[2, 5]⟩, .null⟩] := by
  have reached := Program.after_run sampleAgent ()
    (walk (fun _ => true) sampleRegistry ⟨[1]⟩ .default)
  have returned : ((walk (fun _ => true) sampleRegistry ⟨[1]⟩ .default).run sampleAgent ()).2 =
      .ok [⟨⟨[1, 3]⟩, .integer 7⟩] := by rfl
  rw [returned] at reached
  exact ⟨_, (walk_safe reached).1, by rfl⟩

end PrinterSdk.Native.SnmpWalk
