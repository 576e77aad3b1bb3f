import Mathlib.Algebra.Group.Pi.Basic
import Mathlib.Algebra.Order.Group.Nat
import Mathlib.Algebra.Order.Pi
import PrinterSdk.Data.BigEndian
import PrinterSdk.Data.Machine
import PrinterSdk.Data.Outcome

/-!
# IPP messages

The data model shared by the IPP encoder and decoder: messages, attribute
groups, recursively nested collections, value tags, resource limits and the
errors of both directions.
-/

namespace PrinterSdk.Ipp

open PrinterSdk.Data

def endOfAttributesTag : UInt8 := 0x03
def operationAttributesTag : UInt8 := 0x01
def printerAttributesTag : UInt8 := 0x04
def unsupportedAttributesTag : UInt8 := 0x05
def getPrinterAttributes : UInt16 := 0x000b
def getPrinterSupportedValues : UInt16 := 0x0015
def setPrinterAttributes : UInt16 := 0x0013

/-- `is_delimiter_tag`. -/
def isDelimiterTag (tag : UInt8) : Bool :=
  0x01 ≤ tag && tag ≤ 0x0f && tag != endOfAttributesTag

/-! ## Value tags -/

/-- `ValueTag`: a known syntax, or any other byte kept as an extension.  One byte
may have two representations, because `extension` does not exclude known
bytes. -/
inductive ValueTag where
  | unsupported
  | unknown
  | noValue
  | notSettable
  | deleteAttribute
  | adminDefine
  | integer
  | boolean
  | enum
  | octetString
  | dateTime
  | resolution
  | rangeOfInteger
  | begCollection
  | textWithLanguage
  | nameWithLanguage
  | endCollection
  | textWithoutLanguage
  | nameWithoutLanguage
  | keyword
  | uri
  | uriScheme
  | charset
  | naturalLanguage
  | mimeMediaType
  | memberAttrName
  | extension (byte : UInt8)
  deriving DecidableEq, Repr

namespace ValueTag

/-- `ValueTag::from_byte`. -/
def fromByte (tag : UInt8) : ValueTag :=
  match tag with
  | 0x10 => unsupported
  | 0x12 => unknown
  | 0x13 => noValue
  | 0x15 => notSettable
  | 0x16 => deleteAttribute
  | 0x17 => adminDefine
  | 0x21 => integer
  | 0x22 => boolean
  | 0x23 => enum
  | 0x30 => octetString
  | 0x31 => dateTime
  | 0x32 => resolution
  | 0x33 => rangeOfInteger
  | 0x34 => begCollection
  | 0x35 => textWithLanguage
  | 0x36 => nameWithLanguage
  | 0x37 => endCollection
  | 0x41 => textWithoutLanguage
  | 0x42 => nameWithoutLanguage
  | 0x44 => keyword
  | 0x45 => uri
  | 0x46 => uriScheme
  | 0x47 => charset
  | 0x48 => naturalLanguage
  | 0x49 => mimeMediaType
  | 0x4a => memberAttrName
  | other => extension other

/-- `ValueTag::to_byte`. -/
def toByte : ValueTag → UInt8
  | unsupported => 0x10
  | unknown => 0x12
  | noValue => 0x13
  | notSettable => 0x15
  | deleteAttribute => 0x16
  | adminDefine => 0x17
  | integer => 0x21
  | boolean => 0x22
  | enum => 0x23
  | octetString => 0x30
  | dateTime => 0x31
  | resolution => 0x32
  | rangeOfInteger => 0x33
  | begCollection => 0x34
  | textWithLanguage => 0x35
  | nameWithLanguage => 0x36
  | endCollection => 0x37
  | textWithoutLanguage => 0x41
  | nameWithoutLanguage => 0x42
  | keyword => 0x44
  | uri => 0x45
  | uriScheme => 0x46
  | charset => 0x47
  | naturalLanguage => 0x48
  | mimeMediaType => 0x49
  | memberAttrName => 0x4a
  | extension byte => byte

/-- `ValueTag::is_out_of_band`. -/
def isOutOfBand : ValueTag → Bool
  | unsupported | unknown | noValue | notSettable | deleteAttribute
  | adminDefine => true
  | _ => false

@[simp] theorem toByte_fromByte (byte : UInt8) : (fromByte byte).toByte = byte := by
  unfold fromByte
  split <;> rfl

end ValueTag

/-! ## Values and collections -/

/-- A byte array of a fixed length. -/
abbrev Octets (length : Nat) := { bytes : Bytes // bytes.length = length }

mutual

/-- `Value`: a syntax tag and the data it carries. -/
inductive Value where
  | mk (tag : ValueTag) (data : ValueData)

/-- `ValueData`. -/
inductive ValueData where
  | outOfBand
  | integer (value : Int32)
  | boolean (value : Bool)
  | enum (value : Int32)
  | dateTime (value : Octets 11)
  | resolution (crossFeed feed : Int32) (units : UInt8)
  | rangeOfInteger (lower upper : Int32)
  | collection (members : List CollectionMember)
  | bytes (bytes : Bytes)

/-- `CollectionMember`. -/
inductive CollectionMember where
  | mk (name : Bytes) (values : List Value)

end

namespace Value

def tag : Value → ValueTag
  | mk tag _ => tag

def data : Value → ValueData
  | mk _ data => data

@[simp] theorem tag_mk (tag : ValueTag) (data : ValueData) : (mk tag data).tag = tag := rfl

@[simp] theorem data_mk (tag : ValueTag) (data : ValueData) :
    (mk tag data).data = data := rfl

/-- `Value::raw`. -/
def raw (tag : ValueTag) (bytes : Bytes) : Value := ⟨tag, .bytes bytes⟩

end Value

namespace CollectionMember

def name : CollectionMember → Bytes
  | mk name _ => name

def values : CollectionMember → List Value
  | mk _ values => values

@[simp] theorem name_mk (name : Bytes) (values : List Value) :
    (mk name values).name = name := rfl

@[simp] theorem values_mk (name : Bytes) (values : List Value) :
    (mk name values).values = values := rfl

end CollectionMember

mutual

/-- The derived `PartialEq` of values. -/
def Value.same : Value → Value → Bool
  | .mk tag data, .mk otherTag otherData => tag == otherTag && data.same otherData

def ValueData.same : ValueData → ValueData → Bool
  | .outOfBand, .outOfBand => true
  | .integer value, .integer other => value == other
  | .boolean value, .boolean other => value == other
  | .enum value, .enum other => value == other
  | .dateTime value, .dateTime other => value == other
  | .resolution crossFeed feed units, .resolution otherCrossFeed otherFeed otherUnits =>
      crossFeed == otherCrossFeed && feed == otherFeed && units == otherUnits
  | .rangeOfInteger lower upper, .rangeOfInteger otherLower otherUpper =>
      lower == otherLower && upper == otherUpper
  | .collection members, .collection others => sameMembers members others
  | .bytes content, .bytes other => content == other
  | _, _ => false

def CollectionMember.same : CollectionMember → CollectionMember → Bool
  | .mk name values, .mk otherName others => name == otherName && sameValues values others

def sameValues : List Value → List Value → Bool
  | [], [] => true
  | value :: values, other :: others => value.same other && sameValues values others
  | _, _ => false

def sameMembers : List CollectionMember → List CollectionMember → Bool
  | [], [] => true
  | member :: members, other :: others => member.same other && sameMembers members others
  | _, _ => false

end

mutual

theorem Value.same_iff (value other : Value) : value.same other = true ↔ value = other := by
  cases value with
  | mk tag data =>
      cases other with
      | mk otherTag otherData =>
          simp [Value.same, data.same_iff otherData]
  termination_by structural value

theorem ValueData.same_iff (data other : ValueData) :
    data.same other = true ↔ data = other := by
  cases data with
  | collection members =>
      cases other with
      | collection others => simp [ValueData.same, sameMembers_iff members others]
      | _ => simp [ValueData.same]
  | _ => cases other <;> simp [ValueData.same, and_assoc, Subtype.ext_iff]
  termination_by structural data

theorem CollectionMember.same_iff (member other : CollectionMember) :
    member.same other = true ↔ member = other := by
  cases member with
  | mk name values =>
      cases other with
      | mk otherName others => simp [CollectionMember.same, sameValues_iff values others]
  termination_by structural member

theorem sameValues_iff (values others : List Value) :
    sameValues values others = true ↔ values = others := by
  cases values with
  | nil => cases others <;> simp [sameValues]
  | cons value values =>
      cases others with
      | nil => simp [sameValues]
      | cons other others =>
          simp [sameValues, value.same_iff other, sameValues_iff values others]
  termination_by structural values

theorem sameMembers_iff (members others : List CollectionMember) :
    sameMembers members others = true ↔ members = others := by
  cases members with
  | nil => cases others <;> simp [sameMembers]
  | cons member members =>
      cases others with
      | nil => simp [sameMembers]
      | cons other others =>
          simp [sameMembers, member.same_iff other, sameMembers_iff members others]
  termination_by structural members

end

instance : DecidableEq Value := fun value other => decidable_of_iff _ (value.same_iff other)

instance : DecidableEq ValueData := fun data other => decidable_of_iff _ (data.same_iff other)

/-- `Attribute`. -/
structure Attribute where
  name : Bytes
  values : List Value
  deriving DecidableEq

/-- `AttributeGroup`. -/
structure AttributeGroup where
  tag : UInt8
  attributes : List Attribute
  deriving DecidableEq

/-- `Version`. -/
structure Version where
  major : UInt8
  minor : UInt8
  deriving DecidableEq, Repr

/-- `Message`: `code` is an operation in requests and a status in responses. -/
structure Message where
  version : Version
  code : UInt16
  requestId : UInt32
  groups : List AttributeGroup
  originalBytes : Bytes
  deriving DecidableEq

/-! ## Resource limits -/

/-- `Limits`, with `usize` as the 64-bit native one. -/
structure Limits where
  maxMessageBytes : UInt64
  maxGroups : UInt64
  maxAttributes : UInt64
  maxValues : UInt64
  maxNameBytes : UInt64
  maxValueBytes : UInt64
  maxDecodedBytes : UInt64
  maxCollectionDepth : UInt64
  maxCollectionMembers : UInt64
  deriving DecidableEq, Repr

/-- The quantities both directions count while they walk a message. -/
inductive Counted where
  | groups
  | attributes
  | values
  | collectionMembers
  | decodedBytes
  deriving DecidableEq, Repr

/-- The name an error gives a counted quantity. -/
def Counted.text : Counted → String
  | groups => "groups"
  | attributes => "attributes"
  | values => "values"
  | collectionMembers => "collection members"
  | decodedBytes => "decoded bytes"

/-- `Counters`, indexed by the quantity that each field counts. -/
abbrev Counters := Counted → Nat

namespace Limits

/-- `Limits::default`. -/
def default : Limits where
  maxMessageBytes := 4 * 1024 * 1024
  maxGroups := 32
  maxAttributes := 4096
  maxValues := 16384
  maxNameBytes := 1024
  maxValueBytes := 1024 * 1024
  maxDecodedBytes := 8 * 1024 * 1024
  maxCollectionDepth := 16
  maxCollectionMembers := 4096

/-- The check of `Limits::validate`. -/
def valid (limits : Limits) : Bool :=
  !(limits.maxMessageBytes < 8
    || limits.maxGroups == 0
    || limits.maxAttributes == 0
    || limits.maxValues == 0
    || limits.maxNameBytes == 0
    || limits.maxValueBytes == 0
    || limits.maxDecodedBytes == 0
    || limits.maxCollectionDepth == 0
    || limits.maxCollectionMembers == 0)

/-- The limit that bounds a counted quantity. -/
def bound (limits : Limits) : Counters
  | .groups => limits.maxGroups.toNat
  | .attributes => limits.maxAttributes.toNat
  | .values => limits.maxValues.toNat
  | .collectionMembers => limits.maxCollectionMembers.toNat
  | .decodedBytes => limits.maxDecodedBytes.toNat

theorem bound_le_usizeMax (limits : Limits) (kind : Counted) :
    limits.bound kind ≤ usizeMax := by
  cases kind <;> exact Nat.le_of_lt_succ (UInt64.toNat_lt _)

end Limits

/-! ## Errors -/

/-- `DecodeError`. -/
inductive DecodeError where
  | invalidLimits
  | messageTooLarge (actual limit : Nat)
  | truncated (offset needed : Nat)
  | missingGroup (offset : Nat) (tag : UInt8)
  | endInsideCollection (offset : Nat)
  | missingRepeatedAttribute (offset : Nat)
  | illegalTag (offset : Nat) (tag : UInt8) (reason : String)
  | invalidValue (offset : Nat) (tag : UInt8) (reason : String)
  | limit (kind : String) (actual limit : Nat)
  | trailingBytes (offset : Nat)
  | missingEndOfAttributes
  deriving DecidableEq, Repr

/-- `EncodeError`. -/
inductive EncodeError where
  | invalidLimits
  | invalidStructure (reason : String)
  | limit (kind : String) (actual limit : Nat)
  | wireLengthOverflow
  | tagDataMismatch (tag : UInt8)
  deriving DecidableEq, Repr

end PrinterSdk.Ipp
