import PrinterSdk.Protocol.Copies

/-!
# Raster headers of the Phomemo families

The Phomemo families announce a raster by `GS v 0` with the bytes of a row and the
number of rows, both as 16-bit fields.  The bytes of the raster follow in the next write.
A printer takes exactly as many bytes for image data as the two fields multiply to, and
reads what is left as commands.
-/

namespace PrinterSdk.Protocol

open PrinterSdk.Data

/-! ## What the printer reads -/

/-- The two fields of a `GS v 0` header: bytes in a row, then rows. -/
def gsV0Fields : Bytes → Option (UInt16 × UInt16)
  | [0x1d, 0x76, 0x30, 0, w0, w1, h0, h1] => some (u16OfBytes [w1, w0], u16OfBytes [h1, h0])
  | _ => none

/-- The fields of a header write, which may initialize the printer first. -/
def headerFields : Bytes → Option (UInt16 × UInt16)
  | 0x1b :: 0x40 :: rest => gsV0Fields rest
  | bytes => gsV0Fields bytes

/-- One image of a job: the fields of its header and the raster write behind it. -/
structure Image where
  widthBytes : UInt16
  height : UInt16
  data : Bytes
  deriving DecidableEq, Repr

/-- The header announces as many bytes as follow. -/
def Image.Agrees (image : Image) : Prop :=
  image.widthBytes.toNat * image.height.toNat = image.data.length

instance (image : Image) : Decidable image.Agrees :=
  inferInstanceAs (Decidable (_ = _))

/-- The images of a list of actions behind a header, if there was one.  There are none
when a header is not directly in front of a raster write, or a raster write has no
header. -/
def imagesFrom : Option (UInt16 × UInt16) → List Action → Option (List Image)
  | none, [] => some []
  | none, .commandWrite _ bytes _ :: rest => imagesFrom (headerFields bytes) rest
  | none, .rasterWrite .. :: _ => none
  | none, _ :: rest => imagesFrom none rest
  | some (widthBytes, height), .rasterWrite data _ _ :: rest =>
      (imagesFrom none rest).map (⟨widthBytes, height, data⟩ :: ·)
  | some _, _ => none

/-- The images of a job. -/
def images (actions : List Action) : Option (List Image) := imagesFrom none actions

theorem imagesFrom_append {pending : Option (UInt16 × UInt16)} {left : List Action}
    {found : List Image} (shown : imagesFrom pending left = some found) (right : List Action) :
    imagesFrom pending (left ++ right) = (images right).map (found ++ ·) := by
  induction left generalizing pending found with
  | nil =>
      cases pending with
      | none =>
          cases shown
          exact Option.map_id'.symm
      | some fields => cases shown
  | cons action rest ih =>
      cases pending with
      | none =>
          cases action with
          | rasterWrite data chunk pause => cases shown
          | commandWrite name bytes atomic => exact ih shown
          | _ => exact ih shown
      | some fields =>
          cases action with
          | rasterWrite data chunk pause =>
              simp only [imagesFrom, Option.map_eq_some_iff] at shown
              obtain ⟨behind, shown, same⟩ := shown
              simp only [List.cons_append, imagesFrom, ih shown, Option.map_map, ← same]
              rfl
          | _ => cases shown

theorem images_append {left : List Action} {found : List Image}
    (shown : images left = some found) (right : List Action) :
    images (left ++ right) = (images right).map (found ++ ·) :=
  imagesFrom_append shown right

/-- A body with one image gives one image for every copy. -/
theorem images_replicate {body : List Action} {image : Image}
    (shown : images body = some [image]) (copies : Nat) :
    images (List.replicate copies body).flatten = some (List.replicate copies image) := by
  induction copies with
  | zero => rfl
  | succ copies ih =>
      rw [List.replicate_succ, List.flatten_cons, images_append shown, ih]
      rfl

theorem images_jobPlan {body : List Action} {found : List Image}
    (shown : images body = some found) (printer : PrinterDefinition) :
    images (jobPlan printer body).actions = some found := by
  have behind := images_append shown [.jobBoundary .end]
  change images (body ++ [.jobBoundary .end]) = some found
  rw [behind]
  exact congrArg some (List.append_nil found)

/-! ## What the planner writes -/

/-- The families that print through `GS v 0`. -/
def gsFamilies : List WireProtocol := [.mSeries, .m02, .m04, .m110, .dSeries, .p12]

theorem u16LeBytes_eq (value : UInt16) :
    ∃ low high, u16LeBytes value = [low, high] ∧ u16OfBytes [high, low] = value := by
  have length := length_u16Bytes value
  match shape : u16Bytes value, length with
  | [high, low], _ =>
      refine ⟨low, high, ?_, ?_⟩
      · rw [u16LeBytes, shape]
        rfl
      · rw [← shape]
        exact u16OfBytes_u16Bytes value

theorem gsV0Fields_header (raster : Raster) :
    gsV0Fields (header raster) = some (raster.widthBytes, raster.height.toUInt16) := by
  obtain ⟨w0, w1, width, sameWidth⟩ := u16LeBytes_eq raster.widthBytes
  obtain ⟨h0, h1, height, sameHeight⟩ := u16LeBytes_eq raster.height.toUInt16
  rw [header, width, height]
  change some (u16OfBytes [w1, w0], u16OfBytes [h1, h0]) = _
  rw [sameWidth, sameHeight]

@[simp] theorem headerFields_header (raster : Raster) :
    headerFields (header raster) = some (raster.widthBytes, raster.height.toUInt16) :=
  gsV0Fields_header raster

/-- A header behind `ESC @`. -/
@[simp] theorem headerFields_init (raster : Raster) :
    headerFields (0x1b :: 0x40 :: header raster) =
      some (raster.widthBytes, raster.height.toUInt16) :=
  gsV0Fields_header raster

@[simp] theorem headerFields_initOnly : headerFields [0x1b, 0x40] = none := rfl

/-- Other commands are told apart by their first bytes. -/
@[simp] theorem headerFields_other {first : UInt8} (notEscape : first ≠ 0x1b)
    (notGroup : first ≠ 0x1d) (rest : Bytes) : headerFields (first :: rest) = none := by
  simp [headerFields, gsV0Fields, notEscape, notGroup]

@[simp] theorem headerFields_escape {second : UInt8} (notInit : second ≠ 0x40) (rest : Bytes) :
    headerFields (0x1b :: second :: rest) = none := by
  simp [headerFields, gsV0Fields, notInit]

@[simp] theorem headerFields_group {second : UInt8} (notRaster : second ≠ 0x76) (rest : Bytes) :
    headerFields (0x1d :: second :: rest) = none := by
  simp [headerFields, gsV0Fields, notRaster]

/-- The image of a raster, with the height its header has room for. -/
def headedImage (raster : Raster) : Image :=
  ⟨raster.widthBytes, raster.height.toUInt16, raster.data⟩

section

variable (printer : PrinterDefinition) (raster : Raster) (options : Options)

@[simp] theorem imagesFrom_cmd (name : String) (bytes : Bytes) (rest : List Action) :
    imagesFrom none (cmd name bytes :: rest) = imagesFrom (headerFields bytes) rest := rfl

@[simp] theorem imagesFrom_delay (milliseconds : Nat) (rest : List Action) :
    imagesFrom none (delay milliseconds :: rest) = imagesFrom none rest := rfl

@[simp] theorem imagesFrom_subscribe (rest : List Action) :
    imagesFrom none (.subscribeNotifications :: rest) = imagesFrom none rest := rfl

@[simp] theorem imagesFrom_wait (timeout fallback : Nat) (validation : ResponseValidation)
    (rest : List Action) :
    imagesFrom none (.waitForResponse timeout fallback validation :: rest) =
      imagesFrom none rest := rfl

@[simp] theorem imagesFrom_raster (width height : UInt16) (data : Bytes) (streaming : Bool)
    (rest : List Action) :
    imagesFrom (some (width, height)) (rasterPaced printer data streaming :: rest) =
      (imagesFrom none rest).map (⟨width, height, data⟩ :: ·) := rfl

@[simp] theorem imagesFrom_nil : imagesFrom none [] = some [] := rfl

theorem images_mSeries {body : List Action}
    (planned : mSeriesActions printer raster options = .ok body) :
    images body = some [headedImage raster] := by
  simp only [mSeriesActions, heat, except_bind_eq_ok, except_pure_eq_ok] at planned
  obtain ⟨heat, ⟨level, -, rfl⟩, rfl⟩ := planned
  simp [images, headedImage]

theorem images_m02 {body : List Action}
    (planned : m02Actions printer raster options = .ok body) :
    images body = some [headedImage raster] := by
  simp only [m02Actions, heat, except_bind_eq_ok, except_pure_eq_ok] at planned
  obtain ⟨heat, ⟨level, -, rfl⟩, rfl⟩ := planned
  simp [images, headedImage]

theorem images_m04 {body : List Action}
    (planned : m04Actions printer raster options = .ok body) :
    images body = some [headedImage raster] := by
  cases planned
  have feeds : ∀ count rest, imagesFrom none
      ((List.replicate count [cmd "M04 feed" [0x1b, 0x64, 2], delay 30]).flatten ++ rest) =
        imagesFrom none rest := by
    intro count rest
    induction count with
    | zero => rfl
    | succ count ih => simp [List.replicate_succ, ih]
  simp [images, headedImage, feeds]

theorem images_m110 {body : List Action}
    (planned : m110Actions printer raster options = .ok body) :
    images body = some [headedImage raster] := by
  simp only [m110Actions, except_bind_eq_ok, except_pure_eq_ok] at planned
  obtain ⟨density, -, rfl⟩ := planned
  simp [images, headedImage]

theorem images_dSeries {body : List Action}
    (planned : dSeriesActions printer raster options = .ok body) :
    images body = some [headedImage (paddedRaster raster options)] := by
  simp only [dSeriesActions, heat, except_bind_eq_ok, except_pure_eq_ok] at planned
  obtain ⟨heat, ⟨level, -, rfl⟩, rfl⟩ := planned
  simp [images, headedImage]

theorem images_p12 {body : List Action}
    (planned : p12Actions printer raster options = .ok body) :
    images body = some [headedImage raster] := by
  cases planned
  simp [images, headedImage, p12InitPackets]

/-- The raster a family sends: D-series printers feed blank rows behind it. -/
def sentRaster : Raster :=
  if printer.protocol = .dSeries then paddedRaster raster options else raster

theorem sentRaster_eq (notPadded : printer.protocol ≠ .dSeries) :
    sentRaster printer raster options = raster := if_neg notPadded

theorem images_familyActions {body : List Action} (family : printer.protocol ∈ gsFamilies)
    (planned : familyActions printer raster options = .ok body) :
    images body = some [headedImage (sentRaster printer raster options)] := by
  rw [familyActions] at planned
  by_cases padded : printer.protocol = .dSeries
  · rw [padded] at planned
    rw [sentRaster, if_pos padded]
    exact images_dSeries printer raster options planned
  · rw [sentRaster_eq printer raster options padded]
    cases protocol : printer.protocol with
    | mSeries =>
        rw [protocol] at planned
        exact images_mSeries printer raster options planned
    | m02 =>
        rw [protocol] at planned
        exact images_m02 printer raster options planned
    | m04 =>
        rw [protocol] at planned
        exact images_m04 printer raster options planned
    | m110 =>
        rw [protocol] at planned
        exact images_m110 printer raster options planned
    | p12 =>
        rw [protocol] at planned
        exact images_p12 printer raster options planned
    | dSeries => exact absurd protocol padded
    | tspl => exact absurd (protocol ▸ family) (by decide)
    | brother => exact absurd (protocol ▸ family) (by decide)

end

/-! ## Arithmetic -/

/-- Whether the family feeds blank rows behind the raster. -/
def pads (printer : PrinterDefinition) (options : Options) : Prop :=
  printer.protocol = .dSeries ∧ options.continuous ∧ 0 < options.feed

instance (printer : PrinterDefinition) (options : Options) : Decidable (pads printer options) :=
  inferInstanceAs (Decidable (_ ∧ _))

/-- The rows a family feeds behind the raster. -/
def extraRows (printer : PrinterDefinition) (options : Options) : Nat :=
  if pads printer options then 56 + options.feed.toNat else 0

/-- The rows of the raster a family sends. -/
def sentRows (printer : PrinterDefinition) (raster : Raster) (options : Options) : Nat :=
  raster.height.toNat + extraRows printer options

/-- No operation of a `GS v 0` family leaves the integer type the source computes it in:
`usize` for sizes, `u32` for rows, `u16` under the divisions, and no subtraction goes
below zero. -/
structure Exact (printer : PrinterDefinition) (raster : Raster) (options : Options) : Prop where
  rasterBytes : raster.widthBytes.toNat * raster.height.toNat ≤ usizeMax
  rows : raster.height.toNat + extraRows printer options < 2 ^ 32
  paddedBytes :
    raster.data.length + extraRows printer options * raster.widthBytes.toNat ≤ usizeMax
  level : 1 ≤ options.density.toNat
  density : options.density.toNat * 15 + 8 / 2 < 2 ^ 16
  heat : (options.density.toNat - 1) * 50 + 3 / 2 < 2 ^ 16
  heatByte : 100 + roundDiv ((options.density.toNat - 1) * 50) 3 < 2 ^ 8
  feeds : max options.feed.toNat 1 + 16 / 2 < 2 ^ 16

section

variable {printer : PrinterDefinition} {raster : Raster} {options : Options}
  {limits : ProcessingLimits}

/-- What `plan_inner` asks of a raster and its density. -/
theorem raster_of_checkRequest (checked : checkRequest raster options limits = .ok ()) :
    raster.data.length = raster.widthBytes.toNat * raster.height.toNat ∧
      raster.widthBytes.toNat * raster.height.toNat ≤ usizeMax ∧
      1 ≤ options.density.toNat ∧ options.density.toNat ≤ 8 := by
  simp only [checkRequest, except_bind_eq_ok, refuseIf_eq_ok, okOr_eq_ok, checkedMul_eq_some,
    Decidable.not_not] at checked
  obtain ⟨expected, ⟨fits, size⟩, _, length, _, ⟨low, high⟩, -⟩ := checked
  exact ⟨length.trans size.symm, fits, UInt8.le_iff_toNat_le.mp low,
    UInt8.le_iff_toNat_le.mp high⟩

/-- Only the row count can leave its range. -/
theorem exact_iff (checked : checkRequest raster options limits = .ok ()) :
    Exact printer raster options ↔ sentRows printer raster options < 2 ^ 32 := by
  obtain ⟨length, fits, low, high⟩ := raster_of_checkRequest checked
  constructor
  · intro exact
    exact exact.rows
  · intro rows
    have width : raster.widthBytes.toNat < 2 ^ 16 := raster.widthBytes.toNat_lt
    have feed : options.feed.toNat < 2 ^ 8 := options.feed.toNat_lt
    have product : raster.data.length + extraRows printer options * raster.widthBytes.toNat =
        sentRows printer raster options * raster.widthBytes.toNat := by
      rw [length, sentRows, Nat.add_mul, Nat.mul_comm]
    have bounded : sentRows printer raster options * raster.widthBytes.toNat ≤ 2 ^ 32 * 2 ^ 16 :=
      Nat.mul_le_mul (Nat.le_of_lt rows) (Nat.le_of_lt width)
    refine ⟨fits, rows, ?_, low, ?_, ?_, ?_, ?_⟩
    · rw [product]
      exact Nat.le_trans bounded (by decide)
    · omega
    · omega
    · rw [roundDiv]
      omega
    · omega

/-- The height of the raster a family sends, in the `u32` that wraps. -/
theorem sentRaster_height :
    (sentRaster printer raster options).height.toNat =
      sentRows printer raster options % 2 ^ 32 := by
  have feed : options.feed.toNat < 2 ^ 8 := options.feed.toNat_lt
  have height : raster.height.toNat < 2 ^ 32 := raster.height.toNat_lt
  by_cases padded : pads printer options
  · rw [sentRaster, if_pos padded.1, paddedRaster, if_pos padded.2, sentRows, extraRows,
      if_pos padded]
    simp
  · rw [sentRows, extraRows, if_neg padded, Nat.add_zero, Nat.mod_eq_of_lt height]
    by_cases family : printer.protocol = .dSeries
    · rw [sentRaster, if_pos family, paddedRaster, if_neg fun both => padded ⟨family, both⟩]
    · rw [sentRaster, if_neg family]

theorem sentRaster_width :
    (sentRaster printer raster options).widthBytes = raster.widthBytes := by
  by_cases family : printer.protocol = .dSeries
  · rw [sentRaster, if_pos family, paddedRaster]
    split <;> rfl
  · rw [sentRaster, if_neg family]

theorem sentRaster_data (checked : checkRequest raster options limits = .ok ()) :
    (sentRaster printer raster options).data.length =
      raster.widthBytes.toNat * sentRows printer raster options := by
  obtain ⟨length, -⟩ := raster_of_checkRequest checked
  have feed : options.feed.toNat < 2 ^ 8 := options.feed.toNat_lt
  by_cases padded : pads printer options
  · rw [sentRaster, if_pos padded.1, paddedRaster, if_pos padded.2, sentRows, extraRows,
      if_pos padded]
    have rows : (56 + options.feed.toUInt32).toNat = 56 + options.feed.toNat := by
      simp
      omega
    rw [List.length_append, List.length_replicate, length, rows, Nat.mul_add,
      Nat.mul_comm (56 + _)]
  · rw [sentRows, extraRows, if_neg padded, Nat.add_zero, ← length]
    by_cases family : printer.protocol = .dSeries
    · rw [sentRaster, if_pos family, paddedRaster, if_neg fun both => padded ⟨family, both⟩]
    · rw [sentRaster, if_neg family]

/-- A header agrees with its raster when the rows fit its field, or there are no bytes to
announce. -/
theorem headedImage_agrees (checked : checkRequest raster options limits = .ok ()) :
    (headedImage (sentRaster printer raster options)).Agrees ↔
      sentRows printer raster options < 2 ^ 16 ∨ raster.widthBytes = 0 := by
  have height : (sentRaster printer raster options).height.toUInt16.toNat =
      sentRows printer raster options % 2 ^ 16 := by
    rw [UInt32.toNat_toUInt16, sentRaster_height]
    omega
  have agrees : (headedImage (sentRaster printer raster options)).Agrees ↔
      raster.widthBytes.toNat * (sentRows printer raster options % 2 ^ 16) =
        raster.widthBytes.toNat * sentRows printer raster options := by
    rw [Image.Agrees, headedImage, height, sentRaster_width, sentRaster_data checked]
  rw [agrees]
  constructor
  · intro same
    by_cases width : raster.widthBytes.toNat = 0
    · right
      exact UInt16.toNat_inj.mp width
    · left
      rw [← Nat.eq_of_mul_eq_mul_left (Nat.pos_of_ne_zero width) same]
      exact Nat.mod_lt _ (by decide)
  · rintro (rows | width)
    · rw [Nat.mod_eq_of_lt rows]
    · rw [width]
      exact (Nat.zero_mul _).trans (Nat.zero_mul _).symm

/-- Every printed copy is the image of the raster the family sends. -/
theorem images_planInner (family : printer.protocol ∈ gsFamilies) {planned : Plan}
    (returned : planInner printer raster options limits = .ok planned) :
    images planned.actions = some (List.replicate options.copies.toNat
      (headedImage (sentRaster printer raster options))) := by
  obtain ⟨-, page⟩ := planInner_eq_ok returned
  have notTspl : printer.protocol ≠ .tspl := by
    intro tspl
    rw [tspl] at family
    exact absurd family (by decide)
  rw [if_neg notTspl] at page
  obtain ⟨body, page, rfl⟩ := page
  simp only [pageBody, except_bind_eq_ok, except_pure_eq_ok] at page
  obtain ⟨actions, planned, same⟩ := page
  have shown : images body = some [headedImage (sentRaster printer raster options)] := by
    have own := images_familyActions printer raster { options with copies := 1 } family planned
    rw [← same]
    cases (printer.bleGatt.bind (·.flowControl)).isSome with
    | false => exact own
    | true => exact own
  exact images_jobPlan (images_replicate shown options.copies.toNat) printer

end

/-- The headers of a planned job agree with their rasters, and no arithmetic overflows,
exactly for rasters whose rows fit the 16 bits of the header; a raster without columns may
be as high as the rows can be counted. -/
theorem header_agreement_iff (printer : PrinterDefinition) (raster : Raster) (options : Options)
    (planned : Plan) (family : printer.protocol ∈ gsFamilies)
    (returned : plan printer raster options = .ok planned) :
    ((∃ found, images planned.actions = some found ∧ found.length = options.copies.toNat ∧
        ∀ image ∈ found, image.Agrees) ∧ Exact printer raster options) ↔
      sentRows printer raster options < 2 ^ 16 ∨
        raster.widthBytes = 0 ∧ sentRows printer raster options < 2 ^ 32 := by
  simp only [plan, planWithLimits, except_bind_eq_ok, except_pure_eq_ok] at returned
  obtain ⟨inner, returned, _, -, rfl⟩ := returned
  have checked := (planInner_eq_ok returned).1
  have shown := images_planInner family returned
  have copies := (copies_of_checkRequest checked).1
  have agrees := @headedImage_agrees printer raster options .default checked
  rw [exact_iff checked]
  constructor
  · rintro ⟨⟨found, same, -, every⟩, rows⟩
    rw [shown] at same
    cases same
    have first := every _ (List.mem_replicate.mpr ⟨Nat.ne_of_gt copies, rfl⟩)
    exact (agrees.mp first).imp id fun width => ⟨width, rows⟩
  · intro condition
    have rows : sentRows printer raster options < 2 ^ 32 := by
      rcases condition with small | blank
      · exact Nat.lt_trans small (by decide)
      · exact blank.2
    refine ⟨⟨_, shown, List.length_replicate, ?_⟩, rows⟩
    intro image member
    rw [(List.mem_replicate.mp member).2]
    exact agrees.mpr (condition.imp id And.left)

theorem header_agreement_padded :
    ∃ planned, plan (gattPrinter "d-series" .dSeries 203) dotRaster
        { continuous := true, copies := 2 } = .ok planned ∧
      (∃ found, images planned.actions = some found ∧ found.length = 2 ∧
        ∀ image ∈ found, image.Agrees) ∧
      Exact (gattPrinter "d-series" .dSeries 203) dotRaster
        { continuous := true, copies := 2 } := by
  have result : (plan (gattPrinter "d-series" .dSeries 203) dotRaster
      { continuous := true, copies := 2 }).isOk = true := by decide +kernel
  obtain ⟨planned, returned⟩ := exists_of_isOk result
  exact ⟨planned, returned, (header_agreement_iff _ _ _ planned (by decide) returned).mpr
    (Or.inl (by decide))⟩

theorem length_header (raster : Raster) : (header raster).length = 8 := by
  simp [header, u16LeBytes]

/-- A P12 job of one column and 65536 rows is planned. -/
theorem tall_planned {data : Bytes} (length : data.length = 65536) :
    ∃ planned, plan (gattPrinter "p12" .p12 203) ⟨1, 65536, data⟩ {} = .ok planned := by
  have checked : checkRequest ⟨1, 65536, data⟩ {} .default = .ok () := by
    simp only [checkRequest, except_bind_eq_ok, refuseIf_eq_ok, okOr_eq_ok, Decidable.not_not]
    exact ⟨65536, by decide, (), length, (), by decide, (), by decide, (), by decide, (),
      by decide, by decide⟩
  have page : ∃ body, pageBody (gattPrinter "p12" .p12 203) ⟨1, 65536, data⟩ {} = .ok body ∧
      body.length + 2 ≤ 100000 ∧ ownedTotal body ≤ 100000 := by
    refine ⟨_, rfl, Nat.le_of_ble_eq_true rfl, ?_⟩
    simp only [gattPrinter, PrinterDefinition.bleGatt, ownedTotal, Action.ownedBytes,
      p12InitPackets, cmd, rasterPaced, delay, List.map_append, List.sum_append, List.map_cons,
      List.sum_cons, List.flatMap_cons, List.flatMap_nil, List.length_append,
      length_header, length]
    decide +kernel
  obtain ⟨body, page, few, small⟩ := page
  have inner : planInner (gattPrinter "p12" .p12 203) ⟨1, 65536, data⟩ {} .default =
      .ok (jobPlan (gattPrinter "p12" .p12 203) body) := by
    simp only [planInner, except_bind_eq_ok]
    refine ⟨(), checked, ?_⟩
    rw [if_neg fun several => absurd several.2 (by decide), page]
    rfl
  have counted := length_copies (gattPrinter "p12" .p12 203) 1 body
  have total := ownedTotal_copies (gattPrinter "p12" .p12 203) 1 body
  rw [List.replicate_one, List.flatten_singleton, Nat.mul_one] at counted total
  have enforced : enforcePlanLimits (jobPlan (gattPrinter "p12" .p12 203) body).actions
      .default = .ok () := by
    apply enforcePlanLimits_eq_ok (by decide)
    · rw [counted]
      exact few
    · rw [total]
      exact Nat.le_trans small (by decide)
  refine ⟨jobPlan (gattPrinter "p12" .p12 203) body, ?_⟩
  simp only [plan, planWithLimits, except_bind_eq_ok, except_pure_eq_ok]
  exact ⟨_, inner, (), enforced, rfl⟩

/-- One column of 65536 white rows. -/
def tallRaster : Raster := ⟨1, 65536, List.replicate 65536 0⟩

/-- 65536 rows are announced as none, and the printer reads the image as commands. -/
theorem tall_raster_disagrees :
    ∃ planned, plan (gattPrinter "p12" .p12 203) tallRaster {} = .ok planned ∧
      images planned.actions = some [⟨1, 0, List.replicate 65536 0⟩] ∧
      ¬((∃ found, images planned.actions = some found ∧
          found.length = ({} : Options).copies.toNat ∧ ∀ image ∈ found, image.Agrees) ∧
        Exact (gattPrinter "p12" .p12 203) tallRaster {}) := by
  obtain ⟨planned, returned⟩ : ∃ planned,
      plan (gattPrinter "p12" .p12 203) tallRaster {} = .ok planned :=
    tall_planned List.length_replicate
  refine ⟨planned, returned, ?_⟩
  simp only [plan, planWithLimits, except_bind_eq_ok, except_pure_eq_ok] at returned
  obtain ⟨inner, returned, _, -, rfl⟩ := returned
  have shown := images_planInner (by decide) returned
  have image : headedImage (sentRaster (gattPrinter "p12" .p12 203) tallRaster {}) =
      ⟨1, 0, List.replicate 65536 0⟩ := rfl
  rw [image] at shown
  refine ⟨shown, ?_⟩
  rintro ⟨⟨found, same, -, every⟩, -⟩
  rw [shown] at same
  cases same
  have agrees := every _ (List.mem_replicate.mpr ⟨by decide, rfl⟩)
  exact absurd (agrees.trans List.length_replicate) (by decide)

end PrinterSdk.Protocol
