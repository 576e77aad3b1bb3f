import PrinterSdk.Label.Forest
import PrinterSdk.Render.Placement

/-!
# Exact placements

A size is rounded to at least one dot, and a corner lies half of the dots of a size before
the rounded centre.  The placement of an element without groups is exact as long as its
doubled centre is an `i64` and its dots are `i32`.
-/

namespace PrinterSdk.Render

open PrinterSdk.Data PrinterSdk.Data.Tracked PrinterSdk.Label

/-- The dots of a size. -/
def exactSize (dpi : UInt16) (size : Int) : Int := max (roundedRatio (size * dpi.toNat) 25400) 1

/-- The dots of a doubled centre. -/
def exactCentre (dpi : UInt16) (centre : Int) : Int := roundedRatio (centre * dpi.toNat) 50800

section

variable {size centre : Int64} {centre' : Int}

theorem toInt_max_one (number : Int64) : (max number 1).toInt = max number.toInt 1 := by
  change (if number ≤ 1 then 1 else number).toInt = if number.toInt ≤ 1 then 1 else number.toInt
  by_cases small : number ≤ 1
  · have less : number.toInt ≤ 1 := Int64.le_iff_toInt_le.mp small
    rw [if_pos small, if_pos less]
    rfl
  · have more : ¬number.toInt ≤ 1 := fun less => small (Int64.le_iff_toInt_le.mpr less)
    rw [if_neg small, if_neg more]

theorem yields_sizeDots (dpi : UInt16) (positive : 0 < size.toInt) :
    Yields (sizeDots size dpi) (IsI32 (exactSize dpi size.toInt)) fun dots =>
      dots.toInt = exactSize dpi size.toInt := by
  have dots := (yields_asI64 (roundedRatio (size.toInt * dpi.toNat) 25400)).bind
    fun number same => yields_asI32 ((toInt_max_one number).trans (congrArg (max · 1) same))
  apply dots.mono
  · have least : 0 ≤ roundedRatio (size.toInt * dpi.toNat) 25400 := by
      have product : 0 ≤ size.toInt * dpi.toNat :=
        Int.mul_nonneg (Int.le_of_lt positive) (Int.natCast_nonneg _)
      have lower := roundedRatio_mono (by decide : (0 : Int) < 25400) product
      rwa [show roundedRatio 0 25400 = 0 from rfl] at lower
    constructor
    · exact And.right
    · intro fits
      refine ⟨⟨by omega, ?_⟩, fits⟩
      exact Int.lt_of_le_of_lt (Int.le_max_left _ 1) (fits.isI64.2)
  · exact fun _ _ same => same

theorem yields_centreDots (dpi : UInt16) (same : centre.toInt = centre') :
    Yields (centreDots centre dpi) (IsI32 (exactCentre dpi centre')) fun dots =>
      dots.toInt = exactCentre dpi centre' := by
  subst same
  have dots := (yields_asI64 (roundedRatio (centre.toInt * dpi.toNat) 50800)).bind
    fun number same => yields_asI32 same
  apply dots.mono
  · exact ⟨And.right, fun fits => ⟨fits.isI64, fits⟩⟩
  · exact fun _ _ same => same

theorem yields_doubledCentre (position size : Int64) :
    Yields (doubledCentre position size)
      (IsI64 (2 * position.toInt) ∧ IsI64 (2 * position.toInt + size.toInt)) fun centre =>
        centre.toInt = 2 * position.toInt + size.toInt :=
  (yields_double64 rfl).bind fun _ doubled => yields_add64 doubled rfl

theorem yields_shifted (position : Int64) (same : centre.toInt = centre') :
    Yields (shifted centre position)
      (IsI64 (2 * position.toInt) ∧ IsI64 (centre' + 2 * position.toInt)) fun moved =>
        moved.toInt = centre' + 2 * position.toInt :=
  (yields_double64 rfl).bind fun _ doubled => yields_add64 same doubled

end

theorem toInt_half {dots : Int32} {exact : Int} (same : dots.toInt = exact) (least : 0 ≤ exact) :
    (dots / 2).toInt = exact / 2 := by
  rw [Int32.toInt_div_of_ne_right dots 2 (by decide), same]
  exact Int.tdiv_eq_ediv_of_nonneg least

/-! ## Poses -/

/-- A pose in exact arithmetic. -/
structure ExactPose where
  cx2 : Int
  cy2 : Int
  rotation : Int
  deriving DecidableEq, Repr

/-- The machine has computed the pose exactly. -/
structure Pose.Shows (pose : Pose) (exact : ExactPose) : Prop where
  across : pose.cx2.toInt = exact.cx2
  down : pose.cy2.toInt = exact.cy2
  rotation : pose.rotation.toInt = exact.rotation

namespace ExactPose

/-- The pose of an element before its groups. -/
def own (transform : Transform) : ExactPose where
  cx2 := 2 * transform.x.toInt + transform.width.toInt
  cy2 := 2 * transform.y.toInt + transform.height.toInt
  rotation := transform.rotationMillidegrees.toInt

/-- The pose within a zone, if there is one. -/
def inZone (zone : Option Zone) (pose : ExactPose) : ExactPose :=
  match zone with
  | none => pose
  | some zone => ⟨pose.cx2 + 2 * zone.bounds.x.toInt, pose.cy2 + 2 * zone.bounds.y.toInt,
      pose.rotation⟩

end ExactPose

/-- The doubled centre of a transform is an `i64`, and so is twice its position. -/
structure CentreFits (transform : Transform) : Prop where
  across : IsI64 (2 * transform.x.toInt) ∧ IsI64 (2 * transform.x.toInt + transform.width.toInt)
  down : IsI64 (2 * transform.y.toInt) ∧ IsI64 (2 * transform.y.toInt + transform.height.toInt)

theorem yields_ownPose (transform : Transform) :
    Yields (ownPose transform) (CentreFits transform) fun pose =>
      pose.Shows (.own transform) := by
  have poses := (yields_doubledCentre transform.x transform.width).bind fun cx2 across =>
    (yields_doubledCentre transform.y transform.height).bind fun cy2 down =>
      yields_pure (⟨cx2, cy2, transform.rotationMillidegrees⟩ : Pose)
        (fun pose => pose.Shows (.own transform)) ⟨across, down, rfl⟩
  apply poses.mono
  · exact ⟨fun ⟨across, down, _⟩ => ⟨across, down⟩, fun ⟨across, down⟩ => ⟨across, down, trivial⟩⟩
  · exact fun _ _ same => same

/-- The offset of a zone can be added to a pose. -/
structure ZoneFits (zone : Zone) (pose : ExactPose) : Prop where
  across : IsI64 (2 * zone.bounds.x.toInt) ∧ IsI64 (pose.cx2 + 2 * zone.bounds.x.toInt)
  down : IsI64 (2 * zone.bounds.y.toInt) ∧ IsI64 (pose.cy2 + 2 * zone.bounds.y.toInt)

theorem yields_zonePose {pose : Pose} {exact : ExactPose} (zone : Option Zone)
    (shows : pose.Shows exact) :
    Yields (zonePose zone pose) (∀ inside, zone = some inside → ZoneFits inside exact)
      fun moved => moved.Shows (exact.inZone zone) := by
  cases zone with
  | none =>
      apply (yields_pure pose (fun pose => pose.Shows exact) shows).mono
      · exact ⟨fun _ _ => nofun, fun _ => trivial⟩
      · exact fun _ _ same => same
  | some zone =>
      have poses := (yields_shifted zone.bounds.x shows.across).bind
        fun cx2 across => (yields_shifted zone.bounds.y shows.down).bind
          fun cy2 down => yields_pure (⟨cx2, cy2, pose.rotation⟩ : Pose)
            (fun pose => pose.Shows (exact.inZone (some zone))) ⟨across, down, shows.rotation⟩
      apply poses.mono
      · constructor
        · rintro ⟨across, down, -⟩ inside same
          cases same
          exact ⟨across, down⟩
        · intro fits
          exact ⟨(fits zone rfl).across, (fits zone rfl).down, trivial⟩
      · exact fun _ _ same => same

/-! ## Dots -/

/-- The dots of a transform at a pose are `i32`. -/
structure DotsFit (transform : Transform) (dpi : UInt16) (pose : ExactPose) : Prop where
  w : IsI32 (exactSize dpi transform.width.toInt)
  h : IsI32 (exactSize dpi transform.height.toInt)
  centerX : IsI32 (exactCentre dpi pose.cx2)
  centerY : IsI32 (exactCentre dpi pose.cy2)
  x : IsI32 (exactCentre dpi pose.cx2 - exactSize dpi transform.width.toInt / 2)
  y : IsI32 (exactCentre dpi pose.cy2 - exactSize dpi transform.height.toInt / 2)

/-- The placement of a transform at a pose in exact arithmetic. -/
structure Placement.Shows (placement : Placement) (transform : Transform) (dpi : UInt16)
    (pose : ExactPose) : Prop where
  x : placement.x.toInt = exactCentre dpi pose.cx2 - exactSize dpi transform.width.toInt / 2
  y : placement.y.toInt = exactCentre dpi pose.cy2 - exactSize dpi transform.height.toInt / 2
  w : placement.w.toInt = exactSize dpi transform.width.toInt
  h : placement.h.toInt = exactSize dpi transform.height.toInt
  rotation : placement.rotationMillidegrees.toInt = pose.rotation % 360000

theorem exactSize_pos (dpi : UInt16) (size : Int) : 0 ≤ exactSize dpi size :=
  Int.le_trans (by decide) (Int.le_max_right _ 1)

theorem isI32_emod (rotation : Int) : IsI32 (rotation % 360000) := by
  have least := Int.emod_nonneg rotation (by decide : (360000 : Int) ≠ 0)
  have most := Int.emod_lt_of_pos rotation (by decide : (0 : Int) < 360000)
  exact ⟨by omega, by omega⟩

theorem yields_posePlacement {transform : Transform} {pose : Pose} {exact : ExactPose}
    (dpi : UInt16) (wide : 0 < transform.width.toInt) (high : 0 < transform.height.toInt)
    (shows : pose.Shows exact) :
    Yields (posePlacement transform dpi pose) (DotsFit transform dpi exact) fun placement =>
      placement.Shows transform dpi exact := by
  have placements := (yields_sizeDots dpi wide).bind fun w width =>
    (yields_sizeDots dpi high).bind fun h height =>
    (yields_centreDots dpi shows.across).bind fun centerX across =>
    (yields_centreDots dpi shows.down).bind fun centerY down =>
    (yields_sub32 across (toInt_half width (exactSize_pos dpi _))).bind fun x left =>
    (yields_sub32 down (toInt_half height (exactSize_pos dpi _))).bind fun y top =>
      yields_pure (⟨x, y, w, h, .ofInt (pose.rotation.toInt % 360000)⟩ : Placement)
        (fun placement => placement.Shows transform dpi exact) (by
          refine ⟨left, top, width, height, ?_⟩
          rw [← shows.rotation]
          exact toInt_ofInt32 (isI32_emod _))
  apply placements.mono
  · constructor
    · rintro ⟨w, h, centerX, centerY, x, y, -⟩
      exact ⟨w, h, centerX, centerY, x, y⟩
    · intro fits
      exact ⟨fits.w, fits.h, fits.centerX, fits.centerY, fits.x, fits.y, trivial⟩
  · exact fun _ _ same => same

/-! ## Elements without groups -/

/-- The doubled centre of a transform, in its zone if there is one, is an `i64`, and its
dots are `i32`. -/
structure Placeable (transform : Transform) (zone : Option Zone) (dpi : UInt16) : Prop where
  centre : CentreFits transform
  moved : ∀ inside, zone = some inside → ZoneFits inside (.own transform)
  dots : DotsFit transform dpi ((ExactPose.own transform).inZone zone)

/-- Exactly the placeable elements without groups are placed exactly. -/
theorem yields_placementPx {common : Common} (ungrouped : common.groupId = none)
    (wide : 0 < common.transform.width.toInt) (high : 0 < common.transform.height.toInt)
    (dpi : UInt16) (document : Document) (zoneOverride : Option String) :
    Yields (placementPx common dpi document zoneOverride)
      (Placeable common.transform (placedZone common document zoneOverride) dpi)
      fun placement => placement.Shows common.transform dpi
        ((ExactPose.own common.transform).inZone (placedZone common document zoneOverride)) := by
  have pose := (yields_ownPose common.transform).bind fun own shows =>
    yields_zonePose (placedZone common document zoneOverride) shows
  have same : fullPose common document zoneOverride =
      ownPose common.transform >>= zonePose (placedZone common document zoneOverride) := by
    unfold fullPose
    rw [ungrouped]
    rfl
  rw [← same] at pose
  apply (pose.bind fun _ shows => yields_posePlacement dpi wide high shows).mono
  · constructor
    · rintro ⟨⟨centre, zone⟩, dots⟩
      exact ⟨centre, zone, dots⟩
    · intro fits
      exact ⟨⟨fits.centre, fits.moved⟩, fits.dots⟩
  · exact fun _ _ same => same

/-- The placement of a transform at a pose is rounded half away from zero: its sizes, of at
least one dot, and the centre that its corner is half a size away from. -/
structure RoundedPlacement (transform : Transform) (dpi : UInt16) (pose : ExactPose)
    (placement : Placement) : Prop where
  width : ∃ dots, NearestAway 25400 (transform.width.toInt * dpi.toNat) dots ∧
    placement.w.toInt = max dots 1
  height : ∃ dots, NearestAway 25400 (transform.height.toInt * dpi.toNat) dots ∧
    placement.h.toInt = max dots 1
  across : ∃ centre, NearestAway 50800 (pose.cx2 * dpi.toNat) centre ∧
    placement.x.toInt = centre - placement.w.toInt / 2
  down : ∃ centre, NearestAway 50800 (pose.cy2 * dpi.toNat) centre ∧
    placement.y.toInt = centre - placement.h.toInt / 2
  rotation : placement.rotationMillidegrees.toInt = pose.rotation % 360000

theorem Placement.Shows.rounded {placement : Placement} {transform : Transform} {dpi : UInt16}
    {pose : ExactPose} (shows : placement.Shows transform dpi pose) :
    RoundedPlacement transform dpi pose placement where
  width := ⟨_, roundedRatio_nearestAway (by decide) _, shows.w⟩
  height := ⟨_, roundedRatio_nearestAway (by decide) _, shows.h⟩
  across := ⟨_, roundedRatio_nearestAway (by decide) _, by rw [shows.w]; exact shows.x⟩
  down := ⟨_, roundedRatio_nearestAway (by decide) _, by rw [shows.h]; exact shows.y⟩
  rotation := shows.rotation

/-- The sizes of the elements of a valid document are positive. -/
theorem sizes_pos {base64 : Base64} {sha256 : Sha256} {limits : ProcessingLimits}
    {document : Document} (valid : Valid base64 sha256 limits document) {element : Element}
    (member : element ∈ document.elements) :
    0 < element.common.transform.width.toInt ∧ 0 < element.common.transform.height.toInt := by
  have clean := valid.transforms element member
  simp only [transformErrors, List.append_eq_nil_iff, failIf_eq_nil, not_or, Int64.not_le,
    Int64.lt_iff_toInt_lt] at clean
  exact clean.1

/-- An element of a valid document that has no group is placed without loss, and rounded
half away from zero, exactly when it is placeable: the checks of the document leave its
position and its size unbounded. -/
theorem ungrouped_placement_exact (base64 : Base64) (sha256 : Sha256) (limits : ProcessingLimits)
    (document : Document) (accepted : validateWithLimits base64 sha256 limits document = .ok ())
    (element : Element) (member : element ∈ document.elements)
    (ungrouped : element.common.groupId = none) (dpi : UInt16) (zoneOverride : Option String) :
    ((placementPx element.common dpi document zoneOverride).exact = true ∧
      RoundedPlacement element.common.transform dpi
        ((ExactPose.own element.common.transform).inZone
          (placedZone element.common document zoneOverride))
        (placementPx element.common dpi document zoneOverride).value) ↔
      Placeable element.common.transform (placedZone element.common document zoneOverride)
        dpi := by
  have valid := (validateWithLimits_eq_ok base64 sha256 limits document).mp accepted
  obtain ⟨wide, high⟩ := sizes_pos valid member
  have yields := yields_placementPx ungrouped wide high dpi document zoneOverride
  constructor
  · rintro ⟨lossless, -⟩
    exact yields.exact_iff.mp lossless
  · intro placeable
    exact ⟨yields.exact_iff.mpr placeable, (yields.value placeable).rounded⟩

/-- A box of a tenth of a millimetre, and no more than a micrometre high. -/
def sliver : Element :=
  .rectangle { id := "sliver", transform := ⟨0, 0, 100, 1, 0⟩, zOrder := 0 } 1 false

/-- A label of a hundred dots a centimetre with nothing but one element. -/
def labelWith (element : Element) : Document where
  version := 4
  name := "Label"
  media := {
    width := 50000
    height := 30000
    dpi := 254
    orientation := .landscape
    printableBounds := ⟨0, 0, 50000, 30000⟩
    shape := .rectangle }
  elements := [element]

theorem ungrouped_placement_exact_sliver :
    (placementPx sliver.common 254 (labelWith sliver) none).exact = true ∧
      RoundedPlacement sliver.common.transform 254
        ((ExactPose.own sliver.common.transform).inZone none)
        (placementPx sliver.common 254 (labelWith sliver) none).value := by
  have accepted : validateWithLimits logoBase64 logoSha256 .default (labelWith sliver) = .ok () := by
    decide +kernel
  have placeable : Placeable sliver.common.transform none 254 :=
    ⟨⟨by decide, by decide⟩, nofun,
      ⟨by decide, by decide, by decide, by decide, by decide, by decide⟩⟩
  exact (ungrouped_placement_exact logoBase64 logoSha256 .default (labelWith sliver) accepted sliver
    List.mem_cons_self rfl 254 none).mpr placeable

-- a corner is half a size away from a rounded centre, and a size is a dot at least
example : placementPx sliver.common 254 (labelWith sliver) none = ⟨⟨1, 0, 1, 1, 0⟩, true⟩ := by
  decide +kernel

/-- A box of a millimetre, `x` micrometres to the right. -/
def boxAt (x : Int64) : Element :=
  .rectangle { id := "box", transform := ⟨x, 0, 1000, 1000, 0⟩, zOrder := 0 } 1 false

/-- A box `2 ^ 32` dots to the right is drawn at the left edge, and twice a position of
`2 ^ 62` is no `i64`. -/
theorem far_box_not_placed :
    validate logoBase64 logoSha256 (labelWith (boxAt 429496729600)) = .ok () ∧
      placementPx (boxAt 429496729600).common 254 (labelWith (boxAt 429496729600)) none =
        ⟨⟨0, 0, 10, 10, 0⟩, false⟩ ∧
      validate logoBase64 logoSha256 (labelWith (boxAt (2 ^ 62))) = .ok () ∧
      placementPx (boxAt (2 ^ 62)).common 254 (labelWith (boxAt (2 ^ 62))) none =
        ⟨⟨-1030792151, 0, 10, 10, 0⟩, false⟩ := by
  refine ⟨by decide +kernel, by decide +kernel, by decide +kernel, by decide +kernel⟩

end PrinterSdk.Render
