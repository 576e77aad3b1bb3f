import PrinterSdk.Label.Validate
import PrinterSdk.Render.Trigonometry

/-!
# Placements

An element is placed by the centre of its transform, in doubled micrometres.  The groups
above it turn and move the centre, the zone it is drawn in moves it once more, and the
corner of the placement is half a size away from the rounded centre.
-/

namespace PrinterSdk.Render

open PrinterSdk.Data PrinterSdk.Data.Tracked PrinterSdk.Label

/-- `Placement`. -/
structure Placement where
  x : Int32
  y : Int32
  w : Int32
  h : Int32
  rotationMillidegrees : Int32
  deriving DecidableEq, Repr

/-- `rotate_fixed`. -/
def rotateFixed (x y : Int64) (angle : Int32) : Tracked (Int64 × Int64) := do
  let cos := (fixedTrig angle).1
  let sin := (fixedTrig angle).2
  let across ← asI64 (roundedRatio (cos * x.toInt - sin * y.toInt) trigScale)
  let down ← asI64 (roundedRatio (sin * x.toInt + cos * y.toInt) trigScale)
  return (across, down)

/-- The variables `cx2`, `cy2` and `rotation` of `placement_px`. -/
structure Pose where
  cx2 : Int64
  cy2 : Int64
  rotation : Int32
  deriving DecidableEq, Repr

/-- `2 * position + size`. -/
def doubledCentre (position size : Int64) : Tracked Int64 := do
  let doubled ← double64 position
  add64 doubled size

/-- The pose of an element before its groups. -/
def ownPose (transform : Transform) : Tracked Pose := do
  let cx2 ← doubledCentre transform.x transform.width
  let cy2 ← doubledCentre transform.y transform.height
  return ⟨cx2, cy2, transform.rotationMillidegrees⟩

/-- One turn of the loop over the groups.  `wrapping_add` adds the rotations. -/
def groupPose (group : Transform) (pose : Pose) : Tracked Pose := do
  let left ← sub64 pose.cx2 group.width
  let top ← sub64 pose.cy2 group.height
  let turned ← rotateFixed left top group.rotationMillidegrees
  let across ← doubledCentre group.x group.width
  let cx2 ← add64 across turned.1
  let down ← doubledCentre group.y group.height
  let cy2 ← add64 down turned.2
  return ⟨cx2, cy2, pose.rotation + group.rotationMillidegrees⟩

/-- The loop over the groups; `rounds` is what is left of the depth of 32. -/
def groupsPose (elements : List Element) : Nat → Option String → Pose → Tracked Pose
  | 0, _, pose => pure pose
  | _ + 1, none, pose => pure pose
  | rounds + 1, some id, pose =>
      match findElement elements id with
      | none => pure pose
      | some group => do
          let pose ← groupPose group.common.transform pose
          groupsPose elements rounds group.common.groupId pose

/-- The zone whose offset counts: the one that is asked for, or else the own one. -/
def placedZone (common : Common) (document : Document) (zoneOverride : Option String) :
    Option Zone :=
  (zoneOverride.or (common.constraints.bind Constraints.zone)).bind fun id =>
    document.media.zones.find? fun zone => zone.id = id

/-- `centre += 2 * position`. -/
def shifted (centre position : Int64) : Tracked Int64 := do
  let doubled ← double64 position
  add64 centre doubled

/-- The pose within a zone, if there is one. -/
def zonePose (zone : Option Zone) (pose : Pose) : Tracked Pose :=
  match zone with
  | none => pure pose
  | some zone => do
      let cx2 ← shifted pose.cx2 zone.bounds.x
      let cy2 ← shifted pose.cy2 zone.bounds.y
      return ⟨cx2, cy2, pose.rotation⟩

/-- The dots of a size, at least one. -/
def sizeDots (size : Int64) (dpi : UInt16) : Tracked Int32 := do
  let dots ← asI64 (roundedRatio (size.toInt * dpi.toNat) 25400)
  asI32 (max dots 1)

/-- The dots of a doubled centre. -/
def centreDots (centre : Int64) (dpi : UInt16) : Tracked Int32 := do
  let dots ← asI64 (roundedRatio (centre.toInt * dpi.toNat) 50800)
  asI32 dots

/-- What `placement_px` does with the pose. -/
def posePlacement (transform : Transform) (dpi : UInt16) (pose : Pose) : Tracked Placement := do
  let w ← sizeDots transform.width dpi
  let h ← sizeDots transform.height dpi
  let centerX ← centreDots pose.cx2 dpi
  let centerY ← centreDots pose.cy2 dpi
  let x ← sub32 centerX (w / 2)
  let y ← sub32 centerY (h / 2)
  return ⟨x, y, w, h, .ofInt (pose.rotation.toInt % 360000)⟩

/-- The pose of an element with its groups and its zone. -/
def fullPose (common : Common) (document : Document) (zoneOverride : Option String) :
    Tracked Pose := do
  let own ← ownPose common.transform
  let grouped ← groupsPose document.elements 32 common.groupId own
  zonePose (placedZone common document zoneOverride) grouped

/-- `placement_px`. -/
def placementPx (common : Common) (dpi : UInt16) (document : Document)
    (zoneOverride : Option String) : Tracked Placement := do
  let pose ← fullPose common document zoneOverride
  posePlacement common.transform dpi pose

end PrinterSdk.Render
