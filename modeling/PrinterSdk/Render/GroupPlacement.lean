import PrinterSdk.Render.PlacementExact

/-!
# Placements in groups

A group turns what is in it about its centre and moves it with itself.  `placement_px`
composes what the innermost 32 groups above an element do; other walks of the renderer
see all groups above an element.
-/

namespace PrinterSdk.Render

open PrinterSdk.Data PrinterSdk.Data.Tracked PrinterSdk.Label

/-- The groups above an element, from the innermost one. -/
inductive Ancestors (document : Document) : Element → List Element → Prop where
  | top {element : Element} (free : element.common.groupId = none) : Ancestors document element []
  | inside {element group : Element} {rest : List Element} (parent : Parent document element group)
      (higher : Ancestors document group rest) : Ancestors document element (group :: rest)

/-- The groups above an element, from the innermost one, within some rounds. -/
def groupsAbove (elements : List Element) : Nat → Element → List Element
  | 0, _ => []
  | rounds + 1, element =>
      match parentOf elements element with
      | none => []
      | some parent => parent :: groupsAbove elements rounds parent

/-- `rotate_fixed` in exact arithmetic. -/
def rotateExact (x y : Int) (angle : Int32) : Int × Int :=
  (roundedRatio ((fixedTrig angle).1 * x - (fixedTrig angle).2 * y) trigScale,
    roundedRatio ((fixedTrig angle).2 * x + (fixedTrig angle).1 * y) trigScale)

namespace ExactPose

/-- The pose is turned about the centre of a group, and moved with the group. -/
def inGroup (pose : ExactPose) (group : Transform) : ExactPose :=
  let turned := rotateExact (pose.cx2 - group.width.toInt) (pose.cy2 - group.height.toInt)
    group.rotationMillidegrees
  { cx2 := 2 * group.x.toInt + group.width.toInt + turned.1
    cy2 := 2 * group.y.toInt + group.height.toInt + turned.2
    rotation := pose.rotation + group.rotationMillidegrees.toInt }

/-- The pose within groups, from the innermost one. -/
def inGroups (pose : ExactPose) (groups : List Element) : ExactPose :=
  groups.foldl (fun pose group => pose.inGroup group.common.transform) pose

end ExactPose

/-- The dots of a transform at a pose. -/
def placedAt (transform : Transform) (dpi : UInt16) (pose : ExactPose) : Placement :=
  let w := (max (micrometresToDots transform.width dpi) 1).toInt32
  let h := (max (micrometresToDots transform.height dpi) 1).toInt32
  { x := (roundRatio (pose.cx2 * dpi.toNat) 50800).toInt32 - w / 2
    y := (roundRatio (pose.cy2 * dpi.toNat) 50800).toInt32 - h / 2
    w, h
    rotationMillidegrees := .ofInt (pose.rotation % 360000) }

theorem value_posePlacement {pose : Pose} {exact : ExactPose} (shows : pose.Shows exact)
    (transform : Transform) (dpi : UInt16) :
    (posePlacement transform dpi pose).value = placedAt transform dpi exact := by
  obtain ⟨across, down, rotation⟩ := shows
  unfold placedAt
  rw [← across, ← down, ← rotation]
  rfl

/-! ## One group -/

theorem yields_rotateFixed {x y : Int64} {x' y' : Int} (across : x.toInt = x') (down : y.toInt = y')
    (angle : Int32) :
    Yields (rotateFixed x y angle)
      (IsI64 (rotateExact x' y' angle).1 ∧ IsI64 (rotateExact x' y' angle).2) fun turned =>
        turned.1.toInt = (rotateExact x' y' angle).1 ∧
          turned.2.toInt = (rotateExact x' y' angle).2 := by
  subst across
  subst down
  have turned := (yields_asI64 (rotateExact x.toInt y.toInt angle).1).bind fun right across =>
    (yields_asI64 (rotateExact x.toInt y.toInt angle).2).bind fun bottom down =>
      yields_pure (right, bottom) (fun turned =>
        turned.1.toInt = (rotateExact x.toInt y.toInt angle).1 ∧
          turned.2.toInt = (rotateExact x.toInt y.toInt angle).2) ⟨across, down⟩
  apply turned.mono
  · exact and_congr_right fun _ => and_iff_left trivial
  · exact fun _ _ same => same

/-- The pose in a group can be computed in `i64`. -/
structure GroupFits (group : Transform) (pose : ExactPose) : Prop where
  left : IsI64 (pose.cx2 - group.width.toInt)
  top : IsI64 (pose.cy2 - group.height.toInt)
  turned : IsI64 (rotateExact (pose.cx2 - group.width.toInt) (pose.cy2 - group.height.toInt)
      group.rotationMillidegrees).1 ∧
    IsI64 (rotateExact (pose.cx2 - group.width.toInt) (pose.cy2 - group.height.toInt)
      group.rotationMillidegrees).2
  centre : CentreFits group
  across : IsI64 (pose.inGroup group).cx2
  down : IsI64 (pose.inGroup group).cy2

theorem yields_groupPose {pose : Pose} {exact : ExactPose} {group : Transform}
    (shows : pose.Shows exact)
    (turns : IsI32 (exact.rotation + group.rotationMillidegrees.toInt)) :
    Yields (groupPose group pose) (GroupFits group exact) fun inside =>
      inside.Shows (exact.inGroup group) := by
  have rotation : (pose.rotation + group.rotationMillidegrees).toInt =
      exact.rotation + group.rotationMillidegrees.toInt := by
    rw [Int32.toInt_add, shows.rotation]
    exact Int.bmod_eq_of_le turns.1 turns.2
  have poses := (yields_sub64 shows.across rfl).bind fun left across =>
    (yields_sub64 shows.down rfl).bind fun top down =>
    (yields_rotateFixed across down group.rotationMillidegrees).bind fun turned same =>
    (yields_doubledCentre group.x group.width).bind fun middle centre =>
    (yields_add64 centre same.1).bind fun cx2 across =>
    (yields_doubledCentre group.y group.height).bind fun centre middle =>
    (yields_add64 middle same.2).bind fun cy2 down =>
      yields_pure (⟨cx2, cy2, pose.rotation + group.rotationMillidegrees⟩ : Pose)
        (fun inside => inside.Shows (exact.inGroup group)) ⟨across, down, rotation⟩
  apply poses.mono
  · constructor
    · rintro ⟨left, top, turned, centre, across, middle, down, -⟩
      exact ⟨left, top, turned, ⟨centre, middle⟩, across, down⟩
    · intro fits
      exact ⟨fits.left, fits.top, fits.turned, fits.centre.across, fits.across, fits.centre.down,
        fits.down, trivial⟩
  · exact fun _ _ same => same

/-! ## Bounds -/

/-- The value is at most a kilometre, in micrometres. -/
def Short (value : Int64) : Prop := |value.toInt| ≤ 1000000000

instance (value : Int64) : Decidable (Short value) := inferInstanceAs (Decidable (_ ≤ _))

/-- Positions and sizes of the elements, the zones and the medium are at most a kilometre. -/
structure Bounded (document : Document) : Prop where
  elements : ∀ element ∈ document.elements,
    Short element.common.transform.x ∧ Short element.common.transform.y ∧
      Short element.common.transform.width ∧ Short element.common.transform.height
  zones : ∀ zone ∈ document.media.zones, Short zone.bounds.x ∧ Short zone.bounds.y ∧
    Short zone.bounds.width ∧ Short zone.bounds.height
  media : Short document.media.width ∧ Short document.media.height

/-- How far from zero a doubled centre can be under a number of groups.  A rotation takes
it at most half as far again. -/
def reach : Nat → Int
  | 0 => 3000000000
  | groups + 1 => 3 * reach groups / 2 + 6000000000

theorem reach_pos (groups : Nat) : 0 ≤ reach groups := by
  induction groups with
  | zero => decide
  | succ groups ih =>
      rw [reach]
      omega

theorem reach_mono {fewer groups : Nat} (most : fewer ≤ groups) : reach fewer ≤ reach groups := by
  induction most with
  | refl => exact Int.le_refl _
  | @step groups _ ih =>
      have far := reach_pos groups
      rw [reach]
      omega

theorem reach_le {groups : Nat} (most : groups ≤ 32) : reach groups ≤ 2 ^ 60 :=
  (reach_mono most).trans (by decide +kernel)

/-- A sum of products with a cosine and a sine, rounded to the scale. -/
theorem abs_roundedRatio_le {cos sin x y bound : Int} (unit : |cos| + |sin| ≤ 1500000000)
    (near : |x| ≤ bound) (close : |y| ≤ bound) :
    |roundedRatio (cos * x + sin * y) trigScale| ≤ 3 * bound / 2 + 1 := by
  have positive : 0 < trigScale := by decide
  have nonneg : 0 ≤ bound := (abs_nonneg x).trans near
  have product : |cos * x + sin * y| ≤ 1500000000 * bound := by
    calc |cos * x + sin * y| ≤ |cos * x| + |sin * y| := abs_add_le _ _
      _ = |cos| * |x| + |sin| * |y| := by rw [abs_mul, abs_mul]
      _ ≤ |cos| * bound + |sin| * bound := add_le_add
          (mul_le_mul_of_nonneg_left near (abs_nonneg _))
          (mul_le_mul_of_nonneg_left close (abs_nonneg _))
      _ = (|cos| + |sin|) * bound := (add_mul _ _ _).symm
      _ ≤ 1500000000 * bound := mul_le_mul_of_nonneg_right unit nonneg
  obtain ⟨least, most⟩ := abs_le.mp product
  have scale : trigScale = 1000000000 := rfl
  have upper := roundedRatio_mono positive
    (by rw [scale]; omega : cos * x + sin * y ≤ trigScale * (3 * bound / 2 + 1))
  have lower := roundedRatio_mono positive
    (by rw [scale]; omega : trigScale * -(3 * bound / 2 + 1) ≤ cos * x + sin * y)
  rw [roundedRatio_mul positive] at upper lower
  exact abs_le.mpr ⟨lower, upper⟩

theorem abs_rotateExact_le {x y bound : Int} (near : |x| ≤ bound) (close : |y| ≤ bound)
    (angle : Int32) :
    |(rotateExact x y angle).1| ≤ 3 * bound / 2 + 1 ∧
      |(rotateExact x y angle).2| ≤ 3 * bound / 2 + 1 := by
  have unit := abs_add_abs_fixedTrig_le angle
  unfold rotateExact
  constructor
  · rw [sub_eq_add_neg, ← neg_mul]
    exact abs_roundedRatio_le (by rw [abs_neg]; exact unit) near close
  · exact abs_roundedRatio_le (by rw [add_comm]; exact unit) near close

/-- A pose under a number of groups. -/
structure Within (groups : Nat) (pose : ExactPose) : Prop where
  across : |pose.cx2| ≤ reach groups
  down : |pose.cy2| ≤ reach groups
  rotation : |pose.rotation| ≤ 360000 * (groups + 1)

theorem Within.near {groups : Nat} {pose : ExactPose} (within : Within groups pose)
    (few : groups ≤ 32) : |pose.cx2| ≤ 2 ^ 60 ∧ |pose.cy2| ≤ 2 ^ 60 :=
  ⟨within.across.trans (reach_le few), within.down.trans (reach_le few)⟩

/-- A transform of a bounded document that is valid. -/
structure Modest (transform : Transform) : Prop where
  x : Short transform.x
  y : Short transform.y
  width : Short transform.width
  height : Short transform.height
  rotation : |transform.rotationMillidegrees.toInt| ≤ 360000

theorem isI64_of_abs {value : Int} (near : |value| ≤ 2 ^ 62) : IsI64 value := by
  obtain ⟨least, most⟩ := abs_le.mp near
  exact ⟨by omega, by omega⟩

theorem Modest.own {transform : Transform} (modest : Modest transform) :
    CentreFits transform ∧ Within 0 (.own transform) := by
  obtain ⟨x, y, width, height, rotation⟩ := modest
  unfold Short at x y width height
  rw [abs_le] at x y width height
  refine ⟨⟨⟨⟨by omega, by omega⟩, by omega, by omega⟩, ⟨by omega, by omega⟩, by omega, by omega⟩,
    ?_, ?_, rotation⟩
  · change |2 * transform.x.toInt + transform.width.toInt| ≤ 3000000000
    exact abs_le.mpr ⟨by omega, by omega⟩
  · change |2 * transform.y.toInt + transform.height.toInt| ≤ 3000000000
    exact abs_le.mpr ⟨by omega, by omega⟩

/-- One more group keeps a pose within reach. -/
theorem Within.inGroup {groups : Nat} {pose : ExactPose} {group : Transform}
    (within : Within groups pose) (modest : Modest group) (room : groups < 32) :
    GroupFits group pose ∧ IsI32 (pose.rotation + group.rotationMillidegrees.toInt) ∧
      Within (groups + 1) (pose.inGroup group) := by
  obtain ⟨-, centre⟩ := modest.own
  have fits := modest.own.1
  have far := reach_le (Nat.le_of_lt room)
  have next : reach (groups + 1) = 3 * reach groups / 2 + 6000000000 := rfl
  have farther : reach (groups + 1) ≤ 2 ^ 60 := reach_le room
  have middle : |2 * group.x.toInt + group.width.toInt| ≤ 3000000000 := centre.across
  have centreY : |2 * group.y.toInt + group.height.toInt| ≤ 3000000000 := centre.down
  have near : |pose.cx2 - group.width.toInt| ≤ reach groups + 1000000000 :=
    (abs_sub _ _).trans (add_le_add within.across modest.width)
  have close : |pose.cy2 - group.height.toInt| ≤ reach groups + 1000000000 :=
    (abs_sub _ _).trans (add_le_add within.down modest.height)
  have turned := abs_rotateExact_le near close group.rotationMillidegrees
  have across : |(pose.inGroup group).cx2| ≤ reach (groups + 1) := by
    apply (abs_add_le _ _).trans
    apply (add_le_add middle turned.1).trans
    rw [next]
    omega
  have down : |(pose.inGroup group).cy2| ≤ reach (groups + 1) := by
    apply (abs_add_le _ _).trans
    apply (add_le_add centreY turned.2).trans
    rw [next]
    omega
  have rotation : |pose.rotation + group.rotationMillidegrees.toInt| ≤ 360000 * (groups + 1 + 1) := by
    apply (abs_add_le _ _).trans
    apply (add_le_add within.rotation modest.rotation).trans
    omega
  have large : ∀ {value : Int}, |value| ≤ 2 ^ 60 + 1000000000 → IsI64 value :=
    fun bound => isI64_of_abs (bound.trans (by decide))
  have turnedFits : ∀ {value : Int}, |value| ≤ 3 * (reach groups + 1000000000) / 2 + 1 →
      IsI64 value := fun bound => isI64_of_abs (bound.trans (by omega))
  refine ⟨⟨large (near.trans (by omega)), large (close.trans (by omega)),
    ⟨turnedFits turned.1, turnedFits turned.2⟩, fits, large (across.trans (by omega)),
    large (down.trans (by omega))⟩, ?_, ⟨across, down, ?_⟩⟩
  · obtain ⟨least, most⟩ := abs_le.mp rotation
    exact ⟨by omega, by omega⟩
  · rw [Nat.cast_succ]
    exact rotation

/-! ## All groups -/

section

variable {base64 : Base64} {sha256 : Sha256} {limits : ProcessingLimits} {document : Document}
  (valid : Valid base64 sha256 limits document)

include valid

theorem modest_of_valid (bounded : Bounded document) {element : Element}
    (member : element ∈ document.elements) : Modest element.common.transform := by
  obtain ⟨x, y, width, height⟩ := bounded.elements element member
  have clean := valid.transforms element member
  simp only [transformErrors, List.append_eq_nil_iff, failIf_eq_nil, not_or, Int32.not_lt,
    Int32.le_iff_toInt_le] at clean
  exact ⟨x, y, width, height, abs_le.mpr clean.2⟩

/-- The loop composes the groups that it has rounds for. -/
theorem groupsPose_exact (bounded : Bounded document) {rounds count : Nat}
    {element : Element} {groups : List Element} {pose : Pose} {exact : ExactPose}
    (ancestors : Ancestors document element groups) (shows : pose.Shows exact)
    (within : Within count exact) (room : count + rounds ≤ 32) :
    (groupsPose document.elements rounds element.common.groupId pose).exact = true ∧
      (groupsPose document.elements rounds element.common.groupId pose).value.Shows
        (exact.inGroups (groups.take rounds)) ∧
      |(exact.inGroups (groups.take rounds)).cx2| ≤ 2 ^ 60 ∧
      |(exact.inGroups (groups.take rounds)).cy2| ≤ 2 ^ 60 := by
  induction rounds generalizing element groups pose exact count with
  | zero => exact ⟨rfl, shows, within.near room⟩
  | succ rounds ih =>
      cases ancestors with
      | top free =>
          rw [free]
          exact ⟨rfl, shows, within.near (Nat.le_of_add_right_le room)⟩
      | @inside _ group rest parent higher =>
          have found := valid.ids.find parent.1
          have walk : groupsPose document.elements (rounds + 1) element.common.groupId pose =
              groupPose group.common.transform pose >>=
                groupsPose document.elements rounds group.common.groupId := by
            rw [parent.2, groupsPose, found]
          obtain ⟨fits, turns, farther⟩ :=
            within.inGroup (modest_of_valid valid bounded parent.1) (by omega)
          have one := yields_groupPose shows turns
          obtain ⟨exactly, inside, near⟩ := ih higher (one.value fits) farther (by omega)
          rw [walk, exact_bind]
          exact ⟨⟨one.exact_iff.mpr fits, exactly⟩, inside, near⟩

end

section

variable {base64 : Base64} {sha256 : Sha256} {limits : ProcessingLimits} {document : Document}
  (valid : Valid base64 sha256 limits document)

include valid

/-- The walk over the groups above an element finds all of them. -/
theorem ancestors_groupsAbove {rounds : Nat} {element : Element}
    (member : element ∈ document.elements)
    (enough : Chain.follow (parentOf document.elements) rounds
      (parentOf document.elements element) = none) :
    Ancestors document element (groupsAbove document.elements rounds element) := by
  induction rounds generalizing element with
  | zero => exact .top ((valid.parentOf_eq_none member).mp enough)
  | succ rounds ih =>
      rw [groupsAbove]
      cases above : parentOf document.elements element with
      | none => exact .top ((valid.parentOf_eq_none member).mp above)
      | some parent =>
          rw [above] at enough
          exact .inside (valid.ids.parent_iff.mpr above) (ih (mem_of_parentOf above) enough)

/-- The groups above an element are a list. -/
theorem exists_ancestors {element : Element} (member : element ∈ document.elements) :
    ∃ groups, Ancestors document element groups :=
  ⟨_, ancestors_groupsAbove valid member (valid.follow_parentOf element)⟩

omit valid in
/-- The offset of a zone of a bounded document can be added to a pose in reach. -/
theorem zoneFits_of_bounded (bounded : Bounded document) {common : Common}
    {zoneOverride : Option String} {pose : ExactPose}
    (near : |pose.cx2| ≤ 2 ^ 60 ∧ |pose.cy2| ≤ 2 ^ 60) :
    ∀ inside, placedZone common document zoneOverride = some inside → ZoneFits inside pose := by
  intro inside found
  obtain ⟨id, -, found⟩ := Option.bind_eq_some_iff.mp found
  obtain ⟨x, y, -⟩ := bounded.zones inside (List.mem_of_find?_eq_some found)
  unfold Short at x y
  rw [abs_le] at x y near
  obtain ⟨across, down⟩ := near
  rw [abs_le] at down
  exact ⟨⟨⟨by omega, by omega⟩, by omega, by omega⟩, ⟨by omega, by omega⟩, by omega, by omega⟩

/-- `placement_px` composes the innermost 32 groups, without loss. -/
theorem placementPx_groups (bounded : Bounded document) {element : Element}
    (member : element ∈ document.elements) {groups : List Element}
    (ancestors : Ancestors document element groups) (dpi : UInt16)
    (zoneOverride : Option String) :
    (fullPose element.common document zoneOverride).exact = true ∧
      (placementPx element.common dpi document zoneOverride).value =
        placedAt element.common.transform dpi
          (((ExactPose.own element.common.transform).inGroups (groups.take 32)).inZone
            (placedZone element.common document zoneOverride)) := by
  have modest := modest_of_valid valid bounded member
  obtain ⟨fits, within⟩ := modest.own
  have own := yields_ownPose element.common.transform
  obtain ⟨exactly, grouped, near⟩ :=
    groupsPose_exact valid bounded ancestors (own.value fits) within (Nat.le_of_eq (Nat.zero_add 32))
  have moved := yields_zonePose (placedZone element.common document zoneOverride) grouped
  have offset := @zoneFits_of_bounded _ bounded element.common zoneOverride _ near
  constructor
  · rw [fullPose, exact_bind, exact_bind]
    exact ⟨own.exact_iff.mpr fits, exactly, moved.exact_iff.mpr offset⟩
  · rw [placementPx, value_bind, fullPose, value_bind, value_bind]
    exact value_posePlacement (moved.value offset) _ _

end

/-- In bounded documents that are valid, elements with at most so many groups above them are
placed as all of these groups say. -/
def ComposesGroups (depth : Nat) : Prop :=
  ∀ (base64 : Base64) (sha256 : Sha256) (limits : ProcessingLimits) (document : Document),
    validateWithLimits base64 sha256 limits document = .ok () → Bounded document →
    ∀ element ∈ document.elements, ∀ groups, Ancestors document element groups →
      groups.length ≤ depth → ∀ (dpi : UInt16) (zoneOverride : Option String),
        (placementPx element.common dpi document zoneOverride).value =
          placedAt element.common.transform dpi
            (((ExactPose.own element.common.transform).inGroups groups).inZone
              (placedZone element.common document zoneOverride))

/-! ## Deep documents -/

/-- The names of the groups of the deep label, from the outermost one. -/
def deepNames : List String :=
  ["a", "b", "c", "d", "e", "f", "g", "h", "i", "j", "k", "l", "m", "n", "o", "p", "q", "r", "s",
    "t", "u", "v", "w", "x", "y", "z", "A", "B", "C", "D", "E", "F", "G"]

/-- A group at the origin but for the outermost one, which is two centimetres away. -/
def deepGroup (parent : Option String) (name child : String) : Element :=
  .group
    { id := name
      transform := ⟨if parent.isNone then 20000 else 0, 0, 1000, 1000, 0⟩
      zOrder := 0
      groupId := parent }
    [child]

/-- Groups within each other, with a box within the last one. -/
def deepElements : Option String → List String → List Element
  | parent, [] => [.rectangle
      { id := "box", transform := ⟨0, 0, 1000, 1000, 0⟩, zOrder := 0, groupId := parent } 1 false]
  | parent, name :: names =>
      deepGroup parent name (names.headD "box") :: deepElements (some name) names

/-- A label with a box within 33 groups. -/
def deepLabel : Document where
  version := 4
  name := "Label"
  media := twoZones
  elements := deepElements none deepNames

/-- The box within the 33 groups. -/
def deepBox : Element :=
  .rectangle { id := "box", transform := ⟨0, 0, 1000, 1000, 0⟩, zOrder := 0, groupId := some "G" }
    1 false

theorem deepLabel_accepted :
    validateWithLimits logoBase64 logoSha256 .default deepLabel = .ok () := by
  decide +kernel

theorem deepLabel_bounded : Bounded deepLabel where
  elements := by decide +kernel
  zones := by decide +kernel
  media := by decide +kernel

/-- The groups of the deep label, from the innermost one. -/
def deepGroups : List Element := groupsAbove deepLabel.elements 34 deepBox

theorem deepBox_ancestors : deepBox ∈ deepLabel.elements ∧
    Ancestors deepLabel deepBox deepGroups ∧ deepGroups.length = 33 := by
  have valid := (validateWithLimits_eq_ok _ _ _ _).mp deepLabel_accepted
  have member : deepBox ∈ deepLabel.elements := by decide +kernel
  exact ⟨member, ancestors_groupsAbove valid member (by decide +kernel), by decide +kernel⟩

/-- The box within 33 groups is placed at the edge of the label, and not where the outermost
group would have it. -/
theorem deep_box_misplaced :
    validateWithLimits logoBase64 logoSha256 .default deepLabel = .ok () ∧ Bounded deepLabel ∧
      deepBox ∈ deepLabel.elements ∧ Ancestors deepLabel deepBox deepGroups ∧
      (placementPx deepBox.common deepLabel.media.dpi deepLabel none).value.x = 0 ∧
      (placedAt deepBox.common.transform deepLabel.media.dpi
        (((ExactPose.own deepBox.common.transform).inGroups deepGroups).inZone
          (placedZone deepBox.common deepLabel none))).x = 160 := by
  obtain ⟨member, ancestors, -⟩ := deepBox_ancestors
  exact ⟨deepLabel_accepted, deepLabel_bounded, member, ancestors, by decide +kernel,
    by decide +kernel⟩

/-- Elements with at most so many groups above them are placed as all of these groups say, for
the depths up to 32 and for no greater one.  Whatever the depth, the elements of a bounded
document are placed as the innermost 32 of their groups say, without loss in the composition. -/
theorem group_placement_iff (depth : Nat) :
    (ComposesGroups depth ↔ depth ≤ 32) ∧
    ∀ (base64 : Base64) (sha256 : Sha256) (limits : ProcessingLimits) (document : Document),
      validateWithLimits base64 sha256 limits document = .ok () → Bounded document →
      ∀ element ∈ document.elements, ∃ groups, Ancestors document element groups ∧
        ∀ (dpi : UInt16) (zoneOverride : Option String),
          (fullPose element.common document zoneOverride).exact = true ∧
          (placementPx element.common dpi document zoneOverride).value =
            placedAt element.common.transform dpi
              (((ExactPose.own element.common.transform).inGroups (groups.take 32)).inZone
                (placedZone element.common document zoneOverride)) := by
  constructor
  · constructor
    · intro composes
      by_contra deep
      obtain ⟨member, ancestors, many⟩ := deepBox_ancestors
      have same := composes logoBase64 logoSha256 .default deepLabel deepLabel_accepted
        deepLabel_bounded deepBox member deepGroups ancestors (by omega) 203 none
      have left : (placementPx deepBox.common 203 deepLabel none).value.x = 0 := by decide +kernel
      rw [same] at left
      exact absurd left (by decide +kernel)
    · intro shallow base64 sha256 limits document accepted bounded element member groups ancestors
        few dpi zoneOverride
      have valid := (validateWithLimits_eq_ok _ _ _ _).mp accepted
      have placed := (placementPx_groups valid bounded member ancestors dpi zoneOverride).2
      rwa [List.take_of_length_le (few.trans shallow)] at placed
  · intro base64 sha256 limits document accepted bounded element member
    have valid := (validateWithLimits_eq_ok _ _ _ _).mp accepted
    obtain ⟨groups, ancestors⟩ := exists_ancestors valid member
    exact ⟨groups, ancestors, placementPx_groups valid bounded member ancestors⟩

end PrinterSdk.Render
