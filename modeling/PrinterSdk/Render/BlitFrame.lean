import PrinterSdk.Data.InPlace
import PrinterSdk.Render.Pixels

/-!
# What blitting leaves behind

A raster is copied into another one row by row.  All checks are made before the first row, so
that a copy that fails has changed nothing.
-/

namespace PrinterSdk.Render.MonoRaster

open PrinterSdk.Data

/-- `MonoRaster::blit`, with what it leaves of the destination. -/
def blitInPlace (source : MonoRaster) (x y : UInt32) : InPlace MonoRaster RasterError Unit := do
  let destination ← InPlace.get
  InPlace.of (destination.validate.mapError .error)
  InPlace.of (source.validate.mapError .error)
  let right ← InPlace.of (okOr (checkedAddU32 x source.width) (.error .placement))
  let bottom ← InPlace.of (okOr (checkedAddU32 y source.height) (.error .placement))
  InPlace.of (refuseIf (right > destination.width ∨ bottom > destination.height)
    (.error .placement))
  InPlace.each (fun row => InPlace.change fun raster => do
    let pixels ← raster.blitRow source x y raster.pixels row
    return { raster with pixels }) (List.range source.height.toNat)

/-- The source is inside the destination at an origin. -/
def FitsAt (destination source : MonoRaster) (x y : UInt32) : Prop :=
  x.toNat + source.width.toNat ≤ destination.width.toNat ∧
    y.toNat + source.height.toNat ≤ destination.height.toNat

section

variable {destination source : MonoRaster} {x y : UInt32}

/-- A row of a source that fits is copied. -/
theorem blitRow_eq {cell : Nat → Nat → UInt8} (fits : destination.FitsAt source x y)
    (cells : source.pixels = tabulate source.width.toNat source.height.toNat cell)
    {pixels : List UInt8} {row : Nat} (inside : row < source.height.toNat)
    (length : pixels.length = destination.height.toNat * destination.width.toNat) :
    destination.blitRow source x y pixels row =
      .ok (splice pixels ((y.toNat + row) * destination.width.toNat + x.toNat)
        ((List.range source.width.toNat).map fun index => cell index row)) := by
  obtain ⟨across, down⟩ := fits
  have sized : source.pixels.length = source.height.toNat * source.width.toNat := by
    rw [cells, length_tabulate]
  have sourceRow : row * source.width.toNat + source.width.toNat ≤
      source.height.toNat * source.width.toNat := by
    rw [← Nat.succ_mul]
    exact Nat.mul_le_mul_right _ inside
  have below : y.toNat + row < destination.height.toNat := by omega
  have destinationRow := piece_le across below
  have sourceBound := pixels_le_usizeMax source.height source.width
  have destinationBound := pixels_le_usizeMax destination.height destination.width
  have machine : y.toNat + row ≤ usizeMax := by
    have high := destination.height.toNat_lt
    have room : 2 ^ 32 ≤ usizeMax := by decide
    omega
  have slice : (source.pixels.drop (row * source.width.toNat)).take source.width.toNat =
      (List.range source.width.toNat).map fun index => cell index row := by
    rw [cells]
    exact row_tabulate inside
  simp only [blitRow, except_bind_eq_ok, okOr_eq_ok]
  refine ⟨_, checkedMul_eq_some.mpr ⟨by omega, rfl⟩,
    (y.toNat + row) * destination.width.toNat + x.toNat, ?_, _, sliceAt_of_le (by omega), ?_⟩
  · rw [checkedAdd_eq_some.mpr ⟨machine, rfl⟩, Option.bind_some,
      checkedMul_eq_some.mpr ⟨by omega, rfl⟩, Option.bind_some]
    exact checkedAdd_eq_some.mpr ⟨by omega, rfl⟩
  · rw [slice]
    apply copyInto_of_le
    rw [List.length_map, List.length_range]
    omega

/-- The pixels of a destination after a source was copied. -/
def blittedPixels (destination source : MonoRaster) (x y : UInt32) : List UInt8 :=
  tabulate destination.width.toNat destination.height.toNat
    (overlay x.toNat y.toNat source.width.toNat source.height.toNat
      (fun i j => (source.pixel i j).getD 0) fun i j => (destination.pixel i j).getD 0)

theorem blitRows_eq (valid : destination.validate = .ok ()) (sound : source.validate = .ok ())
    (fits : destination.FitsAt source x y) :
    (List.range source.height.toNat).foldlM (destination.blitRow source x y) destination.pixels =
      .ok (destination.blittedPixels source x y) := by
  have start := pixels_eq_tabulate valid
  have loop := @copyRows_total _ _ _ _ _ _ _ _ (destination.blitRow source x y)
    (fun i j => (source.pixel i j).getD 0) (fun i j => (destination.pixel i j).getD 0)
    fits.1 fits.2 fun pixels row inside length =>
      blitRow_eq fits (pixels_eq_tabulate sound) inside length
  rw [← start] at loop
  exact loop

/-- The loop over the rasters is the loop over their pixels. -/
theorem blitRasters_eq (destination source : MonoRaster) (x y : UInt32) (rows : List Nat)
    (pixels : List UInt8) :
    rows.foldlM (fun raster row => do
      let pixels ← raster.blitRow source x y raster.pixels row
      return { raster with pixels }) { destination with pixels } =
      rows.foldlM (destination.blitRow source x y) pixels >>= fun last =>
        .ok { destination with pixels := last } := by
  induction rows generalizing pixels with
  | nil => rfl
  | cons row rest ih =>
      rw [List.foldlM_cons, List.foldlM_cons]
      change (destination.blitRow source x y pixels row >>= _) >>= _ = _
      cases destination.blitRow source x y pixels row with
      | error fault => rfl
      | ok next => exact ih next

/-- What is left in place is what blitting returns. -/
theorem result_blitInPlace (destination source : MonoRaster) (x y : UInt32) :
    (blitInPlace source x y).result destination = destination.blit source x y := by
  have loop : (List.range source.height.toNat).foldlM (fun raster row => do
      let pixels ← raster.blitRow source x y raster.pixels row
      return { raster with pixels }) destination =
      (List.range source.height.toNat).foldlM (destination.blitRow source x y)
        destination.pixels >>= fun last => .ok { destination with pixels := last } :=
    blitRasters_eq destination source x y (List.range source.height.toNat) destination.pixels
  change (InPlace.of _ >>= _).result destination = _
  simp only [InPlace.result_of_bind, InPlace.result_each_change, loop]
  rfl

/-- A source that fits is copied. -/
theorem blit_of_fits (valid : destination.validate = .ok ()) (sound : source.validate = .ok ())
    (fits : destination.FitsAt source x y) :
    destination.blit source x y =
      .ok { destination with pixels := destination.blittedPixels source x y } := by
  have across := destination.width.toNat_lt
  have down := destination.height.toNat_lt
  have right : checkedAddU32 x source.width = some (x + source.width) :=
    if_pos (Nat.lt_of_le_of_lt fits.1 across)
  have bottom : checkedAddU32 y source.height = some (y + source.height) :=
    if_pos (Nat.lt_of_le_of_lt fits.2 down)
  have inside : ¬(x + source.width > destination.width ∨ y + source.height > destination.height) := by
    have far := checkedAddU32_eq_some.mp right
    have low := checkedAddU32_eq_some.mp bottom
    simp only [GT.gt, UInt32.lt_iff_toNat_lt, ← far, ← low, not_or, Nat.not_lt]
    exact fits
  simp only [blit, except_bind_eq_ok, except_mapError_eq_ok, okOr_eq_ok, refuseIf_eq_ok,
    except_pure_eq_ok]
  exact ⟨(), valid, (), sound, _, right, _, bottom, (), inside, _, blitRows_eq valid sound fits,
    rfl⟩

theorem exists_error {checked : Except RasterError Unit} (failed : checked ≠ .ok ()) :
    ∃ error, checked = .error error := by
  cases checked with
  | error error => exact ⟨error, rfl⟩
  | ok value => exact absurd rfl failed

/-- A check that fails returns its error before anything is copied. -/
theorem blitInPlace_of_refused
    (refused : ¬(destination.validate = .ok () ∧ source.validate = .ok () ∧
      destination.FitsAt source x y)) :
    ∃ error, (blitInPlace source x y).run destination = (.error (.error error), destination) := by
  rw [blitInPlace, InPlace.run_get_bind]
  by_cases valid : destination.validate = .ok ()
  · rw [InPlace.run_of_bind_ok (except_mapError_eq_ok.mpr valid)]
    by_cases sound : source.validate = .ok ()
    · rw [InPlace.run_of_bind_ok (except_mapError_eq_ok.mpr sound)]
      cases right : checkedAddU32 x source.width with
      | none => exact ⟨.placement, InPlace.run_of_bind_error rfl _ _⟩
      | some far =>
          rw [InPlace.run_of_bind_ok ((okOr_eq_ok _ _ far).mpr rfl)]
          cases bottom : checkedAddU32 y source.height with
          | none => exact ⟨.placement, InPlace.run_of_bind_error rfl _ _⟩
          | some low =>
              rw [InPlace.run_of_bind_ok ((okOr_eq_ok _ _ low).mpr rfl)]
              have outside : far > destination.width ∨ low > destination.height := by
                apply Classical.not_not.mp
                intro inside
                apply refused
                rw [checkedAddU32_eq_some] at right bottom
                simp only [GT.gt, UInt32.lt_iff_toNat_lt, not_or, Nat.not_lt] at inside
                rw [← right, ← bottom] at inside
                exact ⟨valid, sound, inside⟩
              exact ⟨.placement, InPlace.run_of_bind_error
                ((refuseIf_eq_error _ _ _).mpr ⟨outside, rfl⟩) _ _⟩
    · obtain ⟨error, invalid⟩ := exists_error sound
      exact ⟨error, InPlace.run_of_bind_error (by rw [invalid]; rfl) _ _⟩
  · obtain ⟨error, invalid⟩ := exists_error valid
    exact ⟨error, InPlace.run_of_bind_error (by rw [invalid]; rfl) _ _⟩

end

/-- Blitting copies the source into its rectangle if both rasters are valid and the rectangle
is inside the destination; otherwise it returns an error.  Nothing else is changed. -/
theorem blit_frame (destination source : MonoRaster) (x y : UInt32) :
    (((blitInPlace source x y).run destination).1 = .ok () ↔
      destination.validate = .ok () ∧ source.validate = .ok () ∧
        x.toNat + source.width.toNat ≤ destination.width.toNat ∧
        y.toNat + source.height.toNat ≤ destination.height.toNat) ∧
    (∀ after, (blitInPlace source x y).run destination = (.ok (), after) →
      after.width = destination.width ∧ after.height = destination.height ∧
      after.pixels.length = destination.pixels.length ∧
      (∀ i j, i < source.width.toNat → j < source.height.toNat →
        after.pixel (x.toNat + i) (y.toNat + j) = source.pixel i j) ∧
      ∀ i j, i < destination.width.toNat → j < destination.height.toNat →
        ¬((x.toNat ≤ i ∧ i < x.toNat + source.width.toNat) ∧
          y.toNat ≤ j ∧ j < y.toNat + source.height.toNat) →
        after.pixel i j = destination.pixel i j) ∧
    ∀ fault after, (blitInPlace source x y).run destination = (.error fault, after) →
      after = destination ∧ ∃ error, fault = .error error := by
  by_cases accepted : destination.validate = .ok () ∧ source.validate = .ok () ∧
      destination.FitsAt source x y
  · obtain ⟨valid, sound, fits⟩ := accepted
    have copied := InPlace.run_of_result
      ((result_blitInPlace destination source x y).trans (blit_of_fits valid sound fits))
    refine ⟨⟨fun _ => ⟨valid, sound, fits⟩, fun _ => by rw [copied]⟩, ?_, ?_⟩
    · intro after ended
      rw [copied] at ended
      obtain rfl := (Prod.mk.inj ended).2
      refine ⟨rfl, rfl, ?_, ?_, ?_⟩
      · exact (length_tabulate ..).trans (validate_eq_ok valid).2.2.symm
      · intro i j across down
        obtain ⟨value, found⟩ := exists_pixel sound across down
        have inside := fits.1
        have below := fits.2
        refine (getElem?_tabulate (by omega) (by omega)).trans ?_
        rw [overlay_inside across down, found]
        rfl
      · intro i j across down outside
        obtain ⟨value, found⟩ := exists_pixel valid across down
        refine (getElem?_tabulate across down).trans ?_
        rw [overlay, if_neg outside, found]
        rfl
    · intro fault after failed
      rw [copied] at failed
      cases (Prod.mk.inj failed).1
  · obtain ⟨error, failed⟩ := blitInPlace_of_refused accepted
    refine ⟨⟨fun ended => ?_, fun passes => absurd passes accepted⟩, ?_, ?_⟩
    · rw [failed] at ended
      cases ended
    · intro after ended
      rw [failed] at ended
      cases (Prod.mk.inj ended).1
    · intro fault after ended
      rw [failed] at ended
      obtain ⟨same, rfl⟩ := Prod.mk.inj ended
      cases same
      exact ⟨rfl, error, rfl⟩

end PrinterSdk.Render.MonoRaster
