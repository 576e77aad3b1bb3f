import PrinterSdk.Data.Diffusion
import PrinterSdk.Render.Pixels
import Mathlib.Tactic.Ring

/-!
# Dithering

A gray raster becomes monochrome by a threshold, by an ordered matrix of thresholds or by
diffusing the error of each pixel.
-/

namespace PrinterSdk.Render

open PrinterSdk.Data

/-! ## Ordered dithering -/

/-- The matrix of `Dither::Bayer2`. -/
def bayer2 : List (List Nat) := [[0, 2], [3, 1]]

/-- The matrix of `Dither::Auto` and `Dither::Bayer4`. -/
def bayer4 : List (List Nat) :=
  [[0, 8, 2, 10], [12, 4, 14, 6], [3, 11, 1, 9], [15, 7, 13, 5]]

/-- The threshold of `ordered` at a pixel, computed with `u16`. -/
def orderedThreshold (m : List (List Nat)) (levels x y : Nat) : Outcome RasterError UInt8 := do
  let weight := (m.getD (y % m.length) []).getD (x % m.length) 0
  let total ← orPanic (weight * 256 + 128 < 2 ^ 16) (weight * 256 + 128)
  return .ofNat (total / levels)

/-- A turn of the loops of `ordered`. -/
def orderedPixel (r : GrayRaster) (m : List (List Nat)) (levels y : Nat) (out : List UInt8)
    (x : Nat) : Outcome RasterError (List UInt8) := do
  let threshold ← orderedThreshold m levels x y
  let value ← readAt r.pixels (y * r.width.toNat + x)
  writeAt out (y * r.width.toNat + x) (if value < threshold then 1 else 0)

/-- `ordered`. -/
def ordered (r : GrayRaster) (out : List UInt8) (m : List (List Nat)) (levels : Nat) :
    Outcome RasterError (List UInt8) :=
  gridLoop r.width.toNat r.height.toNat (orderedPixel r m levels) out

/-! ## Error diffusion -/

/-- The buffers of error diffusion: the pixels that are decided, and the `i32` numbers. -/
structure Diffusion where
  out : List UInt8
  work : List Int
  deriving DecidableEq, Repr

/-- `work[index]`, which panics out of bounds. -/
def readNumber (work : List Int) (index : Nat) : Outcome RasterError Int :=
  match work[index]? with
  | some number => .ok number
  | none => panics

/-- A product of `i32`, which panics outside them. -/
def mulI32OrPanic (left right : Int) : Outcome RasterError Int :=
  orPanic (IsI32 (left * right)) (left * right)

/-- A difference of `i32`, which panics outside them. -/
def subI32OrPanic (left right : Int) : Outcome RasterError Int :=
  orPanic (IsI32 (left - right)) (left - right)

/-- `work[index] += e * weight / 16`. -/
def addSixteenths (work : List Int) (index : Nat) (e weight : Int) :
    Outcome RasterError (List Int) := do
  let product ← mulI32OrPanic e weight
  addAt work index (product.tdiv 16)

/-- A turn of the loops of `Dither::FloydSteinberg`. -/
def floydSteinbergPixel (w h y : Nat) (state : Diffusion) (x : Nat) :
    Outcome RasterError Diffusion := do
  let i := y * w + x
  let number ← readNumber state.work i
  let old := min (max number 0) 4080
  let new := if old < 2048 then 0 else 4080
  let out ← writeAt state.out i (if new = 0 then 1 else 0)
  let e ← subI32OrPanic old new
  let work ← if x + 1 < w then addSixteenths state.work (i + 1) e 7 else pure state.work
  if y + 1 < h then do
    let work ← if x > 0 then addSixteenths work (i + w - 1) e 3 else pure work
    let work ← addSixteenths work (i + w) e 5
    let work ← if x + 1 < w then addAt work (i + w + 1) (e.tdiv 16) else pure work
    return ⟨out, work⟩
  else
    return ⟨out, work⟩

/-- The neighbours `(dx, dy)` that get the error in `Dither::Atkinson`. -/
def atkinsonNeighbours : List (Int × Int) := [(1, 0), (2, 0), (-1, 1), (0, 1), (1, 1), (0, 2)]

/-- A turn of the loops of `Dither::Atkinson`. -/
def atkinsonPixel (w h y : Nat) (state : Diffusion) (x : Nat) : Outcome RasterError Diffusion := do
  let i := y * w + x
  let number ← readNumber state.work i
  let old := min (max number 0) 2040
  let new := if old < 1024 then 0 else 2040
  let out ← writeAt state.out i (if new = 0 then 1 else 0)
  let difference ← subI32OrPanic old new
  let error := difference.tdiv 8
  let work ← atkinsonNeighbours.foldlM (fun work neighbour =>
    let nx := (x : Int) + neighbour.1
    let ny := (y : Int) + neighbour.2
    if nx ≥ 0 ∧ ny ≥ 0 ∧ nx.toNat < w ∧ ny.toNat < h then
      addAt work (ny.toNat * w + nx.toNat) error
    else pure work) state.work
  return ⟨out, work⟩

/-- The numbers of a raster at a scale. -/
def scaled (r : GrayRaster) (scale : Int) : List Int :=
  r.pixels.map fun value => (value.toNat : Int) * scale

/-- The pixels that `dither` decides, in a buffer. -/
def ditherInto (raster : GrayRaster) (out : List UInt8) : Dither → Outcome RasterError (List UInt8)
  | .auto => ordered raster out bayer4 16
  | .threshold t => return raster.pixels.map fun v => if v < t then 1 else 0
  | .bayer2 => ordered raster out bayer2 4
  | .bayer4 => ordered raster out bayer4 16
  | .floydSteinberg => do
      let state ← gridLoop raster.width.toNat raster.height.toNat
        (floydSteinbergPixel raster.width.toNat raster.height.toNat) ⟨out, scaled raster 16⟩
      return state.out
  | .atkinson => do
      let state ← gridLoop raster.width.toNat raster.height.toNat
        (atkinsonPixel raster.width.toNat raster.height.toNat) ⟨out, scaled raster 8⟩
      return state.out

/-- `GrayRaster::dither`. -/
def GrayRaster.dither (raster : GrayRaster) (mode : Dither) : Outcome RasterError MonoRaster := do
  raster.validate.mapError .error
  let out ← ditherInto raster (List.replicate raster.pixels.length 0) mode
  return ⟨raster.width, raster.height, out⟩

/-! ## What dithering decides -/

/-- A pixel for each one of a raster, white or black. -/
structure Dithered (raster : GrayRaster) (out : List UInt8) : Prop where
  length : out.length = raster.pixels.length
  bits : ∀ pixel ∈ out, pixel ≤ 1

/-- The pixels are black and white already. -/
def Bilevel (raster : GrayRaster) : Prop := ∀ pixel ∈ raster.pixels, pixel = 0 ∨ pixel = 255

instance (raster : GrayRaster) : Decidable (Bilevel raster) :=
  List.decidableBAll _ raster.pixels

/-- Black where a raster is zero. -/
def inked (raster : GrayRaster) : List UInt8 :=
  raster.pixels.map fun value => if value = 0 then 1 else 0

/-- A threshold that is not zero keeps black and white apart. -/
theorem threshold_bilevel {value threshold : UInt8} (positive : 0 < threshold)
    (bilevel : value = 0 ∨ value = 255) :
    (if value < threshold then 1 else 0 : UInt8) = if value = 0 then 1 else 0 := by
  rcases bilevel with rfl | rfl
  · rw [if_pos positive, if_pos rfl]
  · have most : ¬(255 : UInt8) < threshold := by
      rw [UInt8.lt_iff_toNat_lt, Nat.not_lt]
      exact Nat.le_of_lt_succ threshold.toNat_lt
    rw [if_neg most, if_neg (by decide)]

theorem threshold_dithered (raster : GrayRaster) (threshold : UInt8) :
    Dithered raster (raster.pixels.map fun value => if value < threshold then 1 else 0) where
  length := List.length_map ..
  bits := by
    intro pixel member
    obtain ⟨value, -, rfl⟩ := List.mem_map.mp member
    split <;> decide

/-! ### Ordered modes -/

/-- A matrix has positive thresholds only, and they are computed within `u16`. -/
def PositiveThresholds (m : List (List Nat)) (levels : Nat) (threshold : Nat → Nat → UInt8) :
    Prop :=
  ∀ x y, orderedThreshold m levels x y = .ok (threshold x y) ∧ 0 < threshold x y

theorem orderedThreshold_mod (m : List (List Nat)) (levels x y : Nat) :
    orderedThreshold m levels x y =
      orderedThreshold m levels (x % m.length) (y % m.length) := by
  rw [orderedThreshold, orderedThreshold, Nat.mod_mod, Nat.mod_mod]

/-- Thresholds are those of one tile. -/
theorem positive_of_tile {m : List (List Nat)} {levels : Nat} (filled : 0 < m.length)
    (tile : ∀ i j : Fin m.length,
      (orderedThreshold m levels i j).toOption.any (fun threshold => 0 < threshold) = true) :
    ∃ threshold, PositiveThresholds m levels threshold := by
  have every (x y : Nat) : ∃ threshold, orderedThreshold m levels x y = .ok threshold ∧
      0 < threshold := by
    have here := tile ⟨x % m.length, Nat.mod_lt _ filled⟩ ⟨y % m.length, Nat.mod_lt _ filled⟩
    rw [orderedThreshold_mod]
    cases computed : orderedThreshold m levels (x % m.length) (y % m.length) with
    | error fault =>
        simp only [computed] at here
        cases here
    | ok threshold =>
        simp only [computed] at here
        exact ⟨threshold, rfl, of_decide_eq_true here⟩
  choose threshold computed using every
  exact ⟨threshold, computed⟩

theorem positive_bayer2 : ∃ threshold, PositiveThresholds bayer2 4 threshold :=
  positive_of_tile (by decide) (by decide)

theorem positive_bayer4 : ∃ threshold, PositiveThresholds bayer4 16 threshold :=
  positive_of_tile (by decide) (by decide)

/-- An ordered mode compares every pixel with its threshold. -/
theorem ordered_eq_ok {raster : GrayRaster} (valid : raster.validate = .ok ())
    {m : List (List Nat)} {levels : Nat} {threshold : Nat → Nat → UInt8}
    (positive : PositiveThresholds m levels threshold) :
    ordered raster (List.replicate raster.pixels.length 0) m levels =
      .ok (tabulate raster.width.toNat raster.height.toNat fun x y =>
        if (raster.pixel x y).getD 0 < threshold x y then 1 else 0) := by
  obtain ⟨-, -, filled⟩ := GrayRaster.validate_iff.mp valid
  have place_lt (x y : Nat) (left : x < raster.width.toNat) (top : y < raster.height.toNat) :
      y * raster.width.toNat + x < raster.pixels.length := by
    rw [filled]
    exact cell_lt left top
  obtain ⟨out, ended, length, cells⟩ := gridLoop_scatter raster.width.toNat raster.height.toNat
    (orderedPixel raster m levels) (fun x y => y * raster.width.toNat + x)
    (fun x y => if (raster.pixel x y).getD 0 < threshold x y then 1 else 0)
    (List.length_replicate (n := raster.pixels.length) (a := (0 : UInt8)))
    (by
      intro x y state left top length
      have inside := place_lt x y left top
      have found := List.getElem?_eq_getElem inside
      rw [GrayRaster.pixel, found, Option.getD_some, orderedPixel, except_bind_eq_ok]
      refine ⟨_, (positive x y).1, ?_⟩
      rw [except_bind_eq_ok]
      exact ⟨_, readAt_eq_ok.mpr found, writeAt_of_lt (by rwa [length])⟩)
    place_lt
    (fun _ _ _ _ left _ within _ same => (cell_inj left within same).symm)
  rw [ordered, ended]
  congr 1
  exact eq_tabulate (by rw [length, filled]) cells

theorem ordered_total {raster : GrayRaster} (valid : raster.validate = .ok ())
    {m : List (List Nat)} {levels : Nat}
    (computed : ∃ threshold, PositiveThresholds m levels threshold) :
    ∃ out, ordered raster (List.replicate raster.pixels.length 0) m levels = .ok out ∧
      Dithered raster out ∧ (Bilevel raster → out = inked raster) := by
  obtain ⟨threshold, positive⟩ := computed
  have grid := GrayRaster.pixels_eq_tabulate valid
  obtain ⟨-, -, filled⟩ := GrayRaster.validate_iff.mp valid
  refine ⟨_, ordered_eq_ok valid positive, ⟨by rw [length_tabulate, filled], ?_⟩, ?_⟩
  · intro pixel member
    obtain ⟨x, y, -, -, rfl⟩ := mem_tabulate.mp member
    split <;> decide
  · intro bilevel
    rw [inked, grid, map_tabulate]
    apply tabulate_congr
    intro x y left top
    apply threshold_bilevel (positive x y).2
    apply bilevel
    rw [grid]
    exact mem_tabulate.mpr ⟨x, y, left, top, rfl⟩

/-! ### Error diffusion -/

/-- A turn of an error diffusion: the pixel is white from `half` on, and its error goes to
places ahead. -/
def diffusePixel (white half : Nat) (amounts : Nat → Nat → Int → List (Nat × Int)) (w y : Nat)
    (state : Diffusion) (x : Nat) : Outcome RasterError Diffusion := do
  let i := y * w + x
  let number ← readNumber state.work i
  let old : Int := min (max number 0) white
  let new : Int := if old < half then 0 else white
  let out ← writeAt state.out i (if new = 0 then 1 else 0)
  let work ← diffuse state.work i (amounts x y (old - new))
  return ⟨out, work⟩

/-- The amounts of `Dither::FloydSteinberg`, with their distances. -/
def floydSteinbergAmounts (w h x y : Nat) (e : Int) : List (Nat × Int) :=
  (if x + 1 < w then [(1, (e * 7).tdiv 16)] else []) ++
    if y + 1 < h then
      (if x > 0 then [(w - 1, (e * 3).tdiv 16)] else []) ++
        ((w, (e * 5).tdiv 16) :: if x + 1 < w then [(w + 1, e.tdiv 16)] else [])
    else []

theorem addSixteenths_eq {work : List Int} {index : Nat} {e weight : Int} (error : |e| ≤ 2 ^ 20)
    (light : 0 ≤ weight ∧ weight ≤ 16) :
    addSixteenths work index e weight = addAt work index ((e * weight).tdiv 16) := by
  have product : |e * weight| ≤ 2 ^ 24 := by
    rw [abs_mul, abs_of_nonneg light.1]
    calc |e| * weight ≤ 2 ^ 20 * 16 := Int.mul_le_mul error light.2 light.1 (by decide)
      _ = 2 ^ 24 := by decide
  have machine : IsI32 (e * weight) := by
    rw [abs_le] at product
    constructor <;> omega
  rw [addSixteenths, mulI32OrPanic, orPanic, if_pos machine]
  rfl

theorem floydSteinbergPixel_eq (w h y : Nat) (state : Diffusion) {x : Nat} (left : x < w) :
    floydSteinbergPixel w h y state x =
      diffusePixel (255 * 16) 2048 (floydSteinbergAmounts w h) w y state x := by
  unfold floydSteinbergPixel diffusePixel
  apply bind_congr
  intro number
  have white : ((255 * 16 : Nat) : Int) = 4080 := rfl
  simp only [Nat.cast_ofNat, white]
  generalize shown : min (max number 0) 4080 = old
  generalize chosen : (if old < 2048 then 0 else 4080 : Int) = new
  apply bind_congr
  intro out
  have error : |old - new| ≤ 2 ^ 20 := by
    rw [abs_le]
    split at chosen <;> omega
  have machine : IsI32 (old - new) := by
    rw [abs_le] at error
    constructor <;> omega
  have difference : subI32OrPanic old new = pure (old - new) := if_pos machine
  have below : y * w + (x + w) - 1 = y * w + (x + (w - 1)) := by omega
  simp only [difference, pure_bind, Nat.add_assoc, below,
    addSixteenths_eq error (by decide : (0 : Int) ≤ 7 ∧ (7 : Int) ≤ 16),
    addSixteenths_eq error (by decide : (0 : Int) ≤ 3 ∧ (3 : Int) ≤ 16),
    addSixteenths_eq error (by decide : (0 : Int) ≤ 5 ∧ (5 : Int) ≤ 16), floydSteinbergAmounts]
  by_cases right : x + 1 < w <;> by_cases down : y + 1 < h <;> by_cases inner : x > 0 <;>
    simp only [right, down, inner, if_true, if_false, List.nil_append, List.append_nil,
      List.cons_append, diffuse_nil, diffuse_cons, bind_assoc, pure_bind, Nat.add_assoc]

/-- Whether a neighbour of a pixel is in the raster. -/
def InRaster (w h x y : Nat) (neighbour : Int × Int) : Prop :=
  let nx := (x : Int) + neighbour.1
  let ny := (y : Int) + neighbour.2
  nx ≥ 0 ∧ ny ≥ 0 ∧ nx.toNat < w ∧ ny.toNat < h

instance (w h x y : Nat) (neighbour : Int × Int) : Decidable (InRaster w h x y neighbour) :=
  inferInstanceAs (Decidable (_ ∧ _ ∧ _ ∧ _))

/-- How far ahead a neighbour is in a row of `w` pixels. -/
def ahead (w : Nat) (neighbour : Int × Int) : Nat := (neighbour.2 * w + neighbour.1).toNat

/-- The amounts of `Dither::Atkinson`, with their distances. -/
def atkinsonAmounts (w h x y : Nat) (e : Int) : List (Nat × Int) :=
  (atkinsonNeighbours.filter fun neighbour => InRaster w h x y neighbour).map fun neighbour =>
    (ahead w neighbour, e.tdiv 8)

/-- A neighbour is at its distance from the pixel. -/
theorem place_add_ahead {w h x y : Nat} {neighbour : Int × Int}
    (member : neighbour ∈ atkinsonNeighbours) (inside : InRaster w h x y neighbour) :
    ((y : Int) + neighbour.2).toNat * w + ((x : Int) + neighbour.1).toNat =
      y * w + x + ahead w neighbour := by
  obtain ⟨across, down, left, -⟩ := inside
  have wide : (0 : Int) ≤ neighbour.2 * w + neighbour.1 := by
    have forward : ∀ other ∈ atkinsonNeighbours, 0 ≤ other.2 ∧ 0 ≤ other.2 + other.1 := by decide
    have filled : (1 : Int) ≤ w := by omega
    have row := Int.mul_le_mul_of_nonneg_left filled (forward neighbour member).1
    have ahead := (forward neighbour member).2
    omega
  rw [← Int.natCast_inj]
  push_cast
  rw [ahead, Int.toNat_of_nonneg across, Int.toNat_of_nonneg down, Int.toNat_of_nonneg wide]
  ring

theorem spread_eq {w h x y : Nat} {error : Int} {neighbours : List (Int × Int)}
    (among : ∀ neighbour ∈ neighbours, neighbour ∈ atkinsonNeighbours) (work : List Int) :
    neighbours.foldlM (fun work neighbour =>
        let nx := (x : Int) + neighbour.1
        let ny := (y : Int) + neighbour.2
        if nx ≥ 0 ∧ ny ≥ 0 ∧ nx.toNat < w ∧ ny.toNat < h then
          (addAt work (ny.toNat * w + nx.toNat) error : Outcome RasterError (List Int))
        else pure work) work =
      diffuse work (y * w + x) ((neighbours.filter fun neighbour =>
        InRaster w h x y neighbour).map fun neighbour => (ahead w neighbour, error)) := by
  induction neighbours generalizing work with
  | nil => rfl
  | cons neighbour rest ih =>
      have later (next : List Int) := ih (fun other member =>
        among other (List.mem_cons_of_mem _ member)) next
      rw [List.foldlM_cons]
      by_cases inside : InRaster w h x y neighbour
      · have place := place_add_ahead (among neighbour (List.mem_cons_self ..)) inside
        rw [List.filter_cons_of_pos (by simpa using inside), List.map_cons, diffuse_cons]
        simp only [InRaster] at inside
        simp only [later, place, if_pos inside]
      · rw [List.filter_cons_of_neg (by simpa using inside)]
        simp only [InRaster] at inside
        simp only [later, if_neg inside, pure_bind]

theorem atkinsonPixel_eq (w h y : Nat) (state : Diffusion) (x : Nat) :
    atkinsonPixel w h y state x = diffusePixel (255 * 8) 1024 (atkinsonAmounts w h) w y state x := by
  unfold atkinsonPixel diffusePixel
  apply bind_congr
  intro number
  have white : ((255 * 8 : Nat) : Int) = 2040 := rfl
  simp only [Nat.cast_ofNat, white]
  generalize shown : min (max number 0) 2040 = old
  generalize chosen : (if old < 1024 then 0 else 2040 : Int) = new
  apply bind_congr
  intro out
  have machine : IsI32 (old - new) := by
    split at chosen <;> constructor <;> omega
  have difference : subI32OrPanic old new = pure (old - new) := if_pos machine
  rw [difference, pure_bind, spread_eq (fun _ member => member)]
  rfl

/-- The error of a pixel goes to places of the raster at some of the distances, and no amount
is larger than it. -/
structure Spreads (w h : Nat) (distances : List Nat)
    (amounts : Nat → Nat → Int → List (Nat × Int)) : Prop where
  reached : ∀ x y e, ((amounts x y e).map Prod.fst).Sublist distances
  small : ∀ x y e, ∀ share ∈ amounts x y e, |share.2| ≤ |e|
  inside : ∀ x y e, x < w → y < h → ∀ share ∈ amounts x y e, y * w + x + share.1 < h * w

theorem abs_tdiv_le (number : Int) {weight unit : Nat} (less : weight ≤ unit) :
    |(number * weight).tdiv unit| ≤ |number| := by
  rw [Int.abs_eq_natAbs, Int.abs_eq_natAbs, Int.natAbs_tdiv, Int.natAbs_mul, Int.natAbs_natCast,
    Int.natAbs_natCast]
  apply Int.ofNat_le.mpr
  apply Nat.div_le_of_le_mul
  rw [Nat.mul_comm]
  exact Nat.mul_le_mul_right _ less

theorem mem_floydSteinbergAmounts {w h x y : Nat} {e : Int} {share : Nat × Int}
    (member : share ∈ floydSteinbergAmounts w h x y e) :
    (x + 1 < w ∧ share = (1, (e * 7).tdiv 16)) ∨ y + 1 < h ∧
      ((x > 0 ∧ share = (w - 1, (e * 3).tdiv 16)) ∨ share = (w, (e * 5).tdiv 16) ∨
        x + 1 < w ∧ share = (w + 1, e.tdiv 16)) := by
  simpa only [floydSteinbergAmounts, List.mem_append, List.mem_ite_nil_right, List.mem_cons,
    List.not_mem_nil, or_false] using member

theorem floydSteinberg_spreads (w h : Nat) :
    Spreads w h [1, w - 1, w, w + 1] (floydSteinbergAmounts w h) where
  reached := by
    intro x y e
    unfold floydSteinbergAmounts
    by_cases right : x + 1 < w <;> by_cases down : y + 1 < h <;> by_cases inner : x > 0 <;>
      simp [right, down, inner]
  small := by
    intro x y e share member
    obtain ⟨-, rfl⟩ | ⟨-, ⟨-, rfl⟩ | rfl | ⟨-, rfl⟩⟩ := mem_floydSteinbergAmounts member
    · exact abs_tdiv_le e (by decide : 7 ≤ 16)
    · exact abs_tdiv_le e (by decide : 3 ≤ 16)
    · exact abs_tdiv_le e (by decide : 5 ≤ 16)
    · have one := abs_tdiv_le e (by decide : 1 ≤ 16)
      rwa [Nat.cast_one, Int.mul_one] at one
  inside := by
    intro x y e left top share member
    have next : (y + 1) * w = y * w + w := Nat.succ_mul y w
    obtain ⟨right, rfl⟩ | ⟨down, ⟨inner, rfl⟩ | rfl | ⟨right, rfl⟩⟩ :=
      mem_floydSteinbergAmounts member
    · exact cell_lt right top
    · have place := cell_lt (Nat.lt_of_le_of_lt (Nat.sub_le x 1) left) down
      simp only []
      omega
    · have place := cell_lt left down
      simp only []
      omega
    · have place := cell_lt right down
      simp only []
      omega

theorem atkinson_spreads (w h : Nat) :
    Spreads w h (atkinsonNeighbours.map (ahead w)) (atkinsonAmounts w h) where
  reached := by
    intro x y e
    rw [atkinsonAmounts, List.map_map]
    exact List.filter_sublist.map _
  small := by
    intro x y e share member
    obtain ⟨neighbour, -, rfl⟩ := List.mem_map.mp member
    have eighth := abs_tdiv_le e (by decide : 1 ≤ 8)
    rwa [Nat.cast_one, Int.mul_one] at eighth
  inside := by
    intro x y e left top share member
    obtain ⟨neighbour, kept, rfl⟩ := List.mem_map.mp member
    obtain ⟨among, decided⟩ := List.mem_filter.mp kept
    have inside := of_decide_eq_true decided
    rw [← place_add_ahead among inside]
    exact cell_lt inside.2.2.1 inside.2.2.2

/-- What holds before a turn of an error diffusion.  Where every number is black or white, no
turn has changed one. -/
structure Diffused (base : List Int) (white half : Nat) (distances : List Nat) (turn : Nat)
    (state : Diffusion) : Prop where
  length : state.out.length = base.length
  bits : ∀ pixel ∈ state.out, pixel ≤ 1
  near : Near base state.work fun place => half * received distances turn place
  exact : (∀ start ∈ base, start = 0 ∨ start = white) → state.work = base ∧
    ∀ place < turn, state.out[place]? = base[place]?.map fun start => if start = 0 then 1 else 0

section

variable {w h white half : Nat} {distances : List Nat} {base : List Int}
  {amounts : Nat → Nat → Int → List (Nat × Int)}

theorem Diffused.turn {x y : Nat} {state : Diffusion} (spreads : Spreads w h distances amounts)
    (sized : base.length = h * w) (limited : ∀ start ∈ base, 0 ≤ start ∧ start ≤ white)
    (halves : 0 < half ∧ half ≤ white ∧ white ≤ 2 * half)
    (fits : white + half * distances.length < 2 ^ 31) (left : x < w) (top : y < h)
    (before : Diffused base white half distances (y * w + x) state) :
    ∃ next, diffusePixel white half amounts w y state x = .ok next ∧
      Diffused base white half distances (y * w + x + 1) next := by
  have place_lt : y * w + x < base.length := by
    rw [sized]
    exact cell_lt left top
  have present : y * w + x < state.work.length := by rwa [before.near.length]
  have found := List.getElem?_eq_getElem present
  generalize state.work[y * w + x] = number at found
  have read : readNumber state.work (y * w + x) = .ok number := by rw [readNumber, found]
  generalize shown : min (max number 0) (white : Int) = old
  generalize chosen : (if old < half then 0 else white : Int) = new
  have error : |old - new| ≤ half := by
    rw [abs_le]
    split at chosen <;> omega
  have small : ∀ share ∈ amounts x y (old - new), |share.2| ≤ half :=
    fun share member => (spreads.small x y _ share member).trans error
  have inside : ∀ share ∈ amounts x y (old - new), y * w + x + share.1 < base.length := by
    rw [sized]
    exact spreads.inside x y _ left top
  have low : ∀ start ∈ base, |start| ≤ white := by
    intro start member
    rw [abs_of_nonneg (limited start member).1]
    exact (limited start member).2
  obtain ⟨work, diffused, near⟩ :=
    before.near.turn (ε := RasterError) (spreads.reached x y _) small inside low fits
  have writable : y * w + x < state.out.length := by rwa [before.length]
  refine ⟨⟨state.out.set (y * w + x) (if new = 0 then 1 else 0), work⟩, ?_, ?_, ?_, near, ?_⟩
  · simp only [diffusePixel, read, shown, chosen, writeAt_of_lt writable, diffused, bind,
      Except.bind, pure, Except.pure]
  · rw [List.length_set, before.length]
  · intro pixel member
    obtain old | rfl := List.mem_or_eq_of_mem_set member
    · exact before.bits pixel old
    · split <;> decide
  · intro bilevel
    obtain ⟨same, decided⟩ := before.exact bilevel
    have origin : base[y * w + x]? = some number := by rwa [same] at found
    have kept : old = number ∧ new = number := by
      obtain rfl | rfl := bilevel number (List.mem_of_getElem? origin)
      · split at chosen <;> omega
      · split at chosen <;> omega
    obtain ⟨rfl, rfl⟩ := kept
    have idle : ∀ share ∈ amounts x y (new - new), share.2 = 0 := by
      intro share member
      have none := spreads.small x y _ share member
      rw [Int.sub_self, abs_zero] at none
      exact abs_nonpos_iff.mp none
    have unchanged : (diffuse base (y * w + x) (amounts x y (new - new)) :
        Outcome RasterError (List Int)) = .ok base :=
      diffuse_zero idle inside fun start member => by
        have bounds := limited start member
        constructor <;> omega
    rw [same, unchanged] at diffused
    refine ⟨(Except.ok.inj diffused).symm, ?_⟩
    intro place behind
    rcases Nat.lt_succ_iff_lt_or_eq.mp behind with earlier | rfl
    · rw [List.getElem?_set_ne (Nat.ne_of_gt earlier)]
      exact decided place earlier
    · rw [List.getElem?_set_self writable, origin]
      rfl

/-- An error diffusion over a whole raster. -/
theorem diffused_total {turn : Nat → Diffusion → Nat → Outcome RasterError Diffusion}
    (same : ∀ x y state, x < w → turn y state x = diffusePixel white half amounts w y state x)
    (spreads : Spreads w h distances amounts) (sized : base.length = h * w)
    (limited : ∀ start ∈ base, 0 ≤ start ∧ start ≤ white)
    (halves : 0 < half ∧ half ≤ white ∧ white ≤ 2 * half)
    (fits : white + half * distances.length < 2 ^ 31) :
    ∃ last, gridLoop w h turn ⟨List.replicate base.length 0, base⟩ = .ok last ∧
      Diffused base white half distances (h * w) last := by
  apply gridLoop_total w h turn (Diffused base white half distances)
  · refine ⟨List.length_replicate .., ?_, Near.refl base _, ?_⟩
    · intro pixel member
      rw [List.eq_of_mem_replicate member]
      decide
    · exact fun _ => ⟨rfl, fun place before => absurd before (Nat.not_lt_zero place)⟩
  · intro x y state left top before
    rw [same x y state left]
    exact before.turn spreads sized limited halves fits left top

end

/-- A diffusing mode decides every pixel, and black and white pixels as they are. -/
theorem diffusion_dithered {raster : GrayRaster} (valid : raster.validate = .ok ())
    {scale half : Nat} {distances : List Nat} {amounts : Nat → Nat → Int → List (Nat × Int)}
    {turn : Nat → Diffusion → Nat → Outcome RasterError Diffusion}
    (same : ∀ x y state, x < raster.width.toNat →
      turn y state x = diffusePixel (255 * scale) half amounts raster.width.toNat y state x)
    (spreads : Spreads raster.width.toNat raster.height.toNat distances amounts)
    (halves : 0 < half ∧ half ≤ 255 * scale ∧ 255 * scale ≤ 2 * half)
    (fits : 255 * scale + half * distances.length < 2 ^ 31) :
    ∃ state, gridLoop raster.width.toNat raster.height.toNat turn
        ⟨List.replicate raster.pixels.length 0, scaled raster scale⟩ = .ok state ∧
      Dithered raster state.out ∧ (Bilevel raster → state.out = inked raster) := by
  obtain ⟨-, -, filled⟩ := GrayRaster.validate_iff.mp valid
  have length : (scaled raster scale).length = raster.pixels.length := List.length_map ..
  have limited : ∀ start ∈ scaled raster scale, 0 ≤ start ∧ start ≤ (255 * scale : Nat) := by
    intro start member
    obtain ⟨value, -, rfl⟩ := List.mem_map.mp member
    have bound := Nat.mul_le_mul_right scale (Nat.le_of_lt_succ value.toNat_lt)
    exact ⟨Int.mul_nonneg (Int.natCast_nonneg _) (Int.natCast_nonneg _), by exact_mod_cast bound⟩
  obtain ⟨state, ended, after⟩ :=
    diffused_total same spreads (by rw [length, filled]) limited halves fits
  rw [length] at ended
  refine ⟨state, ended, ⟨by rw [after.length, length], after.bits⟩, ?_⟩
  intro bilevel
  have scaledBilevel : ∀ start ∈ scaled raster scale, start = 0 ∨ start = (255 * scale : Nat) := by
    intro start member
    obtain ⟨value, among, rfl⟩ := List.mem_map.mp member
    obtain rfl | rfl := bilevel value among
    · left
      simp
    · right
      simp
  obtain ⟨-, decided⟩ := after.exact scaledBilevel
  apply List.ext_getElem?
  intro place
  by_cases behind : place < raster.height.toNat * raster.width.toNat
  · rw [decided place behind, inked, scaled, List.getElem?_map, List.getElem?_map, Option.map_map]
    have ink (value : UInt8) : (value.toNat : Int) * scale = 0 ↔ value = 0 := by
      have positive : (scale : Int) ≠ 0 := by omega
      rw [Int.mul_eq_zero, or_iff_left positive, ← UInt8.toNat_inj]
      exact Int.natCast_eq_zero
    simp only [Function.comp_def, ink]
  · rw [List.getElem?_eq_none (by rw [after.length, length, filled]; omega),
      List.getElem?_eq_none (by rw [inked, List.length_map, filled]; omega)]

theorem floydSteinberg_total {raster : GrayRaster} (valid : raster.validate = .ok ()) :
    ∃ state, gridLoop raster.width.toNat raster.height.toNat
        (floydSteinbergPixel raster.width.toNat raster.height.toNat)
        ⟨List.replicate raster.pixels.length 0, scaled raster 16⟩ = .ok state ∧
      Dithered raster state.out ∧ (Bilevel raster → state.out = inked raster) := by
  have same (x y : Nat) (state : Diffusion) (left : x < raster.width.toNat) :=
    floydSteinbergPixel_eq raster.width.toNat raster.height.toNat y state left
  have halves : 0 < 2048 ∧ 2048 ≤ 255 * 16 ∧ 255 * 16 ≤ 2 * 2048 := by decide
  exact diffusion_dithered valid same (floydSteinberg_spreads _ _) halves
    (by simp only [List.length_cons, List.length_nil]; decide)

theorem atkinson_total {raster : GrayRaster} (valid : raster.validate = .ok ()) :
    ∃ state, gridLoop raster.width.toNat raster.height.toNat
        (atkinsonPixel raster.width.toNat raster.height.toNat)
        ⟨List.replicate raster.pixels.length 0, scaled raster 8⟩ = .ok state ∧
      Dithered raster state.out ∧ (Bilevel raster → state.out = inked raster) := by
  have same (x y : Nat) (state : Diffusion) (_ : x < raster.width.toNat) :=
    atkinsonPixel_eq raster.width.toNat raster.height.toNat y state x
  have halves : 0 < 1024 ∧ 1024 ≤ 255 * 8 ∧ 255 * 8 ≤ 2 * 1024 := by decide
  exact diffusion_dithered valid same (atkinson_spreads _ _) halves
    (by rw [List.length_map]; decide)

/-! ## Dithering -/

/-- A valid raster dithers in every mode, and what is black and white already stays as it is. -/
theorem GrayRaster.dither_total {raster : GrayRaster} (valid : raster.validate = .ok ())
    (mode : Dither) :
    ∃ mono, raster.dither mode = .ok mono ∧ mono.validate = .ok () ∧
      mono.width = raster.width ∧ mono.height = raster.height ∧
      (Bilevel raster → mode ≠ .threshold 0 → mono.pixels = inked raster) := by
  obtain ⟨wide, high, filled⟩ := GrayRaster.validate_iff.mp valid
  have decided : ∃ out, ditherInto raster (List.replicate raster.pixels.length 0) mode = .ok out ∧
      Dithered raster out ∧ (Bilevel raster → mode ≠ .threshold 0 → out = inked raster) := by
    cases mode with
    | auto =>
        obtain ⟨out, ended, dithered, exact⟩ := ordered_total valid positive_bayer4
        exact ⟨out, ended, dithered, fun bilevel _ => exact bilevel⟩
    | threshold t =>
        refine ⟨_, rfl, threshold_dithered raster t, ?_⟩
        intro bilevel nonzero
        have positive : 0 < t := UInt8.pos_iff_ne_zero.mpr fun none => nonzero (by rw [none])
        exact List.map_congr_left fun value member =>
          threshold_bilevel positive (bilevel value member)
    | bayer2 =>
        obtain ⟨out, ended, dithered, exact⟩ := ordered_total valid positive_bayer2
        exact ⟨out, ended, dithered, fun bilevel _ => exact bilevel⟩
    | bayer4 =>
        obtain ⟨out, ended, dithered, exact⟩ := ordered_total valid positive_bayer4
        exact ⟨out, ended, dithered, fun bilevel _ => exact bilevel⟩
    | floydSteinberg =>
        obtain ⟨state, ended, dithered, exact⟩ := floydSteinberg_total valid
        refine ⟨state.out, ?_, dithered, fun bilevel _ => exact bilevel⟩
        rw [ditherInto, except_bind_eq_ok]
        exact ⟨state, ended, rfl⟩
    | atkinson =>
        obtain ⟨state, ended, dithered, exact⟩ := atkinson_total valid
        refine ⟨state.out, ?_, dithered, fun bilevel _ => exact bilevel⟩
        rw [ditherInto, except_bind_eq_ok]
        exact ⟨state, ended, rfl⟩
  obtain ⟨out, ended, dithered, exact⟩ := decided
  refine ⟨⟨raster.width, raster.height, out⟩, ?_, ?_, rfl, rfl, exact⟩
  · have sound : raster.validate.mapError Fault.error = .ok () := by rw [valid]; rfl
    simp only [dither, sound, ended, bind, Except.bind, pure, Except.pure]
  · exact MonoRaster.validate_iff.mpr ⟨wide, high, by rw [dithered.length, filled], dithered.bits⟩

/-- A black pixel beside a white one. -/
theorem GrayRaster.dither_total_edge :
    ∃ mono, (⟨2, 1, [0, 255]⟩ : GrayRaster).dither .floydSteinberg = .ok mono ∧
      mono.validate = .ok () ∧ mono.width = 2 ∧ mono.height = 1 ∧ mono.pixels = [1, 0] := by
  obtain ⟨mono, dithered, valid, wide, high, exact⟩ :=
    @dither_total ⟨2, 1, [0, 255]⟩ rfl .floydSteinberg
  exact ⟨mono, dithered, valid, wide, high, exact (by decide) (by decide)⟩

end PrinterSdk.Render
