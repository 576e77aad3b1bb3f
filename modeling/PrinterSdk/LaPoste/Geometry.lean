import PrinterSdk.Data.Boxes
import PrinterSdk.Data.Rounding
import PrinterSdk.LaPoste.Extract

/-!
# Geometry of the stamps on a page

The edges of a slot are rounded to pixels one by one.  Rounding keeps the order of the edges,
so that slots which do not overlap on paper share no pixel.
-/

namespace PrinterSdk.LaPoste

open PrinterSdk.Data PrinterSdk.Render

/-! ## Accepted pages -/

theorem rasterOrPanic_eq_ok {α : Type} {result : Outcome RasterError α} {value : α} :
    rasterOrPanic result = .ok value ↔ result = .ok value := except_mapError_eq_ok

theorem i64OrPanic_eq_ok {number result : Int} :
    i64OrPanic number = .ok result ↔ IsI64 number ∧ number = result := orPanic_eq_ok

/-- A length is near A4 when it is off by 1500 at most. -/
theorem offA4_eq_false {length : Int64} {nominal : Int} :
    offA4 length nominal = .ok false ↔ (length.toInt - nominal).natAbs ≤ 1500 := by
  simp only [offA4, except_bind_eq_ok, i64OrPanic_eq_ok, except_pure_eq_ok, decide_eq_false_iff_not,
    Int.not_lt]
  constructor
  · intro near
    obtain ⟨_, ⟨_, rfl⟩, _, ⟨_, rfl⟩, close⟩ := near
    exact Int.ofNat_le.mp close
  · intro close
    refine ⟨_, ⟨?_, rfl⟩, _, ⟨?_, rfl⟩, Int.ofNat_le.mpr close⟩
    · unfold IsI64
      omega
    · unfold IsI64
      omega

theorem notA4_eq_false {p : NormalizedPage} :
    notA4 p = .ok false ↔
      (p.widthUm.toInt - 210000).natAbs ≤ 1500 ∧ (p.heightUm.toInt - 297000).natAbs ≤ 1500 := by
  rw [notA4, except_bind_eq_ok, ← offA4_eq_false, ← offA4_eq_false]
  constructor
  · intro near
    obtain ⟨wide, across, down⟩ := near
    cases wide with
    | true => cases (except_pure_eq_ok _ _).mp down
    | false => exact ⟨across, down⟩
  · intro near
    exact ⟨false, near.1, near.2⟩

/-- The checks accept the pages with a number and a valid raster that are A4 but for 1500 in
each direction. -/
theorem checkPage_eq_ok {p : NormalizedPage} :
    checkPage p = .ok () ↔ p.page ≠ 0 ∧ p.raster.validate = .ok () ∧
      (p.widthUm.toInt - 210000).natAbs ≤ 1500 ∧ (p.heightUm.toInt - 297000).natAbs ≤ 1500 := by
  simp only [checkPage, except_bind_eq_ok, refuseIf_eq_ok, rasterOrPanic_eq_ok,
    except_mapError_eq_ok, ← notA4_eq_false]
  constructor
  · intro passed
    obtain ⟨_, numbered, _, valid, off, decided, accepted⟩ := passed
    exact ⟨numbered, valid, by rwa [← Bool.eq_false_of_not_eq_true accepted]⟩
  · intro passes
    obtain ⟨numbered, valid, decided⟩ := passes
    exact ⟨(), numbered, (), valid, false, decided, Bool.false_ne_true⟩

/-- A page that passes the checks of `extract`, and whose pixels have `u32` indices. -/
structure Accepted (p : NormalizedPage) : Prop where
  checked : checkPage p = .ok ()
  small : p.raster.width.toNat * p.raster.height.toNat < 2 ^ 32

/-! ## Formats -/

/-- The slots of a format have room for a stamp, on a sheet of a few hundred millimetres. -/
structure Format.Spaced (fmt : Format) : Prop where
  columns : fmt.columns.toNat ≤ 3
  rows : fmt.rows.toNat ≤ 8
  left : 0 ≤ fmt.leftUm ∧ fmt.leftUm ≤ 100000
  top : 0 ≤ fmt.topUm ∧ fmt.topUm ≤ 100000
  across : stampWidthUm ≤ fmt.columnPitchUm ∧ fmt.columnPitchUm ≤ 200000
  down : stampHeightUm ≤ fmt.rowPitchUm ∧ fmt.rowPitchUm ≤ 200000

/-- The pitches of a format are not negative. -/
theorem Format.Spaced.pitches {fmt : Format} (spaced : fmt.Spaced) :
    0 ≤ fmt.columnPitchUm ∧ 0 ≤ fmt.rowPitchUm := by
  have width : 0 ≤ stampWidthUm := by decide
  have height : 0 ≤ stampHeightUm := by decide
  exact ⟨Int.le_trans width spaced.across.1, Int.le_trans height spaced.down.1⟩

/-- Every known format has room for its stamps. -/
theorem spaced_of_format {code : Characters} {fmt : Format} (known : format code = some fmt) :
    fmt.Spaced := by
  simp only [format] at known
  split_ifs at known <;> cases known <;> exact ⟨by decide, by decide, by decide, by decide,
    by decide, by decide⟩

/-! ## Edges -/

/-- The pixel at which a length on a page ends, rounded to the nearest one. -/
def edge (um : Int) (pixels : UInt32) (total : Int64) : UInt32 :=
  .ofNat (max 0 (min (rounded total.toInt (um * pixels.toNat)) pixels.toNat)).toNat

section

variable {um further : Int} {pixels : UInt32} {total : Int64}

theorem toNat_edge : (edge um pixels total).toNat =
    (max 0 (min (rounded total.toInt (um * pixels.toNat)) pixels.toNat)).toNat := by
  have bound := pixels.toNat_lt
  rw [edge, UInt32.toNat_ofNat', Nat.mod_eq_of_lt]
  omega

/-- An edge is on the page. -/
theorem edge_le : (edge um pixels total).toNat ≤ pixels.toNat := by
  rw [toNat_edge]
  omega

/-- Edges are in the order of the lengths. -/
theorem edge_mono (positive : 0 < total.toInt) (le : um ≤ further) :
    (edge um pixels total).toNat ≤ (edge further pixels total).toNat := by
  have scaled : um * pixels.toNat ≤ further * pixels.toNat :=
    Int.mul_le_mul_of_nonneg_right le (Int.natCast_nonneg _)
  have ordered := rounded_le_rounded positive scaled
  rw [toNat_edge, toNat_edge]
  omega

/-- `scale` computes an edge. -/
theorem scale_eq (positive : 0 < total.toInt) (nonneg : 0 ≤ um) :
    scale um pixels total = .ok (edge um pixels total) := by
  have nonzero : total ≠ 0 := by
    intro none
    rw [none] at positive
    exact absurd positive (by decide)
  have product : 0 ≤ um * pixels.toNat := Int.mul_nonneg nonneg (Int.natCast_nonneg _)
  rw [scale, tdiv_eq_rounded positive product]
  exact orPanic_eq_ok.mpr ⟨nonzero, rfl⟩

end

/-! ## Slots -/

/-- The left side of a slot on paper. -/
def Format.slotLeft (fmt : Format) (slot : Nat) : Int :=
  fmt.leftUm + (slot % fmt.columns.toNat : Nat) * fmt.columnPitchUm

/-- The upper side of a slot on paper. -/
def Format.slotTop (fmt : Format) (slot : Nat) : Int :=
  fmt.topUm + (slot / fmt.columns.toNat : Nat) * fmt.rowPitchUm

/-- The pixels of a slot. -/
def windowOf (fmt : Format) (p : NormalizedPage) (slot : Nat) : Window where
  x0 := edge (fmt.slotLeft slot) p.raster.width p.widthUm
  y0 := edge (fmt.slotTop slot) p.raster.height p.heightUm
  x1 := edge (fmt.slotLeft slot + stampWidthUm) p.raster.width p.widthUm
  y1 := edge (fmt.slotTop slot + stampHeightUm) p.raster.height p.heightUm

/-- The box between the edges of a window. -/
def Window.box (window : Window) : Box where
  left := window.x0.toNat
  top := window.y0.toNat
  width := window.x1.toNat - window.x0.toNat
  height := window.y1.toNat - window.y0.toNat

/-- The pixels of a raster in a window. -/
def cut (r : GrayRaster) (window : Window) : GrayRaster where
  width := .ofNat window.box.width
  height := .ofNat window.box.height
  pixels := tabulate window.box.width window.box.height fun i j =>
    (r.pixel (window.box.left + i) (window.box.top + j)).getD 0

section

variable {fmt : Format} {p : NormalizedPage} {slot other : Nat}

/-- A page that is nearly A4 has sides. -/
theorem Accepted.sides (accepted : Accepted p) : 0 < p.widthUm.toInt ∧ 0 < p.heightUm.toInt := by
  obtain ⟨-, -, across, down⟩ := checkPage_eq_ok.mp accepted.checked
  omega

/-- The column of a slot is one of the format. -/
theorem column_lt (inside : slot < fmt.slots) : slot % fmt.columns.toNat < fmt.columns.toNat := by
  apply Nat.mod_lt
  apply Nat.pos_of_ne_zero
  intro none
  rw [Format.slots, none, Nat.zero_mul] at inside
  exact Nat.not_lt_zero slot inside

/-- The row of a slot is one of the format. -/
theorem row_lt (inside : slot < fmt.slots) : slot / fmt.columns.toNat < fmt.rows.toNat :=
  Nat.div_lt_of_lt_mul inside

/-- A multiple of a pitch is on the sheet. -/
theorem pitch_bounds {count : Nat} {pitch : Int} (few : count ≤ 8) (least : 0 ≤ pitch)
    (most : pitch ≤ 200000) : 0 ≤ count * pitch ∧ count * pitch ≤ 1600000 := by
  constructor
  · exact Int.mul_nonneg (Int.natCast_nonneg count) least
  · calc count * pitch ≤ 8 * 200000 :=
          Int.mul_le_mul (Int.ofNat_le.mpr few) most least (by decide)
      _ = 1600000 := by decide

/-- The distances of a slot from the first one are on the sheet. -/
theorem Format.Spaced.shifts (spaced : fmt.Spaced) (inside : slot < fmt.slots) :
    (0 ≤ (slot % fmt.columns.toNat : Nat) * fmt.columnPitchUm ∧
      (slot % fmt.columns.toNat : Nat) * fmt.columnPitchUm ≤ 1600000) ∧
    0 ≤ (slot / fmt.columns.toNat : Nat) * fmt.rowPitchUm ∧
      (slot / fmt.columns.toNat : Nat) * fmt.rowPitchUm ≤ 1600000 := by
  have column := column_lt inside
  have row := row_lt inside
  have columns := spaced.columns
  have rows := spaced.rows
  constructor
  · exact pitch_bounds (by omega) spaced.pitches.1 spaced.across.2
  · exact pitch_bounds (by omega) spaced.pitches.2 spaced.down.2

/-- The sides of a slot are on the sheet. -/
theorem Format.Spaced.sides (spaced : fmt.Spaced) (inside : slot < fmt.slots) :
    (0 ≤ fmt.slotLeft slot ∧ fmt.slotLeft slot ≤ 1700000) ∧
      0 ≤ fmt.slotTop slot ∧ fmt.slotTop slot ≤ 1700000 := by
  have shifts := spaced.shifts inside
  have left := spaced.left
  have top := spaced.top
  unfold Format.slotLeft Format.slotTop
  omega

theorem isI64_of_small {number : Int} (nonneg : 0 ≤ number) (small : number ≤ 2000000) :
    IsI64 number :=
  ⟨Int.le_trans (by decide) nonneg, Int.lt_of_le_of_lt small (by decide)⟩

/-- Nothing overflows when the pixels of a slot are computed. -/
theorem slotWindow_eq (spaced : fmt.Spaced) (accepted : Accepted p) (inside : slot < fmt.slots) :
    slotWindow fmt p slot = .ok (windowOf fmt p slot) := by
  obtain ⟨wide, high⟩ := accepted.sides
  obtain ⟨⟨shiftLeast, shiftMost⟩, dropLeast, dropMost⟩ := spaced.shifts inside
  obtain ⟨⟨leftLeast, leftMost⟩, topLeast, topMost⟩ := spaced.sides inside
  have right : 0 ≤ fmt.slotLeft slot + stampWidthUm ∧
      fmt.slotLeft slot + stampWidthUm ≤ 2000000 := by
    unfold stampWidthUm
    omega
  have bottom : 0 ≤ fmt.slotTop slot + stampHeightUm ∧
      fmt.slotTop slot + stampHeightUm ≤ 2000000 := by
    unfold stampHeightUm
    omega
  have leftFits : IsI64 (fmt.slotLeft slot) := isI64_of_small leftLeast (by omega)
  have topFits : IsI64 (fmt.slotTop slot) := isI64_of_small topLeast (by omega)
  simp only [slotWindow, except_bind_eq_ok, i64OrPanic_eq_ok, except_pure_eq_ok]
  refine ⟨_, ⟨isI64_of_small shiftLeast (by omega), rfl⟩, fmt.slotLeft slot, ⟨leftFits, rfl⟩,
    _, ⟨isI64_of_small dropLeast (by omega), rfl⟩, fmt.slotTop slot, ⟨topFits, rfl⟩,
    _, scale_eq wide leftLeast, _, scale_eq high topLeast,
    _, ⟨isI64_of_small right.1 right.2, rfl⟩, _, scale_eq wide right.1,
    _, ⟨isI64_of_small bottom.1 bottom.2, rfl⟩, _, scale_eq high bottom.1, rfl⟩

/-- The edges of a window are in order. -/
theorem windowOf_ordered (accepted : Accepted p) (fmt : Format) (slot : Nat) :
    (windowOf fmt p slot).x0.toNat ≤ (windowOf fmt p slot).x1.toNat ∧
      (windowOf fmt p slot).y0.toNat ≤ (windowOf fmt p slot).y1.toNat := by
  obtain ⟨wide, high⟩ := accepted.sides
  have width : 0 ≤ stampWidthUm := by decide
  have height : 0 ≤ stampHeightUm := by decide
  exact ⟨edge_mono wide (Int.le_add_of_nonneg_right width),
    edge_mono high (Int.le_add_of_nonneg_right height)⟩

/-- The box of a window ends at its far edges. -/
theorem box_ends (accepted : Accepted p) (fmt : Format) (slot : Nat) :
    (windowOf fmt p slot).box.left + (windowOf fmt p slot).box.width =
        (windowOf fmt p slot).x1.toNat ∧
      (windowOf fmt p slot).box.top + (windowOf fmt p slot).box.height =
        (windowOf fmt p slot).y1.toNat := by
  obtain ⟨across, down⟩ := windowOf_ordered accepted fmt slot
  exact ⟨Nat.add_sub_of_le across, Nat.add_sub_of_le down⟩

/-- The window of a slot is on the page. -/
theorem windowOf_inside (accepted : Accepted p) (fmt : Format) (slot : Nat) :
    (windowOf fmt p slot).box.left + (windowOf fmt p slot).box.width ≤ p.raster.width.toNat ∧
      (windowOf fmt p slot).box.top + (windowOf fmt p slot).box.height ≤
        p.raster.height.toNat := by
  obtain ⟨right, bottom⟩ := box_ends accepted fmt slot
  rw [right, bottom]
  exact ⟨edge_le, edge_le⟩

/-- A window has no more pixels than its page. -/
theorem area_windowOf (accepted : Accepted p) (fmt : Format) (slot : Nat) :
    (windowOf fmt p slot).box.width * (windowOf fmt p slot).box.height ≤
      p.raster.width.toNat * p.raster.height.toNat := by
  obtain ⟨right, bottom⟩ := windowOf_inside accepted fmt slot
  exact Nat.mul_le_mul (Nat.le_trans (Nat.le_add_left _ _) right)
    (Nat.le_trans (Nat.le_add_left _ _) bottom)

/-- A stamp ends before the next multiple of a pitch that has room for it. -/
theorem behind {first second : Nat} {origin extent pitch : Int} (before : first < second)
    (room : extent ≤ pitch) (nonneg : 0 ≤ pitch) :
    origin + first * pitch + extent ≤ origin + second * pitch := by
  have next : ((first : Int) + 1) * pitch ≤ second * pitch :=
    Int.mul_le_mul_of_nonneg_right (Int.ofNat_le.mpr before) nonneg
  rw [Int.add_mul, Int.one_mul] at next
  omega

/-- A slot in a column before ends before the other slot begins. -/
theorem left_of_column (spaced : fmt.Spaced) (accepted : Accepted p)
    (before : slot % fmt.columns.toNat < other % fmt.columns.toNat) :
    (windowOf fmt p slot).box.left + (windowOf fmt p slot).box.width ≤
      (windowOf fmt p other).box.left := by
  rw [(box_ends accepted fmt slot).1]
  exact edge_mono accepted.sides.1 (behind before spaced.across.1 spaced.pitches.1)

/-- A slot in a row before ends before the other slot begins. -/
theorem above_of_row (spaced : fmt.Spaced) (accepted : Accepted p)
    (before : slot / fmt.columns.toNat < other / fmt.columns.toNat) :
    (windowOf fmt p slot).box.top + (windowOf fmt p slot).box.height ≤
      (windowOf fmt p other).box.top := by
  rw [(box_ends accepted fmt slot).2]
  exact edge_mono accepted.sides.2 (behind before spaced.down.1 spaced.pitches.2)

/-- No pixel is in the windows of two slots. -/
theorem windowOf_disjoint (spaced : fmt.Spaced) (accepted : Accepted p) (different : slot ≠ other) :
    (windowOf fmt p slot).box.Disjoint (windowOf fmt p other).box := by
  refine Box.disjoint_iff.mpr (.inr (.inr ?_))
  rcases Nat.lt_trichotomy (slot % fmt.columns.toNat) (other % fmt.columns.toNat) with
    before | same | after
  · exact .inl (left_of_column spaced accepted before)
  · rcases Nat.lt_trichotomy (slot / fmt.columns.toNat) (other / fmt.columns.toNat) with
      above | level | below
    · exact .inr (.inr (.inl (above_of_row spaced accepted above)))
    · have equal : slot = other := by
        rw [← Nat.div_add_mod slot fmt.columns.toNat, level, same, Nat.div_add_mod]
      exact absurd equal different
    · exact .inr (.inr (.inr (above_of_row spaced accepted below)))
  · exact .inr (.inl (left_of_column spaced accepted after))

end

end PrinterSdk.LaPoste
