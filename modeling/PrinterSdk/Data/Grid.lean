import PrinterSdk.Data.Loops
import Mathlib.Data.List.FinRange
import Mathlib.Data.Multiset.Bind

/-!
# Grids

A grid of cells is a list, one row after the other.  The loops over it visit every row and
in it every column, so that the cells before a turn are those with a smaller place.
-/

namespace PrinterSdk.Data

section

variable {α : Type} {width height : Nat} {cell other : Nat → Nat → α}

/-- The grid with the given cells. -/
def tabulate (width height : Nat) (cell : Nat → Nat → α) : List α :=
  (List.range height).flatMap fun y => (List.range width).map fun x => cell x y

theorem tabulate_succ (width height : Nat) (cell : Nat → Nat → α) :
    tabulate width (height + 1) cell =
      tabulate width height cell ++ (List.range width).map fun x => cell x height := by
  simp [tabulate, List.range_succ]

@[simp] theorem length_tabulate (width height : Nat) (cell : Nat → Nat → α) :
    (tabulate width height cell).length = height * width := by
  induction height with
  | zero => simp [tabulate]
  | succ height ih => simp [tabulate_succ, ih, Nat.succ_mul]

theorem getElem?_tabulate {x y : Nat} (left : x < width) (top : y < height) :
    (tabulate width height cell)[y * width + x]? = some (cell x y) := by
  induction height with
  | zero => cases top
  | succ height ih =>
      rw [tabulate_succ]
      rcases Nat.lt_succ_iff_lt_or_eq.mp top with before | rfl
      · rw [List.getElem?_append_left (by simpa using cell_lt left before)]
        exact ih before
      · rw [List.getElem?_append_right (by simp), length_tabulate, Nat.add_sub_cancel_left,
          List.getElem?_map, List.getElem?_range left]
        rfl

theorem tabulate_congr (same : ∀ x y, x < width → y < height → cell x y = other x y) :
    tabulate width height cell = tabulate width height other := by
  unfold tabulate
  apply List.flatMap_congr
  intro y top
  apply List.map_congr_left
  intro x left
  exact same x y (List.mem_range.mp left) (List.mem_range.mp top)

/-- A place in a grid is a cell of it. -/
theorem exists_cell {place : Nat} (inside : place < height * width) :
    ∃ x y, x < width ∧ y < height ∧ place = y * width + x := by
  have filled : 0 < width := by
    apply Nat.pos_of_ne_zero
    intro none
    rw [none, Nat.mul_zero] at inside
    exact Nat.not_lt_zero _ inside
  refine ⟨place % width, place / width, Nat.mod_lt _ filled, ?_, ?_⟩
  · apply Nat.div_lt_of_lt_mul
    rw [Nat.mul_comm]
    exact inside
  · rw [Nat.mul_comm, Nat.div_add_mod]

/-- A list with the length and the cells of a grid is that grid. -/
theorem eq_tabulate {list : List α} (length : list.length = height * width)
    (cells : ∀ x y, x < width → y < height → list[y * width + x]? = some (cell x y)) :
    list = tabulate width height cell := by
  apply List.ext_getElem?
  intro place
  by_cases inside : place < height * width
  · obtain ⟨x, y, left, top, rfl⟩ := exists_cell inside
    rw [cells x y left top, getElem?_tabulate left top]
  · rw [List.getElem?_eq_none (by omega), List.getElem?_eq_none (by rw [length_tabulate]; omega)]

theorem mem_tabulate {value : α} :
    value ∈ tabulate width height cell ↔ ∃ x y, x < width ∧ y < height ∧ cell x y = value := by
  simp only [tabulate, List.mem_flatMap, List.mem_map, List.mem_range]
  constructor
  · intro member
    obtain ⟨y, top, x, left, same⟩ := member
    exact ⟨x, y, left, top, same⟩
  · intro member
    obtain ⟨x, y, left, top, same⟩ := member
    exact ⟨y, top, x, left, same⟩

theorem tabulate_const (width height : Nat) (value : α) :
    (tabulate width height fun _ _ => value) = List.replicate (height * width) value := by
  rw [List.eq_replicate_iff, length_tabulate]
  refine ⟨rfl, ?_⟩
  intro other member
  obtain ⟨x, y, -, -, same⟩ := mem_tabulate.mp member
  exact same.symm

theorem map_tabulate {β : Type} (image : α → β) (width height : Nat) (cell : Nat → Nat → α) :
    (tabulate width height cell).map image = tabulate width height fun x y => image (cell x y) := by
  simp [tabulate, List.map_flatMap, Function.comp_def]

/-! ## Turning and mirroring -/

theorem reverse_map_range (count : Nat) (value : Nat → α) :
    ((List.range count).map value).reverse =
      (List.range count).map fun index => value (count - 1 - index) := by
  apply List.ext_getElem (by simp)
  intro index _ _
  simp

theorem range_reflect_perm (count : Nat) :
    ((List.range count).map fun index => count - 1 - index).Perm (List.range count) := by
  have turned := reverse_map_range count fun index => index
  rw [List.map_id'] at turned
  rw [← turned]
  exact List.reverse_perm _

/-- A grid read backwards is the grid upside down. -/
theorem reverse_tabulate (width height : Nat) (cell : Nat → Nat → α) :
    (tabulate width height cell).reverse =
      tabulate width height fun x y => cell (width - 1 - x) (height - 1 - y) := by
  have rows (y : Nat) : ((List.range width).map fun x => cell x y).reverse =
      (List.range width).map fun x => cell (width - 1 - x) y :=
    reverse_map_range width fun x => cell x y
  rw [tabulate, List.flatMap_def, List.reverse_flatten, List.map_map, reverse_map_range]
  simp only [Function.comp_def, rows]
  rw [← List.flatMap_def]
  rfl

/-- A grid keeps its cells when every row is read backwards. -/
theorem mirror_perm (width height : Nat) (cell : Nat → Nat → α) :
    (tabulate width height fun x y => cell (width - 1 - x) y).Perm
      (tabulate width height cell) := by
  apply List.Perm.flatMap_left
  intro y _
  have reflected := (range_reflect_perm width).map fun x => cell x y
  rw [List.map_map] at reflected
  exact reflected

/-- A grid keeps its cells when its rows become columns. -/
theorem transpose_perm (width height : Nat) (cell : Nat → Nat → α) :
    (tabulate height width fun x y => cell y x).Perm (tabulate width height cell) := by
  rw [← Multiset.coe_eq_coe]
  have swapped := Multiset.bind_map_comm (List.range width : Multiset Nat)
    (List.range height : Multiset Nat) (f := fun x y => cell x y)
  simpa only [tabulate, Multiset.coe_bind, Multiset.map_coe] using swapped

end

/-! ## Loops over a grid -/

section

variable {ε σ α : Type} {start : σ}

/-- `for y in 0..height { for x in 0..width { .. } }`. -/
def gridLoop (width height : Nat) (turn : Nat → σ → Nat → Except ε σ) (start : σ) :
    Except ε σ :=
  (List.range height).foldlM (fun state y => (List.range width).foldlM (turn y) state) start

/-- A loop over a grid ends when every turn succeeds where the invariant holds.  The
invariant is indexed by the number of cells that are behind it. -/
theorem gridLoop_total (width height : Nat) (turn : Nat → σ → Nat → Except ε σ)
    (Holds : Nat → σ → Prop) (begins : Holds 0 start)
    (succeeds : ∀ x y state, x < width → y < height → Holds (y * width + x) state →
      ∃ next, turn y state x = .ok next ∧ Holds (y * width + x + 1) next) :
    ∃ last, gridLoop width height turn start = .ok last ∧ Holds (height * width) last := by
  apply countingLoop_total (fun y => Holds (y * width)) (by simpa using begins)
  intro y state top before
  have row : ∃ last, (List.range width).foldlM (turn y) state = .ok last ∧
      Holds (y * width + width) last :=
    countingLoop_total (fun x => Holds (y * width + x)) before
      fun x state left => succeeds x y state left top
  obtain ⟨last, ended, after⟩ := row
  rw [← Nat.succ_mul] at after
  exact ⟨last, ended, after⟩

/-- A loop that writes every cell to a place of its own. -/
theorem gridLoop_scatter (width height : Nat) (turn : Nat → List α → Nat → Except ε (List α))
    (place : Nat → Nat → Nat) (value : Nat → Nat → α) {length : Nat} {pixels : List α}
    (sized : pixels.length = length)
    (writes : ∀ x y state, x < width → y < height → state.length = length →
      turn y state x = .ok (state.set (place x y) (value x y)))
    (inside : ∀ x y, x < width → y < height → place x y < length)
    (apart : ∀ x y i j, x < width → y < height → i < width → j < height →
      place x y = place i j → x = i ∧ y = j) :
    ∃ last, gridLoop width height turn pixels = .ok last ∧ last.length = length ∧
      ∀ x y, x < width → y < height → last[place x y]? = some (value x y) := by
  have total := gridLoop_total width height turn
    (fun count state => state.length = length ∧ ∀ x y, x < width → y < height →
      y * width + x < count → state[place x y]? = some (value x y))
    ⟨sized, fun _ _ _ _ before => absurd before (Nat.not_lt_zero _)⟩ (by
      intro x y state left top kept
      obtain ⟨sized, written⟩ := kept
      refine ⟨_, writes x y state left top sized, ?_, ?_⟩
      · rw [List.length_set, sized]
      · intro i j within below before
        rcases Nat.lt_succ_iff_lt_or_eq.mp before with earlier | now
        · have different : place x y ≠ place i j := by
            intro same
            obtain ⟨rfl, rfl⟩ := apart x y i j left top within below same
            exact Nat.lt_irrefl _ earlier
          rw [List.getElem?_set_ne different]
          exact written i j within below earlier
        · obtain ⟨rfl, rfl⟩ := cell_inj within left now
          rw [List.getElem?_set_self (by rw [sized]; exact inside i j left top)])
  obtain ⟨last, ended, sized, written⟩ := total
  exact ⟨last, ended, sized, fun x y left top => written x y left top (cell_lt left top)⟩

end

/-! ## Copied rows -/

section

variable {ε α : Type}

/-- A list with the elements from a place on replaced. -/
def splice (list : List α) (start : Nat) (slice : List α) : List α :=
  list.take start ++ slice ++ list.drop (start + slice.length)

theorem length_splice {list slice : List α} {start : Nat}
    (fits : start + slice.length ≤ list.length) :
    (splice list start slice).length = list.length := by
  simp only [splice, List.length_append, List.length_take, List.length_drop]
  omega

theorem getElem?_splice {list slice : List α} {start : Nat}
    (fits : start + slice.length ≤ list.length) (place : Nat) :
    (splice list start slice)[place]? =
      if start ≤ place ∧ place < start + slice.length then slice[place - start]?
      else list[place]? := by
  have front : (list.take start).length = start := by
    rw [List.length_take]
    omega
  have middle : (list.take start ++ slice).length = start + slice.length := by
    rw [List.length_append, front]
  rw [splice, List.getElem?_append, List.getElem?_append, middle, front]
  by_cases before : place < start
  · rw [if_pos (by omega), if_pos before, if_neg (by omega), List.getElem?_take_of_lt before]
  · by_cases inside : place < start + slice.length
    · rw [if_pos inside, if_neg before, if_pos ⟨by omega, inside⟩]
    · rw [if_neg inside, if_neg (fun within => inside within.2), List.getElem?_drop]
      congr 1
      omega

/-- A piece of a row ends inside the grid. -/
theorem piece_le {width height x y count : Nat} (across : x + count ≤ width) (top : y < height) :
    y * width + x + count ≤ height * width := by
  calc y * width + x + count ≤ y * width + width := by omega
    _ = (y + 1) * width := (Nat.succ_mul ..).symm
    _ ≤ height * width := Nat.mul_le_mul_right width top

/-- A piece of a row of a grid. -/
theorem slice_tabulate {width height : Nat} {cell : Nat → Nat → α} {x y count : Nat}
    (across : x + count ≤ width) (top : y < height) :
    ((tabulate width height cell).drop (y * width + x)).take count =
      (List.range count).map fun index => cell (x + index) y := by
  have room := piece_le across top
  apply List.ext_getElem?
  intro index
  by_cases inside : index < count
  · rw [List.getElem?_take_of_lt inside, List.getElem?_drop, Nat.add_assoc,
      getElem?_tabulate (by omega) top, List.getElem?_map, List.getElem?_range inside]
    rfl
  · rw [List.getElem?_eq_none (by simp; omega), List.getElem?_eq_none (by simp; omega)]

/-- A row of a grid. -/
theorem row_tabulate {width height : Nat} {cell : Nat → Nat → α} {y : Nat} (top : y < height) :
    ((tabulate width height cell).drop (y * width)).take width =
      (List.range width).map fun index => cell index y := by
  have whole : 0 + width ≤ width := Nat.le_of_eq (Nat.zero_add width)
  have piece := @slice_tabulate α width height cell 0 y width whole top
  simpa only [Nat.zero_add, Nat.add_zero] using piece

/-- The grid with a rectangle at `(left, top)` replaced. -/
def overlay (left top width height : Nat) (cell base : Nat → Nat → α) (x y : Nat) : α :=
  if (left ≤ x ∧ x < left + width) ∧ top ≤ y ∧ y < top + height then cell (x - left) (y - top)
  else base x y

theorem overlay_inside {left top width height x y : Nat} {cell base : Nat → Nat → α}
    (across : x < width) (down : y < height) :
    overlay left top width height cell base (left + x) (top + y) = cell x y := by
  rw [overlay, if_pos (by omega), Nat.add_sub_cancel_left, Nat.add_sub_cancel_left]

theorem overlay_whole (width height : Nat) (cell base : Nat → Nat → α) :
    tabulate width height (overlay 0 0 width height cell base) = tabulate width height cell := by
  apply tabulate_congr
  intro x y across down
  rw [overlay, if_pos (by omega), Nat.sub_zero, Nat.sub_zero]

/-- A row of a rectangle more is replaced. -/
theorem splice_overlay {gridWidth gridHeight left top width row : Nat}
    {cell base : Nat → Nat → α} (across : left + width ≤ gridWidth)
    (down : top + row < gridHeight) :
    splice (tabulate gridWidth gridHeight (overlay left top width row cell base))
        ((top + row) * gridWidth + left) ((List.range width).map fun index => cell index row) =
      tabulate gridWidth gridHeight (overlay left top width (row + 1) cell base) := by
  have length : ((List.range width).map fun index => cell index row).length = width := by simp
  have fits : (top + row) * gridWidth + left +
      ((List.range width).map fun index => cell index row).length ≤
      (tabulate gridWidth gridHeight (overlay left top width row cell base)).length := by
    rw [length, length_tabulate]
    exact piece_le across down
  apply eq_tabulate
  · rw [length_splice fits, length_tabulate]
  · intro x y within high
    rw [getElem?_splice fits, length, getElem?_tabulate within high]
    by_cases here : y = top + row
    · subst here
      by_cases inside : left ≤ x ∧ x < left + width
      · have index : (top + row) * gridWidth + x - ((top + row) * gridWidth + left) = x - left := by
          omega
        rw [if_pos (by omega), index, List.getElem?_map, List.getElem?_range (by omega), overlay,
          if_pos ⟨inside, by omega, by omega⟩, Nat.add_sub_cancel_left]
        rfl
      · rw [if_neg (by omega), overlay, if_neg (fun both => inside both.1), overlay,
          if_neg (fun both => inside both.1)]
    · have elsewhere : ¬((top + row) * gridWidth + left ≤ y * gridWidth + x ∧
          y * gridWidth + x < (top + row) * gridWidth + left + width) := by
        rintro ⟨from_left, to_right⟩
        have same : y * gridWidth + x =
            (top + row) * gridWidth + (y * gridWidth + x - (top + row) * gridWidth) := by omega
        exact here (cell_inj within (by omega) same).1
      have rows : (top ≤ y ∧ y < top + row) ↔ top ≤ y ∧ y < top + (row + 1) := by omega
      rw [if_neg elsewhere, overlay, overlay]
      simp only [rows]

/-- A loop that copies the rows of a rectangle into a grid. -/
theorem copyRows_total {gridWidth gridHeight left top width height : Nat}
    {step : List α → Nat → Except ε (List α)} {cell base : Nat → Nat → α}
    (across : left + width ≤ gridWidth) (down : top + height ≤ gridHeight)
    (copies : ∀ pixels row, row < height → pixels.length = gridHeight * gridWidth →
      step pixels row = .ok (splice pixels ((top + row) * gridWidth + left)
        ((List.range width).map fun index => cell index row))) :
    (List.range height).foldlM step (tabulate gridWidth gridHeight base) =
      .ok (tabulate gridWidth gridHeight (overlay left top width height cell base)) := by
  have total : ∃ last, (List.range height).foldlM step (tabulate gridWidth gridHeight base) =
      .ok last ∧ last = tabulate gridWidth gridHeight
        (overlay left top width height cell base) := by
    apply countingLoop_total fun row pixels => pixels =
      tabulate gridWidth gridHeight (overlay left top width row cell base)
    · apply tabulate_congr
      intro x y _ _
      rw [overlay, if_neg (by omega)]
    · intro row pixels inside copied
      subst copied
      exact ⟨_, copies _ row inside (length_tabulate ..), splice_overlay across (by omega)⟩
  obtain ⟨last, ended, rfl⟩ := total
  exact ended

end

end PrinterSdk.Data
