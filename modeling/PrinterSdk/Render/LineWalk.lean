import PrinterSdk.Data.Bresenham
import PrinterSdk.Data.Tracked
import PrinterSdk.Render.Ink

/-!
# Lines

A line is drawn with a pen at every point of a walk between its ends.  The walk stops at the
end and nowhere else, and it does so for all ends that are not too far apart.
-/

namespace PrinterSdk.Render

open PrinterSdk.Data

/-! ## Tracked arithmetic -/

/-- The dots that the pen covers at a point. -/
def penTracked (t x y : Int32) : Tracked (List Write) := do
  let low ← Tracked.neg32 (t / 2)
  let rows ← Tracked.each (spanTo low (t / 2)) fun yy =>
    Tracked.each (spanTo low (t / 2)) fun xx => do
      let right ← Tracked.add32 x xx
      let down ← Tracked.add32 y yy
      return (⟨right, down, 0⟩ : Write)
  return rows.flatten

/-- A move of a turn, if it is made: it changes the error and a coordinate. -/
def lineMove (moves : Prop) [Decidable moves] (err change place sign : Int32) :
    Tracked (Int32 × Int32) :=
  if moves then do
    let err ← Tracked.add32 err change
    let place ← Tracked.add32 place sign
    return (err, place)
  else return (err, place)

/-- A turn of the loop of `line`: the next point, and its error. -/
def lineTurn (dx dy sx sy x0 y0 err : Int32) : Tracked (Int32 × Int32 × Int32) := do
  let e ← Tracked.mul32 2 err
  let across ← lineMove (e ≥ dy) err dy x0 sx
  let down ← lineMove (e ≤ dx) across.1 dx y0 sy
  return (across.2, down.2, down.1)

/-- The points that the loop of `line` visits, if it stops within a number of rounds. -/
def lineWalk (t x1 y1 dx dy sx sy : Int32) :
    Nat → Int32 → Int32 → Int32 → Tracked (Option (List (Int32 × Int32)))
  | 0, _, _, _ => return none
  | rounds + 1, x0, y0, err => do
      let _ ← penTracked t x0 y0
      if x0 = x1 ∧ y0 = y1 then return some [(x0, y0)]
      else do
        let next ← lineTurn dx dy sx sy x0 y0 err
        let rest ← lineWalk t x1 y1 dx dy sx sy rounds next.1 next.2.1 next.2.2
        return rest.map ((x0, y0) :: ·)

/-- `line`, with a record of its overflows and the points that it visits. -/
def lineTracked (rounds : Nat) (x0 y0 x1 y1 t : Int32) :
    Tracked (Option (List (Int32 × Int32))) := do
  let across ← Tracked.sub32 x1 x0
  let dx ← Tracked.abs32 across
  let down ← Tracked.sub32 y1 y0
  let rise ← Tracked.abs32 down
  let dy ← Tracked.neg32 rise
  let err ← Tracked.add32 dx dy
  lineWalk t x1 y1 dx dy (if x0 < x1 then 1 else -1) (if y0 < y1 then 1 else -1) rounds x0 y0 err

/-! ## The line of the renderer -/

/-- The renderer draws with the pen at the visited points. -/
theorem lineLoop_of_lineWalk {t x1 y1 dx dy sx sy : Int32} {rounds : Nat} {x0 y0 err : Int32}
    {points : List (Int32 × Int32)}
    (visited : (lineWalk t x1 y1 dx dy sx sy rounds x0 y0 err).value = some points) :
    lineLoop t x1 y1 dx dy sx sy rounds x0 y0 err =
      points.flatMap fun point => penDots t point.1 point.2 := by
  induction rounds generalizing x0 y0 err points with
  | zero => cases visited
  | succ rounds ih =>
      by_cases ended : x0 = x1 ∧ y0 = y1
      · simp only [lineWalk, ended, and_self, if_true, Tracked.value_bind,
          Tracked.value_pure] at visited
        obtain rfl := Option.some.inj visited
        simp only [lineLoop, ended, and_self, if_true, List.flatMap_cons, List.flatMap_nil]
      · simp only [lineWalk, ended, if_false, Tracked.value_bind, Tracked.value_pure,
          Option.map_eq_some_iff] at visited
        obtain ⟨rest, later, rfl⟩ := visited
        rw [lineLoop, if_neg ended, List.flatMap_cons, ← ih later]
        by_cases across : 2 * err ≥ dy <;> by_cases down : 2 * err ≤ dx <;>
          simp [lineTurn, lineMove, across, down]

theorem line_of_lineTracked {x0 y0 x1 y1 t : Int32} {points : List (Int32 × Int32)}
    (visited : (lineTracked lineRounds x0 y0 x1 y1 t).value = some points) :
    line x0 y0 x1 y1 t = points.flatMap fun point => penDots t point.1 point.2 := by
  rw [lineTracked, Tracked.value_bind, Tracked.value_sub32, Tracked.value_bind,
    Tracked.value_abs32, Tracked.value_bind, Tracked.value_sub32, Tracked.value_bind,
    Tracked.value_abs32, Tracked.value_bind, Tracked.value_neg32, Tracked.value_bind,
    Tracked.value_add32] at visited
  rw [line]
  exact lineLoop_of_lineWalk visited

/-! ## A turn of the loop -/

section

open Tracked

theorem abs_half_le (t : Int32) : |(t / 2).toInt| ≤ 2 ^ 30 := by
  have least := t.le_toInt
  have most := t.toInt_lt
  have two : (2 : Int32).toInt = 2 := rfl
  have half : |t.toInt.tdiv 2| ≤ 2 ^ 30 := by
    have halved : (t.toInt.tdiv 2).natAbs = t.toInt.natAbs / 2 := Int.natAbs_tdiv ..
    rw [Int.abs_eq_natAbs, halved]
    omega
  have fits := abs_le.mp half
  rw [Int32.toInt_div, two, Int.bmod_eq_of_le (by omega) (by omega)]
  exact half

/-- The pen fits around every point that is not too far from the origin. -/
theorem exact_penTracked (t : Int32) {x y : Int32} (across : |x.toInt| < 2 ^ 28)
    (down : |y.toInt| < 2 ^ 28) : (penTracked t x y).exact = true := by
  have half := abs_le.mp (abs_half_le t)
  rw [abs_lt] at across down
  have negated := yields_neg32 (Eq.refl (t / 2).toInt)
  have low := negated.value ⟨by omega, by omega⟩
  have offset {value : Int32} (member : value ∈ spanTo (neg32 (t / 2)).value (t / 2)) :
      -2 ^ 30 ≤ value.toInt ∧ value.toInt ≤ 2 ^ 30 := by
    rw [mem_spanTo, Int32.le_iff_toInt_le, Int32.le_iff_toInt_le, low] at member
    omega
  simp only [penTracked, exact_bind, exact_pure, exact_each, negated.exact_iff, and_true]
  refine ⟨⟨by omega, by omega⟩, ?_⟩
  intro yy rows xx columns
  have row := offset rows
  have column := offset columns
  rw [(yields_add32 rfl rfl).exact_iff, (yields_add32 rfl rfl).exact_iff]
  exact ⟨⟨by omega, by omega⟩, by omega, by omega⟩

/-- A move changes the error and the coordinate, if it is made. -/
theorem yields_lineMove {moves : Prop} [Decidable moves] {err change place sign : Int32}
    {e c p s : Int} (errs : err.toInt = e) (changes : change.toInt = c) (places : place.toInt = p)
    (signs : sign.toInt = s) (errFits : IsI32 (e + c)) (placeFits : IsI32 (p + s)) :
    Yields (lineMove moves err change place sign) True fun next =>
      next.1.toInt = (if moves then e + c else e) ∧
        next.2.toInt = if moves then p + s else p := by
  unfold lineMove
  split
  · have computed : Yields (do
        let err ← add32 err change
        let place ← add32 place sign
        return (err, place)) _ fun next => next.1.toInt = e + c ∧ next.2.toInt = p + s :=
      (yields_add32 errs changes).bind fun first firstIs =>
        (yields_add32 places signs).bind fun second secondIs =>
          yields_pure (first, second) _ ⟨firstIs, secondIs⟩
    exact computed.mono (by simp [errFits, placeFits]) fun _ _ same => same
  · exact yields_pure (err, place) _ ⟨errs, places⟩

/-- The constants of the loop of `line`: the sides of the box and the signs of its walk. -/
structure Sides (width height : Int) (dx dy sx sy : Int32) : Prop where
  dx : dx.toInt = width
  dy : dy.toInt = -height
  sx : sx.toInt = 1 ∨ sx.toInt = -1
  sy : sy.toInt = 1 ∨ sy.toInt = -1
  wide : 0 ≤ width ∧ width < 2 ^ 29
  high : 0 ≤ height ∧ height < 2 ^ 29

/-- The loop is at a point of the walk from `(startX, startY)`. -/
structure AtPoint (startX startY : Int) (sx sy : Int32) (walk : Walk) (x y err : Int32) : Prop where
  x : x.toInt = startX + sx.toInt * walk.x
  y : y.toInt = startY + sy.toInt * walk.y
  err : err.toInt = walk.err

/-- The point after both moves of a turn. -/
theorem AtPoint.step {width height startX startY : Int} {sx sy x y err nextX nextY next : Int32}
    {walk : Walk} (point : AtPoint startX startY sx sy walk x y err)
    (placeX : nextX.toInt =
      if -height ≤ 2 * walk.err then x.toInt + sx.toInt else x.toInt)
    (placeY : nextY.toInt = if 2 * walk.err ≤ width then y.toInt + sy.toInt else y.toInt)
    (errs : next.toInt =
      if 2 * walk.err ≤ width then
        (if -height ≤ 2 * walk.err then walk.err + -height else walk.err) + width
      else if -height ≤ 2 * walk.err then walk.err + -height else walk.err) :
    AtPoint startX startY sx sy (walk.step width height) nextX nextY next := by
  have moveX : sx.toInt * (walk.x + 1) = sx.toInt * walk.x + sx.toInt := by ring
  have moveY : sy.toInt * (walk.y + 1) = sy.toInt * walk.y + sy.toInt := by ring
  rw [point.x] at placeX
  rw [point.y] at placeY
  by_cases across : -height ≤ 2 * walk.err <;> by_cases down : 2 * walk.err ≤ width <;>
    simp only [across, down, if_true, if_false] at placeX placeY errs <;>
    constructor <;> simp only [Walk.step, across, down, if_true, if_false, moveX, moveY] <;> omega

theorem isI32_neighbour {place sign : Int} (near : |place| < 2 ^ 28)
    (signs : sign = 1 ∨ sign = -1) : IsI32 (place + sign) := by
  obtain ⟨least, most⟩ := abs_lt.mp near
  rcases signs with rfl | rfl
  · exact ⟨by omega, by omega⟩
  · exact ⟨by omega, by omega⟩

/-- The errors of a turn, doubled and after either move. -/
theorem isI32_errors {width height err : Int} (wide : 0 ≤ width ∧ width < 2 ^ 29)
    (high : 0 ≤ height ∧ height < 2 ^ 29) (small : |2 * err| ≤ 3 * max width height) :
    IsI32 (2 * err) ∧ IsI32 (err + -height) ∧ IsI32 (err + width) ∧
      IsI32 (err + -height + width) := by
  have longest : max width height < 2 ^ 29 := max_lt wide.2 high.2
  obtain ⟨least, most⟩ := abs_le.mp small
  have near : -2 ^ 30 < err ∧ err < 2 ^ 30 := ⟨by omega, by omega⟩
  clear least most longest small
  exact ⟨⟨by omega, by omega⟩, ⟨by omega, by omega⟩, ⟨by omega, by omega⟩, by omega, by omega⟩

/-- A turn of the loop is a turn of the walk. -/
theorem yields_lineTurn {width height startX startY : Int} {dx dy sx sy x y err : Int32}
    {turns : Nat} {walk : Walk} (sides : Sides width height dx dy sx sy)
    (point : AtPoint startX startY sx sy walk x y err)
    (way : walk.OnWay width height turns)
    (across : |x.toInt| < 2 ^ 28) (down : |y.toInt| < 2 ^ 28) :
    Yields (lineTurn dx dy sx sy x y err) True fun next =>
      AtPoint startX startY sx sy (walk.step width height) next.1 next.2.1 next.2.2 := by
  have two : (2 : Int32).toInt = 2 := rfl
  obtain ⟨dxIs, dyIs, signX, signY, wide, high⟩ := sides
  obtain ⟨doubled, left, right, both⟩ := isI32_errors wide high way.small
  have computed : Yields (lineTurn dx dy sx sy x y err) _ fun next =>
      AtPoint startX startY sx sy (walk.step width height) next.1 next.2.1 next.2.2 :=
    (yields_mul32 two point.err).bind fun e eIs =>
      have moveX : e ≥ dy ↔ -height ≤ 2 * walk.err := by
        rw [ge_iff_le, Int32.le_iff_toInt_le, dyIs, eIs]
      have moveY : e ≤ dx ↔ 2 * walk.err ≤ width := by
        rw [Int32.le_iff_toInt_le, dxIs, eIs]
      (yields_lineMove point.err dyIs rfl rfl left (isI32_neighbour across signX)).bind
        fun first firstIs =>
          (yields_lineMove firstIs.1 dxIs rfl rfl (by split; exacts [both, right])
            (isI32_neighbour down signY)).bind fun second secondIs =>
              yields_pure (first.2, second.2, second.1) _ (by
                simp only [moveX] at firstIs
                simp only [moveX, moveY] at secondIs
                exact point.step firstIs.2 secondIs.2 secondIs.1)
  apply computed.mono
  · rw [iff_true]
    exact ⟨doubled, trivial, trivial, trivial⟩
  · exact fun _ _ same => same

/-- The course of a walk, which begins and ends near the origin. -/
structure Course (width height startX startY : Int) (dx dy sx sy x1 y1 : Int32) : Prop where
  sides : Sides width height dx dy sx sy
  endX : startX + sx.toInt * width = x1.toInt
  endY : startY + sy.toInt * height = y1.toInt
  begins : |startX| < 2 ^ 28 ∧ |startY| < 2 ^ 28
  ends : |x1.toInt| < 2 ^ 28 ∧ |y1.toInt| < 2 ^ 28

/-- A place between two places is as near to the origin as one of them. -/
theorem abs_between {start sign side step : Int} {bound : Int} (signs : sign = 1 ∨ sign = -1)
    (inside : 0 ≤ step ∧ step ≤ side) (begins : |start| < bound)
    (ends : |start + sign * side| < bound) : |start + sign * step| < bound := by
  rw [abs_lt] at *
  rcases signs with rfl | rfl
  · omega
  · omega

section

variable {width height startX startY : Int} {dx dy sx sy x1 y1 x y err : Int32} {turns : Nat}
  {walk : Walk}

/-- The points of a walk are near the origin. -/
theorem AtPoint.near (course : Course width height startX startY dx dy sx sy x1 y1)
    (point : AtPoint startX startY sx sy walk x y err) (way : walk.OnWay width height turns) :
    |x.toInt| < 2 ^ 28 ∧ |y.toInt| < 2 ^ 28 := by
  have ends := course.ends
  rw [← course.endX, ← course.endY] at ends
  rw [point.x, point.y]
  exact ⟨abs_between course.sides.sx way.across course.begins.1 ends.1,
    abs_between course.sides.sy way.down course.begins.2 ends.2⟩

/-- The loop is at its end when the walk is. -/
theorem AtPoint.ended_iff (course : Course width height startX startY dx dy sx sy x1 y1)
    (point : AtPoint startX startY sx sy walk x y err) (way : walk.OnWay width height turns) :
    (x = x1 ∧ y = y1) ↔ (turns : Int) = max width height := by
  rw [← way.last, ← Int32.toInt_inj, ← Int32.toInt_inj, point.x, point.y, ← course.endX, ← course.endY]
  have same {start sign first second : Int} (signs : sign = 1 ∨ sign = -1) :
      start + sign * first = start + sign * second ↔ first = second := by
    rcases signs with rfl | rfl
    · omega
    · omega
  rw [same course.sides.sx, same course.sides.sy]

/-- The point of a walk after a number of turns. -/
def pointAt (width height startX startY : Int) (sx sy : Int32) (turns : Nat) : Int32 × Int32 :=
  let walk := Walk.after width height turns
  (.ofInt (startX + sx.toInt * walk.x), .ofInt (startY + sy.toInt * walk.y))

theorem AtPoint.eq_pointAt
    (point : AtPoint startX startY sx sy (Walk.after width height turns) x y err) :
    (x, y) = pointAt width height startX startY sx sy turns := by
  rw [pointAt, ← point.x, ← point.y, Int32.ofInt_toInt, Int32.ofInt_toInt]

/-- The loop visits the points that are left of the walk, and stops at the last one. -/
theorem yields_lineWalk (course : Course width height startX startY dx dy sx sy x1 y1) (t : Int32)
    {steps : Nat} (longest : (steps : Int) = max width height) {rounds : Nat}
    (point : AtPoint startX startY sx sy (Walk.after width height turns) x y err)
    (less : turns ≤ steps) (enough : steps < turns + rounds) :
    Yields (lineWalk t x1 y1 dx dy sx sy rounds x y err) True fun visited =>
      visited = some ((List.range' turns (steps + 1 - turns)).map
        (pointAt width height startX startY sx sy)) := by
  induction rounds generalizing turns x y err with
  | zero => omega
  | succ rounds ih =>
      have way := Walk.onWay_after course.sides.wide.1 course.sides.high.1
        (longest ▸ Int.ofNat_le.mpr less)
      obtain ⟨across, down⟩ := point.near course way
      have ended := point.ended_iff course way
      have pen : Yields (penTracked t x y) True fun _ => True :=
        ⟨by rw [exact_penTracked t across down, eq_self], fun _ => trivial⟩
      have here := point.eq_pointAt
      rcases Nat.lt_or_eq_of_le less with before | last
      · have onward : ¬(x = x1 ∧ y = y1) := by
          rw [ended]
          omega
        have rest : List.range' turns (steps + 1 - turns) =
            turns :: List.range' (turns + 1) (steps + 1 - (turns + 1)) := by
          rw [← List.range'_succ]
          congr 1
          omega
        have computed : Yields (lineWalk t x1 y1 dx dy sx sy (rounds + 1) x y err)
            (True ∧ True ∧ True ∧ True)
            fun visited => visited = some ((List.range' turns (steps + 1 - turns)).map
              (pointAt width height startX startY sx sy)) := by
          simp only [lineWalk, if_neg onward]
          exact pen.bind fun _ _ =>
            (yields_lineTurn course.sides point way across down).bind fun next nextIs =>
              (ih (by rw [Walk.after_succ]; exact nextIs) before (by omega)).bind
                fun visited visitedIs => yields_pure _ _ (by
                  rw [visitedIs, rest, List.map_cons, ← here, Option.map_some])
        exact computed.mono (by simp) fun _ _ same => same
      · have stop : x = x1 ∧ y = y1 := by
          rw [ended]
          omega
        have rest : List.range' turns (steps + 1 - turns) = [turns] := by
          rw [last, Nat.add_sub_cancel_left]
          rfl
        have computed : Yields (lineWalk t x1 y1 dx dy sx sy (rounds + 1) x y err) (True ∧ True)
            fun visited => visited = some ((List.range' turns (steps + 1 - turns)).map
              (pointAt width height startX startY sx sy)) := by
          simp only [lineWalk, if_pos stop]
          exact pen.bind fun _ _ => yields_pure _ _ (by
            rw [rest, List.map_singleton, ← here])
        exact computed.mono (by simp) fun _ _ same => same

/-- The coordinates of the points of a walk are not cut off. -/
theorem toInt_pointAt (course : Course width height startX startY dx dy sx sy x1 y1)
    (way : (Walk.after width height turns).OnWay width height turns) :
    (pointAt width height startX startY sx sy turns).1.toInt =
        startX + sx.toInt * (Walk.after width height turns).x ∧
      (pointAt width height startX startY sx sy turns).2.toInt =
        startY + sy.toInt * (Walk.after width height turns).y := by
  have ends := course.ends
  rw [← course.endX, ← course.endY] at ends
  have across := abs_lt.mp (abs_between course.sides.sx way.across course.begins.1 ends.1)
  have down := abs_lt.mp (abs_between course.sides.sy way.down course.begins.2 ends.2)
  exact ⟨toInt_ofInt32 ⟨by omega, by omega⟩, toInt_ofInt32 ⟨by omega, by omega⟩⟩

/-- Two points that are next to each other, or the same. -/
def Adjacent (first second : Int32 × Int32) : Prop :=
  |second.1.toInt - first.1.toInt| ≤ 1 ∧ |second.2.toInt - first.2.toInt| ≤ 1

theorem pointAt_adjacent (course : Course width height startX startY dx dy sx sy x1 y1)
    (before : (Walk.after width height turns).OnWay width height turns)
    (next : (Walk.after width height (turns + 1)).OnWay width height (turns + 1)) :
    Adjacent (pointAt width height startX startY sx sy turns)
      (pointAt width height startX startY sx sy (turns + 1)) := by
  obtain ⟨firstX, firstY⟩ := toInt_pointAt course before
  obtain ⟨secondX, secondY⟩ := toInt_pointAt course next
  have moves := Walk.step_moves width height (Walk.after width height turns)
  rw [← Walk.after_succ] at moves
  have near {start sign step other : Int} (signs : sign = 1 ∨ sign = -1)
      (moved : other = step ∨ other = step + 1) :
      |start + sign * other - (start + sign * step)| ≤ 1 := by
    rw [abs_le]
    rcases signs with rfl | rfl
    · omega
    · omega
  rw [Adjacent, firstX, firstY, secondX, secondY]
  exact ⟨near course.sides.sx moves.1, near course.sides.sy moves.2⟩

/-- The last point of a walk. -/
theorem pointAt_last (course : Course width height startX startY dx dy sx sy x1 y1)
    (way : (Walk.after width height turns).OnWay width height turns)
    (last : (turns : Int) = max width height) :
    pointAt width height startX startY sx sy turns = (x1, y1) := by
  obtain ⟨across, down⟩ := way.last.mpr last
  rw [pointAt, across, down, course.endX, course.endY, Int32.ofInt_toInt, Int32.ofInt_toInt]

end

/-! ## A line -/

variable {x0 y0 x1 y1 : Int32}

/-- The sign of a direction. -/
def direction (first last : Int32) : Int32 := if first < last then 1 else -1

theorem direction_mul (first last : Int32) :
    ((direction first last).toInt = 1 ∨ (direction first last).toInt = -1) ∧
      first.toInt + (direction first last).toInt * (last.toInt - first.toInt).natAbs =
        last.toInt := by
  have one : (1 : Int32).toInt = 1 := rfl
  have minus : (-1 : Int32).toInt = -1 := rfl
  unfold direction
  split
  · next forward =>
      rw [Int32.lt_iff_toInt_lt] at forward
      rw [one]
      omega
  · next backward =>
      rw [Int32.lt_iff_toInt_lt] at backward
      rw [minus]
      omega

/-- The walk of a line between two ends near the origin. -/
theorem course_of_line (begins : |x0.toInt| < 2 ^ 28 ∧ |y0.toInt| < 2 ^ 28)
    (ends : |x1.toInt| < 2 ^ 28 ∧ |y1.toInt| < 2 ^ 28) {dx dy : Int32}
    (across : dx.toInt = (x1.toInt - x0.toInt).natAbs)
    (down : dy.toInt = -((y1.toInt - y0.toInt).natAbs : Int)) :
    Course (x1.toInt - x0.toInt).natAbs (y1.toInt - y0.toInt).natAbs x0.toInt y0.toInt dx dy
      (direction x0 x1) (direction y0 y1) x1 y1 := by
  obtain ⟨signX, endX⟩ := direction_mul x0 x1
  obtain ⟨signY, endY⟩ := direction_mul y0 y1
  have bounds := And.intro begins ends
  simp only [abs_lt] at bounds
  exact ⟨⟨across, down, signX, signY, by omega, by omega⟩, endX, endY, begins, ends⟩

theorem natAbs_sub_lt_of_near {left right : Int} (first : |left| < 2 ^ 28)
    (second : |right| < 2 ^ 28) : (left - right).natAbs < 2 ^ 29 := by
  rw [abs_lt] at *
  omega

/-- A side of the box, its length, and the difference to the other side. -/
theorem isI32_side {side : Int} (short : side.natAbs < 2 ^ 29) :
    IsI32 side ∧ IsI32 side.natAbs ∧ IsI32 (-side.natAbs) ∧
      ∀ {other : Int}, other.natAbs < 2 ^ 29 → IsI32 (other.natAbs + -side.natAbs) := by
  refine ⟨⟨by omega, by omega⟩, ⟨by omega, by omega⟩, ⟨by omega, by omega⟩, ?_⟩
  intro other small
  exact ⟨by omega, by omega⟩

/-- The loop of a line visits the points of its walk. -/
theorem yields_lineTracked (t : Int32) (begins : |x0.toInt| < 2 ^ 28 ∧ |y0.toInt| < 2 ^ 28)
    (ends : |x1.toInt| < 2 ^ 28 ∧ |y1.toInt| < 2 ^ 28) {steps rounds : Nat}
    (longest : steps = max (x1.toInt - x0.toInt).natAbs (y1.toInt - y0.toInt).natAbs)
    (enough : steps < rounds) :
    Yields (lineTracked rounds x0 y0 x1 y1 t) True fun visited =>
      visited = some ((List.range (steps + 1)).map
        (pointAt (x1.toInt - x0.toInt).natAbs (y1.toInt - y0.toInt).natAbs x0.toInt y0.toInt
          (direction x0 x1) (direction y0 y1))) := by
  have sideX := natAbs_sub_lt_of_near ends.1 begins.1
  have sideY := natAbs_sub_lt_of_near ends.2 begins.2
  have computed : Yields (lineTracked rounds x0 y0 x1 y1 t) _ fun visited =>
      visited = some ((List.range (steps + 1)).map
        (pointAt (x1.toInt - x0.toInt).natAbs (y1.toInt - y0.toInt).natAbs x0.toInt y0.toInt
          (direction x0 x1) (direction y0 y1))) :=
    (yields_sub32 (Eq.refl x1.toInt) (Eq.refl x0.toInt)).bind fun across acrossIs =>
      (yields_abs32 acrossIs).bind fun dx dxIs =>
        (yields_sub32 (Eq.refl y1.toInt) (Eq.refl y0.toInt)).bind fun down downIs =>
          (yields_abs32 downIs).bind fun rise riseIs =>
            (yields_neg32 riseIs).bind fun dy dyIs =>
              (yields_add32 dxIs dyIs).bind fun err errIs => by
                have course := course_of_line begins ends dxIs dyIs
                have point : AtPoint x0.toInt y0.toInt (direction x0 x1) (direction y0 y1)
                    (Walk.after (x1.toInt - x0.toInt).natAbs (y1.toInt - y0.toInt).natAbs 0)
                    x0 y0 err :=
                  ⟨by simp [Walk.after, Walk.start], by simp [Walk.after, Walk.start], errIs⟩
                have walk := yields_lineWalk course t (by omega) point (Nat.zero_le steps)
                  (by omega : steps < 0 + rounds)
                rw [Nat.sub_zero, ← List.range_eq_range'] at walk
                exact walk
  apply computed.mono
  · rw [iff_true]
    obtain ⟨fallX, riseX, -, -⟩ := isI32_side sideX
    obtain ⟨fallY, riseY, sinks, difference⟩ := isI32_side sideY
    exact ⟨fallX, riseX, fallY, riseY, sinks, difference sideX, trivial⟩
  · exact fun _ _ same => same

end

/-- A line between two ends near the origin visits both of them, goes from one point to one
next to it, and stops after as many steps as its longer side has, without an overflow. -/
theorem line_connects {x0 y0 x1 y1 : Int32} (t : Int32)
    (begins : |x0.toInt| < 2 ^ 28 ∧ |y0.toInt| < 2 ^ 28)
    (ends : |x1.toInt| < 2 ^ 28 ∧ |y1.toInt| < 2 ^ 28) :
    ∃ points : List (Int32 × Int32),
      points.length =
        max (x1.toInt - x0.toInt).natAbs (y1.toInt - y0.toInt).natAbs + 1 ∧
      points.head? = some (x0, y0) ∧ points.getLast? = some (x1, y1) ∧
      points.IsChain Adjacent ∧
      (∀ rounds, points.length ≤ rounds →
        lineTracked rounds x0 y0 x1 y1 t = ⟨some points, true⟩) ∧
      line x0 y0 x1 y1 t = points.flatMap fun point => penDots t point.1 point.2 := by
  obtain ⟨steps, longest⟩ : ∃ steps,
      steps = max (x1.toInt - x0.toInt).natAbs (y1.toInt - y0.toInt).natAbs := ⟨_, rfl⟩
  have bounds := And.intro begins ends
  simp only [abs_lt] at bounds
  obtain ⟨dx, dxIs⟩ : ∃ dx : Int32, dx.toInt = (x1.toInt - x0.toInt).natAbs :=
    ⟨_, toInt_ofInt32 ⟨by omega, by omega⟩⟩
  obtain ⟨dy, dyIs⟩ : ∃ dy : Int32, dy.toInt = -((y1.toInt - y0.toInt).natAbs : Int) :=
    ⟨_, toInt_ofInt32 ⟨by omega, by omega⟩⟩
  have course := course_of_line begins ends dxIs dyIs
  have way {turns : Nat} (less : turns ≤ steps) :=
    @Walk.onWay_after _ _ turns course.sides.wide.1 course.sides.high.1 (by omega)
  have stops (rounds : Nat) (enough : steps < rounds) :=
    yields_lineTracked t begins ends longest enough
  refine ⟨(List.range (steps + 1)).map (pointAt (x1.toInt - x0.toInt).natAbs
    (y1.toInt - y0.toInt).natAbs x0.toInt y0.toInt (direction x0 x1) (direction y0 y1)),
    by rw [List.length_map, List.length_range, longest], ?_, ?_, ?_, ?_, ?_⟩
  · rw [List.head?_map, List.head?_range, if_neg (Nat.succ_ne_zero steps), Option.map_some]
    simp [pointAt, Walk.after, Walk.start]
  · rw [List.range_succ, List.map_append, List.map_singleton, List.getLast?_concat]
    rw [pointAt_last course (way le_rfl) (by omega)]
  · rw [List.isChain_map, List.isChain_range_succ]
    intro turns less
    exact pointAt_adjacent course (way (Nat.le_of_lt less)) (way less)
  · intro rounds enough
    rw [List.length_map, List.length_range] at enough
    exact (stops rounds enough).eq_exact
  · apply line_of_lineTracked
    have enough : steps < lineRounds := by
      unfold lineRounds
      omega
    rw [(stops lineRounds enough).eq_exact]

/-- A steep line that goes up and to the left. -/
theorem line_connects_steep :
    ∃ points : List (Int32 × Int32), points.length = 8 ∧ points.head? = some (3, 4) ∧
      points.getLast? = some (1, -3) ∧ points.IsChain Adjacent ∧
      (∀ rounds, points.length ≤ rounds → lineTracked rounds 3 4 1 (-3) 5 = ⟨some points, true⟩) ∧
      line 3 4 1 (-3) 5 = points.flatMap fun point => penDots 5 point.1 point.2 :=
  @line_connects 3 4 1 (-3) 5 (by decide) (by decide)

end PrinterSdk.Render
