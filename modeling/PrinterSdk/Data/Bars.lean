import Mathlib.Data.List.Basic

/-!
# Bars and spaces

A linear symbol is a row of modules, black or white.  It is drawn from the widths of its
bars and spaces, which alternate in colour, and a scanner recovers the widths as the runs
of modules of one colour.
-/

namespace PrinterSdk.Data.Bars

/-- Draw bars and spaces of the given widths, the first of them in the given colour. -/
def draw (color : Bool) : List Nat → List Bool
  | [] => []
  | width :: rest => List.replicate width color ++ draw (!color) rest

/-- The maximal runs of modules of one colour. -/
def runs : List Bool → List (Bool × Nat)
  | [] => []
  | color :: rest =>
      match runs rest with
      | [] => [(color, 1)]
      | (next, width) :: later =>
          if color = next then (color, width + 1) :: later else (color, 1) :: (next, width) :: later

/-- The runs of what is drawn: the widths, in alternating colours. -/
def alternate (color : Bool) : List Nat → List (Bool × Nat)
  | [] => []
  | width :: rest => (color, width) :: alternate (!color) rest

theorem runs_cons (color : Bool) (rest : List Bool) :
    runs (color :: rest) =
      match runs rest with
      | [] => [(color, 1)]
      | (next, width) :: later =>
          if color = next then (color, width + 1) :: later
          else (color, 1) :: (next, width) :: later := rfl

/-- A bar in front of a row that does not begin with its colour is a run of its own. -/
theorem runs_replicate_append (color : Bool) (width : Nat) {rest : List Bool}
    (ends : ∀ count later, runs rest ≠ (color, count) :: later) :
    runs (List.replicate (width + 1) color ++ rest) = (color, width + 1) :: runs rest := by
  induction width with
  | zero =>
      rw [List.replicate_one, List.singleton_append, runs_cons]
      cases found : runs rest with
      | nil => rfl
      | cons run later =>
          have different : color ≠ run.1 := fun same => ends run.2 later (by rw [found, same])
          exact if_neg different
  | succ width ih =>
      rw [List.replicate_succ, List.cons_append, runs_cons, ih]
      exact if_pos rfl

/-- A scanner recovers the widths that were drawn. -/
theorem runs_draw {widths : List Nat} (positive : ∀ width ∈ widths, 0 < width) (color : Bool) :
    runs (draw color widths) = alternate color widths := by
  induction widths generalizing color with
  | nil => rfl
  | cons width rest ih =>
      obtain ⟨here, later⟩ := List.forall_mem_cons.mp positive
      obtain ⟨below, rfl⟩ := Nat.exists_eq_succ_of_ne_zero (Nat.pos_iff_ne_zero.mp here)
      have found := ih later (!color)
      rw [draw, alternate, runs_replicate_append, found]
      intro count more same
      rw [found] at same
      cases rest with
      | nil => cases same
      | cons next rest =>
          have equal : (!color) = color := congrArg Prod.fst (List.cons.inj same).1
          cases color <;> cases equal

theorem alternate_widths (color : Bool) (widths : List Nat) :
    (alternate color widths).map Prod.snd = widths := by
  induction widths generalizing color with
  | nil => rfl
  | cons width rest ih => rw [alternate, List.map_cons, ih]

/-- Bars and spaces drawn one after the other: the colour goes on alternating. -/
theorem draw_append (color : Bool) (left right : List Nat) :
    draw color (left ++ right) =
      draw color left ++ draw (if left.length % 2 = 0 then color else !color) right := by
  induction left generalizing color with
  | nil => rfl
  | cons width left ih =>
      have parity : (if left.length % 2 = 0 then !color else !!color) =
          if (width :: left).length % 2 = 0 then color else !color := by
        rw [List.length_cons, Bool.not_not]
        by_cases even : left.length % 2 = 0
        · rw [if_pos even, if_neg (by omega)]
        · rw [if_neg even, if_pos (by omega)]
      rw [List.cons_append, draw, ih, parity, draw, List.append_assoc]

end PrinterSdk.Data.Bars
