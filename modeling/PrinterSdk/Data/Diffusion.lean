import PrinterSdk.Data.Outcome
import PrinterSdk.Data.Tracked
import Mathlib.Algebra.Order.Group.Unbundled.Abs
import Mathlib.Algebra.Order.Ring.Abs
import Mathlib.Algebra.Order.Ring.Int

/-!
# Error diffusion

A scan over a buffer of numbers passes the error of each turn on to places ahead of it, at
fixed distances.  Every distance brings at most one amount to a place, so that no place moves
further from where it started than all distances together allow.
-/

namespace PrinterSdk.Data

section

variable {ε : Type}

/-- A place of a buffer of `i32` gets an amount more, which panics outside their range and
outside the buffer. -/
def addAt (work : List Int) (place : Nat) (amount : Int) : Outcome ε (List Int) :=
  match work[place]? with
  | some value =>
      if IsI32 (value + amount) then .ok (work.set place (value + amount)) else panics
  | none => panics

/-- The places at some distances get their amounts. -/
def diffuse (work : List Int) (turn : Nat) : List (Nat × Int) → Outcome ε (List Int)
  | [] => .ok work
  | (distance, amount) :: rest => do
      let next ← addAt work (turn + distance) amount
      diffuse next turn rest

theorem diffuse_nil (work : List Int) (turn : Nat) :
    (diffuse work turn [] : Outcome ε (List Int)) = pure work := rfl

theorem diffuse_cons (work : List Int) (turn distance : Nat) (amount : Int)
    (rest : List (Nat × Int)) :
    (diffuse work turn ((distance, amount) :: rest) : Outcome ε (List Int)) =
      addAt work (turn + distance) amount >>= fun next => diffuse next turn rest := rfl

/-- A buffer differs from another one by at most a bound at each place. -/
structure Near (base work : List Int) (bound : Nat → Nat) : Prop where
  length : work.length = base.length
  within : ∀ (place : Nat) (value start : Int), work[place]? = some value →
    base[place]? = some start → |value - start| ≤ bound place

theorem Near.refl (base : List Int) (bound : Nat → Nat) : Near base base bound where
  length := rfl
  within := by
    intro place value start found same
    rw [found] at same
    rw [Option.some.inj same, Int.sub_self, abs_zero]
    exact Int.natCast_nonneg _

theorem Near.mono {base work : List Int} {bound other : Nat → Nat} (near : Near base work bound)
    (le : ∀ place, bound place ≤ other place) : Near base work other where
  length := near.length
  within := fun place value start found same =>
    le_trans (near.within place value start found same) (Int.ofNat_le.mpr (le place))

section

variable {base work : List Int} {bound : Nat → Nat} {limit unit turn : Nat}

/-- A place that gets an amount moves by it. -/
theorem Near.addAt (near : Near base work bound) {place : Nat} {amount : Int}
    (small : |amount| ≤ unit) (inside : place < base.length)
    (limited : ∀ start ∈ base, |start| ≤ limit) (fits : limit + bound place + unit < 2 ^ 31) :
    ∃ next, (Data.addAt work place amount : Outcome ε (List Int)) = .ok next ∧
      Near base next fun other => bound other + if other = place then unit else 0 := by
  have present : place < work.length := by rwa [near.length]
  have found := List.getElem?_eq_getElem present
  have origin := List.getElem?_eq_getElem inside
  generalize work[place] = value at found
  generalize base[place] = start at origin
  have close := near.within place value start found origin
  have low := limited start (List.mem_of_getElem? origin)
  have moved : |value + amount - start| ≤ bound place + unit := by
    calc |value + amount - start| = |(value - start) + amount| := by congr 1; omega
      _ ≤ |value - start| + |amount| := abs_add_le _ _
      _ ≤ bound place + unit := Int.add_le_add close small
  have machine : IsI32 (value + amount) := by
    rw [abs_le] at moved low
    constructor <;> omega
  refine ⟨work.set place (value + amount), ?_, ?_, ?_⟩
  · rw [Data.addAt, found]
    exact if_pos machine
  · rw [List.length_set, near.length]
  · intro other changed begun stored same
    by_cases here : other = place
    · subst here
      rw [List.getElem?_set_self present] at stored
      rw [origin] at same
      rw [if_pos rfl, ← Option.some.inj stored, ← Option.some.inj same]
      exact_mod_cast moved
    · rw [List.getElem?_set_ne (Ne.symm here)] at stored
      rw [if_neg here, Nat.add_zero]
      exact near.within other changed begun stored same

/-- The amounts that a place gets in one turn. -/
def shares (turn place : Nat) (distances : List Nat) : Nat :=
  distances.countP fun distance => place = turn + distance

theorem Near.diffuse {amounts : List (Nat × Int)} (near : Near base work bound)
    (small : ∀ share ∈ amounts, |share.2| ≤ unit)
    (inside : ∀ share ∈ amounts, turn + share.1 < base.length)
    (limited : ∀ start ∈ base, |start| ≤ limit)
    (fits : ∀ place, limit + (bound place + unit * shares turn place (amounts.map Prod.fst)) <
      2 ^ 31) :
    ∃ next, (Data.diffuse work turn amounts : Outcome ε (List Int)) = .ok next ∧
      Near base next fun place => bound place + unit * shares turn place (amounts.map Prod.fst) := by
  induction amounts generalizing work bound with
  | nil => exact ⟨work, rfl, near⟩
  | cons share rest ih =>
      have grown (place : Nat) :
          shares turn place ((share :: rest).map Prod.fst) =
            shares turn place (rest.map Prod.fst) + if place = turn + share.1 then 1 else 0 := by
        rw [List.map_cons, shares, List.countP_cons, ← shares]
        simp only [decide_eq_true_eq]
      have split (place : Nat) :
          bound place + unit * shares turn place ((share :: rest).map Prod.fst) =
            bound place + (if place = turn + share.1 then unit else 0) +
              unit * shares turn place (rest.map Prod.fst) := by
        rw [grown, Nat.mul_add]
        split <;> omega
      simp only [split] at fits ⊢
      have here := fits (turn + share.1)
      rw [if_pos rfl] at here
      obtain ⟨next, added, after⟩ := near.addAt (ε := ε) (small share (List.mem_cons_self ..))
        (inside share (List.mem_cons_self ..)) limited (by omega)
      obtain ⟨last, ended, far⟩ := ih after
        (fun other member => small other (List.mem_cons_of_mem _ member))
        (fun other member => inside other (List.mem_cons_of_mem _ member)) fits
      refine ⟨last, ?_, far⟩
      rw [Data.diffuse, except_bind_eq_ok]
      exact ⟨next, added, ended⟩

end

/-! ## Scans -/

/-- The amounts that a place may have got before a turn. -/
def received (distances : List Nat) (turn place : Nat) : Nat :=
  distances.countP fun distance => place < turn + distance

theorem received_le (distances : List Nat) (turn place : Nat) :
    received distances turn place ≤ distances.length :=
  List.countP_le_length

theorem received_succ (distances : List Nat) (turn place : Nat) :
    received distances (turn + 1) place =
      received distances turn place + shares turn place distances := by
  induction distances with
  | nil => rfl
  | cons distance rest ih =>
      simp only [received, shares, List.countP_cons, decide_eq_true_eq] at ih ⊢
      rw [ih]
      split_ifs <;> omega

/-- A turn of a scan keeps every place within what it may have received. -/
theorem Near.turn {base work : List Int} {distances : List Nat} {amounts : List (Nat × Int)}
    {limit unit turn : Nat}
    (near : Near base work fun place => unit * received distances turn place)
    (reached : (amounts.map Prod.fst).Sublist distances)
    (small : ∀ share ∈ amounts, |share.2| ≤ unit)
    (inside : ∀ share ∈ amounts, turn + share.1 < base.length)
    (limited : ∀ start ∈ base, |start| ≤ limit)
    (fits : limit + unit * distances.length < 2 ^ 31) :
    ∃ next, (Data.diffuse work turn amounts : Outcome ε (List Int)) = .ok next ∧
      Near base next fun place => unit * received distances (turn + 1) place := by
  have step (place : Nat) : unit * received distances turn place +
      unit * shares turn place (amounts.map Prod.fst) ≤
        unit * received distances (turn + 1) place := by
    rw [received_succ, Nat.mul_add]
    apply Nat.add_le_add_left
    exact Nat.mul_le_mul_left unit (reached.countP_le)
  obtain ⟨next, ended, after⟩ := near.diffuse (ε := ε) small inside limited fun place => by
    have most := Nat.mul_le_mul_left unit (received_le distances (turn + 1) place)
    have least := step place
    omega
  exact ⟨next, ended, after.mono step⟩

/-- A turn without an error changes nothing. -/
theorem diffuse_zero {work : List Int} {turn : Nat} {amounts : List (Nat × Int)}
    (idle : ∀ share ∈ amounts, share.2 = 0)
    (inside : ∀ share ∈ amounts, turn + share.1 < work.length)
    (machine : ∀ value ∈ work, IsI32 value) :
    (diffuse work turn amounts : Outcome ε (List Int)) = .ok work := by
  induction amounts with
  | nil => rfl
  | cons share rest ih =>
      have present := inside share (List.mem_cons_self ..)
      have same : (addAt work (turn + share.1) share.2 : Outcome ε (List Int)) = .ok work := by
        rw [addAt, List.getElem?_eq_getElem present, idle share (List.mem_cons_self ..)]
        simp only [Int.add_zero, if_pos (machine _ (List.getElem_mem present)),
          List.set_getElem_self]
      rw [diffuse, except_bind_eq_ok]
      exact ⟨work, same, ih (fun other member => idle other (List.mem_cons_of_mem _ member))
        fun other member => inside other (List.mem_cons_of_mem _ member)⟩

end

end PrinterSdk.Data
