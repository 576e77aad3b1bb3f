import PrinterSdk.Administration.Change

/-!
# Requests inside allowed ranges

A requested number, or a requested range of numbers, is compared with the ranges a printer
allows.  A number is compared with both ends of the range; of a requested range only the
lower end is compared with the lower end and the upper end with the upper one.
-/

namespace PrinterSdk.Administration

open PrinterSdk.Data PrinterSdk.Ipp

/-- The integers a requested value stands for: itself, or all between the two ends in
whichever order they are given. -/
def Requests : ValueData → Int32 → Prop
  | .integer value, number => number = value
  | .rangeOfInteger lower upper, number =>
      (lower ≤ number ∧ number ≤ upper) ∨ (upper ≤ number ∧ number ≤ lower)
  | _, _ => False

/-- A range that is given from its larger end to its smaller one. -/
def Inverted : ValueData → Prop
  | .rangeOfInteger lower upper => upper < lower
  | _ => False

instance (data : ValueData) : Decidable (Inverted data) := by
  cases data <;> unfold Inverted <;> infer_instance

/-- Any name is accepted where the administrator defines the names. -/
def NameDefined (requested allowed : Value) : Prop :=
  allowed.tag = .adminDefine ∧
    (requested.tag = .nameWithLanguage ∨ requested.tag = .nameWithoutLanguage)

/-- No value of the list allows everything. -/
def Restrictive (allowed : List Value) : Prop :=
  ∀ candidate ∈ allowed, candidate.data ≠ .boolean true

/-- A request is accepted because of an allowed range. -/
structure AcceptedByRange (requested : Value) (allowed : List Value) (lower upper : Int32) :
    Prop where
  accepted : valueMatchesAny requested allowed = true
  range : ∃ candidate ∈ allowed, candidate.data = .rangeOfInteger lower upper ∧
    ¬NameDefined requested candidate ∧ valueMatches requested candidate = true

section

variable {requested candidate : Value} {lower upper : Int32}

/-- How a request compares with an allowed range. -/
theorem valueMatches_range (range : candidate.data = .rangeOfInteger lower upper)
    (notName : ¬NameDefined requested candidate) :
    valueMatches requested candidate =
      match requested.data with
      | .integer value => lower ≤ value && value ≤ upper
      | .rangeOfInteger first last => lower ≤ first && last ≤ upper
      | _ => false := by
  have notTrue : candidate.data ≠ .boolean true := by
    rw [range]
    exact nofun
  have differ : ∀ data : ValueData, (∀ first last, data ≠ .rangeOfInteger first last) →
      (data == candidate.data) = false := by
    intro data other
    rw [range]
    exact beq_eq_false_iff_ne.mpr (other lower upper)
  have ordinary : ¬(candidate.tag = .adminDefine ∧
      (requested.tag = .nameWithLanguage ∨ requested.tag = .nameWithoutLanguage)) := notName
  rw [valueMatches, if_neg ordinary, if_neg notTrue]
  obtain ⟨tag, data⟩ := requested
  rw [range] at differ ⊢
  cases data with
  | integer value => rfl
  | rangeOfInteger first last => rfl
  | _ => simp [differ]

/-- A value with the syntax of a range. -/
def allowedRange (lower upper : Int32) : Value := ⟨.rangeOfInteger, .rangeOfInteger lower upper⟩

theorem not_nameDefined_range : ¬NameDefined requested (allowedRange lower upper) := by
  intro defined
  cases defined.1

theorem valueMatches_allowedRange :
    valueMatches requested (allowedRange lower upper) =
      match requested.data with
      | .integer value => lower ≤ value && value ≤ upper
      | .rangeOfInteger first last => lower ≤ first && last ≤ upper
      | _ => false :=
  valueMatches_range rfl not_nameDefined_range

theorem acceptedByRange_single
    (accepted : valueMatches requested (allowedRange lower upper) = true) :
    AcceptedByRange requested [allowedRange lower upper] lower upper where
  accepted := by
    rw [valueMatchesAny, List.any_cons, accepted]
    rfl
  range := ⟨_, List.mem_singleton_self _, rfl, not_nameDefined_range, accepted⟩

theorem restrictive_single : Restrictive [allowedRange lower upper] := by
  intro candidate member
  rw [List.mem_singleton.mp member]
  exact nofun

/-- A request that is accepted by a range and not inverted lies in it. -/
theorem inside_of_matches (range : candidate.data = .rangeOfInteger lower upper)
    (notName : ¬NameDefined requested candidate) (ordered : ¬Inverted requested.data)
    (accepted : valueMatches requested candidate = true) {number : Int32}
    (asked : Requests requested.data number) : lower ≤ number ∧ number ≤ upper := by
  rw [valueMatches_range range notName] at accepted
  cases data : requested.data with
  | integer value =>
      rw [data] at accepted asked
      cases asked
      simpa using accepted
  | rangeOfInteger first last =>
      rw [data] at accepted asked ordered
      have ends : lower ≤ first ∧ last ≤ upper := by simpa using accepted
      have forward : first ≤ last := Int32.not_lt.mp ordered
      rcases asked with between | reverse
      · exact ⟨Int32.le_trans ends.1 between.1, Int32.le_trans between.2 ends.2⟩
      · exact ⟨Int32.le_trans ends.1 (Int32.le_trans forward reverse.1),
          Int32.le_trans reverse.2 (Int32.le_trans forward ends.2)⟩
  | _ =>
      rw [data] at asked
      exact asked.elim

end

/-- Requests that are accepted because of a range lie in it, whatever else is allowed,
exactly when they are not inverted. -/
theorem accepted_inside_iff (requested : Value) :
    (∀ allowed, Restrictive allowed → ∀ lower upper,
        AcceptedByRange requested allowed lower upper →
        ∀ number, Requests requested.data number → lower ≤ number ∧ number ≤ upper) ↔
      ¬Inverted requested.data := by
  constructor
  · intro sound inverted
    obtain ⟨tag, data⟩ := requested
    cases data with
    | rangeOfInteger first last =>
        -- The allowed range holds the smaller end only.
        have accepted : valueMatches ⟨tag, .rangeOfInteger first last⟩
            (allowedRange last last) = true := by
          rw [valueMatches_allowedRange]
          simp [Int32.le_of_lt inverted]
        have inside := sound _ restrictive_single last last (acceptedByRange_single accepted)
          first (Or.inr ⟨Int32.le_of_lt inverted, Int32.le_refl first⟩)
        exact Int32.not_le.mpr inverted inside.2
    | _ => exact inverted
  · rintro ordered allowed - lower upper ⟨-, candidate, -, range, notName, accepted⟩ number asked
    exact inside_of_matches range notName ordered accepted asked

/-- A request from 100 down to -100 is accepted where 0 to 10 is allowed. -/
theorem inverted_request_accepted :
    ∃ allowed lower upper, Restrictive allowed ∧
      AcceptedByRange ⟨.rangeOfInteger, .rangeOfInteger 100 (-100)⟩ allowed lower upper ∧
      ¬∀ number, Requests (.rangeOfInteger 100 (-100)) number →
        lower ≤ number ∧ number ≤ upper := by
  have accepted : valueMatches ⟨.rangeOfInteger, .rangeOfInteger 100 (-100)⟩
      (allowedRange 0 10) = true := by
    rw [valueMatches_allowedRange]
    decide
  refine ⟨_, 0, 10, restrictive_single, acceptedByRange_single accepted, ?_⟩
  intro inside
  have largest := inside 100 (Or.inr ⟨by decide, by decide⟩)
  exact absurd largest.2 (by decide)

end PrinterSdk.Administration
