import PrinterSdk.Protocol.Planner

/-!
# Several copies of a page

Every family but TSPL prints several copies by repeating the body of the plan for one
copy between the job boundaries.  The size of the repetition is checked before it is
built, and the whole plan is checked again once it is there.
-/

namespace PrinterSdk.Protocol

open PrinterSdk.Data

/-- The limits of a plan are `usize` values. -/
def ProcessingLimits.Machine (limits : ProcessingLimits) : Prop :=
  limits.maxPlanActions ≤ usizeMax ∧ limits.maxPlanBytes ≤ usizeMax

instance (limits : ProcessingLimits) : Decidable limits.Machine :=
  inferInstanceAs (Decidable (_ ∧ _))

/-! ## Owned bytes -/

theorem actionOwnedBytes_eq_ok {action : Action} {bytes : Nat}
    (counted : actionOwnedBytes action = .ok bytes) : bytes = action.ownedBytes := by
  cases action with
  | commandWrite name payload atomic =>
      exact (checkedAdd_eq_some.mp ((okOr_eq_ok _ _ _).mp counted)).2.symm
  | _ => exact (Except.ok.inj counted).symm

theorem ownedBytesFrom_eq_ok {total found : Nat} {actions : List Action}
    (counted : ownedBytesFrom total actions = .ok found) :
    found = total + ownedTotal actions := by
  induction actions generalizing total with
  | nil => exact (Except.ok.inj counted).symm
  | cons action rest ih =>
      simp only [ownedBytesFrom, except_bind_eq_ok, okOr_eq_ok] at counted
      obtain ⟨bytes, own, next, added, later⟩ := counted
      rw [ih later, ← (checkedAdd_eq_some.mp added).2, actionOwnedBytes_eq_ok own,
        ownedTotal_cons, Nat.add_assoc]

theorem planOwnedBytes_eq_ok {actions : List Action} {found : Nat}
    (counted : planOwnedBytes actions = .ok found) : found = ownedTotal actions := by
  have total := ownedBytesFrom_eq_ok counted
  rw [Nat.zero_add] at total
  exact total

section

variable {limits : ProcessingLimits} {actions : List Action}

/-- What `enforce_plan_limits` enforces. -/
theorem within_of_enforcePlanLimits {result : Unit}
    (enforced : enforcePlanLimits actions limits = .ok result) :
    actions.length ≤ limits.maxPlanActions ∧ ownedTotal actions ≤ limits.maxPlanBytes := by
  simp only [enforcePlanLimits, except_bind_eq_ok, refuseIf_eq_ok, Nat.not_lt] at enforced
  obtain ⟨_, few, owned, counted, small⟩ := enforced
  rw [planOwnedBytes_eq_ok counted] at small
  exact ⟨few, small⟩

theorem enforcePlanLimits_eq_ok (machine : limits.Machine)
    (few : actions.length ≤ limits.maxPlanActions)
    (small : ownedTotal actions ≤ limits.maxPlanBytes) :
    enforcePlanLimits actions limits = .ok () := by
  simp only [enforcePlanLimits, except_bind_eq_ok, refuseIf_eq_ok, Nat.not_lt]
  exact ⟨(), few, _, planOwnedBytes_eq (Nat.le_trans small machine.2), small⟩

end

/-! ## Plans of one copy -/

section

variable {printer : PrinterDefinition} {raster : Raster} {options : Options}
  {limits : ProcessingLimits}

/-- What `plan_inner` asks of the number of copies. -/
theorem copies_of_checkRequest {result : Unit}
    (checked : checkRequest raster options limits = .ok result) :
    1 ≤ options.copies.toNat ∧ options.copies ≤ limits.maxCopies := by
  simp only [checkRequest, except_bind_eq_ok, refuseIf_eq_ok] at checked
  obtain ⟨_, -, _, -, _, -, _, some, _, few, -⟩ := checked
  have positive : options.copies.toNat ≠ 0 := fun zero => some (UInt16.toNat_inj.mp zero)
  exact ⟨Nat.one_le_iff_ne_zero.mpr positive, UInt16.not_lt.mp few⟩

/-- The checks of a request do not depend on the number of copies within its range. -/
theorem checkRequest_copies {copies : UInt16}
    (checked : checkRequest raster options limits = .ok ()) (some : 1 ≤ copies.toNat)
    (few : copies ≤ limits.maxCopies) :
    checkRequest raster { options with copies } limits = .ok () := by
  simp only [checkRequest, except_bind_eq_ok, refuseIf_eq_ok] at checked ⊢
  obtain ⟨expected, size, _, length, _, density, _, -, _, -, later⟩ := checked
  have positive : copies ≠ 0 := fun zero => by
    rw [zero] at some
    exact absurd some (by decide)
  exact ⟨expected, size, (), length, (), density, (), positive, (), UInt16.not_lt.mpr few, later⟩

/-- A request for one copy is its own single request. -/
theorem single_of_one (one : options.copies.toNat = 1) : { options with copies := 1 } = options := by
  have copies : options.copies = 1 := UInt16.toNat_inj.mp one
  cases options
  cases copies
  rfl

/-- A plan repeats the body of its page, once for every copy; TSPL leaves the copies to
the printer. -/
theorem planInner_eq_ok {planned : Plan}
    (returned : planInner printer raster options limits = .ok planned) :
    checkRequest raster options limits = .ok () ∧
      if printer.protocol = .tspl then
        ∃ body, pageBody printer raster options = .ok body ∧ planned = jobPlan printer body
      else
        ∃ body, pageBody printer raster { options with copies := 1 } = .ok body ∧
          planned = jobPlan printer (List.replicate options.copies.toNat body).flatten := by
  simp only [planInner, except_bind_eq_ok] at returned
  obtain ⟨_, checked, returned⟩ := returned
  refine ⟨checked, ?_⟩
  by_cases several : printer.protocol ≠ .tspl ∧ 1 < options.copies
  · rw [if_pos several] at returned
    simp only [except_bind_eq_ok, except_pure_eq_ok] at returned
    obtain ⟨_, -, body, page, _, -, _, -, _, -, _, -, _, -, same⟩ := returned
    rw [if_neg several.1]
    exact ⟨body, page, same.symm⟩
  · rw [if_neg several] at returned
    simp only [except_bind_eq_ok, except_pure_eq_ok] at returned
    obtain ⟨body, page, same⟩ := returned
    by_cases tspl : printer.protocol = .tspl
    · rw [if_pos tspl]
      exact ⟨body, page, same.symm⟩
    · rw [if_neg tspl]
      have few : ¬1 < options.copies.toNat := fun more =>
        several ⟨tspl, UInt16.lt_iff_toNat_lt.mpr more⟩
      have one : options.copies.toNat = 1 :=
        Nat.le_antisymm (Nat.not_lt.mp few) (copies_of_checkRequest checked).1
      refine ⟨body, ?_, ?_⟩
      · rw [single_of_one one]
        exact page
      · rw [one, List.replicate_one, List.flatten_singleton]
        exact same.symm

/-- A plan for one copy stays within limits that admit several. -/
theorem enforcePlanLimits_single {body : List Action} {copies : Nat} (machine : limits.Machine)
    (some : 1 ≤ copies)
    (few : (jobPlan printer (List.replicate copies body).flatten).actions.length ≤
      limits.maxPlanActions)
    (small : ownedTotal (jobPlan printer (List.replicate copies body).flatten).actions ≤
      limits.maxPlanBytes) :
    enforcePlanLimits (jobPlan printer body).actions limits = .ok () := by
  have single := length_copies printer 1 body
  have singleTotal := ownedTotal_copies printer 1 body
  rw [List.replicate_one, List.flatten_singleton] at single singleTotal
  have less : body.length * 1 ≤ body.length * copies := Nat.mul_le_mul_left _ some
  have lessTotal : ownedTotal body * 1 ≤ ownedTotal body * copies := Nat.mul_le_mul_left _ some
  rw [length_copies] at few
  rw [ownedTotal_copies] at small
  apply enforcePlanLimits_eq_ok machine
  · rw [single]
    omega
  · rw [singleTotal]
    omega

/-- A plan for several copies comes with the plan for one. -/
theorem planWithLimits_eq_ok (machine : limits.Machine) (family : printer.protocol ≠ .tspl)
    {planned : Plan} (returned : planWithLimits printer raster options limits = .ok planned) :
    ∃ body, planWithLimits printer raster { options with copies := 1 } limits =
        .ok (jobPlan printer body) ∧
      planned = jobPlan printer (List.replicate options.copies.toNat body).flatten := by
  simp only [planWithLimits, except_bind_eq_ok, except_pure_eq_ok] at returned
  obtain ⟨found, inner, _, enforced, same⟩ := returned
  rw [same] at inner
  rw [same] at enforced
  obtain ⟨checked, page⟩ := planInner_eq_ok inner
  rw [if_neg family] at page
  obtain ⟨body, page, repeated⟩ := page
  have within := within_of_enforcePlanLimits enforced
  have bounds := copies_of_checkRequest checked
  have one : (1 : UInt16) ≤ limits.maxCopies :=
    UInt16.le_trans (UInt16.le_iff_toNat_le.mpr bounds.1) bounds.2
  refine ⟨body, ?_, repeated⟩
  rw [repeated] at within
  simp only [planWithLimits, planInner, except_bind_eq_ok, except_pure_eq_ok]
  refine ⟨jobPlan printer body, ⟨(), checkRequest_copies checked (Nat.le_refl 1) one, ?_⟩, (),
    enforcePlanLimits_single machine bounds.1 within.1 within.2, rfl⟩
  rw [if_neg fun several => absurd several.2 (by decide)]
  simp only [except_bind_eq_ok, except_pure_eq_ok]
  exact ⟨body, page, rfl⟩

/-- The plan for one copy, when it exists, gives the plan for several. -/
theorem planWithLimits_of_single (machine : limits.Machine) (family : printer.protocol ≠ .tspl)
    {single : Plan} {body : List Action}
    (returned : planWithLimits printer raster { options with copies := 1 } limits = .ok single)
    (shape : single.actions = [.jobBoundary .start] ++ body ++ [.jobBoundary .end])
    (some : 1 ≤ options.copies) (few : options.copies ≤ limits.maxCopies)
    (actions : (jobPlan printer (List.replicate options.copies.toNat body).flatten).actions.length ≤
      limits.maxPlanActions)
    (owned : ownedTotal (jobPlan printer (List.replicate options.copies.toNat body).flatten).actions ≤
      limits.maxPlanBytes) :
    planWithLimits printer raster options limits =
      .ok (jobPlan printer (List.replicate options.copies.toNat body).flatten) := by
  have positive : 1 ≤ options.copies.toNat := UInt16.le_iff_toNat_le.mp some
  have whole := returned
  simp only [planWithLimits, except_bind_eq_ok, except_pure_eq_ok] at returned
  obtain ⟨found, inner, -, -, same⟩ := returned
  rw [same] at inner
  obtain ⟨checked, page⟩ := planInner_eq_ok inner
  rw [if_neg family] at page
  obtain ⟨own, page, repeated⟩ := page
  have alone : single = jobPlan printer own := by
    rw [repeated]
    change jobPlan printer (List.replicate 1 own).flatten = _
    rw [List.replicate_one, List.flatten_singleton]
  have equal : own = body := by
    rw [alone, jobPlan] at shape
    exact List.append_cancel_left (List.append_cancel_right shape)
  rw [equal] at page alone
  by_cases several : 1 < options.copies
  · rw [length_copies] at actions
    rw [ownedTotal_copies] at owned
    have again : checkRequest raster options limits = .ok () :=
      @checkRequest_copies raster { options with copies := 1 } limits options.copies checked positive
        few
    exact planWithLimits_copies ⟨family, several⟩ again checked page actions owned machine
  · have one : options.copies.toNat = 1 :=
      Nat.le_antisymm (Nat.not_lt.mp fun more => several (UInt16.lt_iff_toNat_lt.mpr more)) positive
    rw [single_of_one one, alone] at whole
    rw [whole, one, List.replicate_one, List.flatten_singleton]

end

/-- Several copies repeat the body of the plan for one copy, every plan keeps to its
limits, and a repetition that keeps to them is planned, unless no copies are asked for. -/
theorem copies_expansion (printer : PrinterDefinition) (raster : Raster) (options : Options)
    (limits : ProcessingLimits) (machine : limits.Machine) :
    (∀ planned, planWithLimits printer raster options limits = .ok planned →
      planned.actions.length ≤ limits.maxPlanActions ∧
        ownedTotal planned.actions ≤ limits.maxPlanBytes ∧
        (printer.protocol ≠ .tspl → ∃ body single,
          planWithLimits printer raster { options with copies := 1 } limits = .ok single ∧
            single.actions = [.jobBoundary .start] ++ body ++ [.jobBoundary .end] ∧
            planned.actions = [.jobBoundary .start] ++
              (List.replicate options.copies.toNat body).flatten ++ [.jobBoundary .end])) ∧
    ∀ single body expanded, printer.protocol ≠ .tspl →
      planWithLimits printer raster { options with copies := 1 } limits = .ok single →
      single.actions = [.jobBoundary .start] ++ body ++ [.jobBoundary .end] →
      expanded = [.jobBoundary .start] ++
        (List.replicate options.copies.toNat body).flatten ++ [.jobBoundary .end] →
      expanded.length ≤ limits.maxPlanActions → ownedTotal expanded ≤ limits.maxPlanBytes →
      1 ≤ options.copies → options.copies ≤ limits.maxCopies →
      ∃ planned, planWithLimits printer raster options limits = .ok planned ∧
        planned.actions = expanded := by
  constructor
  · intro planned returned
    have whole := returned
    simp only [planWithLimits, except_bind_eq_ok, except_pure_eq_ok] at returned
    obtain ⟨found, -, _, enforced, same⟩ := returned
    rw [same] at enforced
    have within := within_of_enforcePlanLimits enforced
    refine ⟨within.1, within.2, ?_⟩
    intro family
    obtain ⟨body, single, repeated⟩ := planWithLimits_eq_ok machine family whole
    exact ⟨body, jobPlan printer body, single, rfl, congrArg Plan.actions repeated⟩
  · intro single body expanded family returned shape expansion actions owned some few
    rw [expansion] at actions owned
    exact ⟨_, planWithLimits_of_single machine family returned shape some few actions owned,
      expansion.symm⟩

/-- One black pixel. -/
def dotRaster : Raster := ⟨1, 1, [0x80]⟩

theorem copies_expansion_dot :
    ∃ planned, planWithLimits (gattPrinter "m02" .m02 203) dotRaster { copies := 3 } .default =
        .ok planned ∧
      planned.actions.length ≤ ProcessingLimits.default.maxPlanActions ∧
      ∃ body, planned.actions =
        [.jobBoundary .start] ++ (List.replicate 3 body).flatten ++ [.jobBoundary .end] := by
  have result : (planWithLimits (gattPrinter "m02" .m02 203) dotRaster { copies := 3 }
      .default).isOk = true := by decide +kernel
  obtain ⟨planned, returned⟩ := exists_of_isOk result
  obtain ⟨few, -, shape⟩ := (copies_expansion _ _ _ _ (by decide)).1 planned returned
  obtain ⟨body, -, -, -, repeated⟩ := shape (by decide)
  exact ⟨planned, returned, few, body, repeated⟩

/-- No copies at all are within every limit, and refused. -/
theorem no_copies_refused :
    ∃ printer raster limits single body, printer.protocol ≠ .tspl ∧ limits.Machine ∧
      planWithLimits printer raster { copies := 1 } limits = .ok single ∧
      single.actions = [.jobBoundary .start] ++ body ++ [.jobBoundary .end] ∧
      ([.jobBoundary .start] ++ (List.replicate 0 body).flatten ++
        [.jobBoundary .end] : List Action).length ≤ limits.maxPlanActions ∧
      ownedTotal ([.jobBoundary .start] ++ (List.replicate 0 body).flatten ++
        [.jobBoundary .end]) ≤ limits.maxPlanBytes ∧
      0 ≤ limits.maxCopies ∧
      planWithLimits printer raster { copies := 0 } limits = .error (.error (.range "copies")) := by
  have page : (planWithLimits (gattPrinter "m02" .m02 203) dotRaster {} .default).isOk = true := by
    decide +kernel
  obtain ⟨single, returned⟩ := exists_of_isOk page
  obtain ⟨body, whole, same⟩ := planWithLimits_eq_ok (by decide) (by decide) returned
  have equal : single = jobPlan (gattPrinter "m02" .m02 203) body :=
    Except.ok.inj (returned.symm.trans whole)
  exact ⟨_, dotRaster, .default, single, body, by decide, by decide, returned,
    congrArg Plan.actions equal, Nat.le_of_ble_eq_true rfl, Nat.zero_le _, by decide,
    by decide +kernel⟩

end PrinterSdk.Protocol
