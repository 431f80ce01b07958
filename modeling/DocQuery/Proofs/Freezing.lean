import DocQuery.Operation.Freeze
import DocQuery.Proofs.Failing
import DocQuery.Proofs.FlatDecode

/-! What freezing a draft finds.

`makePlan_ok` says once what a plan tells about its draft: every check passed, and the plan's
conditions are the draft's flat ones, decoded. A draft that keeps the plan it was frozen with is
`Coherent`, so that its trees are its flat conditions (`Coherent.decode`). -/
namespace DocQuery

namespace Draft

/-- What parameters are used depends on those declared. -/
theorem usedParams_congr {d d' : Draft} (hdocument : d'.document = d.document) (hparams : d'.params = d.params)
    (predicates : List Predicate) : d'.usedParams predicates = d.usedParams predicates := by
  induction predicates with
  | nil => rfl
  | cons p rest ih => simp only [usedParams, usedParam, hdocument, hparams, ih]

/-- What a plan says about the draft that it was made from. -/
structure Planned (d : Draft) (plan : Plan) : Prop where
  primary : d.checkPrimary = .ok ()
  closed : d.cursor.opens = 0
  filter : Flat.decode d.filter = .ok plan.filter
  connects : List.Forall₂ (fun c t => Flat.decode c.connect = .ok t) d.containers plan.connects
  filtered : d.command.needsFilter = true → plan.filter.isSome = true
  used : d.usedParams (predicates plan.filter plan.connects) = .ok plan.used
  clauses : d.checkClauses = .ok ()

theorem makePlan_ok {d : Draft} {plan : Plan} (h : d.makePlan = .ok plan) : d.Planned plan := by
  unfold makePlan at h
  obtain ⟨⟨⟩, hprimary, h⟩ := bind_ok h
  obtain ⟨⟨⟩, hcontainers, h⟩ := bind_ok h
  split at h
  · exact nomatch h
  · next hclosed =>
    obtain ⟨filter, hfilter, h⟩ := bind_ok h
    obtain ⟨connects, hconnects, h⟩ := bind_ok h
    split at h
    · exact nomatch h
    · next hfiltered =>
      obtain ⟨used, hused, h⟩ := bind_ok h
      obtain ⟨⟨⟩, hclauses, h⟩ := bind_ok h
      obtain rfl := Except.ok.inj h
      refine ⟨hprimary, by simpa using hclosed, mapError_ok hfilter,
        (mapM_ok hconnects).imp fun _ _ hc => mapError_ok hc, fun hneeds => ?_, hused, hclauses⟩
      simpa [hneeds, Option.isSome_iff_ne_none] using hfiltered

/-- The condition of the target in the plan of a frozen draft. -/
def targetTree? (d : Draft) : Target → Option (Tree Predicate)
  | .filter => d.filterTree?
  | .connect qualifier => d.connectTree? qualifier

theorem freeze_open {d : Draft} (h : d.plan = none) : d.freeze.result = { d with plan := some d.makePlan } := by
  rw [freeze, h]

theorem freeze_frozen {d : Draft} (h : d.isFrozen = true) : d.freeze.result = d := by
  obtain ⟨outcome, hplan⟩ := Option.isSome_iff_exists.mp h
  rw [freeze, hplan]

theorem exists_plan_freeze (d : Draft) : ∃ outcome, d.freeze.result.plan = some outcome := by
  cases hplan : d.plan with
  | some outcome =>
    rw [freeze, hplan]
    exact ⟨outcome, hplan⟩
  | none =>
    rw [freeze_open hplan]
    exact ⟨d.makePlan, rfl⟩

/-- Freezing without error leaves a plan. -/
theorem plan_of_outcome {d : Draft} (h : d.freeze.result.outcome = .ok ()) :
    ∃ plan, d.freeze.result.plan = some (.ok plan) := by
  obtain ⟨outcome, hplan⟩ := exists_plan_freeze d
  cases outcome with
  | ok plan => exact ⟨plan, hplan⟩
  | error e =>
    rw [Draft.outcome, hplan] at h
    cases h

/-- The decoded condition of a container stands at the container's place. -/
theorem Planned.connect {d : Draft} {plan : Plan} (h : d.Planned plan) (qualifier : String) :
    Flat.decode (d.conditionOf (.connect qualifier)) =
      .ok ((d.containers.findIdx? fun c => c.qualifier == qualifier).bind fun i => plan.connects[i]?.join) := by
  have hconnects := h.connects
  rw [conditionOf, container?]
  generalize d.containers = containers, plan.connects = connects at hconnects ⊢
  induction hconnects with
  | nil => rfl
  | @cons c t containers connects hfirst _ ih =>
    rw [List.find?_cons, List.findIdx?_cons]
    cases c.qualifier == qualifier with
    | true => exact hfirst
    | false =>
      refine ih.trans (congrArg Except.ok ?_)
      cases containers.findIdx? fun c => c.qualifier == qualifier <;> rfl

/-! ### Frozen and open drafts -/

variable {d : Draft}

theorem makePlan_withPlan (outcome : Option (Except DraftError Plan)) :
    { d with plan := outcome }.makePlan = d.makePlan := by
  have hused : ∀ predicates, { d with plan := outcome }.usedParams predicates = d.usedParams predicates :=
    usedParams_congr rfl rfl
  unfold makePlan
  simp only [hused]
  rfl

/-- If the draft is frozen, it is so with the plan that it makes. -/
def Coherent (d : Draft) : Prop :=
  ∀ outcome, d.plan = some outcome → d.makePlan = outcome

theorem coherent_of_open (h : d.plan = none) : Coherent d :=
  fun _ hplan => nomatch h.symm.trans hplan

theorem conditionOf_freeze (d : Draft) (target : Target) : d.freeze.result.conditionOf target = d.conditionOf target := by
  cases hopen : d.plan with
  | some outcome => rw [freeze_frozen (Option.isSome_iff_exists.mpr ⟨outcome, hopen⟩)]
  | none =>
    rw [freeze_open hopen]
    cases target <;> rfl

theorem makePlan_freeze (d : Draft) : d.freeze.result.makePlan = d.makePlan := by
  cases hopen : d.plan with
  | some outcome => rw [freeze_frozen (Option.isSome_iff_exists.mpr ⟨outcome, hopen⟩)]
  | none => rw [freeze_open hopen, makePlan_withPlan]

theorem Coherent.freeze (h : Coherent d) : Coherent d.freeze.result := by
  intro outcome hplan
  rw [makePlan_freeze]
  cases hopen : d.plan with
  | some _ =>
    rw [Draft.freeze, hopen] at hplan
    exact h outcome hplan
  | none =>
    rw [freeze_open hopen] at hplan
    exact Option.some.inj hplan

/-- Freezing comes to what making the plan does. -/
theorem Coherent.outcome (h : Coherent d) : d.freeze.result.outcome = d.makePlan.map fun _ => () := by
  obtain ⟨outcome, hplan⟩ := exists_plan_freeze d
  rw [← makePlan_freeze, h.freeze outcome hplan, Draft.outcome, hplan]
  cases outcome <;> rfl

theorem Coherent.planned {plan : Plan} (h : Coherent d) (hplan : d.plan? = some plan) : d.Planned plan := by
  obtain ⟨outcome, houtcome, hok⟩ := Option.bind_eq_some_iff.mp hplan
  cases outcome with
  | error e => exact nomatch hok
  | ok found =>
    obtain rfl := Option.some.inj hok
    exact makePlan_ok (h _ houtcome)

/-- The trees of a draft with a plan are its flat conditions, decoded. -/
theorem Coherent.decode {plan : Plan} (h : Coherent d) (hplan : d.plan? = some plan) (target : Target) :
    Flat.decode (d.conditionOf target) = .ok (d.targetTree? target) := by
  have hplanned := h.planned hplan
  cases target with
  | filter =>
    rw [targetTree?, filterTree?, hplan]
    exact hplanned.filter
  | connect qualifier =>
    rw [targetTree?, connectTree?, hplan]
    exact hplanned.connect qualifier

end Draft

end DocQuery
