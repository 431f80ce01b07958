import DocQuery.Proofs.Asked

/-! Conditions are kept as they were asked for.

Freezing decodes the flat conditions without losing any of them (`Coherent.leavesOf`), and these have
what calls asked for and what containers brought along. So the tree of the filter has what calls asked
for and nothing else, and the tree of a connection has that after what the container came with
(`conditions_retained`), which may be something that no call asked for (`connection_without_call`). -/
namespace DocQuery

theorem Operand.param?_eq_some {operand : Operand} {name : String} :
    operand.param? = some name ↔ operand = .param name := by
  cases operand <;> simp [Operand.param?]

namespace Draft

variable {d : Draft} {target : Target}

/-! ### Trees -/

/-- The predicates of a target's tree. -/
def leavesOf (d : Draft) (target : Target) : List Predicate :=
  ((d.targetTree? target).map Tree.leaves).getD []

theorem mem_leavesOf {p : Predicate} :
    p ∈ d.leavesOf target ↔ ∃ t, d.targetTree? target = some t ∧ p ∈ t.leaves := by
  rw [leavesOf]
  cases d.targetTree? target <;> simp

/-- The tree of a target has the predicates of its flat condition. -/
theorem Coherent.leavesOf {plan : Plan} (h : Coherent d) (hplan : d.plan? = some plan) (target : Target) :
    d.leavesOf target = (d.conditionOf target).map (fun t => t.item) ∧
      (d.targetTree? target = none ↔ d.leavesOf target = []) := by
  have hdecode := h.decode hplan target
  rw [Draft.leavesOf]
  cases htree : d.targetTree? target with
  | none =>
    rw [htree] at hdecode
    rw [eq_nil_of_decode hdecode]
    exact ⟨rfl, iff_of_true rfl rfl⟩
  | some t =>
    rw [htree] at hdecode
    obtain ⟨hleaves, hne⟩ := leaves_of_decode hdecode
    exact ⟨hleaves, iff_of_false nofun hne⟩

/-- The predicates of a plan are those of the trees. -/
theorem Coherent.mem_predicates {plan : Plan} (h : Coherent d) (hdistinct : Distinct d) (hplan : d.plan? = some plan)
    {p : Predicate} : p ∈ predicates plan.filter plan.connects ↔ ∃ target, p ∈ d.leavesOf target := by
  have hmem : ∀ tree : Option (Tree Predicate), p ∈ (tree.map Tree.leaves).getD [] ↔ ∃ t, tree = some t ∧ p ∈ t.leaves :=
    fun tree => by cases tree <;> simp
  simp only [predicates, List.mem_flatMap, List.exists_mem_cons_iff, hmem, mem_leavesOf]
  have hfilter : d.targetTree? .filter = plan.filter := by
    rw [targetTree?, filterTree?, hplan]
    rfl
  constructor
  · rintro (⟨t, ht, hp⟩ | ⟨_, hconnect, t, rfl, hp⟩)
    · exact ⟨.filter, t, hfilter.trans ht, hp⟩
    · -- The tree stands at the place of a container, whose name leads back to it.
      obtain ⟨c, hc, hdecode⟩ := exists_of_mem_right (h.planned hplan).connects hconnect
      have htree := h.decode hplan (.connect c.qualifier)
      rw [conditionOf_of_mem hdistinct hc, hdecode] at htree
      exact ⟨.connect c.qualifier, t, (Except.ok.inj htree).symm, hp⟩
  · rintro ⟨target, t, ht, hp⟩
    cases target with
    | filter => exact .inl ⟨t, hfilter.symm.trans ht, hp⟩
    | connect qualifier =>
      refine .inr ⟨some t, ?_, t, rfl, hp⟩
      rw [targetTree?, connectTree?, hplan] at ht
      obtain ⟨i, -, hi⟩ := Option.bind_eq_some_iff.mp ht
      exact List.mem_of_getElem? (Option.join_eq_some_iff.mp hi)

/-! ### Parameters -/

theorem usedParam_ok {p : Predicate} {used : Option String} (h : d.usedParam p = .ok used) :
    used = p.operand.param? ∧ ∀ name, p.operand = .param name → ∃ q ∈ d.params, q.name = name := by
  unfold usedParam at h
  split at h
  · next hnone =>
    obtain rfl := Except.ok.inj h
    refine ⟨hnone.symm, fun name hname => ?_⟩
    rw [Operand.param?_eq_some.mpr hname] at hnone
    exact nomatch hnone
  · next name hsome =>
    split at h
    · exact nomatch h
    · next q hfound =>
      obtain ⟨_, -, h⟩ := bind_ok h
      obtain rfl := Except.ok.inj h
      refine ⟨hsome.symm, fun name' hname => ⟨q, List.mem_of_find?_eq_some hfound, ?_⟩⟩
      obtain rfl := Option.some.inj (hsome.symm.trans (Operand.param?_eq_some.mpr hname))
      simpa using List.find?_some hfound

theorem mem_usedParams {predicates : List Predicate} {used : List String} (h : d.usedParams predicates = .ok used)
    {name : String} : name ∈ used ↔ ∃ p ∈ predicates, p.operand = .param name := by
  induction predicates generalizing used with
  | nil =>
    obtain rfl := Except.ok.inj h
    simp
  | cons p rest ih =>
    obtain ⟨first, hfirst, h⟩ := bind_ok h
    obtain ⟨more, hmore, h⟩ := bind_ok h
    obtain rfl := Except.ok.inj h
    rw [(usedParam_ok hfirst).1, List.mem_append, Option.mem_toList, Operand.param?_eq_some, ih hmore,
      List.exists_mem_cons_iff]

/-- A parameter that is referred to was declared. -/
theorem declared_of_usedParams {predicates : List Predicate} {used : List String}
    (h : d.usedParams predicates = .ok used) {p : Predicate} (hp : p ∈ predicates) {name : String}
    (hname : p.operand = .param name) : ∃ q ∈ d.params, q.name = name := by
  induction predicates generalizing used with
  | nil => exact nomatch hp
  | cons first rest ih =>
    obtain ⟨_, hfirst, h⟩ := bind_ok h
    obtain ⟨_, hmore, -⟩ := bind_ok h
    rcases List.mem_cons.mp hp with rfl | hp
    · exact (usedParam_ok hfirst).2 name hname
    · exact ih hmore hp

/-- A condition refers to the parameter. -/
def Refers (d : Draft) (name : String) : Prop :=
  ∃ target, ∃ p ∈ d.leavesOf target, p.operand = .param name

/-- The parameters that a plan lists as used are those that conditions refer to, all of them declared. -/
theorem Coherent.refers {plan : Plan} (h : Coherent d) (hdistinct : Distinct d) (hplan : d.plan? = some plan)
    (name : String) : (name ∈ plan.used ↔ d.Refers name) ∧ (d.Refers name → ∃ q ∈ d.params, q.name = name) := by
  have hused := (h.planned hplan).used
  have hmem := fun p => h.mem_predicates hdistinct hplan (p := p)
  refine ⟨(mem_usedParams hused).trans ⟨?_, ?_⟩, ?_⟩
  · rintro ⟨p, hp, hname⟩
    obtain ⟨target, hp⟩ := (hmem p).mp hp
    exact ⟨target, p, hp, hname⟩
  · rintro ⟨target, p, hp, hname⟩
    exact ⟨p, (hmem p).mpr ⟨target, hp⟩, hname⟩
  · rintro ⟨target, p, hp, hname⟩
    exact declared_of_usedParams hused ((hmem p).mpr ⟨target, hp⟩) hname

/-! ### Every sequence of calls -/

theorem Started.coherent {start : Draft} (h : Started start) (actions : List Action) :
    Coherent (start.actAll actions).freeze.result :=
  have hcoherent : Coherent (start.actAll actions) :=
    actAll_induction (Q := fun _ => True) (fun _ _ _ _ _ he => coherent_of_apply he) (fun _ => Coherent.freeze)
      h.made.coherent fun _ _ => trivial
  hcoherent.freeze

/-- The tree of a target has what was brought and what was asked for. There is none if that is nothing. -/
theorem Started.leavesOf {start : Draft} {actions : List Action} {plan : Plan} (h : Started start)
    (hplan : (start.actAll actions).freeze.result.plan? = some plan) (target : Target) :
    (start.actAll actions).freeze.result.leavesOf target = brought target start actions ++ asked target start actions ∧
      ((start.actAll actions).freeze.result.targetTree? target = none ↔
        (start.actAll actions).freeze.result.leavesOf target = []) := by
  obtain ⟨hleaves, hnone⟩ := (h.coherent actions).leavesOf hplan target
  refine ⟨?_, hnone⟩
  rw [hleaves, conditionOf_freeze, items_actAll, h.conditionOf]
  rfl

/-- **No condition is lost, made twice or moved.** Once a draft is frozen, its filter has the predicates that the
calls asked for, in their order. The condition of a container has those that the container came with and then those
that the calls asked for. A parameter is marked as used just when one of them refers to it, and what they refer to is
declared. -/
theorem conditions_retained {start : Draft} {actions : List Action} (hstart : Started start)
    (hrun : (start.actAll actions).freeze.result = d) (hfrozen : d.outcome = .ok ()) :
    (d.leavesOf .filter = asked .filter start actions ∧
      (d.filterTree? = none ↔ asked .filter start actions = [])) ∧
    (∀ qualifier,
      d.leavesOf (.connect qualifier) =
        brought (.connect qualifier) start actions ++ asked (.connect qualifier) start actions ∧
      (d.connectTree? qualifier = none ↔
        brought (.connect qualifier) start actions = [] ∧ asked (.connect qualifier) start actions = [])) ∧
    (∀ q ∈ d.paramSet.declared, q.used = true ↔ d.Refers q.name) ∧
    (∀ name, d.Refers name → ∃ q ∈ d.paramSet.declared, q.name = name ∧ q.used = true) := by
  subst hrun
  obtain ⟨plan, hplan⟩ : ∃ plan, (start.actAll actions).freeze.result.plan? = some plan := by
    obtain ⟨plan, hplan⟩ := plan_of_outcome hfrozen
    exact ⟨plan, congrArg (Option.bind · Except.toOption) hplan⟩
  have hleaves := hstart.leavesOf hplan
  have hrefers := (hstart.coherent actions).refers (distinct_actAll hstart.distinct actions).freeze hplan
  have hdeclared : (start.actAll actions).freeze.result.paramSet.declared =
      (start.actAll actions).freeze.result.params.map fun q => { q with used := plan.used.contains q.name } := by
    rw [paramSet, hplan]
    rfl
  refine ⟨?_, fun qualifier => ?_, fun q hq => ?_, fun name hname => ?_⟩
  · obtain ⟨hfilter, hnone⟩ := hleaves .filter
    rw [brought_filter, List.nil_append] at hfilter
    exact ⟨hfilter, hfilter ▸ hnone⟩
  · obtain ⟨hconnect, hnone⟩ := hleaves (.connect qualifier)
    exact ⟨hconnect, hnone.trans (hconnect ▸ List.append_eq_nil_iff)⟩
  · rw [hdeclared] at hq
    obtain ⟨q, -, rfl⟩ := List.mem_map.mp hq
    exact List.contains_iff_mem.trans (hrefers q.name).1
  · obtain ⟨q, hq, rfl⟩ := (hrefers name).2 hname
    rw [hdeclared]
    exact ⟨_, List.mem_map_of_mem hq, rfl, List.contains_iff_mem.mpr ((hrefers q.name).1.mpr hname)⟩

/-! Two conditions go to the filter and one to a connection, a call for a container that is not there
fails, and one of two parameters is used. The second draft is given the container of the first, under
another name. -/

def weightField : Field := { name := "weight", storage := "Weight", kind := .int }

def wagon : Document where
  path := "rail.Wagon"
  name := "Wagon"
  storage := "wagons"
  fields := [weightField]

def weigh (clause : Clause) (qualifier : String) (right : Comparand) : Action :=
  .edit (.compare clause qualifier (.named "weight") .equal right)

def weighing : List Action :=
  [.edit (.declare { name := "limit", kind := .int }), .edit (.declare { name := "spare", kind := .int }),
    .edit (.addContainer (.joined wagon .inner "n")), .edit .openGroup, weigh .filter "" (.param "limit" false),
    weigh .connect "x" (.const (.int 5) false), weigh .connect "n" (.const (.int 7) false), .edit (.joinNext .or),
    weigh .filter "" (.const (.int 3) false), .edit .closeGroup]

def weighed (qualifier : String) (operand : Operand) : Predicate where
  qualifier := qualifier
  field := ⟨wagon, [⟨wagon, weightField⟩], List.cons_ne_nil _ _⟩
  op := .equal
  operand := operand

theorem conditions_retained_wagons :
    ∃ d, ((forDocument [wagon] wagon .select).actAll weighing).freeze.result = d ∧ d.outcome = .ok () ∧
      d.leavesOf .filter = [weighed "" (.param "limit"), weighed "" (.const (.int 3))] ∧
      d.leavesOf (.connect "n") = [weighed "n" (.const (.int 7))] ∧ d.connectTree? "x" = none ∧
      d.Refers "limit" ∧ ¬ d.Refers "spare" := by
  obtain ⟨hfilter, hconnects, hparams, -⟩ := conditions_retained (.forDocument [wagon] wagon .select)
    (rfl : ((forDocument [wagon] wagon .select).actAll weighing).freeze.result = _) rfl
  refine ⟨_, rfl, rfl, hfilter.1, (hconnects "n").1, (hconnects "x").2.mpr ⟨rfl, rfl⟩, ?_, ?_⟩
  · exact (hparams _ (List.mem_cons_self ..)).mp rfl
  · exact fun hspare => nomatch (hparams _ (List.mem_cons_of_mem _ (List.mem_cons_self ..))).mpr hspare

/-- A container that was handed over can have a condition that no call asked for. -/
theorem connection_without_call :
    ∃ given d, ((forDocument [wagon] wagon .select).actAll weighing).handOver "n" "d" = some given ∧
      GivenFrom Made given ∧
      ((forDocument [wagon] wagon .select).actAll [.edit (.addContainer given)]).freeze.result = d ∧
      d.outcome = .ok () ∧
      asked (.connect "d") (forDocument [wagon] wagon .select) [.edit (.addContainer given)] = [] ∧
      d.connectTree? "d" ≠ none ∧ d.leavesOf (.connect "d") = [weighed "n" (.const (.int 7))] := by
  have made : Made ((forDocument [wagon] wagon .select).actAll weighing) :=
    (Made.forDocument [wagon] wagon .select).actAll (by simp [weighing, weigh, Container.joined])
  exact ⟨_, _, rfl, made.handOver "n" "d" rfl, rfl, rfl, rfl, Option.some_ne_none _, rfl⟩

end Draft

end DocQuery
