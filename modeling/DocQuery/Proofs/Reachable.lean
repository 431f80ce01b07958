import DocQuery.Proofs.Growth

/-! States that a draft can reach.

Whatever calls made a draft, it keeps the plan that it was frozen with (`Made.coherent`), and the
predicates of its filter compare fields of containers that it has (`Made.allStand`). So do those that
a call asks for in the condition of a container (`stands_of_accept`). -/
namespace DocQuery

/-! ### Fields -/

theorem FieldPath.root_of_resolveSegments {schema : Schema} {document : Document} {segments : List String}
    {path : FieldPath} (h : FieldPath.resolveSegments schema document segments = .ok path) : path.root = document := by
  obtain ⟨steps, -, h⟩ := bind_ok h
  cases steps with
  | nil => exact nomatch h
  | cons step steps =>
    obtain rfl := Except.ok.inj h
    rfl

theorem Selector.root_of_resolve {schema : Schema} {document : Document} {field : Selector} {path : FieldPath}
    (h : field.resolve schema document = .ok path) : path.root = document := by
  cases field with
  | named dotted => exact FieldPath.root_of_resolveSegments h
  | typed owner segments =>
    rw [Selector.resolve] at h
    split at h
    · exact FieldPath.root_of_resolveSegments h
    · exact nomatch h

namespace Draft

variable {d d' : Draft} {e : Edit} {target : Target}

theorem resolve_ok {qualifier : String} {field : Selector} {path : FieldPath}
    (h : d.resolve qualifier field = .ok path) :
    ∃ c ∈ d.containers, c.qualifier = qualifier ∧ path.root = c.document := by
  obtain ⟨c, hc, h⟩ := bind_ok h
  unfold container at hc
  cases hfound : d.container? qualifier with
  | none =>
    rw [hfound] at hc
    exact nomatch hc
  | some found =>
    rw [hfound] at hc
    obtain rfl := Except.ok.inj hc
    exact ⟨found, List.mem_of_find?_eq_some hfound, by simpa using List.find?_some hfound,
      Selector.root_of_resolve (mapError_ok h)⟩

theorem predicate_ok {qualifier : String} {left : FieldPath} {op : Operator} {right : Comparand} {p : Predicate}
    (h : d.predicate qualifier left op right = .ok p) : p.qualifier = qualifier ∧ p.field = left ∧ p.op = op := by
  cases right with
  | field other field =>
    obtain ⟨_, -, h⟩ := bind_ok h
    obtain ⟨⟨⟩, -, h⟩ := bind_ok h
    obtain rfl := Except.ok.inj h
    exact ⟨rfl, rfl, rfl⟩
  | const v foldCase =>
    obtain ⟨⟨⟩, -, h⟩ := bind_ok h
    obtain ⟨⟨⟩, -, h⟩ := bind_ok h
    obtain rfl := Except.ok.inj h
    exact ⟨rfl, rfl, rfl⟩
  | param name foldCase =>
    obtain ⟨⟨⟩, -, h⟩ := bind_ok h
    split at h
    · exact nomatch h
    · obtain rfl := Except.ok.inj h
      exact ⟨rfl, rfl, rfl⟩

/-! ### Where predicates stand -/

/-- The draft has a container of that name, for the document in which the path begins. -/
def HasField (d : Draft) (qualifier : String) (path : FieldPath) : Prop :=
  ∃ c ∈ d.containers, c.qualifier = qualifier ∧ path.root = c.document

theorem HasField.kept {qualifier : String} {path : FieldPath} (h : d.HasField qualifier path) (hkept : Kept d d') :
    d'.HasField qualifier path := by
  obtain ⟨c, hc, hqualifier, hroot⟩ := h
  obtain ⟨c', hc', hbare⟩ := hkept.container hc
  exact ⟨c', hc', (congrArg Container.qualifier hbare).trans hqualifier,
    hroot.trans (congrArg Container.document hbare).symm⟩

/-- The predicate compares fields that the draft has, and where it connects a container, a field of that
container. -/
structure Stands (d : Draft) (target : Target) (p : Predicate) : Prop where
  field : d.HasField p.qualifier p.field
  operand : ∀ qualifier path, p.operand = .field qualifier path → d.HasField qualifier path
  own : ∀ qualifier, target = .connect qualifier → p.qualifier = qualifier

theorem Stands.kept {p : Predicate} (h : d.Stands target p) (hkept : Kept d d') : d'.Stands target p :=
  ⟨h.field.kept hkept, fun qualifier path hp => (h.operand qualifier path hp).kept hkept, h.own⟩

/-- A field that a predicate is compared with is one that was looked up. -/
theorem operand_of_predicate {qualifier : String} {left : FieldPath} {op : Operator} {right : Comparand} {p : Predicate}
    (h : d.predicate qualifier left op right = .ok p) {other : String} {path : FieldPath}
    (hoperand : p.operand = .field other path) : d.HasField other path := by
  cases right with
  | field name field =>
    obtain ⟨found, hresolve, h⟩ := bind_ok h
    obtain ⟨⟨⟩, -, h⟩ := bind_ok h
    obtain rfl := Except.ok.inj h
    obtain ⟨rfl, rfl⟩ := Operand.field.inj hoperand
    exact resolve_ok hresolve
  | const v foldCase =>
    obtain ⟨⟨⟩, -, h⟩ := bind_ok h
    obtain ⟨⟨⟩, -, h⟩ := bind_ok h
    obtain rfl := Except.ok.inj h
    simp only at hoperand
    split at hoperand <;> exact nomatch hoperand
  | param name foldCase =>
    obtain ⟨⟨⟩, -, h⟩ := bind_ok h
    split at h
    · exact nomatch h
    · obtain rfl := Except.ok.inj h
      exact nomatch hoperand

theorem stands_of_accept {c : Comparison} {p : Predicate} {clause : Clause} (h : d.accept c = .ok p)
    (here : targetOf c.qualifier clause = target) : d.Stands target p := by
  obtain ⟨left, hleft, h⟩ := bind_ok h
  obtain ⟨hqualifier, hfield, -⟩ := predicate_ok h
  refine ⟨?_, fun _ _ => operand_of_predicate h, fun qualifier htarget => ?_⟩
  · rw [hqualifier, hfield]
    exact resolve_ok hleft
  · cases clause with
    | filter => exact nomatch here.trans htarget
    | connect => exact hqualifier.trans (Target.connect.inj (here.trans htarget))

theorem Rewrites.stands {terms terms' : List (FlatTerm Predicate)} (h : Rewrites d .filter e terms terms')
    (hterms : ∀ p ∈ terms.map (fun t => t.item), d.Stands .filter p) :
    ∀ p ∈ terms'.map (fun t => t.item), d.Stands .filter p := by
  cases h with
  | same => exact hterms
  | add here accepted =>
    rw [List.map_append]
    exact List.forall_mem_append.mpr ⟨hterms, List.forall_mem_singleton.mpr (stands_of_accept accepted here)⟩
  | close =>
    rw [Flat.map_closeLast fun _ _ => rfl]
    exact hterms
  | bring here => exact nomatch here

/-- Every predicate of the filter stands in the draft. -/
def AllStand (d : Draft) : Prop :=
  ∀ p ∈ d.filter.map (fun t => t.item), d.Stands .filter p

theorem Started.allStand (h : Started d) : d.AllStand := by
  intro p hp
  rw [h.untouched.1] at hp
  exact nomatch hp

theorem Applied.allStand (h : Applied d e d') (hd : d.AllStand) : d'.AllStand :=
  fun p hp => ((h.condition .filter).stands hd p hp).kept h.kept

theorem AllStand.freeze (h : d.AllStand) : d.freeze.result.AllStand := by
  intro p hp
  have hfilter : d.freeze.result.filter = d.filter := conditionOf_freeze d .filter
  rw [hfilter] at hp
  exact (h p hp).kept kept_freeze

/-- No container brings anything along for the filter. -/
theorem Made.allStand (h : Made d) : d.AllStand :=
  Made.induction (fun _ => Started.allStand) (fun _ _ _ hd _ he => (apply_ok he).allStand hd) (fun _ => AllStand.freeze) h

/-- The predicate compares a field of a container that the draft has. -/
def Grounds (d : Draft) (p : Predicate) : Prop :=
  ∃ c ∈ d.containers, c.qualifier = p.qualifier ∧ p.field.root = c.document

/-- Every predicate of the filter has its container. -/
def Grounded (d : Draft) : Prop :=
  ∀ p ∈ d.filter.map (fun t => t.item), d.Grounds p

theorem Made.grounded (h : Made d) : d.Grounded :=
  fun p hp => (h.allStand p hp).field

/-! ### The plan -/

theorem coherent_of_apply (h : d.apply e = .ok d') : Coherent d' :=
  coherent_of_open ((apply_ok h).plan.trans (open_of_apply h))

/-- A frozen draft has the plan that it makes. -/
theorem Made.coherent (h : Made d) : Coherent d :=
  Made.induction (fun _ hstart => coherent_of_open hstart.untouched.2.2) (fun _ _ _ _ _ he => coherent_of_apply he)
    (fun _ => Coherent.freeze) h

/-! ### The primary container -/

/-- A draft that can be frozen has one primary container. -/
theorem primary_of_checkPrimary (h : d.checkPrimary = .ok ()) :
    ∃ primary, d.primary? = some primary ∧ ∀ c ∈ d.containers, c.isPrimary = true → c = primary := by
  unfold checkPrimary at h
  split at h
  · exact nomatch h
  · next primary hprimaries =>
    refine ⟨primary, ?_, fun c hc hprimary => ?_⟩
    · rw [primary?, ← List.head?_filter, hprimaries]
      rfl
    · have hmem : c ∈ d.containers.filter Container.isPrimary := List.mem_filter.mpr ⟨hc, hprimary⟩
      rw [hprimaries] at hmem
      exact List.mem_singleton.mp hmem
  · exact nomatch h

end Draft

end DocQuery
