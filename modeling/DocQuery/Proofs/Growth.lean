import DocQuery.Proofs.Declared
import Mathlib.Data.List.Nodup

/-! How the conditions of a draft grow.

A call adds a term to the condition of one target, closes a group in it, brings one along with a
container or leaves it as it was (`Applied.condition`). Names of containers and parameters stay
distinct (`distinct_actAll`), so that a name is enough to find a condition
(`conditionOf_of_mem`). -/
namespace DocQuery

/-- The target whose condition an edit adds to. -/
def Edit.target? : Edit → Option Target
  | .compare clause qualifier _ _ _ => some (Draft.targetOf qualifier clause)
  | .addContainer c => some (.connect c.qualifier)
  | _ => none

namespace Draft

variable {d d' : Draft} {e : Edit} {target : Target}

/-! ### One call -/

theorem conditionOf_modifyTarget_of_ne {f : List (FlatTerm Predicate) → List (FlatTerm Predicate)} {other : Target}
    (h : target ≠ other) : (d.modifyTarget f target).conditionOf other = d.conditionOf other := by
  cases other with
  | filter =>
    cases target with
    | filter => exact absurd rfl h
    | connect qualifier => rfl
  | connect qualifier =>
    simp only [conditionOf, container?_modifyTarget, if_neg h, Option.map_id']

/-- A new container comes with its condition. -/
theorem conditionOf_addContainer {c : Container} (fresh : d.container? c.qualifier = none) :
    { d with containers := d.containers ++ [c] }.conditionOf target =
      if target = .connect c.qualifier then c.connect else d.conditionOf target := by
  cases target with
  | filter => rfl
  | connect qualifier =>
    simp only [conditionOf, container?, List.find?_append, List.find?_singleton, Target.connect.injEq, beq_iff_eq]
    by_cases hname : qualifier = c.qualifier
    · subst hname
      have hnone : (d.containers.find? fun x => x.qualifier == c.qualifier) = none := fresh
      simp [hnone]
    · rw [if_neg hname, if_neg (Ne.symm hname), Option.or_none]

theorem Started.conditionOf (h : Started d) (target : Target) : d.conditionOf target = [] := by
  obtain ⟨hfilter, hconnects, -⟩ := h.untouched
  cases target with
  | filter => exact hfilter
  | connect qualifier =>
    rw [Draft.conditionOf]
    cases hc : d.container? qualifier with
    | none => rfl
    | some c => exact hconnects c (List.mem_of_find?_eq_some hc)

/-- What a call makes of the condition of the target. -/
inductive Rewrites (d : Draft) (target : Target) :
    Edit → List (FlatTerm Predicate) → List (FlatTerm Predicate) → Prop where
  | same {e : Edit} {terms : List (FlatTerm Predicate)} (elsewhere : e.target? ≠ some target) :
    Rewrites d target e terms terms
  | add {clause : Clause} {c : Comparison} {p : Predicate} {terms : List (FlatTerm Predicate)}
    (here : targetOf c.qualifier clause = target) (accepted : d.accept c = .ok p) :
    Rewrites d target (c.call clause) terms
      (terms ++ [{ item := p, byOr := d.cursor.byOr, connect := target != .filter, delta := d.cursor.opens }])
  | close {terms : List (FlatTerm Predicate)} (depth : 0 < Flat.depth terms) :
    Rewrites d target .closeGroup terms (Flat.closeLast terms)
  | bring {c : Container} (here : target = .connect c.qualifier) : Rewrites d target (.addContainer c) [] c.connect

theorem Applied.condition (h : Applied d e d') (target : Target) :
    Rewrites d target e (d.conditionOf target) (d'.conditionOf target) := by
  cases h with
  | @compare c p clause accepted =>
    by_cases here : targetOf c.qualifier clause = target
    · have hclause : target.clause = clause := by
        subst here
        cases clause <;> rfl
      rw [here, conditionOf_push (hclause ▸ here) accepted]
      exact .add here accepted
    · have hsame : (d.push (targetOf c.qualifier clause) p).conditionOf target = d.conditionOf target :=
        conditionOf_modifyTarget_of_ne here
      rw [hsame]
      exact .same fun hsome => here (Option.some.inj hsome)
  | @addContainer c fresh =>
    rw [conditionOf_addContainer fresh]
    split
    · next here =>
      have hnone : d.conditionOf target = [] := by
        subst here
        rw [conditionOf, fresh]
        rfl
      rw [hnone]
      exact .bring here
    · next elsewhere => exact .same fun hsome => elsewhere (Option.some.inj hsome).symm
  | @closeGroup last _ _ depth =>
    by_cases here : last = target
    · subst here
      rw [conditionOf_modifyTarget (.inl rfl)]
      exact .close depth
    · rw [conditionOf_modifyTarget_of_ne here]
      exact .same (Option.some_ne_none target).symm
  | _ => exact .same (Option.some_ne_none target).symm

/-! ### Names -/

/-- No two containers and no two parameters have one name. -/
structure Distinct (d : Draft) : Prop where
  qualifiers : (d.containers.map Container.qualifier).Nodup
  params : (d.params.map Parameter.name).Nodup

theorem Distinct.same (h : Distinct d) (hcontainers : d'.containers.map Container.bare = d.containers.map Container.bare)
    (hparams : d'.params = d.params) : Distinct d' := by
  have hqualifier : ∀ containers : List Container,
      containers.map Container.qualifier = (containers.map Container.bare).map Container.qualifier :=
    fun containers => (List.map_map (f := Container.bare) (g := Container.qualifier)).symm
  refine ⟨?_, hparams ▸ h.params⟩
  rw [hqualifier, hcontainers, ← hqualifier]
  exact h.qualifiers

theorem nodup_map_concat {α : Type} {name : α → String} {as : List α} {a : α} (h : (as.map name).Nodup)
    (fresh : ∀ b ∈ as, name b ≠ name a) : ((as ++ [a]).map name).Nodup := by
  rw [List.map_append, List.map_singleton, List.nodup_append]
  refine ⟨h, List.nodup_singleton _, fun x hx y hy => ?_⟩
  obtain ⟨b, hb, rfl⟩ := List.mem_map.mp hx
  obtain rfl := List.mem_singleton.mp hy
  exact fresh b hb

theorem Applied.distinct (h : Applied d e d') (hdistinct : Distinct d) : Distinct d' := by
  cases h with
  | compare => exact hdistinct.same (bare_modifyTarget _ _) (params_modifyTarget _)
  | closeGroup => exact hdistinct.same (bare_modifyTarget _ _) (params_modifyTarget _)
  | @addContainer c fresh =>
    refine ⟨nodup_map_concat hdistinct.qualifiers fun b hb => ?_, hdistinct.params⟩
    simpa using List.find?_eq_none.mp fresh b hb
  | declare fresh => exact ⟨hdistinct.qualifiers, nodup_map_concat hdistinct.params fresh⟩
  | _ => exact hdistinct.same rfl rfl

theorem Distinct.freeze (h : Distinct d) : Distinct d.freeze.result := by
  cases hplan : d.plan with
  | some outcome =>
    rw [Draft.freeze, hplan]
    exact h
  | none =>
    rw [freeze_open hplan]
    exact h.same rfl rfl

theorem Started.distinct (h : Started d) : Distinct d := by
  cases h with
  | empty => exact ⟨List.nodup_nil, List.nodup_nil⟩
  | forDocument => exact ⟨List.nodup_singleton _, List.nodup_nil⟩
  | withDeletedField h =>
    obtain ⟨_, path, -, -, rfl⟩ := withDeletedField_ok h
    exact ⟨List.nodup_singleton _, List.nodup_nil⟩

theorem distinct_actAll (h : Distinct d) (actions : List Action) : Distinct (d.actAll actions) :=
  actAll_induction (Q := fun _ => True) (fun _ _ _ h _ he => (apply_ok he).distinct h) (fun _ => Distinct.freeze) h
    fun _ _ => trivial

theorem Made.distinct (h : Made d) : Distinct d :=
  Made.induction (fun _ => Started.distinct) (fun _ _ _ hd _ he => (apply_ok he).distinct hd) (fun _ => Distinct.freeze) h

/-- The condition of a container is found by its name. -/
theorem conditionOf_of_mem (h : Distinct d) {c : Container} (hc : c ∈ d.containers) :
    d.conditionOf (.connect c.qualifier) = c.connect := by
  obtain ⟨found, hfound⟩ : ∃ found, d.container? c.qualifier = some found := by
    refine Option.isSome_iff_exists.mp (List.find?_isSome.mpr ⟨c, hc, beq_self_eq_true _⟩)
  have hname : found.qualifier = c.qualifier := by simpa using List.find?_some hfound
  obtain rfl := List.inj_on_of_nodup_map h.qualifiers (List.mem_of_find?_eq_some hfound) hc hname
  rw [conditionOf, hfound]
  rfl

end Draft

end DocQuery
