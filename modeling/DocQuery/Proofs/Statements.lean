import DocQuery.Operation.Statement

/-! What a statement takes from its draft.

Only the texts of the conditions and the bound values depend on the request; all else stands in the
draft and its plan (`compile_ok`). -/
namespace DocQuery.Draft

open Sql (Dialect)

variable {d : Draft} {plan : Plan} {dialect : Dialect} {params : ParamSet} {s : Statement}

/-- The statement of a draft, given the texts of its conditions and the values. -/
def statement (d : Draft) (plan : Plan) (containers : List CompiledContainer) (filter : Option String)
    (bound : List Value) : Statement where
  document := d.document.path
  command := d.command
  containers := containers
  filter := filter
  params := bound
  projection := d.projection
  sort := d.sort
  aggregates := d.aggregates
  page := d.page
  deletedField := d.deletedField
  keyed := d.isKeyed plan.filter

theorem compile_of_plan (h : d.plan? = some plan) :
    (d.compile dialect params).result = d.compilePlan plan dialect params := by
  rw [compile, h]

/-- A draft that compiles has a plan, whose conditions give the texts. -/
theorem compile_ok (h : (d.compile dialect params).result = .ok s) :
    ∃ plan containers filter bound, d.plan? = some plan ∧
      (d.compileConditions plan dialect params).run.run #[] = (.ok (containers, filter), bound) ∧
      s = d.statement plan containers filter bound.toList := by
  cases hplan : d.plan? with
  | none =>
    rw [compile, hplan] at h
    exact nomatch h
  | some plan =>
    rw [compile_of_plan hplan] at h
    unfold compilePlan at h
    split at h
    · exact nomatch h
    · next containers filter bound hrun =>
      exact ⟨plan, containers, filter, bound, rfl, hrun, (Except.ok.inj h).symm⟩

end DocQuery.Draft
