import DocQuery.Sql.Compile

/-! Running computations that bind values.

A computation runs on the values bound so far and gives something, or an error, with the values bound
then. Run after another one it starts where that ended, if it is reached at all. A membership test is one
computation for each way the list can be (`membership_eq`). -/
namespace DocQuery.Sql

variable {α β : Type} {x : Compile α} {f : α → Compile β} {bound middle after : Array Value} {a : α} {b : β}
  {e : CompileError}

/-- What works is followed by the computation for what it gave. -/
theorem run_bind_of_ok (h : x.run.run bound = (.ok a, middle)) :
    (x >>= f).run.run bound = (f a).run.run middle := by
  rw [ExceptT.run_bind, StateT.run_bind, h]
  rfl

/-- An error is not followed by anything. -/
theorem run_bind_of_error (h : x.run.run bound = (.error e, after)) :
    (x >>= f).run.run bound = (.error e, after) := by
  rw [ExceptT.run_bind, StateT.run_bind, h]
  rfl

theorem run_bind_ok (h : (x >>= f).run.run bound = (.ok b, after)) :
    ∃ a middle, x.run.run bound = (.ok a, middle) ∧ (f a).run.run middle = (.ok b, after) := by
  cases hfirst : x.run.run bound with
  | mk result middle =>
    cases result with
    | ok a => exact ⟨a, middle, rfl, (run_bind_of_ok hfirst).symm.trans h⟩
    | error e => exact nomatch (Prod.mk.inj ((run_bind_of_error hfirst).symm.trans h)).1

theorem run_bind_error (h : (x >>= f).run.run bound = (.error e, after)) :
    x.run.run bound = (.error e, after) ∨
      ∃ a middle, x.run.run bound = (.ok a, middle) ∧ (f a).run.run middle = (.error e, after) := by
  cases hfirst : x.run.run bound with
  | mk result middle =>
    cases result with
    | ok a => exact .inr ⟨a, middle, rfl, (run_bind_of_ok hfirst).symm.trans h⟩
    | error e' =>
      obtain ⟨herror, rfl⟩ := Prod.mk.inj ((run_bind_of_error hfirst).symm.trans h)
      obtain rfl := Except.error.inj herror
      exact .inl rfl

theorem run_map_ok {f : α → β} (h : (f <$> x).run.run bound = (.ok b, after)) :
    ∃ a, x.run.run bound = (.ok a, after) ∧ f a = b := by
  rw [← bind_pure_comp] at h
  obtain ⟨a, middle, hfirst, hrest⟩ := run_bind_ok h
  obtain ⟨hb, rfl⟩ := Prod.mk.inj hrest
  exact ⟨a, hfirst, Except.ok.inj hb⟩

/-! ### Membership tests -/

/-- The members of a list that a field is looked for among, nulls left out. -/
def givenMembers (p : Predicate) (items : List Value) : List Value :=
  if p.foldCase then (items.filter fun v => !v.isNull).map Value.casefold else items.filter fun v => !v.isNull

theorem membership_eq (p : Predicate) (items : List Value) (negated : Bool) : membership p items negated =
    if items.any Value.isNull then
      if !p.field.isNullable then throw (nullOnNonNullable p)
      else if (givenMembers p items).isEmpty then
        return ⟨if negated then .and else .or, [.nullTest negated (columnOf p.qualifier p.field)]⟩
      else do
        let place ← Sql.bind (.list (givenMembers p items))
        return ⟨if negated then .and else .or, [.member negated p.foldCase (columnOf p.qualifier p.field) (.bound place),
          .nullTest negated (columnOf p.qualifier p.field)]⟩
    else do
      let place ← Sql.bind (.list (givenMembers p items))
      return ⟨if negated then .and else .or, [.member negated p.foldCase (columnOf p.qualifier p.field) (.bound place)]⟩ :=
  rfl

end DocQuery.Sql
