import DocQuery.Proofs.Freezing

/-! Conditions that a draft accepts.

A call that asks for a condition looks up its fields, checks them and adds a term to the target
(`compare_of_accept`, `accept_of_compare`). What a draft accepts depends on the documents of its
containers alone, and adding conditions changes none of these (`alike_modifyTarget`). -/
namespace DocQuery

/-- A condition as it is asked for. -/
structure Comparison where
  qualifier : String
  field : Selector
  op : Operator
  right : Comparand

def Comparison.call (clause : Clause) (c : Comparison) : Edit :=
  .compare clause c.qualifier c.field c.op c.right

def Target.clause : Target → Clause
  | filter => .filter
  | connect _ => .connect

namespace Draft

variable {d d' : Draft} {target : Target}

/-! ### Changing the condition of a target -/

theorem plan_modifyTarget (f : List (FlatTerm Predicate) → List (FlatTerm Predicate)) :
    (d.modifyTarget f target).plan = d.plan := by
  cases target <;> rfl

theorem cursor_modifyTarget (f : List (FlatTerm Predicate) → List (FlatTerm Predicate)) :
    (d.modifyTarget f target).cursor = d.cursor := by
  cases target <;> rfl

theorem params_modifyTarget (f : List (FlatTerm Predicate) → List (FlatTerm Predicate)) :
    (d.modifyTarget f target).params = d.params := by
  cases target <;> rfl

theorem container?_modifyTarget (f : List (FlatTerm Predicate) → List (FlatTerm Predicate)) (qualifier : String) :
    (d.modifyTarget f target).container? qualifier = (d.container? qualifier).map fun c =>
      if target = .connect qualifier then { c with connect := f c.connect } else c := by
  cases target with
  | filter => exact Option.map_id'.symm
  | connect q =>
    have hname : ((fun c : Container => c.qualifier == qualifier) ∘ fun c =>
        if c.qualifier = q then { c with connect := f c.connect } else c) =
          fun c => c.qualifier == qualifier := by
      funext c
      simp only [Function.comp_apply]
      split <;> rfl
    simp only [container?, modifyTarget, List.find?_map, hname]
    cases hc : d.containers.find? fun c => c.qualifier == qualifier with
    | none => rfl
    | some c =>
      have hqualifier : c.qualifier = qualifier := by simpa using List.find?_some hc
      simp only [Option.map_some, hqualifier, Target.connect.injEq, eq_comm]

/-- The condition changes where there is one to change. -/
theorem conditionOf_modifyTarget {f : List (FlatTerm Predicate) → List (FlatTerm Predicate)}
    (h : f [] = [] ∨ ∀ qualifier, target = .connect qualifier → d.container? qualifier ≠ none) :
    (d.modifyTarget f target).conditionOf target = f (d.conditionOf target) := by
  cases target with
  | filter => rfl
  | connect qualifier =>
    simp only [conditionOf, container?_modifyTarget, if_true]
    cases hc : d.container? qualifier with
    | none => exact (h.resolve_right fun hsome => hsome qualifier rfl hc).symm
    | some c => rfl

/-! ### What a draft looks up -/

theorem cases_of_map_eq {α β : Type} {f : α → β} {o o' : Option α} (h : o'.map f = o.map f) :
    o' = none ∧ o = none ∨ ∃ a' a, o' = some a' ∧ o = some a ∧ f a' = f a := by
  cases o with
  | none => exact .inl ⟨Option.map_eq_none_iff.mp h, rfl⟩
  | some a =>
    obtain ⟨a', ho', hf⟩ := Option.map_eq_some_iff.mp h
    exact .inr ⟨a', a, ho', rfl, hf⟩

/-- The two drafts have containers for the same documents, so that fields are looked up alike. -/
structure Alike (d d' : Draft) : Prop where
  schema : d'.schema = d.schema
  document : d'.document = d.document
  containers : ∀ qualifier, (d'.container? qualifier).map Container.document =
    (d.container? qualifier).map Container.document

theorem Alike.trans {d'' : Draft} (h : Alike d d') (h' : Alike d' d'') : Alike d d'' :=
  ⟨h'.schema.trans h.schema, h'.document.trans h.document,
    fun qualifier => (h'.containers qualifier).trans (h.containers qualifier)⟩

theorem Alike.resolve (h : Alike d d') (qualifier : String) (field : Selector) :
    d'.resolve qualifier field = d.resolve qualifier field := by
  unfold Draft.resolve container
  rw [h.schema, h.document]
  rcases cases_of_map_eq (h.containers qualifier) with ⟨hc', hc⟩ | ⟨c', c, hc', hc, hdocument⟩
  · rw [hc, hc']
  · rw [hc, hc']
    show (field.resolve d.schema c'.document).mapError DraftError.path = _
    rw [hdocument]
    rfl

theorem Alike.predicate (h : Alike d d') (qualifier : String) (left : FieldPath) (op : Operator) (right : Comparand) :
    d'.predicate qualifier left op right = d.predicate qualifier left op right := by
  unfold Draft.predicate onPath
  simp only [h.resolve, h.document]

/-- The predicate that a comparison comes to. -/
def accept (d : Draft) (c : Comparison) : Except DraftError Predicate := do
  let left ← d.resolve c.qualifier c.field
  d.predicate c.qualifier left c.op c.right

theorem Alike.accept (h : Alike d d') (c : Comparison) : d'.accept c = d.accept c := by
  unfold Draft.accept
  simp only [h.resolve, h.predicate]

theorem alike_modifyTarget (f : List (FlatTerm Predicate) → List (FlatTerm Predicate)) :
    Alike d (d.modifyTarget f target) := by
  refine ⟨by cases target <;> rfl, by cases target <;> rfl, fun qualifier => ?_⟩
  rw [container?_modifyTarget, Option.map_map]
  refine congrArg (fun g => Option.map g (d.container? qualifier)) (funext fun c => ?_)
  simp only [Function.comp_apply]
  split <;> rfl

/-! ### One comparison -/

theorem container_of_accept {c : Comparison} {p : Predicate} (h : d.accept c = .ok p) :
    ∃ found, d.container c.qualifier = .ok found := by
  obtain ⟨left, hleft, -⟩ := bind_ok h
  obtain ⟨found, hfound, -⟩ := bind_ok hleft
  exact ⟨found, hfound⟩

theorem checkOpen_of_open (h : d.plan = none) : d.checkOpen = .ok () := by
  rw [checkOpen, isFrozen, h]
  rfl

/-- A call for a condition that is accepted adds it. -/
theorem compare_of_accept {clause : Clause} {c : Comparison} {p : Predicate} (hopen : d.plan = none)
    (h : d.accept c = .ok p) : d.apply (c.call clause) = .ok (d.push (targetOf c.qualifier clause) p) := by
  obtain ⟨found, hfound⟩ := container_of_accept h
  obtain ⟨left, hleft, hp⟩ := bind_ok h
  show d.compare clause c.qualifier c.field c.op c.right = _
  unfold compare
  rw [checkOpen_of_open hopen, hfound, hleft]
  cases clause with
  | filter => exact congrArg (fun x => x >>= fun p => pure (d.push (targetOf c.qualifier .filter) p)) hp
  | connect => exact congrArg (fun x => x >>= fun p => pure (d.push (targetOf c.qualifier .connect) p)) hp

/-- A call for a condition adds what the draft accepts, if it succeeds. -/
theorem accept_of_compare {clause : Clause} {c : Comparison} (h : d.apply (c.call clause) = .ok d') :
    ∃ p, d.accept c = .ok p ∧ d' = d.push (targetOf c.qualifier clause) p := by
  have haccept : ∀ {x : Except DraftError Unit}, (do
      x
      d.checkOpen
      let left ← d.resolve c.qualifier c.field
      let p ← d.predicate c.qualifier left c.op c.right
      return d.push (targetOf c.qualifier clause) p) = .ok d' →
      ∃ p, d.accept c = .ok p ∧ d' = d.push (targetOf c.qualifier clause) p := by
    intro x h
    obtain ⟨⟨⟩, -, h⟩ := bind_ok h
    obtain ⟨⟨⟩, -, h⟩ := bind_ok h
    obtain ⟨left, hleft, h⟩ := bind_ok h
    obtain ⟨p, hp, h⟩ := bind_ok h
    refine ⟨p, ?_, (Except.ok.inj h).symm⟩
    rw [accept, hleft]
    exact hp
  cases clause with
  | filter => exact haccept (x := .ok ()) h
  | connect => exact haccept h

theorem conditionOf_push {c : Comparison} {p : Predicate}
    (htarget : targetOf c.qualifier target.clause = target) (h : d.accept c = .ok p) (q : Predicate) :
    (d.push target q).conditionOf target = d.conditionOf target ++
      [{ item := q, byOr := d.cursor.byOr, connect := target != .filter, delta := d.cursor.opens }] := by
  refine conditionOf_modifyTarget (.inr fun qualifier hconnect => ?_)
  obtain rfl : c.qualifier = qualifier := by
    subst hconnect
    exact Target.connect.inj htarget
  intro hnone
  obtain ⟨found, hfound⟩ := container_of_accept h
  rw [container, hnone] at hfound
  cases hfound

end Draft

end DocQuery
