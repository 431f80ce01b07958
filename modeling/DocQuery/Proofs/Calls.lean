import DocQuery.Proofs.Accepting

/-! What a call does to a draft.

`Applied` has one rule for each kind of call: what was found when the call succeeded, and the draft
that it leaves. What no call changes is read off it (`Applied.kept`), and with freezing this makes
the state of a draft after any sequence of calls. -/
namespace DocQuery

/-- The container as it was added, before conditions connect it. -/
def Container.bare (c : Container) : Container :=
  { c with connect := [] }

namespace Draft

variable {d d' d'' : Draft} {e : Edit}

/-! ### One call -/

/-- The draft after a call that succeeds, with what the call found. -/
inductive Applied (d : Draft) : Edit → Draft → Prop where
  | compare {c : Comparison} {p : Predicate} (clause : Clause) (accepted : d.accept c = .ok p) :
    Applied d (c.call clause) (d.push (targetOf c.qualifier clause) p)
  | addContainer {c : Container} (fresh : d.container? c.qualifier = none) :
    Applied d (.addContainer c) { d with containers := d.containers ++ [c] }
  | joinNext (j : Joiner) : Applied d (.joinNext j) { d with cursor := { d.cursor with byOr := j == .or } }
  | openGroup : Applied d .openGroup d.openGroup
  | closeGroup {target : Target} (last : d.cursor.last = some target) (opens : d.cursor.opens = 0)
    (depth : 0 < Flat.depth (d.conditionOf target)) :
    Applied d .closeGroup (d.modifyTarget Flat.closeLast target)
  | declare {p : Parameter} (fresh : ∀ q ∈ d.params, q.name ≠ p.name) :
    Applied d (.declare p) { d with params := d.params ++ [p] }
  | project {marker : Marker} {given : Option String} {qualifier : String} {field : Selector} {path : FieldPath}
    {name : Option String} (container : given = some qualifier ∨ given = none ∧ d.primaryAlias = .ok qualifier)
    (found : d.resolve qualifier field = .ok path) (queryable : path.checkQueryable = .ok ()) :
    Applied d (.project marker given field name)
      { d with projection := d.projection ++ [⟨marker, name.getD path.dotted, qualifier, path⟩] }
  | sortBy {qualifier : String} {field : Selector} {path : FieldPath} {direction : Direction}
    (found : d.resolve qualifier field = .ok path) (queryable : path.checkQueryable = .ok ())
    (orderable : path.kind.isOrderable = true) :
    Applied d (.sortBy qualifier field direction) { d with sort := d.sort ++ [⟨qualifier, path, direction⟩] }
  | aggregate {qualifier : String} {field : Selector} {path : FieldPath} {op : Aggregate} {name : Option String}
    (found : d.resolve qualifier field = .ok path) (queryable : path.checkQueryable = .ok ())
    (supported : op.supports path.kind = true) :
    Applied d (.aggregate qualifier field op name)
      { d with aggregates := d.aggregates ++ [⟨qualifier, path, op, name⟩] }
  | skip (n : UInt64) : Applied d (.skip n) { d with page := { d.page with skip := some n } }
  | take (n : UInt64) : Applied d (.take n) { d with page := { d.page with take := some n } }

theorem closeGroup_ok (h : d.closeGroup = .ok d') : Applied d .closeGroup d' := by
  unfold Draft.closeGroup at h
  split at h
  · exact nomatch h
  · next hopens =>
    split at h
    · exact nomatch h
    · next hlast =>
      split at h
      · next hdepth =>
        obtain rfl := Except.ok.inj h
        exact .closeGroup hlast (Nat.eq_zero_of_not_pos hopens) hdepth
      · exact nomatch h

theorem project_ok {marker : Marker} {given : Option String} {field : Selector} {name : Option String}
    (h : d.project marker given field name = .ok d') : Applied d (.project marker given field name) d' := by
  cases given
  all_goals
    obtain ⟨qualifier, hqualifier, h⟩ := bind_ok h
    obtain ⟨⟨⟩, -, h⟩ := bind_ok h
    obtain ⟨path, hpath, h⟩ := bind_ok h
    obtain ⟨⟨⟩, hqueryable, h⟩ := bind_ok h
    obtain rfl := Except.ok.inj h
  · exact .project (.inr ⟨rfl, hqualifier⟩) hpath (mapError_ok hqueryable)
  · exact .project (.inl (congrArg some (Except.ok.inj hqualifier))) hpath (mapError_ok hqueryable)

/-- A call that succeeds does what its rule says. -/
theorem apply_ok (h : d.apply e = .ok d') : Applied d e d' := by
  cases e with
  | compare clause qualifier field op right =>
    obtain ⟨p, haccept, rfl⟩ := accept_of_compare (c := ⟨qualifier, field, op, right⟩) h
    exact .compare clause haccept
  | project marker given field name => exact project_ok h
  | addContainer c =>
    obtain ⟨⟨⟩, -, h⟩ := bind_ok h
    unfold Draft.addContainer at h
    split at h
    · exact nomatch h
    · next hfresh =>
      obtain rfl := Except.ok.inj h
      exact .addContainer (by simpa using hfresh)
  | closeGroup =>
    obtain ⟨⟨⟩, -, h⟩ := bind_ok h
    exact closeGroup_ok h
  | declare p =>
    obtain ⟨⟨⟩, -, h⟩ := bind_ok h
    unfold Draft.declare at h
    split at h
    · exact nomatch h
    · next hfresh =>
      obtain rfl := Except.ok.inj h
      exact .declare (by simpa using hfresh)
  | sortBy qualifier field direction =>
    obtain ⟨⟨⟩, -, h⟩ := bind_ok h
    obtain ⟨path, hpath, h⟩ := bind_ok h
    obtain ⟨⟨⟩, hqueryable, h⟩ := bind_ok h
    split at h
    · next horderable =>
      obtain rfl := Except.ok.inj h
      exact .sortBy hpath (mapError_ok hqueryable) horderable
    · exact nomatch h
  | aggregate qualifier field op name =>
    obtain ⟨⟨⟩, -, h⟩ := bind_ok h
    obtain ⟨path, hpath, h⟩ := bind_ok h
    obtain ⟨⟨⟩, hqueryable, h⟩ := bind_ok h
    split at h
    · next hsupported =>
      obtain rfl := Except.ok.inj h
      exact .aggregate hpath (mapError_ok hqueryable) hsupported
    · exact nomatch h
  | joinNext j =>
    obtain ⟨⟨⟩, -, h⟩ := bind_ok h
    obtain rfl := Except.ok.inj h
    exact .joinNext j
  | openGroup =>
    obtain ⟨⟨⟩, -, h⟩ := bind_ok h
    obtain rfl := Except.ok.inj h
    exact .openGroup
  | skip n =>
    obtain ⟨⟨⟩, -, h⟩ := bind_ok h
    obtain rfl := Except.ok.inj h
    exact .skip n
  | take n =>
    obtain ⟨⟨⟩, -, h⟩ := bind_ok h
    obtain rfl := Except.ok.inj h
    exact .take n

theorem open_of_checkOpen (h : d.checkOpen = .ok ()) : d.plan = none := by
  unfold checkOpen isFrozen at h
  cases hplan : d.plan with
  | none => rfl
  | some outcome =>
    rw [hplan] at h
    exact nomatch h

/-- No call succeeds on a frozen draft. -/
theorem open_of_apply (h : d.apply e = .ok d') : d.plan = none := by
  cases e with
  | compare clause qualifier field op right =>
    -- A connecting condition looks for its container first.
    have hopen : ∀ {x : Except DraftError Unit} {f : Unit → Except DraftError Draft},
        (x >>= fun _ => d.checkOpen >>= f) = .ok d' → d.plan = none := by
      intro x f h
      obtain ⟨⟨⟩, -, h⟩ := bind_ok h
      obtain ⟨⟨⟩, hopen, -⟩ := bind_ok h
      exact open_of_checkOpen hopen
    cases clause with
    | filter => exact hopen (x := .ok ()) h
    | connect => exact hopen h
  | project marker given field name =>
    cases given
    all_goals
      obtain ⟨qualifier, -, h⟩ := bind_ok h
      obtain ⟨⟨⟩, hopen, -⟩ := bind_ok h
      exact open_of_checkOpen hopen
  | _ =>
    obtain ⟨⟨⟩, hopen, -⟩ := bind_ok h
    exact open_of_checkOpen hopen

/-! ### What stays -/

/-- What no call changes. Containers are only ever added, at the end. -/
structure Kept (d d' : Draft) : Prop where
  schema : d'.schema = d.schema
  document : d'.document = d.document
  command : d'.command = d.command
  deletedField : d'.deletedField = d.deletedField
  containers : d.containers.map Container.bare <+: d'.containers.map Container.bare

theorem Kept.refl (d : Draft) : Kept d d :=
  ⟨rfl, rfl, rfl, rfl, List.prefix_rfl⟩

theorem Kept.trans (h : Kept d d') (h' : Kept d' d'') : Kept d d'' :=
  ⟨h'.schema.trans h.schema, h'.document.trans h.document, h'.command.trans h.command,
    h'.deletedField.trans h.deletedField, h.containers.trans h'.containers⟩

/-- Changing conditions changes nothing else of the containers. -/
theorem bare_modifyTarget (f : List (FlatTerm Predicate) → List (FlatTerm Predicate)) (target : Target) :
    (d.modifyTarget f target).containers.map Container.bare = d.containers.map Container.bare := by
  cases target with
  | filter => rfl
  | connect qualifier =>
    have hbare : (Container.bare ∘ fun c : Container =>
        if c.qualifier = qualifier then { c with connect := f c.connect } else c) = Container.bare := by
      funext c
      simp only [Function.comp_apply]
      split <;> rfl
    rw [modifyTarget, List.map_map, hbare]

theorem kept_modifyTarget (f : List (FlatTerm Predicate) → List (FlatTerm Predicate)) (target : Target) :
    Kept d (d.modifyTarget f target) := by
  have hcontainers : d.containers.map Container.bare <+: (d.modifyTarget f target).containers.map Container.bare :=
    (bare_modifyTarget f target).symm ▸ List.prefix_rfl
  cases target with
  | filter => exact ⟨rfl, rfl, rfl, rfl, hcontainers⟩
  | connect qualifier => exact ⟨rfl, rfl, rfl, rfl, hcontainers⟩

theorem kept_push (target : Target) (p : Predicate) : Kept d (d.push target p) :=
  have h := kept_modifyTarget (d := d) _ target
  ⟨h.schema, h.document, h.command, h.deletedField, h.containers⟩

theorem Applied.kept (h : Applied d e d') : Kept d d' := by
  cases h with
  | compare clause accepted => exact kept_push _ _
  | addContainer fresh =>
    refine ⟨rfl, rfl, rfl, rfl, ?_⟩
    rw [List.map_append]
    exact List.prefix_append _ _
  | closeGroup => exact kept_modifyTarget _ _
  | _ => exact ⟨rfl, rfl, rfl, rfl, List.prefix_rfl⟩

theorem Applied.plan (h : Applied d e d') : d'.plan = d.plan := by
  cases h with
  | compare =>
    show (d.modifyTarget _ (targetOf _ _)).plan = d.plan
    exact plan_modifyTarget _
  | closeGroup => exact plan_modifyTarget _
  | _ => rfl

/-- Every container stays, with its condition perhaps. -/
theorem Kept.container (h : Kept d d') {c : Container} (hc : c ∈ d.containers) :
    ∃ c' ∈ d'.containers, c'.bare = c.bare :=
  List.mem_map.mp (h.containers.subset (List.mem_map_of_mem hc))

theorem kept_freeze : Kept d d.freeze.result := by
  cases hplan : d.plan with
  | some outcome =>
    rw [freeze, hplan]
    exact .refl d
  | none =>
    rw [freeze_open hplan]
    exact ⟨rfl, rfl, rfl, rfl, List.prefix_rfl⟩

/-! ### Starting -/

theorem withDeletedField_ok {schema : Schema} {document : Document} {command : Command}
    (h : withDeletedField schema document command = .ok d) :
    ∃ field path, document.deleted? = some field ∧ FieldPath.resolve schema document field.name = .ok path ∧
      d = { forDocument schema document command with deletedField := some path } := by
  unfold withDeletedField at h
  split at h
  · exact nomatch h
  · next field hfield =>
    split at h
    · exact nomatch h
    · next path hpath => exact ⟨field, path, hfield, hpath, (Except.ok.inj h).symm⟩

/-! ### Sequences of calls -/

/-- What can be asked of a draft that may change it. -/
inductive Action where
  | edit (e : Edit)
  | freeze

/-- The draft after an action, or the same draft if it fails. -/
def act (d : Draft) : Action → Draft
  | .edit e => d.edit e
  | .freeze => d.freeze.result

def actAll (d : Draft) : List Action → Draft
  | [] => d
  | action :: rest => (d.act action).actAll rest

/-- What calls that succeed and freezing preserve holds after any calls. -/
theorem actAll_induction {P : Draft → Prop} {Q : Edit → Prop}
    (happly : ∀ d e d', P d → Q e → d.apply e = .ok d' → P d') (hfreeze : ∀ d, P d → P d.freeze.result)
    (h : P d) {actions : List Action} (hall : ∀ e, .edit e ∈ actions → Q e) : P (d.actAll actions) := by
  induction actions generalizing d with
  | nil => exact h
  | cons action rest ih =>
    refine ih ?_ fun e he => hall e (List.mem_cons_of_mem _ he)
    cases action with
    | freeze => exact hfreeze d h
    | edit e =>
      rw [act, edit]
      split
      · next hedit => exact happly d e _ h (hall e (List.mem_cons_self ..)) hedit
      · exact h

theorem kept_actAll (d : Draft) (actions : List Action) : Kept d (d.actAll actions) :=
  actAll_induction (Q := fun _ => True) (fun _ _ _ h _ he => h.trans (apply_ok he).kept)
    (fun _ h => h.trans kept_freeze) (.refl d) fun _ _ => trivial

theorem kept_act (d : Draft) (action : Action) : Kept d (d.act action) :=
  kept_actAll d [action]

theorem editAll_eq_actAll (d : Draft) (calls : List Edit) : d.editAll calls = d.actAll (calls.map .edit) := by
  induction calls generalizing d with
  | nil => rfl
  | cons e rest ih => exact ih (d.edit e)

end Draft

end DocQuery
