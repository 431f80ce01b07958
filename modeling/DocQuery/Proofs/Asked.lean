import DocQuery.Proofs.Reachable

/-! What goes into the conditions of a draft.

A call that succeeds asks for a predicate (`Draft.asks`), or adds a container with the condition that
the container has already (`Edit.brings`). `asked` and `brought` read off a sequence of calls what all
of them come to. A condition has what was brought, then what was asked for (`items_actAll`).

The draft looks at what is asked for, so that is about fields that it has (`stands_asked`). It does not
look at what is brought: a container of another draft can come with a condition about fields of that
draft. -/
namespace DocQuery

/-- Letter case is to be disregarded. -/
def Comparand.foldCase : Comparand → Bool
  | .field _ _ => false
  | .const _ foldCase => foldCase
  | .param _ foldCase => foldCase

/-- The predicates that a new container comes with, if the target is its condition. -/
def Edit.brings (target : Target) : Edit → List Predicate
  | .addContainer c => if .connect c.qualifier = target then c.connect.map fun t => t.item else []
  | _ => []

namespace Draft

variable {d d' : Draft} {e : Edit} {target : Target}

/-! ### One call -/

/-- The right-hand side with its field looked up. A nullary operator has none. -/
def operand? (d : Draft) (op : Operator) : Comparand → Option Operand
  | .field qualifier field => (d.resolve qualifier field).toOption.map (.field qualifier)
  | .const v _ => some (if op.isNullary then .none else .const v)
  | .param name _ => some (.param name)

/-- The predicate that the comparison states, allowed or not. -/
def stated? (d : Draft) (c : Comparison) : Option Predicate := do
  let field ← (d.resolve c.qualifier c.field).toOption
  let operand ← d.operand? c.op c.right
  return { qualifier := c.qualifier, field, op := c.op, operand, foldCase := c.right.foldCase }

/-- The predicates that a call asks for in the condition of the target. -/
def asks (d : Draft) (target : Target) : Edit → List Predicate
  | .compare clause qualifier field op right =>
    if targetOf qualifier clause = target then (d.stated? ⟨qualifier, field, op, right⟩).toList else []
  | _ => []

theorem stated?_of_accept {c : Comparison} {p : Predicate} (h : d.accept c = .ok p) : d.stated? c = some p := by
  obtain ⟨left, hleft, h⟩ := bind_ok h
  cases hright : c.right with
  | field qualifier field =>
    rw [hright] at h
    obtain ⟨right, hresolve, h⟩ := bind_ok h
    obtain ⟨⟨⟩, -, h⟩ := bind_ok h
    obtain rfl := Except.ok.inj h
    rw [stated?, hright, operand?, hleft, hresolve]
    rfl
  | const v foldCase =>
    rw [hright] at h
    obtain ⟨⟨⟩, -, h⟩ := bind_ok h
    obtain ⟨⟨⟩, -, h⟩ := bind_ok h
    obtain rfl := Except.ok.inj h
    rw [stated?, hright, operand?, hleft]
    rfl
  | param name foldCase =>
    rw [hright] at h
    obtain ⟨⟨⟩, -, h⟩ := bind_ok h
    split at h
    · exact nomatch h
    · obtain rfl := Except.ok.inj h
      rw [stated?, hright, operand?, hleft]
      rfl

theorem asks_of_accept {c : Comparison} {clause : Clause} {p : Predicate} (here : targetOf c.qualifier clause = target)
    (accepted : d.accept c = .ok p) : d.asks target (c.call clause) = [p] := by
  rw [Comparison.call, asks, if_pos here, stated?_of_accept accepted]
  rfl

theorem asks_of_elsewhere (h : e.target? ≠ some target) : d.asks target e = [] := by
  cases e with
  | compare clause qualifier field op right => exact if_neg fun here => h (congrArg some here)
  | _ => rfl

theorem brings_of_elsewhere (h : e.target? ≠ some target) : e.brings target = [] := by
  cases e with
  | addContainer c => exact if_neg fun here => h (congrArg some here)
  | _ => rfl

/-- A call puts at the end of the condition what it brings or asks for. -/
theorem Rewrites.items {terms terms' : List (FlatTerm Predicate)} (h : Rewrites d target e terms terms') :
    terms'.map (fun t => t.item) = terms.map (fun t => t.item) ++ (e.brings target ++ d.asks target e) := by
  cases h with
  | same elsewhere =>
    rw [brings_of_elsewhere elsewhere, asks_of_elsewhere elsewhere]
    exact (List.append_nil _).symm
  | add here accepted =>
    rw [asks_of_accept here accepted]
    exact List.map_append
  | close =>
    rw [Flat.map_closeLast fun _ _ => rfl]
    exact (List.append_nil _).symm
  | bring here =>
    rw [Edit.brings, if_pos here.symm]
    exact (List.append_nil _).symm

/-- What a call that succeeds asks for stands in the draft. -/
theorem Applied.stands {p : Predicate} (h : Applied d e d') (hp : p ∈ d.asks target e) : d.Stands target p := by
  cases h with
  | @compare c _ clause accepted =>
    by_cases here : targetOf c.qualifier clause = target
    · rw [asks_of_accept here accepted] at hp
      obtain rfl := List.mem_singleton.mp hp
      exact stands_of_accept accepted here
    · have elsewhere : (c.call clause).target? ≠ some target := fun hsome => here (Option.some.inj hsome)
      rw [asks_of_elsewhere elsewhere] at hp
      exact nomatch hp
  | _ => exact nomatch hp

/-! ### Containers of other drafts -/

/-- The container of that name as another draft can be given it, under a name of its own there. -/
def handOver (d : Draft) (qualifier name : String) : Option Container :=
  (d.container? qualifier).map fun c => { c with qualifier := name }

theorem Made.handOver {c : Container} (h : Made d) (qualifier name : String)
    (hc : d.handOver qualifier name = some c) : GivenFrom Made c := by
  obtain ⟨origin, horigin, rfl⟩ := Option.map_eq_some_iff.mp hc
  exact .inr ⟨d, origin, h, List.mem_of_find?_eq_some horigin, rfl⟩

/-! ### Sequences of calls -/

/-- What is read off the calls that succeed, in their order. -/
def gathered (read : Draft → Edit → List Predicate) (d : Draft) : List Action → List Predicate
  | [] => []
  | .freeze :: rest => gathered read d.freeze.result rest
  | .edit e :: rest =>
    match d.apply e with
    | .ok d' => read d e ++ gathered read d' rest
    | .error _ => gathered read d rest

/-- What the calls that succeed ask for. -/
def asked (target : Target) : Draft → List Action → List Predicate :=
  gathered fun d e => d.asks target e

/-- What comes along with the container whose condition is the target. -/
def brought (target : Target) : Draft → List Action → List Predicate :=
  gathered fun _ e => e.brings target

/-- A sequence of calls that is read to say nothing. -/
theorem gathered_eq_nil {P : Draft → Prop} {read : Draft → Edit → List Predicate} {actions : List Action}
    (happly : ∀ d e d', .edit e ∈ actions → P d → d.apply e = .ok d' → read d e = [] ∧ P d')
    (hfreeze : ∀ d, P d → P d.freeze.result) (h : P d) : gathered read d actions = [] := by
  induction actions generalizing d with
  | nil => rfl
  | cons action rest ih =>
    have ih := fun {d : Draft} => ih (d := d) fun d e d' he => happly d e d' (List.mem_cons_of_mem _ he)
    cases action with
    | freeze => exact ih (hfreeze d h)
    | edit e =>
      rw [gathered]
      split
      · next d' he =>
        obtain ⟨hread, hd'⟩ := happly d e d' (List.mem_cons_self ..) h he
        rw [hread, ih hd']
        rfl
      · exact ih h

theorem brought_filter (d : Draft) (actions : List Action) : brought .filter d actions = [] := by
  refine gathered_eq_nil (P := fun _ => True) (fun d e d' _ _ _ => ⟨?_, trivial⟩) (fun _ _ => trivial) trivial
  cases e <;> rfl

theorem Kept.named {qualifier : String} (h : Kept d d') (hd : ∃ c ∈ d.containers, c.qualifier = qualifier) :
    ∃ c ∈ d'.containers, c.qualifier = qualifier := by
  obtain ⟨c, hc, hname⟩ := hd
  obtain ⟨c', hc', hbare⟩ := h.container hc
  exact ⟨c', hc', (congrArg Container.qualifier hbare).trans hname⟩

/-- No second container is added under a name. -/
theorem brought_of_container {qualifier : String} {actions : List Action}
    (h : ∃ c ∈ d.containers, c.qualifier = qualifier) : brought (.connect qualifier) d actions = [] := by
  refine gathered_eq_nil (P := fun d => ∃ c ∈ d.containers, c.qualifier = qualifier)
    (fun d e d' _ hd he => ⟨?_, (apply_ok he).kept.named hd⟩) (fun _ => kept_freeze.named) h
  cases apply_ok he with
  | @addContainer c fresh =>
    refine if_neg fun here => ?_
    obtain ⟨c', hc', hname⟩ := hd
    exact absurd (hname.trans (Target.connect.inj here).symm) (by simpa using List.find?_eq_none.mp fresh c' hc')
  | _ => rfl

/-- A container that a predicate was asked for is there, and brings nothing more. -/
theorem asks_or_brought (target : Target) (rest : List Action) (h : d.apply e = .ok d') :
    d.asks target e = [] ∨ brought target d' rest = [] := by
  refine or_iff_not_imp_left.mpr fun hasks => ?_
  obtain ⟨p, hp⟩ := List.exists_mem_of_ne_nil _ hasks
  have hstands := ((apply_ok h).stands hp).kept (apply_ok h).kept
  cases target with
  | filter => exact brought_filter _ _
  | connect qualifier =>
    obtain ⟨c, hc, hname, -⟩ := hstands.field
    exact brought_of_container ⟨c, hc, hname.trans (hstands.own _ rfl)⟩

/-- A condition has what it had, what was brought and what was asked for. -/
theorem items_actAll (target : Target) (d : Draft) (actions : List Action) :
    ((d.actAll actions).conditionOf target).map (fun t => t.item) =
      (d.conditionOf target).map (fun t => t.item) ++ (brought target d actions ++ asked target d actions) := by
  induction actions generalizing d with
  | nil => exact (List.append_nil _).symm
  | cons action rest ih =>
    rw [actAll, ih]
    cases action with
    | freeze => rw [act, conditionOf_freeze, brought, asked, gathered, gathered, ← brought, ← asked]
    | edit e =>
      rw [act, edit, brought, asked, gathered, gathered, ← brought, ← asked]
      cases he : d.apply e with
      | error _ => rfl
      | ok d' =>
        simp only [((apply_ok he).condition target).items, List.append_assoc]
        -- What the call asks for is moved past what the rest brings: one of the two is nothing.
        rcases asks_or_brought target rest he with hnone | hnone <;> simp [hnone]

end Draft

end DocQuery
