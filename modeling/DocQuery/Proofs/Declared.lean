import DocQuery.Composition.Build
import DocQuery.Composition.Conditions
import DocQuery.Proofs.Calls
import DocQuery.Proofs.Checked
import DocQuery.Proofs.FlatEncode
import DocQuery.Proofs.Scopes

/-! Conditions as they are declared.

Whatever calls made a draft, the predicates in its flat conditions were checked, and so were those
in its plan: `apply_sound` for one call, `Made.sound` for all. `Made.induction` is the induction over
calls by which such things are shown. The same holds of the links of a composition whatever steps
built it (`Grown.sound`). -/
namespace DocQuery

/-! ### Flat conditions -/

/-- Every predicate of the terms was checked. -/
def TermsChecked (terms : List (FlatTerm Predicate)) : Prop :=
  ∀ t ∈ terms, t.item.Checked

theorem termsChecked_iff {terms : List (FlatTerm Predicate)} :
    TermsChecked terms ↔ ∀ p ∈ terms.map (fun t => t.item), p.Checked := by
  simp [TermsChecked]

/-- A decoded condition has the predicates of its terms, in order. -/
theorem leaves_of_decode {terms : List (FlatTerm Predicate)} {t : Tree Predicate}
    (h : Flat.decode terms = .ok (some t)) : t.leaves = terms.map (fun t => t.item) ∧ t.leaves ≠ [] := by
  obtain ⟨hnormal, -, hleaves⟩ := Flat.decode_some h
  exact ⟨hleaves, hnormal.leaves_ne_nil⟩

theorem eq_nil_of_decode {terms : List (FlatTerm Predicate)} (h : Flat.decode terms = .ok none) : terms = [] := by
  rcases Flat.decode_cases terms with ⟨_, -, hdecode⟩ | ⟨-, -, hdecode⟩ | ⟨hnil, -⟩ | ⟨-, -, _, hdecode, -⟩
  · exact nomatch hdecode.symm.trans h
  · exact nomatch hdecode.symm.trans h
  · exact hnil
  · exact nomatch hdecode.symm.trans h

theorem checked_of_decode {terms : List (FlatTerm Predicate)} {t : Tree Predicate} (h : TermsChecked terms)
    (ht : Flat.decode terms = .ok (some t)) : t.Checked := by
  obtain ⟨hleaves, hne⟩ := leaves_of_decode ht
  refine ⟨hne, fun p hp => ?_⟩
  rw [hleaves] at hp
  exact termsChecked_iff.mp h p hp

/-! ### Drafts -/

/-- The conditions of a plan, in the order in which they are compiled. -/
def Plan.conditions (plan : Plan) : List (Tree Predicate) :=
  plan.connects.flatMap Option.toList ++ plan.filter.toList

namespace Draft

variable {d d' : Draft} {target : Target}

/-- Every condition of the draft was checked. -/
structure Sound (d : Draft) : Prop where
  filter : TermsChecked d.filter
  connects : ∀ c ∈ d.containers, TermsChecked c.connect
  plan : ∀ plan, d.plan = some (.ok plan) → ∀ t ∈ plan.conditions, t.Checked

theorem Sound.same (h : Sound d) (hfilter : d'.filter = d.filter) (hcontainers : d'.containers = d.containers)
    (hplan : d'.plan = d.plan) : Sound d' := by
  refine ⟨?_, ?_, ?_⟩
  · rw [hfilter]
    exact h.filter
  · rw [hcontainers]
    exact h.connects
  · rw [hplan]
    exact h.plan

theorem Sound.modifyTarget {f : List (FlatTerm Predicate) → List (FlatTerm Predicate)}
    (hf : ∀ terms, TermsChecked terms → TermsChecked (f terms)) (h : Sound d) :
    Sound (d.modifyTarget f target) := by
  cases target with
  | filter => exact ⟨hf _ h.filter, h.connects, h.plan⟩
  | connect qualifier =>
    refine ⟨h.filter, fun c hc => ?_, h.plan⟩
    obtain ⟨c, hmem, rfl⟩ := List.mem_map.mp hc
    split
    · exact hf _ (h.connects c hmem)
    · exact h.connects c hmem

/-- What a comparison comes to was checked. -/
theorem accept_checked {c : Comparison} {p : Predicate} (h : d.accept c = .ok p) : p.Checked := by
  obtain ⟨left, -, h⟩ := bind_ok h
  cases hright : c.right with
  | field qualifier other =>
    rw [hright] at h
    obtain ⟨right, -, h⟩ := bind_ok h
    obtain ⟨⟨⟩, hpair, h⟩ := bind_ok h
    obtain rfl := Except.ok.inj h
    exact .field rfl rfl (mapError_ok hpair)
  | const v foldCase =>
    rw [hright] at h
    obtain ⟨⟨⟩, hoperator, h⟩ := bind_ok h
    obtain ⟨⟨⟩, hliteral, h⟩ := bind_ok h
    obtain rfl := Except.ok.inj h
    cases hnullary : c.op.isNullary with
    | true => exact .nullary hnullary rfl
    | false => exact .const rfl (mapError_ok hoperator) (mapError_ok hliteral)
  | param name foldCase =>
    rw [hright] at h
    obtain ⟨⟨⟩, hoperator, h⟩ := bind_ok h
    split at h
    · exact nomatch h
    · obtain rfl := Except.ok.inj h
      exact .param rfl (mapError_ok hoperator)

/-- A call that succeeds leaves the draft sound. -/
theorem apply_sound {e : Edit} (h : Sound d) (hcontainer : ∀ c, e = .addContainer c → TermsChecked c.connect)
    (he : d.apply e = .ok d') : Sound d' := by
  cases apply_ok he with
  | @compare c p clause accepted =>
    have hpush : ∀ terms, TermsChecked terms → TermsChecked (terms ++
        [{ item := p, byOr := d.cursor.byOr, connect := targetOf c.qualifier clause != .filter,
           delta := d.cursor.opens }]) :=
      fun terms hterms => List.forall_mem_append.mpr
        ⟨hterms, List.forall_mem_singleton.mpr (accept_checked accepted)⟩
    exact (h.modifyTarget hpush).same rfl rfl rfl
  | @addContainer c _ =>
    exact ⟨h.filter, List.forall_mem_append.mpr
      ⟨h.connects, List.forall_mem_singleton.mpr (hcontainer c rfl)⟩, h.plan⟩
  | closeGroup =>
    refine h.modifyTarget fun terms hterms => ?_
    rw [termsChecked_iff, Flat.map_closeLast fun _ _ => rfl]
    exact termsChecked_iff.mp hterms
  | _ => exact h.same rfl rfl rfl

/-- Freezing a sound draft makes a plan of checked conditions. -/
theorem freeze_sound (h : Sound d) : Sound d.freeze.result := by
  cases hplan : d.plan with
  | some outcome =>
    rw [freeze, hplan]
    exact h
  | none =>
    rw [freeze_open hplan]
    refine ⟨h.filter, h.connects, fun plan hmade t ht => ?_⟩
    have hplanned := makePlan_ok (Option.some.inj hmade)
    rcases List.mem_append.mp ht with ht | ht
    · obtain ⟨connect, hconnect, ht⟩ := List.mem_flatMap.mp ht
      obtain rfl := Option.mem_toList.mp ht
      obtain ⟨c, hc, hdecode⟩ := exists_of_mem_right hplanned.connects hconnect
      exact checked_of_decode (h.connects c hc) hdecode
    · have hfilter := hplanned.filter
      rw [Option.mem_toList.mp ht] at hfilter
      exact checked_of_decode h.filter hfilter

/-! ### Drafts that calls lead to -/

/-- The drafts that calls start from. -/
inductive Started : Draft → Prop where
  | empty (schema : Schema) (document : Document) (command : Command) : Started (empty schema document command)
  | forDocument (schema : Schema) (document : Document) (command : Command) :
    Started (forDocument schema document command)
  | withDeletedField {schema : Schema} {document : Document} {command : Command} {d : Draft}
    (h : withDeletedField schema document command = .ok d) : Started d

/-- Nothing is said before the first call. -/
theorem Started.untouched (h : Started d) :
    d.filter = [] ∧ (∀ c ∈ d.containers, c.connect = []) ∧ d.plan = none := by
  cases h with
  | empty => exact ⟨rfl, (fun c hc => nomatch hc), rfl⟩
  | forDocument => exact ⟨rfl, List.forall_mem_singleton.mpr rfl, rfl⟩
  | withDeletedField h =>
    obtain ⟨_, path, -, -, rfl⟩ := withDeletedField_ok h
    exact ⟨rfl, List.forall_mem_singleton.mpr rfl, rfl⟩

/-- The drafts that calls lead to. A container is given without a condition, or with the one that
it has in some draft. A call that fails changes nothing. -/
inductive Made : Draft → Prop where
  | empty (schema : Schema) (document : Document) (command : Command) : Made (empty schema document command)
  | forDocument (schema : Schema) (document : Document) (command : Command) :
    Made (forDocument schema document command)
  | withDeletedField {schema : Schema} {document : Document} {command : Command} {d : Draft}
    (h : withDeletedField schema document command = .ok d) : Made d
  | edit {d d' : Draft} {e : Edit} (made : Made d) (plain : ∀ c, e = .addContainer c → c.connect = [])
    (h : d.apply e = .ok d') : Made d'
  | adopt {d d' source : Draft} {c given : Container} (made : Made d) (origin : Made source)
    (mem : c ∈ source.containers) (same : given.connect = c.connect)
    (h : d.apply (.addContainer given) = .ok d') : Made d'
  | freeze {d : Draft} (made : Made d) : Made d.freeze.result

theorem Started.made (h : Started d) : Made d := by
  cases h with
  | empty schema document command => exact .empty schema document command
  | forDocument schema document command => exact .forDocument schema document command
  | withDeletedField h => exact .withDeletedField h

/-- A container as it may be handed over: without a condition, or with one that it has in some draft for which
this holds. -/
def GivenFrom (P : Draft → Prop) (c : Container) : Prop :=
  c.connect = [] ∨ ∃ source origin, P source ∧ origin ∈ source.containers ∧ c.connect = origin.connect

/-- What holds of the first drafts and is kept by calls and by freezing holds of all drafts that calls lead to. -/
theorem Made.induction {P : Draft → Prop} (hstart : ∀ d, Started d → P d)
    (happly : ∀ d e d', P d → (∀ c, e = .addContainer c → GivenFrom P c) → d.apply e = .ok d' → P d')
    (hfreeze : ∀ d, P d → P d.freeze.result) (h : Made d) : P d := by
  induction h with
  | empty schema document command => exact hstart _ (.empty schema document command)
  | forDocument schema document command => exact hstart _ (.forDocument schema document command)
  | withDeletedField h => exact hstart _ (.withDeletedField h)
  | edit _ plain he ih => exact happly _ _ _ ih (fun c hc => .inl (plain c hc)) he
  | @adopt d d' source origin given _ _ mem same he ih ihsource =>
    refine happly _ _ _ ih (fun c hc => .inr ⟨source, origin, ihsource, mem, ?_⟩) he
    rw [← Edit.addContainer.inj hc, same]
  | freeze _ ih => exact hfreeze _ ih

theorem Made.apply {e : Edit} (h : Made d) (given : ∀ c, e = .addContainer c → GivenFrom Made c)
    (he : d.apply e = .ok d') : Made d' := by
  by_cases hplain : ∀ c, e = .addContainer c → c.connect = []
  · exact h.edit hplain he
  · obtain ⟨c, rfl, hconnect⟩ : ∃ c, e = .addContainer c ∧ c.connect ≠ [] := by
      simpa only [not_forall, exists_prop] using hplain
    obtain ⟨source, origin, hsource, hmem, hsame⟩ := (given c rfl).resolve_left hconnect
    exact h.adopt hsource hmem hsame he

/-- Calls that fail are passed over. -/
theorem made_actAll {actions : List Action} (h : Made d)
    (given : ∀ c, .edit (.addContainer c) ∈ actions → GivenFrom Made c) : Made (d.actAll actions) := by
  refine actAll_induction (Q := fun e => ∀ c, e = .addContainer c → GivenFrom Made c)
    (fun _ _ _ hd hgiven he => hd.apply hgiven he) (fun _ => Made.freeze) h ?_
  rintro _ he c rfl
  exact given c he

theorem Made.actAll {actions : List Action} (h : Made d)
    (plain : ∀ action ∈ actions, ∀ c, action = .edit (.addContainer c) → c.connect = []) :
    Made (d.actAll actions) :=
  made_actAll h fun c hc => .inl (plain _ hc c rfl)

theorem Made.editAll {calls : List Edit} (h : Made d)
    (plain : ∀ e ∈ calls, ∀ c, e = .addContainer c → c.connect = []) : Made (d.editAll calls) := by
  rw [editAll_eq_actAll]
  refine made_actAll h fun c hc => ?_
  obtain ⟨e, he, heq⟩ := List.mem_map.mp hc
  exact .inl (plain e he c (Action.edit.inj heq))

theorem Made.sound (h : Made d) : Sound d := by
  refine Made.induction (fun d hstart => ?_) (fun d e d' hd hgiven he => ?_) (fun _ => freeze_sound) h
  · obtain ⟨hfilter, hconnects, hplan⟩ := hstart.untouched
    refine ⟨?_, fun c hc => ?_, fun plan hmade => nomatch hplan.symm.trans hmade⟩
    · rw [hfilter]
      exact fun t ht => nomatch ht
    · rw [hconnects c hc]
      exact fun t ht => nomatch ht
  · refine apply_sound hd (fun c hc => ?_) he
    rcases hgiven c hc with hplain | ⟨source, origin, hsource, hmem, hsame⟩
    · rw [hplain]
      exact fun t ht => nomatch ht
    · rw [hsame]
      exact hsource.connects origin hmem

end Draft

/-! ### Compositions -/

/-- The link is a predicate that was checked. -/
def Link.Checked (l : Link) : Prop :=
  ∀ node, (l.predicate node).Checked

namespace Composition

variable {c c' : Composition}

/-- Every link of the composition was checked. -/
def Sound (c : Composition) : Prop :=
  ∀ n ∈ c.nodes, ∀ l ∈ n.links, l.Checked

theorem ancestorLink_ok {n ancestor : Node} {field ancestorField : Selector} {op : Operator}
    {default : Option Value} {l : Link} (h : c.ancestorLink n ancestor field op ancestorField default = .ok l) :
    ∃ left right, field.resolve c.schema n.document = .ok left ∧
      ancestorField.resolve c.schema ancestor.document = .ok right ∧ left.checkFieldPair op right = .ok () ∧
      l = { field := left, op := op, target := .ancestor ancestor.name right, default := default } := by
  obtain ⟨left, hleft, h⟩ := bind_ok h
  obtain ⟨right, hright, h⟩ := bind_ok h
  obtain ⟨⟨⟩, hpair, h⟩ := bind_ok h
  refine ⟨left, right, mapError_ok hleft, mapError_ok hright, mapError_ok hpair, ?_⟩
  cases default
  all_goals
    obtain ⟨⟨⟩, -, h⟩ := bind_ok h
    exact (Except.ok.inj h).symm

theorem ancestorLink_checked {n ancestor : Node} {field ancestorField : Selector} {op : Operator}
    {default : Option Value} {l : Link} (h : c.ancestorLink n ancestor field op ancestorField default = .ok l) :
    l.Checked := by
  obtain ⟨left, right, -, -, hpair, rfl⟩ := ancestorLink_ok h
  exact fun node => .field rfl rfl hpair

theorem link_checked {i : Nat} {n : Node} {r : Rule} {l : Link} (h : c.link i n r = .ok l) : l.Checked := by
  cases r with
  | join ancestor field op ancestorField =>
    obtain ⟨a, -, h⟩ := bind_ok h
    exact ancestorLink_checked h
  | connect field op ancestorField default =>
    simp only [link] at h
    split at h
    · exact nomatch h
    · obtain ⟨a, -, h⟩ := bind_ok h
      exact ancestorLink_checked h
  | const field op v =>
    obtain ⟨path, -, h⟩ := bind_ok h
    obtain ⟨⟨⟩, hoperator, h⟩ := bind_ok h
    obtain ⟨⟨⟩, hliteral, h⟩ := bind_ok h
    obtain rfl := Except.ok.inj h
    exact fun node => .const rfl (mapError_ok hoperator) (mapError_ok hliteral)
  | param field op name =>
    obtain ⟨path, -, h⟩ := bind_ok h
    obtain ⟨⟨⟩, hoperator, h⟩ := bind_ok h
    obtain rfl := Except.ok.inj h
    exact fun node => .param rfl (mapError_ok hoperator)

theorem forall_mem_modify {α : Type} {P : α → Prop} {f : α → α} (hf : ∀ a, P a → P (f a)) {as : List α}
    (h : ∀ a ∈ as, P a) (i : Nat) : ∀ a ∈ as.modify i f, P a := by
  intro a ha
  obtain ⟨j, hj⟩ := List.mem_iff_getElem?.mp ha
  rw [List.getElem?_modify] at hj
  obtain ⟨b, hb, rfl⟩ := Option.map_eq_some_iff.mp hj
  have hP := h b (List.mem_of_getElem? hb)
  split
  · exact hf b hP
  · exact hP

/-- A composition keeps its links checked while it grows. -/
theorem Grown.sound (hgrown : Grown c c') (h : c.Sound) : c'.Sound := by
  induction hgrown with
  | refl => exact h
  | @node c _ parent _ _ _ _ _ added ih =>
    obtain ⟨-, -, rfl⟩ := addNode_ok added
    have hnodes := forall_mem_modify (P := fun n : Node => ∀ l ∈ n.links, l.Checked)
      (f := fun n => n.withChild c.nodes.length) (fun _ hn => hn) ih parent
    exact List.forall_mem_append.mpr ⟨hnodes, List.forall_mem_singleton.mpr fun l hl => nomatch hl⟩
  | @link _ _ i _ _ added ih =>
    rcases addRule_ok added with rfl | ⟨_, l, -, hlink, rfl⟩
    · exact ih
    · exact forall_mem_modify (fun n hn => List.forall_mem_append.mpr
        ⟨hn, List.forall_mem_singleton.mpr (link_checked hlink)⟩) ih i

/-- Whatever steps built it, every node's condition is of checked predicates. -/
theorem conditionTree?_checked {schema : Schema} {name : String} {document : Document} {steps : List Step}
    {i : Nat} {t : Tree Predicate} (h : (build schema name document steps).result.result = .ok c)
    (ht : c.conditionTree? i = some t) : t.Checked := by
  have hroot : (root schema name document).Sound :=
    List.forall_mem_singleton.mpr fun l hl => nomatch hl
  have hsound : c.Sound := (build_grown h).sound hroot
  obtain ⟨n, hn, ht⟩ := Option.bind_eq_some_iff.mp ht
  simp only [Node.conditionTree?, Node.conjunction?] at ht
  split at ht
  · exact nomatch ht
  · next hsome =>
    obtain rfl := Option.some.inj ht
    have hleaves : (Tree.all ((n.links.map fun l => l.predicate n.name).map Tree.leaf)).leaves =
        n.links.map fun l => l.predicate n.name := by
      rw [Tree.all, Tree.leaves_normalize, Tree.leaves_node, List.flatMap_map]
      exact List.flatMap_singleton' _
    refine ⟨?_, ?_⟩
    · rw [hleaves]
      simpa using hsome
    · rw [hleaves]
      intro p hp
      obtain ⟨l, hl, rfl⟩ := List.mem_map.mp hp
      exact hsound n (List.mem_of_getElem? hn) l hl n.name

end Composition

end DocQuery
