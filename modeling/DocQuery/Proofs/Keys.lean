import DocQuery.Proofs.Reachable
import DocQuery.Proofs.Statements

/-! What a keyed statement says.

A statement is keyed when its filter has, as a whole or as a member of conjunctions, a predicate that
gives the identifier. Then such a predicate holds wherever the filter does (`exists_of_pinnedBy`). It
stands for the primary container, or else for a container that is joined without a name
(`keyed_gives_key`): those are taken for the primary one as well. -/
namespace DocQuery

namespace Tree

variable {α : Type} {pin truth : α → Bool}

theorem somePinnedBy_eq_any (pin : α → Bool) (members : List (Tree α)) :
    somePinnedBy pin members = members.any (pinnedBy pin) := by
  induction members with
  | nil => rfl
  | cons t rest ih => simp only [somePinnedBy, ih, List.any_cons]

/-- A tree that is pinned holds only where one of its pins does. -/
theorem exists_of_pinnedBy {t : Tree α} (hpinned : t.pinnedBy pin = true) (heval : t.eval truth = true) :
    ∃ a ∈ t.leaves, pin a = true ∧ truth a = true := by
  induction t with
  | leaf a => exact ⟨a, List.mem_singleton_self a, hpinned, heval⟩
  | group t ih => exact ih hpinned heval
  | node j members ih =>
    cases j with
    | or => exact nomatch hpinned
    | and =>
      rw [pinnedBy, somePinnedBy_eq_any] at hpinned
      rw [eval_and] at heval
      obtain ⟨t, ht, hpin⟩ := List.any_eq_true.mp hpinned
      obtain ⟨a, ha, hholds⟩ := ih t ht hpin (List.all_eq_true.mp heval t ht)
      rw [leaves_node]
      exact ⟨a, List.mem_flatMap.mpr ⟨t, ht, ha⟩, hholds⟩

end Tree

/-! ### Predicates that give a key -/

/-- The predicate gives the document's identifier, which is a field of the document itself. -/
structure Predicate.GivesKey (p : Predicate) (d : Document) (identifier : String) : Prop where
  op : p.op = .equal ∨ p.op = .isIn
  root : p.field.root.path = d.path
  field : p.field.names = [identifier]

theorem Predicate.pins_iff {p : Predicate} {d : Document} {identifier qualifier : String} :
    p.pins d identifier qualifier = true ↔
      p.GivesKey d identifier ∧ (p.qualifier = "" ∨ p.qualifier = qualifier) := by
  have hnames : p.field.steps.length = 1 ∧ p.field.leaf.name = identifier ↔ p.field.names = [identifier] := by
    obtain ⟨root, steps, hne⟩ := p.field
    unfold FieldPath.leaf FieldPath.names
    match steps with
    | [] => exact absurd rfl hne
    | [step] => simp
    | _ :: _ :: _ => simp
  unfold pins Document.same
  simp only [Bool.and_eq_true, Bool.or_eq_true, beq_iff_eq, String.isEmpty_iff]
  constructor
  · rintro ⟨⟨⟨⟨hop, hqualifier⟩, hlength⟩, hroot⟩, hleaf⟩
    exact ⟨⟨hop, hroot, hnames.mp ⟨hlength, hleaf⟩⟩, hqualifier⟩
  · rintro ⟨⟨hop, hroot, hfield⟩, hqualifier⟩
    obtain ⟨hlength, hleaf⟩ := hnames.mpr hfield
    exact ⟨⟨⟨⟨hop, hqualifier⟩, hlength⟩, hroot⟩, hleaf⟩

namespace Draft

open Sql (Dialect)

variable {d : Draft} {dialect : Dialect} {params : ParamSet} {s : Statement}

theorem isKeyed_iff {filter : Option (Tree Predicate)} : d.isKeyed filter = true ↔
    ∃ t identifier primary, filter = some t ∧ d.document.identifier? = some identifier ∧
      d.primary? = some primary ∧
      t.pinnedBy (fun p => p.pins d.document identifier.name primary.qualifier) = true := by
  unfold isKeyed
  constructor
  · intro h
    split at h
    · next t identifier primary hidentifier hprimary => exact ⟨t, identifier, primary, rfl, hidentifier, hprimary, h⟩
    · exact nomatch h
  · rintro ⟨t, identifier, primary, rfl, hidentifier, hprimary, h⟩
    rw [hidentifier, hprimary]
    exact h

/-- The predicate stands for a container that is joined and has no name. -/
def Strays (d : Draft) (p : Predicate) : Prop :=
  p.qualifier = "" ∧ ∃ c ∈ d.containers, c.isPrimary = false ∧ c.qualifier = "" ∧ p.field.root = c.document

/-- Without a name, a predicate stands for the primary container or strays. -/
theorem primary_or_strays {p : Predicate} {primary : Container} (hgrounds : d.Grounds p)
    (hprimary : ∀ c ∈ d.containers, c.isPrimary = true → c = primary) (hp : p.qualifier = "") :
    p.qualifier = primary.qualifier ∨ d.Strays p := by
  obtain ⟨c, hc, hqualifier, hroot⟩ := hgrounds
  cases hkind : c.isPrimary with
  | true =>
    obtain rfl := hprimary c hc hkind
    exact .inl hqualifier.symm
  | false => exact .inr ⟨hp, c, hc, hkind, hqualifier.trans hp, hroot⟩

theorem keyed_iff (hcompile : (d.compile dialect params).result = .ok s) :
    s.keyed = true ↔ d.isKeyed d.filterTree? = true := by
  obtain ⟨plan, containers, text, bound, hplan, -, rfl⟩ := compile_ok hcompile
  rw [filterTree?, hplan]
  rfl

/-- A predicate of the filter that pins stands for the primary container, unless it strays. -/
theorem primary_or_strays_of_pins (made : Made d) {filter : Tree Predicate} {primary : Container} {p : Predicate}
    (hfilter : d.filterTree? = some filter) (hprimary : d.primary? = some primary) (hp : p ∈ filter.leaves)
    (hqualifier : p.qualifier = "" ∨ p.qualifier = primary.qualifier) :
    p.qualifier = primary.qualifier ∨ d.Strays p := by
  rcases hqualifier with hunnamed | hnamed
  · obtain ⟨plan, hplan, hplanFilter⟩ := Option.bind_eq_some_iff.mp hfilter
    have hplanned := made.coherent.planned hplan
    have hdecode := hplanned.filter
    rw [hplanFilter] at hdecode
    have hgrounds : d.Grounds p := made.grounded p ((leaves_of_decode hdecode).1 ▸ hp)
    obtain ⟨only, hfound, honly⟩ := primary_of_checkPrimary hplanned.primary
    obtain rfl := Option.some.inj (hprimary.symm.trans hfound)
    exact primary_or_strays hgrounds honly hunnamed
  · exact .inl hnamed

/-- **A keyed statement is one about given rows.** Wherever its filter holds, a predicate of it holds
that gives the identifier of the draft's document. That predicate stands for the primary container,
unless it strays. And a statement is keyed if such a predicate is its filter, or a member of the
conjunction that is. -/
theorem keyed_gives_key (made : Made d) (hcompile : (d.compile dialect params).result = .ok s) :
    (s.keyed = true → ∃ filter identifier primary, d.filterTree? = some filter ∧
      d.document.identifier? = some identifier ∧ d.primary? = some primary ∧
      ∀ truth, filter.eval truth = true → ∃ p ∈ filter.leaves, truth p = true ∧
        p.GivesKey d.document identifier.name ∧ (p.qualifier = primary.qualifier ∨ d.Strays p)) ∧
    (∀ filter identifier primary p, d.filterTree? = some filter → d.document.identifier? = some identifier →
      d.primary? = some primary → (filter = .leaf p ∨ ∃ members, filter = .node .and members ∧ .leaf p ∈ members) →
      p.GivesKey d.document identifier.name → p.qualifier = primary.qualifier → s.keyed = true) := by
  rw [keyed_iff hcompile, isKeyed_iff]
  constructor
  · rintro ⟨filter, identifier, primary, hfilter, hidentifier, hprimary, hpinned⟩
    refine ⟨filter, identifier, primary, hfilter, hidentifier, hprimary, fun truth heval => ?_⟩
    obtain ⟨p, hp, hpins, htruth⟩ := Tree.exists_of_pinnedBy hpinned heval
    obtain ⟨hgives, hqualifier⟩ := Predicate.pins_iff.mp hpins
    exact ⟨p, hp, htruth, hgives, primary_or_strays_of_pins made hfilter hprimary hp hqualifier⟩
  · intro filter identifier primary p hfilter hidentifier hprimary hshape hgives hqualifier
    have hpins : p.pins d.document identifier.name primary.qualifier = true :=
      Predicate.pins_iff.mpr ⟨hgives, .inr hqualifier⟩
    refine ⟨filter, identifier, primary, hfilter, hidentifier, hprimary, ?_⟩
    rcases hshape with rfl | ⟨members, rfl, hmem⟩
    · exact hpins
    · rw [Tree.pinnedBy, Tree.somePinnedBy_eq_any]
      exact List.any_eq_true.mpr ⟨.leaf p, hmem, hpins⟩

/-! A ticket is looked up by its identifier. In the second draft the ticket that is looked up is not
the one that is deleted. -/

def ticket : Document where
  path := "desk.Ticket"
  name := "Ticket"
  storage := "tickets"
  fields := [{ name := "id", storage := "Id", kind := .int, roles := [.identifier] }]

def ticketIs7 : Edit :=
  .compare .filter "" (.named "id") .equal (.const (.int 7) false)

theorem keyed_gives_key_ticket :
    ∃ d s, Made d ∧ (d.compile .postgres {}).result = .ok s ∧ s.keyed = true ∧
      ∃ filter identifier primary, d.filterTree? = some filter ∧ d.document.identifier? = some identifier ∧
        d.primary? = some primary ∧
        ∀ truth, filter.eval truth = true → ∃ p ∈ filter.leaves, truth p = true ∧
          p.GivesKey d.document identifier.name ∧ (p.qualifier = primary.qualifier ∨ d.Strays p) := by
  have made : Made ((forDocument [ticket] ticket .delete).actAll [.edit ticketIs7, .freeze]) :=
    (Made.forDocument [ticket] ticket .delete).actAll (by simp [ticketIs7])
  obtain ⟨s, hcompile⟩ : ∃ s, (((forDocument [ticket] ticket .delete).actAll
      [.edit ticketIs7, .freeze]).compile .postgres {}).result = .ok s := ⟨_, rfl⟩
  obtain ⟨hgives, hkeys⟩ := keyed_gives_key made hcompile
  have hkeyed : s.keyed = true := hkeys _ _ _ _ rfl rfl rfl (.inl rfl) ⟨.inl rfl, rfl, rfl⟩ rfl
  exact ⟨_, s, made, hcompile, hkeyed, hgives hkeyed⟩

def strayActions : List Action :=
  [.edit (.addContainer { Container.primary ticket .delete with qualifier := "o" }),
    .edit (.addContainer (.joined ticket .cross "")), .edit ticketIs7, .freeze]

/-- A statement can be keyed though none of its predicates stands for the primary container. -/
theorem keyed_by_stray :
    ∃ d s filter identifier primary, Made d ∧ (d.compile .postgres {}).result = .ok s ∧ s.keyed = true ∧
      d.filterTree? = some filter ∧ d.document.identifier? = some identifier ∧ d.primary? = some primary ∧
      ∃ truth, filter.eval truth = true ∧ ¬ ∃ p ∈ filter.leaves, truth p = true ∧
        p.GivesKey d.document identifier.name ∧ p.qualifier = primary.qualifier := by
  have made : Made ((empty [ticket] ticket .delete).actAll strayActions) :=
    (Made.empty [ticket] ticket .delete).actAll
      (by simp [strayActions, ticketIs7, Container.primary, Container.joined])
  refine ⟨_, _, _, _, _, made, rfl, rfl, rfl, rfl, rfl, fun _ => true, rfl, ?_⟩
  rintro ⟨p, hp, -, -, hqualifier⟩
  obtain rfl := List.mem_singleton.mp hp
  exact absurd hqualifier (by decide)

end Draft

end DocQuery
