import DocQuery.Proofs.Nodes

/-! Links to ancestors.

A link to an ancestor is found by walking upwards, by the ancestor's name or by the document that a
field belongs to, so it is a link to a node above (`link_linked`). By its document an ancestor is
found only if it is the only one (`connects`). `composition_well_formed` has this with all that a
composition keeps while it grows. -/
namespace DocQuery

namespace Composition

variable {c c' : Composition} {i : Nat} {n : Node}

/-! ### What is linked -/

theorem ancestorLink_linked {a : Nat} {m : Node} {field ancestorField : Selector} {op : Operator}
    {default : Option Value} {l : Link} (habove : c.Above a i) (hm : c.node? a = some m)
    (h : c.ancestorLink n m field op ancestorField default = .ok l) : c.Linked i n l := by
  obtain ⟨left, right, hleft, hright, -, rfl⟩ := ancestorLink_ok h
  refine ⟨Selector.root_of_resolve hleft, ?_⟩
  rintro name field htarget
  obtain ⟨rfl, rfl⟩ := LinkTarget.ancestor.inj htarget
  exact ⟨a, m, habove, hm, rfl, (Selector.root_of_resolve hright).symm⟩

theorem namedAncestor_ok (h : c.ParentsFirst) {name : String} {m : Node} (hfound : c.namedAncestor i n name = .ok m) :
    ∃ a, c.Above a i ∧ c.node? a = some m := by
  unfold namedAncestor at hfound
  split at hfound
  · next a m' hmem =>
    obtain rfl := Except.ok.inj hfound
    exact ⟨a, (mem_ancestorNodes h).mp (List.mem_of_find?_eq_some hmem)⟩
  · exact nomatch hfound

/-- The nodes above a place that are bound to the document, the nearest first. -/
def boundAbove (c : Composition) (i : Nat) (document : Document) : List (Nat × Node) :=
  (c.ancestorNodes i).filter fun (_, a) => a.document.same document

theorem mem_boundAbove (h : c.ParentsFirst) {document : Document} {a : Nat} {m : Node} :
    (a, m) ∈ c.boundAbove i document ↔
      c.Above a i ∧ c.node? a = some m ∧ m.document.path = document.path := by
  simp only [boundAbove, List.mem_filter, mem_ancestorNodes h, Document.same, beq_iff_eq, and_assoc]

theorem boundAncestor_eq (document : Document) :
    c.boundAncestor i n document = match c.boundAbove i document with
      | [(_, a)] => .ok a
      | [] => .error (.noMatchingAncestor n.name document.path)
      | several => .error (.ambiguousAncestor n.name document.path (several.map fun (_, a) => a.name)) :=
  rfl

theorem boundAncestor_ok (h : c.ParentsFirst) {document : Document} {m : Node}
    (hfound : c.boundAncestor i n document = .ok m) : ∃ a, c.Above a i ∧ c.node? a = some m := by
  rw [boundAncestor_eq] at hfound
  split at hfound
  · next a m' honly =>
    obtain rfl := Except.ok.inj hfound
    have hmem : (a, m') ∈ c.boundAbove i document := by
      rw [honly]
      exact List.mem_singleton_self _
    obtain ⟨habove, hm, -⟩ := (mem_boundAbove h).mp hmem
    exact ⟨a, habove, hm⟩
  · exact nomatch hfound
  · exact nomatch hfound

/-- Whatever a rule asks for, the link that comes of it is about the node and nodes above it. -/
theorem link_linked (h : c.ParentsFirst) {r : Rule} {l : Link} (hlink : c.link i n r = .ok l) : c.Linked i n l := by
  have hplain : ∀ {field : Selector} {path : FieldPath} {target : LinkTarget} {op : Operator},
      (field.resolve c.schema n.document).mapError CompositionError.path = .ok path →
      (∀ name other, target ≠ .ancestor name other) →
      c.Linked i n { field := path, op := op, target := target } := fun hpath hother =>
    ⟨Selector.root_of_resolve (mapError_ok hpath), fun name other htarget => absurd htarget (hother name other)⟩
  cases r with
  | join ancestor field op ancestorField =>
    obtain ⟨m, hm, hlink⟩ := bind_ok hlink
    obtain ⟨a, habove, hnode⟩ := namedAncestor_ok h hm
    exact ancestorLink_linked habove hnode hlink
  | connect field op ancestorField default =>
    simp only [link] at hlink
    split at hlink
    · cases hlink
    · obtain ⟨m, hm, hlink⟩ := bind_ok hlink
      obtain ⟨a, habove, hnode⟩ := boundAncestor_ok h hm
      exact ancestorLink_linked habove hnode hlink
  | const field op v =>
    obtain ⟨path, hpath, hlink⟩ := bind_ok hlink
    obtain ⟨⟨⟩, -, hlink⟩ := bind_ok hlink
    obtain ⟨⟨⟩, -, hlink⟩ := bind_ok hlink
    obtain rfl := Except.ok.inj hlink
    refine hplain hpath fun name other htarget => ?_
    cases htarget
  | param field op name =>
    obtain ⟨path, hpath, hlink⟩ := bind_ok hlink
    obtain ⟨⟨⟩, -, hlink⟩ := bind_ok hlink
    obtain rfl := Except.ok.inj hlink
    refine hplain hpath fun name other htarget => ?_
    cases htarget

/-- A composition keeps its arrangement while it grows. -/
theorem Grown.arranged (hgrown : Grown c c') (h : c.Arranged) : c'.Arranged := by
  induction hgrown with
  | refl => exact h
  | node _ place added ih =>
    obtain ⟨hfree, -, rfl⟩ := addNode_ok added
    exact ih.withNode _ place hfree
  | link _ added ih =>
    rcases addRule_ok added with rfl | ⟨n, l, hn, hlink, rfl⟩
    · exact ih
    · exact ih.addLink hn (link_linked ih.parentsFirst hlink)

/-! ### Finding an ancestor by its document -/

/-- The step failed, and recorded nothing. -/
def Site.refused (s : Site) (attempt : Bool) (e : CompositionError) : Site × Except CompositionError Unit :=
  (s.note (.finished (.error e)), passedUp attempt (.error e))

/-- The step recorded the link. -/
def Site.linked (s : Site) (i : Nat) (l : Link) : Site × Except CompositionError Unit :=
  (({ s with composition := s.composition.addLink i l } : Site).note (.finished (.ok ())), .ok ())

variable {s : Site} {attempt : Bool} {owner : Document}

/-- What a step comes to that asks for a link of the node `n` at place `i` to the only ancestor bound to `owner`, when
`bound` are those that there are. -/
inductive Connects (s : Site) (i : Nat) (n : Node) (owner : Document) (attempt : Bool) :
    List (Nat × Node) → Site × Except CompositionError Unit → Prop where
  | none : Connects s i n owner attempt [] (s.refused attempt (.noMatchingAncestor n.name owner.path))
  | several {bound : List (Nat × Node)} (several : 2 ≤ bound.length) :
    Connects s i n owner attempt bound
      (s.refused attempt (.ambiguousAncestor n.name owner.path (bound.map fun (_, m) => m.name)))
  /-- The only one is linked. -/
  | linked {a : Nat} {m : Node} {l : Link} {field : FieldPath} (own : l.field.root = n.document)
    (target : l.target = .ancestor m.name field) (root : field.root = m.document) :
    Connects s i n owner attempt [(a, m)] (s.linked i l)
  /-- The only one is not linked, because of the fields. -/
  | unsuited {a : Nat} {m : Node} {e : CompositionError}
    (cause : (∃ e', e = .path e') ∨ ∃ e', e = .condition e') :
    Connects s i n owner attempt [(a, m)] (s.refused attempt e)

/-- Once the ancestor is known a link fails by its fields only. -/
theorem ancestorLink_error {m : Node} {field ancestorField : Selector} {op : Operator} {default : Option Value}
    {e : CompositionError} (h : c.ancestorLink n m field op ancestorField default = .error e) :
    (∃ e', e = .path e') ∨ ∃ e', e = .condition e' := by
  have hpath : ∀ {α : Type} {x : Except PathError α}, x.mapError CompositionError.path = .error e →
      (∃ e', e = .path e') ∨ ∃ e', e = .condition e' := by
    intro α x hx
    obtain ⟨e', -, he⟩ := mapError_error hx
    exact .inl ⟨e', he⟩
  have hcondition : ∀ {α : Type} {x : Except ConditionError α}, x.mapError CompositionError.condition = .error e →
      (∃ e', e = .path e') ∨ ∃ e', e = .condition e' := by
    intro α x hx
    obtain ⟨e', -, he⟩ := mapError_error hx
    exact .inr ⟨e', he⟩
  rcases bind_error h with hleft | ⟨left, -, h⟩
  · exact hpath hleft
  rcases bind_error h with hright | ⟨right, -, h⟩
  · exact hpath hright
  rcases bind_error h with hpair | ⟨_, -, h⟩
  · exact hcondition hpair
  cases default with
  | none => exact nomatch h
  | some v =>
    rcases bind_error h with hliteral | ⟨_, -, h⟩
    · exact hcondition hliteral
    · exact nomatch h

theorem takeStep_link (hn : s.composition.node? i = some n) (rule : Rule) :
    takeStep i s (.link rule attempt) = match s.composition.link i n rule with
      | .ok l => s.linked i l
      | .error e => s.refused attempt e := by
  have hadd : s.composition.addRule i rule = (s.composition.link i n rule).map (s.composition.addLink i) := by
    rw [addRule, hn]
  rw [takeStep, hadd]
  cases s.composition.link i n rule <;> rfl

/-- Asking for a link by the document of a field finds just the nodes above that are bound to it. -/
theorem connects (hn : s.composition.node? i = some n) (field : Selector) (op : Operator) (owner : Document)
    (segments : List String) (default : Option Value) (attempt : Bool) :
    Connects s i n owner attempt (s.composition.boundAbove i owner)
      (takeStep i s (.link (.connect field op (.typed owner segments) default) attempt)) := by
  have hlink : s.composition.link i n (.connect field op (.typed owner segments) default) =
      s.composition.boundAncestor i n owner >>= fun a =>
        s.composition.ancestorLink n a field op (.typed owner segments) default := rfl
  rw [takeStep_link hn, hlink, boundAncestor_eq]
  generalize s.composition.boundAbove i owner = bound
  cases bound with
  | nil => exact .none
  | cons only others =>
    cases others with
    | cons y rest => exact .several (by simp)
    | nil =>
      obtain ⟨a, m⟩ := only
      show Connects s i n owner attempt [(a, m)]
        (match s.composition.ancestorLink n m field op (.typed owner segments) default with
          | .ok l => s.linked i l
          | .error e => s.refused attempt e)
      cases hone : s.composition.ancestorLink n m field op (.typed owner segments) default with
      | error e => exact .unsuited (ancestorLink_error hone)
      | ok l =>
        obtain ⟨left, right, hleft, hright, -, rfl⟩ := ancestorLink_ok hone
        exact .linked (Selector.root_of_resolve hleft) rfl (Selector.root_of_resolve hright)

/-! ### What steps keep -/

/-- How the nodes of a composition hang together, as it is seen from outside. -/
structure WellFormed (c : Composition) : Prop where
  /-- Names differ, also without regard to letter case. -/
  distinct : (c.nodes.map fun n => Text.lowerCase n.name).Nodup
  /-- Looking a name up finds the node that has it, in whatever letter case. -/
  found : ∀ name i, c.find? name = some i ↔
    ∃ n, c.node? i = some n ∧ Text.lowerCase n.name = Text.lowerCase name
  /-- The root has no parent, and every other node has one before it. -/
  root : ∃ n, c.node? 0 = some n ∧ n.parent = none
  parent : ∀ i n, c.node? i = some n → 0 < i → ∃ p, n.parent = some p ∧ p < i
  /-- The walk upwards meets the nodes above, the nearest first, and ends at the root. -/
  above : ∀ i a, a ∈ c.ancestors i ↔ c.Above a i
  nearest : ∀ i, (c.ancestors i).Pairwise (· > ·)
  ends : ∀ i, 0 < i → i < c.nodes.length → (c.ancestors i).getLast? = some 0
  /-- The children of a node are the nodes with that parent, each once, in the order in which they were added. -/
  children : ∀ i n, c.node? i = some n →
    n.children = (List.range c.nodes.length).filter fun j => c.parent? j = some i
  links : ∀ i n, c.node? i = some n → ∀ l ∈ n.links, c.Linked i n l

theorem Arranged.wellFormed (h : c.Arranged) : c.WellFormed := by
  have hroot : c.parent? 0 = none := by
    obtain ⟨n, hn, hnone⟩ := h.root
    rw [parent?_eq, hn]
    exact hnone
  have hparent : ∀ i, 0 < i → i < c.nodes.length → ∃ p, c.parent? i = some p := by
    intro i hpos hi
    have hn : c.node? i = some c.nodes[i] := List.getElem?_eq_getElem hi
    obtain ⟨p, hp, -⟩ := h.parent i _ hn hpos
    exact ⟨p, Option.bind_eq_some_iff.mpr ⟨_, hn, hp⟩⟩
  refine ⟨h.distinct, fun name i => ?_, h.root, h.parent, fun i a => mem_ancestors h.parentsFirst,
    ancestors_nearest h.parentsFirst, fun i => getLast?_ancestors h.parentsFirst hroot hparent, h.children, h.links⟩
  rw [find?_eq_some_iff h, keys, List.getElem?_map, Option.map_eq_some_iff]
  rfl

/-- **Steps keep a composition well formed**, in scopes of any depth and whatever failed before. At any time, a link
that is asked for by the document of a field is recorded only if just one node above is bound to that document; if
there is none, or there are several, the step fails and says so, and records nothing. -/
theorem composition_well_formed (schema : Schema) (name : String) (document : Document) :
    (∀ (steps : List Step) (c : Composition), (build schema name document steps).result.result = .ok c →
      c.WellFormed) ∧
    (∀ s : Site, Grown (root schema name document) s.composition → s.composition.WellFormed ∧
      (∀ i, i < s.composition.nodes.length → ∀ steps,
        Grown (root schema name document) (takeSteps i s steps).1.composition) ∧
      ∀ i n, s.composition.node? i = some n →
        ∀ (field : Selector) (op : Operator) (owner : Document) (segments : List String) (default : Option Value)
          (attempt : Bool), ∃ bound : List (Nat × Node),
          (∀ a m, (a, m) ∈ bound ↔
            s.composition.Above a i ∧ s.composition.node? a = some m ∧ m.document.path = owner.path) ∧
          (bound.Pairwise fun x y => x.1 > y.1) ∧
          Connects s i n owner attempt bound
            (takeStep i s (.link (.connect field op (.typed owner segments) default) attempt))) := by
  refine ⟨fun steps c hbuilt => ?_, fun s hgrown => ?_⟩
  · exact ((build_grown hbuilt).arranged (root_arranged schema name document)).wellFormed
  · have harranged := hgrown.arranged (root_arranged schema name document)
    refine ⟨harranged.wellFormed, fun i hi steps => hgrown.trans (takeSteps_grown hi steps), ?_⟩
    intro i n hn field op owner segments default attempt
    refine ⟨s.composition.boundAbove i owner, fun a m => mem_boundAbove harranged.parentsFirst, ?_,
      connects hn field op owner segments default attempt⟩
    exact (ancestorNodes_nearest harranged.parentsFirst i).filter _

/-! Two depots, one below the other, with a node that may not have its name and a link that has no ancestor to go to.
A parcel below them can be linked to its region, but not to a depot. -/

def region : Document where
  path := "post.Region"
  name := "Region"
  storage := "regions"
  fields := [{ name := "code", storage := "Code", kind := .int }]

def depot : Document where
  path := "post.Depot"
  name := "Depot"
  storage := "depots"
  fields := [{ name := "code", storage := "Code", kind := .int }]

/-- Asks for equality with the code of the only ancestor that is bound to the document. -/
def sameCode (owner : Document) (attempt : Bool) : Step :=
  .link (.connect (.named "code") .equal (.typed owner ["code"]) none) attempt

def depotSteps : List Step :=
  [.node "Main" depot [sameCode depot true,
    .node "Branch" depot [.node "MAIN" depot [] true, sameCode region false, .node "Parcel" depot [] false] false] false]

theorem composition_well_formed_depots :
    ∃ c n, (build [region, depot] "Post" region depotSteps).result.result = .ok c ∧ c.WellFormed ∧
      c.node? 3 = some n ∧
      (∃ bound : List (Nat × Node),
        (∀ a m, (a, m) ∈ bound ↔ c.Above a 3 ∧ c.node? a = some m ∧ m.document.path = "post.Depot") ∧
        (bound.Pairwise fun x y => x.1 > y.1) ∧
        Connects { composition := c } 3 n depot false bound
          (takeStep 3 { composition := c } (sameCode depot false))) ∧
      takeStep 3 { composition := c } (sameCode depot false) =
        Site.refused { composition := c } false (.ambiguousAncestor "Parcel" "post.Depot" ["Branch", "Main"]) := by
  have hwhole := composition_well_formed [region, depot] "Post" region
  have hbuilt : ∃ c, (build [region, depot] "Post" region depotSteps).result.result = .ok c ∧
      (∃ n, c.node? 3 = some n) ∧ takeStep 3 { composition := c } (sameCode depot false) =
        Site.refused { composition := c } false (.ambiguousAncestor "Parcel" "post.Depot" ["Branch", "Main"]) :=
    ⟨_, by with_unfolding_all rfl, ⟨_, rfl⟩, by with_unfolding_all rfl⟩
  obtain ⟨c, hc, ⟨n, hn⟩, hrefused⟩ := hbuilt
  have hsite := hwhole.2 { composition := c } (build_grown hc)
  exact ⟨c, n, hc, hwhole.1 depotSteps c hc, hn,
    hsite.2.2 3 n hn (.named "code") .equal depot ["code"] none false, hrefused⟩

end Composition

end DocQuery
