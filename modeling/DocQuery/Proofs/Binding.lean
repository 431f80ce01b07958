import DocQuery.Composition.Conditions
import DocQuery.Proofs.CompiledLeaves
import DocQuery.Proofs.Connecting
import DocQuery.Proofs.Rejoining

/-! Binding a node to a row above it.

A tree may keep some of its leaves, with others in their place (`Tree.filterMap`). The condition of a
node bound to a row of an ancestor is the node's whole condition that keeps its links to the ancestor,
each with the row's value in place of the field (`Link.boundTo`). A link holds the name of its ancestor
as the ancestor has it, and names differ in lower case, so that it does not matter in which letter case
the ancestor is asked for (`fieldOf?_iff`). `parent_bound` says what binding comes to in every case. -/
namespace DocQuery

/-! ### Keeping some of the leaves -/

namespace Tree

variable {α β : Type}

mutual

/-- Keeps the leaves for which `f` has something, and puts that in their place. The others leave groups of nothing
behind, which normalizing drops. -/
def filterMap (f : α → Option β) : Tree α → Tree β
  | leaf a => (f a).elim (node .and []) leaf
  | node j members => node j (filterMapAll f members)
  | group t => group (filterMap f t)

def filterMapAll (f : α → Option β) : List (Tree α) → List (Tree β)
  | [] => []
  | t :: rest => filterMap f t :: filterMapAll f rest

end

variable {f : α → Option β}

theorem filterMapAll_eq_map (members : List (Tree α)) : filterMapAll f members = members.map (filterMap f) := by
  induction members with
  | nil => rfl
  | cons t rest ih => rw [filterMapAll, ih, List.map_cons]

theorem filterMap_node (j : Joiner) (members : List (Tree α)) :
    (node j members).filterMap f = node j (members.map (filterMap f)) := by
  rw [filterMap, filterMapAll_eq_map]

theorem leaves_filterMap (t : Tree α) : (t.filterMap f).leaves = t.leaves.filterMap f := by
  induction t with
  | leaf a =>
    rw [filterMap, leaves, List.filterMap_cons]
    cases f a <;> rfl
  | group t ih => exact ih
  | node j members ih =>
    rw [filterMap_node, leaves_node, leaves_node, List.flatMap_map, List.filterMap_flatMap]
    exact List.flatMap_congr ih

end Tree

namespace Conjunct

variable {α β : Type}

theorem leaves_toTree (c : Conjunct α) : c.toTree.leaves = c := by
  rw [toTree, Tree.all, Tree.leaves_normalize, Tree.leaves_node, List.flatMap_map]
  exact List.flatMap_singleton' c

theorem map_toTree (f : α → β) (c : Conjunct α) : c.toTree.map f = toTree (List.map f c) := by
  rw [toTree_eq_collapse, toTree_eq_collapse, ← Tree.collapse_map, List.map_map, List.map_map]
  rfl

/-- Those items of a conjunction that are kept are joined again. -/
theorem filterMap_toTree (f : α → Option β) (c : Conjunct α) :
    (c.toTree.filterMap f).normalize = toTree (List.filterMap f c) := by
  have hmembers : (c.map fun a => (Tree.leaf a).filterMap f).flatMap (fun t => Tree.absorb .and t.normalize) =
      (c.filterMap f).map Tree.leaf := by
    induction c with
    | nil => rfl
    | cons a rest ih =>
      rw [List.map_cons, List.flatMap_cons, ih, Tree.filterMap, List.filterMap_cons]
      cases f a <;> rfl
  rw [toTree_eq_collapse, toTree_eq_collapse, ← hmembers]
  cases c with
  | nil => rfl
  | cons a rest =>
    cases rest with
    | nil =>
      -- A sole item has no group around it, and leaves an empty one behind if it is not kept.
      have hone : ∀ kept : Option β, (kept.elim (.node .and []) Tree.leaf).normalize =
          Tree.collapse .and (Tree.absorb .and (kept.elim (.node .and []) Tree.leaf).normalize ++ []) := by
        intro kept
        cases kept <;> rfl
      exact hone (f a)
    | cons b more =>
      show ((Tree.node .and ((a :: b :: more).map Tree.leaf)).filterMap f).normalize = _
      rw [Tree.filterMap_node, Tree.normalize_node, List.map_map]
      rfl

end Conjunct

/-! ### What a link comes to -/

namespace Link

/-- The link is one to the node. -/
def LinksTo (l : Link) (m : Node) : Prop :=
  ∃ field, l.target = .ancestor m.name field

/-- If the link is one to the node, its field there has a value by the record or by default. -/
def Supplied (m : Node) (record : Record) (l : Link) : Prop :=
  ∀ field, l.target = .ancestor m.name field → record field.dotted ≠ none ∨ l.default ≠ none

/-- The predicate of a link to the node `m`, with the value that the record gives its field there for the operand, or
else the link's default. -/
def boundTo (m : Node) (record : Record) (node : String) (l : Link) : Option Predicate :=
  match l.target with
  | .ancestor name field =>
    if name = m.name then
      ((record field.dotted).or l.default).map fun v => { l.predicate node with operand := .const v }
    else none
  | _ => none

variable {m : Node} {record : Record} {node : String} {l : Link}

theorem boundTo_of_target {field : FieldPath} (h : l.target = .ancestor m.name field) :
    l.boundTo m record node =
      ((record field.dotted).or l.default).map fun v => { l.predicate node with operand := .const v } := by
  rw [boundTo, h]
  exact if_pos rfl

theorem boundTo_of_not (h : ¬ l.LinksTo m) : l.boundTo m record node = none := by
  rw [boundTo]
  split
  · next name field htarget =>
    refine if_neg fun hname => h ⟨field, ?_⟩
    rw [htarget, hname]
  · rfl

theorem isSome_boundTo (node : String) (hlinks : l.LinksTo m) (hsupplied : l.Supplied m record) :
    (l.boundTo m record node).isSome = true := by
  obtain ⟨field, htarget⟩ := hlinks
  rw [boundTo_of_target htarget, Option.isSome_map, Option.isSome_or, Bool.or_eq_true, Option.isSome_iff_ne_none,
    Option.isSome_iff_ne_none]
  exact hsupplied field htarget

end Link

namespace Composition

variable {c : Composition} {a i : Nat} {n m : Node} {l : Link} {ancestor : String} {record : Record}

/-! ### Which links are meant -/

/-- Nodes are told apart by their names in lower case. -/
theorem Arranged.node_eq (h : c.Arranged) {b : Nat} {m' : Node} (hm : c.node? a = some m) (hm' : c.node? b = some m')
    (hname : Text.lowerCase m.name = Text.lowerCase m'.name) : m = m' := by
  have hplace : ∀ {j : Nat} {k : Node}, c.node? j = some k → c.keys.idxOf? (Text.lowerCase k.name) = some j := by
    intro j k hk
    have hnode : c.nodes[j]? = some k := hk
    rw [idxOf?_of_nodup h.distinct, keys, List.getElem?_map, hnode, Option.map_some]
  have hsame := hplace hm
  rw [hname, hplace hm'] at hsame
  obtain rfl := Option.some.inj hsame
  exact Option.some.inj (hm.symm.trans hm')

/-- The links that are meant by the name of an ancestor in whatever letter case are the links to it. -/
theorem fieldOf?_iff (h : c.Arranged) (hlinked : c.Linked i n l) (hm : c.node? a = some m)
    (hname : Text.lowerCase m.name = Text.lowerCase ancestor) {field : FieldPath} :
    l.fieldOf? ancestor = some field ↔ l.target = .ancestor m.name field := by
  rw [Link.fieldOf?]
  constructor
  · intro hfield
    split at hfield
    · next name other htarget =>
      split at hfield
      · next hsame =>
        obtain rfl := Option.some.inj hfield
        obtain ⟨b, m', -, hm', rfl, -⟩ := hlinked.ancestor name other htarget
        rw [htarget, h.node_eq hm hm' (hname.trans (beq_iff_eq.mp hsame).symm)]
      · exact nomatch hfield
    · exact nomatch hfield
  · intro htarget
    rw [htarget]
    exact if_pos (beq_iff_eq.mpr hname)

/-- A link goes into the bound condition, or there is no value for its field. -/
theorem boundPredicate_cases (n : Node) (record : Record)
    (hmeant : ∀ field, l.fieldOf? ancestor = some field ↔ l.target = .ancestor m.name field) :
    (l.Supplied m record ∧ n.boundPredicate ancestor record l = .ok (l.boundTo m record n.name)) ∨
      ∃ field, l.target = .ancestor m.name field ∧ record field.dotted = none ∧ l.default = none ∧
        n.boundPredicate ancestor record l = .error (.missingParentValue n.name field.dotted) := by
  cases hfield : l.fieldOf? ancestor with
  | none =>
    have hother : ¬ l.LinksTo m := fun ⟨field, htarget⟩ => nomatch hfield.symm.trans ((hmeant field).mpr htarget)
    rw [Node.boundPredicate, hfield, Link.boundTo_of_not hother]
    exact .inl ⟨fun field htarget => absurd ⟨field, htarget⟩ hother, rfl⟩
  | some field =>
    have htarget := (hmeant field).mp hfield
    rw [Node.boundPredicate, hfield, Link.boundTo_of_target htarget]
    cases hvalue : (record field.dotted).or l.default with
    | none =>
      obtain ⟨hrecord, hdefault⟩ := Option.or_eq_none_iff.mp hvalue
      refine .inr ⟨field, htarget, hrecord, hdefault, ?_⟩
      simp only [hvalue]
    | some v =>
      refine .inl ⟨fun other hother => ?_, ?_⟩
      · obtain ⟨-, rfl⟩ := LinkTarget.ancestor.inj (htarget.symm.trans hother)
        rcases Option.or_eq_some_iff.mp hvalue with hrecord | ⟨-, hdefault⟩
        · exact .inl fun hnone => nomatch hnone.symm.trans hrecord
        · exact .inr fun hnone => nomatch hnone.symm.trans hdefault
      · simp only [hvalue]
        rfl

/-- All links have the values they need, or there is a first one that has not. -/
theorem boundPredicates_cases (record : Record)
    (hmeant : ∀ l ∈ n.links, ∀ field, l.fieldOf? ancestor = some field ↔ l.target = .ancestor m.name field) :
    ((∀ l ∈ n.links, l.Supplied m record) ∧ n.links.mapM (n.boundPredicate ancestor record) =
      .ok (n.links.map fun l => l.boundTo m record n.name)) ∨
    ∃ before l after field, n.links = before ++ l :: after ∧ (∀ l' ∈ before, l'.Supplied m record) ∧
      l.target = .ancestor m.name field ∧ record field.dotted = none ∧ l.default = none ∧
      n.links.mapM (n.boundPredicate ancestor record) = .error (.missingParentValue n.name field.dotted) := by
  have hcases := fun l hl => boundPredicate_cases n record (hmeant l hl)
  cases hall : n.links.mapM (n.boundPredicate ancestor record) with
  | ok predicates =>
    have hok : ∀ l ∈ n.links, l.Supplied m record ∧
        n.boundPredicate ancestor record l = .ok (l.boundTo m record n.name) := by
      intro l hl
      rcases hcases l hl with hok | ⟨_, -, -, -, hfailed⟩
      · exact hok
      · obtain ⟨p, -, hp⟩ := exists_of_mem_left (mapM_ok hall) hl
        exact nomatch hfailed.symm.trans hp
    exact .inl ⟨fun l hl => (hok l hl).1, hall.symm.trans (mapM_eq_map fun l hl => (hok l hl).2)⟩
  | error e =>
    obtain ⟨before, l, after, horder, hbefore, herror⟩ := mapM_error_iff.mp hall
    have hsupplied : ∀ l' ∈ before, l'.Supplied m record := by
      intro l' hl'
      rcases hcases l' (horder ▸ List.mem_append_left _ hl') with ⟨hsupplied, -⟩ | ⟨_, -, -, -, hfailed⟩
      · exact hsupplied
      · have hok := hbefore l' hl'
        rw [hfailed] at hok
        exact absurd hok Bool.false_ne_true
    rcases hcases l (horder ▸ List.mem_append_right before (List.mem_cons_self ..)) with
      ⟨-, hok⟩ | ⟨field, htarget, hrecord, hdefault, hfailed⟩
    · exact nomatch hok.symm.trans herror
    · obtain rfl := Except.error.inj (herror.symm.trans hfailed)
      exact .inr ⟨before, l, after, field, horder, hsupplied, htarget, hrecord, hdefault, rfl⟩

/-! ### Binding -/

/-- What binding a node to a row of the ancestor `m` comes to. -/
inductive BindsTo (c : Composition) (i : Nat) (n m : Node) (record : Record) :
    Except CompositionError (Option (Tree Predicate)) → Prop where
  /-- No value is there for the first link to the ancestor that needs one. -/
  | missing {before after : List Link} {l : Link} {field : FieldPath} (order : n.links = before ++ l :: after)
    (supplied : ∀ l' ∈ before, l'.Supplied m record) (target : l.target = .ancestor m.name field)
    (unset : record field.dotted = none) (noDefault : l.default = none) :
    BindsTo c i n m record (.error (.missingParentValue n.name field.dotted))
  | unlinked (unlinked : ∀ l ∈ n.links, ¬ l.LinksTo m) : BindsTo c i n m record (.ok none)
  /-- The links stand in the condition of the node as its leaves, and those to the ancestor are kept. -/
  | bound {t : Tree Link} (linked : ∃ l ∈ n.links, l.LinksTo m) (supplied : ∀ l ∈ n.links, l.Supplied m record)
    (links : t.leaves = n.links) (whole : c.conditionTree? i = some (t.map fun l => l.predicate n.name)) :
    BindsTo c i n m record (.ok (some (t.filterMap fun l => l.boundTo m record n.name).normalize))

theorem bindParent_of_unknown (h : c.ParentsFirst)
    (hother : ∀ a m, c.Above a i → c.node? a = some m → Text.lowerCase m.name ≠ Text.lowerCase ancestor) :
    c.bindParent i n ancestor record = .error (.unknownAncestor n.name ancestor) := by
  refine if_neg fun hknown => ?_
  obtain ⟨⟨a, m⟩, hmem, hsame⟩ := List.any_eq_true.mp hknown
  obtain ⟨habove, hm⟩ := (mem_ancestorNodes h).mp hmem
  exact hother a m habove hm (beq_iff_eq.mp hsame)

theorem bindParent_of_known (h : c.ParentsFirst) (habove : c.Above a i) (hm : c.node? a = some m)
    (hname : Text.lowerCase m.name = Text.lowerCase ancestor) :
    c.bindParent i n ancestor record =
      (n.links.mapM (n.boundPredicate ancestor record)).map fun predicates =>
        Node.conjunction? (predicates.filterMap id) := by
  have hsame : sameName m.name ancestor = true := beq_iff_eq.mpr hname
  refine (if_pos (List.any_eq_true.mpr ⟨(a, m), (mem_ancestorNodes h).mpr ⟨habove, hm⟩, hsame⟩)).trans ?_
  cases n.links.mapM (n.boundPredicate ancestor record) <;> rfl

theorem conjunction?_of_ne_nil {predicates : List Predicate} (h : predicates ≠ []) :
    Node.conjunction? predicates = some (Conjunct.toTree predicates) :=
  if_neg (by rwa [List.isEmpty_iff])

/-- The condition of a node has its links for leaves. -/
theorem conditionTree?_links (hn : c.node? i = some n) (h : n.links ≠ []) :
    c.conditionTree? i = some ((Conjunct.toTree n.links).map fun l => l.predicate n.name) := by
  have hpredicates : n.links.map (fun l => l.predicate n.name) ≠ [] := fun hnil => h (List.map_eq_nil_iff.mp hnil)
  rw [conditionTree?, hn, Conjunct.map_toTree]
  exact conjunction?_of_ne_nil hpredicates

theorem bindsTo (record : Record) (h : c.Arranged) (hn : c.node? i = some n) (habove : c.Above a i)
    (hm : c.node? a = some m) (hname : Text.lowerCase m.name = Text.lowerCase ancestor) :
    BindsTo c i n m record (c.bindParent i n ancestor record) := by
  have hmeant : ∀ l ∈ n.links, ∀ field, l.fieldOf? ancestor = some field ↔ l.target = .ancestor m.name field :=
    fun l hl _ => fieldOf?_iff h (h.links i n hn l hl) hm hname
  rw [bindParent_of_known h.parentsFirst habove hm hname]
  rcases boundPredicates_cases record hmeant with
    ⟨hsupplied, hall⟩ | ⟨before, l, after, field, horder, hbefore, htarget, hrecord, hdefault, hfailed⟩
  · rw [hall]
    show BindsTo c i n m record (.ok (Node.conjunction? _))
    rw [List.filterMap_map, Function.id_comp]
    by_cases hlinked : ∃ l ∈ n.links, l.LinksTo m
    · obtain ⟨l, hl, hlink⟩ := hlinked
      have hkept : n.links.filterMap (fun l => l.boundTo m record n.name) ≠ [] := by
        obtain ⟨p, hp⟩ := Option.isSome_iff_exists.mp (Link.isSome_boundTo n.name hlink (hsupplied l hl))
        exact List.ne_nil_of_mem (List.mem_filterMap.mpr ⟨l, hl, hp⟩)
      rw [conjunction?_of_ne_nil hkept, ← Conjunct.filterMap_toTree]
      exact .bound ⟨l, hl, hlink⟩ hsupplied (Conjunct.leaves_toTree n.links)
        (conditionTree?_links hn (List.ne_nil_of_mem hl))
    · have hnone : n.links.filterMap (fun l => l.boundTo m record n.name) = [] :=
        List.filterMap_eq_nil_iff.mpr fun l hl => Link.boundTo_of_not fun hlink => hlinked ⟨l, hl, hlink⟩
      rw [hnone]
      exact .unlinked fun l hl hlink => hlinked ⟨l, hl, hlink⟩
  · rw [hfailed]
    exact .missing horder hbefore htarget hrecord hdefault

/-- The predicates of a bound node are those of its links to the ancestor, in the order of the links. -/
theorem BindsTo.leaves_eq {t : Tree Predicate} (h : BindsTo c i n m record (.ok (some t))) :
    t.leaves = n.links.filterMap fun l => l.boundTo m record n.name := by
  cases h with
  | bound _ _ links _ => rw [Tree.leaves_normalize, Tree.leaves_filterMap, links]

/-- **Binding a row of an ancestor is substitution** in the condition of the node. It fails for a name that no node
above has, in whatever letter case, and where a link to the ancestor has no value. Otherwise the links to the ancestor
are kept, in their order, each with its value for the operand and nothing else changed. -/
theorem parent_bound {schema : Schema} {name : String} {document : Document} {steps : List Step}
    (hbuilt : (build schema name document steps).result.result = .ok c) (hn : c.node? i = some n) (ancestor : String)
    (record : Record) :
    ((∀ a m, c.Above a i → c.node? a = some m → Text.lowerCase m.name ≠ Text.lowerCase ancestor) →
      c.bindParent i n ancestor record = .error (.unknownAncestor n.name ancestor)) ∧
    ∀ a m, c.Above a i → c.node? a = some m → Text.lowerCase m.name = Text.lowerCase ancestor →
      BindsTo c i n m record (c.bindParent i n ancestor record) ∧
      ∀ t, c.bindParent i n ancestor record = .ok (some t) →
        t.leaves = n.links.filterMap fun l => l.boundTo m record n.name := by
  have harranged := (build_grown hbuilt).arranged (root_arranged schema name document)
  refine ⟨bindParent_of_unknown harranged.parentsFirst, fun a m habove hm hname => ?_⟩
  have hbinds := bindsTo record harranged hn habove hm hname
  exact ⟨hbinds, fun t ht => BindsTo.leaves_eq (ht ▸ hbinds)⟩

/-! A parcel in a depot, with links to its region and to the depot and some that are to neither. -/

def parcelSteps : List Step :=
  [.node "Main" depot [.node "Parcel" depot
    [.link (.join "POST" (.named "code") .equal (.named "code")) false,
      .link (.connect (.named "code") .greater (.typed depot ["code"]) (some (.int 7))) false,
      .link (.const (.named "code") .notEqual (.int 5)) false,
      .link (.param (.named "code") .less "most") false,
      .link (.join "post" (.named "code") .lessOrEqual (.named "code")) false] false] false]

def parcelCode (op : Operator) (v : Value) : Tree Predicate :=
  .leaf { qualifier := "Parcel"
          field := ⟨depot, [⟨depot, { name := "code", storage := "Code", kind := .int }⟩], List.cons_ne_nil _ _⟩
          op := op, operand := .const v }

/-- A row that has a code only. -/
def codeRow (v : Value) : Record := fun name => if name = "code" then some v else none

theorem parent_bound_parcel :
    ∃ c n m, (build [region, depot] "Post" region parcelSteps).result.result = .ok c ∧ c.node? 2 = some n ∧
      c.Above 0 2 ∧ c.node? 0 = some m ∧ Text.lowerCase m.name = Text.lowerCase "pOST" ∧
      BindsTo c 2 n m (codeRow (.int 3)) (c.bindParent 2 n "pOST" (codeRow (.int 3))) ∧
      c.bindParent 2 n "pOST" (codeRow (.int 3)) =
        .ok (some (.node .and [parcelCode .equal (.int 3), parcelCode .lessOrEqual (.int 3)])) ∧
      c.bindParent 2 n "main" (fun _ => none) = .ok (some (parcelCode .greater (.int 7))) ∧
      c.bindParent 2 n "post" (fun _ => none) = .error (.missingParentValue "Parcel" "code") ∧
      c.bindParent 2 n "parcel" (codeRow (.int 3)) = .error (.unknownAncestor "Parcel" "parcel") := by
  obtain ⟨c, hc, ⟨n, hn, hrest⟩, m, hm, hname, habove⟩ :
      ∃ c, (build [region, depot] "Post" region parcelSteps).result.result = .ok c ∧
        (∃ n, c.node? 2 = some n ∧
          c.bindParent 2 n "pOST" (codeRow (.int 3)) =
            .ok (some (.node .and [parcelCode .equal (.int 3), parcelCode .lessOrEqual (.int 3)])) ∧
          c.bindParent 2 n "main" (fun _ => none) = .ok (some (parcelCode .greater (.int 7))) ∧
          c.bindParent 2 n "post" (fun _ => none) = .error (.missingParentValue "Parcel" "code") ∧
          c.bindParent 2 n "parcel" (codeRow (.int 3)) = .error (.unknownAncestor "Parcel" "parcel")) ∧
        ∃ m, c.node? 0 = some m ∧ Text.lowerCase m.name = Text.lowerCase "pOST" ∧ c.Above 0 2 :=
    ⟨_, by with_unfolding_all rfl,
      ⟨_, rfl, by with_unfolding_all rfl, by with_unfolding_all rfl, by with_unfolding_all rfl,
        by with_unfolding_all rfl⟩,
      _, rfl, by with_unfolding_all rfl, .higher (p := 1) rfl (.parent rfl)⟩
  exact ⟨c, n, m, hc, hn, habove, hm, hname, ((parent_bound hc hn "pOST" _).2 0 m habove hm hname).1, hrest⟩

end Composition

end DocQuery
