import DocQuery.Proofs.Ancestry
import DocQuery.Proofs.Reachable
import DocQuery.Proofs.Scopes
import Mathlib.Data.List.Nodup
import Mathlib.Data.List.Range

/-! The nodes of a composition, while it grows.

A composition says three times how its nodes hang together: by the parent of each, by the children
of each, and by the index of names. Adding nodes and links keeps these in step, and keeps every link
to an ancestor a link to a node above (`Grown.arranged`). -/
namespace DocQuery.Composition

variable {c c' : Composition} {i j : Nat} {n : Node} {l : Link}

/-! ### What is added, and what stays -/

theorem node?_withNode (c : Composition) (parent : Nat) (name : String) (document : Document) (j : Nat) :
    (c.withNode parent name document).node? j =
      if j = c.nodes.length then some { name := name, document := document, parent := some parent }
      else (c.node? j).map fun n => if parent = j then n.withChild c.nodes.length else n := by
  show ((c.nodes.modify parent fun n => n.withChild c.nodes.length) ++ [_])[j]? = _
  by_cases hlast : j = c.nodes.length
  · rw [if_pos hlast, hlast, List.getElem?_append_right (by simp)]
    simp
  · rw [if_neg hlast]
    by_cases hj : j < c.nodes.length
    · rw [List.getElem?_append_left (by simpa using hj)]
      exact List.getElem?_modify ..
    · rw [node?, List.getElem?_eq_none (by simp; omega), List.getElem?_eq_none (by omega)]
      rfl

theorem node?_addLink (c : Composition) (i : Nat) (l : Link) (j : Nat) :
    (c.addLink i l).node? j = (c.node? j).map fun n => if i = j then n.withLink l else n :=
  List.getElem?_modify ..

theorem parent?_eq (c : Composition) (i : Nat) : c.parent? i = (c.node? i).bind Node.parent := rfl

theorem parent?_withNode (c : Composition) (parent : Nat) (name : String) (document : Document) (j : Nat) :
    (c.withNode parent name document).parent? j = if j = c.nodes.length then some parent else c.parent? j := by
  rw [parent?_eq, node?_withNode, parent?_eq]
  split
  · rfl
  · cases c.node? j with
    | none => rfl
    | some n =>
      show Option.bind (some (if parent = j then _ else n)) Node.parent = n.parent
      split <;> rfl

theorem parent?_addLink (c : Composition) (i : Nat) (l : Link) (j : Nat) :
    (c.addLink i l).parent? j = c.parent? j := by
  rw [parent?_eq, node?_addLink, parent?_eq]
  cases c.node? j with
  | none => rfl
  | some n =>
    show Option.bind (some (if i = j then _ else n)) Node.parent = n.parent
    split <;> rfl

theorem lt_of_node? (h : c.node? i = some n) : i < c.nodes.length :=
  (List.getElem?_eq_some_iff.mp h).1

/-- The names of the nodes in lower case. -/
def keys (c : Composition) : List String :=
  c.nodes.map fun n => Text.lowerCase n.name

theorem keys_modify {f : Node → Node} (hf : ∀ n, (f n).name = n.name) (nodes : List Node) (i : Nat) :
    (nodes.modify i f).map (fun n => Text.lowerCase n.name) = nodes.map fun n => Text.lowerCase n.name := by
  refine List.ext_getElem? fun j => ?_
  rw [List.getElem?_map, List.getElem?_modify, List.getElem?_map]
  cases nodes[j]? with
  | none => rfl
  | some n =>
    show some (Text.lowerCase (if i = j then f n else n).name) = some (Text.lowerCase n.name)
    split
    · rw [hf]
    · rfl

theorem keys_withNode (c : Composition) (parent : Nat) (name : String) (document : Document) :
    (c.withNode parent name document).keys = c.keys ++ [Text.lowerCase name] := by
  rw [keys, withNode, List.map_append, keys_modify (f := fun n => n.withChild c.nodes.length) fun _ => rfl]
  rfl

theorem keys_addLink (c : Composition) (i : Nat) (l : Link) : (c.addLink i l).keys = c.keys :=
  keys_modify (f := fun n => n.withLink l) (fun _ => rfl) c.nodes i

/-! ### The index of names -/

/-- A name is looked up where it stands first. -/
theorem lookup_zipIdx (keys : List String) (key : String) (start : Nat) :
    (keys.zipIdx start).lookup key = (keys.idxOf? key).map (start + ·) := by
  induction keys generalizing start with
  | nil => rfl
  | cons first rest ih =>
    rw [List.zipIdx_cons, List.lookup_cons, List.idxOf?_cons, ih, BEq.comm]
    cases first == key with
    | true => rfl
    | false =>
      simp only [Bool.false_eq_true, if_false, Option.map_map, Function.comp_def, Nat.add_assoc, Nat.add_comm 1]

/-- Where no name is repeated, each stands first where it stands. -/
theorem idxOf?_of_nodup {keys : List String} (h : keys.Nodup) {key : String} {place : Nat} :
    keys.idxOf? key = some place ↔ keys[place]? = some key := by
  rw [List.idxOf?_eq_some_iff, List.getElem?_eq_some_iff]
  constructor
  · rintro ⟨hlt, hfound, -⟩
    exact ⟨hlt, hfound⟩
  · rintro ⟨hlt, rfl⟩
    exact ⟨hlt, rfl, fun j hj hsame => Nat.ne_of_lt hj (h.getElem_inj_iff.mp hsame)⟩

/-! ### The arrangement of the nodes -/

/-- A link of the node at a place is about the node's document, and if it is one to an ancestor, that is a node above
with the document that the other field starts from. -/
structure Linked (c : Composition) (i : Nat) (n : Node) (l : Link) : Prop where
  own : l.field.root = n.document
  ancestor : ∀ name field, l.target = .ancestor name field →
    ∃ a m, c.Above a i ∧ c.node? a = some m ∧ m.name = name ∧ m.document = field.root

/-- The places of the nodes right below one, in order. -/
def below (c : Composition) (i : Nat) : List Nat :=
  (List.range c.nodes.length).filter fun j => c.parent? j = some i

/-- How the nodes of a composition hang together. -/
structure Arranged (c : Composition) : Prop where
  distinct : c.keys.Nodup
  indexed : c.places = c.keys.zipIdx
  root : ∃ n, c.node? 0 = some n ∧ n.parent = none
  parent : ∀ i n, c.node? i = some n → 0 < i → ∃ p, n.parent = some p ∧ p < i
  children : ∀ i n, c.node? i = some n → n.children = c.below i
  links : ∀ i n, c.node? i = some n → ∀ l ∈ n.links, c.Linked i n l

theorem Arranged.parentsFirst (h : Arranged c) : c.ParentsFirst := by
  intro i p hp
  obtain ⟨n, hn, hparent⟩ := Option.bind_eq_some_iff.mp hp
  obtain ⟨m, hm, hroot⟩ := h.root
  have hpos : 0 < i := by
    refine Nat.pos_of_ne_zero fun hzero => ?_
    subst hzero
    obtain rfl := Option.some.inj (hn.symm.trans hm)
    exact nomatch hroot.symm.trans hparent
  obtain ⟨q, hq, hlt⟩ := h.parent i n hn hpos
  obtain rfl := Option.some.inj (hq.symm.trans hparent)
  exact hlt

/-- Nodes keep their places, names, documents and parents. -/
def Keeps (c c' : Composition) : Prop :=
  ∀ i n, c.node? i = some n →
    ∃ n', c'.node? i = some n' ∧ n'.name = n.name ∧ n'.document = n.document ∧ n'.parent = n.parent

theorem keeps_withNode (c : Composition) (parent : Nat) (name : String) (document : Document) :
    Keeps c (c.withNode parent name document) := by
  intro i n hn
  rw [node?_withNode, if_neg (Nat.ne_of_lt (lt_of_node? hn)), hn]
  refine ⟨_, rfl, ?_⟩
  split <;> exact ⟨rfl, rfl, rfl⟩

theorem keeps_addLink (c : Composition) (i : Nat) (l : Link) : Keeps c (c.addLink i l) := by
  intro j n hn
  rw [node?_addLink, hn]
  refine ⟨_, rfl, ?_⟩
  split <;> exact ⟨rfl, rfl, rfl⟩

theorem Keeps.parent? (h : Keeps c c') {p : Nat} (hp : c.parent? i = some p) : c'.parent? i = some p := by
  obtain ⟨n, hn, hparent⟩ := Option.bind_eq_some_iff.mp hp
  obtain ⟨n', hn', -, -, hsame⟩ := h i n hn
  exact Option.bind_eq_some_iff.mpr ⟨n', hn', hsame.trans hparent⟩

/-- A link stays what it is while the composition grows around it. -/
theorem Linked.mono {n' : Node} (hkeeps : Keeps c c') (hdocument : n'.document = n.document) (h : c.Linked i n l) :
    c'.Linked i n' l := by
  refine ⟨h.own.trans hdocument.symm, fun name field htarget => ?_⟩
  obtain ⟨a, m, habove, hm, hname, hroot⟩ := h.ancestor name field htarget
  obtain ⟨m', hm', hname', hdocument', -⟩ := hkeeps a m hm
  exact ⟨a, m', habove.mono fun _ _ => hkeeps.parent?, hm', hname'.trans hname, hdocument'.trans hroot⟩

theorem below_withNode (c : Composition) (parent : Nat) (name : String) (document : Document) (i : Nat) :
    (c.withNode parent name document).below i =
      c.below i ++ if parent = i then [c.nodes.length] else [] := by
  have hold : ∀ j ∈ List.range c.nodes.length,
      decide ((c.withNode parent name document).parent? j = some i) = decide (c.parent? j = some i) := by
    intro j hj
    rw [parent?_withNode, if_neg (Nat.ne_of_lt (List.mem_range.mp hj))]
  have hnew : (c.withNode parent name document).parent? c.nodes.length = some parent := by
    rw [parent?_withNode, if_pos rfl]
  rw [below, length_withNode, List.range_succ, List.filter_append, List.filter_congr hold, List.filter_singleton,
    hnew]
  simp [below]

theorem below_addLink (c : Composition) (i : Nat) (l : Link) (j : Nat) : (c.addLink i l).below j = c.below j := by
  simp only [below, length_addLink, parent?_addLink]

/-- Nothing is below a node that is not there yet. -/
theorem below_last (h : c.ParentsFirst) : c.below c.nodes.length = [] := by
  refine List.filter_eq_nil_iff.mpr fun j hj hparent => ?_
  exact Nat.lt_asymm (List.mem_range.mp hj) (h j _ (of_decide_eq_true hparent))

theorem find?_eq_some_iff (h : Arranged c) {name : String} :
    c.find? name = some i ↔ c.keys[i]? = some (Text.lowerCase name) := by
  rw [find?, h.indexed, lookup_zipIdx, ← idxOf?_of_nodup h.distinct]
  simp only [Nat.zero_add, Option.map_id']

/-! ### Growing -/

theorem root_arranged (schema : Schema) (name : String) (document : Document) :
    (root schema name document).Arranged := by
  have honly : ∀ i n, (root schema name document).node? i = some n →
      i = 0 ∧ n = { name := name, document := document, parent := none } := by
    intro i n hn
    match i with
    | 0 => exact ⟨rfl, (Option.some.inj hn).symm⟩
    | _ + 1 => exact nomatch hn
  refine ⟨List.nodup_singleton _, rfl, ⟨_, rfl, rfl⟩, fun i n hn hpos => ?_, fun i n hn => ?_, fun i n hn l hl => ?_⟩
  · exact absurd (honly i n hn).1 (Nat.ne_of_gt hpos)
  · obtain ⟨rfl, rfl⟩ := honly i n hn
    rfl
  · obtain ⟨rfl, rfl⟩ := honly i n hn
    exact nomatch hl

/-- A node with a name that is free goes to the end, below one that is there. -/
theorem Arranged.withNode (h : Arranged c) {parent : Nat} {name : String} (document : Document)
    (place : parent < c.nodes.length) (free : c.find? name = none) :
    (c.withNode parent name document).Arranged := by
  have hpos : 0 < c.nodes.length := Nat.lt_of_le_of_lt (Nat.zero_le parent) place
  refine ⟨?_, ?_, ?_, fun i n hn hi => ?_, fun i n hn => ?_, fun i n hn l hl => ?_⟩
  · rw [keys_withNode]
    refine List.nodup_append.mpr ⟨h.distinct, List.nodup_singleton _, ?_⟩
    rintro key hkey _ hnew rfl
    obtain ⟨i, hi⟩ := List.mem_iff_getElem?.mp hkey
    rw [List.mem_singleton.mp hnew] at hi
    exact nomatch free.symm.trans ((find?_eq_some_iff h).mpr hi)
  · rw [keys_withNode, List.zipIdx_append]
    show c.places ++ _ = _
    rw [h.indexed, keys, List.length_map, Nat.zero_add]
    rfl
  · obtain ⟨n, hn, hroot⟩ := h.root
    obtain ⟨n', hn', -, -, hsame⟩ := keeps_withNode c parent name document 0 n hn
    exact ⟨n', hn', hsame.trans hroot⟩
  · rw [node?_withNode] at hn
    split at hn
    · next hlast =>
      obtain rfl := Option.some.inj hn
      exact ⟨parent, rfl, hlast ▸ place⟩
    · obtain ⟨m, hm, rfl⟩ := Option.map_eq_some_iff.mp hn
      obtain ⟨p, hp, hlt⟩ := h.parent i m hm hi
      refine ⟨p, ?_, hlt⟩
      split
      · exact hp
      · exact hp
  · rw [node?_withNode] at hn
    rw [below_withNode]
    split at hn
    · next hlast =>
      obtain rfl := Option.some.inj hn
      rw [hlast, below_last h.parentsFirst, if_neg (Nat.ne_of_lt place)]
      rfl
    · obtain ⟨m, hm, rfl⟩ := Option.map_eq_some_iff.mp hn
      rw [← h.children i m hm]
      split
      · rfl
      · exact (List.append_nil _).symm
  · rw [node?_withNode] at hn
    split at hn
    · obtain rfl := Option.some.inj hn
      exact nomatch hl
    · obtain ⟨m, hm, rfl⟩ := Option.map_eq_some_iff.mp hn
      have hdocument : (if parent = i then m.withChild c.nodes.length else m).document = m.document := by
        split <;> rfl
      have hlinks : l ∈ m.links := by
        split at hl <;> exact hl
      exact (h.links i m hm l hlinks).mono (keeps_withNode c parent name document) hdocument

/-- A link is added to a node that it is a link of. -/
theorem Arranged.addLink (h : Arranged c) (hn : c.node? i = some n) (hl : c.Linked i n l) :
    (c.addLink i l).Arranged := by
  have hkeeps := keeps_addLink c i l
  -- A node of the result is one there was, with the new link if it is the one at `i`.
  have hcases : ∀ j m, (c.addLink i l).node? j = some m →
      c.node? j = some m ∨ j = i ∧ m = n.withLink l := by
    intro j m hm
    rw [node?_addLink] at hm
    obtain ⟨m', hm', rfl⟩ := Option.map_eq_some_iff.mp hm
    split
    · next hsame =>
      subst hsame
      obtain rfl := Option.some.inj (hm'.symm.trans hn)
      exact .inr ⟨rfl, rfl⟩
    · exact .inl hm'
  refine ⟨?_, ?_, ?_, fun j m hm hj => ?_, fun j m hm => ?_, fun j m hm l' hl' => ?_⟩
  · rw [keys_addLink]
    exact h.distinct
  · rw [keys_addLink]
    exact h.indexed
  · obtain ⟨m, hm, hroot⟩ := h.root
    obtain ⟨m', hm', -, -, hsame⟩ := hkeeps 0 m hm
    exact ⟨m', hm', hsame.trans hroot⟩
  · rcases hcases j m hm with hm | ⟨rfl, rfl⟩
    · exact h.parent j m hm hj
    · exact h.parent j n hn hj
  · rw [below_addLink]
    rcases hcases j m hm with hm | ⟨rfl, rfl⟩
    · exact h.children j m hm
    · exact h.children j n hn
  · rcases hcases j m hm with hm | ⟨rfl, rfl⟩
    · exact (h.links j m hm l' hl').mono hkeeps rfl
    · have hsame : (n.withLink l).document = n.document := rfl
      rcases List.mem_append.mp hl' with hold | hnew
      · exact (h.links j n hn l' hold).mono hkeeps hsame
      · rw [List.mem_singleton.mp hnew]
        exact hl.mono hkeeps hsame

end DocQuery.Composition
