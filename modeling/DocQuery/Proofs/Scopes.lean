import DocQuery.Composition.Build
import Mathlib.Data.List.Basic

/-! How steps let a composition grow.

Whatever steps are taken at the nodes of a composition, and whichever of them fail, each adds a node
below one that is there or adds a link, or it adds nothing (`takeSteps_grown`). So what nodes and
links keep, steps keep. -/
namespace DocQuery

def Node.withChild (n : Node) (i : Nat) : Node :=
  { n with children := n.children ++ [i] }

def Node.withLink (n : Node) (l : Link) : Node :=
  { n with links := n.links ++ [l] }

namespace Composition

variable {c c' : Composition}

/-! ### One node, one link -/

/-- The composition with a node added below another. -/
def withNode (c : Composition) (parent : Nat) (name : String) (document : Document) : Composition :=
  { c with
    nodes := (c.nodes.modify parent fun n => n.withChild c.nodes.length) ++
      [{ name := name, document := document, parent := some parent }]
    places := c.places ++ [(Text.lowerCase name, c.nodes.length)] }

theorem addNode_ok {parent i : Nat} {name : String} {document : Document}
    (h : c.addNode parent name document = .ok (i, c')) :
    c.find? name = none ∧ i = c.nodes.length ∧ c' = c.withNode parent name document := by
  unfold addNode at h
  split at h
  · exact nomatch h
  · next hfree =>
    obtain ⟨rfl, rfl⟩ := Prod.mk.inj (Except.ok.inj h)
    exact ⟨by simpa using hfree, rfl, rfl⟩

theorem addRule_ok {i : Nat} {r : Rule} (h : c.addRule i r = .ok c') :
    c' = c ∨ ∃ n l, c.node? i = some n ∧ c.link i n r = .ok l ∧ c' = c.addLink i l := by
  unfold addRule at h
  split at h
  · exact .inl (Except.ok.inj h).symm
  · next n hn =>
    cases hlink : c.link i n r with
    | error e =>
      rw [hlink] at h
      exact nomatch h
    | ok l =>
      rw [hlink] at h
      exact .inr ⟨n, l, hn, hlink, (Except.ok.inj h).symm⟩

@[simp] theorem length_withNode (parent : Nat) (name : String) (document : Document) :
    (c.withNode parent name document).nodes.length = c.nodes.length + 1 := by
  simp [withNode]

@[simp] theorem length_addLink (i : Nat) (l : Link) : (c.addLink i l).nodes.length = c.nodes.length := by
  simp [addLink]

/-! ### Steps -/

/-- What a composition grows into by calls in whatever scopes, those that failed adding nothing. -/
inductive Grown (c : Composition) : Composition → Prop where
  | refl : Grown c c
  | node {c' c'' : Composition} {parent i : Nat} {name : String} {document : Document} (grown : Grown c c')
    (place : parent < c'.nodes.length) (added : c'.addNode parent name document = .ok (i, c'')) : Grown c c''
  | link {c' c'' : Composition} {i : Nat} {r : Rule} (grown : Grown c c') (added : c'.addRule i r = .ok c'') :
    Grown c c''

theorem Grown.trans {c'' : Composition} (h : Grown c c') (h' : Grown c' c'') : Grown c c'' := by
  induction h' with
  | refl => exact h
  | node _ place added ih => exact .node ih place added
  | link _ added ih => exact .link ih added

theorem Grown.length_le (h : Grown c c') : c.nodes.length ≤ c'.nodes.length := by
  induction h with
  | refl => exact Nat.le_refl _
  | node _ _ added ih =>
    obtain ⟨-, -, rfl⟩ := addNode_ok added
    rw [length_withNode]
    omega
  | link _ added ih =>
    rcases addRule_ok added with rfl | ⟨_, _, -, -, rfl⟩
    · exact ih
    · rwa [length_addLink]

mutual

/-- A step at a node of the composition lets it grow, whether it fails or not. -/
theorem takeStep_grown {i : Nat} {s : Site} (hi : i < s.composition.nodes.length) :
    (step : Step) → Grown s.composition (takeStep i s step).1.composition
  | .link rule attempt => by
    rw [takeStep]
    split
    · next hadd => exact .link .refl hadd
    · exact .refl
  | .node name document steps attempt => by
    rw [takeStep]
    split
    · exact .refl
    · next child c hadd =>
      have hgrown : Grown s.composition c := .node .refl hi hadd
      have hchild : child < c.nodes.length := by
        obtain ⟨-, rfl, rfl⟩ := addNode_ok hadd
        rw [length_withNode]
        exact Nat.lt_succ_self _
      exact hgrown.trans (takeSteps_grown
        (s := ({ s with composition := c } : Site).note (.entered name document.path)) hchild steps)

theorem takeSteps_grown {i : Nat} {s : Site} (hi : i < s.composition.nodes.length) :
    (steps : List Step) → Grown s.composition (takeSteps i s steps).1.composition
  | [] => by
    rw [takeSteps]
    exact .refl
  | step :: rest => by
    have hstep := takeStep_grown hi step
    rw [takeSteps]
    split
    · next hresult =>
      rw [hresult] at hstep
      exact hstep.trans (takeSteps_grown (Nat.lt_of_lt_of_le hi hstep.length_le) rest)
    · next hresult =>
      rw [hresult] at hstep
      exact hstep

end

/-- What is built has grown from its root. -/
theorem build_grown {schema : Schema} {name : String} {document : Document} {steps : List Step}
    (h : (build schema name document steps).result.result = .ok c) : Grown (root schema name document) c := by
  have hsteps := takeSteps_grown (i := 0) (s := { composition := root schema name document }) Nat.one_pos steps
  unfold build at h
  split at h
  · next hresult =>
    rw [hresult] at hsteps
    obtain rfl := Except.ok.inj h
    exact hsteps
  · exact nomatch h

end Composition

end DocQuery
