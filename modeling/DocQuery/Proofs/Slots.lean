import DocQuery.Proofs.Places
import DocQuery.Proofs.Running

/-! The slots of conditions.

A slot is a value that a predicate compares its column with. `slots` gives those of a predicate
from its operand alone, in the order in which its terms write them: a mask of which all bits must
be set is written twice, and bound twice where placeholders are not numbered. `fragment_writes`
and `condition_writes`: compiling binds just these, a condition those of its leaves in order. -/
namespace DocQuery.Sql

open DocQuery.Symbol Placed

variable (numbered : Bool) (params : ParamSet)

/-! ### Operands -/

/-- The list in a membership test. Nulls are tested apart, and nothing else may be left. -/
def memberValues (p : Predicate) (items : List Value) : List Value :=
  let given := items.filter fun v => !v.isNull
  let given := if p.foldCase then given.map Value.casefold else given
  if given.isEmpty && items.any Value.isNull then [] else [.list given]

/-- What a comparison with the members of a list compares with. -/
def listValues (p : Predicate) (items : List Value) : List Value :=
  match p.op with
  | .equal | .notEqual | .isIn | .notIn => memberValues p items
  | .bitsOr => (Value.bitMask items).toOption.toList
  | _ => items.filter fun v => !v.isNull

/-- What a comparison with a value compares with. -/
def comparedValues (p : Predicate) : Value → List Value
  | .null => []
  | .list items =>
    if p.field.kind.isList && (p.op == .equal || p.op == .notEqual) then [.list items]
    else listValues p items
  | v => [v]

/-- The slots of one value. -/
def slotsOf (op : Operator) (v : Value) : List Slot :=
  if op = .bitsAnd then if numbered then [⟨v, 2⟩] else [⟨v, 1⟩, ⟨v, 1⟩] else [⟨v, 1⟩]

def valueSlots (p : Predicate) (v : Value) : List Slot :=
  if p.op.isNullary then [] else (comparedValues p v).flatMap (slotsOf numbered p.op)

/-- The slots of a predicate. -/
def slots (p : Predicate) : List Slot :=
  match p.operand with
  | .const v => valueSlots numbered p v
  | .param name => ((params.value? name).map (valueSlots numbered p)).getD []
  | _ => []

variable {numbered params}

theorem slotsOf_plain {op : Operator} (h : op ≠ .bitsAnd) (v : Value) :
    slotsOf numbered op v = [⟨v, 1⟩] := if_neg h

theorem flatMap_slotsOf_plain {op : Operator} (h : op ≠ .bitsAnd) (values : List Value) :
    values.flatMap (slotsOf numbered op) = values.map fun v => ⟨v, 1⟩ := by
  rw [List.map_eq_flatMap]
  exact List.flatMap_congr fun v _ => slotsOf_plain h v

theorem times_slotsOf {op : Operator} {v : Value} {s : Slot} (h : s ∈ slotsOf numbered op v) :
    s.times = if op = .bitsAnd ∧ numbered = true then 2 else 1 := by
  by_cases hop : op = .bitsAnd
  · cases numbered with
    | true => simp_all [slotsOf]
    | false => rcases (by simpa [slotsOf, hop] using h : s = _) with rfl; simp
  · rw [slotsOf_plain hop, List.mem_singleton] at h
    rw [h, if_neg fun hboth => hop hboth.1]

/-- A place is written once, but that of a mask twice where placeholders are numbered. -/
theorem times_slots {p : Predicate} {s : Slot} (h : s ∈ slots numbered params p) :
    s.times = if p.op = .bitsAnd ∧ numbered = true then 2 else 1 := by
  have hvalue : ∀ v, s ∈ valueSlots numbered p v →
      s.times = if p.op = .bitsAnd ∧ numbered = true then 2 else 1 := by
    intro v hs
    rw [valueSlots] at hs
    split at hs
    · cases hs
    · obtain ⟨w, -, hs⟩ := List.mem_flatMap.mp hs
      exact times_slotsOf hs
  unfold slots at h
  split at h
  · exact hvalue _ h
  · cases hname : params.value? _ with
    | none =>
      rw [hname] at h
      cases h
    | some v =>
      rw [hname] at h
      exact hvalue v h
  · cases h

theorem memberValues_eq (p : Predicate) (items : List Value) : memberValues p items =
    if (givenMembers p items).isEmpty && items.any Value.isNull then [] else [.list (givenMembers p items)] :=
  rfl

/-! ### Terms -/

theorem Writes.lift {x : Except CompileError Term} (h : ∀ t, x = .ok t → Unplaced t) :
    Writes (liftM x : Compile Term) [] := by
  cases x with
  | error e => exact Writes.throw e
  | ok t => exact Writes.pure (h t rfl)

theorem Writes.single {x : Compile Term} {s : List Slot} (h : Writes x s) :
    Writes (Fragment.single <$> x) s :=
  h.map (fun _ _ => rfl) fun t => List.flatMap_singleton places t

theorem nullTest_unplaced (negated : Bool) (c : Column) : Unplaced (Term.nullTest negated c) :=
  ⟨fun _ => rfl, rfl⟩

theorem nullaryTerm_unplaced (p : Predicate) (t : Term) (h : nullaryTerm p = .ok t) : Unplaced t := by
  unfold nullaryTerm at h
  split at h
  · exact Except.ok.inj h ▸ nullTest_unplaced ..
  · exact Except.ok.inj h ▸ nullTest_unplaced ..
  · exact nomatch h

theorem nullTerm_unplaced (p : Predicate) (t : Term) (h : nullTerm p = .ok t) : Unplaced t := by
  unfold nullTerm at h
  split at h
  · exact nomatch h
  · split at h
    · exact nomatch h
    · exact Except.ok.inj h ▸ nullTest_unplaced ..

/-- Between columns nothing is bound. -/
theorem fieldTerm_unplaced (p : Predicate) (qualifier : String) (path : FieldPath) (t : Term)
    (h : fieldTerm p qualifier path = .ok t) : Unplaced t := by
  unfold fieldTerm at h
  split at h
  · exact nomatch h
  · split at h
    · exact Except.ok.inj h ▸ ⟨fun _ => rfl, rfl⟩
    · exact Except.ok.inj h ▸ ⟨fun _ => rfl, rfl⟩
    · exact Except.ok.inj h ▸ ⟨fun _ => rfl, rfl⟩
    · exact Except.ok.inj h ▸ ⟨fun _ => rfl, rfl⟩
    · split at h
      · exact Except.ok.inj h ▸ ⟨fun _ => rfl, rfl⟩
      · exact nomatch h

theorem scalarTerm_writes (p : Predicate) (v : Value) :
    Writes (scalarTerm numbered p v) (slotsOf numbered p.op v) := by
  unfold scalarTerm
  split
  · exact Writes.throw _
  · exact Writes.throw _
  · next hop =>
    rw [hop]
    cases numbered with
    | true => exact Writes.one (fun _ _ => rfl) fun _ => rfl
    | false =>
      exact (Writes.bind v).both (Writes.bind v) (fun _ _ _ => rfl) fun _ _ => rfl
  · next hop =>
    rw [slotsOf_plain (by simp [hop])]
    exact Writes.one (fun _ _ => rfl) fun _ => rfl
  · next op hmask _ =>
    split
    · rw [slotsOf_plain hmask]
      exact Writes.one (fun _ _ => rfl) fun _ => rfl
    · exact Writes.throw _

/-! ### Lists -/

theorem membership_writes (p : Predicate) (items : List Value) (negated : Bool) :
    Writes (membership p items negated) ((memberValues p items).map fun v => ⟨v, 1⟩) := by
  rw [membership_eq, memberValues_eq]
  split
  · next hnull =>
    split
    · exact Writes.throw _
    · split
      · next hempty =>
        simp only [hempty, hnull, Bool.and_self, if_true]
        exact Writes.pure ⟨fun _ => rfl, rfl⟩
      · next hempty =>
        simp only [hempty, Bool.false_and, Bool.false_eq_true, if_false]
        exact Writes.one (fun _ _ => rfl) fun _ => rfl
  · next hnull =>
    simp only [hnull, Bool.and_false, Bool.false_eq_true, if_false]
    exact Writes.one (fun _ _ => rfl) fun _ => rfl

theorem chainTerms_writes (p : Predicate) (items : List Value) :
    Writes (chainTerms numbered p items)
      ((items.filter fun v => !v.isNull).flatMap (slotsOf numbered p.op)) := by
  induction items with
  | nil => exact Writes.pure ⟨fun _ => rfl, rfl⟩
  | cons v rest ih =>
    rw [chainTerms]
    split
    · next hnull =>
      rw [List.filter_cons_of_neg (by simp [hnull])]
      exact (Writes.lift (nullTerm_unplaced p)).both ih (fun _ _ _ => rfl) fun _ _ => rfl
    · next hnull =>
      rw [List.filter_cons_of_pos (by simpa using hnull), List.flatMap_cons]
      exact (scalarTerm_writes p v).both ih (fun _ _ _ => rfl) fun _ _ => rfl

/-- Two places for each range. -/
theorem rangeTerms_writes (p : Predicate) (negated parens : Bool) (items : List Value)
    (heven : items.length % 2 = 0) :
    Writes (rangeTerms p negated parens items) (items.map fun v => ⟨v, 1⟩) := by
  match items with
  | [] => exact Writes.pure ⟨fun _ => rfl, rfl⟩
  | [_] => exact absurd heven (by simp)
  | low :: high :: rest =>
    have hrest : rest.length % 2 = 0 := by
      simp only [List.length_cons] at heven
      omega
    have hrange : Writes (do
        let m ← bind low
        let n ← bind high
        return Term.range negated parens (columnOf p.qualifier p.field) m n) [⟨low, 1⟩, ⟨high, 1⟩] :=
      (Writes.bind low).both (Writes.bind high) (fun _ _ _ => rfl) fun _ _ => rfl
    have hterms := hrange.both (rangeTerms_writes p negated parens rest hrest)
      (f := fun t terms => t :: terms) (fun _ _ _ => rfl) fun _ _ => rfl
    simp only [bind_assoc, pure_bind] at hterms
    exact hterms

theorem ranges_writes (p : Predicate) (items : List Value) (negated : Bool) :
    Writes (ranges p items negated) ((items.filter fun v => !v.isNull).map fun v => ⟨v, 1⟩) := by
  unfold ranges
  split
  · exact Writes.throw _
  · next heven =>
    split
    · exact Writes.throw _
    · next hnull =>
      have hgiven : (items.filter fun v => !v.isNull) = items := by
        simpa [List.filter_eq_self] using hnull
      rw [hgiven]
      have heven : items.length % 2 = 0 := by
        simp only [Bool.or_eq_true, bne_iff_ne, not_or, not_not] at heven
        exact heven.2
      have hterms := rangeTerms_writes p negated (decide (items.length / 2 > 1)) items heven
      simpa only [bind_pure_comp] using hterms.map (f := fun terms => Fragment.mk _ terms)
        (fun _ _ => rfl) fun _ => rfl

theorem maskTest_writes (p : Predicate) (items : List Value) :
    Writes (maskTest p items) ((Value.bitMask items).toOption.toList.map fun v => ⟨v, 1⟩) := by
  unfold maskTest
  split
  · exact Writes.throw _
  · split
    · next hmask =>
      rw [hmask]
      exact Writes.one (fun _ _ => rfl) fun _ => rfl
    · exact Writes.throw _

/-- Every operator but one writes a value once. -/
theorem Writes.plain {x : Compile Fragment} {op : Operator} {values : List Value} (h : op ≠ .bitsAnd)
    (hx : Writes x (values.map fun v => ⟨v, 1⟩)) : Writes x (values.flatMap (slotsOf numbered op)) := by
  rwa [flatMap_slotsOf_plain h]

theorem collection_writes (p : Predicate) (items : List Value) :
    Writes (collection numbered p items) ((listValues p items).flatMap (slotsOf numbered p.op)) := by
  unfold collection listValues
  cases hop : p.op
  case equal | isIn => exact (membership_writes p items false).plain (by decide)
  case notEqual | notIn => exact (membership_writes p items true).plain (by decide)
  case between => exact (ranges_writes p items false).plain (by decide)
  case notBetween => exact (ranges_writes p items true).plain (by decide)
  case bitsOr => exact (maskTest_writes p items).plain (by decide)
  all_goals
    simp only
    rw [← hop]
    split
    · exact Writes.throw _
    · split
      · next hitems =>
        rw [List.isEmpty_iff.mp hitems]
        exact Writes.pure ⟨fun _ => rfl, rfl⟩
      · simpa only [bind_pure_comp] using (chainTerms_writes p items).map (f := Fragment.mk .or)
          (fun _ _ => rfl) fun _ => rfl

/-! ### Predicates -/

theorem valueFragment_writes (p : Predicate) (v : Value) :
    Writes (valueFragment numbered p v) (valueSlots numbered p v) := by
  have hscalar : ∀ v, Writes (Fragment.single <$> scalarTerm numbered p v)
      ([v].flatMap (slotsOf numbered p.op)) := by
    intro v
    rw [List.flatMap_singleton]
    exact (scalarTerm_writes p v).single
  unfold valueFragment valueSlots
  split
  · exact (Writes.lift (nullaryTerm_unplaced p)).single
  · cases v with
    | null => exact (Writes.lift (nullTerm_unplaced p)).single
    | list items =>
      simp only [comparedValues]
      split
      · exact hscalar (.list items)
      · exact collection_writes p items
    | _ => exact hscalar _

/-- Compiling a predicate binds the values of its slots. -/
theorem fragment_writes (p : Predicate) :
    Writes (fragment numbered params p) (slots numbered params p) := by
  unfold fragment slots
  cases p.operand with
  | none => exact (Writes.lift (nullaryTerm_unplaced p)).single
  | field qualifier path => exact (Writes.lift (fieldTerm_unplaced p qualifier path)).single
  | const v => exact valueFragment_writes p v
  | param name =>
    simp only
    cases params.value? name with
    | none => exact Writes.throw _
    | some v => exact valueFragment_writes p v

/-! ### Conditions -/

/-- Parentheses name no place and stay where they are. -/
theorem raise_parenthesizedIf (c : Prop) [Decidable c] (k : Nat) (tokens : List Token) :
    raise k (if c then parenthesized tokens else tokens) =
      if c then parenthesized (raise k tokens) else raise k tokens := by
  split
  · exact raise_parenthesized k tokens
  · rfl

theorem places_parenthesizedIf (c : Prop) [Decidable c] (tokens : List Token) :
    places (if c then parenthesized tokens else tokens) = places tokens := by
  split
  · exact places_parenthesized tokens
  · rfl

theorem raise_tokens (k : Nat) (inside : Option Joiner) (f : Fragment) :
    raise k (f.tokens inside) = (raise k f).tokens inside := by
  have hterms : raise k (f.terms.map fun t => [Symbol.atom t]) =
      (raise k f.terms).map fun t => [Symbol.atom t] := by
    show List.map _ (List.map _ _) = List.map _ (List.map _ _)
    rw [List.map_map, List.map_map]
    rfl
  have hlength : (raise k f.terms).length = f.terms.length := List.length_map _
  simp only [Fragment.tokens]
  rw [raise_parenthesizedIf, raise_joined, hterms, ← hlength]
  rfl

theorem places_tokens (inside : Option Joiner) (f : Fragment) : places (f.tokens inside) = places f := by
  have hterms : places (f.terms.map fun t => [Symbol.atom t]) = places f.terms := by
    show List.flatMap _ (List.map _ _) = _
    rw [List.flatMap_map]
    exact List.flatMap_congr fun t _ => List.append_nil _
  simp only [Fragment.tokens]
  rw [places_parenthesizedIf, places_joined, hterms]
  rfl

theorem treeTokens_writes (inside : Option Joiner) (t : Tree Predicate) :
    Writes (treeTokens numbered params inside t) (t.leaves.flatMap (slots numbered params)) := by
  induction t generalizing inside with
  | leaf p =>
    rw [Tree.leaves, List.flatMap_singleton]
    exact (fragment_writes p).map (fun k f => raise_tokens k inside f) fun f => places_tokens inside f
  | group t ih => exact (ih none).map raise_parenthesized places_parenthesized
  | node j members ih =>
    have hmembers : Writes (memberTokens numbered params j members)
        ((members.flatMap Tree.leaves).flatMap (slots numbered params)) := by
      induction members with
      | nil => exact Writes.pure ⟨fun _ => rfl, rfl⟩
      | cons t rest ihrest =>
        have hrest := ihrest fun u hu => ih u (List.mem_cons_of_mem t hu)
        rw [List.flatMap_cons, List.flatMap_append]
        refine (ih t (List.mem_cons_self ..) (some j)).both hrest (fun k tokens parts => ?_)
          fun tokens parts => ?_
        · exact congrArg (· :: raise k parts) (raise_parenthesizedIf _ k tokens)
        · rw [places_cons, places_parenthesizedIf]
    rw [Tree.leaves_node]
    exact hmembers.map (fun k parts => raise_joined k j parts) (places_joined j)

/-- Compiling a condition binds the values of its leaves' slots, in order. -/
theorem condition_writes (t : Tree Predicate) :
    Writes (condition numbered params t) (t.leaves.flatMap (slots numbered params)) := by
  unfold condition
  simp only
  split
  · exact Writes.throw _
  · rw [← Tree.leaves_normalize]
    exact treeTokens_writes none _

end DocQuery.Sql
