import DocQuery.Proofs.CompiledLeaves

/-! Nulls in compiled conditions.

A null is never what a placeholder stands for. The slots of a predicate hold none, nor does a list that the
predicate looks for its field in (`slots_bindable`); what a null asks for is written as a test for null, and
only where the field may be null (`fragment_tests`). `null_never_bound` says both of a compiled condition and
of every term in it. -/
namespace DocQuery

/-- Compared with a list, the field is looked for among its members. -/
def Predicate.testsMembership (p : Predicate) : Bool :=
  p.op.isMembership || ((p.op == .equal || p.op == .notEqual) && !p.field.kind.isList)

namespace Sql

open DocQuery.Symbol Placed

variable {numbered : Bool} {params : ParamSet} {p : Predicate}

/-! ### Values -/

/-- The value is not null, and if the field is looked for in it none of its members is. -/
structure Bindable (p : Predicate) (v : Value) : Prop where
  notNull : v.isNull = false
  members : p.testsMembership = true → ∀ items, v = .list items → ∀ w ∈ items, w.isNull = false

/-- What is not a list has no members to look at. -/
theorem bindable_single {v : Value} (hnull : v.isNull = false) (hsingle : v.items? = none) : Bindable p v := by
  refine ⟨hnull, fun _ items hlist => ?_⟩
  rw [hlist] at hsingle
  cases hsingle

/-- Other predicates do not look into a list. -/
theorem bindable_other {v : Value} (hnull : v.isNull = false) (hop : p.testsMembership = false) : Bindable p v :=
  ⟨hnull, fun h => absurd (h.symm.trans hop) (by decide)⟩

theorem isNull_casefold (v : Value) : v.casefold.isNull = v.isNull := by
  cases v <;> rfl

theorem isNull_of_filter {items : List Value} {v : Value} (h : v ∈ items.filter fun v => !v.isNull) : v.isNull = false := by
  simpa using (List.mem_filter.mp h).2

theorem isNull_of_given {items : List Value} {v : Value} (h : v ∈ givenMembers p items) : v.isNull = false := by
  rw [givenMembers] at h
  split at h
  · obtain ⟨item, hitem, rfl⟩ := List.mem_map.mp h
    rw [isNull_casefold]
    exact isNull_of_filter hitem
  · exact isNull_of_filter h

theorem memberValues_bindable (items : List Value) : ∀ v ∈ memberValues p items, Bindable p v := by
  rw [memberValues_eq]
  split
  · exact List.forall_mem_nil _
  · refine List.forall_mem_singleton.mpr ⟨rfl, fun _ members hmembers w hw => ?_⟩
    obtain rfl := Value.list.inj hmembers
    exact isNull_of_given hw

/-- A mask is a whole number. -/
theorem maskFrom_bindable {mask : UInt64} {signed : Bool} {items : List Value} {v : Value}
    (h : Value.maskFrom mask signed items = .ok v) : Bindable p v := by
  induction items generalizing mask signed with
  | nil =>
    rw [Value.maskFrom] at h
    split at h <;> exact Except.ok.inj h ▸ bindable_single rfl rfl
  | cons item rest ih =>
    cases item with
    | null | int _ | uint _ => exact ih h
    | _ => exact nomatch h

theorem listValues_bindable (items : List Value) : ∀ v ∈ listValues p items, Bindable p v := by
  intro v hv
  unfold listValues at hv
  split at hv
  · exact memberValues_bindable items v hv
  · exact memberValues_bindable items v hv
  · exact memberValues_bindable items v hv
  · exact memberValues_bindable items v hv
  · obtain ⟨mask, hmask⟩ : ∃ mask, Value.bitMask items = .ok mask := by
      cases hmask : Value.bitMask items with
      | ok mask => exact ⟨mask, rfl⟩
      | error e => rw [hmask] at hv; cases hv
    rw [hmask] at hv
    exact List.mem_singleton.mp hv ▸ maskFrom_bindable hmask
  · next hequal hnotEqual hisIn hnotIn _ =>
    refine bindable_other (isNull_of_filter hv) ?_
    cases hop : p.op <;> simp_all [Predicate.testsMembership, Operator.isMembership]

theorem comparedValues_bindable (v : Value) : ∀ w ∈ comparedValues p v, Bindable p w := by
  intro w hw
  cases v with
  | null => cases hw
  | list items =>
    rw [comparedValues] at hw
    split at hw
    · next hwhole =>
      obtain rfl := List.mem_singleton.mp hw
      refine bindable_other rfl ?_
      obtain ⟨hlist, hop⟩ := Bool.and_eq_true_iff.mp hwhole
      rcases Bool.or_eq_true_iff.mp hop with hop | hop
      · simp [Predicate.testsMembership, eq_of_beq hop, Operator.isMembership, hlist]
      · simp [Predicate.testsMembership, eq_of_beq hop, Operator.isMembership, hlist]
    · exact listValues_bindable items w hw
  | _ =>
    obtain rfl := List.mem_singleton.mp hw
    exact bindable_single rfl rfl

theorem valueSlots_bindable {v : Value} {s : Slot} (h : s ∈ valueSlots numbered p v) : Bindable p s.value := by
  rw [valueSlots] at h
  split at h
  · cases h
  · obtain ⟨w, hw, hs⟩ := List.mem_flatMap.mp h
    have hvalue : s.value = w := by
      simp only [slotsOf] at hs
      split at hs
      · split at hs <;> simp_all
      · simp_all
    rw [hvalue]
    exact comparedValues_bindable v w hw

/-- No slot holds a null. -/
theorem slots_bindable {s : Slot} (h : s ∈ slots numbered params p) : Bindable p s.value := by
  unfold slots at h
  split at h
  · exact valueSlots_bindable h
  · cases hname : params.value? _ with
    | none => rw [hname] at h; cases h
    | some v => rw [hname] at h; exact valueSlots_bindable h
  · cases h

/-! ### Tests for null -/

/-- If the term is a test for null, then of the predicate's own field, which may be null unless the
operator asks for the test. -/
def TestsNullable (p : Predicate) (term : Term) : Prop :=
  ∀ negated column, term = .nullTest negated column →
    column = columnOf p.qualifier p.field ∧ (p.op = .isNull ∨ p.op = .isNotNull ∨ p.field.isNullable = true)

theorem tests_nullable (h : p.field.isNullable = true) (negated : Bool) :
    TestsNullable p (.nullTest negated (columnOf p.qualifier p.field)) := by
  intro negated' column hterm
  cases hterm
  exact ⟨rfl, .inr (.inr h)⟩

theorem nullaryTerm_tests {term : Term} (h : nullaryTerm p = .ok term) : TestsNullable p term := by
  unfold nullaryTerm at h
  split at h
  · next hop =>
    obtain rfl := Except.ok.inj h
    rintro _ _ ⟨⟩
    exact ⟨rfl, .inl hop⟩
  · next hop =>
    obtain rfl := Except.ok.inj h
    rintro _ _ ⟨⟩
    exact ⟨rfl, .inr (.inl hop)⟩
  · exact nomatch h

theorem nullTerm_tests {term : Term} (h : nullTerm p = .ok term) : TestsNullable p term := by
  unfold nullTerm at h
  split at h
  · exact nomatch h
  · split at h
    · exact nomatch h
    · next hnullable =>
      obtain rfl := Except.ok.inj h
      exact tests_nullable (by simpa using hnullable) _

theorem fieldTerm_tests {qualifier : String} {path : FieldPath} {term : Term}
    (h : fieldTerm p qualifier path = .ok term) : TestsNullable p term := by
  unfold fieldTerm at h
  split at h
  · exact nomatch h
  · split at h
    · exact Except.ok.inj h ▸ nofun
    · exact Except.ok.inj h ▸ nofun
    · exact Except.ok.inj h ▸ nofun
    · exact Except.ok.inj h ▸ nofun
    · split at h
      · exact Except.ok.inj h ▸ nofun
      · exact nomatch h

theorem Ensures.lift {x : Except CompileError Term} {Q : Term → Prop} (h : ∀ term, x = .ok term → Q term) :
    Ensures (liftM x : Compile Term) Q := by
  cases x with
  | error e => exact Ensures.throw e
  | ok term => exact Ensures.pure (h term rfl)

theorem scalarTerm_tests (v : Value) : Ensures (scalarTerm numbered p v) (TestsNullable p) := by
  unfold scalarTerm
  split
  · exact Ensures.throw _
  · exact Ensures.throw _
  · cases numbered with
    | true => exact (Ensures.trivial _).bind fun _ _ => Ensures.pure nofun
    | false => exact (Ensures.trivial _).bind fun _ _ => (Ensures.trivial _).bind fun _ _ => Ensures.pure nofun
  · exact (Ensures.trivial _).bind fun _ _ => Ensures.pure nofun
  · split
    · exact (Ensures.trivial _).bind fun _ _ => Ensures.pure nofun
    · exact Ensures.throw _

/-- All terms of the fragment test so. -/
def AllTest (p : Predicate) (f : Fragment) : Prop :=
  ∀ term ∈ f.terms, TestsNullable p term

theorem pure_tests (j : Joiner) {terms : List Term} (h : ∀ term ∈ terms, TestsNullable p term) :
    Ensures (Pure.pure ⟨j, terms⟩) (AllTest p) :=
  Ensures.pure h

theorem Ensures.single_tests {x : Compile Term} (h : Ensures x (TestsNullable p)) :
    Ensures (Fragment.single <$> x) (AllTest p) :=
  h.map fun _ hterm => List.forall_mem_singleton.mpr hterm

theorem membership_tests (items : List Value) (negated : Bool) : Ensures (membership p items negated) (AllTest p) := by
  have hmember : ∀ place, TestsNullable p (.member negated p.foldCase (columnOf p.qualifier p.field) (.bound place)) :=
    fun place _ _ hterm => nomatch hterm
  rw [membership_eq]
  split
  · split
    · exact Ensures.throw _
    · next hnullable =>
      have htest := tests_nullable (p := p) (by simpa using hnullable) negated
      split
      · exact pure_tests _ (List.forall_mem_singleton.mpr htest)
      · refine (Ensures.trivial _).bind fun place _ => pure_tests _ (List.forall_mem_cons.mpr ⟨hmember place, ?_⟩)
        exact List.forall_mem_singleton.mpr htest
  · exact (Ensures.trivial _).bind fun place _ => pure_tests _ (List.forall_mem_singleton.mpr (hmember place))

theorem chainTerms_tests (items : List Value) :
    Ensures (chainTerms numbered p items) fun terms => ∀ term ∈ terms, TestsNullable p term := by
  induction items with
  | nil => exact Ensures.pure nofun
  | cons v rest ih =>
    have hrest : ∀ term, TestsNullable p term →
        Ensures (do let terms ← chainTerms numbered p rest; return term :: terms)
          fun terms => ∀ term ∈ terms, TestsNullable p term :=
      fun term hterm => ih.bind fun terms hterms => Ensures.pure (List.forall_mem_cons.mpr ⟨hterm, hterms⟩)
    rw [chainTerms]
    split
    · exact (Ensures.lift fun _ => nullTerm_tests).bind hrest
    · exact (scalarTerm_tests v).bind hrest

theorem rangeTerms_tests (negated parens : Bool) (items : List Value) :
    Ensures (rangeTerms p negated parens items) fun terms => ∀ term ∈ terms, TestsNullable p term := by
  match items with
  | [] => exact Ensures.pure nofun
  | [_] => exact Ensures.pure nofun
  | low :: high :: rest =>
    exact (Ensures.trivial _).bind fun _ _ => (Ensures.trivial _).bind fun _ _ =>
      (rangeTerms_tests negated parens rest).bind fun terms hterms =>
        Ensures.pure (List.forall_mem_cons.mpr ⟨nofun, hterms⟩)

theorem collection_tests (items : List Value) : Ensures (collection numbered p items) (AllTest p) := by
  have hranges : ∀ negated, Ensures (ranges p items negated) (AllTest p) := by
    intro negated
    unfold ranges
    split
    · exact Ensures.throw _
    · split
      · exact Ensures.throw _
      · exact (rangeTerms_tests negated _ items).bind fun terms hterms => Ensures.pure hterms
  unfold collection
  split
  · exact membership_tests items false
  · exact membership_tests items false
  · exact membership_tests items true
  · exact membership_tests items true
  · exact hranges false
  · exact hranges true
  · unfold maskTest
    split
    · exact Ensures.throw _
    · split
      · exact (Ensures.trivial _).bind fun _ _ => pure_tests _ (List.forall_mem_singleton.mpr nofun)
      · exact Ensures.throw _
  · split
    · exact Ensures.throw _
    · split
      · exact pure_tests _ (List.forall_mem_singleton.mpr nofun)
      · exact (chainTerms_tests items).bind fun terms hterms => Ensures.pure hterms

theorem valueFragment_tests (v : Value) : Ensures (valueFragment numbered p v) (AllTest p) := by
  unfold valueFragment
  split
  · exact (Ensures.lift fun _ => nullaryTerm_tests).single_tests
  · split
    · exact (Ensures.lift fun _ => nullTerm_tests).single_tests
    · split
      · exact (scalarTerm_tests _).single_tests
      · exact collection_tests _
    · exact (scalarTerm_tests _).single_tests

/-- A field that is never null is tested for null only on request. -/
theorem fragment_tests (p : Predicate) : Ensures (fragment numbered params p) (AllTest p) := by
  unfold fragment
  split
  · exact (Ensures.lift fun _ => nullaryTerm_tests).single_tests
  · exact (Ensures.lift fun _ => fieldTerm_tests).single_tests
  · exact valueFragment_tests _
  · split
    · exact valueFragment_tests _
    · exact Ensures.throw _

/-! ### Conditions -/

/-- What stands at the term's places may be bound for the predicate, and the term tests for null only what
it may. -/
structure NullSafe (values : List Value) (p : Predicate) (term : Term) : Prop where
  bound : ∀ n ∈ term.places, ∃ v, values[n - 1]? = some v ∧ Bindable p v
  tests : TestsNullable p term

/-- Wherever a predicate is compiled, its terms are free of nulls. -/
theorem fragment_nullSafe (p : Predicate) :
    Yields (fragment numbered params p) fun values f => ∀ term ∈ f.terms, NullSafe values p term := by
  have hbound : Yields (fragment numbered params p) fun values f => ∀ term ∈ f.terms, ∀ n ∈ term.places,
      ∃ v, values[n - 1]? = some v ∧ Bindable p v := by
    refine fragment_yields fun f values hrun before later term hterm n hn => ?_
    obtain ⟨alone, halone, rfl⟩ := List.mem_map.mp hterm
    have hraised : (Term.raise before.length alone).places = alone.places.map (· + before.length) := Placed.places_raise before.length alone
    obtain ⟨m, hm, rfl⟩ := List.mem_map.mp (hraised ▸ hn)
    obtain ⟨hpos, s, hs, hvalue⟩ := fragment_names hrun halone hm
    exact ⟨s.value, getElem?_raised hpos hvalue, slots_bindable hs⟩
  refine (hbound.and (fragment_tests p)).mono fun values f hf term hterm => ⟨?_, ?_⟩
  · exact hf.1 term hterm
  · exact hf.2 term hterm

/-- A compiled condition binds the values of its slots. -/
theorem compileTree_slots {d : Dialect} {t : Tree Predicate} {c : Compiled} (h : compileTree d params t = .ok c) :
    c.params = (t.leaves.flatMap (slots d.numbered params)).map Slot.value := by
  obtain ⟨-, tokens, -, hrun⟩ := compileTree_ok h
  obtain ⟨hvalues, -⟩ := (condition_writes t).first hrun
  rwa [List.toList_toArray] at hvalues

/-- **Null is never bound.** No value of a compiled condition is null. Its values are those of its predicates,
each compiled on its own, and a predicate that looks for its field in a list binds no list with a null in it.
The condition is a tree of terms, a few for each predicate: the values that the terms refer to are such
values, and no term tests for null a field that is never null, unless the operator is such a test. -/
theorem null_never_bound {d : Dialect} {params : ParamSet} {t : Tree Predicate} {c : Compiled}
    (h : compileTree d params t = .ok c) :
    (∀ v ∈ c.params, v.isNull = false) ∧
    (∃ parts, List.Forall₂ (fun p part => compileTree d params (.leaf p) = .ok part ∧ ∀ v ∈ part.params, Bindable p v)
        t.leaves parts ∧
      c.params = parts.flatMap Compiled.params) ∧
    ∃ u, c.MadeOf d params t u ∧ ∀ leaf ∈ u.leaves, ∀ term ∈ leaf.2.terms, NullSafe c.params leaf.1 term := by
  refine ⟨fun v hv => ?_, ?_, compileTree_made fragment_nullSafe h⟩
  · rw [compileTree_slots h] at hv
    obtain ⟨s, hs, rfl⟩ := List.mem_map.mp hv
    obtain ⟨p, -, hs⟩ := List.mem_flatMap.mp hs
    exact (slots_bindable hs).notNull
  · obtain ⟨parts, hparts, hvalues⟩ := compileTree_parts h
    refine ⟨parts, hparts.imp fun p part hpart => ⟨hpart, fun v hv => ?_⟩, hvalues⟩
    rw [compileTree_slots hpart, Tree.leaves, List.flatMap_singleton] at hv
    obtain ⟨s, hs, rfl⟩ := List.mem_map.mp hv
    exact slots_bindable hs

/-! Nulls in a list, alone and in a mask; the parameter holds a null beside a text. -/

def town : Field := { name := "town", storage := "Town", kind := .text, nullable := true }

def stamps : Field := { name := "stamps", storage := "Stamps", kind := .bits }

def letter : Document where
  path := "post.Letter"
  name := "Letter"
  storage := "letters"
  fields := [town, stamps]

def letters (f : Field) (op : Operator) (operand : Operand) : Tree Predicate :=
  .leaf { qualifier := "", field := ⟨letter, [⟨letter, f⟩], List.cons_ne_nil _ _⟩, op, operand }

def lost : Tree Predicate :=
  .node .and [letters town .isIn (.param "towns"), .node .or [letters town .notEqual (.const .null),
    letters town .like (.const (.list [.null, .text "B%"])), letters stamps .isNull .none,
    letters stamps .bitsOr (.const (.list [.int 1, .uint 6]))]]

def towns : ParamSet where
  values := [("towns", .list [.text "Ulm", .null])]

def lostCompiled : Compiled :=
  ⟨"(\"Town\" = ANY(ARRAY[$1]) OR \"Town\" IS NULL) AND (\"Town\" IS NOT NULL OR \"Town\" IS NULL OR " ++
    "\"Town\" LIKE $2 OR \"Stamps\" IS NULL OR (\"Stamps\" & $3) <> 0)",
    [.list [.text "Ulm"], .text "B%", .uint 7]⟩

theorem null_never_bound_lost :
    compileTree .postgres towns lost = .ok lostCompiled ∧ (∀ v ∈ lostCompiled.params, v.isNull = false) ∧
      ∃ u, lostCompiled.MadeOf .postgres towns lost u ∧
        ∀ leaf ∈ u.leaves, ∀ term ∈ leaf.2.terms, NullSafe lostCompiled.params leaf.1 term := by
  have hcompiled : compileTree .postgres towns lost = .ok lostCompiled := rfl
  obtain ⟨hnull, -, hterms⟩ := null_never_bound hcompiled
  exact ⟨hcompiled, hnull, hterms⟩

end Sql

end DocQuery
