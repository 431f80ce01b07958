import DocQuery.Proofs.Declared

/-! Fields that are compared with fields.

The check of two fields looks at the operator with the left field only, and at the right one by asking
whether the two kinds can be compared. `checkFieldPair_iff` says what this comes to for both fields
(`PairsWith`): an order and a pattern on the left leave only kinds with the same on the right, while a mask
may be any number. So `field_pairs_suit` has masks that are no whole numbers, and `mask_of_weight` one of them. -/
namespace DocQuery

/-! ### Kinds -/

namespace FieldKind

variable {a b : FieldKind}

/-- Values of the two kinds can be compared: those of numbers with each other, those of any other scalar
kind with their like, and lists where their members can be compared. -/
inductive Alike : FieldKind → FieldKind → Prop where
  | numbers {a b : FieldKind} (left : a.isNumeric = true) (right : b.isNumeric = true) : Alike a b
  | same {k : FieldKind} (scalar : k ∈ [bool, bytes, text, timestamp, ulid]) : Alike k k
  | lists {a b : FieldKind} (members : Alike a b) : Alike (list a) (list b)

theorem comparable_of_numeric (ha : a.isNumeric = true) (hb : b.isNumeric = true) : a.comparable b = true := by
  cases a <;> cases b <;> first | rfl | (cases ha; done) | cases hb

theorem alike_of_comparable (h : a.comparable b = true) : a.Alike b := by
  induction a generalizing b with
  | list a ih =>
    cases b with
    | list b => exact .lists (ih h)
    | _ => cases h
  | bits | decimal | float | int | uint =>
    refine .numbers rfl ?_
    cases b <;> first | rfl | cases h
  | embedded => cases b <;> cases h
  | bool | bytes | text | timestamp | ulid =>
    cases b <;> first | exact .same (by decide) | cases h

theorem comparable_iff : a.comparable b = true ↔ a.Alike b := by
  refine ⟨alike_of_comparable, fun h => ?_⟩
  induction h with
  | numbers left right => exact comparable_of_numeric left right
  | same scalar =>
    simp only [List.mem_cons, List.not_mem_nil, or_false] at scalar
    rcases scalar with rfl | rfl | rfl | rfl | rfl <;> rfl
  | lists _ ih => exact ih

theorem isOrderable_of_isNumeric (h : a.isNumeric = true) : a.isOrderable = true := by
  cases a <;> first | rfl | cases h

theorem isNumeric_iff : a.isNumeric = true ↔ a.isBitwise = true ∨ a = decimal ∨ a = float := by
  cases a <;> simp [isNumeric, isBitwise]

/-- What is compared with something that has an order has one. -/
theorem Alike.isOrderable (h : a.Alike b) (ha : a.isOrderable = true) : b.isOrderable = true := by
  cases h with
  | numbers _ right => exact isOrderable_of_isNumeric right
  | same _ => exact ha
  | lists _ => exact nomatch ha

theorem Alike.eq_text (h : a.Alike b) (ha : a = text) : b = text := by
  cases h with
  | numbers left _ =>
    rw [ha] at left
    exact nomatch left
  | same _ => exact ha
  | lists _ => exact nomatch ha

theorem Alike.isNumeric (h : a.Alike b) (ha : a.isNumeric = true) : b.isNumeric = true := by
  cases h with
  | numbers _ right => exact right
  | same _ => exact ha
  | lists _ => exact nomatch ha

end FieldKind

/-! ### Operators -/

namespace Operator

variable {op : Operator}

theorem isMembership_of_needsOrder (h : op.needsOrder = true) : op.isMembership = false := by
  cases op <;> first | rfl | cases h

theorem isMembership_of_isPattern (h : op.isPattern = true) : op.isMembership = false := by
  cases op <;> first | rfl | cases h

theorem isMembership_of_isBitwise (h : op.isBitwise = true) : op.isMembership = false := by
  cases op <;> first | rfl | cases h

end Operator

/-! ### Pairs of fields -/

namespace FieldPath

open Operator (isMembership_of_needsOrder isMembership_of_isPattern isMembership_of_isBitwise)

variable {left right path : FieldPath} {op : Operator}

/-- The field is stored, and so is every field that leads to it, and it holds no document. -/
structure Queryable (path : FieldPath) : Prop where
  stored : ∀ s ∈ path.steps, s.field.isStored = true
  plain : ∀ d, path.kind ≠ .embedded d

/-- The operator suits both fields. -/
structure PairsWith (left : FieldPath) (op : Operator) (right : FieldPath) : Prop where
  queryable : left.Queryable ∧ right.Queryable
  ordered : op.needsOrder = true → left.kind.isOrderable = true ∧ right.kind.isOrderable = true
  patterns : op.isPattern = true → left.kind = .text ∧ right.kind = .text
  /-- What gives the mask may be a number that is not whole. -/
  masks : op.isBitwise = true → left.kind.isBitwise = true ∧
    (right.kind.isBitwise = true ∨ right.kind = .decimal ∨ right.kind = .float)
  members : op.isMembership = true → ∃ k, right.kind = .list k ∧ left.kind.Alike k
  others : op.isMembership = false → left.kind.Alike right.kind

theorem checkQueryable_iff : path.checkQueryable = .ok () ↔ path.Queryable := by
  have hplain : path.kind.isEmbedded = false ↔ ∀ d, path.kind ≠ .embedded d := by
    cases path.kind <;> simp [FieldKind.isEmbedded]
  have hstored : path.isStored = true ↔ ∀ s ∈ path.steps, s.field.isStored = true := List.all_eq_true
  unfold checkQueryable
  split
  · next h =>
    refine ⟨(fun h => nomatch h), fun hq => ?_⟩
    rw [hstored.mpr hq.stored, hplain.mpr hq.plain] at h
    exact nomatch h
  · next h =>
    rw [Bool.or_eq_true, not_or, Bool.not_eq_true', Bool.not_eq_false, Bool.not_eq_true] at h
    exact ⟨fun _ => ⟨hstored.mp h.1, hplain.mp h.2⟩, fun _ => rfl⟩

theorem supports_iff : path.supports op = true ↔
    (op.needsOrder = true → path.kind.isOrderable = true) ∧ (op.isPattern = true → path.kind = .text) ∧
      (op.isBitwise = true → path.kind.isBitwise = true) := by
  have htext : path.kind.isText = true ↔ path.kind = .text := by
    cases path.kind <;> simp [FieldKind.isText]
  rw [← htext]
  cases op <;> simp [supports, Operator.needsOrder, Operator.isPattern, Operator.isBitwise]

/-- Between two fields, where nothing is null and case counts, the operator is only asked to suit the kind. -/
theorem checkOperator_iff (hfields : op.comparesFields = true) :
    path.checkOperator op false = .ok () ↔ path.Queryable ∧ path.supports op = true := by
  have hnullary : op.isNullary = false := by
    cases op <;> first | rfl | cases hfields
  unfold checkOperator
  rw [hnullary, ← checkQueryable_iff]
  cases path.checkQueryable with
  | error e => exact ⟨(fun h => nomatch h), fun h => nomatch h.1⟩
  | ok => cases path.supports op <;> simp [bind, Except.bind]

/-- The check comes down to three: of each field by itself and of the two kinds. -/
theorem checkFieldPair_parts : left.checkFieldPair op right = .ok () ↔
    op.comparesFields = true ∧ (left.Queryable ∧ left.supports op = true) ∧ right.Queryable ∧
      ∃ k, rightKind? right op = some k ∧ left.kind.Alike k := by
  unfold checkFieldPair
  cases hfields : op.comparesFields with
  | false => exact ⟨(fun h => nomatch h), fun h => nomatch h.1⟩
  | true =>
    have hright : right.checkQueryable = .ok () ↔ right.Queryable := checkQueryable_iff
    rw [← checkOperator_iff hfields, ← hright]
    cases left.checkOperator op false with
    | error e => exact ⟨(fun h => nomatch h), fun h => nomatch h.2.1⟩
    | ok =>
      cases right.checkQueryable with
      | error e => exact ⟨(fun h => nomatch h), fun h => nomatch h.2.2.1⟩
      | ok =>
        cases rightKind? right op with
        | none => exact ⟨(fun h => nomatch h), fun ⟨_, _, _, _, h, _⟩ => nomatch h⟩
        | some k =>
          have hkind : (∃ l, some k = some l ∧ left.kind.Alike l) ↔ left.kind.comparable k = true := by
            rw [FieldKind.comparable_iff]
            exact ⟨fun ⟨_, hk, h⟩ => Option.some.inj hk ▸ h, fun h => ⟨k, rfl, h⟩⟩
          rw [hkind]
          show (if left.kind.comparable k = true then Except.ok () else _) = Except.ok () ↔ _
          cases left.kind.comparable k <;> simp

/-- What is compared with the kind of the left field is the kind of the right one or, for membership, that of
its members. -/
theorem alike_rightKind?_iff : (∃ k, rightKind? right op = some k ∧ left.kind.Alike k) ↔
    (op.isMembership = true → ∃ k, right.kind = .list k ∧ left.kind.Alike k) ∧
      (op.isMembership = false → left.kind.Alike right.kind) := by
  unfold rightKind?
  cases op.isMembership with
  | false => simp
  | true => cases right.kind <;> simp

/-- The check accepts two fields just if the operator stands between fields and suits both. -/
theorem checkFieldPair_iff :
    left.checkFieldPair op right = .ok () ↔ op.comparesFields = true ∧ left.PairsWith op right := by
  rw [checkFieldPair_parts, alike_rightKind?_iff, supports_iff]
  constructor
  · rintro ⟨hfields, ⟨hleft, hordered, hpatterns, hmasks⟩, hright, hmembers, hothers⟩
    refine ⟨hfields, ⟨hleft, hright⟩, fun hop => ?_, fun hop => ?_, fun hop => ?_, hmembers, hothers⟩
    · have halike := hothers (isMembership_of_needsOrder hop)
      exact ⟨hordered hop, halike.isOrderable (hordered hop)⟩
    · have halike := hothers (isMembership_of_isPattern hop)
      exact ⟨hpatterns hop, halike.eq_text (hpatterns hop)⟩
    · have halike := hothers (isMembership_of_isBitwise hop)
      have hnumeric : left.kind.isNumeric = true := FieldKind.isNumeric_iff.mpr (.inl (hmasks hop))
      exact ⟨hmasks hop, FieldKind.isNumeric_iff.mp (halike.isNumeric hnumeric)⟩
  · rintro ⟨hfields, h⟩
    exact ⟨hfields, ⟨h.queryable.1, fun hop => (h.ordered hop).1, fun hop => (h.patterns hop).1, fun hop => (h.masks hop).1⟩,
      h.queryable.2, h.members, h.others⟩

end FieldPath

/-! ### Calls and links -/

namespace Draft

variable {d d' : Draft}

open FieldPath (checkFieldPair_iff)

/-- A comparison of two fields is accepted just if the operator suits both. -/
theorem accept_field_iff {qualifier other : String} {field otherField : Selector} {op : Operator} {p : Predicate} :
    d.accept ⟨qualifier, field, op, .field other otherField⟩ = .ok p ↔
      ∃ left right, d.resolve qualifier field = .ok left ∧ d.resolve other otherField = .ok right ∧
        op.comparesFields = true ∧ left.PairsWith op right ∧
        p = { qualifier := qualifier, field := left, op := op, operand := .field other right } := by
  constructor
  · intro h
    obtain ⟨left, hleft, h⟩ := bind_ok h
    obtain ⟨right, hright, h⟩ := bind_ok h
    obtain ⟨⟨⟩, hpair, h⟩ := bind_ok h
    obtain ⟨hfields, hpairs⟩ := checkFieldPair_iff.mp (mapError_ok hpair)
    exact ⟨left, right, hleft, hright, hfields, hpairs, (Except.ok.inj h).symm⟩
  · rintro ⟨left, right, hleft, hright, hfields, hpairs, rfl⟩
    have hpair : left.checkFieldPair op right = .ok () := checkFieldPair_iff.mpr ⟨hfields, hpairs⟩
    show (do let left ← d.resolve qualifier field; d.predicate qualifier left op (.field other otherField)) = _
    rw [hleft]
    show (do let right ← d.resolve other otherField; (left.checkFieldPair op right).mapError .condition; _) = _
    rw [hright]
    show (do (left.checkFieldPair op right).mapError DraftError.condition; _) = _
    rw [hpair]
    rfl

/-- A call that compares two fields adds the condition just if the draft is open and the operator suits both. -/
theorem apply_field_iff {clause : Clause} {qualifier other : String} {field otherField : Selector} {op : Operator} :
    d.apply (.compare clause qualifier field op (.field other otherField)) = .ok d' ↔
      d.plan = none ∧ ∃ left right, d.resolve qualifier field = .ok left ∧ d.resolve other otherField = .ok right ∧
        op.comparesFields = true ∧ left.PairsWith op right ∧
        d' = d.push (targetOf qualifier clause)
          { qualifier := qualifier, field := left, op := op, operand := .field other right } := by
  constructor
  · intro h
    obtain ⟨p, haccept, rfl⟩ := accept_of_compare (c := ⟨qualifier, field, op, .field other otherField⟩) h
    obtain ⟨left, right, hleft, hright, hfields, hpairs, rfl⟩ := accept_field_iff.mp haccept
    exact ⟨open_of_apply h, left, right, hleft, hright, hfields, hpairs, rfl⟩
  · rintro ⟨hopen, left, right, hleft, hright, hfields, hpairs, rfl⟩
    exact compare_of_accept hopen (accept_field_iff.mpr ⟨left, right, hleft, hright, hfields, hpairs, rfl⟩)

end Draft

/-- The rule compares a field with one of an ancestor, which it names or finds by the field's document. -/
inductive Rule.Compares (field : Selector) (op : Operator) (ancestorField : Selector) : Rule → Prop where
  | join (ancestor : String) : Compares field op ancestorField (.join ancestor field op ancestorField)
  | connect (default : Option Value) : Compares field op ancestorField (.connect field op ancestorField default)

namespace Composition

variable {c c' : Composition} {i : Nat} {n : Node}

theorem ancestorLink_of_link {field ancestorField : Selector} {op : Operator} {r : Rule} {l : Link}
    (hr : r.Compares field op ancestorField) (h : c.link i n r = .ok l) :
    ∃ a default, c.ancestorLink n a field op ancestorField default = .ok l := by
  cases hr with
  | join ancestor =>
    obtain ⟨a, -, h⟩ := bind_ok h
    exact ⟨a, none, h⟩
  | connect default =>
    simp only [link] at h
    split at h
    · cases h
    · obtain ⟨a, -, h⟩ := bind_ok h
      exact ⟨a, default, h⟩

/-- A link to an ancestor is recorded only if the operator suits both fields. -/
theorem addRule_field {field ancestorField : Selector} {op : Operator} {r : Rule}
    (hr : r.Compares field op ancestorField) (hn : c.node? i = some n) (h : c.addRule i r = .ok c') :
    ∃ left right, ∃ a : Node, ∃ default, field.resolve c.schema n.document = .ok left ∧
      ancestorField.resolve c.schema a.document = .ok right ∧ op.comparesFields = true ∧ left.PairsWith op right ∧
      c' = c.addLink i { field := left, op := op, target := .ancestor a.name right, default := default } := by
  rw [addRule, hn] at h
  obtain ⟨l, hlink, rfl⟩ := map_eq_ok.mp h
  obtain ⟨a, default, hl⟩ := ancestorLink_of_link hr hlink
  obtain ⟨left, right, hleft, hright, hpair, rfl⟩ := ancestorLink_ok hl
  obtain ⟨hfields, hpairs⟩ := FieldPath.checkFieldPair_iff.mp hpair
  exact ⟨left, right, a, default, hleft, hright, hfields, hpairs, rfl⟩

end Composition

/-- **Two fields are compared only by an operator that suits both.** A call for a filter or a connection adds the
comparison just if both fields are found and suit, and a link to an ancestor is recorded only then. The fields are
stored and hold no documents; an order has two fields with an order, a pattern two texts, membership a list of what
can be compared on the right, and any other operator two kinds that can be compared. A mask is taken from a whole
number or from any other. -/
theorem field_pairs_suit (field otherField : Selector) (op : Operator) :
    (∀ (d d' : Draft) (clause : Clause) (qualifier other : String),
      d.apply (.compare clause qualifier field op (.field other otherField)) = .ok d' ↔
        d.plan = none ∧ ∃ left right, d.resolve qualifier field = .ok left ∧ d.resolve other otherField = .ok right ∧
          op.comparesFields = true ∧ left.PairsWith op right ∧
          d' = d.push (Draft.targetOf qualifier clause)
            { qualifier := qualifier, field := left, op := op, operand := .field other right }) ∧
    (∀ (c c' : Composition) (i : Nat) (n : Node) (r : Rule),
      r.Compares field op otherField → c.node? i = some n → c.addRule i r = .ok c' →
      ∃ left right, ∃ a : Node, ∃ default, field.resolve c.schema n.document = .ok left ∧
        otherField.resolve c.schema a.document = .ok right ∧ op.comparesFields = true ∧ left.PairsWith op right ∧
        c' = c.addLink i { field := left, op := op, target := .ancestor a.name right, default := default }) :=
  ⟨fun _ _ _ _ _ => Draft.apply_field_iff, fun _ _ _ _ _ => Composition.addRule_field⟩

/-! A load has a weight, and the truck that it is on has a limit. The marks on the load are no mask for its weight,
nor is the weight one for the marks, though that is accepted. -/

def marksField : Field := { name := "marks", storage := "Marks", kind := .int }

def weightField : Field := { name := "weight", storage := "Weight", kind := .decimal }

def limitField : Field := { name := "limit", storage := "Limit", kind := .float }

def load : Document where
  path := "dock.Load"
  name := "Load"
  storage := "loads"
  fields := [marksField, weightField]

def truck : Document where
  path := "dock.Truck"
  name := "Truck"
  storage := "trucks"
  fields := [limitField]

def FieldPath.weight : FieldPath := ⟨load, [⟨load, weightField⟩], List.cons_ne_nil _ _⟩

def loads : Draft :=
  .forDocument [load, truck] load .select

/-- The condition that the field has the bits of the mask. -/
def maskedBy (field mask : String) : Edit :=
  .compare .filter "" (.named field) .bitsAnd (.field "" (.named mask))

/-- A truck with a load on it. -/
def loadedTruck : Composition :=
  (Composition.root [load, truck] "Truck" truck).withNode 0 "Load" load

theorem field_pairs_suit_loads :
    (∃ d' left, loads.apply (maskedBy "marks" "marks") = .ok d' ∧ FieldPath.PairsWith left .bitsAnd left) ∧
      (∀ d', loads.apply (maskedBy "weight" "marks") ≠ .ok d') ∧
      (∃ n c' right, loadedTruck.node? 1 = some n ∧
        loadedTruck.addRule 1 (.join "TRUCK" (.named "weight") .lessOrEqual (.named "limit")) = .ok c' ∧
        FieldPath.weight.PairsWith .lessOrEqual right) := by
  refine ⟨?_, fun d' hcall => ?_, ?_⟩
  · obtain ⟨d', hcall⟩ : ∃ d', loads.apply (maskedBy "marks" "marks") = .ok d' := ⟨_, rfl⟩
    obtain ⟨-, left, right, hleft, hright, -, hpairs, -⟩ := ((field_pairs_suit _ _ _).1 _ _ _ _ _).mp hcall
    obtain rfl := Except.ok.inj (hleft.symm.trans hright)
    exact ⟨d', left, hcall, hpairs⟩
  · obtain ⟨-, left, right, hleft, -, -, hpairs, -⟩ := ((field_pairs_suit _ _ _).1 _ _ _ _ _).mp hcall
    obtain rfl := Except.ok.inj hleft
    exact absurd (hpairs.masks rfl).1 (by decide)
  · obtain ⟨n, c', hn, hrule⟩ : ∃ n c', loadedTruck.node? 1 = some n ∧
        loadedTruck.addRule 1 (.join "TRUCK" (.named "weight") .lessOrEqual (.named "limit")) = .ok c' :=
      ⟨_, _, rfl, by with_unfolding_all rfl⟩
    obtain ⟨left, right, -, -, hleft, -, -, hpairs, -⟩ := (field_pairs_suit _ _ _).2 _ _ _ _ _ (.join _) hn hrule
    obtain rfl := Option.some.inj hn
    obtain rfl := Except.ok.inj hleft
    exact ⟨_, c', right, hn, hrule, hpairs⟩

/-- A mask is accepted that is no whole number. -/
theorem mask_of_weight :
    ∃ d' left, loads.apply (maskedBy "marks" "weight") = .ok d' ∧
      loads.resolve "" (.named "marks") = .ok left ∧ loads.resolve "" (.named "weight") = .ok .weight ∧
      left.kind.isBitwise = true ∧ FieldPath.weight.kind.isBitwise = false :=
  ⟨_, _, rfl, rfl, rfl, rfl, rfl⟩

end DocQuery
