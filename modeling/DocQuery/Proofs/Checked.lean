import DocQuery.Condition.Check
import DocQuery.Proofs.NormalForm
import DocQuery.Proofs.Running

/-! Conditions that were checked when they were declared.

Compiling looks at a predicate's operand once more. What it finds wrong with a value is one of
four faults (`OperandFault`), and the check of literals finds fault with the same value
(`valueFragment_fails`). So a checked predicate can only fail by its parameter
(`fragment_fails`), and a condition of checked predicates only by one of theirs
(`condition_fails`). -/
namespace DocQuery

/-! ### What the check of literals says -/

namespace FieldPath

variable {path : FieldPath} {op : Operator}

theorem checkNull_ok (h : path.checkNull op = .ok ()) : op.acceptsNull = true ∧ path.isNullable = true := by
  unfold checkNull at h
  split at h
  · exact nomatch h
  · next haccepts =>
    split at h
    · exact nomatch h
    · next hnullable => exact ⟨by simpa using haccepts, by simpa using hnullable⟩

/-- The members of a list suit the field and the operator. -/
structure SuitsItems (path : FieldPath) (op : Operator) (items : List Value) : Prop where
  pairs : op.isRange = true → items.isEmpty = false ∧ items.length % 2 = 0
  nulls : items.any Value.isNull = true → op.isRange = false ∧ op.acceptsNull = true ∧ path.isNullable = true
  kinds : ∀ v ∈ items, v.isNull = false → v.suits path.kind.element = true

theorem checkItems_ok {items : List Value} (h : path.checkItems op items = .ok ()) :
    ∀ v ∈ items, path.checkItem op v = .ok () := by
  induction items with
  | nil => exact fun v hv => nomatch hv
  | cons v rest ih =>
    rw [checkItems] at h
    cases hv : path.checkItem op v with
    | error e =>
      rw [hv] at h
      exact nomatch h
    | ok u =>
      rw [hv] at h
      exact List.forall_mem_cons.mpr ⟨hv, ih h⟩

theorem checkItem_null {v : Value} (h : path.checkItem op v = .ok ()) (hnull : v.isNull = true) :
    op.isRange = false ∧ op.acceptsNull = true ∧ path.isNullable = true := by
  rw [checkItem, if_pos hnull] at h
  split at h
  · exact nomatch h
  · next hrange => exact ⟨by simpa using hrange, checkNull_ok h⟩

theorem checkItem_kind {v : Value} (h : path.checkItem op v = .ok ()) (hnull : v.isNull = false) :
    v.suits path.kind.element = true := by
  rw [checkItem, if_neg (by simp [hnull]), checkKind] at h
  split at h
  · assumption
  · exact nomatch h

/-- A list that is not compared as a whole is checked member by member. -/
theorem suitsItems_of_checkLiteral {items : List Value} (hnullary : op.isNullary = false)
    (hmembers : (path.kind.isList && (op == .equal || op == .notEqual)) = false)
    (h : path.checkLiteral op (.list items) = .ok ()) : SuitsItems path op items := by
  simp only [checkLiteral, hnullary, hmembers, Bool.false_eq_true, if_false] at h
  split at h
  · exact nomatch h
  · next hpairs =>
    refine ⟨fun hrange => ?_, fun hnull => ?_, fun v hv => checkItem_kind (checkItems_ok h v hv)⟩
    · simpa [hrange] using hpairs
    · obtain ⟨v, hv, hnull⟩ := List.any_eq_true.mp hnull
      exact checkItem_null (checkItems_ok h v hv) hnull

end FieldPath

namespace Sql

variable {numbered : Bool} {params : ParamSet}

/-! ### The errors of a computation -/

/-- Every error of the computation is of the kind. -/
def FailsOnly {α : Type} (x : Compile α) (E : CompileError → Prop) : Prop :=
  ∀ bound e after, x.run.run bound = (.error e, after) → E e

namespace FailsOnly

variable {α β : Type} {E F : CompileError → Prop}

theorem pure (a : α) : FailsOnly (Pure.pure a) E :=
  fun _ _ _ hrun => nomatch (Prod.mk.inj hrun).1

theorem throw {e : CompileError} (h : E e) : FailsOnly (α := α) (throw e) E := by
  intro bound f after hrun
  obtain rfl := Except.error.inj (Prod.mk.inj hrun).1
  exact h

theorem bind {x : Compile α} {f : α → Compile β} (hx : FailsOnly x E) (hf : ∀ a, FailsOnly (f a) E) :
    FailsOnly (x >>= f) E := by
  intro bound e after hrun
  rcases run_bind_error hrun with hfirst | ⟨a, middle, -, hrest⟩
  · exact hx bound e after hfirst
  · exact hf a middle e after hrest

theorem map {x : Compile α} {f : α → β} (hx : FailsOnly x E) : FailsOnly (f <$> x) E := by
  rw [← bind_pure_comp]
  exact hx.bind fun a => FailsOnly.pure (f a)

theorem mono {x : Compile α} (hx : FailsOnly x E) (h : ∀ e, E e → F e) : FailsOnly x F :=
  fun bound e after hrun => h e (hx bound e after hrun)

theorem lift {x : Except CompileError α} (h : ∀ e, x = .error e → E e) : FailsOnly (liftM x : Compile α) E := by
  cases x with
  | error e => exact FailsOnly.throw (h e rfl)
  | ok a => exact FailsOnly.pure a

/-- Binding a value does not fail. -/
theorem bound (v : Value) : FailsOnly (Sql.bind v) E :=
  fun _ _ _ hrun => nomatch (Prod.mk.inj hrun).1

end FailsOnly

/-! ### Terms -/

/-- What can be wrong with the value of an operand. -/
inductive OperandFault (p : Predicate) : CompileError → Prop where
  | nullOperand : OperandFault p (nullOperand p)
  | nullOnNonNullable : OperandFault p (nullOnNonNullable p)
  | malformedRange (count : Nat) : OperandFault p (malformedRange p count)
  | invalidLiteral (reason : String) : OperandFault p (.invalidLiteral p.field.place reason)

theorem nullaryTerm_ok {p : Predicate} (h : p.op.isNullary = true) (e : CompileError) :
    nullaryTerm p ≠ .error e := by
  unfold nullaryTerm
  cases hop : p.op <;> simp [hop, Operator.isNullary] at h ⊢

theorem nullTerm_fails {p : Predicate} {e : CompileError} (h : nullTerm p = .error e) :
    OperandFault p e ∧ ¬ (p.op.acceptsNull = true ∧ p.field.isNullable = true) := by
  unfold nullTerm at h
  split at h
  · next haccepts =>
    obtain rfl := Except.error.inj h
    exact ⟨.nullOperand, fun hboth => by simp [hboth.1] at haccepts⟩
  · split at h
    · next hnullable =>
      obtain rfl := Except.error.inj h
      exact ⟨.nullOnNonNullable, fun hboth => by simp [hboth.2] at hnullable⟩
    · exact nomatch h

theorem scalarTerm_fails {p : Predicate} (h : p.op.isNullary = false) (v : Value) :
    FailsOnly (scalarTerm numbered p v) fun e => e = malformedRange p 1 ∧ p.op.isRange = true := by
  unfold scalarTerm
  split
  · next hop => exact FailsOnly.throw ⟨rfl, by rw [hop]; rfl⟩
  · next hop => exact FailsOnly.throw ⟨rfl, by rw [hop]; rfl⟩
  · refine (FailsOnly.bound v).bind fun _ => ?_
    cases numbered with
    | true => exact FailsOnly.pure _
    | false => exact (FailsOnly.bound v).bind fun _ => FailsOnly.pure _
  · exact (FailsOnly.bound v).bind fun _ => FailsOnly.pure _
  · split
    · exact (FailsOnly.bound v).bind fun _ => FailsOnly.pure _
    · next hsymbol =>
      cases hop : p.op <;> simp_all [scalarSymbol?, Operator.symbol?, Operator.isNullary]

theorem fieldTerm_ok {p : Predicate} {qualifier : String} {path : FieldPath} (hplain : p.foldCase = false)
    (h : p.field.checkFieldPair p.op path = .ok ()) (e : CompileError) :
    fieldTerm p qualifier path ≠ .error e := by
  unfold fieldTerm
  cases hop : p.op <;>
    simp_all [FieldPath.checkFieldPair, Operator.comparesFields, Operator.symbol?]

/-! ### Lists -/

/-- An error over the members of a list, of which some do not suit. -/
def ItemsFault (p : Predicate) (items : List Value) (e : CompileError) : Prop :=
  OperandFault p e ∧ ¬ p.field.SuitsItems p.op items

theorem membership_fails (p : Predicate) (items : List Value) (negated : Bool) :
    FailsOnly (membership p items negated) (ItemsFault p items) := by
  rw [membership_eq]
  split
  · next hnull =>
    split
    · next hnullable =>
      refine FailsOnly.throw ⟨.nullOnNonNullable, fun hsuits => ?_⟩
      simp [(hsuits.nulls hnull).2.2] at hnullable
    · split
      · exact FailsOnly.pure _
      · exact (FailsOnly.bound _).bind fun _ => FailsOnly.pure _
  · exact (FailsOnly.bound _).bind fun _ => FailsOnly.pure _

theorem rangeTerms_fails {E : CompileError → Prop} (p : Predicate) (negated parens : Bool) (items : List Value) :
    FailsOnly (rangeTerms p negated parens items) E := by
  match items with
  | [] => exact FailsOnly.pure _
  | [_] => exact FailsOnly.pure _
  | low :: high :: rest =>
    exact (FailsOnly.bound low).bind fun _ => (FailsOnly.bound high).bind fun _ =>
      (rangeTerms_fails p negated parens rest).bind fun _ => FailsOnly.pure _

theorem ranges_fails {p : Predicate} (hrange : p.op.isRange = true) (items : List Value) (negated : Bool) :
    FailsOnly (ranges p items negated) (ItemsFault p items) := by
  unfold ranges
  split
  · next hpairs =>
    refine FailsOnly.throw ⟨.malformedRange _, fun hsuits => ?_⟩
    simp [hsuits.pairs hrange] at hpairs
  · split
    · next hnull =>
      refine FailsOnly.throw ⟨.nullOperand, fun hsuits => ?_⟩
      simp [(hsuits.nulls hnull).1] at hrange
    · exact (rangeTerms_fails p negated _ items).bind fun _ => FailsOnly.pure _

/-- A list of whole numbers has a mask. -/
theorem bitMask_ok {kind : FieldKind} (hkind : kind.isBitwise = true) {items : List Value}
    (h : ∀ v ∈ items, v.isNull = false → v.suits kind.element = true) : ∃ mask, Value.bitMask items = .ok mask := by
  have hfrom : ∀ (mask : UInt64) (signed : Bool), ∃ v, Value.maskFrom mask signed items = .ok v := by
    induction items with
    | nil => exact fun _ _ => ⟨_, rfl⟩
    | cons v rest ih =>
      obtain ⟨hv, hrest⟩ := List.forall_mem_cons.mp h
      intro mask signed
      cases v with
      | null | int _ | uint _ => exact ih hrest _ _
      | _ => cases kind <;> simp_all [FieldKind.isBitwise, FieldKind.element, Value.isNull, Value.suits]
  exact hfrom 0 true

theorem maskTest_fails {p : Predicate} (hop : p.op = .bitsOr) (hsupports : p.field.supports p.op = true)
    (items : List Value) : FailsOnly (maskTest p items) (ItemsFault p items) := by
  unfold maskTest
  split
  · next hnull =>
    refine FailsOnly.throw ⟨.nullOperand, fun hsuits => ?_⟩
    have haccepts := (hsuits.nulls hnull).2.1
    rw [hop] at haccepts
    exact nomatch haccepts
  · split
    · exact (FailsOnly.bound _).bind fun _ => FailsOnly.pure _
    · next e hmask =>
      refine FailsOnly.throw ⟨.invalidLiteral _, fun hsuits => ?_⟩
      have hkind : p.field.kind.isBitwise = true := by
        rw [hop] at hsupports
        exact hsupports
      obtain ⟨mask, hok⟩ := bitMask_ok hkind hsuits.kinds
      exact nomatch hok.symm.trans hmask

/-- Of the members that are compared one by one only a null can be at fault. -/
theorem chainTerms_fails {p : Predicate} (hnullary : p.op.isNullary = false) (hrange : p.op.isRange = false)
    (items : List Value) : FailsOnly (chainTerms numbered p items) fun e =>
      OperandFault p e ∧ items.any Value.isNull = true ∧
        ¬ (p.op.acceptsNull = true ∧ p.field.isNullable = true) := by
  induction items with
  | nil => exact FailsOnly.pure _
  | cons v rest ih =>
    have hrest := ih.mono fun e he => (⟨he.1, by simp [he.2.1], he.2.2⟩ : OperandFault p e ∧
      (v :: rest).any Value.isNull = true ∧ ¬ (p.op.acceptsNull = true ∧ p.field.isNullable = true))
    rw [chainTerms]
    split
    · next hnull =>
      refine (FailsOnly.lift fun e he => ?_).bind fun _ => hrest.bind fun _ => FailsOnly.pure _
      exact ⟨(nullTerm_fails he).1, by simp [hnull], (nullTerm_fails he).2⟩
    · refine ((scalarTerm_fails hnullary v).mono fun e he => ?_).bind fun _ => hrest.bind fun _ => FailsOnly.pure _
      exact absurd (he.2.symm.trans hrange) (by decide)

/-- Every operator that takes a list in no way of its own holds when it holds for one of the members. -/
theorem chains_of_others {op : Operator} (hnullary : op.isNullary = false) (hequal : op ≠ .equal) (hin : op ≠ .isIn)
    (hnotEqual : op ≠ .notEqual) (hnotIn : op ≠ .notIn) (hbetween : op ≠ .between) (hnotBetween : op ≠ .notBetween)
    (hbitsOr : op ≠ .bitsOr) : op.chains = true ∧ op.isRange = false := by
  cases op with
  | equal | isIn | notEqual | notIn | between | notBetween | bitsOr => contradiction
  | isNull | isNotNull => exact nomatch hnullary
  | _ => exact ⟨rfl, rfl⟩

theorem collection_fails {p : Predicate} (hnullary : p.op.isNullary = false)
    (hsupports : p.field.supports p.op = true) (items : List Value) :
    FailsOnly (collection numbered p items) (ItemsFault p items) := by
  unfold collection
  split
  · exact membership_fails p items false
  · exact membership_fails p items false
  · exact membership_fails p items true
  · exact membership_fails p items true
  · next hop => exact ranges_fails (by rw [hop]; rfl) items false
  · next hop => exact ranges_fails (by rw [hop]; rfl) items true
  · next hop => exact maskTest_fails hop hsupports items
  · next hequal hin hnotEqual hnotIn hbetween hnotBetween hbitsOr =>
    obtain ⟨hchains, hrange⟩ :=
      chains_of_others hnullary hequal hin hnotEqual hnotIn hbetween hnotBetween hbitsOr
    rw [if_neg (by simp [hchains])]
    split
    · exact FailsOnly.pure _
    · refine ((chainTerms_fails hnullary hrange items).mono fun e he => ?_).bind fun _ => FailsOnly.pure _
      exact ⟨he.1, fun hsuits => he.2.2 (hsuits.nulls he.2.1).2⟩

/-! ### Predicates -/

/-- What is wrong with a value when it is compiled was wrong with it when it was checked. -/
theorem valueFragment_fails {p : Predicate} (hsupports : p.field.supports p.op = true) (v : Value) :
    FailsOnly (valueFragment numbered p v) fun e =>
      OperandFault p e ∧ p.field.checkLiteral p.op v ≠ .ok () := by
  unfold valueFragment
  split
  · next hnullary => exact (FailsOnly.lift fun e he => absurd he (nullaryTerm_ok hnullary e)).map
  · next hnullary =>
    have hnullary : p.op.isNullary = false := by simpa using hnullary
    cases v with
    | null =>
      refine (FailsOnly.lift fun e he => ⟨(nullTerm_fails he).1, fun hok => (nullTerm_fails he).2 ?_⟩).map
      rw [FieldPath.checkLiteral, if_neg (by simp [hnullary])] at hok
      exact FieldPath.checkNull_ok hok
    | list items =>
      simp only
      split
      · next hwhole =>
        refine ((scalarTerm_fails hnullary _).mono fun e he => ?_).map
        have hequality : p.op = .equal ∨ p.op = .notEqual := by
          simpa using (Bool.and_eq_true_iff.mp hwhole).2
        rcases hequality with hop | hop
        · exact nomatch hop ▸ he.2
        · exact nomatch hop ▸ he.2
      · next hmembers =>
        have hmembers : (p.field.kind.isList && (p.op == .equal || p.op == .notEqual)) = false := by
          simpa using hmembers
        exact (collection_fails hnullary hsupports items).mono fun e he =>
          ⟨he.1, fun hok => he.2 (FieldPath.suitsItems_of_checkLiteral hnullary hmembers hok)⟩
    | _ =>
      refine ((scalarTerm_fails hnullary _).mono fun e he => ⟨he.1 ▸ .malformedRange 1, fun hok => ?_⟩).map
      simp only [FieldPath.checkLiteral, hnullary, he.2, if_true, Bool.false_eq_true, if_false] at hok
      exact nomatch hok

/-- The request gives no suitable value to the parameter that the predicate refers to. -/
inductive ParamFault (params : ParamSet) (p : Predicate) : CompileError → Prop where
  | unset {name : String} (operand : p.operand = .param name) (unset : params.value? name = none) :
    ParamFault params p (.unsetParameter name)
  | unsuited {name : String} {v : Value} {e : CompileError} (operand : p.operand = .param name)
    (set : params.value? name = some v) (unsuited : p.field.checkLiteral p.op v ≠ .ok ())
    (fault : OperandFault p e) : ParamFault params p e

end Sql

/-- The checks that were made when the predicate was declared. -/
inductive Predicate.Checked (p : Predicate) : Prop where
  | nullary (nullary : p.op.isNullary = true) (operand : p.operand = .none)
  | field {qualifier : String} {path : FieldPath} (operand : p.operand = .field qualifier path)
    (plain : p.foldCase = false) (pair : p.field.checkFieldPair p.op path = .ok ())
  | const {v : Value} (operand : p.operand = .const v)
    (operator : p.field.checkOperator p.op p.foldCase = .ok ()) (literal : p.field.checkLiteral p.op v = .ok ())
  | param {name : String} (operand : p.operand = .param name)
    (operator : p.field.checkOperator p.op p.foldCase = .ok ())

namespace Sql

variable {numbered : Bool} {params : ParamSet}

theorem supports_of_checkOperator {path : FieldPath} {op : Operator} {foldCase : Bool}
    (h : path.checkOperator op foldCase = .ok ()) : path.supports op = true := by
  unfold FieldPath.checkOperator at h
  cases hq : path.checkQueryable with
  | error e =>
    rw [hq] at h
    exact nomatch h
  | ok u =>
    rw [hq] at h
    cases hsupports : path.supports op with
    | true => rfl
    | false =>
      rw [hsupports] at h
      exact nomatch h

/-- A checked predicate fails by its parameter only. -/
theorem fragment_fails {p : Predicate} (h : p.Checked) :
    FailsOnly (fragment numbered params p) (ParamFault params p) := by
  unfold fragment
  cases h with
  | nullary hnullary hoperand =>
    rw [hoperand]
    exact (FailsOnly.lift fun e he => absurd he (nullaryTerm_ok hnullary e)).map
  | field hoperand hplain hpair =>
    rw [hoperand]
    exact (FailsOnly.lift fun e he => absurd he (fieldTerm_ok hplain hpair e)).map
  | const hoperand hoperator hliteral =>
    rw [hoperand]
    exact (valueFragment_fails (supports_of_checkOperator hoperator) _).mono fun e he => absurd hliteral he.2
  | param hoperand hoperator =>
    rw [hoperand]
    simp only
    split
    · next hset =>
      exact (valueFragment_fails (supports_of_checkOperator hoperator) _).mono fun e he =>
        .unsuited hoperand hset he.2 he.1
    · next hunset => exact FailsOnly.throw (.unset hoperand hunset)

/-! ### Conditions -/

theorem treeTokens_fails {E : CompileError → Prop} {t : Tree Predicate}
    (h : ∀ p ∈ t.leaves, FailsOnly (fragment numbered params p) E) (inside : Option Joiner) :
    FailsOnly (treeTokens numbered params inside t) E := by
  induction t generalizing inside with
  | leaf p => exact (h p (List.mem_singleton_self p)).map
  | group t ih => exact (ih h none).map
  | node j members ih =>
    rw [Tree.leaves_node] at h
    have hmembers : FailsOnly (memberTokens numbered params j members) E := by
      induction members with
      | nil => exact FailsOnly.pure _
      | cons t rest ihrest =>
        rw [List.flatMap_cons] at h
        have ht := ih t (List.mem_cons_self ..) (fun p hp => h p (List.mem_append_left _ hp)) (some j)
        have hrest := ihrest (fun u hu => ih u (List.mem_cons_of_mem t hu))
          fun p hp => h p (List.mem_append_right _ hp)
        exact ht.bind fun _ => hrest.bind fun _ => FailsOnly.pure _
    exact hmembers.map

end Sql

/-- A condition of checked predicates. -/
structure Tree.Checked (t : Tree Predicate) : Prop where
  some : t.leaves ≠ []
  leaves : ∀ p ∈ t.leaves, p.Checked

namespace Sql

variable {numbered : Bool} {params : ParamSet}

/-- A condition of checked predicates fails by a parameter of one of them only. -/
theorem condition_fails {t : Tree Predicate} (h : t.Checked) :
    FailsOnly (condition numbered params t) fun e => ∃ p ∈ t.leaves, ParamFault params p e := by
  have hnonempty : t.normalize.isEmpty = false := by
    rw [Tree.isEmpty_normalize]
    exact List.isEmpty_eq_false_iff.mpr h.some
  simp only [condition, hnonempty, Bool.false_eq_true, if_false]
  refine treeTokens_fails (fun p hp => ?_) none
  rw [Tree.leaves_normalize] at hp
  exact (fragment_fails (h.leaves p hp)).mono fun e he => ⟨p, hp, he⟩

end Sql

end DocQuery
