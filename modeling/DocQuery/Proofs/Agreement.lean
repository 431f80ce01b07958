import DocQuery.Proofs.Checked

/-! The check of constants and the compiling of values.

A constant is checked when its condition is declared (`checkLiteral`), and looked at once more when
the condition is compiled; the value of a parameter is looked at only there. Compiling finds no fault
that the check does not find (`valueFragment_returns`). The other direction is here: unless the check
finds a value of another kind, compiling the value stops at the fault that the check tells
(`valueFragment_throws`). So the two agree about every value (`value_checks_agree`). -/
namespace DocQuery

/-- What can be wrong with a value whose kind is right. Both checks tell it alike. -/
inductive ValueFault (path : FieldPath) (op : Operator) : OperandError → Prop where
  | nullOperand : ValueFault path op (.nullOperand path.place op)
  | nullOnNonNullable : ValueFault path op (.nullOnNonNullable path.place)
  | malformedRange (count : Nat) : ValueFault path op (.malformedRange path.place count)

/-- The operand is the value, or a parameter that holds it. -/
inductive Operand.Gives (params : ParamSet) (v : Value) : Operand → Prop where
  | const : Gives params v (.const v)
  | param {name : String} (set : params.value? name = some v) : Gives params v (.param name)

/-! ### What the check of literals finds -/

namespace FieldPath

variable {path : FieldPath} {op : Operator} {e : ConditionError}

/-- The error says that a value is not of the field's kind. -/
def SaysUnsuited (path : FieldPath) (e : ConditionError) : Prop :=
  ∃ value kind, e = .invalidLiteral path.place value kind

theorem not_saysUnsuited_operand (f : OperandError) : ¬ path.SaysUnsuited (.operand f) := by
  rintro ⟨value, kind, h⟩
  cases h

theorem checkKind_error {v : Value} {kind : FieldKind} (h : path.checkKind v kind = .error e) :
    path.SaysUnsuited e := by
  unfold checkKind at h
  split at h
  · exact nomatch h
  · exact ⟨v.label, kind.name, (Except.error.inj h).symm⟩

theorem checkNull_error (h : path.checkNull op = .error e) :
    (op.acceptsNull = false ∧ e = .operand (.nullOperand path.place op)) ∨
      (op.acceptsNull = true ∧ path.isNullable = false ∧ e = .operand (.nullOnNonNullable path.place)) := by
  unfold checkNull at h
  split at h
  · next haccepts => exact .inl ⟨by simpa using haccepts, (Except.error.inj h).symm⟩
  · next haccepts =>
    split at h
    · next hnullable =>
      exact .inr ⟨by simpa using haccepts, by simpa using hnullable, (Except.error.inj h).symm⟩
    · exact nomatch h

/-- What is said about a null among the members of a list. -/
theorem checkItem_null_eq : path.checkItem op .null =
    if op.isRange then .error (.operand (.nullOperand path.place op)) else path.checkNull op := rfl

/-- A list whose members are of the right kind is at fault for its nulls only. -/
theorem checkItems_error {items : List Value} (h : path.checkItems op items = .error e) :
    path.SaysUnsuited e ∨ (items.any Value.isNull = true ∧ path.checkItem op .null = .error e) := by
  induction items with
  | nil => exact nomatch h
  | cons v rest ih =>
    rw [checkItems] at h
    cases hv : path.checkItem op v with
    | ok u =>
      rw [hv] at h
      exact (ih h).imp_right fun hrest => ⟨by simp [hrest.1], hrest.2⟩
    | error f =>
      rw [hv] at h
      obtain rfl := Except.error.inj h
      cases v with
      | null => exact .inr ⟨rfl, hv⟩
      | _ => exact .inl (checkKind_error hv)

/-- The error is about a value's kind, or tells one of the three faults. -/
def FindsFault (path : FieldPath) (op : Operator) (e : ConditionError) : Prop :=
  path.SaysUnsuited e ∨ ∃ f, e = .operand f ∧ ValueFault path op f

theorem checkNull_finds (h : path.checkNull op = .error e) : path.FindsFault op e := by
  obtain ⟨-, rfl⟩ | ⟨-, -, rfl⟩ := checkNull_error h
  · exact .inr ⟨_, rfl, .nullOperand⟩
  · exact .inr ⟨_, rfl, .nullOnNonNullable⟩

theorem checkItem_null_finds (h : path.checkItem op .null = .error e) : path.FindsFault op e := by
  rw [checkItem_null_eq] at h
  split at h
  · exact .inr ⟨_, (Except.error.inj h).symm, .nullOperand⟩
  · exact checkNull_finds h

theorem checkLiteral_finds (hnullary : op.isNullary = false) {v : Value} (h : path.checkLiteral op v = .error e) :
    path.FindsFault op e := by
  unfold checkLiteral at h
  rw [if_neg (by simp [hnullary])] at h
  cases v with
  | null => exact checkNull_finds h
  | list items =>
    simp only at h
    split at h
    · exact .inl (checkKind_error h)
    · split at h
      · exact .inr ⟨_, (Except.error.inj h).symm, .malformedRange _⟩
      · exact (checkItems_error h).elim .inl fun hnull => checkItem_null_finds hnull.2
  | _ =>
    simp only at h
    split at h
    · exact .inr ⟨_, (Except.error.inj h).symm, .malformedRange 1⟩
    · exact .inl (checkKind_error h)

end FieldPath

namespace Sql

variable {numbered : Bool} {params : ParamSet}

/-! ### Computations that work and computations that stop -/

/-- The computation gives something, whatever is bound. -/
def Returns {α : Type} (x : Compile α) : Prop :=
  ∀ bound, ∃ a after, x.run.run bound = (.ok a, after)

/-- The computation stops with the error, whatever is bound. -/
def Throws {α : Type} (x : Compile α) (e : CompileError) : Prop :=
  ∀ bound, ∃ after, x.run.run bound = (.error e, after)

section Rules

variable {α β : Type} {x : Compile α} {e : CompileError}

theorem Returns.of_failsOnly {E : CompileError → Prop} (h : FailsOnly x E) (hnone : ∀ e, ¬ E e) : Returns x := by
  intro bound
  cases hrun : x.run.run bound with
  | mk result after =>
    cases result with
    | ok a => exact ⟨a, after, rfl⟩
    | error e => exact absurd (h bound e after hrun) (hnone e)

theorem Returns.map (h : Returns x) (f : α → β) : Returns (f <$> x) := by
  intro bound
  obtain ⟨a, after, hrun⟩ := h bound
  rw [← bind_pure_comp]
  exact ⟨f a, after, run_bind_of_ok hrun⟩

namespace Throws

theorem throw : Throws (α := α) (throw e) e :=
  fun bound => ⟨bound, rfl⟩

theorem bind (h : Throws x e) (f : α → Compile β) : Throws (x >>= f) e := by
  intro bound
  obtain ⟨after, hrun⟩ := h bound
  exact ⟨after, run_bind_of_error hrun⟩

/-- What works first leaves the error to what comes after it. -/
theorem after {f : α → Compile β} (hx : Returns x) (hf : ∀ a, Throws (f a) e) : Throws (x >>= f) e := by
  intro bound
  obtain ⟨a, middle, hrun⟩ := hx bound
  obtain ⟨after, hrest⟩ := hf a middle
  exact ⟨after, (run_bind_of_ok hrun).trans hrest⟩

theorem map (h : Throws x e) (f : α → β) : Throws (f <$> x) e := by
  rw [← bind_pure_comp]
  exact h.bind fun a => Pure.pure (f a)

theorem lift {x : Except CompileError α} (h : x = .error e) : Throws (liftM x : Compile α) e := by
  subst h
  exact Throws.throw

end Throws

end Rules

/-! ### Values -/

variable {p : Predicate} {e : OperandError} {items : List Value}

theorem nullTerm_error (h : p.field.checkNull p.op = .error (.operand e)) : nullTerm p = .error (.operand e) := by
  unfold nullTerm
  obtain ⟨haccepts, hsays⟩ | ⟨haccepts, hnullable, hsays⟩ := FieldPath.checkNull_error h
  · obtain rfl := ConditionError.operand.inj hsays
    simp [haccepts, nullOperand]
  · obtain rfl := ConditionError.operand.inj hsays
    simp [haccepts, hnullable, nullOnNonNullable]

theorem scalarTerm_throws (hrange : p.op.isRange = true) (v : Value) :
    Throws (scalarTerm numbered p v) (malformedRange p 1) := by
  unfold scalarTerm
  cases hop : p.op <;> simp only [hop, Operator.isRange, Bool.false_eq_true] at hrange
  · exact .throw
  · exact .throw

theorem membership_throws (haccepts : p.op.acceptsNull = true) (hnull : items.any Value.isNull = true)
    (h : p.field.checkNull p.op = .error (.operand e)) (negated : Bool) :
    Throws (membership p items negated) (.operand e) := by
  obtain ⟨hrefuses, -⟩ | ⟨-, hnullable, hsays⟩ := FieldPath.checkNull_error h
  · exact absurd (haccepts.symm.trans hrefuses) (by decide)
  · obtain rfl := ConditionError.operand.inj hsays
    simp only [membership, hnull, hnullable, Bool.not_false, if_true]
    exact .throw

theorem maskTest_throws (haccepts : p.op.acceptsNull = false) (hnull : items.any Value.isNull = true)
    (h : p.field.checkNull p.op = .error (.operand e)) : Throws (maskTest p items) (.operand e) := by
  obtain ⟨-, hsays⟩ | ⟨hcontra, -⟩ := FieldPath.checkNull_error h
  · obtain rfl := ConditionError.operand.inj hsays
    simp only [maskTest, hnull, if_true]
    exact .throw
  · exact absurd (haccepts.symm.trans hcontra) (by decide)

/-- The members before the first null compare without a fault, so that the null is what is told. -/
theorem chainTerms_throws (hnullary : p.op.isNullary = false) (hrange : p.op.isRange = false)
    (hnull : items.any Value.isNull = true) (h : p.field.checkNull p.op = .error (.operand e)) :
    Throws (chainTerms numbered p items) (.operand e) := by
  induction items with
  | nil => exact nomatch hnull
  | cons v rest ih =>
    rw [chainTerms]
    split
    · exact (Throws.lift (nullTerm_error h)).bind _
    · next hv =>
      have hscalar : Returns (scalarTerm numbered p v) :=
        .of_failsOnly (scalarTerm_fails hnullary v) fun _ he => absurd (he.2.symm.trans hrange) (by decide)
      have hrest : rest.any Value.isNull = true := by simpa [hv] using hnull
      exact .after hscalar fun _ => (ih hrest).bind _

theorem collection_of_isRange (numbered : Bool) (h : p.op.isRange = true) (items : List Value) :
    ∃ negated, collection numbered p items = ranges p items negated := by
  unfold collection
  cases hop : p.op <;> simp only [hop, Operator.isRange, Bool.false_eq_true] at h
  · exact ⟨false, rfl⟩
  · exact ⟨true, rfl⟩

/-- An operator that makes no range stops at a null that it cannot be compared with. -/
theorem collection_throws (hnullary : p.op.isNullary = false) (hrange : p.op.isRange = false)
    (hnull : items.any Value.isNull = true) (h : p.field.checkNull p.op = .error (.operand e)) :
    Throws (collection numbered p items) (.operand e) := by
  unfold collection
  split
  · next hop => exact membership_throws (by rw [hop]; rfl) hnull h false
  · next hop => exact membership_throws (by rw [hop]; rfl) hnull h false
  · next hop => exact membership_throws (by rw [hop]; rfl) hnull h true
  · next hop => exact membership_throws (by rw [hop]; rfl) hnull h true
  · next hop => simp [hop, Operator.isRange] at hrange
  · next hop => simp [hop, Operator.isRange] at hrange
  · next hop => exact maskTest_throws (by rw [hop]; rfl) hnull h
  · next hequal hin hnotEqual hnotIn hbetween hnotBetween hbitsOr =>
    have hchains : p.op.chains = true :=
      (chains_of_others hnullary hequal hin hnotEqual hnotIn hbetween hnotBetween hbitsOr).1
    have hsome : items.isEmpty = false := by
      cases items with
      | nil => exact nomatch hnull
      | cons v rest => rfl
    rw [if_neg (by simp [hchains]), if_neg (by simp [hsome])]
    exact (chainTerms_throws hnullary hrange hnull h).bind _

/-- A list stops at what is wrong with its length, or else at a null in it. -/
theorem list_throws (hnullary : p.op.isNullary = false)
    (hmembers : (p.field.kind.isList && (p.op == .equal || p.op == .notEqual)) = false)
    (h : p.field.checkLiteral p.op (.list items) = .error (.operand e)) :
    Throws (collection numbered p items) (.operand e) := by
  simp only [FieldPath.checkLiteral, hnullary, hmembers, Bool.false_eq_true, if_false] at h
  cases hrange : p.op.isRange with
  | true =>
    obtain ⟨negated, hranges⟩ := collection_of_isRange numbered hrange items
    rw [hranges]
    unfold ranges
    rw [hrange, Bool.true_and] at h
    split at h
    · next hmalformed =>
      obtain rfl := ConditionError.operand.inj (Except.error.inj h)
      rw [if_pos hmalformed]
      exact .throw
    · next hformed =>
      obtain ⟨hnull, hitem⟩ := (FieldPath.checkItems_error h).resolve_left (FieldPath.not_saysUnsuited_operand e)
      rw [FieldPath.checkItem_null_eq, if_pos hrange] at hitem
      obtain rfl := ConditionError.operand.inj (Except.error.inj hitem)
      rw [if_neg hformed, if_pos hnull]
      exact .throw
  | false =>
    rw [hrange, Bool.false_and, if_neg Bool.false_ne_true] at h
    obtain ⟨hnull, hitem⟩ := (FieldPath.checkItems_error h).resolve_left (FieldPath.not_saysUnsuited_operand e)
    rw [FieldPath.checkItem_null_eq, if_neg (by simp [hrange])] at hitem
    exact collection_throws hnullary hrange hnull hitem

/-- Compiling a value stops at the fault that the check finds in it. -/
theorem valueFragment_throws (hnullary : p.op.isNullary = false) {v : Value}
    (h : p.field.checkLiteral p.op v = .error (.operand e)) : Throws (valueFragment numbered p v) (.operand e) := by
  unfold valueFragment
  rw [if_neg (by simp [hnullary])]
  cases v with
  | null =>
    rw [FieldPath.checkLiteral, if_neg (by simp [hnullary])] at h
    exact (Throws.lift (nullTerm_error h)).map _
  | list items =>
    simp only
    split
    · next hwhole =>
      simp only [FieldPath.checkLiteral, hnullary, hwhole, Bool.false_eq_true, if_false, if_true] at h
      exact absurd (FieldPath.checkKind_error h) (FieldPath.not_saysUnsuited_operand e)
    · next hmembers => exact list_throws hnullary (by simpa using hmembers) h
  | _ =>
    simp only [FieldPath.checkLiteral, hnullary, Bool.false_eq_true, if_false] at h
    split at h
    · next hrange =>
      obtain rfl := ConditionError.operand.inj (Except.error.inj h)
      exact (scalarTerm_throws hrange _).map _
    · exact absurd (FieldPath.checkKind_error h) (FieldPath.not_saysUnsuited_operand e)

/-- Compiling a value in which the check finds no fault works. -/
theorem valueFragment_returns (hsupports : p.field.supports p.op = true) {v : Value}
    (h : p.field.checkLiteral p.op v = .ok ()) : Returns (valueFragment numbered p v) :=
  .of_failsOnly (valueFragment_fails hsupports v) fun _ he => he.2 h

/-! ### Conditions of one comparison -/

theorem fragment_of_gives {v : Value} (h : p.operand.Gives params v) :
    fragment numbered params p = valueFragment numbered p v := by
  unfold fragment
  generalize p.operand = operand at h
  cases h with
  | const => rfl
  | param hset => simp only [hset]

theorem condition_leaf {v : Value} (h : p.operand.Gives params v) :
    condition numbered params (.leaf p) = Fragment.tokens none <$> valueFragment numbered p v := by
  rw [← fragment_of_gives h]
  rfl

/-- **A constant and the value of a parameter are held to the same rules**, those of the check of
literals. The operator is one that suits the field and takes an operand. Then the check finds a value
that is not of the field's kind; or it finds no fault, and the comparison compiles with the value as
a constant or in a parameter, in every dialect and after whatever was bound before; or it finds one
of the three faults, and compiling stops with the same. -/
theorem value_checks_agree {path : FieldPath} {op : Operator} {foldCase : Bool} (hvalue : op.isNullary = false)
    (haccepted : path.checkOperator op foldCase = .ok ()) (v : Value) :
    (∃ value kind, path.checkLiteral op v = .error (.invalidLiteral path.place value kind)) ∨
    (path.checkLiteral op v = .ok () ∧
      ∀ (d : Dialect) (params : ParamSet) (qualifier : String) (operand : Operand), operand.Gives params v →
        Returns (condition d.numbered params (.leaf ⟨qualifier, path, op, operand, foldCase⟩))) ∨
    ∃ e, ValueFault path op e ∧ path.checkLiteral op v = .error (.operand e) ∧
      ∀ (d : Dialect) (params : ParamSet) (qualifier : String) (operand : Operand), operand.Gives params v →
        Throws (condition d.numbered params (.leaf ⟨qualifier, path, op, operand, foldCase⟩)) (.operand e) := by
  cases hcheck : path.checkLiteral op v with
  | ok u =>
    refine .inr (.inl ⟨rfl, fun d params qualifier operand hgives => ?_⟩)
    rw [condition_leaf hgives]
    exact (valueFragment_returns (supports_of_checkOperator haccepted) hcheck).map _
  | error e =>
    obtain ⟨value, kind, rfl⟩ | ⟨f, rfl, hfault⟩ := FieldPath.checkLiteral_finds hvalue hcheck
    · exact .inl ⟨value, kind, rfl⟩
    · refine .inr (.inr ⟨f, hfault, rfl, fun d params qualifier operand hgives => ?_⟩)
      rw [condition_leaf hgives]
      exact (valueFragment_throws hvalue hcheck).map _

/-! A range of three bounds, and a list with a null for a field that may be null. -/

def size : Field := { name := "size", storage := "Size", kind := .int }

def topic : Field := { name := "topic", storage := "Topic", kind := .text, nullable := true }

def notice : Document where
  path := "post.Notice"
  name := "Notice"
  storage := "notices"
  fields := [size, topic]

def noticeSize : FieldPath := ⟨notice, [⟨notice, size⟩], List.cons_ne_nil _ _⟩

def noticeTopic : FieldPath := ⟨notice, [⟨notice, topic⟩], List.cons_ne_nil _ _⟩

theorem value_checks_agree_notice :
    (Operator.between.isNullary = false ∧ noticeSize.checkOperator .between false = .ok () ∧
      ∀ (d : Dialect) (params : ParamSet) (name : String),
        params.value? name = some (.list [.int 1, .int 2, .int 3]) →
        Throws (condition d.numbered params (.leaf ⟨"", noticeSize, .between, .param name, false⟩))
          (.operand (.malformedRange ⟨"post.Notice", "size"⟩ 3))) ∧
    (Operator.isIn.isNullary = false ∧ noticeTopic.checkOperator .isIn true = .ok () ∧
      ∀ (d : Dialect) (params : ParamSet),
        Returns (condition d.numbered params
          (.leaf ⟨"", noticeTopic, .isIn, .const (.list [.text "Late", .null]), true⟩))) := by
  refine ⟨⟨rfl, rfl, fun d params name hset => ?_⟩, rfl, rfl, fun d params => ?_⟩
  · have hcheck : noticeSize.checkLiteral .between (.list [.int 1, .int 2, .int 3]) =
        .error (.operand (.malformedRange ⟨"post.Notice", "size"⟩ 3)) := rfl
    have haccepted : noticeSize.checkOperator .between false = .ok () := rfl
    obtain ⟨value, kind, h⟩ | ⟨h, -⟩ | ⟨e, -, h, hthrows⟩ :=
      value_checks_agree rfl haccepted (.list [.int 1, .int 2, .int 3])
    · exact nomatch hcheck.symm.trans h
    · exact nomatch hcheck.symm.trans h
    · obtain rfl := ConditionError.operand.inj (Except.error.inj (hcheck.symm.trans h))
      exact hthrows d params "" _ (.param hset)
  · have hcheck : noticeTopic.checkLiteral .isIn (.list [.text "Late", .null]) = .ok () := rfl
    have haccepted : noticeTopic.checkOperator .isIn true = .ok () := rfl
    obtain ⟨value, kind, h⟩ | ⟨-, hreturns⟩ | ⟨e, -, h, -⟩ :=
      value_checks_agree rfl haccepted (.list [.text "Late", .null])
    · exact nomatch hcheck.symm.trans h
    · exact hreturns d params "" _ .const
    · exact nomatch hcheck.symm.trans h

end Sql

end DocQuery
