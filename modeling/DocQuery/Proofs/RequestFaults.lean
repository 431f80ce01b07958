import DocQuery.Operation.Statement
import DocQuery.Proofs.Declared

/-! What can go wrong when a request is compiled.

The conditions of a frozen draft and those of a composition's nodes were checked when they were
declared, so that a request can fail by the values of its parameters only
(`request_answered`). -/
namespace DocQuery

open Sql (Compile CompileError Dialect FailsOnly ParamFault compileTree condition?)

/-! ### Answers -/

/-- An error that no checked condition gives, whatever its parameters are. -/
def Sql.CompileError.isUnchecked : CompileError → Bool
  | emptyCondition | flat _ | notNormalized _ | unsupportedOperand _ _ => true
  | operand (.illegalFieldComparison _ _) => true
  | _ => false

/-- A parameter of one of the conditions is at fault. -/
def FaultIn (params : ParamSet) (trees : List (Tree Predicate)) (e : CompileError) : Prop :=
  ∃ t ∈ trees, ∃ p ∈ t.leaves, ParamFault params p e

/-- The answer to a request that compiles the conditions. -/
structure Answered {α : Type} (params : ParamSet) (trees : List (Tree Predicate))
    (answer : Except CompileError α) : Prop where
  /-- It is there, or a parameter is at fault. -/
  fault : ∀ e, answer = .error e → FaultIn params trees e
  checked : ∀ e, answer = .error e → e.isUnchecked = false
  /-- Without parameters it is there. -/
  certain : (∀ t ∈ trees, ∀ p ∈ t.leaves, p.operand.isParam = false) → ∃ a, answer = .ok a

theorem Sql.ParamFault.checked {params : ParamSet} {p : Predicate} {e : CompileError} (h : ParamFault params p e) :
    e.isUnchecked = false := by
  cases h with
  | unset _ _ => rfl
  | unsuited _ _ _ fault => cases fault <;> rfl

theorem Sql.ParamFault.isParam {params : ParamSet} {p : Predicate} {e : CompileError} (h : ParamFault params p e) :
    p.operand.isParam = true := by
  cases h with
  | unset operand _ => rw [operand]; rfl
  | unsuited operand _ _ _ => rw [operand]; rfl

theorem answered_of_fault {α : Type} {params : ParamSet} {trees : List (Tree Predicate)}
    {answer : Except CompileError α} (h : ∀ e, answer = .error e → FaultIn params trees e) :
    Answered params trees answer := by
  refine ⟨h, fun e he => ?_, fun hconst => ?_⟩
  · obtain ⟨t, -, p, -, hfault⟩ := h e he
    exact hfault.checked
  · cases answer with
    | ok a => exact ⟨a, rfl⟩
    | error e =>
      obtain ⟨t, ht, p, hp, hfault⟩ := h e rfl
      exact absurd hfault.isParam (by rw [hconst t ht p hp]; exact Bool.false_ne_true)

/-! ### Statements -/

section Statements

variable {numbered : Bool} {params : ParamSet} {trees : List (Tree Predicate)}

theorem condition?_fails (h : ∀ t ∈ trees, t.Checked) {t : Option (Tree Predicate)} (ht : ∀ u ∈ t, u ∈ trees) :
    FailsOnly (condition? numbered params t) (FaultIn params trees) := by
  cases t with
  | none => exact FailsOnly.pure _
  | some t =>
    have hmem := ht t rfl
    exact ((Sql.condition_fails (h t hmem)).mono fun e he => ⟨t, hmem, he⟩).map

theorem compileContainers_fails {dialect : Dialect} (h : ∀ t ∈ trees, t.Checked)
    {pairs : List (Container × Option (Tree Predicate))} (hpairs : ∀ c ∈ pairs, ∀ t ∈ c.2, t ∈ trees) :
    FailsOnly (Draft.compileContainers dialect params pairs) (FaultIn params trees) := by
  induction pairs with
  | nil => exact FailsOnly.pure _
  | cons pair rest ih =>
    obtain ⟨hpair, hrest⟩ := List.forall_mem_cons.mp hpairs
    exact (condition?_fails h hpair).bind fun _ => (ih hrest).bind fun _ => FailsOnly.pure _

/-- A plan of checked conditions compiles unless a parameter is at fault. -/
theorem compilePlan_fails {d : Draft} {plan : Plan} {dialect : Dialect} (h : ∀ t ∈ plan.conditions, t.Checked)
    {e : CompileError} (he : d.compilePlan plan dialect params = .error e) : FaultIn params plan.conditions e := by
  have hconnect : ∀ c ∈ d.containers.zip plan.connects, ∀ t ∈ c.2, t ∈ plan.conditions := by
    intro c hc t ht
    exact List.mem_append_left _ (List.mem_flatMap.mpr
      ⟨c.2, (List.of_mem_zip hc).2, Option.mem_toList.mpr ht⟩)
  have hfilter : ∀ t ∈ plan.filter, t ∈ plan.conditions :=
    fun t ht => List.mem_append_right _ (Option.mem_toList.mpr ht)
  have hfails : FailsOnly (d.compileConditions plan dialect params) (FaultIn params plan.conditions) :=
    (compileContainers_fails h hconnect).bind fun _ => (condition?_fails h hfilter).bind fun _ => FailsOnly.pure _
  unfold Draft.compilePlan at he
  split at he
  · next hrun =>
    obtain rfl := Except.error.inj he
    exact hfails _ _ _ hrun
  · exact nomatch he

end Statements

theorem compileTree_fails {dialect : Dialect} {params : ParamSet} {t : Tree Predicate} (h : t.Checked)
    {e : CompileError} (he : compileTree dialect params t = .error e) : FaultIn params [t] e := by
  unfold compileTree at he
  split at he
  · exact nomatch he
  · next hrun =>
    obtain rfl := Except.error.inj he
    exact ⟨t, List.mem_singleton_self t, Sql.condition_fails h _ _ _ hrun⟩

/-- **What was checked when it was declared cannot fail in a request, but by the request's
parameters**: a draft that was frozen without error, and the condition of a composition's node. -/
theorem request_answered (dialect : Dialect) (params : ParamSet) :
    (∀ d : Draft, d.Made → d.freeze.result.outcome = .ok () →
      ∃ plan, d.freeze.result.plan? = some plan ∧
        Answered params plan.conditions (d.freeze.result.compile dialect params).result) ∧
    (∀ (schema : Schema) (name : String) (document : Document) (steps : List Step) (c : Composition),
      (Composition.build schema name document steps).result.result = .ok c →
      ∀ i t, c.conditionTree? i = some t → Answered params [t] (compileTree dialect params t)) := by
  refine ⟨fun d hmade hfrozen => ?_, fun schema name document steps c hbuilt i t ht => ?_⟩
  · obtain ⟨plan, hplan⟩ := Draft.plan_of_outcome hfrozen
    have hplan? : d.freeze.result.plan? = some plan := by
      rw [Draft.plan?, hplan]
      rfl
    refine ⟨plan, hplan?, answered_of_fault fun e he => ?_⟩
    unfold Draft.compile at he
    rw [hplan?] at he
    exact compilePlan_fails (hmade.freeze.sound.plan plan hplan) he
  · exact answered_of_fault fun e he => compileTree_fails (Composition.conditionTree?_checked hbuilt ht) he

/-! A filter with a constant and a parameter, and a node with a constant. -/

def ledger : Document where
  path := "books.Ledger"
  name := "Ledger"
  storage := "ledgers"
  fields := [{ name := "amount", storage := "Amount", kind := .int }]

def ledgerCalls : List Edit :=
  [.declare { name := "least", kind := .int },
    .compare .filter "" (.named "amount") .greaterOrEqual (.param "least" false),
    .compare .filter "" (.named "amount") .isIn (.const (.list [.int 3, .int 4]) false)]

def ledgerDraft : Draft :=
  (Draft.forDocument [ledger] ledger .select).editAll ledgerCalls

theorem ledgerDraft_made : ledgerDraft.Made := by
  refine (Draft.Made.forDocument [ledger] ledger .select).editAll fun e he c hc => ?_
  subst hc
  simp [ledgerCalls] at he

/-- A node below another. -/
def ledgerSteps : List Step :=
  [.node "part" ledger [.link (.const (.named "amount") .less (.int 9)) false] false]

theorem request_answered_ledger :
    (ledgerDraft.freeze.result.compile .postgres {}).result = .error (.unsetParameter "least") ∧
      (∃ plan, ledgerDraft.freeze.result.plan? = some plan ∧
        Answered {} plan.conditions (ledgerDraft.freeze.result.compile .postgres {}).result) ∧
      ∃ c t, (Composition.build [ledger] "whole" ledger ledgerSteps).result.result = .ok c ∧
        c.conditionTree? 1 = some t ∧ Answered {} [t] (compileTree .postgres {} t) := by
  have hanswered := request_answered .postgres {}
  have hnode : ∃ c, (Composition.build [ledger] "whole" ledger ledgerSteps).result.result = .ok c ∧
      ∃ t, c.conditionTree? 1 = some t := by
    refine ⟨_, rfl, ?_⟩
    exact ⟨_, rfl⟩
  obtain ⟨c, hc, t, ht⟩ := hnode
  exact ⟨rfl, hanswered.1 ledgerDraft ledgerDraft_made rfl, c, t, hc, ht,
    hanswered.2 [ledger] "whole" ledger ledgerSteps c hc 1 t ht⟩

end DocQuery
