import DocQuery.Proofs.Alignment
import DocQuery.Sql.Settings
import Mathlib.Data.List.Forall2
import Mathlib.Data.List.TakeWhile

/-! Values that conditions leave bound when they fail.

Compiling goes from predicate to predicate up to the first that fails, and what was bound by then
stays bound: the values of the predicates before it, and those of its own items before the null that
it fails at (`spent`). `Binds` says so of a computation wherever it starts, with `Binds.bind` as the
rule for one after another, and `Visits` of one that goes through a list. `compileEach_binds` is what
follows for conditions that are compiled one after the other. -/
namespace DocQuery.Sql

open DocQuery.Symbol Placed

variable {α β γ ι : Type}

/-! ### Computations that may fail -/

/-- Wherever it starts, the computation succeeds or not as told and binds the slots' values in either case. -/
def Binds (x : Compile α) (ok : Bool) (slots : List Slot) : Prop :=
  ∀ bound : Array Value, (x.run.run bound).1.isOk = ok ∧
    (x.run.run bound).2.toList = bound.toList ++ slots.map Slot.value

namespace Binds

variable {x : Compile α} {ok ok' : Bool} {slots more : List Slot}

theorem pure (a : α) : Binds (Pure.pure a) true [] :=
  fun _ => ⟨rfl, (List.append_nil _).symm⟩

theorem throw (e : CompileError) : Binds (α := α) (throw e) false [] :=
  fun _ => ⟨rfl, (List.append_nil _).symm⟩

theorem lift (x : Except CompileError α) : Binds (liftM x : Compile α) x.isOk [] := by
  cases x with
  | ok a => exact pure a
  | error e => exact throw e

theorem one (v : Value) : Binds (Sql.bind v) true [⟨v, 1⟩] :=
  fun _ => ⟨rfl, Array.toList_push ..⟩

/-- One computation after another, which is not reached if the first fails. -/
theorem bind {k : α → Compile β} (hx : Binds x ok slots) (hk : ∀ a, Binds (k a) ok' more) :
    Binds (x >>= k) (ok && ok') (slots ++ if ok then more else []) := by
  intro bound
  obtain ⟨hok, hbound⟩ := hx bound
  cases hrun : x.run.run bound with
  | mk result after =>
    rw [hrun] at hok hbound
    cases result with
    | error e =>
      obtain rfl : false = ok := hok
      rw [run_bind_of_error hrun, if_neg Bool.false_ne_true, List.append_nil]
      exact ⟨rfl, hbound⟩
    | ok a =>
      obtain rfl : true = ok := hok
      obtain ⟨hok', hmore⟩ := hk a after
      rw [run_bind_of_ok hrun, if_pos rfl, List.map_append, ← List.append_assoc, ← hbound]
      exact ⟨hok', hmore⟩

theorem map (hx : Binds x ok slots) (f : α → β) : Binds (f <$> x) ok slots := by
  have hbind := hx.bind fun a => pure (f a)
  rw [Bool.and_true, ite_self, List.append_nil, bind_pure_comp] at hbind
  exact hbind

end Binds

/-- If the computation fails, it leaves the slots' values bound. -/
def Spends (x : Compile α) (slots : List Slot) : Prop :=
  ∀ (bound after : Array Value) (e : CompileError), x.run.run bound = (.error e, after) →
    after.toList = bound.toList ++ slots.map Slot.value

namespace Spends

variable {x : Compile α} {ok : Bool} {slots done : List Slot}

theorem of_binds (h : Binds x ok slots) : Spends x slots := by
  intro bound after e hrun
  have hbound := (h bound).2
  rwa [hrun] at hbound

/-- What does not fail leaves nothing. -/
theorem of_total (h : Binds x true done) : Spends x slots := by
  intro bound after e hrun
  have hok := (h bound).1
  rw [hrun] at hok
  exact nomatch hok

theorem throw (e : CompileError) : Spends (α := α) (throw e) [] :=
  of_binds (.throw e)

theorem lift (x : Except CompileError α) : Spends (liftM x : Compile α) [] :=
  of_binds (.lift x)

theorem map (h : Spends x slots) (f : α → β) : Spends (f <$> x) slots := by
  intro bound after e hrun
  rw [← bind_pure_comp] at hrun
  rcases run_bind_error hrun with hfirst | ⟨a, middle, -, hrest⟩
  · exact h bound after e hfirst
  · exact nomatch (Prod.mk.inj hrest).1

/-- With what the computation writes when it succeeds, it is known what it binds. -/
theorem binds [Placed α] (h : Spends x slots) (hwrites : Writes x done) :
    Binds x (x.run.run #[]).1.isOk (if (x.run.run #[]).1.isOk then done else slots) := by
  obtain ⟨result, values, hrun, hok⟩ := hwrites
  have hisOk : ∀ bound : Array Value, (x.run.run bound).1.isOk = result.isOk := by
    intro bound
    rw [hrun]
    cases result <;> rfl
  intro bound
  refine ⟨(hisOk bound).trans (hisOk #[]).symm, ?_⟩
  rw [hisOk]
  cases result with
  | ok a =>
    rw [hrun, Array.toList_append, (hok a rfl).1]
    rfl
  | error e => exact h bound _ e (by rw [hrun]; rfl)

end Spends

/-! ### One after another -/

/-- What the members of a list bind, up to the first that fails. -/
def upTo (ok : ι → Bool) (done left : ι → List Slot) : List ι → List Slot
  | [] => []
  | i :: rest => if ok i then done i ++ upTo ok done left rest else left i

variable {ok : ι → Bool} {done left : ι → List Slot}

theorem upTo_append (first rest : List ι) :
    upTo ok done left (first ++ rest) =
      upTo ok done left first ++ if first.all ok then upTo ok done left rest else [] := by
  induction first with
  | nil => rfl
  | cons i more ih =>
    rw [List.cons_append, upTo, upTo, List.all_cons]
    by_cases hi : ok i = true
    · rw [if_pos hi, if_pos hi, ih, hi, Bool.true_and, List.append_assoc]
    · rw [if_neg hi, if_neg hi, if_neg (by simp [hi]), List.append_nil]

theorem upTo_of_all {items : List ι} (h : items.all ok = true) : upTo ok done left items = items.flatMap done := by
  induction items with
  | nil => rfl
  | cons i rest ih =>
    rw [List.all_cons, Bool.and_eq_true] at h
    rw [upTo, if_pos h.1, ih h.2, List.flatMap_cons]

theorem upTo_nil (items : List ι) : upTo ok done (fun _ => []) items = (items.takeWhile ok).flatMap done := by
  induction items with
  | nil => rfl
  | cons i rest ih =>
    rw [upTo, List.takeWhile_cons, ih]
    split <;> rfl

/-- The computation goes through the items in their order, up to the first that fails. -/
def Visits (ok : ι → Bool) (done left : ι → List Slot) (x : Compile α) (items : List ι) : Prop :=
  Binds x (items.all ok) (upTo ok done left items)

namespace Visits

variable {x : Compile α} {y : Compile β} {items more : List ι}

theorem pure (a : α) : Visits ok done left (Pure.pure a) [] := Binds.pure a

theorem single {i : ι} (h : Binds x (ok i) (if ok i then done i else left i)) : Visits ok done left x [i] := by
  rw [Visits, upTo, upTo, List.append_nil, List.all_cons, List.all_nil, Bool.and_true]
  exact h

theorem map (h : Visits ok done left x items) (f : α → β) : Visits ok done left (f <$> x) items := Binds.map h f

theorem both (hx : Visits ok done left x items) (hy : Visits ok done left y more) (f : α → β → γ) :
    Visits ok done left (do let a ← x; let b ← y; return f a b) (items ++ more) := by
  have hboth := Binds.bind hx fun a => Binds.map hy (f a)
  simp only [map_eq_pure_bind] at hboth
  rw [Visits, List.all_append, upTo_append]
  exact hboth

end Visits

/-! ### Predicates -/

section Predicates

variable (numbered : Bool) (params : ParamSet)

/-- The value that a predicate compares with. -/
def given? (p : Predicate) : Option Value :=
  match p.operand with
  | .const v => some v
  | .param name => params.value? name
  | _ => none

/-- What a comparison with the value has bound when it fails. Items that are compared one by one are bound up
to a null; otherwise nothing is bound before everything was looked at. -/
def spentOn (p : Predicate) : Value → List Slot
  | .list items => if p.op.chains then (items.takeWhile fun v => !v.isNull).flatMap (slotsOf numbered p.op) else []
  | _ => []

/-- What a predicate has bound when it fails. -/
def spent (p : Predicate) : List Slot :=
  ((given? params p).map (spentOn numbered p)).getD []

/-- The predicate can be compiled. -/
def compiles (p : Predicate) : Bool :=
  ((fragment numbered params p).run.run #[]).1.isOk

end Predicates

variable {numbered : Bool} {params : ParamSet}

theorem scalarTerm_spends (p : Predicate) (v : Value) : Spends (scalarTerm numbered p v) [] := by
  unfold scalarTerm
  split
  · exact .throw _
  · exact .throw _
  · cases numbered with
    | true => exact .of_total (.bind (.one v) fun _ => .pure _)
    | false => exact .of_total (.bind (.one v) fun _ => .bind (.one v) fun _ => .pure _)
  · exact .of_total (.bind (.one v) fun _ => .pure _)
  · split
    · exact .of_total (.bind (.one v) fun _ => .pure _)
    · exact .throw _

/-- An operator that is used item by item is used with any value. -/
theorem scalarTerm_binds {p : Predicate} (h : p.op.chains = true) (v : Value) :
    Binds (scalarTerm numbered p v) true (slotsOf numbered p.op v) := by
  have hok : ((scalarTerm numbered p v).run.run #[]).1.isOk = true := by
    unfold scalarTerm
    cases hop : p.op <;> rw [hop] at h <;> cases h
    case bitsAnd => cases numbered <;> rfl
    all_goals rfl
  have hwrites : Writes (scalarTerm numbered p v) (slotsOf numbered p.op v) := scalarTerm_writes p v
  have hbinds := (scalarTerm_spends p v).binds hwrites
  rwa [hok] at hbinds

/-- Items are gone through up to a null that cannot be tested for. -/
theorem chainTerms_visits {p : Predicate} (h : p.op.chains = true) (items : List Value) :
    Visits (fun v => !v.isNull || (nullTerm p).isOk) (fun v => if v.isNull then [] else slotsOf numbered p.op v)
      (fun _ => []) (chainTerms numbered p items) items := by
  induction items with
  | nil => exact .pure _
  | cons v rest ih =>
    have hrest : ∀ {x : Compile Term}, Visits _ _ _ x [v] →
        Visits _ _ _ (do let t ← x; let terms ← chainTerms numbered p rest; return t :: terms) (v :: rest) :=
      fun hx => Visits.both hx ih List.cons
    rw [chainTerms]
    split
    · next hnull =>
      refine hrest (.single ?_)
      simpa [hnull] using Binds.lift (nullTerm p)
    · next hnull =>
      refine hrest (.single ?_)
      simpa [hnull] using scalarTerm_binds h v

theorem membership_spends (p : Predicate) (items : List Value) (negated : Bool) :
    Spends (membership p items negated) [] := by
  rw [membership_eq]
  split
  · split
    · exact .throw _
    · split
      · exact .of_total (.pure _)
      · exact .of_total (.bind (.one _) fun _ => .pure _)
  · exact .of_total (.bind (.one _) fun _ => .pure _)

theorem rangeTerms_total (p : Predicate) (negated parens : Bool) (items : List Value) :
    ∃ slots, Binds (rangeTerms p negated parens items) true slots := by
  match items with
  | [] => exact ⟨[], .pure _⟩
  | [_] => exact ⟨[], .pure _⟩
  | low :: high :: rest =>
    obtain ⟨_, hrest⟩ := rangeTerms_total p negated parens rest
    exact ⟨_, .bind (.one low) fun _ => .bind (.one high) fun _ => .bind hrest fun _ => .pure _⟩

theorem ranges_spends (p : Predicate) (items : List Value) (negated : Bool) : Spends (ranges p items negated) [] := by
  unfold ranges
  split
  · exact .throw _
  · split
    · exact .throw _
    · obtain ⟨_, hterms⟩ := rangeTerms_total p negated (items.length / 2 > 1) items
      exact .of_total (.bind hterms fun _ => .pure _)

theorem maskTest_spends (p : Predicate) (items : List Value) : Spends (maskTest p items) [] := by
  unfold maskTest
  split
  · exact .throw _
  · split
    · exact .of_total (.bind (.one _) fun _ => .pure _)
    · exact .throw _

/-- If a chain fails, it does so at its first null. -/
theorem chainTerms_spends {p : Predicate} (h : p.op.chains = true) (items : List Value) :
    Spends (chainTerms numbered p items)
      ((items.takeWhile fun v => !v.isNull).flatMap (slotsOf numbered p.op)) := by
  intro bound after e hrun
  have hvisits : Visits _ _ _ (chainTerms numbered p items) items := chainTerms_visits h items
  obtain ⟨hok, hbound⟩ := hvisits bound
  rw [hrun] at hok hbound
  -- A null fails like every other, so the first that the chain meets is where it stops.
  have hfails : (nullTerm p).isOk = false := by
    obtain ⟨v, -, hv⟩ := List.all_eq_false.mp hok.symm
    exact (Bool.or_eq_false_iff.mp (Bool.not_eq_true _ ▸ hv)).2
  have hnull : (fun v : Value => !v.isNull || (nullTerm p).isOk) = fun v => !v.isNull :=
    funext fun v => by rw [hfails, Bool.or_false]
  rw [hbound, hnull, upTo_nil]
  refine congrArg (fun slots => bound.toList ++ slots.map Slot.value) (List.flatMap_congr fun v hv => if_neg ?_)
  simpa using List.mem_takeWhile_imp hv

/-- What fails with a list of values: only a chain binds some of them first. -/
theorem collection_spends (p : Predicate) (items : List Value) :
    Spends (collection numbered p items)
      (if p.op.chains then (items.takeWhile fun v => !v.isNull).flatMap (slotsOf numbered p.op) else []) := by
  have hchain : Spends (if !p.op.chains then throw (unsupported p)
      else if items.isEmpty then return Fragment.single .never
      else do
        let terms ← chainTerms numbered p items
        return Fragment.mk .or terms)
      (if p.op.chains then (items.takeWhile fun v => !v.isNull).flatMap (slotsOf numbered p.op) else []) := by
    cases hchains : p.op.chains with
    | false => exact .throw _
    | true =>
      show Spends (if items.isEmpty then _ else _) _
      split
      · exact .of_total (.pure _)
      · rw [if_pos rfl]
        simpa only [bind_pure_comp] using (chainTerms_spends hchains items).map (Fragment.mk .or)
  unfold collection
  -- The operators that have a form for lists look at every item before they bind.
  cases hop : p.op
  case equal | isIn => exact membership_spends p items false
  case notEqual | notIn => exact membership_spends p items true
  case between => exact ranges_spends p items false
  case notBetween => exact ranges_spends p items true
  case bitsOr => exact maskTest_spends p items
  all_goals
    rw [hop] at hchain
    exact hchain

theorem spentOn_of_not_chains {p : Predicate} (h : p.op.chains = false) (v : Value) : spentOn numbered p v = [] := by
  cases v with
  | list items => exact if_neg (Bool.not_eq_true _ ▸ h)
  | _ => rfl

theorem not_chains_of_isNullary {op : Operator} (h : op.isNullary = true) : op.chains = false := by
  cases op <;> first | rfl | exact absurd h Bool.false_ne_true

theorem valueFragment_spends (p : Predicate) (v : Value) :
    Spends (valueFragment numbered p v) (spentOn numbered p v) := by
  unfold valueFragment
  split
  · next hnullary =>
    rw [spentOn_of_not_chains (not_chains_of_isNullary hnullary)]
    exact (Spends.lift _).map _
  · cases v with
    | null => exact (Spends.lift _).map _
    | list items =>
      simp only
      split
      · next hwhole =>
        have hchains : p.op.chains = false := by
          simp only [Bool.and_eq_true, Bool.or_eq_true, beq_iff_eq] at hwhole
          rcases hwhole.2 with hop | hop <;> rw [hop] <;> rfl
        rw [spentOn_of_not_chains hchains]
        exact (scalarTerm_spends p _).map _
      · exact collection_spends p items
    | _ => exact (scalarTerm_spends p _).map _

theorem fragment_spends (p : Predicate) : Spends (fragment numbered params p) (spent numbered params p) := by
  unfold fragment spent given?
  cases p.operand with
  | none => exact (Spends.lift _).map _
  | field qualifier path => exact (Spends.lift _).map _
  | const v => exact valueFragment_spends p v
  | param name =>
    simp only
    cases params.value? name with
    | none => exact .throw _
    | some v => exact valueFragment_spends p v

theorem fragment_visits (p : Predicate) :
    Visits (compiles numbered params) (slots numbered params) (spent numbered params) (fragment numbered params p) [p] :=
  .single ((fragment_spends p).binds (fragment_writes p))

/-! ### Conditions -/

theorem treeTokens_visits (inside : Option Joiner) (t : Tree Predicate) :
    Visits (compiles numbered params) (slots numbered params) (spent numbered params)
      (treeTokens numbered params inside t) t.leaves := by
  induction t generalizing inside with
  | leaf p => exact (fragment_visits p).map _
  | group t ih => exact (ih none).map _
  | node j members ih =>
    have hmembers : Visits (compiles numbered params) (slots numbered params) (spent numbered params)
        (memberTokens numbered params j members) (members.flatMap Tree.leaves) := by
      induction members with
      | nil => exact .pure _
      | cons t rest ihrest =>
        have hrest := ihrest fun u hu => ih u (List.mem_cons_of_mem t hu)
        rw [List.flatMap_cons]
        exact (ih t (List.mem_cons_self ..) (some j)).both hrest _
    rw [Tree.leaves_node]
    exact hmembers.map _

section Conditions

variable (numbered : Bool) (params : ParamSet)

/-- The condition has predicates, and all of them compile. -/
def succeeds (t : Tree Predicate) : Bool :=
  !t.leaves.isEmpty && t.leaves.all (compiles numbered params)

/-- What compiling the condition binds, up to the first predicate that does not compile. -/
def boundBy (t : Tree Predicate) : List Slot :=
  upTo (compiles numbered params) (slots numbered params) (spent numbered params) t.leaves

end Conditions

theorem boundBy_of_succeeds {t : Tree Predicate} (h : succeeds numbered params t = true) :
    boundBy numbered params t = t.leaves.flatMap (slots numbered params) :=
  upTo_of_all (Bool.and_eq_true_iff.mp h).2

theorem condition_binds (t : Tree Predicate) :
    Binds (condition numbered params t) (succeeds numbered params t) (boundBy numbered params t) := by
  unfold condition
  simp only [Tree.isEmpty_normalize]
  split
  · next hempty =>
    rw [succeeds, boundBy, hempty, List.isEmpty_iff.mp hempty]
    exact .throw _
  · next hempty =>
    have hvisits : Visits _ _ _ (treeTokens numbered params none t.normalize) t.normalize.leaves :=
      treeTokens_visits none t.normalize
    rw [Tree.leaves_normalize] at hvisits
    rw [succeeds, Bool.eq_false_iff.mpr hempty]
    exact hvisits

/-! ### Conditions one after the other -/

section Sequences

variable (numbered : Bool) (params : ParamSet) (trees : List (Tree Predicate))

/-- The slots of the conditions that succeed. -/
def kept : List Slot :=
  (trees.filter (succeeds numbered params)).flatMap fun t => t.leaves.flatMap (slots numbered params)

/-- What the conditions that fail leave bound. -/
def leftovers : List Slot :=
  (trees.filter fun t => !succeeds numbered params t).flatMap (boundBy numbered params)

theorem kept_eq : kept numbered params trees =
    (trees.filter (succeeds numbered params)).flatMap (boundBy numbered params) :=
  List.flatMap_congr fun _ ht => (boundBy_of_succeeds (List.mem_filter.mp ht).2).symm

theorem length_boundBy : (trees.flatMap (boundBy numbered params)).length =
    (kept numbered params trees).length + (leftovers numbered params trees).length := by
  rw [kept_eq, leftovers]
  induction trees with
  | nil => rfl
  | cons t rest ih =>
    rw [List.flatMap_cons, List.length_append, ih, List.filter_cons, List.filter_cons]
    cases succeeds numbered params t <;> simp <;> omega

theorem flatMap_filter {f : ι → List β} {p : ι → Bool} {items : List ι}
    (h : (items.filter fun i => !p i).flatMap f = []) : items.flatMap f = (items.filter p).flatMap f := by
  induction items with
  | nil => rfl
  | cons i rest ih =>
    cases hp : p i with
    | true =>
      rw [List.filter_cons_of_neg (by simp [hp])] at h
      rw [List.filter_cons_of_pos hp, List.flatMap_cons, List.flatMap_cons, ih h]
    | false =>
      rw [List.filter_cons_of_pos (by simp [hp]), List.flatMap_cons, List.append_eq_nil_iff] at h
      rw [List.filter_cons_of_neg (by simp [hp]), List.flatMap_cons, h.1, ih h.2, List.nil_append]

/-- The values are those of the conditions that succeed just when none that fails leaves any. -/
theorem boundBy_eq_kept_iff :
    (trees.flatMap (boundBy numbered params)).map Slot.value = (kept numbered params trees).map Slot.value ↔
      leftovers numbered params trees = [] := by
  constructor
  · intro h
    have hlength := congrArg List.length h
    rw [List.length_map, List.length_map, length_boundBy] at hlength
    exact List.length_eq_zero_iff.mp (by omega)
  · intro h
    rw [kept_eq, flatMap_filter h]

end Sequences

/-- Compiling conditions one after the other gives for each its tokens or an error, and binds what each binds. -/
theorem compileEach_results (numbered : Bool) (params : ParamSet) (trees : List (Tree Predicate)) :
    ∃ (results : List (Except CompileError (List Token))) (values : Array Value),
      (∀ (d : Dialect) (bound : Array Value), d.numbered = numbered →
        compileEach d params bound trees =
          (results.map (Except.map fun tokens => render d (raise bound.size tokens)), bound ++ values)) ∧
      values.toList = (trees.flatMap (boundBy numbered params)).map Slot.value ∧
      List.Forall₂ (fun t r => r.isOk = succeeds numbered params t ∧
        ∀ tokens, r = .ok tokens →
          (places tokens).length = (placesFrom 0 (t.leaves.flatMap (slots numbered params))).length) trees results := by
  induction trees with
  | nil =>
    refine ⟨[], #[], fun d bound _ => ?_, rfl, .nil⟩
    rw [Array.append_empty]
    rfl
  | cons t rest ih =>
    have hcondition : Writes (condition numbered params t) (t.leaves.flatMap (slots numbered params)) :=
      condition_writes t
    obtain ⟨result, values, hrun, hok⟩ := hcondition
    obtain ⟨results, more, hrest, hmore, heach⟩ := ih
    have hbinds : Binds (condition numbered params t) _ _ := condition_binds t
    obtain ⟨hsucceeds, hvalues⟩ := hbinds #[]
    rw [hrun] at hsucceeds hvalues
    refine ⟨result :: results.map (Except.map (raise values.size)), values ++ more, compileEach_cons hrun hrest,
      ?_, .cons ⟨?_, fun tokens htokens => ?_⟩ (List.forall₂_map_right_iff.mpr (heach.imp fun u r hr => ⟨?_, ?_⟩))⟩
    · rw [Array.empty_append] at hvalues
      rw [Array.toList_append, hvalues, hmore, List.flatMap_cons, List.map_append]
      rfl
    · rw [← hsucceeds]
      cases result <;> rfl
    · rw [(hok tokens htokens).2]
    · rw [← hr.1]
      cases r <;> rfl
    · intro tokens htokens
      cases r with
      | error e => exact nomatch htokens
      | ok given =>
        obtain rfl := Except.ok.inj htokens
        rw [places_raise, List.length_map, hr.2 given rfl]

/-- The places in the texts that were given. -/
def placesGiven (parts : List (Except CompileError (List Piece))) : List Nat :=
  parts.flatMap fun part => (part.toOption.map placesIn).getD []

/-- Where a place is written once for each value, the texts have as many places as the conditions that succeed
have slots. -/
theorem length_placesGiven {params : ParamSet} {d : Dialect} (hpositional : d.numbered = false)
    {trees : List (Tree Predicate)} {results : List (Except CompileError (List Token))}
    (h : List.Forall₂ (fun t r => r.isOk = succeeds d.numbered params t ∧
      ∀ tokens, r = .ok tokens →
        (places tokens).length = (placesFrom 0 (t.leaves.flatMap (slots d.numbered params))).length) trees results) :
    (placesGiven (results.map (Except.map (pieces d)))).length = (kept d.numbered params trees).length := by
  have honce : ∀ t : Tree Predicate, ∀ s ∈ t.leaves.flatMap (slots d.numbered params), s.times = 1 := by
    intro t s hs
    obtain ⟨p, -, hs⟩ := List.mem_flatMap.mp hs
    rw [times_slots hs, if_neg fun hboth => Bool.false_ne_true (hpositional.symm.trans hboth.2)]
  induction h with
  | nil => rfl
  | @cons t r trees results hr _ ih =>
    rw [List.map_cons, placesGiven, List.flatMap_cons, List.length_append]
    cases r with
    | error e =>
      have hfails : succeeds d.numbered params t = false := hr.1.symm
      rw [kept, List.filter_cons_of_neg (by simp [hfails])]
      exact (Nat.zero_add _).trans ih
    | ok tokens =>
      have hsucceeds : succeeds d.numbered params t = true := hr.1.symm
      have hplaces := hr.2 tokens rfl
      rw [length_placesFrom (honce t)] at hplaces
      rw [kept, List.filter_cons_of_pos hsucceeds, List.flatMap_cons, List.length_append]
      refine congrArg₂ (· + ·) ?_ ih
      exact (congrArg List.length (placesIn_pieces tokens)).trans hplaces

/-- **What a failing condition bound stays bound.** Conditions that are compiled one after the other give texts where
every predicate compiles, and bind what each binds up to its first predicate that does not compile. So what is bound
are the values of the conditions that succeed if no other has bound any, and placeholders that name no place are as
many as the values but for those left over. -/
theorem leftovers_stay (d : Dialect) (params : ParamSet) (trees : List (Tree Predicate)) :
    ∃ (parts : List (Except CompileError (List Piece))) (bound : Array Value),
      (∀ placeholder, compileEach { d with placeholder := placeholder } params #[] trees =
        (parts.map (Except.map (fill placeholder)), bound)) ∧
      parts.map Except.isOk = trees.map (succeeds d.numbered params) ∧
      bound.toList = (trees.flatMap (boundBy d.numbered params)).map Slot.value ∧
      (bound.toList = (kept d.numbered params trees).map Slot.value ↔ leftovers d.numbered params trees = []) ∧
      (d.numbered = false →
        (placesGiven parts).length + (leftovers d.numbered params trees).length = bound.size) := by
  obtain ⟨results, values, hrun, hvalues, heach⟩ := compileEach_results d.numbered params trees
  refine ⟨results.map (Except.map (pieces d)), values, fun placeholder => ?_, ?_, hvalues, ?_, fun hpositional => ?_⟩
  · rw [hrun { d with placeholder := placeholder } #[] rfl, Array.empty_append, List.map_map]
    refine Prod.ext (List.map_congr_left fun result _ => ?_) rfl
    cases result with
    | error e => rfl
    | ok tokens =>
      show Except.ok (render { d with placeholder := placeholder } (raise 0 tokens)) = _
      rw [raise_zero, render_eq_fill, pieces_withPlaceholder]
      rfl
  · refine ((congrFun (congrFun List.forall₂_eq_eq_eq _) _).mp ?_).symm
    refine List.forall₂_map_left_iff.mpr (List.forall₂_map_right_iff.mpr (List.forall₂_map_right_iff.mpr ?_))
    refine heach.imp fun t result hresult => hresult.1.symm.trans ?_
    cases result <;> rfl
  · rw [hvalues, boundBy_eq_kept_iff]
  · rw [length_placesGiven hpositional heach, ← length_boundBy, ← Array.length_toList, hvalues, List.length_map]

/-! A condition that fails at a parameter without value, one that fails at a null in a list, and one that
succeeds. -/

def rowField : Field := { name := "row", storage := "Row", kind := .int }

def hallSeat : Document where
  path := "hall.Seat"
  name := "Seat"
  storage := "seats"
  fields := [rowField]

def rowCompared (op : Operator) (operand : Operand) : Tree Predicate :=
  .leaf { qualifier := "s", field := ⟨hallSeat, [⟨hallSeat, rowField⟩], List.cons_ne_nil _ _⟩, op, operand }

def unsetRow : Tree Predicate :=
  .node .and [rowCompared .equal (.const (.int 1)), rowCompared .equal (.param "row")]

def rowsUpToNull : Tree Predicate :=
  rowCompared .greaterOrEqual (.const (.list [.int 4, .int 5, .null, .int 6]))

def secondRow : Tree Predicate :=
  rowCompared .equal (.const (.int 2))

def questionMarks : Dialect :=
  Settings.dialect { placeholder := .question }

theorem leftovers_stay_rows :
    ∃ (parts : List (Except CompileError (List Piece))) (bound : Array Value),
      (∀ placeholder, compileEach { questionMarks with placeholder := placeholder } {} #[]
        [unsetRow, rowsUpToNull, secondRow] = (parts.map (Except.map (fill placeholder)), bound)) ∧
      parts.map Except.isOk = [false, false, true] ∧ bound.toList = [.int 1, .int 4, .int 5, .int 2] ∧
      (placesGiven parts).length + 3 = bound.size := by
  obtain ⟨parts, bound, hrun, hok, hbound, -, hcount⟩ :=
    leftovers_stay questionMarks {} [unsetRow, rowsUpToNull, secondRow]
  exact ⟨parts, bound, hrun, hok, hbound, hcount rfl⟩

/-- The value that a failing condition has bound comes before that of the other, whose text has the one placeholder. -/
theorem bound_before_failure :
    compileEach questionMarks {} #[] [unsetRow, secondRow] =
        ([.error (.unsetParameter "row"), .ok "s.\"Row\" = ?"], #[.int 1, .int 2]) ∧
      (compileEach questionMarks {} #[] [unsetRow, secondRow]).2.toList ≠
        (kept false {} [unsetRow, secondRow]).map Slot.value ∧
      (compileEach questionMarks {} #[] [unsetRow, secondRow]).2.size ≠ "s.\"Row\" = ?".toList.count '?' := by
  have hcompile : compileEach questionMarks {} #[] [unsetRow, secondRow] =
      ([.error (.unsetParameter "row"), .ok "s.\"Row\" = ?"], #[.int 1, .int 2]) := rfl
  have hkept : (kept false {} [unsetRow, secondRow]).map Slot.value = [.int 2] := rfl
  rw [hcompile, hkept]
  exact ⟨rfl, (fun h => nomatch congrArg List.length h), by decide⟩

end DocQuery.Sql
