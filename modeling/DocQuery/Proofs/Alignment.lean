import DocQuery.Proofs.Failing
import DocQuery.Proofs.Pieces
import DocQuery.Proofs.Running
import DocQuery.Proofs.Slots
import DocQuery.Proofs.Statements

/-! Placeholders and the values bound for them.

Conditions that are compiled one after the other write the places of their slots
(`compileEach_writes`), and those are 1, 2, 3 and so on in the order of the values
(`placesFrom_aligned`). `placeholders_aligned` is the whole of it: for a sequence of conditions, for
those compiled after others, and for a statement. -/
namespace DocQuery.Sql

open DocQuery.Symbol Placed

/-! ### Places of slots -/

theorem lt_of_mem_placesFrom {bound n : Nat} {slots : List Slot} (h : n ∈ placesFrom bound slots) : bound < n := by
  obtain ⟨i, s, -, rfl⟩ := mem_placesFrom h
  omega

/-- The places are written one after the other, each as often as its slot asks. -/
structure Aligned (slots : List Slot) (bound : Array Value) (written : List Nat) : Prop where
  /-- The places come up in the order of the values, and none is passed over. -/
  first : written.eraseDups = List.range' 1 bound.size
  /-- At each place that is written there is the value that is written there. -/
  values : written.map (fun n => bound[n - 1]?) =
    slots.flatMap fun s => List.replicate s.times (some s.value)
  /-- The values are those of the slots. -/
  bound : bound.toList = slots.map Slot.value
  times : ∀ i s, slots[i]? = some s → written.count (i + 1) = s.times

theorem eraseDups_placesFrom {slots : List Slot} (h : ∀ s ∈ slots, 0 < s.times) (bound : Nat) :
    (placesFrom bound slots).eraseDups = List.range' (bound + 1) slots.length := by
  induction slots generalizing bound with
  | nil => rfl
  | cons s rest ih =>
    obtain ⟨hs, hrest⟩ := List.forall_mem_cons.mp h
    obtain ⟨n, hn⟩ := Nat.exists_eq_succ_of_ne_zero (Nat.ne_of_gt hs)
    have hlater : (List.replicate n (bound + 1) ++ placesFrom (bound + 1) rest).filter
        (fun m => !m == bound + 1) = placesFrom (bound + 1) rest := by
      rw [List.filter_append, List.filter_replicate_of_neg (by simp), List.nil_append, List.filter_eq_self]
      intro m hm
      have hlt := lt_of_mem_placesFrom hm
      simp
      omega
    rw [placesFrom, hn, List.replicate_succ, List.cons_append, List.eraseDups_cons, hlater, ih hrest,
      List.length_cons, List.range'_succ]

theorem map_placesFrom {slots : List Slot} {bound : Nat} {value? : Nat → Option Value}
    (h : ∀ i s, slots[i]? = some s → value? (bound + 1 + i) = some s.value) :
    (placesFrom bound slots).map value? = slots.flatMap fun s => List.replicate s.times (some s.value) := by
  induction slots generalizing bound with
  | nil => rfl
  | cons s rest ih =>
    have hrest : ∀ i t, rest[i]? = some t → value? (bound + 1 + 1 + i) = some t.value := by
      intro i t ht
      rw [Nat.add_assoc _ 1, Nat.add_comm 1 i]
      exact h (i + 1) t ht
    rw [placesFrom, List.map_append, List.map_replicate, ih hrest, h 0 s rfl, List.flatMap_cons]

theorem count_placesFrom {slots : List Slot} {i : Nat} {s : Slot} (h : slots[i]? = some s) (bound : Nat) :
    (placesFrom bound slots).count (bound + 1 + i) = s.times := by
  induction slots generalizing bound i with
  | nil => exact nomatch h
  | cons t rest ih =>
    rw [placesFrom, List.count_append]
    cases i with
    | zero =>
      obtain rfl := Option.some.inj h
      have hrest : (placesFrom (bound + 1) rest).count (bound + 1) = 0 :=
        List.count_eq_zero.mpr fun hm => Nat.lt_irrefl _ (lt_of_mem_placesFrom hm)
      rw [Nat.add_zero, List.count_replicate_self, hrest, Nat.add_zero]
    | succ i =>
      have hfirst : (List.replicate t.times (bound + 1)).count (bound + 1 + (i + 1)) = 0 :=
        List.count_eq_zero.mpr fun hm => by
          have heq := List.eq_of_mem_replicate hm
          omega
      rw [hfirst, Nat.zero_add, Nat.add_comm i 1, ← Nat.add_assoc]
      exact ih h (bound + 1)

theorem placesFrom_aligned {slots : List Slot} (h : ∀ s ∈ slots, 0 < s.times) {bound : Array Value}
    (hbound : bound.toList = slots.map Slot.value) : Aligned slots bound (placesFrom 0 slots) := by
  have hsize : bound.size = slots.length := by
    rw [← Array.length_toList, hbound, List.length_map]
  refine ⟨?_, map_placesFrom fun i s hs => ?_, hbound, fun i s hs => ?_⟩
  · rw [eraseDups_placesFrom h, hsize]
  · rw [Nat.zero_add, Nat.add_sub_cancel_left, ← Array.getElem?_toList, hbound, List.getElem?_map, hs]
    rfl
  · rw [← count_placesFrom hs 0, Nat.zero_add, Nat.add_comm]

/-- Where every slot is written once there are as many placeholders as values. -/
theorem length_placesFrom {slots : List Slot} (h : ∀ s ∈ slots, s.times = 1) (bound : Nat) :
    (placesFrom bound slots).length = slots.length := by
  induction slots generalizing bound with
  | nil => rfl
  | cons s rest ih =>
    obtain ⟨hs, hrest⟩ := List.forall_mem_cons.mp h
    rw [placesFrom, List.length_append, List.length_replicate, hs, ih hrest, List.length_cons, Nat.add_comm]

/-! ### Conditions one after the other -/

/-- The slots of conditions, in the order in which they are compiled. -/
def slotsOfEach (numbered : Bool) (params : ParamSet) (trees : List (Tree Predicate)) : List Slot :=
  trees.flatMap fun t => t.leaves.flatMap (slots numbered params)

/-- One condition more, which moves the places of the others on by what it binds. -/
theorem compileEach_cons {numbered : Bool} {params : ParamSet} {t : Tree Predicate} {rest : List (Tree Predicate)}
    {result : Except CompileError (List Token)} {results : List (Except CompileError (List Token))}
    {values more : Array Value}
    (hrun : ∀ bound : Array Value, (condition numbered params t).run.run bound =
      (Except.map (raise bound.size) result, bound ++ values))
    (hrest : ∀ (d : Dialect) (bound : Array Value), d.numbered = numbered → compileEach d params bound rest =
      (results.map (Except.map fun tokens => render d (raise bound.size tokens)), bound ++ more))
    (d : Dialect) (bound : Array Value) (hd : d.numbered = numbered) :
    compileEach d params bound (t :: rest) =
      ((result :: results.map (Except.map (raise values.size))).map
        (Except.map fun tokens => render d (raise bound.size tokens)), bound ++ (values ++ more)) := by
  have hraise : ∀ r : Except CompileError (List Token),
      Except.map (fun tokens => render d (raise (bound ++ values).size tokens)) r =
        Except.map (fun tokens => render d (raise bound.size tokens)) (Except.map (raise values.size) r) := by
    intro r
    rw [map_map_except, Array.size_append]
    simp only [Function.comp_def, raise_raise, Nat.add_comm]
  simp only [compileEach, hd, hrun, hrest d _ hd]
  rw [List.map_congr_left fun r _ => hraise r, map_map_except, Array.append_assoc, List.map_cons, List.map_map]
  rfl

/-- Compiling conditions is the same after any values but for its places; where all succeed they
write the places of their slots. -/
theorem compileEach_writes (numbered : Bool) (params : ParamSet) (trees : List (Tree Predicate)) :
    ∃ (results : List (Except CompileError (List Token))) (values : Array Value),
      (∀ (d : Dialect) (bound : Array Value), d.numbered = numbered →
        compileEach d params bound trees =
          (results.map (Except.map fun tokens => render d (raise bound.size tokens)), bound ++ values)) ∧
      ∀ texts : List (List Token), results = texts.map .ok →
        values.toList = (slotsOfEach numbered params trees).map Slot.value ∧
          places texts = placesFrom 0 (slotsOfEach numbered params trees) := by
  induction trees with
  | nil =>
    refine ⟨[], #[], fun d bound _ => ?_, fun texts htexts => ?_⟩
    · rw [Array.append_empty]
      rfl
    · rw [List.map_eq_nil_iff.mp htexts.symm]
      exact ⟨rfl, rfl⟩
  | cons t rest ih =>
    have hcondition : Writes (condition numbered params t) (t.leaves.flatMap (slots numbered params)) :=
      condition_writes t
    obtain ⟨result, values, hrun, hok⟩ := hcondition
    obtain ⟨results, more, hrest, hrestOk⟩ := ih
    refine ⟨result :: results.map (Except.map (raise values.size)), values ++ more, compileEach_cons hrun hrest,
      fun texts htexts => ?_⟩
    cases texts with
    | nil => exact nomatch htexts
    | cons tokens later =>
      obtain ⟨rfl, hlater⟩ := List.cons.inj htexts
      obtain ⟨given, rfl, rfl⟩ := eq_map_ok hlater
      obtain ⟨hvalues, hplaces⟩ := hok tokens rfl
      obtain ⟨hmore, hplacesMore⟩ := hrestOk given rfl
      have hsize : values.size = (t.leaves.flatMap (slots numbered params)).length := by
        rw [← Array.length_toList, hvalues, List.length_map]
      rw [slotsOfEach, List.flatMap_cons]
      refine ⟨?_, ?_⟩
      · rw [Array.toList_append, hvalues, hmore, List.map_append]
        rfl
      · show places tokens ++ places (raise values.size given) = _
        rw [places_raise, hplaces, hplacesMore, placesFrom_append, hsize, ← placesFrom_add]
        rfl

theorem compileEach_append (d : Dialect) (params : ParamSet) (bound : Array Value) (trees more : List (Tree Predicate)) :
    compileEach d params bound (trees ++ more) =
      ((compileEach d params bound trees).1 ++
        (compileEach d params (compileEach d params bound trees).2 more).1,
        (compileEach d params (compileEach d params bound trees).2 more).2) := by
  induction trees generalizing bound with
  | nil => rfl
  | cons t rest ih =>
    simp only [List.cons_append, compileEach, ih]
    rfl

/-! ### Statements -/

theorem condition?_each {d : Dialect} {params : ParamSet} {bound after : Array Value}
    {t : Option (Tree Predicate)} {tokens : Option (List Token)}
    (h : (condition? d.numbered params t).run.run bound = (.ok tokens, after)) :
    compileEach d params bound t.toList = ((tokens.map (render d)).toList.map .ok, after) ∧
      tokens.isSome = t.isSome := by
  cases t with
  | none =>
    obtain ⟨hresult, rfl⟩ := Prod.mk.inj h
    obtain rfl := Except.ok.inj hresult
    exact ⟨rfl, rfl⟩
  | some t =>
    rw [condition?, ← bind_pure_comp] at h
    obtain ⟨text, middle, hrun, h⟩ := run_bind_ok h
    obtain ⟨hresult, rfl⟩ := Prod.mk.inj h
    obtain rfl := Except.ok.inj hresult
    exact ⟨by simp only [Option.toList, compileEach, hrun]; rfl, rfl⟩

/-- The containers are compiled in their order, and their conditions one after the other. -/
theorem compileContainers_each {d : Dialect} {params : ParamSet} {pairs : List (Container × Option (Tree Predicate))}
    {bound after : Array Value} {containers : List CompiledContainer}
    (h : (Draft.compileContainers d params pairs).run.run bound = (.ok containers, after)) :
    compileEach d params bound (pairs.flatMap fun c => c.2.toList) =
        ((containers.flatMap fun c => c.connect.toList).map .ok, after) ∧
      containers.map (fun c => (c.qualifier, c.connect.isSome)) =
        pairs.map fun c => (c.1.qualifier, c.2.isSome) := by
  induction pairs generalizing bound containers with
  | nil =>
    obtain ⟨hresult, rfl⟩ := Prod.mk.inj h
    obtain rfl := Except.ok.inj hresult
    exact ⟨rfl, rfl⟩
  | cons pair rest ih =>
    obtain ⟨c, connect⟩ := pair
    obtain ⟨tokens, middle, hfirst, h⟩ := run_bind_ok h
    obtain ⟨others, last, hrest, h⟩ := run_bind_ok h
    obtain ⟨hresult, rfl⟩ := Prod.mk.inj h
    obtain rfl := Except.ok.inj hresult
    obtain ⟨heach, hsome⟩ := condition?_each hfirst
    obtain ⟨hothers, hnames⟩ := ih hrest
    refine ⟨?_, ?_⟩
    · rw [List.flatMap_cons, compileEach_append, heach]
      simp only [hothers, List.flatMap_cons, List.map_append]
      rfl
    · rw [List.map_cons, List.map_cons, hnames, ← hsome]
      simp [Container.compiled]

/-- The statement has the conditions of the plan, compiled one after the other: those of the
containers in their order, and then the filter. -/
structure Sequenced (d : Dialect) (params : ParamSet) (draft : Draft) (plan : Plan) (s : Statement) : Prop where
  texts : compileEach d params #[]
      ((draft.containers.zip plan.connects).flatMap (fun c => c.2.toList) ++ plan.filter.toList) =
    (((s.containers.flatMap fun c => c.connect.toList) ++ s.filter.toList).map .ok, s.params.toArray)
  containers : s.containers.map (fun c => (c.qualifier, c.connect.isSome)) =
    (draft.containers.zip plan.connects).map fun c => (c.1.qualifier, c.2.isSome)
  filter : s.filter.isSome = plan.filter.isSome

theorem compile_sequenced {draft : Draft} {d : Dialect} {params : ParamSet} {s : Statement}
    (h : (draft.compile d params).result = .ok s) :
    ∃ plan, draft.plan? = some plan ∧ Sequenced d params draft plan s := by
  obtain ⟨plan, containers, filter, after, hplan, hrun, rfl⟩ := Draft.compile_ok h
  obtain ⟨compiled, middle, hcontainers, hrun⟩ := run_bind_ok hrun
  obtain ⟨tokens, last, hfilter, hrun⟩ := run_bind_ok hrun
  obtain ⟨hresult, rfl⟩ := Prod.mk.inj hrun
  obtain ⟨rfl, rfl⟩ := Prod.mk.inj (Except.ok.inj hresult)
  obtain ⟨heach, hnames⟩ := compileContainers_each hcontainers
  obtain ⟨hfiltered, hsome⟩ := condition?_each hfilter
  refine ⟨plan, hplan, ?_, hnames, ?_⟩
  · rw [compileEach_append, heach]
    simp only [Draft.statement, hfiltered, List.map_append]
  · show (tokens.map (render d)).isSome = plan.filter.isSome
    rw [Option.isSome_map, hsome]

/-- **Placeholders and bound values stay aligned.** The texts of conditions that are compiled one
after the other have places for placeholders, whatever these look like, and what is bound is what
they stand for. Conditions that are compiled after others have their own texts and values, with
every place further on by what the others bound. A statement's conditions are compiled so. -/
theorem placeholders_aligned (d : Dialect) (params : ParamSet) :
    (∀ (trees : List (Tree Predicate)) (texts : List String) (bound : Array Value),
      compileEach d params #[] trees = (texts.map .ok, bound) →
      ∃ parts : List (List Piece),
        (∀ placeholder, compileEach { d with placeholder := placeholder } params #[] trees =
          (parts.map fun part => .ok (fill placeholder part), bound)) ∧
        Aligned (slotsOfEach d.numbered params trees) bound (parts.flatMap placesIn) ∧
        (∀ p, ∀ s ∈ slots d.numbered params p,
          s.times = if p.op = .bitsAnd ∧ d.numbered = true then 2 else 1) ∧
        (d.numbered = false → (parts.flatMap placesIn).length = bound.size)) ∧
    (∀ (trees : List (Tree Predicate)) (bound : Array Value), compileEach d params bound trees =
      ((compileEach (d.after bound.size) params #[] trees).1, bound ++ (compileEach d params #[] trees).2)) ∧
    (∀ (draft : Draft) (s : Statement), (draft.compile d params).result = .ok s →
      ∃ plan, draft.plan? = some plan ∧ Sequenced d params draft plan s) := by
  refine ⟨fun trees texts bound hcompiled => ?_, fun trees bound => ?_, fun draft s => compile_sequenced⟩
  · obtain ⟨results, values, hrun, hok⟩ := compileEach_writes d.numbered params trees
    rw [hrun d #[] rfl] at hcompiled
    obtain ⟨hresults, rfl⟩ := Prod.mk.inj hcompiled
    obtain ⟨given, rfl, -⟩ := eq_map_ok hresults
    obtain ⟨hvalues, hplaces⟩ := hok given rfl
    have hwritten : (given.map (pieces d)).flatMap placesIn =
        placesFrom 0 (slotsOfEach d.numbered params trees) := by
      rw [← hplaces, List.flatMap_map]
      exact List.flatMap_congr fun tokens _ => placesIn_pieces tokens
    have htimes : ∀ s ∈ slotsOfEach d.numbered params trees, ∃ p, s ∈ slots d.numbered params p := by
      intro s hs
      obtain ⟨t, -, hs⟩ := List.mem_flatMap.mp hs
      obtain ⟨p, -, hs⟩ := List.mem_flatMap.mp hs
      exact ⟨p, hs⟩
    refine ⟨given.map (pieces d), fun placeholder => ?_, ?_, fun p s hs => times_slots hs, fun hpositional => ?_⟩
    · rw [hrun { d with placeholder := placeholder } #[] rfl, List.map_map, List.map_map]
      refine Prod.ext (List.map_congr_left fun tokens _ => congrArg Except.ok ?_) rfl
      show render { d with placeholder := placeholder } (raise 0 tokens) = _
      rw [raise_zero, render_eq_fill, pieces_withPlaceholder]
    · rw [hwritten, Array.empty_append]
      refine placesFrom_aligned (fun s hs => ?_) hvalues
      obtain ⟨p, hp⟩ := htimes s hs
      rw [times_slots hp]
      split <;> decide
    · rw [hwritten, Array.empty_append, length_placesFrom, ← Array.length_toList, hvalues, List.length_map]
      intro s hs
      obtain ⟨p, hp⟩ := htimes s hs
      rw [times_slots hp, if_neg fun hboth => Bool.false_ne_true (hpositional.symm.trans hboth.2)]
  · obtain ⟨results, values, hrun, -⟩ := compileEach_writes d.numbered params trees
    rw [hrun d bound rfl, hrun (d.after bound.size) #[] rfl, hrun d #[] rfl, Array.empty_append]
    refine Prod.ext (List.map_congr_left fun result _ => ?_) rfl
    refine congrArg (fun f => Except.map f result) (funext fun tokens => ?_)
    show render d (raise bound.size tokens) = render (d.after bound.size) (raise 0 tokens)
    rw [raise_zero, render_raise]

/-- A document with a number and with flags. -/
def account : Document where
  path := "bank.Account"
  name := "Account"
  storage := "accounts"
  fields := [{ name := "number", storage := "No", kind := .int }, { name := "flags", storage := "F", kind := .bits }]

/-- Two containers, of which the second is connected by a mask; the filter is a range. -/
def masked : Draft :=
  ((Draft.forDocument [account] account .select).editAll
    [.addContainer (.joined account .inner "a"),
      .compare .connect "a" (.named "flags") .bitsAnd (.const (.uint 6) false),
      .compare .filter "" (.named "number") .between (.const (.list [.int 1, .int 9]) false)]).freeze.result

/-- The conditions of `masked`. -/
def maskAndRange : List (Tree Predicate) :=
  (masked.plan?.map fun plan => plan.connects.flatMap Option.toList ++ plan.filter.toList).getD []

theorem placeholders_aligned_masked :
    (compileEach .postgres {} #[] maskAndRange =
        (["(a.\"F\" & $1) = $1", "\"No\" BETWEEN $2 AND $3"].map .ok, #[.uint 6, .int 1, .int 9]) ∧
      ∃ parts : List (List Piece),
        (∀ placeholder, compileEach { Dialect.postgres with placeholder := placeholder } {} #[] maskAndRange =
          (parts.map fun part => .ok (fill placeholder part), #[.uint 6, .int 1, .int 9])) ∧
        Aligned (slotsOfEach true {} maskAndRange) #[.uint 6, .int 1, .int 9] (parts.flatMap placesIn)) ∧
    ∃ s, (masked.compile .postgres {}).result = .ok s ∧
      ∃ plan, masked.plan? = some plan ∧ Sequenced .postgres {} masked plan s := by
  have haligned := placeholders_aligned .postgres {}
  have htexts : compileEach .postgres {} #[] maskAndRange =
      (["(a.\"F\" & $1) = $1", "\"No\" BETWEEN $2 AND $3"].map .ok, #[.uint 6, .int 1, .int 9]) := rfl
  obtain ⟨parts, hparts, hslots, -⟩ := haligned.1 maskAndRange _ _ htexts
  exact ⟨⟨htexts, parts, hparts, hslots⟩, _, rfl, haligned.2.2 masked _ rfl⟩

end DocQuery.Sql
