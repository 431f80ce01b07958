import DocQuery.Proofs.Sessions

/-! Reports on sessions.

There are as many events of a kind as there were things of that kind to count: compilings and compositions by
the entries of the history (`count_compiled`, `count_composed`), and freezings by the drafts, for which the first
time counts (`count_frozen`). So the metrics report what happened (`reports_happened`). -/
namespace DocQuery.Session

variable {s : Session} {r : Request} {requests : List Request} {i : Nat} {path : String}

theorem document?_runAll (h : s.document? i = some path) (requests : List Request) :
    (s.runAll requests).document? i = some path := by
  induction requests generalizing s with
  | nil => exact h
  | cons r rest ih =>
    refine ih ?_
    cases s.happens r with
    | freezes draft _ drafts => exact (document?_set draft drafts Draft.kept_freeze.document i).trans h
    | other steady => exact steady.document i path h

/-! ### Compilings and compositions -/

/-- What one request has an event for is counted by the entries. -/
theorem count_eq_countP {e : Event} {p : Entry → Bool}
    (hstep : ∀ s r, (step s r).events.count e = if p (s.entry r) = true then 1 else 0) (s : Session)
    (requests : List Request) : (s.events requests).count e = (s.history requests).countP p := by
  induction requests generalizing s with
  | nil => rfl
  | cons r rest ih => rw [events, List.count_append, hstep, ih, history, List.countP_cons, Nat.add_comm]

theorem count_compiled (s : Session) (requests : List Request) (path : String) (ok : Bool) :
    (s.events requests).count (.compiled path ok) = s.compilings requests path ok := by
  refine count_eq_countP (fun s r => ?_) s requests
  simp only [decide_eq_true_eq]
  cases s.happens r with
  | freezes _ _ _ _ compiling _ events => simp [events, compiling]
  | other _ _ events =>
    rw [events]
    cases (s.entry r).composing? <;> rcases (s.entry r).compiling? with _ | ⟨path', ok'⟩ <;> simp [List.count_cons]

theorem count_composed (s : Session) (requests : List Request) (path : String) :
    (s.events requests).count (.composed path) = s.composings requests path := by
  refine count_eq_countP (fun s r => ?_) s requests
  simp only [decide_eq_true_eq]
  cases s.happens r with
  | freezes _ _ _ _ _ composing events => simp [events, composing]
  | other _ _ events =>
    rw [events]
    cases (s.entry r).composing? <;> cases (s.entry r).compiling? <;> simp [List.count_cons]

/-! ### Freezings -/

/-- A request that freezes nothing newly leaves to the others what they freeze first. -/
theorem firstFreezing?_other {rest : List Request} (hsteady : Steady s (s.run r))
    (hfreezing : ∀ i ok, (s.entry r).freezing? = some (i, ok) → s.isFrozen i = true) (i : Nat) :
    s.firstFreezing? (r :: rest) i = (s.run r).firstFreezing? rest i := by
  unfold firstFreezing?
  rw [hsteady.frozen, history]
  split
  · rfl
  · next hopen =>
    cases hentry : (s.entry r).freezing? with
    | none => rw [List.filterMap_cons_none hentry]
    | some x =>
      have hne : i ≠ x.1 := fun hi => hopen (hi ▸ hfreezing x.1 x.2 hentry)
      rw [List.filterMap_cons_some hentry, List.lookup_cons, beq_false_of_ne hne]

/-- A draft that is frozen newly is so for good. -/
theorem firstFreezing?_freezes (rest : List Request) {d : Draft} (hdraft : s.drafts[i]? = some d) (hopen : d.plan = none)
    (hdrafts : (s.run r).drafts = s.drafts.set i d.freeze.result)
    (hfreezing : (s.entry r).freezing? = some (i, d.freezes)) (j : Nat) :
    s.firstFreezing? (r :: rest) j = if i = j then some d.freezes else (s.run r).firstFreezing? rest j := by
  unfold firstFreezing?
  rw [isFrozen_set hdraft hdrafts, history, List.filterMap_cons_some hfreezing, List.lookup_cons]
  by_cases hij : i = j
  · subst hij
    have hnew : s.isFrozen i = false := by
      rw [isFrozen, hdraft, Option.any_some, Draft.isFrozen, hopen]
      rfl
    simp [hnew]
  · rw [if_neg hij, if_neg hij, beq_false_of_ne (Ne.symm hij)]

theorem firstFreezing?_frozen (h : s.isFrozen i = true) : s.firstFreezing? requests i = none :=
  if_pos h

/-- Counting by tests that agree but for one member, where the second fails. -/
theorem countP_of_ne {l : List Nat} {f g : Nat → Bool} (hnodup : l.Nodup) (hi : i ∈ l) (hg : g i = false)
    (h : ∀ j, i ≠ j → f j = g j) : l.countP f = (if f i = true then 1 else 0) + l.countP g := by
  obtain ⟨before, after, rfl⟩ := List.append_of_mem hi
  have hother : ∀ j ∈ before ++ after, i ≠ j := by
    rintro j hj rfl
    exact (List.nodup_cons.mp (List.nodup_middle.mp hnodup)).1 hj
  have hsame (l : List Nat) (hl : ∀ j ∈ l, i ≠ j) : l.countP f = l.countP g :=
    List.countP_congr fun j hj => by rw [h j (hl j hj)]
  rw [List.countP_append, List.countP_append, List.countP_cons, List.countP_cons, hg,
    hsame before fun j hj => hother j (List.mem_append_left _ hj),
    hsame after fun j hj => hother j (List.mem_append_right _ hj)]
  simp only [Bool.false_eq_true, if_false]
  omega

/-- A draft that is frozen newly is one more, to those that are frozen first later on. -/
theorem freezings_freezes (rest : List Request) (path : String) (ok : Bool) {d : Draft} (hdraft : s.drafts[i]? = some d)
    (hopen : d.plan = none) (hdrafts : (s.run r).drafts = s.drafts.set i d.freeze.result)
    (hfreezing : (s.entry r).freezing? = some (i, d.freezes)) : s.freezings (r :: rest) path ok =
      (if d.document.path = path ∧ d.freezes = ok then 1 else 0) + (s.run r).freezings rest path ok := by
  have hfinal : (s.runAll (r :: rest)).document? i = some d.document.path :=
    document?_runAll (by rw [document?, hdraft, Option.map_some]) _
  have hi : i ∈ List.range (s.runAll (r :: rest)).drafts.length := by
    obtain ⟨_, hdraft, -⟩ := Option.map_eq_some_iff.mp hfinal
    exact List.mem_range.mpr (List.getElem?_eq_some_iff.mp hdraft).1
  have hfrozen : (s.run r).isFrozen i = true := by
    rw [isFrozen_set hdraft hdrafts, if_pos rfl, Draft.isFrozen_freeze]
  have hlater : (s.run r).firstFreezing? rest i = none := firstFreezing?_frozen hfrozen
  have hfirst := firstFreezing?_freezes rest hdraft hopen hdrafts hfreezing
  refine (countP_of_ne List.nodup_range hi (g := fun j =>
    (s.runAll (r :: rest)).document? j = some path ∧ (s.run r).firstFreezing? rest j = some ok) ?_ fun j hj => ?_).trans ?_
  · simp [hlater]
  · rw [hfirst, if_neg hj]
  · rw [hfirst, if_pos rfl, hfinal]
    simp only [Option.some.injEq, decide_eq_true_eq]
    rfl

theorem freezings_other {rest : List Request} (hsteady : Steady s (s.run r))
    (hfreezing : ∀ i ok, (s.entry r).freezing? = some (i, ok) → s.isFrozen i = true) (path : String) (ok : Bool) :
    s.freezings (r :: rest) path ok = (s.run r).freezings rest path ok := by
  rw [freezings, freezings]
  simp only [firstFreezing?_other hsteady hfreezing]
  rfl

theorem count_frozen (s : Session) (requests : List Request) (path : String) (ok : Bool) :
    (s.events requests).count (.frozen path ok) = s.freezings requests path ok := by
  induction requests generalizing s with
  | nil =>
    refine (List.countP_eq_zero.mpr fun i _ => ?_).symm
    simp only [firstFreezing?, history, List.filterMap_nil, List.lookup_nil, ite_self]
    simp
  | cons r rest ih =>
    rw [events, List.count_append, ih]
    cases s.happens r with
    | freezes draft fresh drafts freezing _ _ events =>
      rw [freezings_freezes rest path ok draft fresh drafts freezing, events]
      simp [List.count_cons]
    | other steady freezing events =>
      have hnone : (s.step r).events.count (.frozen path ok) = 0 := by
        rw [events]
        cases (s.entry r).composing? <;> cases (s.entry r).compiling? <;> simp
      rw [hnone, Nat.zero_add, freezings_other steady freezing]

/-! ### All events -/

/-- No entry tells of both. -/
theorem Entry.compiling?_or_composing? (x : Entry) : x.compiling? = none ∨ x.composing? = none := by
  obtain ⟨_, request, answer⟩ := x
  cases answer with
  | compiled => exact .inr (by cases request <;> rfl)
  | _ => exact .inl rfl

/-- There is at most one event at a request. -/
theorem length_events (s : Session) (requests : List Request) : (s.events requests).length ≤ requests.length := by
  induction requests generalizing s with
  | nil => exact Nat.le_refl 0
  | cons r rest ih =>
    have hstep : (s.step r).events.length ≤ 1 := by
      cases s.happens r with
      | freezes _ _ _ _ _ _ events => rw [events, List.length_singleton]
      | other _ _ events =>
        rw [events, List.length_append]
        rcases (s.entry r).compiling?_or_composing? with hnone | hnone
        · rw [hnone]
          cases (s.entry r).composing? <;> simp
        · rw [hnone]
          cases (s.entry r).compiling? <;> simp
    rw [events, List.length_append, List.length_cons, Nat.add_comm]
    exact Nat.add_le_add (ih _) hstep

theorem count_events (s : Session) (requests : List Request) (path : String) (t : Tally) :
    (s.events requests).count (t.event path) = s.happened requests path t := by
  cases t with
  | frozen => exact count_frozen s requests path true
  | freezeFailed => exact count_frozen s requests path false
  | compiled => exact count_compiled s requests path true
  | compileFailed => exact count_compiled s requests path false
  | composed => exact count_composed s requests path

/-- **The metrics report what happened.** After fewer requests than a counter can count, and from nothing counted,
the metrics have for each document how many of its drafts were frozen for the first time, how many times one of
them was compiled, and how many compositions were built on it. Together these are what was counted over all, and
each document with an event is listed once, one that was compiled more often before the others. -/
theorem reports_happened (s : Session) (requests : List Request) (hfew : requests.length < UInt64.size) :
    (s.reset.runAll requests).metrics.Reports (s.reset.happened requests) := by
  have hmetrics : (s.reset.runAll requests).metrics = ({} : Metrics).recordAll (s.reset.events requests) :=
    metrics_runAll s.reset requests
  have htells : (({} : Metrics).recordAll (s.reset.events requests)).Tells (s.reset.events requests) :=
    Metrics.tells_nil.recordAll (Nat.lt_of_le_of_lt (length_events s.reset requests) hfew)
  have hcount : (fun path t => (s.reset.events requests).countP fun e => e.isFor path t) =
      s.reset.happened requests := by
    funext path t
    simp only [Event.isFor_eq]
    exact count_events s.reset requests path t
  rw [hmetrics, ← hcount]
  exact htells.reports

/-! An update without a filter cannot be frozen, nor then be compiled. A deletion is frozen where it is registered;
it is compiled in its own right and to mark rows as deleted, with a value and without. -/

def folderRequests : List Request :=
  let folder := Registrations.folder "desk.Folder"
  let given : ParamSet := { declared := [{ name := "id", kind := .int }], values := [("id", .int 7)] }
  [.start (.forDocument [folder] folder .update) (.forDocument _ _ _), .freeze 0, .freeze 0,
    .compile 0 .postgres given,
    .start (.forDocument [folder] folder .delete) (.forDocument _ _ _), .edit 1 (.declare { name := "id", kind := .int }),
    .edit 1 (.compare .filter "" (.named "id") .equal (.param "id" false)), .register 0 1, .register 0 1, .freeze 1,
    .freezeRegistrations 0 0, .compile 1 .postgres given, .compileFor 0 "desk.Folder" .softDelete .postgres given,
    .compileFor 0 "desk.Folder" .delete .postgres {}, .compose [folder] "FOLDER" folder [],
    .compose [folder] "FOLDER" folder [.node "FOLDER" folder [] false]]

theorem reports_folderRequests :
    folderRequests.length < UInt64.size ∧
    ((({} : Session).reset.runAll folderRequests).metrics.Reports (({} : Session).reset.happened folderRequests)) ∧
    ({} : Session).reset.happened folderRequests "desk.Folder" .frozen = 1 ∧
    ({} : Session).reset.happened folderRequests "desk.Folder" .freezeFailed = 1 ∧
    ({} : Session).reset.happened folderRequests "desk.Folder" .compiled = 2 ∧
    ({} : Session).reset.happened folderRequests "desk.Folder" .compileFailed = 1 ∧
    ({} : Session).reset.happened folderRequests "desk.Folder" .composed = 1 :=
  have hfew : folderRequests.length < UInt64.size := by decide
  ⟨hfew, reports_happened {} folderRequests hfew, by with_unfolding_all rfl, by with_unfolding_all rfl,
    by with_unfolding_all rfl, by with_unfolding_all rfl, by with_unfolding_all rfl⟩

end DocQuery.Session
