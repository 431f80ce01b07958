import DocQuery.Proofs.Declared
import DocQuery.Proofs.Refusals
import DocQuery.Proofs.Registering
import DocQuery.Proofs.Tallies
import Mathlib.Logic.Function.Basic

/-! Sessions, and what happens in them.

A session answers requests on many drafts, registries and compositions, one after the other, and records
the events. What happened is read off the requests and their answers, without the events
(`Session.happened`). `happens` says once for all requests which events come with what happened. -/
namespace DocQuery

structure Session where
  drafts : List Draft := []
  compositions : List Composition := []
  registrations : Nat → Registrations := fun _ => {}
  registries : Nat → Registry := fun _ => ⟨[], []⟩
  metrics : Metrics := {}

/-- What a session is asked to do. Drafts, compositions, registrations and registries go by their places. Requests
that only look something up are left out. -/
inductive Session.Request where
  | start (d : Draft) (started : d.Started)
  | edit (draft : Nat) (e : Edit)
  | freeze (draft : Nat)
  | compile (draft : Nat) (dialect : Sql.Dialect) (params : ParamSet)
  | compose (schema : Schema) (name : String) (document : Document) (steps : List Step)
  | register (registrations draft : Nat)
  | registerComposition (registrations composition : Nat)
  | freezeRegistrations (registrations registry : Nat)
  /-- Compiles what a registry has for the command on the document. -/
  | compileFor (registry : Nat) (document : String) (command : Command) (dialect : Sql.Dialect) (params : ParamSet)

inductive Session.Answer where
  /-- There is nothing at the place. -/
  | missing
  | done
  | edited (result : Except DraftError Unit)
  | frozen (result : Except DraftError Unit)
  | compiled (result : Except Sql.CompileError Statement)
  | composed (result : Except CompositionError Composition)
  | registered (result : Except RegistryError Unit)

namespace Session

variable {s : Session} {r : Request} {requests : List Request} {i j : Nat} {path : String} {ok : Bool}

/-! ### Answering -/

/-- Takes a composition into the session, if there is one. -/
def keep (s : Session) : Except CompositionError Composition → Session
  | .ok c => { s with compositions := s.compositions ++ [c] }
  | .error _ => s

/-- The session after a request, with the answer. -/
def step (s : Session) : Request → Traced (Session × Answer)
  | .start d _ => ⟨({ s with drafts := s.drafts ++ [d] }, .done), []⟩
  | .edit i e =>
    match s.drafts[i]? with
    | none => ⟨(s, .missing), []⟩
    | some d =>
      let (result, d) := e.perform.run.run d
      ⟨({ s with drafts := s.drafts.set i d }, .edited result), []⟩
  | .freeze i =>
    match s.drafts[i]? with
    | none => ⟨(s, .missing), []⟩
    | some d =>
      ⟨({ s with drafts := s.drafts.set i d.freeze.result }, .frozen d.freeze.result.outcome), d.freeze.events⟩
  | .compile i dialect params =>
    match s.drafts[i]? with
    | none => ⟨(s, .missing), []⟩
    | some d => ⟨(s, .compiled (d.compile dialect params).result), (d.compile dialect params).events⟩
  | .compose schema name document steps =>
    let built := Composition.build schema name document steps
    ⟨(s.keep built.result.result, .composed built.result.result), built.events⟩
  | .register k i =>
    match s.drafts[i]? with
    | none => ⟨(s, .missing), []⟩
    | some d =>
      let call := Registering.draft d
      let (result, r) := call.result.run.run (s.registrations k)
      ⟨({ s with
          drafts := s.drafts.set i d.freeze.result
          registrations := Function.update s.registrations k r }, .registered result), call.events⟩
  | .registerComposition k i =>
    match s.compositions[i]? with
    | none => ⟨(s, .missing), []⟩
    | some c =>
      let (result, r) := (Registering.composition c).run.run (s.registrations k)
      ⟨({ s with registrations := Function.update s.registrations k r }, .registered result), []⟩
  | .freezeRegistrations k g =>
    ⟨({ s with registries := Function.update s.registries g (s.registrations k).freeze }, .done), []⟩
  | .compileFor g document command dialect params =>
    match (s.registries g).resolve document command with
    | none => ⟨(s, .missing), []⟩
    | some resolution =>
      ⟨(s, .compiled (resolution.compile dialect params).result), (resolution.compile dialect params).events⟩

/-- The session after a request, with the events recorded. -/
def run (s : Session) (r : Request) : Session :=
  { (s.step r).result.1 with metrics := s.metrics.recordAll (s.step r).events }

def runAll (s : Session) : List Request → Session
  | [] => s
  | r :: rest => (s.run r).runAll rest

/-- The session with nothing counted. -/
def reset (s : Session) : Session :=
  { s with metrics := {} }

/-- The events of requests, one after the other. -/
def events (s : Session) : List Request → List Event
  | [] => []
  | r :: rest => (s.step r).events ++ (s.run r).events rest

theorem metrics_runAll (s : Session) (requests : List Request) :
    (s.runAll requests).metrics = s.metrics.recordAll (s.events requests) := by
  induction requests generalizing s with
  | nil => rfl
  | cons r rest ih =>
    rw [runAll, ih, events, Metrics.recordAll, Metrics.recordAll, List.foldl_append]
    rfl

/-! ### What happened -/

/-- A request, with the session that was asked and the answer. -/
structure Entry where
  before : Session
  request : Request
  answer : Answer

def entry (s : Session) (r : Request) : Entry :=
  ⟨s, r, (s.step r).result.2⟩

def history (s : Session) : List Request → List Entry
  | [] => []
  | r :: rest => s.entry r :: (s.run r).history rest

/-- The draft that is to be frozen, by its place. -/
def Request.freezes? : Request → Option Nat
  | .freeze i => some i
  | .register _ i => some i
  | _ => none

/-- The draft that is to be compiled. -/
def Request.compiles? (s : Session) : Request → Option Draft
  | .compile i _ _ => s.drafts[i]?
  | .compileFor g document command _ _ => ((s.registries g).resolve document command).map Resolution.draft
  | _ => none

/-- Whether a draft could be frozen, where it was to be. A registration fails for other reasons, too. -/
def Answer.froze? : Answer → Option Bool
  | .frozen result => some result.isOk
  | .registered (.error (.draft _)) => some false
  | .registered _ => some true
  | _ => none

namespace Entry

/-- The draft that was frozen or stayed so, and whether that ended without error. -/
def freezing? (x : Entry) : Option (Nat × Bool) :=
  x.request.freezes?.bind fun i => x.answer.froze?.map fun ok => (i, ok)

/-- The document of the draft that was compiled, if that was frozen without error, and whether compiling
ended without error. -/
def compiling? (x : Entry) : Option (String × Bool) :=
  match x.answer with
  | .compiled result =>
    ((x.request.compiles? x.before).filter fun d => d.plan?.isSome).map fun d => (d.document.path, result.isOk)
  | _ => none

/-- The document of the root of a composition that was built. -/
def composing? (x : Entry) : Option String :=
  match x.request, x.answer with
  | .compose _ _ document _, .composed (.ok _) => some document.path
  | _, _ => none

end Entry

def document? (s : Session) (i : Nat) : Option String :=
  s.drafts[i]?.map fun d => d.document.path

def isFrozen (s : Session) (i : Nat) : Bool :=
  s.drafts[i]?.any Draft.isFrozen

/-- Whether the draft could be frozen when that was asked first, unless it was frozen before. -/
def firstFreezing? (s : Session) (requests : List Request) (i : Nat) : Option Bool :=
  if s.isFrozen i then none else ((s.history requests).filterMap Entry.freezing?).lookup i

/-- How many drafts of the document were frozen first in the session, and with that outcome. -/
def freezings (s : Session) (requests : List Request) (path : String) (ok : Bool) : Nat :=
  (List.range (s.runAll requests).drafts.length).countP fun i =>
    (s.runAll requests).document? i = some path ∧ s.firstFreezing? requests i = some ok

/-- How many times a draft of the document was compiled, and with that outcome. -/
def compilings (s : Session) (requests : List Request) (path : String) (ok : Bool) : Nat :=
  (s.history requests).countP fun x => x.compiling? = some (path, ok)

/-- How many compositions were built on the document. -/
def composings (s : Session) (requests : List Request) (path : String) : Nat :=
  (s.history requests).countP fun x => x.composing? = some path

/-- What there is to count for a document. -/
def happened (s : Session) (requests : List Request) (path : String) : Tally → Nat
  | .frozen => s.freezings requests path true
  | .freezeFailed => s.freezings requests path false
  | .compiled => s.compilings requests path true
  | .compileFailed => s.compilings requests path false
  | .composed => s.composings requests path

/-! ### One request -/

/-- All drafts stay, each about its document, and none is frozen newly. -/
structure Steady (s s' : Session) : Prop where
  document : ∀ i path, s.document? i = some path → s'.document? i = some path
  frozen : ∀ i, s'.isFrozen i = s.isFrozen i

/-- What happens at a request, and the events of it. -/
inductive Happens (s : Session) (r : Request) : Prop where
  | freezes {i : Nat} {d : Draft} (draft : s.drafts[i]? = some d) (fresh : d.plan = none)
    (drafts : (s.run r).drafts = s.drafts.set i d.freeze.result)
    (freezing : (s.entry r).freezing? = some (i, d.freezes)) (compiling : (s.entry r).compiling? = none)
    (composing : (s.entry r).composing? = none) (events : (s.step r).events = [.frozen d.document.path d.freezes])
  | other (steady : Steady s (s.run r)) (freezing : ∀ i ok, (s.entry r).freezing? = some (i, ok) → s.isFrozen i = true)
    (events : (s.step r).events = ((s.entry r).compiling?.map fun x => Event.compiled x.1 x.2).toList ++
      ((s.entry r).composing?.map Event.composed).toList)

theorem steady_of_drafts {s' : Session} (h : s'.drafts = s.drafts) : Steady s s' := by
  refine ⟨fun i path hdocument => ?_, fun i => ?_⟩
  · unfold document?
    rwa [h]
  · unfold isFrozen
    rw [h]

theorem Steady.trans {s' s'' : Session} (h : Steady s s') (h' : Steady s' s'') : Steady s s'' :=
  ⟨fun i path hdocument => h'.document i path (h.document i path hdocument), fun i => (h'.frozen i).trans (h.frozen i)⟩

theorem document?_set {s' : Session} {d d' : Draft} (h : s.drafts[i]? = some d) (hset : s'.drafts = s.drafts.set i d')
    (hdocument : d'.document = d.document) (j : Nat) : s'.document? j = s.document? j := by
  unfold document?
  rw [hset]
  by_cases hij : i = j
  · subst hij
    obtain ⟨hi, -⟩ := List.getElem?_eq_some_iff.mp h
    rw [List.getElem?_set_self hi, h, Option.map_some, Option.map_some, hdocument]
  · rw [List.getElem?_set_ne hij]

theorem isFrozen_set {s' : Session} {d d' : Draft} (h : s.drafts[i]? = some d) (hset : s'.drafts = s.drafts.set i d')
    (j : Nat) : s'.isFrozen j = if i = j then d'.isFrozen else s.isFrozen j := by
  unfold isFrozen
  rw [hset]
  split
  · next hij =>
    subst hij
    obtain ⟨hi, -⟩ := List.getElem?_eq_some_iff.mp h
    rw [List.getElem?_set_self hi, Option.any_some]
  · next hij => rw [List.getElem?_set_ne hij]

theorem steady_of_set {s' : Session} {d d' : Draft} (h : s.drafts[i]? = some d) (hset : s'.drafts = s.drafts.set i d')
    (hdocument : d'.document = d.document) (hfrozen : d'.isFrozen = d.isFrozen) : Steady s s' := by
  refine ⟨fun j path hj => (document?_set h hset hdocument j).trans hj, fun j => ?_⟩
  rw [isFrozen_set h hset]
  split
  · next hij =>
    subst hij
    rw [isFrozen, h, Option.any_some, hfrozen]
  · rfl

/-- A new draft is not frozen. -/
theorem steady_of_append {s' : Session} {d : Draft} (h : s'.drafts = s.drafts ++ [d]) (hopen : d.isFrozen = false) :
    Steady s s' := by
  refine ⟨fun i path hdocument => ?_, fun i => ?_⟩
  · obtain ⟨d', hd', rfl⟩ := Option.map_eq_some_iff.mp hdocument
    obtain ⟨hi, -⟩ := List.getElem?_eq_some_iff.mp hd'
    rw [document?, h, List.getElem?_append_left hi, hd']
    rfl
  · unfold isFrozen
    rw [h, List.getElem?_append]
    split
    · rfl
    · next hi =>
      rw [List.getElem?_eq_none (Nat.le_of_not_lt hi), List.getElem?_singleton]
      split
      · exact hopen
      · rfl

/-- An edit leaves the outcome of freezing, and the document. -/
theorem perform_keeps {d d' : Draft} {e : Edit} {result : Except DraftError Unit}
    (h : e.perform.run.run d = (result, d')) : d'.document = d.document ∧ d'.plan = d.plan := by
  rw [perform_settles d e] at h
  cases hedit : d.apply e with
  | ok d'' =>
    rw [hedit] at h
    obtain ⟨-, rfl⟩ := Prod.mk.inj h
    exact ⟨(Draft.apply_ok hedit).kept.document, (Draft.apply_ok hedit).plan⟩
  | error _ =>
    rw [hedit] at h
    obtain ⟨-, rfl⟩ := Prod.mk.inj h
    exact ⟨rfl, rfl⟩

theorem events_freeze {d : Draft} (h : d.plan = none) : d.freeze.events = [.frozen d.document.path d.freezes] := by
  have hfreezes : d.freezes = d.makePlan.toOption.isSome := by
    rw [Draft.freezes, Draft.freeze_open h]
    show Except.isOk (Draft.outcome { d with plan := some d.makePlan }) = _
    cases hplan : d.makePlan <;> rfl
  rw [hfreezes, Draft.freeze, h]

theorem events_compile (d : Draft) (dialect : Sql.Dialect) (params : ParamSet) :
    (d.compile dialect params).events =
      if d.plan?.isSome then [.compiled d.document.path (d.compile dialect params).result.isOk] else [] := by
  unfold Draft.compile
  cases d.plan? with
  | none => rfl
  | some plan =>
    show [Event.compiled d.document.path (d.compilePlan plan dialect params).toOption.isSome] =
      [.compiled d.document.path (d.compilePlan plan dialect params).isOk]
    cases d.compilePlan plan dialect params <;> rfl

/-- What is compiled for another command is compiled from the draft that was found. -/
theorem resolution_compile (resolution : Resolution) (dialect : Sql.Dialect) (params : ParamSet) :
    (resolution.compile dialect params).events = (resolution.draft.compile dialect params).events ∧
      (resolution.compile dialect params).result.isOk = (resolution.draft.compile dialect params).result.isOk := by
  unfold Resolution.compile
  split
  · refine ⟨rfl, ?_⟩
    show ((resolution.draft.compile dialect params).result.map resolution.adapt).isOk = _
    cases (resolution.draft.compile dialect params).result <;> rfl
  · exact ⟨rfl, rfl⟩

/-- The entry of a request that is to compile a draft tells what compiling the draft does. -/
theorem compiling?_entry {d : Draft} {result : Except Sql.CompileError Statement} (hdraft : r.compiles? s = some d)
    (hanswer : (s.step r).result.2 = .compiled result) :
    (s.entry r).compiling? = if d.plan?.isSome then some (d.document.path, result.isOk) else none := by
  unfold Entry.compiling? entry
  simp only [hanswer, hdraft, Option.filter_some]
  cases d.plan?.isSome <;> rfl

/-- A request that is to freeze a draft, perhaps to register it. -/
theorem happens_freezes {d : Draft} {after : Session} {answer : Answer} (hdraft : s.drafts[i]? = some d)
    (hstep : s.step r = ⟨(after, answer), d.freeze.events⟩) (hdrafts : after.drafts = s.drafts.set i d.freeze.result)
    (hfreezes : r.freezes? = some i) (hanswer : answer.froze? = some d.freezes) : s.Happens r := by
  have hrun : (s.run r).drafts = s.drafts.set i d.freeze.result := by
    rw [← hdrafts]
    show (s.step r).result.1.drafts = _
    rw [hstep]
  have hfreezing : (s.entry r).freezing? = some (i, d.freezes) := by
    unfold Entry.freezing? entry
    simp only [hstep, hfreezes, hanswer, Option.bind_some, Option.map_some]
  have hcompiling : (s.entry r).compiling? = none := by
    unfold Entry.compiling? entry
    rw [hstep]
    cases answer <;> first | rfl | exact nomatch hanswer
  have hcomposing : (s.entry r).composing? = none := by
    unfold Entry.composing? entry
    rw [hstep]
    cases r <;> first | rfl | exact nomatch hfreezes
  cases hplan : d.plan with
  | none =>
    refine .freezes hdraft hplan hrun hfreezing hcompiling hcomposing ?_
    rw [hstep, events_freeze hplan]
  | some outcome =>
    -- The draft was frozen before, and stays as it is.
    have hfrozen : d.isFrozen = true := Option.isSome_iff_exists.mpr ⟨outcome, hplan⟩
    have hsame := Draft.freeze_frozen hfrozen
    refine .other (steady_of_set hdraft hrun (by rw [hsame]) (by rw [hsame])) (fun j ok hj => ?_) ?_
    · obtain ⟨rfl, -⟩ := Prod.mk.inj (Option.some.inj (hfreezing.symm.trans hj))
      rw [isFrozen, hdraft]
      exact hfrozen
    · rw [hstep, Draft.freeze, hplan, hcompiling, hcomposing]
      rfl

/-- A request that compiles a draft. -/
theorem happens_compiles {d : Draft} {result : Except Sql.CompileError Statement} {events : List Event}
    (dialect : Sql.Dialect) (params : ParamSet) (hstep : s.step r = ⟨(s, .compiled result), events⟩)
    (hdraft : r.compiles? s = some d) (hresult : result.isOk = (d.compile dialect params).result.isOk)
    (hevents : events = (d.compile dialect params).events) : s.Happens r := by
  refine .other (steady_of_drafts ?_) (fun i ok h => ?_) ?_
  · show (s.step r).result.1.drafts = _
    rw [hstep]
  · unfold Entry.freezing? entry at h
    rw [hstep] at h
    exact nomatch (Option.bind_fun_none _).symm.trans h
  · have hcomposing : (s.entry r).composing? = none := by
      unfold Entry.composing? entry
      rw [hstep]
      cases r <;> rfl
    rw [compiling?_entry hdraft (congrArg (fun step => step.result.2) hstep), hcomposing, hstep, hevents, events_compile,
      hresult]
    cases d.plan?.isSome <;> rfl

theorem happens_missing (hstep : s.step r = ⟨(s, .missing), []⟩) : s.Happens r := by
  refine .other (steady_of_drafts ?_) (fun i ok h => ?_) ?_
  · show (s.step r).result.1.drafts = _
    rw [hstep]
  · unfold Entry.freezing? entry at h
    rw [hstep] at h
    exact nomatch (Option.bind_fun_none _).symm.trans h
  · unfold Entry.compiling? Entry.composing? entry
    rw [hstep]
    cases r <;> rfl

/-- A request that neither freezes nor compiles nor composes anything. -/
theorem happens_nothing {after : Session} {answer : Answer} (hstep : s.step r = ⟨(after, answer), []⟩)
    (hsteady : Steady s after) (hfreezes : r.freezes? = none) (hcompiles : r.compiles? s = none)
    (hcomposing : (s.entry r).composing? = none) : s.Happens r := by
  refine .other ?_ (fun i ok h => ?_) ?_
  · have hdrafts : (s.run r).drafts = after.drafts := by
      show (s.step r).result.1.drafts = _
      rw [hstep]
    exact hsteady.trans (steady_of_drafts hdrafts)
  · unfold Entry.freezing? entry at h
    rw [hfreezes] at h
    exact nomatch h
  · have hcompiling : (s.entry r).compiling? = none := by
      unfold Entry.compiling? entry
      rw [hcompiles]
      cases (s.step r).result.2 <;> rfl
    rw [hstep, hcompiling, hcomposing]
    rfl

theorem happens_composes (schema : Schema) (name : String) (document : Document) (steps : List Step) :
    s.Happens (.compose schema name document steps) := by
  have hkeep (result : Except CompositionError Composition) : (s.keep result).drafts = s.drafts := by
    cases result <;> rfl
  refine .other (steady_of_drafts (hkeep _)) (fun i ok h => nomatch h) ?_
  unfold Entry.compiling? Entry.composing? entry
  simp only [step]
  unfold Composition.build
  obtain ⟨⟨site, result⟩, hsteps⟩ :
    ∃ after, Composition.takeSteps 0 { composition := .root schema name document } steps = after := ⟨_, rfl⟩
  rw [hsteps]
  cases result <;> rfl

theorem froze?_registered (r : Registrations) (d : Draft) : (Answer.registered (r.registered d).1).froze? = some d.freezes := by
  rw [Registrations.answer_registered, Draft.freezes]
  cases d.freeze.result.outcome with
  | error e => rfl
  | ok u =>
    simp only
    split <;> rfl

theorem happens (s : Session) (r : Request) : s.Happens r := by
  cases r with
  | start d started =>
    refine happens_nothing rfl (steady_of_append rfl ?_) rfl rfl rfl
    rw [Draft.isFrozen, started.untouched.2.2]
    rfl
  | edit i e =>
    cases hdraft : s.drafts[i]? with
    | none => exact happens_missing (by simp only [step, hdraft])
    | some d =>
      obtain ⟨hdocument, hplan⟩ := perform_keeps (d := d) (e := e) rfl
      exact happens_nothing (by simp only [step, hdraft]; rfl)
        (steady_of_set hdraft rfl hdocument (congrArg Option.isSome hplan)) rfl rfl rfl
  | freeze i =>
    cases hdraft : s.drafts[i]? with
    | none => exact happens_missing (by simp only [step, hdraft])
    | some d => exact happens_freezes hdraft (by simp only [step, hdraft]; rfl) rfl rfl rfl
  | compile i dialect params =>
    cases hdraft : s.drafts[i]? with
    | none => exact happens_missing (by simp only [step, hdraft])
    | some d => exact happens_compiles dialect params (by simp only [step, hdraft]) hdraft rfl rfl
  | compose schema name document steps => exact happens_composes schema name document steps
  | register k i =>
    cases hdraft : s.drafts[i]? with
    | none => exact happens_missing (by simp only [step, hdraft])
    | some d =>
      exact happens_freezes hdraft (by simp only [step, hdraft]; rfl) rfl rfl (froze?_registered (s.registrations k) d)
  | registerComposition k i =>
    cases hcomposition : s.compositions[i]? with
    | none => exact happens_missing (by simp only [step, hcomposition])
    | some c =>
      refine happens_nothing (by simp only [step, hcomposition]; rfl) ?_ rfl rfl rfl
      exact steady_of_drafts rfl
  | freezeRegistrations k g => exact happens_nothing rfl (steady_of_drafts rfl) rfl rfl rfl
  | compileFor g document command dialect params =>
    cases hfound : (s.registries g).resolve document command with
    | none => exact happens_missing (by simp only [step, hfound])
    | some resolution =>
      obtain ⟨hevents, hresult⟩ := resolution_compile resolution dialect params
      exact happens_compiles dialect params (by simp only [step, hfound])
        (congrArg (Option.map Resolution.draft) hfound) hresult hevents

end Session

end DocQuery
