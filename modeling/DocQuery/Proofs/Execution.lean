import DocQuery.Backend
import DocQuery.Proofs.Resolving
import DocQuery.Proofs.Statements

/-! Running what a registry resolves to.

A backend can be watched: `Backend.watched` notes every call that is made of it. What a registry
resolves a command to compiles to a statement of that command, whichever command the draft was
registered for (`compile_resolved`). So running it makes the command's own call, with the statement
as it is, and no other (`resolved_executes`). -/
namespace DocQuery

/-! ### Watching a backend -/

/-- A call that was made of a backend. -/
structure Request where
  /-- The command whose call it is. -/
  command : Command
  statement : Statement
  /-- The mark of deleted rows. -/
  stamp : Option Value := none

/-- The call, which also notes the request after those before it. -/
def Call.noted {σ α : Type} (request : Request) (call : Call σ α) : Call (σ × List Request) α :=
  fun (state, requests) => ((call state).1, (call state).2, requests ++ [request])

/-- The request that a command makes with a statement. -/
def Statement.request (s : Statement) (stamp : Value) (command : Command) : Request :=
  { command := command, statement := s, stamp := if command = .softDelete then some stamp else none }

namespace Backend

variable {σ ρ κ : Type}

/-- The same backend, with a list of the calls that were made of it. -/
def watched (b : Backend σ ρ κ) : Backend (σ × List Request) ρ κ where
  insert s := Call.noted { command := .insert, statement := s } (b.insert s)
  select s := Call.noted { command := .select, statement := s } (b.select s)
  update s := Call.noted { command := .update, statement := s } (b.update s)
  delete s := Call.noted { command := .delete, statement := s } (b.delete s)
  softDelete s stamp :=
    Call.noted { command := .softDelete, statement := s, stamp := some stamp } (b.softDelete s stamp)
  restore s := Call.noted { command := .restore, statement := s } (b.restore s)

/-- What the backend answers when a command is called with the statement. -/
def answer (b : Backend σ ρ κ) (s : Statement) (stamp : Value) : Command → Call σ (Outcome ρ κ)
  | .insert => fun state => settle (fun r => .ok (.row r)) (b.insert s state)
  | .select => fun state => settle (fun c => .ok (.cursor c)) (b.select s state)
  | .update => fun state => settle (fun n => .ok (.affected n)) (b.update s state)
  | .delete => fun state => settle (fun n => .ok (.affected n)) (b.delete s state)
  | .softDelete => fun state => settle (fun n => .ok (.affected n)) (b.softDelete s stamp state)
  | .restore => fun state => settle (fun n => .ok (.affected n)) (b.restore s state)

variable {b : Backend σ ρ κ} {s : Statement} {stamp : Value} {command : Command} {state : σ}
  {requests : List Request}

/-- A watched backend answers as before and notes the request. -/
theorem answer_watched : b.watched.answer s stamp command (state, requests) =
    ((b.answer s stamp command state).1, (b.answer s stamp command state).2,
      requests ++ [s.request stamp command]) := by
  cases command <;> rfl

theorem settle_ok {α : Type} {f : α → Outcome ρ κ} {call : Except ExecuteError α × σ} {o : Outcome ρ κ}
    (h : (settle (fun a => .ok (f a)) call).1 = .ok o) : ∃ a, o = f a := by
  obtain ⟨result, state⟩ := call
  cases result with
  | error e => exact nomatch h
  | ok a => exact ⟨a, (Except.ok.inj h).symm⟩

/-- The answer counts rows when the command changes some. -/
theorem affected_answer {o : Outcome ρ κ} (h : (b.answer s stamp command state).1 = .ok o) :
    o.affected?.isSome = command.needsFilter := by
  cases command with
  | insert | select | update | delete | softDelete | restore =>
    obtain ⟨a, rfl⟩ := settle_ok h
    rfl

end Backend

/-! ### Running a statement -/

section Running

variable {σ ρ κ : Type} {b : Backend σ ρ κ} {s : Statement} {stamp : Value} {state : σ}
  {requests : List Request}

/-- The command marks deleted rows and there is no field for the mark. -/
def Statement.Unmarkable (s : Statement) : Prop :=
  (s.command = .softDelete ∨ s.command = .restore) ∧ s.deletedField = none

/-- What an answer comes to. -/
def Outcome.judged (s : Statement) (o : Outcome ρ κ) : Except ExecuteError (Outcome ρ κ) :=
  if o.affected? = some 0 ∧ s.keyed = true then .error (.notFound s.document) else .ok o

theorem judged_notFound {o : Outcome ρ κ} :
    o.judged s = .error (.notFound s.document) ↔ o.affected? = some 0 ∧ s.keyed = true := by
  unfold Outcome.judged
  split
  · next h => exact iff_of_true rfl h
  · next h => exact iff_of_false nofun h

theorem judged_ok {o : Outcome ρ κ} (h : o.judged s ≠ .error (.notFound s.document)) : o.judged s = .ok o :=
  if_neg fun hzero => h (judged_notFound.mpr hzero)

theorem affectedOutcome_eq_judged (s : Statement) (n : UInt64) :
    (affectedOutcome s n : Except ExecuteError (Outcome ρ κ)) = Outcome.judged s (.affected n) := by
  unfold affectedOutcome ensureAffected Outcome.judged
  cases s.keyed with
  | false => simp
  | true => by_cases hn : n = 0 <;> simp [hn, Outcome.affected?, Except.map]

theorem settle_settle {α β γ : Type} (f : β → Except ExecuteError γ) (g : α → Except ExecuteError β)
    (call : Except ExecuteError α × σ) : settle f (settle g call) = settle (fun a => (g a).bind f) call := by
  obtain ⟨result, state⟩ := call
  cases result <;> rfl

theorem execute_unmarkable (h : s.Unmarkable) :
    execute b stamp s state = (.error (.missingDeletedField s.document s.command), state) := by
  obtain ⟨hcommand | hcommand, hfield⟩ := h
  · simp [execute, hcommand, hfield]
  · simp [execute, hcommand, hfield]

/-- Any other statement is answered by its own command. -/
theorem execute_answer (h : ¬ s.Unmarkable) :
    execute b stamp s state = settle (Outcome.judged s) (b.answer s stamp s.command state) := by
  have hjudged : affectedOutcome s = fun n => (Except.ok (.affected n)).bind (Outcome.judged (ρ := ρ) (κ := κ) s) :=
    funext (affectedOutcome_eq_judged s)
  cases hcommand : s.command with
  | insert | select =>
    simp only [execute, hcommand, Backend.answer, settle_settle]
    rfl
  | update | delete =>
    simp only [execute, hcommand, Backend.answer, settle_settle, hjudged]
  | softDelete | restore =>
    have hfield : s.deletedField.isNone = false := by
      rw [Option.isNone_eq_false_iff, Option.isSome_iff_ne_none]
      exact fun hnone => h ⟨by simp [hcommand], hnone⟩
    simp only [execute, hcommand, hfield, Backend.answer, settle_settle, hjudged]
    rfl

/-- What running a statement of the command gives, and what it leaves of a watched backend. -/
structure Executed (b : Backend σ ρ κ) (s : Statement) (stamp : Value) (command : Command) (state : σ)
    (requests : List Request) (run : Except ExecuteError (Outcome ρ κ) × σ × List Request) : Prop where
  /-- Without a field for the mark no call is made. -/
  refused : s.Unmarkable → run = (.error (.missingDeletedField s.document command), state, requests)
  /-- Otherwise one call is made, that of the command, with the statement as it is. -/
  called : ¬ s.Unmarkable →
    run.2 = ((b.answer s stamp command state).2, requests ++ [s.request stamp command])
  failed : ¬ s.Unmarkable → ∀ e, (b.answer s stamp command state).1 = .error e → run.1 = .error e
  /-- A change that touched no row has not found the row that a key names. -/
  notFound : ¬ s.Unmarkable → ∀ o, (b.answer s stamp command state).1 = .ok o →
    (run.1 = .error (.notFound s.document) ↔
      command.needsFilter = true ∧ o.affected? = some 0 ∧ s.keyed = true)
  answered : ¬ s.Unmarkable → ∀ o, (b.answer s stamp command state).1 = .ok o →
    run.1 ≠ .error (.notFound s.document) → run.1 = .ok o

theorem execute_executed (b : Backend σ ρ κ) (s : Statement) (stamp : Value) (state : σ) (requests : List Request) :
    Executed b s stamp s.command state requests (execute b.watched stamp s (state, requests)) := by
  have hrun : ¬ s.Unmarkable → execute b.watched stamp s (state, requests) =
      settle (Outcome.judged s) ((b.answer s stamp s.command state).1,
        (b.answer s stamp s.command state).2, requests ++ [s.request stamp s.command]) :=
    fun h => (execute_answer h).trans (congrArg _ Backend.answer_watched)
  have hjudged : ¬ s.Unmarkable → ∀ o, (b.answer s stamp s.command state).1 = .ok o →
      (execute b.watched stamp s (state, requests)).1 = Outcome.judged s o := by
    intro h o ho
    rw [hrun h, ho]
    rfl
  refine ⟨execute_unmarkable, fun h => ?_, fun h e he => ?_, fun h o ho => ?_, fun h o ho hfound => ?_⟩
  · rw [hrun h]
    rfl
  · rw [hrun h, he]
    rfl
  · have hcounts : o.affected? = some 0 → s.command.needsFilter = true := by
      intro hzero
      rw [← Backend.affected_answer ho, hzero]
      rfl
    rw [hjudged h o ho, judged_notFound]
    exact ⟨fun hzero => ⟨hcounts hzero.1, hzero⟩, fun hzero => hzero.2⟩
  · rw [hjudged h o ho] at hfound ⊢
    exact judged_ok hfound

end Running

/-! ### Compiling what a command resolves to -/

/-- The field for the mark of deleted rows: that of the draft or, where the draft is borrowed and
has none, that of its document. -/
def Resolution.mark? (r : Resolution) : Option FieldPath :=
  r.draft.deletedField.or (if r.isFallback then markField? r.draft.schema r.draft.document else none)

section Resolved

variable {r : Registrations} {document : String} {command : Command} {resolution : Resolution}
  {dialect : Sql.Dialect} {params : ParamSet} {s : Statement}

/-- A resolved command compiles to a statement of that command. -/
theorem compile_resolved (hresolve : r.freeze.resolve document command = some resolution)
    (hcompile : (resolution.compile dialect params).result = .ok s) :
    s.command = command ∧ s.deletedField = resolution.mark? := by
  rw [Registrations.resolve_freeze] at hresolve
  obtain ⟨hrequested, -, hdraft⟩ := Registrations.firstOf?_some hresolve
  obtain ⟨-, -, hsource⟩ := Registrations.draft?_some hdraft
  unfold Resolution.compile at hcompile
  cases hfallback : resolution.isFallback with
  | true =>
    rw [hfallback, if_pos rfl] at hcompile
    cases hdeclared : (resolution.draft.compile dialect params).result with
    | error e =>
      rw [hdeclared] at hcompile
      exact nomatch hcompile
    | ok declared =>
      rw [hdeclared] at hcompile
      obtain rfl := Except.ok.inj hcompile
      obtain ⟨plan, containers, filter, bound, -, -, rfl⟩ := Draft.compile_ok hdeclared
      refine ⟨hrequested, ?_⟩
      rw [Resolution.mark?, hfallback]
      rfl
  | false =>
    rw [hfallback, if_neg Bool.false_ne_true] at hcompile
    obtain ⟨plan, containers, filter, bound, -, -, rfl⟩ := Draft.compile_ok hcompile
    have hsame : resolution.requested = resolution.source := by
      simpa [Resolution.isFallback] using hfallback
    refine ⟨hsource.trans (hsame.symm.trans hrequested), ?_⟩
    rw [Resolution.mark?, hfallback]
    exact Option.or_none.symm

/-- **Running a command never runs another.** What a registry resolves the command to is run by one
call, the command's own, with the statement as it is. Only the marking of deleted rows without a
field for the mark fails before any call. -/
theorem resolved_executes (hresolve : r.freeze.resolve document command = some resolution)
    (hcompile : (resolution.compile dialect params).result = .ok s) {σ ρ κ : Type} (b : Backend σ ρ κ)
    (stamp : Value) (state : σ) (requests : List Request) :
    s.command = command ∧ s.deletedField = resolution.mark? ∧
      Executed b s stamp command state requests (execute b.watched stamp s (state, requests)) := by
  obtain ⟨hcommand, hmark⟩ := compile_resolved hresolve hcompile
  have hexecuted := execute_executed b s stamp state requests
  rw [hcommand] at hexecuted
  exact ⟨hcommand, hmark, hexecuted⟩

end Resolved

/-! A draft that deletes a row, borrowed to mark it, on a backend that counts its calls and finds no
row. -/

def memo : Document where
  path := "desk.Memo"
  name := "Memo"
  storage := "memos"
  fields := [{ name := "id", storage := "Id", kind := .int, roles := [.identifier] },
    { name := "gone", storage := "Gone", kind := .timestamp, nullable := true, roles := [.deleted] }]

def memoDeletion : Draft :=
  ((Draft.forDocument [memo] memo .delete).edit
    (.compare .filter "" (.named "id") .equal (.const (.int 7) false))).freeze.result

def memoRegistrations : Registrations :=
  (({} : Registrations).register memoDeletion).result.toOption.getD {}

def emptyBackend : Backend Nat Unit Unit where
  insert _ calls := (.ok (), calls + 1)
  select _ calls := (.ok (), calls + 1)
  update _ calls := (.ok 0, calls + 1)
  delete _ calls := (.ok 0, calls + 1)
  softDelete _ _ calls := (.ok 0, calls + 1)
  restore _ calls := (.ok 0, calls + 1)

theorem resolved_executes_memo :
    ∃ s, memoRegistrations.freeze.resolve "desk.Memo" .softDelete = some ⟨memoDeletion, .softDelete, .delete⟩ ∧
      (Resolution.compile ⟨memoDeletion, .softDelete, .delete⟩ .postgres {}).result = .ok s ∧
      (s.command = .softDelete ∧ s.deletedField = Resolution.mark? ⟨memoDeletion, .softDelete, .delete⟩ ∧
        Executed emptyBackend s .null .softDelete 0 [] (execute emptyBackend.watched .null s (0, []))) ∧
      execute emptyBackend.watched .null s (0, []) =
        (.error (.notFound "desk.Memo"), 1, [s.request .null .softDelete]) := by
  have hresolve : memoRegistrations.freeze.resolve "desk.Memo" .softDelete =
      some ⟨memoDeletion, .softDelete, .delete⟩ := by
    rw [Registrations.resolve_freeze]
    rfl
  have hrun : ∃ s, (Resolution.compile ⟨memoDeletion, .softDelete, .delete⟩ .postgres {}).result = .ok s ∧
      execute emptyBackend.watched .null s (0, []) =
        (.error (.notFound "desk.Memo"), 1, [s.request .null .softDelete]) := ⟨_, rfl, rfl⟩
  obtain ⟨s, hcompile, hexecute⟩ := hrun
  exact ⟨s, hresolve, hcompile, resolved_executes hresolve hcompile emptyBackend .null 0 [], hexecute⟩

end DocQuery
