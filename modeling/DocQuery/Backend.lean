import DocQuery.Operation.Statement

/-! Running statements on a backend.

A backend is a state and one call for each command. `execute` makes the call of the
statement's command. A change that touched no row is an error when the statement is
keyed, since the row it names is not there. Marking deleted rows needs a field for the
mark and fails without a call when there is none. -/
namespace DocQuery

inductive ExecuteError where
  | notFound (document : String)
  | missingDeletedField (document : String) (command : Command)
  | backend (reason : String)
  deriving DecidableEq, Repr

def ExecuteError.message : ExecuteError → String
  | notFound document => document ++ ": no row matched the operation filter"
  | missingDeletedField document command =>
    document ++ ": " ++ command.name ++ " needs a deleted-role field"
  | backend reason => "backend failure: " ++ reason

/-- A call that may change the backend and may fail. -/
abbrev Call (σ α : Type) := σ → Except ExecuteError α × σ

/-- A backend with states `σ`, rows `ρ` and results of a select `κ`. Changes give the
number of rows they touched. -/
structure Backend (σ ρ κ : Type) where
  insert : Statement → Call σ ρ
  select : Statement → Call σ κ
  update : Statement → Call σ UInt64
  delete : Statement → Call σ UInt64
  /-- Puts the value into the deleted field of the rows. -/
  softDelete : Statement → Value → Call σ UInt64
  /-- Takes the value out of the deleted field again. -/
  restore : Statement → Call σ UInt64

inductive Outcome (ρ κ : Type) where
  | row (r : ρ)
  | cursor (c : κ)
  | affected (n : UInt64)

def Outcome.affected? {ρ κ : Type} : Outcome ρ κ → Option UInt64
  | affected n => some n
  | _ => none

/-- The number of rows, of which there must be some. -/
def ensureAffected (document : String) (n : UInt64) : Except ExecuteError UInt64 :=
  if n = 0 then .error (.notFound document) else .ok n

/-- What the number of rows that a change touched comes to. -/
def affectedOutcome {ρ κ : Type} (s : Statement) (n : UInt64) :
    Except ExecuteError (Outcome ρ κ) :=
  if s.keyed then (ensureAffected s.document n).map .affected else .ok (.affected n)

/-- The call's state with what its result comes to. -/
def settle {σ α β : Type} (f : α → Except ExecuteError β) (r : Except ExecuteError α × σ) :
    Except ExecuteError β × σ :=
  (r.1.bind f, r.2)

/-- Runs a statement; `stamp` is the value that marks deleted rows. -/
def execute {σ ρ κ : Type} (b : Backend σ ρ κ) (stamp : Value) (s : Statement) :
    Call σ (Outcome ρ κ) := fun state =>
  let missing := ExecuteError.missingDeletedField s.document s.command
  match s.command with
  | .insert => settle (fun r => .ok (.row r)) (b.insert s state)
  | .select => settle (fun c => .ok (.cursor c)) (b.select s state)
  | .update => settle (affectedOutcome s) (b.update s state)
  | .delete => settle (affectedOutcome s) (b.delete s state)
  | .softDelete =>
    if s.deletedField.isNone then (.error missing, state)
    else settle (affectedOutcome s) (b.softDelete s stamp state)
  | .restore =>
    if s.deletedField.isNone then (.error missing, state)
    else settle (affectedOutcome s) (b.restore s state)

end DocQuery
