import DocQuery.Composition.Build
import DocQuery.Operation.Statement

/-! The registry of operations and compositions.

Drafts are registered under their document and command, frozen and without error, and
compositions under the document of their root. Once everything is registered the registry
is frozen: for every document with a draft and every command, the draft to use is worked
out, which is that of the command itself or of the first fallback that has one. -/
namespace DocQuery

inductive RegistryError where
  | duplicateDraft (document : String) (command : Command)
  | duplicateComposition (document : String)
  | draft (e : DraftError)
  deriving DecidableEq, Repr

def RegistryError.message : RegistryError → String
  | duplicateDraft document command =>
    document ++ ": a " ++ command.name ++ " builder is already registered"
  | duplicateComposition document =>
    document ++ ": a composition tree is already registered"
  | draft e => e.message

/-! ### Registering -/

/-- What was registered so far, in order. -/
structure Registrations where
  drafts : List Draft := []
  compositions : List Composition := []

/-- The document of the root. -/
def Composition.rootDocument? (c : Composition) : Option Document :=
  c.nodes.head?.map Node.document

def Composition.rootPath (c : Composition) : String :=
  (c.rootDocument?.map Document.path).getD ""

namespace Registrations

/-- The draft for exactly that document and command. -/
def draft? (r : Registrations) (document : String) (command : Command) : Option Draft :=
  r.drafts.find? fun d => d.document.path == document && d.command == command

/-- Freezes a draft and adds it, unless that fails or there is one already. -/
def register (r : Registrations) (d : Draft) : Traced (Except RegistryError Registrations) :=
  let frozen := d.freeze
  let d := frozen.result
  let result :=
    match d.outcome with
    | .error e => .error (.draft e)
    | .ok () =>
      if (r.draft? d.document.path d.command).isSome then
        .error (.duplicateDraft d.document.path d.command)
      else .ok { r with drafts := r.drafts ++ [d] }
  { result := result, events := frozen.events }

end Registrations

/-! ### Registering in place -/

/-- Computations that register something and may fail. What was registered before an error
stays. -/
abbrev Registering := ExceptT RegistryError (StateM Registrations)

namespace Registering

/-- Enters a frozen draft. -/
def enter (d : Draft) : Registering Unit := do
  match d.outcome with
  | .error e => throw (.draft e)
  | .ok () =>
    if ((← get).draft? d.document.path d.command).isSome then
      throw (.duplicateDraft d.document.path d.command)
    else modify fun r => { r with drafts := r.drafts ++ [d] }

/-- Freezes a draft and enters it. `Registrations.register` is the same with the
registrations as a value. -/
def draft (d : Draft) : Traced (Registering Unit) :=
  { result := enter d.freeze.result, events := d.freeze.events }

def composition (c : Composition) : Registering Unit := do
  if (← get).compositions.any fun d => d.rootPath == c.rootPath then
    throw (.duplicateComposition c.rootPath)
  else modify fun r => { r with compositions := r.compositions ++ [c] }

end Registering

/-! ### Resolving -/

/-- A draft to use for a command. If it was borrowed its own command is another. -/
structure Resolution where
  draft : Draft
  requested : Command
  source : Command

namespace Resolution

def isFallback (r : Resolution) : Bool :=
  r.requested != r.source

/-- The containers with the first that is not joined doing `operation`. -/
def retarget (operation : Operation) : List CompiledContainer → List CompiledContainer
  | [] => []
  | c :: rest =>
    if c.join.isNone then { c with operation := operation } :: rest
    else c :: retarget operation rest

/-- The field that marks deleted rows of a document. -/
def markField? (schema : Schema) (d : Document) : Option FieldPath :=
  d.deleted?.bind fun f => (FieldPath.resolve schema d f.name).toOption

/-- A borrowed statement made one of the requested command. -/
def adapt (r : Resolution) (s : Statement) : Statement :=
  { s with
    command := r.requested
    containers := retarget r.requested.operation s.containers
    deletedField := s.deletedField.or (markField? r.draft.schema r.draft.document) }

/-- Compiles the draft as the requested command. -/
def compile (r : Resolution) (dialect : Sql.Dialect) (params : ParamSet) :
    Traced (Except Sql.CompileError Statement) :=
  let compiled := r.draft.compile dialect params
  if r.isFallback then { compiled with result := compiled.result.map r.adapt } else compiled

end Resolution

structure Registry where
  /-- What each command on each document resolves to, by the paths in order. -/
  resolved : List (String × List (Command × Resolution))
  compositions : List Composition

namespace Registrations

/-- Keys are in order by their documents, and for one document by their commands. -/
def keyLe (a b : String × Command) : Bool :=
  if a.1 = b.1 then a.2.index ≤ b.2.index else a.1 ≤ b.1

/-- The document and the command of every draft, in order. -/
def keys (r : Registrations) : List (String × Command) :=
  (r.drafts.map fun d => (d.document.path, d.command)).mergeSort keyLe

/-- The paths of the documents with a draft. Keys of one document stand side by side, so
that leaving out repetitions gives each path once. -/
def documents (r : Registrations) : List String :=
  (r.keys.map Prod.fst).eraseReps

/-- The draft of the first of these commands that has one. -/
def firstOf? (r : Registrations) (document : String) (requested : Command) :
    List Command → Option Resolution
  | [] => none
  | source :: rest =>
    match r.draft? document source with
    | some d => some ⟨d, requested, source⟩
    | none => r.firstOf? document requested rest

/-- What the commands on a document resolve to. -/
def resolutions (r : Registrations) (document : String) : List (Command × Resolution) :=
  Command.all.filterMap fun c =>
    (r.firstOf? document c (c :: c.fallbacks)).map fun resolution => (c, resolution)

def freeze (r : Registrations) : Registry :=
  { resolved := r.documents.map fun path => (path, r.resolutions path)
    compositions := r.compositions }

end Registrations

namespace Registry

/-- The draft for a command on a document, its own or a fallback. -/
def resolve (r : Registry) (document : String) (command : Command) : Option Resolution := do
  (← r.resolved.lookup document).lookup command

/-- The draft registered for exactly that command. -/
def draft? (r : Registry) (document : String) (command : Command) : Option Draft := do
  let resolution ← r.resolve document command
  if resolution.isFallback then none else some resolution.draft

def composition? (r : Registry) (document : String) : Option Composition :=
  r.compositions.find? fun c => c.rootPath == document

def documents (r : Registry) : List String :=
  r.resolved.map fun entry => entry.1

end Registry

end DocQuery
