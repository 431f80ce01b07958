import DocQuery.Backend
import DocQuery.Registry
import DocQuery.Sql.Settings

/-! Faults: every error in one shape, with where it came from and what kind it is. -/
namespace DocQuery

inductive FaultClass where
  | backend
  | configuration
  | invariantViolation
  | notFound
  | unsupported
  deriving DecidableEq, Repr

def FaultClass.all : List FaultClass :=
  [backend, configuration, invariantViolation, notFound, unsupported]

def FaultClass.name : FaultClass → String
  | backend => "backend"
  | configuration => "configuration"
  | invariantViolation => "invariant_violation"
  | notFound => "not_found"
  | unsupported => "unsupported"

inductive FaultOrigin where
  | builder
  | compile
  | config
  | executor
  | hierarchy
  | registry
  | slice
  deriving DecidableEq, Repr

def FaultOrigin.all : List FaultOrigin :=
  [builder, compile, config, executor, hierarchy, registry, slice]

def FaultOrigin.name : FaultOrigin → String
  | builder => "builder"
  | compile => "compile"
  | config => "config"
  | executor => "executor"
  | hierarchy => "hierarchy"
  | registry => "registry"
  | slice => "slice"

structure Fault where
  kind : FaultClass
  origin : FaultOrigin
  message : String
  deriving DecidableEq, Repr

namespace Fault

/-- Where the fault came from and what kind it is. -/
def tag (f : Fault) : String :=
  f.origin.name ++ ":" ++ f.kind.name

def messageWithTag (f : Fault) : String :=
  f.tag ++ ": " ++ f.message

def isNotFound (f : Fault) : Bool :=
  f.kind == .notFound

def isConfiguration (f : Fault) : Bool :=
  f.kind == .configuration

/-- A row that is not there. -/
def missing (message : String) : Fault :=
  ⟨.notFound, .executor, message⟩

end Fault

def PathError.fault (e : PathError) : Fault :=
  ⟨.configuration, .builder, e.message⟩

def ConditionError.fault (e : ConditionError) : Fault :=
  ⟨.configuration, .builder, e.message⟩

def DraftError.fault (e : DraftError) : Fault :=
  ⟨.configuration, .builder, e.message⟩

/-- A value that a live record lacks is no fault of the composition. -/
def CompositionError.fault : CompositionError → Fault
  | missingParentValue node field =>
    ⟨.invariantViolation, .hierarchy, (missingParentValue node field).message⟩
  | e => ⟨.configuration, .hierarchy, e.message⟩

/-- The caller should have set the parameter or frozen the draft; other errors are about
what has no rendering. -/
def Sql.CompileError.fault : Sql.CompileError → Fault
  | unsetParameter name => ⟨.invariantViolation, .compile, (unsetParameter name).message⟩
  | notNormalized document => ⟨.invariantViolation, .compile, (notNormalized document).message⟩
  | e => ⟨.unsupported, .compile, e.message⟩

def ParamError.fault (e : ParamError) : Fault :=
  ⟨.unsupported, .compile, e.message⟩

def DisjunctError.fault (e : DisjunctError) : Fault :=
  ⟨.unsupported, .slice, e.message⟩

def RegistryError.fault : RegistryError → Fault
  | draft e => e.fault
  | e => ⟨.configuration, .registry, e.message⟩

def ExecuteError.fault : ExecuteError → Fault
  | notFound document => .missing (notFound document).message
  | missingDeletedField document command =>
    ⟨.invariantViolation, .executor, (missingDeletedField document command).message⟩
  | backend reason => ⟨.backend, .executor, (backend reason).message⟩

def Sql.SettingsError.fault (e : Sql.SettingsError) : Fault :=
  ⟨.configuration, .config, e.message⟩

end DocQuery
