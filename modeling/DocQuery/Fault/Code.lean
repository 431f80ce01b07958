import DocQuery.Fault

/-! Codes of errors.

A code names the cause of an error and stays the same when the wording of its message
changes. It begins with the activity that failed; the code of an error that was passed up
keeps where it came from. -/
namespace DocQuery

/-! ### Causes -/

def OperandError.cause : OperandError → String
  | nullOnNonNullable .. => "NullOnNonNullable"
  | nullOperand .. => "NullOperand"
  | malformedRange .. => "MalformedBetween"
  | illegalFieldComparison .. => "IllegalFieldComparison"

def PathError.cause : PathError → String
  | unknownField .. => "UnknownField"
  | foreignField .. => "ForeignField"

def ConditionError.cause : ConditionError → String
  | notQueryable .. => "NotQueryable"
  | operatorNotSupported .. => "OperatorNotSupported"
  | caseInsensitive .. => "CaseInsensitive"
  | invalidLiteral .. => "InvalidLiteral"
  | incompatibleFields .. => "IncompatibleFields"
  | operand e => e.cause

def DraftError.cause : DraftError → String
  | path e => e.cause
  | condition e => e.cause
  | unknownAlias .. => "UnknownAlias"
  | duplicateAlias .. => "DuplicateAlias"
  | missingPrimary .. => "MissingPrimary"
  | duplicatePrimary .. => "DuplicatePrimary"
  | missingFilter .. => "MissingFilter"
  | frozen .. => "Frozen"
  | notOrderable .. => "NotOrderable"
  | notAggregatable .. => "NotAggregatable"
  | unknownParameter .. => "UnknownParameter"
  | duplicateParameter .. => "DuplicateParameter"
  | unbalancedGroup .. => "UnbalancedGroup"
  | missingRole .. => "MissingRoleField"
  | missingConnect .. => "MissingConnect"
  | notExecutable .. => "NotExecutable"
  | selectOnly .. => "SelectOnly"

def FlatError.cause : FlatError → String
  | unexpectedClose .. => "UnexpectedClose"
  | unclosedGroup .. => "UnclosedGroup"
  | emptyGroup .. => "EmptyGroup"

/-! ### Codes -/

/-- Errors that have a code and become faults. -/
class Failure (ε : Type) where
  code : ε → String
  fault : ε → Fault

def FlatError.code (e : FlatError) : String :=
  "Codec." ++ e.cause

def PathError.code (e : PathError) : String :=
  "Config." ++ e.cause

def ConditionError.code (e : ConditionError) : String :=
  "Config." ++ e.cause

def DraftError.code (e : DraftError) : String :=
  "Config." ++ e.cause

def ParamError.code : ParamError → String
  | unknown .. => "Compile.UnknownParameter"
  | notNullable .. => "Compile.NullParameter"

def Sql.CompileError.code (e : CompileError) : String :=
  "Compile." ++ match e with
    | unsetParameter .. => "UnsetParameter"
    | operand e => e.cause
    | unsupportedOperand .. => "UnsupportedOperand"
    | invalidLiteral .. => "InvalidLiteral"
    | emptyCondition => "EmptyCondition"
    | flat e => e.code
    | notNormalized .. => "NotNormalized"

def CompositionError.code (e : CompositionError) : String :=
  "Tree." ++ match e with
    | duplicateNode .. => "DuplicateNode"
    | noMatchingAncestor .. => "NoMatchingAncestor"
    | ambiguousAncestor .. => "AmbiguousAncestor"
    | unknownAncestor .. => "UnknownAncestor"
    | untypedAncestorField .. => "UntypedAncestorField"
    | missingParentValue .. => "MissingParentValue"
    | path e => e.code
    | condition e => e.code

def DisjunctError.code (e : DisjunctError) : String :=
  "Slice." ++ match e with
    | tooMany .. => "TooManyGroups"
    | flat e => e.code

def RegistryError.code (e : RegistryError) : String :=
  "Registry." ++ match e with
    | duplicateDraft .. => "DuplicateBuilder"
    | duplicateComposition .. => "DuplicateTree"
    | draft e => e.code

def ExecuteError.code : ExecuteError → String
  | notFound .. => "Execute.NotFound"
  | missingDeletedField .. => "Execute.MissingDeletedField"
  | backend .. => "Execute.Backend"

def Sql.SettingsError.code : SettingsError → String
  | unreadable => "ConfigFile.Parse"
  | _ => "ConfigFile.Invalid"

instance : Failure PathError := ⟨PathError.code, PathError.fault⟩

instance : Failure DraftError := ⟨DraftError.code, DraftError.fault⟩

instance : Failure ParamError := ⟨ParamError.code, ParamError.fault⟩

instance : Failure Sql.CompileError := ⟨Sql.CompileError.code, Sql.CompileError.fault⟩

instance : Failure CompositionError := ⟨CompositionError.code, CompositionError.fault⟩

instance : Failure DisjunctError := ⟨DisjunctError.code, DisjunctError.fault⟩

instance : Failure RegistryError := ⟨RegistryError.code, RegistryError.fault⟩

instance : Failure ExecuteError := ⟨ExecuteError.code, ExecuteError.fault⟩

instance : Failure Sql.SettingsError := ⟨Sql.SettingsError.code, Sql.SettingsError.fault⟩

end DocQuery
