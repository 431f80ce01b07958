import DocQuery.Condition.Flat
import DocQuery.Condition.Predicate
import DocQuery.Json.Form

/-! Conditions as JSON, for diagnostics. A predicate is its text, under `ci` if it
disregards case; a group is an object with one member, which is named for its kind. -/
namespace DocQuery

open Json (member object)

instance : Named Operator := ⟨Operator.all, Operator.name⟩

def Joiner.name : Joiner → String
  | and => "and"
  | or => "or"

instance : Named Joiner := ⟨[.and, .or], Joiner.name⟩

instance : ToJson FieldPath := ⟨fun p => .string p.dotted⟩

instance : ToJson Predicate := ⟨fun p =>
  if p.foldCase then object [member "ci" p.display] else .string p.display⟩

namespace Tree

variable {α : Type} [ToJson α]

mutual

def toJson : Tree α → Json
  | leaf a => ToJson.toJson a
  | node j members => object [(j.name, .array (toJsonAll members))]
  | group t => object [("group", toJson t)]

def toJsonAll : List (Tree α) → List Json
  | [] => []
  | t :: rest => toJson t :: toJsonAll rest

end

instance : ToJson (Tree α) := ⟨toJson⟩

end Tree

/-- What there is to say about a term: the kind of its operand, and how it is joined. -/
def FlatTerm.flags (t : FlatTerm Predicate) : List String :=
  [("field", t.item.operand.isField), ("const", t.item.operand.isConst),
    ("param", t.item.operand.isParam), ("or", t.byOr), ("connect", t.connect)].filterMap
    fun (flag, set) => if set then some flag else none

instance : ToJson (FlatTerm Predicate) := ⟨fun t =>
  object [member "p" t.item, member "delta" t.delta, member "flags" t.flags]⟩

end DocQuery
