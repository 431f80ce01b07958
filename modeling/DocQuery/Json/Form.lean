import DocQuery.Json

/-! Types with a JSON form. A type of a few values that have names is written by name. -/
namespace DocQuery

class ToJson (α : Type) where
  toJson : α → Json

export ToJson (toJson)

/-- A type of a few values, each known by a name of its own. -/
class Named (α : Type) where
  all : List α
  name : α → String

/-- The value of that name. -/
def Named.ofName? {α : Type} [Named α] (name : String) : Option α :=
  (all : List α).find? fun a => Named.name a == name

namespace ToJson

variable {α : Type}

instance [Named α] : ToJson α := ⟨fun a => .string (Named.name a)⟩

instance : ToJson Json := ⟨id⟩

instance : ToJson Bool := ⟨.bool⟩

instance : ToJson Int := ⟨.int⟩

instance : ToJson Nat := ⟨fun n => .int n⟩

instance : ToJson UInt64 := ⟨fun n => .int n.toNat⟩

instance : ToJson String := ⟨.string⟩

instance [ToJson α] : ToJson (List α) := ⟨fun items => .array (items.map toJson)⟩

instance [ToJson α] : ToJson (Option α) := ⟨fun a => (a.map toJson).getD .null⟩

end ToJson

/-- A member of an object. -/
def Json.member {α : Type} [ToJson α] (key : String) (a : α) : String × Json :=
  (key, toJson a)

end DocQuery
