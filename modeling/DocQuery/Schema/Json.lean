import DocQuery.Json.Form
import DocQuery.Schema.Document

/-! Kinds, roles and fields as JSON. -/
namespace DocQuery

open Json (member object)

instance : Named Role := ⟨Role.all, Role.name⟩

instance : ToJson FieldKind := ⟨fun k => .string k.name⟩

instance : ToJson Field := ⟨fun f =>
  object [member "name" f.name, member "storage" f.storage, member "kind" f.kind,
    member "nullable" f.nullable, member "roles" (Role.all.filter f.hasRole),
    member "stored" f.isStored, member "depends_on" f.dependsOn,
    member "plain" f.roles.isEmpty]⟩

end DocQuery
