import DocQuery.Parameter
import DocQuery.Schema.Json

/-! Declared parameters as JSON. -/
namespace DocQuery

open Json (member object)

instance : Named ParamDirection := ⟨ParamDirection.all, ParamDirection.name⟩

instance : ToJson Parameter := ⟨fun p =>
  object [member "name" p.name, member "kind" p.kind, member "nullable" p.nullable,
    member "direction" p.direction, member "size" (p.size.map (·.toNat)),
    member "precision" (p.precision.map (·.toNat)), member "scale" (p.scale.map (·.toNat)),
    member "db_type" p.dbType, member "used" p.used]⟩

end DocQuery
