import DocQuery.Condition.Json
import DocQuery.Operation.Statement
import DocQuery.Value.Json

/-! Statements as JSON objects, for a backend that takes them as data.

A field path is its dotted text. What is not there is null. -/
namespace DocQuery

open Json (member object)

/-! ### Names -/

instance : Named Command := ⟨Command.all, Command.tag⟩

instance : Named Operation := ⟨Operation.all, Operation.name⟩

instance : Named ContainerKind := ⟨ContainerKind.all, ContainerKind.name⟩

instance : Named Join := ⟨Join.all, Join.name⟩

instance : Named Marker := ⟨Marker.all, Marker.name⟩

instance : Named Direction := ⟨Direction.all, Direction.name⟩

instance : Named Aggregate := ⟨Aggregate.all, Aggregate.name⟩

/-! ### Clauses and statements -/

instance : ToJson Value := ⟨Value.toJson⟩

instance : ToJson Projection := ⟨fun p =>
  object [member "marker" p.marker, member "name" p.name, member "alias" p.qualifier,
    member "field" p.field]⟩

instance : ToJson SortKey := ⟨fun k =>
  object [member "alias" k.qualifier, member "field" k.field, member "direction" k.direction]⟩

instance : ToJson Aggregation := ⟨fun a =>
  object [member "alias" a.qualifier, member "field" a.field, member "op" a.op,
    member "name" a.name]⟩

instance : ToJson Page := ⟨fun p => object [member "skip" p.skip, member "take" p.take]⟩

instance : ToJson CompiledContainer := ⟨fun c =>
  object [member "alias" c.qualifier, member "storage_name" c.storage, member "kind" c.kind,
    member "operation" c.operation, member "join" c.join, member "connect" c.connect]⟩

instance : ToJson Statement := ⟨fun s =>
  object [member "document" s.document, member "command" s.command,
    member "containers" s.containers, member "filter" s.filter, member "params" s.params,
    member "projection" s.projection, member "sort" s.sort, member "aggregates" s.aggregates,
    member "page" s.page, member "deleted_field" s.deletedField, member "keyed" s.keyed]⟩

instance : ToJson Sql.Compiled := ⟨fun c =>
  object [member "text" c.text, member "params" c.params]⟩

end DocQuery
