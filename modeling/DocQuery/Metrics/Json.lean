import DocQuery.Json.Form
import DocQuery.Metrics.Counters

/-! Metrics as a JSON object: the counters over all, those of each document by its path,
and the documents once more in the order of the report. An event is an array of its name,
the document and, where it can fail, whether it went well. -/
namespace DocQuery

open Json (member object)

instance : ToJson Event := ⟨fun
  | .frozen document ok => .array [toJson "normalized", toJson document, toJson ok]
  | .compiled document ok => .array [toJson "compiled", toJson document, toJson ok]
  | .composed document => .array [toJson "tree_built", toJson document]⟩

def Counters.members (c : Counters) : List (String × Json) :=
  [member "normalized" c.frozen, member "normalize_failed" c.freezeFailed,
    member "compiled" c.compiled, member "compile_failed" c.compileFailed,
    member "trees_built" c.composed]

instance : ToJson Counters := ⟨fun c => object c.members⟩

instance : ToJson Metrics := ⟨fun m =>
  object [member "ops" m.total,
    member "documents" (object (m.documents.map fun (path, c) => member path c)),
    member "summary" (m.report.map fun (path, c) =>
      object (member "path" path :: c.members))]⟩

end DocQuery
