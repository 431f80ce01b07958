/-! Events worth counting, and results that come with the events on the way to them. -/
namespace DocQuery

inductive Event where
  /-- A draft of the document was frozen for the first time. -/
  | frozen (document : String) (ok : Bool)
  /-- A frozen draft of the document was compiled. -/
  | compiled (document : String) (ok : Bool)
  /-- A composition with this root was built. -/
  | composed (document : String)
  deriving DecidableEq, Repr

/-- A result and the events that led to it, in order. -/
structure Traced (α : Type) where
  result : α
  events : List Event := []

end DocQuery
