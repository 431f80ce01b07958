import DocQuery.Metrics.Event

/-! Counting events, over all and by document.

A counter that has reached the greatest number it can hold stays there. The documents with
an event are reported with the one compiled most often first, and those compiled equally
often in the order of their paths. -/
namespace DocQuery

structure Counters where
  frozen : UInt64 := 0
  freezeFailed : UInt64 := 0
  compiled : UInt64 := 0
  compileFailed : UInt64 := 0
  composed : UInt64 := 0
  deriving DecidableEq, Repr

/-- The document that an event is about. -/
def Event.document : Event → String
  | frozen document _ => document
  | compiled document _ => document
  | composed document => document

/-- One more, unless that is more than a counter can hold. -/
def Counters.oneMore (n : UInt64) : UInt64 :=
  if n + 1 = 0 then n else n + 1

def Counters.count (c : Counters) : Event → Counters
  | .frozen _ true => { c with frozen := oneMore c.frozen }
  | .frozen _ false => { c with freezeFailed := oneMore c.freezeFailed }
  | .compiled _ true => { c with compiled := oneMore c.compiled }
  | .compiled _ false => { c with compileFailed := oneMore c.compileFailed }
  | .composed _ => { c with composed := oneMore c.composed }

structure Metrics where
  total : Counters := {}
  /-- The counters of each document with an event, by its path, in order of the paths. -/
  documents : List (String × Counters) := []

namespace Metrics

/-- Counts an event among the documents, which are in order. -/
def countIn (e : Event) : List (String × Counters) → List (String × Counters)
  | [] => [(e.document, ({} : Counters).count e)]
  | (path, c) :: rest =>
    if e.document = path then (path, c.count e) :: rest
    else if e.document < path then (e.document, ({} : Counters).count e) :: (path, c) :: rest
    else (path, c) :: countIn e rest

def record (m : Metrics) (e : Event) : Metrics :=
  { total := m.total.count e, documents := countIn e m.documents }

def recordAll (m : Metrics) (events : List Event) : Metrics :=
  events.foldl record m

/-- Comes before another document in the report. -/
def precedes (a b : String × Counters) : Bool :=
  b.2.compiled < a.2.compiled || (a.2.compiled == b.2.compiled && a.1 ≤ b.1)

/-- The documents in the order of the report. -/
def report (m : Metrics) : List (String × Counters) :=
  m.documents.mergeSort precedes

end Metrics

end DocQuery
