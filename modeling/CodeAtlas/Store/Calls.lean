import CodeAtlas.Analysis.Call
import CodeAtlas.Graph.Cycles
import CodeAtlas.Store.Handle
import CodeAtlas.Store.Index
import CodeAtlas.Store.Tally
import CodeAtlas.Store.Task

/-!
# The call store

Call relationships with their indices, and the call graph that they induce.
-/

namespace CodeAtlas.Store

open CodeAtlas.Analysis
open CodeAtlas.Graph (CycleDetector)

/-- A handle of the call store. -/
abbrev CallHandle := Handle .call

/-- The length of the rankings in the statistics. -/
def rankingLength : Nat := 5

/-- Calls with their handles, indices and graph. -/
structure CallStore where
  calls : Table CallHandle Call := ∅
  byCaller : Index String CallHandle := {}
  byCallee : Index String CallHandle := {}
  byKind : Index CallKind CallHandle := {}
  byFile : Index String CallHandle := {}
  graph : CallGraph := .empty
  detector : CycleDetector := .pathSearch
  nextNumber : Nat := 0
  deriving Inhabited

/-- Counts of the calls in a store. -/
structure CallStatistics where
  totalCalls : Nat
  byKind : List (String × Nat)
  byFile : List (String × Nat)
  mostCalled : List (String × Nat)
  mostCalling : List (String × Nat)
  cyclesCount : Nat
  uniqueCallers : Nat
  uniqueCallees : Nat
  deriving DecidableEq, Repr, Inhabited

namespace CallStore

/-- The store without calls. -/
def empty : CallStore := {}

/-- The store with another way of reporting cycles. -/
def setDetector (s : CallStore) (detector : CycleDetector) : CallStore := { s with detector }

/-- Keeps a call. -/
def save (s : CallStore) (c : Call) : CallStore × CallHandle :=
  let h : CallHandle := ⟨s.nextNumber⟩
  ({ s with
      calls := s.calls.insert h c
      byCaller := s.byCaller.add c.caller h
      byCallee := s.byCallee.add c.callee h
      byKind := s.byKind.add c.kind h
      byFile := s.byFile.add c.filePath h
      graph := s.graph.addEdge c.caller c.callee
      nextNumber := s.nextNumber + 1 }, h)

/-- The call of a handle. -/
def get? (s : CallStore) (h : CallHandle) : Option Call := s.calls.get? h

/-- The calls of some handles. -/
def resolve (s : CallStore) (hs : List CallHandle) : List Call := hs.filterMap s.get?

/-- The calls that a name makes. -/
def findByCaller (s : CallStore) (caller : String) : List Call :=
  s.resolve (s.byCaller.find caller)

/-- The calls of a name. -/
def findByCallee (s : CallStore) (callee : String) : List Call :=
  s.resolve (s.byCallee.find callee)

/-- The calls of a kind. -/
def findByKind (s : CallStore) (kind : CallKind) : List Call := s.resolve (s.byKind.find kind)

/-- The calls in a file. -/
def findByFile (s : CallStore) (filePath : String) : List Call :=
  s.resolve (s.byFile.find filePath)

/-- All calls in the order in which they were saved. -/
def getAll (s : CallStore) : List Call := s.calls.values

/-- Takes the call of a handle out of the table first, and then out of the indices and the graph. -/
def deletion (h : CallHandle) : Task CallStore Call := do
  let c ← takeOut calls (fun s calls => { s with calls }) h (.unknownHandle .call h.number)
  modify (fun s =>
    { s with
      byCaller := s.byCaller.remove c.caller h
      byCallee := s.byCallee.remove c.callee h
      byKind := s.byKind.remove c.kind h
      byFile := s.byFile.remove c.filePath h
      graph := s.graph.removeEdge c.caller c.callee })
  return c

/-- Removes the call of a handle. -/
def delete (s : CallStore) (h : CallHandle) : Except StoreError (CallStore × Call) :=
  perform (deletion h) s

/-- Removes everything but the detector; numbers that were issued are not issued again. -/
def clear (s : CallStore) : CallStore := { detector := s.detector, nextNumber := s.nextNumber }

/-- The cycles of the call graph. -/
def findCycles (s : CallStore) : List (List String) := s.detector.findCycles s.graph

/-- Each caller with its callees. -/
def callGraph (s : CallStore) : List (String × List String) := s.graph.forward.snapshot

/-- Each callee with its callers. -/
def reverseCallGraph (s : CallStore) : List (String × List String) := s.graph.backward.snapshot

/-- The number of calls. -/
def size (s : CallStore) : Nat := s.calls.size

/-- Whether there are no calls. -/
def isEmpty (s : CallStore) : Bool := s.calls.isEmpty

/-- Counts of the calls. -/
def statistics (s : CallStore) : CallStatistics :=
  { totalCalls := s.size
    byKind := s.byKind.sizes CallKind.label
    byFile := s.byFile.sizes id
    mostCalled := topCounts rankingLength (s.getAll.map Call.callee)
    mostCalling := topCounts rankingLength (s.getAll.map Call.caller)
    cyclesCount := s.findCycles.length
    uniqueCallers := s.graph.callerCount
    uniqueCallees := s.graph.calleeCount }

end CallStore

end CodeAtlas.Store
