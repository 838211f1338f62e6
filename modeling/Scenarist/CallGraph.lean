import Scenarist.Index

set_option autoImplicit false

/-! # The call graph

Who calls whom among the indexed scenarios, and the documents that a change to one may concern: those
of its callers, their callers, and so on, the nearest first. -/

namespace Scenarist

/-- Calls between scenarios, read off records. -/
structure CallGraph where
  /-- The scenarios that call each one, each once. -/
  callers : Table (List Text) := []
  /-- The scenarios that each one calls. -/
  callees : Table (List Text) := []
  /-- The document of each scenario. -/
  sources : Table Source := []
  /-- The scenario of each document. -/
  namesByUri : Table Text := []
  deriving DecidableEq, Repr

namespace CallGraph

def addCaller (caller : Text) (callers : Table (List Text)) (callee : Text) : Table (List Text) :=
  let known := (callers.get? callee).getD []
  callers.put callee (if caller ∈ known then known else known ++ [caller])

def addRecord (graph : CallGraph) (record : Record) : CallGraph where
  sources := graph.sources.put record.name record.source
  namesByUri := graph.namesByUri.put record.uri record.name
  callees := graph.callees.put record.name record.nestedCalls
  callers := record.nestedCalls.foldl (addCaller record.name) graph.callers

def ofRecords (records : List Record) : CallGraph := records.foldl addRecord {}

def callersOf (graph : CallGraph) (name : Text) : List Text := (graph.callers.get? name).getD []

def calleesOf (graph : CallGraph) (name : Text) : List Text := (graph.callees.get? name).getD []

/-- The search for related documents, in progress. -/
structure Search where
  visited : List Text
  queue : List Text
  /-- The documents found, under their paths. -/
  found : Table Source := []

/-- The search after one caller: it is visited once, and its document is found unless it is the excluded
one, there already, or too many. -/
def visit (graph : CallGraph) (limit : Int) (exclude : Option Text) (search : Search) (caller : Text) :
    Search :=
  if limit ≤ search.found.length || caller ∈ search.visited then search
  else
    let search := { search with
      visited := caller :: search.visited, queue := search.queue ++ [caller] }
    match graph.sources.get? caller with
    | none => search
    | some source =>
      if some source.uri = exclude || search.found.has source.uri then search
      else { search with found := search.found.put source.uri source }

/-- The search gone on until nothing is queued or enough is found; `fuel` bounds the names that are
taken off the queue. -/
def searchWithin (graph : CallGraph) (limit : Int) (exclude : Option Text) :
    (fuel : Nat) → Search → Search
  | 0, search => search
  | fuel + 1, search => match search.queue with
    | [] => search
    | name :: queue =>
      if limit ≤ search.found.length then search
      else searchWithin graph limit exclude fuel <|
        (Text.sort (graph.callersOf name)).foldl (visit graph limit exclude) { search with queue }

/-- The documents of the nearest callers of a scenario, directly or through others, up to a limit and
without an excluded one, sorted by their paths in lower case. -/
def related (graph : CallGraph) (name : Text) (limit : Int) (exclude : Option Text) : List Source :=
  let search := searchWithin graph limit exclude (graph.callees.length + 1)
    { visited := [name], queue := [name] }
  Text.sortBy (fun source => Text.lower source.uri) search.found.values

end CallGraph

/-! ## Keeping the graph -/

/-- A graph that is made anew only when the index has changed. -/
structure GraphCache where
  /-- The graph and the generation of the index that it was made of. -/
  kept : Option (Nat × CallGraph) := none
  /-- How often a graph was made. -/
  builds : Nat := 0
  deriving DecidableEq, Repr

namespace GraphCache

def get (cache : GraphCache) (index : Index) : CallGraph × GraphCache :=
  match cache.kept.filter fun (generation, _) => generation = index.generation with
  | some (_, graph) => (graph, cache)
  | none =>
    let graph := CallGraph.ofRecords index.allRecords
    (graph, { kept := some (index.generation, graph), builds := cache.builds + 1 })

def invalidate (cache : GraphCache) : GraphCache := { cache with kept := none }

end GraphCache

end Scenarist
