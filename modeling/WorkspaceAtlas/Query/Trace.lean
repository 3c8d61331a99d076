/-
# Traces

`query::trace` and `query::trace_resolved`: a breadth-first search over the relationships of a
generation, as they were extracted or as they were resolved.  It ends at a depth or at a number of
edges and says which of the two left something out.
-/
import WorkspaceAtlas.Query.Impact
import WorkspaceAtlas.Transition.Distance

namespace WorkspaceAtlas

open Relational Transition

/-! ## The search -/

/-- `TraceEdge`. -/
structure TraceEdge where
  depth : ℕ
  relationshipType : RelationshipType
  fromRef : String
  toRef : String
  deriving DecidableEq, Repr

/-- `TraceOutput`. -/
structure TraceOutput where
  ok : Bool
  generationId : Option String
  seed : String
  direction : String
  maxDepth : ℤ
  edges : List TraceEdge
  visitedCount : ℕ
  truncatedByDepth : Bool
  truncatedByRecords : Bool
  deriving DecidableEq

/-- The rows of the two statements for a node, in the order in which they are answered. -/
structure TraceGraph where
  outbound : String → List (RelationshipType × String)
  inbound : String → List (RelationshipType × String)

/-- The variables of the search.  The source does not keep `popped`, which has the nodes that were
taken from the queue. -/
structure TraceState where
  visited : Finset String
  queue : List (String × ℕ)
  edges : List TraceEdge
  truncatedByDepth : Bool
  truncatedByRecords : Bool
  popped : List (String × ℕ)

/-- The loop over the rows of a statement. -/
def traceRows (maxDepth maxRecords : ℤ) (depth : ℕ) :
    List (TraceEdge × String) → TraceState → TraceState
  | [], s => s
  | (edge, ref) :: rows, s =>
    if maxRecords ≤ s.edges.length then { s with truncatedByRecords := true }
    else
      let s := { s with edges := s.edges ++ [edge] }
      traceRows maxDepth maxRecords depth rows
        (if ref ∈ s.visited then s
        else if maxDepth ≤ depth + 1 then
          { s with visited := insert ref s.visited, truncatedByDepth := true }
        else
          { s with visited := insert ref s.visited, queue := s.queue ++ [(ref, depth + 1)] })

namespace TraceGraph

/-- The edges of the first statement, and the nodes that they lead to. -/
def outboundRows (g : TraceGraph) (direction current : String) (depth : ℕ) :
    List (TraceEdge × String) :=
  if direction = "outbound" ∨ direction = "both" then
    (g.outbound current).map fun row => (⟨depth + 1, row.1, current, row.2⟩, row.2)
  else []

/-- The edges of the second statement. -/
def inboundRows (g : TraceGraph) (direction current : String) (depth : ℕ) :
    List (TraceEdge × String) :=
  if direction = "inbound" ∨ direction = "both" then
    (g.inbound current).map fun row => (⟨depth + 1, row.1, row.2, current⟩, row.2)
  else []

end TraceGraph

/-- Both statements for a node. -/
def traceNode (g : TraceGraph) (direction : String) (maxDepth maxRecords : ℤ) (current : String)
    (depth : ℕ) (s : TraceState) : TraceState :=
  traceRows maxDepth maxRecords depth (g.inboundRows direction current depth)
    (traceRows maxDepth maxRecords depth (g.outboundRows direction current depth) s)

section Measure

variable {g : TraceGraph} {direction current : String} {maxDepth maxRecords : ℤ} {depth : ℕ}
  {rows : List (TraceEdge × String)} {s : TraceState}

/-- Every node that is queued takes up an edge. -/
lemma queue_traceRows : (traceRows maxDepth maxRecords depth rows s).queue.length +
    (maxRecords - (traceRows maxDepth maxRecords depth rows s).edges.length).toNat ≤
      s.queue.length + (maxRecords - s.edges.length).toNat := by
  induction rows generalizing s with
  | nil => exact Nat.le_refl _
  | cons row rows ih =>
    obtain ⟨edge, ref⟩ := row
    rw [traceRows]
    split
    next => exact Nat.le_refl _
    next hroom =>
      refine ih.trans ?_
      split_ifs
      all_goals simp only [List.length_append, List.length_cons, List.length_nil]
      all_goals omega

lemma queue_traceNode :
    (traceNode g direction maxDepth maxRecords current depth s).queue.length +
      (maxRecords -
        (traceNode g direction maxDepth maxRecords current depth s).edges.length).toNat ≤
      s.queue.length + (maxRecords - s.edges.length).toNat :=
  queue_traceRows.trans queue_traceRows

end Measure

/-- The loop over the queue. -/
def traceLoop (g : TraceGraph) (direction : String) (maxDepth maxRecords : ℤ) (s : TraceState) :
    TraceState :=
  match _hqueue : s.queue with
  | [] => s
  | (current, depth) :: queue =>
    let t := { s with queue := queue, popped := s.popped ++ [(current, depth)] }
    if maxDepth ≤ depth then traceLoop g direction maxDepth maxRecords t
    else if maxRecords ≤ t.edges.length then { t with truncatedByRecords := true }
    else
      traceLoop g direction maxDepth maxRecords
        (traceNode g direction maxDepth maxRecords current depth t)
termination_by s.queue.length + (maxRecords - s.edges.length).toNat
decreasing_by
  · simp only [_hqueue, List.length_cons]
    omega
  · refine lt_of_le_of_lt queue_traceNode ?_
    simp only [_hqueue, List.length_cons]
    omega

section Loop

variable {g : TraceGraph} {direction current : String} {maxDepth maxRecords : ℤ} {depth : ℕ}
  {queue : List (String × ℕ)} {s : TraceState}

lemma traceLoop_nil (h : s.queue = []) : traceLoop g direction maxDepth maxRecords s = s := by
  rw [traceLoop]
  split
  next => rfl
  next hqueue => exact absurd (h.symm.trans hqueue) (by simp)

lemma traceLoop_cons (h : s.queue = (current, depth) :: queue) :
    traceLoop g direction maxDepth maxRecords s =
      let t := { s with queue := queue, popped := s.popped ++ [(current, depth)] }
      if maxDepth ≤ depth then traceLoop g direction maxDepth maxRecords t
      else if maxRecords ≤ t.edges.length then { t with truncatedByRecords := true }
      else
        traceLoop g direction maxDepth maxRecords
          (traceNode g direction maxDepth maxRecords current depth t) := by
  rw [traceLoop]
  split
  next hqueue => exact absurd (h.symm.trans hqueue) (by simp)
  next hqueue =>
    obtain ⟨⟨rfl, rfl⟩, rfl⟩ := (List.cons.inj (hqueue.symm.trans h)).imp_left Prod.mk.inj
    rfl

end Loop

/-- The state that the search starts with. -/
def TraceState.initial (seed : String) : TraceState where
  visited := {seed}
  queue := [(seed, 0)]
  edges := []
  truncatedByDepth := false
  truncatedByRecords := false
  popped := []

/-- The search. -/
def traceRun (g : TraceGraph) (seed direction : String) (maxDepth maxRecords : ℤ) : TraceState :=
  traceLoop g direction maxDepth maxRecords (.initial seed)

/-- What both functions answer for the active generation, or without one. -/
def traceOver (graph : String → TraceGraph) (active : Option String) (seed direction : String)
    (maxDepth maxRecords : ℤ) : TraceOutput :=
  match active with
  | none => ⟨true, none, seed, direction, maxDepth, [], 0, false, false⟩
  | some gid =>
    let s := traceRun (graph gid) seed direction maxDepth maxRecords
    ⟨true, some gid, seed, direction, maxDepth, s.edges, s.visited.card, s.truncatedByDepth,
      s.truncatedByRecords⟩

/-! ## The statements -/

/-- `relationship_fact JOIN file_revision JOIN current_file`. -/
def tracedFacts (c : Catalogue) (gid : String) : List RelationshipFact :=
  (join (join c.facts.relationshipFact.rows c.fileRevision.rows fun rf fr =>
      fr.revisionId = rf.revisionId)
    (c.currentFileOf gid) fun p cf => cf.revisionId = some p.2.revisionId).map fun row => row.1.1

/-- The statements of `trace`. -/
def traceGraph (c : Catalogue) (gid : String) : TraceGraph where
  outbound current := ((tracedFacts c gid).filter fun rf =>
    rf.sourceRefKind = .path ∧ rf.sourceRefValue = current).map fun rf =>
      (rf.relationshipType, rf.targetRefValue)
  inbound current := ((tracedFacts c gid).filter fun rf =>
    rf.targetRefKind = .path ∧ rf.targetRefValue = current).map fun rf =>
      (rf.relationshipType, rf.sourceRefValue)

/-- The join with the resolutions of the generation that name a target. -/
def resolvedRows (truth : Truth) (gid : String) (facts : List RelationshipFact) :
    List (RelationshipFact × String) :=
  (join facts truth.resolutions.rows fun rf rr =>
    rr.relationshipFactId = rf.relationshipFactId ∧ rr.generationId = gid).filterMap fun row =>
      if row.2.status.isResolved then row.2.resolvedRefValue.map fun value => (row.1, value)
      else none

/-- The statements of `trace_resolved`. -/
def resolvedTraceGraph (truth : Truth) (gid : String) : TraceGraph where
  outbound current := ((resolvedRows truth gid (tracedFacts truth.catalogue gid)).filter fun row =>
    row.1.sourceRefKind = .path ∧ row.1.sourceRefValue = current).map fun row =>
      (row.1.relationshipType, row.2)
  inbound current :=
    ((resolvedRows truth gid truth.catalogue.facts.relationshipFact.rows).filter fun row =>
      row.2 = current).map fun row => (row.1.relationshipType, row.1.sourceRefValue)

/-- `trace`. -/
def trace (c : Catalogue) (workspaceId seed direction : String) (maxDepth maxRecords : ℤ) :
    TraceOutput :=
  traceOver (traceGraph c) (activeGeneration? c workspaceId) seed direction maxDepth maxRecords

/-- `trace_resolved`. -/
def traceResolved (truth : Truth) (workspaceId seed direction : String)
    (maxDepth maxRecords : ℤ) : TraceOutput :=
  traceOver (resolvedTraceGraph truth) (activeGeneration? truth.catalogue workspaceId) seed
    direction maxDepth maxRecords

end WorkspaceAtlas
