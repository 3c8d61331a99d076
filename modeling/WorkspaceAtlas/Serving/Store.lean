/-
# The tables of the serving plane

The serving plane is computed from the rows that the active generation of a workspace reaches
(the truth) and is kept in tables of its own.  What is left out of a row is only written: the
JSON text of a card or an edge, their digests, the span and the order key of an edge.
-/
import Mathlib.Data.Prod.Lex
import Mathlib.Data.String.Basic
import Mathlib.Algebra.Order.Ring.Unbundled.Rat
import WorkspaceAtlas.Relational.Query
import WorkspaceAtlas.Catalogue.Generation
import WorkspaceAtlas.Semantic.Resolution

namespace WorkspaceAtlas

open Relational

/-! ## The truth -/

/-- A row of `effect_fact`. -/
structure EffectFact where
  effectFactId : String
  revisionId : String
  subjectRefKind : RefKind
  subjectRefValue : String
  deriving DecidableEq, Repr

instance : Keyed EffectFact := .ofKey EffectFact.effectFactId

/-- What a conflict is about. -/
inductive ConflictSubject where
  | symbol
  | relationship
  | effect
  | coverage
  deriving DecidableEq, Repr

/-- The states of a conflict. -/
inductive ConflictStatus where
  | open_
  | preferredWithConflict
  | corroborated
  | unresolved
  | superseded
  deriving DecidableEq, Repr

/-- A row of `evidence_conflict`. -/
structure EvidenceConflict where
  evidenceConflictId : String
  generationId : String
  subjectKind : ConflictSubject
  subjectKey : String
  status : ConflictStatus
  deriving DecidableEq, Repr

instance : Keyed EvidenceConflict := .ofKey EvidenceConflict.evidenceConflictId

/-- What a coverage record is about. -/
inductive CoverageScope where
  | workspace
  | file
  | provider
  | capability
  deriving DecidableEq, Repr

/-- The status of a coverage record. -/
inductive CoverageStatus where
  | complete
  | partly
  | unsupported
  | excluded
  | failed
  | stale
  deriving DecidableEq, Repr

/-- A row of `coverage_record`. -/
structure CoverageRecord where
  coverageId : String
  generationId : String
  fileId : Option String
  scopeKind : CoverageScope
  status : CoverageStatus
  deriving DecidableEq, Repr

instance : Keyed CoverageRecord := .ofKey CoverageRecord.coverageId

/-- The tables that the serving plane is computed from. -/
structure Truth where
  catalogue : Catalogue
  resolutions : Table RelationshipResolution
  effectFact : Table EffectFact
  evidenceConflict : Table EvidenceConflict
  coverageRecord : Table CoverageRecord

/-! ## The view `current_file` -/

/-- A row of `current_file`. -/
structure CurrentFile where
  workspaceId : String
  generationId : String
  fileId : String
  revisionId : Option String
  canonicalPath : String
  presenceState : PresenceState
  language : Option String
  deriving DecidableEq, Repr

namespace Catalogue

/-- The row of the view for a file of the active generation of a workspace. -/
def currentFileRow (c : Catalogue) (w : Workspace) (gf : GenerationFile) : CurrentFile where
  workspaceId := w.workspaceId
  generationId := gf.generationId
  fileId := gf.fileId
  revisionId := gf.revisionId
  canonicalPath := gf.canonicalPath
  presenceState := gf.presenceState
  language := gf.revisionId.bind fun rid =>
    (c.fileRevision.find? fun r => r.revisionId = rid).bind FileRevision.language

/-- `current_file`. -/
def currentFile (c : Catalogue) : List CurrentFile :=
  (join c.workspace.rows c.indexGeneration.rows fun w g =>
      w.activeGenerationId = some g.generationId ∧ g.state = .committed).flatMap fun p =>
    (c.generationFile.rows.filter fun gf => gf.generationId = p.2.generationId).map
      (c.currentFileRow p.1)

/-- `current_file WHERE generation_id = ?1`. -/
def currentFileOf (c : Catalogue) (gid : String) : List CurrentFile :=
  c.currentFile.filter fun cf => cf.generationId = gid

/-- `current_file JOIN relationship_fact`. -/
def currentRelationships (c : Catalogue) (gid : String) : List (CurrentFile × RelationshipFact) :=
  join (c.currentFileOf gid) c.facts.relationshipFact.rows fun cf rf =>
    cf.revisionId = some rf.revisionId

/-- `current_file JOIN symbol_fact`. -/
def currentSymbols (c : Catalogue) (gid : String) : List (CurrentFile × SymbolFact) :=
  join (c.currentFileOf gid) c.facts.symbolFact.rows fun cf sf =>
    cf.revisionId = some sf.revisionId

/-- For the generation that a single workspace is active on, the rows of the view are its files. -/
lemma currentFileOf_eq {c : Catalogue} {ws gid : String}
    (hactive : activeGeneration? c ws = some gid)
    (honly : ∀ w ∈ c.workspace, w.activeGenerationId = some gid → w.workspaceId = ws)
    (hcommitted : ∃ g ∈ c.indexGeneration, g.generationId = gid ∧ g.state = .committed) :
    ∃ w, c.currentFileOf gid =
      (c.generationFile.rows.filter fun gf => gf.generationId = gid).map (c.currentFileRow w) := by
  obtain ⟨g, hg, hgid, hstate⟩ := hcommitted
  obtain ⟨w, hfind, hw⟩ := Option.bind_eq_some_iff.mp hactive
  have hwmem := Table.mem_of_find? hfind
  have hwid : w.workspaceId = ws := by simpa using Table.find?_some hfind
  -- one pair of a workspace and a generation is left
  have hpairs : ((join c.workspace.rows c.indexGeneration.rows
      fun w g => w.activeGenerationId = some g.generationId ∧ g.state = .committed).filter
        fun p => p.2.generationId = gid) = [(w, g)] := by
    refine eq_singleton_of_nodup ((nodup_join c.workspace.nodup_rows
      c.indexGeneration.nodup_rows).filter _) ?_ ?_
    · refine List.mem_filter.mpr ⟨mem_join.mpr ⟨hwmem, hg, ?_⟩, by simpa using hgid⟩
      simp [hw, hgid, hstate]
    · rintro ⟨w', g'⟩ hmem
      obtain ⟨hjoin, hgid'⟩ := List.mem_filter.mp hmem
      obtain ⟨hw', hg', hcond⟩ := mem_join.mp hjoin
      have hgid' : g'.generationId = gid := by simpa using hgid'
      obtain ⟨hactive, -⟩ := of_decide_eq_true hcond
      obtain rfl : g' = g := Table.eq_of_clash hg' hg (Or.inl (hgid'.trans hgid.symm))
      obtain rfl : w' = w := Table.eq_of_clash hw' hwmem
        ((honly w' hw' (by rw [hactive, hgid])).trans hwid.symm)
      rfl
  refine ⟨w, ?_⟩
  have hsplit : c.currentFileOf gid =
      ((join c.workspace.rows c.indexGeneration.rows
        fun w g => w.activeGenerationId = some g.generationId ∧ g.state = .committed).filter
          fun p => p.2.generationId = gid).flatMap fun p =>
            (c.generationFile.rows.filter fun gf => gf.generationId = gid).map
              (c.currentFileRow p.1) := by
    rw [Catalogue.currentFileOf, Catalogue.currentFile, List.filter_flatMap]
    induction join c.workspace.rows c.indexGeneration.rows
        fun w g => w.activeGenerationId = some g.generationId ∧ g.state = .committed with
    | nil => rfl
    | cons p l ih =>
      rw [List.flatMap_cons, ih, List.filter_cons, List.filter_map]
      split
      next hp =>
        have hp : p.2.generationId = gid := of_decide_eq_true hp
        rw [List.flatMap_cons, hp, List.filter_filter]
        refine congrArg (· ++ _) (congrArg _ (List.filter_congr fun gf _ => ?_))
        exact Bool.and_self _
      next hp =>
        have hp : p.2.generationId ≠ gid := by simpa using hp
        rw [List.filter_filter, List.filter_eq_nil_iff.mpr, List.map_nil, List.nil_append]
        rintro gf - hgf
        obtain ⟨hrow, hgf⟩ := Bool.and_eq_true_iff.mp hgf
        have hrow : gf.generationId = gid := of_decide_eq_true hrow
        exact hp ((of_decide_eq_true hgf).symm.trans hrow)
  rw [hsplit, hpairs]
  simp

end Catalogue

/-! ## The serving tables -/

/-- The states of a projection. -/
inductive ServingState where
  | building
  | ready
  | failed
  | stale
  | deleted
  deriving DecidableEq, Repr

/-- A row of `serving_generation`. -/
structure ServingGeneration where
  servingGenerationId : String
  workspaceId : String
  generationId : String
  servingSchemaVersion : String
  projectionPolicyVersion : String
  state : ServingState
  cardCount : ℕ
  edgeCount : ℕ
  deriving DecidableEq, Repr

/-- The columns that a projection is unique in, besides its id. -/
def ServingGeneration.identity (g : ServingGeneration) : String × String × String × String :=
  (g.workspaceId, g.generationId, g.servingSchemaVersion, g.projectionPolicyVersion)

instance : Keyed ServingGeneration where
  Clash a b := a.servingGenerationId = b.servingGenerationId ∨ a.identity = b.identity
  decideClash _ _ := inferInstance
  clash_refl _ := Or.inl rfl
  clash_symm h := h.imp Eq.symm Eq.symm

/-- `SymbolCounts`. -/
structure SymbolCounts where
  callers : ℕ
  callees : ℕ
  references : ℕ
  tests : ℕ
  configs : ℕ
  effects : ℕ
  conflicts : ℕ
  unresolved : ℕ
  deriving DecidableEq, Repr

/-- `CoverageState`. -/
inductive CoverageState where
  | complete
  | partly
  | unsupported
  | failed
  deriving DecidableEq, Repr

/-- `SymbolCost`. -/
structure SymbolCost where
  sourceBytes : ℤ
  estimatedTokens : ℤ
  metadataBytes : ℕ
  deriving DecidableEq, Repr

/-- A row of `symbol_serving_projection`: a `SymbolCard`. -/
structure SymbolCard where
  servingGenerationId : String
  canonicalSymbolKey : String
  canonicalPath : String
  symbolKind : String
  language : Option String
  signature : Option String
  startByte : ℤ
  endByte : ℤ
  startLine : ℤ
  endLine : ℤ
  preferredFactId : String
  preferredProviderTier : ProviderTier
  preferredConfidence : ℚ
  evidenceState : EvidenceMethod
  counts : SymbolCounts
  coverageState : CoverageState
  cost : SymbolCost
  deriving DecidableEq, Repr

instance : Keyed SymbolCard :=
  .ofKey fun card => (card.servingGenerationId, card.canonicalSymbolKey)

/-- How far an edge can be trusted. -/
inductive TrustClass where
  | verified
  | supported
  | inferred
  | uncertain
  deriving DecidableEq, Repr

/-- A row of `relationship_serving_edge`. -/
structure ServingEdge where
  servingGenerationId : String
  edgeId : String
  sourceEntityId : String
  targetEntityId : String
  relationshipType : RelationshipType
  resolutionState : ResolutionStatus
  trustClass : TrustClass
  preferredFactId : Option String
  providerTier : Option ProviderTier
  confidence : ℚ
  canonicalPath : Option String
  deriving DecidableEq, Repr

instance : Keyed ServingEdge := .ofKey fun e => (e.servingGenerationId, e.edgeId)

/-- The serving plane. -/
structure ServingPlane where
  servingGeneration : Table ServingGeneration
  symbolCard : Table SymbolCard
  edge : Table ServingEdge

namespace ServingPlane

/-- Nothing has been projected. -/
def empty : ServingPlane := ⟨.empty, .empty, .empty⟩

/-- The edges of a projection. -/
def edgesOf (p : ServingPlane) (sgid : String) : List ServingEdge :=
  p.edge.rows.filter fun e => e.servingGenerationId = sgid

end ServingPlane

end WorkspaceAtlas
