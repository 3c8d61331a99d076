/-
# Reconciling one snapshot after the other

A run from a registered workspace meets no constraint exactly when no call creates an identity
anew or joins two renames to one text.
-/
import WorkspaceAtlas.Discovery.OneFile
import WorkspaceAtlas.Transition.Iteration

namespace WorkspaceAtlas

open Relational Transition

namespace Snapshots

/-- **Snapshot after snapshot.**  From a registered workspace every reconcile succeeds and
activates exactly its snapshot, if and only if at every call the ids it mints are free. -/
theorem recordsSnapshots_iff (env : Environment) (hH : env.hasher.Injective)
    (workspaceIds : List String) (workspaceId : String) (hws : workspaceId ∈ workspaceIds)
    (snapshots : List (Snapshot env)) :
    AllSteps (step env workspaceId) (RecordsSnapshot env workspaceId)
        (Catalogue.registered workspaceIds) snapshots ↔
      AllSteps (step env workspaceId) (IdsFree env workspaceId)
        (Catalogue.registered workspaceIds) snapshots :=
  allSteps_congr (I := Sound env.hasher workspaceId) (sound_registered env.hasher hws)
    (fun _ _ hc hfree => (activates_of_idsFree hH hc hfree).2)
    fun _ _ hc => recordsSnapshot_iff hH hc

lemma present_a : ∀ file ∈ [("a", ([1] : List UInt8))],
    classify Environment.plain.isMatch file.1 .none = .present := by
  decide

lemma present_b : ∀ file ∈ [("b", ([1] : List UInt8))],
    classify Environment.plain.isMatch file.1 .none = .present := by
  decide

lemma nodup_a : ([("a", ([1] : List UInt8))].map Prod.fst).Nodup := by decide

lemma nodup_b : ([("b", ([1] : List UInt8))].map Prod.fst).Nodup := by decide

/-- A file is renamed, and a new file with new content appears under its old path. -/
def recreated : List (Snapshot .plain) :=
  [.ofFiles [("a", [1])] nodup_a present_a, .ofFiles [("b", [1])] nodup_b present_b,
    .ofFiles [("a", [2]), ("b", [1])] (by decide) (by decide)]

theorem recordsSnapshots_iff_recreated :
    AllSteps (step .plain "ws") (RecordsSnapshot .plain "ws") (Catalogue.registered ["ws"])
        recreated ↔
      AllSteps (step .plain "ws") (IdsFree .plain "ws") (Catalogue.registered ["ws"]) recreated :=
  recordsSnapshots_iff .plain Hasher.plain_injective ["ws"] "ws" (by simp) recreated

/-- The third reconcile fails on the key of `file_identity`. -/
theorem recreated_not_recorded :
    ¬ AllSteps (step .plain "ws") (RecordsSnapshot .plain "ws") (Catalogue.registered ["ws"])
        recreated := by
  intro hall
  obtain ⟨-, hrest⟩ := allSteps_cons.mp hall
  obtain ⟨-, hrest⟩ := allSteps_cons.mp hrest
  obtain ⟨hlast, -⟩ := allSteps_cons.mp hrest
  have hfirst : HasOnly Environment.plain.hasher "ws"
      (createdIdentity Environment.plain.hasher "ws" "a" 0) (contentHashOfBytes Hasher.plain [1])
      (step .plain "ws" (Catalogue.registered ["ws"])
        (.ofFiles [("a", [1])] (by decide) (by decide))) := by
    refine hasOnly_first (.ofFiles [("a", [1])] (by decide) (by decide)) Hasher.plain_injective
      (List.mem_singleton_self "ws") rfl ?_
    rfl
  obtain ⟨hsound, hprevious, hfound⟩ := hfirst.renamed
    (.ofFiles [("b", [1])] (by decide) (by decide)) Hasher.plain_injective rfl (by decide) rfl
  -- the third walk has the renamed file, so nothing is renamed
  obtain ⟨walked, hwalked⟩ := Snapshot.walked_ok
    (.ofFiles [("a", [2]), ("b", [1])] (by decide) (by decide))
  have hpaths : walked.map Walked.relStr = ["a", "b"] := PerPath.map_relStr hwalked
  obtain ⟨hids, -⟩ := (recordsSnapshot_iff Hasher.plain_injective hsound).mp hlast walked hwalked
  have hrenames : detectedRenames _ "ws" walked = [] :=
    detectedRenames_of_walked (by
      rw [hprevious, hpaths]
      simp [FileObservation.readable])
  have hnone := hids "a" (by simp [hpaths])
  rw [identityAt?, fileIdentity_afterRenames_of_nil hrenames] at hnone
  have hmoved := (identityAt?_some ((hfound "b").trans (if_pos rfl))).1
  exact hnone ((hfound "a").trans (if_neg (by decide))) _ hmoved rfl

end Snapshots

end WorkspaceAtlas
