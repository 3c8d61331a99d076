/-
# What a token is good for

A token of `encode_application_cursor` names the listing that it was made for by digests of the
workspace, of the catalogue and of the filter and by the operation and the contract as they are.
Decoding compares all of them, so that a token goes with its listing and with no other; only
the captured state is left to the caller of `decode_application_cursor`, who learns whether it
has changed since.
-/
import WorkspaceAtlas.Session.ApplicationCursor

namespace WorkspaceAtlas

open Text

/-- `decode_application_cursor`. -/
def decodeApplicationCursor (H : Hasher) (ctx : CatalogueContext)
    (binding : ApplicationCursorBinding) (token : String) :
    Except ApplicationCursorError String :=
  match decodeApplicationCursorSnapshot H ctx binding token with
  | .error error => .error error
  | .ok cursor =>
    if cursor.capturedState ≠ binding.capturedState then .error .stale
    else .ok cursor.orderingKey

/-- The path of the catalogue: of the database behind the connection, and as the workspace has
it for a database without a file. -/
def CatalogueContext.catalogue (ctx : CatalogueContext) : String :=
  (ctx.databasePath.filter fun path => path ≠ "").getD ctx.cataloguePath

/-- Two bindings in their contexts are of one listing, in whatever state it is. -/
structure SameListing (ctx : CatalogueContext) (binding : ApplicationCursorBinding)
    (ctx' : CatalogueContext) (binding' : ApplicationCursorBinding) : Prop where
  contextWorkspace : ctx'.workspaceId = ctx.workspaceId
  workspace : binding'.workspaceId = binding.workspaceId
  catalogue : ctx'.catalogue = ctx.catalogue
  operation : binding'.operation = binding.operation
  contract : binding'.contractVersion = binding.contractVersion
  filter : binding'.filter = binding.filter

section Binding

variable {H : Hasher} {ctx ctx' : CatalogueContext} {binding binding' : ApplicationCursorBinding}
  {orderingKey token : String}

lemma filterJson_injective : Function.Injective ApplicationCursorFilter.json := by
  intro f g h
  cases f <;> cases g <;> simp_all [ApplicationCursorFilter.json]

lemma filterHash_injective (hH : H.Injective) :
    Function.Injective (applicationCursorFilterHash H) := fun _ _ h =>
  filterJson_injective (canonicalJsonBytes_injective (contentHashOfBytes_injective hH h))

lemma catalogueHash_eq_iff (hH : H.Injective) : applicationCursorCatalogueHash H ctx =
    applicationCursorCatalogueHash H ctx' ↔ ctx.catalogue = ctx'.catalogue := by
  constructor
  · intro h
    exact utf8_injective (contentHashOfBytes_injective hH h)
  · intro h
    exact congrArg (fun path => contentHashOfBytes H (utf8 path)) h

/-- **The cursor of a listing is bound to that listing only.** -/
lemma boundTo_iff (hH : H.Injective) (hws : binding.workspaceId = ctx.workspaceId) :
    (applicationCursor H ctx binding orderingKey).BoundTo H ctx' binding' ↔
      SameListing ctx binding ctx' binding' := by
  constructor
  · rintro ⟨hbinds, -, hworkspace, hcatalogue, hoperation, hcontract, hfilter⟩
    have hsame : ctx.workspaceId = ctx'.workspaceId :=
      utf8_injective (contentHashOfBytes_injective hH hworkspace)
    exact ⟨hsame.symm, hbinds.trans (hsame.symm.trans hws.symm),
      ((catalogueHash_eq_iff hH).mp hcatalogue).symm, hoperation.symm, hcontract.symm,
      (filterHash_injective hH hfilter).symm⟩
  · rintro ⟨hcontext, hworkspace, hcatalogue, hoperation, hcontract, hfilter⟩
    refine ⟨?_, rfl, ?_, (catalogueHash_eq_iff hH).mpr hcatalogue.symm, hoperation.symm,
      hcontract.symm, ?_⟩
    · rw [hworkspace, hws, hcontext]
    · rw [hcontext]
      rfl
    · rw [hfilter]
      rfl

/-- A token under any binding. -/
lemma decode_encoded (hH : H.Injective)
    (h : encodeApplicationCursor H ctx binding orderingKey = .ok token) :
    (SameListing ctx binding ctx' binding' →
        decodeApplicationCursorSnapshot H ctx' binding' token =
          .ok ⟨binding.capturedState, orderingKey⟩) ∧
      (¬ SameListing ctx binding ctx' binding' →
        decodeApplicationCursorSnapshot H ctx' binding' token = .error .invalid) := by
  obtain ⟨rfl, hws, hlength, hkey, hchars⟩ := valid_of_encode h
  have hbound : (applicationCursor H ctx binding orderingKey).BoundTo H ctx' binding' ↔
      SameListing ctx binding ctx' binding' := boundTo_iff hH hws
  rw [← hbound]
  exact decode_token hlength hkey hchars

end Binding

/-- **Application cursors round-trip and do not transfer**: under a binding of the listing that
it was made for, a token gives back its state and its key, under any other binding it is
invalid, and it is stale exactly if nothing but the captured state differs. -/
theorem cursor_bound_to_listing (H : Hasher) (hH : H.Injective) (ctx ctx' : CatalogueContext)
    (binding binding' : ApplicationCursorBinding) (orderingKey token : String)
    (h : encodeApplicationCursor H ctx binding orderingKey = .ok token) :
    (SameListing ctx binding ctx' binding' →
      decodeApplicationCursorSnapshot H ctx' binding' token =
        .ok ⟨binding.capturedState, orderingKey⟩ ∧
      (binding'.capturedState = binding.capturedState →
        decodeApplicationCursor H ctx' binding' token = .ok orderingKey)) ∧
    (¬ SameListing ctx binding ctx' binding' →
      decodeApplicationCursorSnapshot H ctx' binding' token = .error .invalid ∧
      decodeApplicationCursor H ctx' binding' token = .error .invalid) ∧
    (decodeApplicationCursor H ctx' binding' token = .error .stale ↔
      SameListing ctx binding ctx' binding' ∧
        binding'.capturedState ≠ binding.capturedState) := by
  by_cases hsame : SameListing ctx binding ctx' binding'
  · have hdecode := (decode_encoded hH h).1 hsame
    refine ⟨fun _ => ⟨hdecode, fun hstate => ?_⟩, fun hnot => absurd hsame hnot, ?_⟩
    · rw [decodeApplicationCursor, hdecode]
      exact if_neg (not_not.mpr hstate.symm)
    · rw [decodeApplicationCursor, hdecode]
      dsimp only
      split
      next hstate => exact iff_of_true rfl ⟨hsame, hstate.symm⟩
      next hstate => exact iff_of_false (by simp) fun hne => hstate hne.2.symm
  · have hdecode := (decode_encoded hH h).2 hsame
    have hinvalid : decodeApplicationCursor H ctx' binding' token = .error .invalid := by
      rw [decodeApplicationCursor, hdecode]
    refine ⟨fun hlisting => absurd hlisting hsame, fun _ => ⟨hdecode, hinvalid⟩, ?_⟩
    rw [hinvalid]
    exact iff_of_false (by simp) fun hne => hsame hne.1

/-- A page of the retention listing of a workspace in one state. -/
def retentionPage (state : String) : ApplicationCursorBinding where
  workspaceId := "ws"
  operation := .retentionStatus
  contractVersion := "v1"
  filter := .retention
  capturedState := state

/-- A workspace in a catalogue of its own. -/
def ownCatalogue : CatalogueContext := ⟨"ws", "atlas.sqlite", none⟩

lemma cursor_bound_to_listing_retentionPage : ∃ token,
    encodeApplicationCursor .plain ownCatalogue (retentionPage "s\n1") "k" = .ok token ∧
      decodeApplicationCursor .plain ownCatalogue (retentionPage "s2") token = .error .stale ∧
      decodeApplicationCursor .plain { ownCatalogue with databasePath := some "other.sqlite" }
        (retentionPage "s\n1") token = .error .invalid := by
  have hencode : encodeApplicationCursor .plain ownCatalogue (retentionPage "s\n1") "k" =
      .ok ((applicationCursor .plain ownCatalogue (retentionPage "s\n1") "k").token .plain) := by
    refine (encode_eq_ok_iff rfl (by decide)).mpr ⟨?_, rfl⟩
    refine ⟨by decide, by decide, ?_⟩
    rw [utf8ByteSize_token]
    decide +kernel
  refine ⟨_, hencode, ?_, ?_⟩
  · exact (cursor_bound_to_listing .plain Hasher.plain_injective _ _ _ _ _ _ hencode).2.2.mpr
      ⟨⟨rfl, rfl, rfl, rfl, rfl, rfl⟩, by decide⟩
  · refine ((cursor_bound_to_listing .plain Hasher.plain_injective _ _ _ _ _ _ hencode).2.1
      fun hsame => ?_).2
    exact absurd hsame.catalogue (by decide)

end WorkspaceAtlas
