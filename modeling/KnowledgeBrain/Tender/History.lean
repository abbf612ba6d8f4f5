import KnowledgeBrain.Tender.Fencing

/-!
# The history of a run

What the store records of sources, revisions, artifacts and confirmations is
never lost or rewritten; a revision is pinned to its specification once.
-/

namespace KnowledgeBrain
namespace Tender

open Foundation Store

variable {s s' : Store} {runId : String}

/-- What a row says for good. -/
inductive Fact where
  | source (key : String × Nat) (row : SourceVersion)
  | revision (key : RevisionKey) (row : Revision)
  | spec (key : RevisionKey) (spec : ExecutionSpec)
  | artifact (key : ArtifactKey) (row : Artifact)
  | confirmation (key : RevisionKey) (row : Confirmation)

/-- Everything of a revision but its specification is there from the start. -/
def Store.Records (s : Store) : Fact -> Prop
  | .source key row => s.sourceVersions.lookup key = some row
  | .revision key row =>
      exists spec, s.revisions.lookup key = some { row with executionSpec := spec }
  | .spec key spec =>
      exists row, s.revisions.lookup key = some row ∧ row.executionSpec = some spec
  | .artifact key row => s.artifacts.lookup key = some row
  | .confirmation key row => s.confirmations.lookup key = some row

def Keeps (s s' : Store) : Prop :=
  forall fact, s.Records fact -> s'.Records fact

theorem Keeps.refl (s : Store) : Keeps s s :=
  fun _ h => h

theorem keeps_of_stays (hsources : s.sourceVersions.Stays s'.sourceVersions)
    (hrevisions : s.revisions.Stays s'.revisions) (hartifacts : s.artifacts.Stays s'.artifacts)
    (hconfirmations : s.confirmations.Stays s'.confirmations) : Keeps s s' := by
  intro fact h
  cases fact with
  | source => exact hsources _ _ h
  | revision =>
      obtain ⟨spec, h⟩ := h
      exact ⟨spec, hrevisions _ _ h⟩
  | spec =>
      obtain ⟨row, h, hspec⟩ := h
      exact ⟨row, hrevisions _ _ h, hspec⟩
  | artifact => exact hartifacts _ _ h
  | confirmation => exact hconfirmations _ _ h

theorem keeps_insertArtifact (s : Store) (key : ArtifactKey) (artifactRef : ArtifactRef)
    (inputDigest : String) (metadata : ArtifactMetadata) (epoch : Nat) :
    Keeps s (s.insertArtifact key artifactRef inputDigest metadata epoch) :=
  keeps_of_stays (fun _ _ h => h) (fun _ _ h => h) (Table.stays_insertNew _ _ _) fun _ _ h => h

theorem keeps_pinExecutionSpec {lease : Lease} {spec : ExecutionSpec}
    (h : s.pinExecutionSpec lease spec = .ok s') : Keeps s s' := by
  rcases pinExecutionSpec_cases h with rfl | ⟨revision, hlookup, hnone, rfl⟩
  · exact .refl _
  intro fact h
  cases fact with
  | revision key row =>
      obtain ⟨old, h⟩ := h
      by_cases hkey : key = lease.revisionKey
      · subst hkey
        refine ⟨some spec, ?_⟩
        change (s.revisions.modify _ _).lookup _ = _
        rw [Table.lookup_modify_self, h]
        rfl
      · exact ⟨old, (Table.lookup_modify_of_ne _ _ hkey).trans h⟩
  | spec key old =>
      obtain ⟨row, h, hspec⟩ := h
      have hkey : key ≠ lease.revisionKey := by
        rintro rfl
        rw [hlookup] at h
        cases h
        rw [hnone] at hspec
        cases hspec
      exact ⟨row, (Table.lookup_modify_of_ne _ _ hkey).trans h, hspec⟩
  | _ => exact h

theorem Keeps.reopenRun {s1 : Store} {commandId : String} {key : RevisionKey}
    {kind : CommandKind} {payload : Payload} (h : Keeps s s1)
    (hreopen : s1.reopenRun commandId key kind payload = .ok s') : Keeps s s' := by
  obtain ⟨_, hcommand⟩ := reopenRun_eq_ok hreopen
  obtain ⟨_, _, rfl⟩ := command_eq_ok hcommand
  exact h

theorem keeps_superseded (h : s' = s ∨ s.Superseded s' runId) : Keeps s s' := by
  rcases h with rfl | ⟨_, _, _, _, _, _, _, _, _, hcommand, hsources⟩
  · exact .refl _
  obtain ⟨_, _, rfl⟩ := command_eq_ok hcommand
  refine keeps_of_stays ?_ (Table.stays_insertNew _ _ _) (fun _ _ h => h) fun _ _ h => h
  rcases hsources with rfl | ⟨_, _, rfl⟩
  · exact fun _ _ h => h
  · exact Table.stays_insertNew _ _ _

theorem keeps_step (e : Event) (s : Store) : Keeps s (step e s) := by
  cases e with
  | tick => exact .refl _
  | submit =>
      refine commit_snd_cases (.refl _) fun _ _ h => ?_
      rcases submit_cases h with rfl | ⟨_, _, _, _, hcommand⟩
      · exact .refl _
      obtain ⟨_, _, rfl⟩ := command_eq_ok hcommand
      exact keeps_of_stays (Table.stays_insertNew _ _ _) (Table.stays_insertNew _ _ _)
        (fun _ _ h => h) fun _ _ h => h
  | claimCommands =>
      refine commit_snd_cases (.refl _) fun _ _ h => ?_
      obtain ⟨_, _, h⟩ := bind_eq_ok h
      cases h
      apply foldl_invariant (P := Keeps s) ?_ (.refl s)
      exact fun _ _ h => h
  | markPublished commandId claimToken =>
      change Keeps s (s.markPublished commandId claimToken).2
      unfold Store.markPublished
      split
      · exact .refl _
      split
      · exact .refl _
      split
      · exact .refl _
      · exact .refl _
  | publishFailed =>
      refine commit_snd_cases (.refl _) fun _ _ h => ?_
      rcases publishFailed_cases h with rfl | ⟨_, _, _, _, _, rfl⟩
      · exact .refl _
      split
      · exact .refl _
      · exact .refl _
  | acquire =>
      refine commit_snd_cases (.refl _) fun _ _ h => ?_
      rcases Store.acquire_cases h with ⟨_, rfl⟩ | ⟨_, _, _, _, _, hcases⟩
      · exact .refl _
      cases hcases with
      | exhausted => exact .refl _
      | takenOver => exact .refl _
      | granted => exact .refl _
  | heartbeat =>
      refine commit_cases (.refl _) fun _ h => ?_
      obtain ⟨_, _, rfl⟩ := heartbeat_eq_ok h
      exact .refl _
  | release lease result =>
      refine commit_cases (.refl _) fun _ h => ?_
      obtain ⟨_, _, _, hcases⟩ := release_eq_ok h
      cases result with
      | done =>
          cases hcases
          exact .refl _
      | retry =>
          rcases hcases with ⟨_, _, rfl | ⟨_, rfl⟩⟩
          · exact .refl _
          · exact .refl _
  | retry =>
      refine commit_snd_cases (.refl _) fun _ _ h => ?_
      rcases retry_cases h with rfl | ⟨_, _, _, _, _, _, _, _, hreopen⟩
      · exact .refl _
      · refine .reopenRun ?_ hreopen
        exact .refl _
  | confirm =>
      refine commit_snd_cases (.refl _) fun _ _ h => ?_
      rcases confirm_cases h with rfl | ⟨_, _, _, _, _, hreopen⟩
      · exact .refl _
      · refine .reopenRun ?_ hreopen
        exact keeps_of_stays (fun _ _ h => h) (fun _ _ h => h) (fun _ _ h => h)
          (Table.stays_insertNew _ _ _)
  | cancel =>
      refine commit_snd_cases (.refl _) fun _ _ h => ?_
      rcases cancel_cases h with rfl | ⟨_, _, rfl⟩
      · exact .refl _
      · exact .refl _
  | revise =>
      exact commit_snd_cases (.refl _) fun _ _ h => keeps_superseded (replays_revise h).cases
  | correct =>
      exact commit_snd_cases (.refl _) fun _ _ h => keeps_superseded (replays_correct h).cases
  | reviewScope =>
      exact commit_snd_cases (.refl _) fun _ _ h => keeps_superseded (replays_reviewScope h).cases
  | pinExecutionSpec => exact commit_cases (.refl _) fun _ => keeps_pinExecutionSpec
  | commitArtifact =>
      refine commit_cases (.refl _) fun _ h => ?_
      rcases commitArtifact_cases h with ⟨rfl, _⟩ | ⟨_, rfl⟩
      · exact .refl _
      · exact keeps_insertArtifact s _ _ _ _ _
  | reserveGroupAttempt =>
      refine commit_cases (.refl _) fun _ h => ?_
      rcases reserveGroupAttempt_cases h with ⟨rfl, _⟩ | ⟨_, _, rfl⟩
      · exact .refl _
      · exact keeps_insertArtifact s _ _ _ _ _
  | beginRequest =>
      refine commit_snd_cases (.refl _) fun _ _ h => ?_
      rcases beginRequest_cases h with rfl | ⟨_, _, rfl, _⟩
      · exact .refl _
      · exact .refl _
  | finishRequest =>
      refine commit_cases (.refl _) fun _ h => ?_
      obtain ⟨_, _, _, _, _, rfl⟩ := finishRequest_eq_ok h
      split
      · exact .refl _
      · exact .refl _

/-- No event ever loses or rewrites what is recorded. -/
theorem history_is_kept (s : Store) (events : List Event) : Keeps s (perform step s events) :=
  foldl_invariant (P := Keeps s) (fun s' e h fact hfact => keeps_step e s' fact (h fact hfact))
    (.refl s)

end Tender
end KnowledgeBrain
