import BlackPearl.SetupService.Service

/-!
# Commits in phases

`Apply` and `PublishAcquired` hold the transition lock for their whole call, but others read the saved
setup meanwhile. Here both are cut where the saved setup changes: what is prepared before `SaveManifest`,
the `SaveManifest` itself, and what follows it. The parts in turn are the whole (`apply_phases`,
`publishAcquired_phases`), and what is saved in between is the token of the commit or of the setup before
it (`settle_saved`).
-/

set_option autoImplicit false

namespace BlackPearl.SetupService

open BlackPearl.Library BlackPearl.Setup

section Phases

variable [TextTables]

/-- A commit that is about to save its manifest. -/
structure Prepared where
  token : ByteText
  previous : Option SavedSetup
  manifest : SetupManifest

/-- `commitManifest` up to `SaveManifest`. -/
def prepareCommit (calls : CommitCalls) (token : ByteText) (manifest : SetupManifest) (s : Service) :
    Except ServiceError Prepared :=
  match calls.prepare with
  | .error _ => .error ⟨"prepare selected media", [.unavailable], none⟩
  | .ok () =>
      match calls.ready with
      | .error _ => .error ⟨"probe selected media", [.unavailable], none⟩
      | .ok () =>
          match loadManifest calls.loadPrior s with
          | .error (.failed _) => .error ⟨"load prior setup before commit", [.unavailable], none⟩
          | .error .notFound => .ok ⟨token, none, manifest⟩
          | .ok previous => .ok ⟨token, some previous, manifest⟩

/-- `commitManifest` after `SaveManifest` has returned `saved`. -/
def settle (calls : CommitCalls) (p : Prepared) (saved : Except SaveError Unit) (s : Service) :
    Except ServiceError SetupManifest × Service :=
  match saved with
  | .ok () => publishRuntime calls p.previous p.manifest s
  | .error e =>
      if e.cleanupDeferred && committed calls.loadAfterSave p.token p.manifest s then
        publishRuntime calls p.previous p.manifest s
      else if committed calls.loadAfterSave p.token p.manifest s then
        let (rollbackErr, s) := rollbackPersistence calls.rollback p.previous s
        (.error ⟨"persist selected media", [.unavailable], rollbackErr⟩, s)
      else (.error ⟨"persist selected media", [.unavailable], none⟩, s)

/-- The parts from `SaveManifest` on in turn. -/
def finish (calls : CommitCalls) (p : Prepared) (s : Service) :
    Except ServiceError SetupManifest × Service :=
  settle calls p (saveManifest calls.save p.token p.manifest s).1
    (saveManifest calls.save p.token p.manifest s).2

/-- `Apply` up to `SaveManifest`, from the token on. -/
def prepareWithToken (calls : ApplyCalls) (request : ApplyRequest) (token : ByteText) (s : Service) :
    Except ServiceError Prepared :=
  match request.itemRequests with
  | .error _ => .error ⟨"", [.invalidSelection], none⟩
  | .ok requests =>
      match discoverWithToken calls with
      | .error e => .error e
      | .ok candidates =>
          match selectConfigurations candidates requests with
          | .error e => .error e
          | .ok configurations =>
              match newSetupManifest configurations with
              | .error _ => .error ⟨"validate selected manifest", [.invalidSelection], none⟩
              | .ok manifest => prepareCommit calls.commit token manifest s

/-- `Apply` up to `SaveManifest`. -/
def prepareApply (calls : ApplyCalls) (request : ApplyRequest) (s : Service) :
    Except ServiceError Prepared × Service :=
  match resolveToken calls.loadToken request.token s with
  | (.error e, s) => (.error e, s)
  | (.ok token, s) => (prepareWithToken calls request token s, s)

/-- `PublishAcquired` up to `SaveManifest`. -/
def preparePublish (calls : PublishCalls) (media : AcquiredMedia) (s : Service) :
    Except ServiceError Prepared :=
  match loadManifest calls.load s with
  | .error .notFound => .error ⟨"", [.unauthorized], none⟩
  | .error (.failed _) => .error ⟨"load setup before acquired publication", [.unavailable], none⟩
  | .ok current =>
      match configurationFromAcquired media with
      | .error _ => .error ⟨"validate acquired media", [.invalidSelection], none⟩
      | .ok configuration =>
          match publishedItems configuration current.manifest.items with
          | .error e => .error e
          | .ok items =>
              match newSetupManifest items with
              | .error _ => .error ⟨"validate acquired manifest", [.invalidSelection], none⟩
              | .ok manifest => prepareCommit calls.commit current.token manifest s

/-! ## The phases in turn -/

theorem persist_eq (calls : CommitCalls) (token : ByteText) (previous : Option SavedSetup)
    (manifest : SetupManifest) (s : Service) :
    persist calls token previous manifest s = finish calls ⟨token, previous, manifest⟩ s := by
  unfold persist finish settle
  cases hsaved : saveManifest calls.save token manifest s with
  | mk result t => cases result <;> rfl

theorem commitManifest_phases (calls : CommitCalls) (token : ByteText) (manifest : SetupManifest)
    (s : Service) : commitManifest calls token manifest s =
      match prepareCommit calls token manifest s with
      | .error e => (.error e, s)
      | .ok p => finish calls p s := by
  unfold commitManifest prepareCommit
  cases calls.prepare with
  | error e => rfl
  | ok _ =>
    cases calls.ready with
    | error e => rfl
    | ok _ =>
      cases hload : loadManifest calls.loadPrior s with
      | ok previous => exact persist_eq calls token (some previous) manifest s
      | error e =>
        cases e with
        | notFound => exact persist_eq calls token none manifest s
        | failed message => rfl

/-- `Apply` is its phases. -/
theorem apply_phases (calls : ApplyCalls) (request : ApplyRequest) (s : Service) :
    apply calls request s =
      match prepareApply calls request s with
      | (.error e, s) => (.error e, s)
      | (.ok p, s) => finish calls.commit p s := by
  unfold apply prepareApply
  cases hresolved : resolveToken calls.loadToken request.token s with
  | mk result t =>
    cases result with
    | error e => rfl
    | ok token =>
      simp only [applyWithToken, prepareWithToken]
      cases request.itemRequests with
      | error e => rfl
      | ok requests =>
        cases discoverWithToken calls with
        | error e => rfl
        | ok candidates =>
          dsimp only
          cases selectConfigurations candidates requests with
          | error e => rfl
          | ok configurations =>
            dsimp only
            cases newSetupManifest configurations with
            | error e => rfl
            | ok manifest =>
              dsimp only
              rw [commitManifest_phases]
              cases prepareCommit calls.commit token manifest t <;> rfl

/-- `PublishAcquired` is its phases. -/
theorem publishAcquired_phases (calls : PublishCalls) (media : AcquiredMedia) (s : Service) :
    publishAcquired calls media s =
      match preparePublish calls media s with
      | .error e => (.error e, s)
      | .ok p => ((finish calls.commit p s).1.map fun _ => (), (finish calls.commit p s).2) := by
  unfold publishAcquired preparePublish
  cases loadManifest calls.load s with
  | error e => cases e <;> rfl
  | ok current =>
    cases configurationFromAcquired media with
    | error e => rfl
    | ok configuration =>
      dsimp only
      cases publishedItems configuration current.manifest.items with
      | error e => rfl
      | ok items =>
        dsimp only
        cases newSetupManifest items with
        | error e => rfl
        | ok manifest =>
          dsimp only
          rw [commitManifest_phases]
          cases prepareCommit calls.commit current.token manifest s <;> rfl

/-! ## What is saved -/

/-- The token that a commit saves, and the setup it goes back to. -/
theorem prepareCommit_eq_ok {calls : CommitCalls} {token : ByteText} {manifest : SetupManifest}
    {s : Service} {p : Prepared} (h : prepareCommit calls token manifest s = .ok p) :
    p.token = token ∧ ∀ previous, p.previous = some previous → s.saved = some previous := by
  unfold prepareCommit at h
  split at h
  · cases h
  split at h
  · cases h
  split at h
  · cases h
  · obtain rfl := Except.ok.inj h
    exact ⟨rfl, fun _ hnone => by cases hnone⟩
  · next previous hload =>
    obtain rfl := Except.ok.inj h
    refine ⟨rfl, fun q hq => ?_⟩
    obtain rfl := Option.some.inj hq
    unfold loadManifest at hload
    split at hload
    · cases hload
    · split at hload
      · cases hload
      · next saved hsaved => exact hsaved.trans (congrArg some (Except.ok.inj hload))

theorem saveManifest_saved (call : SaveCall) (token : ByteText) (manifest : SetupManifest)
    (s : Service) {x : SavedSetup} (h : (saveManifest call token manifest s).2.saved = some x) :
    s.saved = some x ∨ x.token = token := by
  unfold saveManifest at h
  split at h
  · exact Or.inl h
  · cases call with
    | done =>
      obtain rfl := Option.some.inj h
      exact Or.inr rfl
    | failed message committed cleanupDeferred =>
      dsimp only at h
      split at h
      · obtain rfl := Option.some.inj h
        exact Or.inr rfl
      · exact Or.inl h

theorem rollbackPersistence_saved (call : SaveCall) (previous : Option SavedSetup) (s : Service)
    {x : SavedSetup} (h : (rollbackPersistence call previous s).2.saved = some x) :
    s.saved = some x ∨ ∃ q, previous = some q ∧ x.token = q.token := by
  unfold rollbackPersistence at h
  cases previous with
  | some q =>
    have hsaved := saveManifest_saved call q.token q.manifest s (x := x)
    dsimp only at h
    cases hcall : saveManifest call q.token q.manifest s with
    | mk result t =>
      rw [hcall] at h hsaved
      have ht : t.saved = some x := by
        cases result <;> exact h
      exact (hsaved ht).imp_right fun htoken => ⟨q, rfl, htoken⟩
  | none =>
    left
    dsimp only at h
    unfold clear at h
    cases call with
    | done => cases h
    | failed message committed cleanupDeferred =>
      dsimp only at h
      split at h
      · cases h
      · exact h

/-- What is saved after a commit was saved before the last phase, or is what was saved before it. -/
theorem settle_saved (calls : CommitCalls) (p : Prepared) (saved : Except SaveError Unit) (s : Service)
    {x : SavedSetup} (h : (settle calls p saved s).2.saved = some x) :
    s.saved = some x ∨ ∃ q, p.previous = some q ∧ x.token = q.token := by
  have hpublish : (publishRuntime calls p.previous p.manifest s).2.saved = some x →
      s.saved = some x ∨ ∃ q, p.previous = some q ∧ x.token = q.token := by
    intro h
    unfold publishRuntime at h
    split at h
    · exact rollbackPersistence_saved _ _ _ h
    · exact Or.inl h
  unfold settle at h
  split at h
  · exact hpublish h
  · split at h
    · exact hpublish h
    · split at h
      · exact rollbackPersistence_saved _ _ _ h
      · exact Or.inl h

end Phases

end BlackPearl.SetupService
