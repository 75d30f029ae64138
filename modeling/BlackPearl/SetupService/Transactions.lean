import BlackPearl.Library.Transition
import BlackPearl.SetupService.Publication

/-!
# Transactions of the setup service

`Apply`, `PublishAcquired` and `Restore` in any order, with what each call to the repository, the
factories, the runtime and the publisher returns left open. A transaction that fails leaves the saved
setup, the published runtime and the status as they were, and one that succeeds makes all three equal
(`transactions_atomic`), as long as the rollbacks succeed and the saved setup can be read after a
`SaveManifest` that failed: where `SaveManifest` has committed all the same and that read fails too,
the new setup stays (`commitManifest_unreadable`).
-/

set_option autoImplicit false

namespace BlackPearl.SetupService

open BlackPearl.Library BlackPearl.Setup

section Transactions

variable [TextTables]

/-! ## Operations -/

/-- An operation, with what its calls return. -/
inductive Operation
  | apply (calls : ApplyCalls) (request : ApplyRequest)
  | publishAcquired (calls : PublishCalls) (media : AcquiredMedia)
  | restore (calls : RestoreCalls)

/-- The calls of its `commitManifest`. -/
def Operation.commit : Operation → Option CommitCalls
  | .apply calls _ => some calls.commit
  | .publishAcquired calls _ => some calls.commit
  | .restore _ => none

/-- Its error, if it has one, and the service afterwards. -/
def perform : Operation → Service → Option ServiceError × Service
  | .apply calls request, s =>
      match apply calls request s with
      | (.error e, t) => (some e, t)
      | (.ok _, t) => (none, t)
  | .publishAcquired calls media, s =>
      match publishAcquired calls media s with
      | (.error e, t) => (some e, t)
      | (.ok _, t) => (none, t)
  | .restore calls, s =>
      match restore calls s with
      | (.error e, t) => (some e, t)
      | (.ok _, t) => (none, t)

/-- A service at its start: whatever was saved, nothing is published. -/
structure Started (s : Service) : Prop where
  live : s.live = none
  manifest : s.manifest = none

/-- The service under its operations. -/
def setup : System Service Operation := ⟨Started, fun s o => some (perform o s).2⟩

omit [TextTables] in
/-- Where `SaveManifest` is reached, and fails after it has committed, the saved setup can be read. -/
def CommitCalls.Readable (calls : CommitCalls) : Prop :=
  calls.prepare = .ok () → calls.ready = .ok () → calls.loadPrior = .ok () →
    ∀ message deferred, calls.save = .failed message true deferred → calls.loadAfterSave = .ok ()

def Operation.Readable (o : Operation) : Prop := ∀ calls, o.commit = some calls → calls.Readable

/-- No error of a rollback is reported. -/
def Operation.RollsBack (o : Operation) (s : Service) : Prop :=
  ∀ e, (perform o s).1 = some e → e.rollback = none

/-! ## What is to hold -/

/-- The status has the manifest of the published runtime, which is among what is saved. -/
structure Consistent (s : Service) : Prop where
  live : s.live = s.manifest
  saved : ∀ active, s.manifest = some active →
    ∃ saved, s.saved = some saved ∧ active.items.Sublist saved.manifest.items

/-- The saved setup, the published runtime and the items of the status are as they were. -/
structure Unchanged (s t : Service) : Prop where
  saved : t.saved = s.saved
  live : t.live = s.live
  manifest : t.manifest = s.manifest

/-- All three are this manifest. -/
structure Holds (manifest : SetupManifest) (t : Service) : Prop where
  saved : t.saved.map SavedSetup.manifest = some manifest
  live : t.live = some manifest
  manifest : t.manifest = some manifest

/-- A transaction leaves everything as it was, or makes everything the manifest that it returns. -/
structure Transacts (s : Service) (r : Except ServiceError SetupManifest × Service) : Prop where
  failed : ∀ e, r.1 = .error e → Unchanged s r.2
  done : ∀ manifest, r.1 = .ok manifest → Holds manifest r.2

/-- A transaction for this manifest. -/
structure Commits (s : Service) (manifest : SetupManifest)
    (r : Except ServiceError SetupManifest × Service) : Prop where
  failed : ∀ e, r.1 = .error e → Unchanged s r.2
  done : ∀ made, r.1 = .ok made → made = manifest ∧ Holds manifest r.2

/-- The manifest that a publication is to make. -/
def NewManifest (s : Service) (media : AcquiredMedia) (manifest : SetupManifest) : Prop :=
  ∃ saved configuration items, s.saved = some saved ∧
    configurationFromAcquired media = .ok configuration ∧
    publishedItems configuration saved.manifest.items = .ok items ∧
    newSetupManifest items = .ok manifest

/-- What the claim says of one operation. -/
def Atomic (s : Service) : Operation → Prop
  | .apply calls request => Transacts s (apply calls request s)
  | .publishAcquired calls media =>
      (∀ e, (publishAcquired calls media s).1 = .error e →
        Unchanged s (publishAcquired calls media s).2) ∧
      ((publishAcquired calls media s).1 = .ok () →
        ∃ manifest, NewManifest s media manifest ∧ Holds manifest (publishAcquired calls media s).2)
  | .restore calls =>
      -- what is active stays, or gives way to all that is saved
      ∀ active, s.manifest = some active → Unchanged s (restore calls s).2 ∨
        ∃ saved, s.saved = some saved ∧ Holds saved.manifest (restore calls s).2

/-! ## Rolling back -/

/-- A rollback that reports no error puts back what was saved. -/
theorem rollbackPersistence_eq {call : SaveCall} {previous : Option SavedSetup} {s t : Service}
    (h : rollbackPersistence call previous s = (none, t)) : t = { s with saved := previous } := by
  cases previous with
  | none =>
    cases call with
    | done =>
      obtain ⟨-, rfl⟩ := Prod.mk.inj h
      rfl
    | failed message committed deferred => cases (Prod.mk.inj h).1
  | some saved =>
    simp only [rollbackPersistence, saveManifest_accepted call saved.token saved.accepted s] at h
    cases call with
    | done =>
      obtain ⟨-, rfl⟩ := Prod.mk.inj h
      rfl
    | failed message committed deferred => cases (Prod.mk.inj h).1

/-- A transaction that ends in a rollback. -/
theorem commits_rollback {s t : Service} {manifest : SetupManifest} (saved : Option SavedSetup)
    {call : SaveCall} {context : String} {causes : List Sentinel}
    (ht : t = { s with saved }) (hnone : (rollbackPersistence call s.saved t).1 = none) :
    Commits s manifest (.error ⟨context, causes, (rollbackPersistence call s.saved t).1⟩,
      (rollbackPersistence call s.saved t).2) where
  failed := by
    intro e _
    have heq : (rollbackPersistence call s.saved t).2 = { t with saved := s.saved } :=
      rollbackPersistence_eq (Prod.ext hnone rfl)
    have hsame : { t with saved := s.saved } = s := by rw [ht]
    have hend := heq.trans hsame
    exact ⟨congrArg Service.saved hend, congrArg Service.live hend, congrArg Service.manifest hend⟩
  done := by
    intro made h
    cases h

/-- A transaction that fails and leaves the service alone. -/
theorem commits_error (s : Service) (manifest : SetupManifest) (e : ServiceError) :
    Commits s manifest (.error e, s) where
  failed := fun _ _ => ⟨rfl, rfl, rfl⟩
  done := by
    intro made h
    cases h

/-- No error of a rollback in what a transaction returns. -/
def NoRollbackError (r : Except ServiceError SetupManifest × Service) : Prop :=
  ∀ e, r.1 = .error e → e.rollback = none

/-- Publishing what is saved. -/
theorem publishRuntime_commits {calls : CommitCalls} {manifest : SetupManifest} {s t : Service}
    (saved : Option SavedSetup) (ht : t = { s with saved })
    (hsaved : saved.map SavedSetup.manifest = some manifest)
    (hrollback : NoRollbackError (publishRuntime calls s.saved manifest t)) :
    Commits s manifest (publishRuntime calls s.saved manifest t) := by
  cases hpublish : calls.publish with
  | error message =>
    simp only [publishRuntime, hpublish, NoRollbackError] at hrollback ⊢
    exact commits_rollback saved ht (hrollback _ rfl)
  | ok u =>
    have heq : publishRuntime calls s.saved manifest t =
        (.ok manifest, (t.publish manifest).setStatus manifest manifest.items.length) := by
      simp only [publishRuntime, hpublish]
    rw [heq]
    refine ⟨fun e h => ?_, fun m h => ?_⟩
    · cases h
    · refine ⟨(Except.ok.inj h).symm, ?_, rfl, rfl⟩
      show t.saved.map SavedSetup.manifest = some manifest
      rw [ht]
      exact hsaved

/-! ## Committing -/

/-- What is saved is recognised when it can be read. -/
theorem committed_saved (token : ByteText) {manifest : SetupManifest}
    (h : newSetupManifest manifest.items = .ok manifest) (s : Service) :
    committed (.ok ()) token manifest { s with saved := some ⟨token, manifest, h⟩ } = true := by
  simp [committed, loadManifest]

/-- What is recognised is saved. -/
theorem saved_of_committed {call : Call} {token : ByteText} {manifest : SetupManifest} {s : Service}
    (h : committed call token manifest s = true) : s.saved.map SavedSetup.manifest = some manifest := by
  cases call with
  | error message => cases h
  | ok u =>
    cases hsaved : s.saved with
    | none =>
      simp only [committed, loadManifest, hsaved] at h
      cases h
    | some saved =>
      simp only [committed, loadManifest, hsaved, Bool.and_eq_true, decide_eq_true_eq] at h
      rw [Option.map_some, h.2]

/-- Saving and publishing an accepted manifest. -/
theorem persist_commits {calls : CommitCalls} (token : ByteText) {manifest : SetupManifest}
    (h : newSetupManifest manifest.items = .ok manifest) (s : Service)
    (hreadable : ∀ message deferred, calls.save = .failed message true deferred →
      calls.loadAfterSave = .ok ())
    (hrollback : NoRollbackError (persist calls token s.saved manifest s)) :
    Commits s manifest (persist calls token s.saved manifest s) := by
  have hsame : s = { s with saved := s.saved } := rfl
  cases hsave : calls.save with
  | done =>
    simp only [persist, hsave, saveManifest_accepted _ _ h] at hrollback ⊢
    exact publishRuntime_commits (some ⟨token, manifest, h⟩) rfl rfl hrollback
  | failed message written deferred =>
    simp only [persist, hsave, saveManifest_accepted _ _ h] at hrollback ⊢
    cases written with
    | true =>
      -- the new setup is there and is read: it is kept or rolled back
      have hload := hreadable message deferred hsave
      simp only [if_true, hload, committed_saved, Bool.and_true] at hrollback ⊢
      cases deferred with
      | true =>
        simp only [if_true] at hrollback ⊢
        exact publishRuntime_commits (some ⟨token, manifest, h⟩) rfl rfl hrollback
      | false =>
        simp only [Bool.false_eq_true, if_false] at hrollback ⊢
        exact commits_rollback (some ⟨token, manifest, h⟩) rfl (hrollback _ rfl)
    | false =>
      -- the old setup is there, and may be the same as the new one
      simp only [Bool.false_eq_true, if_false] at hrollback ⊢
      cases hfound : committed calls.loadAfterSave token manifest s with
      | false =>
        simp only [Bool.and_false, Bool.false_eq_true, if_false]
        exact commits_error s manifest _
      | true =>
        simp only [hfound, Bool.and_true, if_true] at hrollback ⊢
        cases deferred with
        | true =>
          simp only [if_true] at hrollback ⊢
          exact publishRuntime_commits s.saved hsame (saved_of_committed hfound) hrollback
        | false =>
          simp only [Bool.false_eq_true, if_false] at hrollback ⊢
          exact commits_rollback s.saved hsame (hrollback _ rfl)

/-- `commitManifest` is a transaction. -/
theorem commitManifest_commits {calls : CommitCalls} (token : ByteText) {manifest : SetupManifest}
    (h : newSetupManifest manifest.items = .ok manifest) (s : Service) (hreadable : calls.Readable)
    (hrollback : NoRollbackError (commitManifest calls token manifest s)) :
    Commits s manifest (commitManifest calls token manifest s) := by
  unfold commitManifest at hrollback ⊢
  cases hprepare : calls.prepare with
  | error message => exact commits_error s manifest _
  | ok u =>
    cases hready : calls.ready with
    | error message => exact commits_error s manifest _
    | ok u' =>
      simp only [hprepare, hready] at hrollback ⊢
      cases hprior : calls.loadPrior with
      | error message => exact commits_error s manifest _
      | ok u'' =>
        have hsaves := hreadable hprepare hready hprior
        rw [hprior] at hrollback
        cases hsaved : s.saved with
        | none =>
          have hload : loadManifest (.ok u'') s = .error .notFound := by rw [loadManifest, hsaved]
          simp only [hload] at hrollback ⊢
          rw [← hsaved] at hrollback ⊢
          exact persist_commits token h s hsaves hrollback
        | some saved =>
          have hload : loadManifest (.ok u'') s = .ok saved := by rw [loadManifest, hsaved]
          simp only [hload] at hrollback ⊢
          rw [← hsaved] at hrollback ⊢
          exact persist_commits token h s hsaves hrollback

/-- Where `SaveManifest` fails after it has committed, and the saved setup cannot be read, the new
setup stays saved. -/
theorem commitManifest_unreadable {calls : CommitCalls} (token : ByteText) {manifest : SetupManifest}
    (h : newSetupManifest manifest.items = .ok manifest) (s : Service)
    (hreadable : ¬ calls.Readable) :
    commitManifest calls token manifest s =
      (.error ⟨"persist selected media", [.unavailable], none⟩,
        { s with saved := some ⟨token, manifest, h⟩ }) := by
  simp only [CommitCalls.Readable, not_forall] at hreadable
  obtain ⟨hprepare, hready, hprior, message, deferred, hsave, hload⟩ := hreadable
  cases hafter : calls.loadAfterSave with
  | ok u => exact absurd hafter hload
  | error reason =>
    have hpersist : ∀ previous, persist calls token previous manifest s =
        (.error ⟨"persist selected media", [.unavailable], none⟩,
          { s with saved := some ⟨token, manifest, h⟩ }) := by
      intro previous
      have hunread : ∀ t : Service, committed (.error reason) token manifest t = false := fun t => rfl
      simp only [persist, hsave, saveManifest_accepted _ _ h, if_true, hafter, hunread,
        Bool.and_false, Bool.false_eq_true, if_false]
    cases hsaved : s.saved with
    | none =>
      have hnone : loadManifest (.ok ()) s = .error .notFound := by rw [loadManifest, hsaved]
      simp only [commitManifest, hprepare, hready, hprior, hnone, hpersist]
    | some saved =>
      have hsome : loadManifest (.ok ()) s = .ok saved := by rw [loadManifest, hsaved]
      simp only [commitManifest, hprepare, hready, hprior, hsome, hpersist]

/-! ## The operations -/

omit [TextTables] in
/-- The active items are an ordered part of the saved ones. -/
theorem sublist_of_orderedSubset {active saved : List SetupConfiguration}
    (h : orderedSubset active saved = true) : active.Sublist saved := by
  induction saved generalizing active with
  | nil =>
    cases active with
    | nil => exact List.Sublist.slnil
    | cons a active => cases h
  | cons c saved ih =>
    cases active with
    | nil => exact List.nil_sublist _
    | cons a active =>
      rw [orderedSubset] at h
      split at h
      · next heq => exact heq ▸ (ih h).cons_cons c
      · exact (ih h).cons c

theorem Unchanged.trans {s t u : Service} (h : Unchanged s t) (h' : Unchanged t u) : Unchanged s u :=
  ⟨h'.saved.trans h.saved, h'.live.trans h.live, h'.manifest.trans h.manifest⟩

theorem Commits.transacts {s : Service} {manifest : SetupManifest}
    {r : Except ServiceError SetupManifest × Service} (h : Commits s manifest r) : Transacts s r where
  failed := h.failed
  done := by
    intro made hmade
    obtain ⟨rfl, hholds⟩ := h.done made hmade
    exact hholds

theorem transacts_error (s : Service) (e : ServiceError) : Transacts s (.error e, s) where
  failed := fun _ _ => ⟨rfl, rfl, rfl⟩
  done := by
    intro manifest h
    cases h

theorem Transacts.of_unchanged {s t : Service} {r : Except ServiceError SetupManifest × Service}
    (h : Unchanged s t) (hr : Transacts t r) : Transacts s r :=
  ⟨fun e he => h.trans (hr.failed e he), hr.done⟩

/-- Resolving the token changes at most what the status says of it. -/
theorem resolveToken_unchanged (call : Call) (supplied : ByteText) (s : Service) :
    Unchanged s (resolveToken call supplied s).2 := by
  simp only [resolveToken]
  split
  · split
    · exact ⟨rfl, rfl, rfl⟩
    · exact ⟨rfl, rfl, rfl⟩
  · split
    · exact ⟨rfl, rfl, rfl⟩
    · exact ⟨rfl, rfl, rfl⟩
    · exact ⟨rfl, rfl, rfl⟩

theorem applyWithToken_transacts {calls : ApplyCalls} {request : ApplyRequest} (token : ByteText)
    (s : Service) (hreadable : calls.commit.Readable)
    (hrollback : NoRollbackError (applyWithToken calls request token s)) :
    Transacts s (applyWithToken calls request token s) := by
  unfold applyWithToken at hrollback ⊢
  cases hrequests : request.itemRequests with
  | error message => exact transacts_error s _
  | ok requests =>
    simp only [hrequests] at hrollback ⊢
    cases hdiscovered : discoverWithToken calls with
    | error e => exact transacts_error s _
    | ok candidates =>
      simp only [hdiscovered] at hrollback ⊢
      cases hselected : selectConfigurations candidates requests with
      | error e => exact transacts_error s _
      | ok configurations =>
        simp only [hselected] at hrollback ⊢
        cases hmanifest : newSetupManifest configurations with
        | error message => exact transacts_error s _
        | ok manifest =>
          simp only [hmanifest] at hrollback ⊢
          exact (commitManifest_commits token (newSetupManifest_idem hmanifest) s hreadable
            hrollback).transacts

/-- `Apply` is a transaction. -/
theorem apply_transacts {calls : ApplyCalls} {request : ApplyRequest} (s : Service)
    (hreadable : calls.commit.Readable) (hrollback : NoRollbackError (apply calls request s)) :
    Transacts s (apply calls request s) := by
  have htoken := resolveToken_unchanged calls.loadToken request.token s
  unfold apply at hrollback ⊢
  cases hresolved : resolveToken calls.loadToken request.token s with
  | mk result t =>
    rw [hresolved] at htoken hrollback
    cases result with
    | error e => exact (transacts_error t e).of_unchanged htoken
    | ok token => exact (applyWithToken_transacts token t hreadable hrollback).of_unchanged htoken

/-- What is loaded is saved. -/
theorem saved_of_loadManifest {call : Call} {s : Service} {saved : SavedSetup}
    (h : loadManifest call s = .ok saved) : s.saved = some saved := by
  cases call with
  | error message => cases h
  | ok u =>
    cases hs : s.saved with
    | none =>
      rw [loadManifest, hs] at h
      cases h
    | some current =>
      rw [loadManifest, hs] at h
      rw [Except.ok.inj h]

/-- `PublishAcquired` is refused, or commits the manifest with the acquired medium in it. -/
theorem publishAcquired_cases (calls : PublishCalls) (media : AcquiredMedia) (s : Service) :
    (∃ e, publishAcquired calls media s = (.error e, s)) ∨
      ∃ token manifest, NewManifest s media manifest ∧
        newSetupManifest manifest.items = .ok manifest ∧
        publishAcquired calls media s =
          ((commitManifest calls.commit token manifest s).1.map fun _ => (),
            (commitManifest calls.commit token manifest s).2) := by
  cases hload : loadManifest calls.load s with
  | error e =>
    cases e with
    | notFound => exact Or.inl ⟨_, by simp only [publishAcquired, hload]; rfl⟩
    | failed message => exact Or.inl ⟨_, by simp only [publishAcquired, hload]; rfl⟩
  | ok current =>
    cases hc : configurationFromAcquired media with
    | error message => exact Or.inl ⟨_, by simp only [publishAcquired, hload, hc]; rfl⟩
    | ok configuration =>
      cases hitems : publishedItems configuration current.manifest.items with
      | error e => exact Or.inl ⟨e, by simp only [publishAcquired, hload, hc, hitems]⟩
      | ok items =>
        cases hmanifest : newSetupManifest items with
        | error message =>
          exact Or.inl ⟨_, by simp only [publishAcquired, hload, hc, hitems, hmanifest]; rfl⟩
        | ok manifest =>
          refine Or.inr ⟨current.token, manifest, ?_, newSetupManifest_idem hmanifest, ?_⟩
          · exact ⟨current, configuration, items, saved_of_loadManifest hload, hc, hitems, hmanifest⟩
          · simp only [publishAcquired, hload, hc, hitems, hmanifest]

/-- So it is a transaction. -/
theorem publishAcquired_atomic {calls : PublishCalls} {media : AcquiredMedia} (s : Service)
    (hreadable : calls.commit.Readable)
    (hrollback : ∀ e, (publishAcquired calls media s).1 = .error e → e.rollback = none) :
    Atomic s (.publishAcquired calls media) := by
  rcases publishAcquired_cases calls media s with ⟨e, heq⟩ | ⟨token, manifest, hnew, haccepted, heq⟩
  · simp only [Atomic, heq]
    constructor
    · exact fun _ _ => ⟨rfl, rfl, rfl⟩
    · intro h
      cases h
  · rw [heq] at hrollback
    have hcommits := commitManifest_commits token haccepted s hreadable (by
      intro e he
      apply hrollback e
      show Except.map _ (commitManifest calls.commit token manifest s).1 = _
      rw [he]
      rfl)
    simp only [Atomic, heq]
    generalize commitManifest calls.commit token manifest s = r at hcommits
    obtain ⟨result, t⟩ := r
    cases result with
    | error e =>
      constructor
      · exact fun _ _ => hcommits.failed e rfl
      · intro h
        cases h
    | ok made =>
      constructor
      · intro e h
        cases h
      · exact fun _ => ⟨manifest, hnew, (hcommits.done made rfl).2⟩

omit [TextTables] in
theorem validateRestorePreparation_eq_ok {saved : SetupManifest} {preparation : RestorePreparation}
    {u : Unit} (h : validateRestorePreparation saved preparation = .ok u) :
    preparation.activeManifest.items.length ≤ saved.items.length ∧
      preparation.activeManifest.items.Sublist saved.items := by
  simp only [validateRestorePreparation, bind_eq_ok, require_eq_ok] at h
  obtain ⟨_, _, _, _, _, hlen, hsubset⟩ := h
  exact ⟨hlen, sublist_of_orderedSubset hsubset⟩

/-- What `Restore` publishes is an ordered part of what is saved; where something is active it is all
of it. -/
theorem restore_cases (calls : RestoreCalls) (s : Service) :
    Unchanged s (restore calls s).2 ∨
      ∃ saved active, s.saved = some saved ∧ active.items.Sublist saved.manifest.items ∧
        (s.manifest.isSome → active = saved.manifest) ∧ (restore calls s).2.saved = s.saved ∧
        (restore calls s).2.live = some active ∧ (restore calls s).2.manifest = some active := by
  cases hload : loadManifest calls.load s with
  | error e =>
    cases e with
    | notFound => exact Or.inl (by simp only [restore, hload]; exact ⟨rfl, rfl, rfl⟩)
    | failed message => exact Or.inl (by simp only [restore, hload]; exact ⟨rfl, rfl, rfl⟩)
  | ok saved =>
    simp only [restore, hload]
    cases hprepare : calls.prepare with
    | error unavailable =>
      cases unavailable with
      | true => exact Or.inl ⟨rfl, rfl, rfl⟩
      | false => exact Or.inl ⟨rfl, rfl, rfl⟩
    | ok preparation =>
      simp only
      cases hvalid : validateRestorePreparation saved.manifest preparation with
      | error message => exact Or.inl ⟨rfl, rfl, rfl⟩
      | ok u =>
        obtain ⟨hlen, hsublist⟩ := validateRestorePreparation_eq_ok hvalid
        simp only
        by_cases hkept : (decide (preparation.activeManifest.items.length <
            saved.manifest.items.length) &&
              (s.markSavedManifest saved.manifest.items.length).manifest.isSome) = true
        · rw [if_pos hkept]
          exact Or.inl ⟨rfl, rfl, rfl⟩
        · -- nothing is active, or the whole manifest is restored
          have hall : s.manifest.isSome → preparation.activeManifest = saved.manifest := by
            intro hactive
            have hwhole : ¬ preparation.activeManifest.items.length < saved.manifest.items.length := by
              intro hlt
              exact hkept (by simp [hlt, Service.markSavedManifest, hactive])
            have hitems := hsublist.eq_of_length_le (not_lt.1 hwhole)
            exact congrArg SetupManifest.mk hitems
          rw [if_neg hkept]
          cases hready : calls.ready with
          | error message => exact Or.inl ⟨rfl, rfl, rfl⟩
          | ok u' =>
            simp only
            cases hpublish : calls.publish with
            | error message => exact Or.inl ⟨rfl, rfl, rfl⟩
            | ok u'' =>
              refine Or.inr ⟨saved, preparation.activeManifest, saved_of_loadManifest hload, hsublist,
                hall, ?_⟩
              simp only
              split
              · exact ⟨rfl, rfl, rfl⟩
              · exact ⟨rfl, rfl, rfl⟩

/-! ## Runs -/

/-- The calls of an operation are readable and its rollback, if there is one, succeeds. -/
def Sound (s : Service) (o : Operation) : Prop := o.Readable ∧ o.RollsBack s

/-- Every operation whose rollback succeeds is a transaction if its calls are readable. -/
theorem atomic_of_sound {s : Service} {o : Operation} (h : Sound s o) : Atomic s o := by
  obtain ⟨hreadable, hrollback⟩ := h
  cases o with
  | apply calls request =>
    apply apply_transacts s (hreadable calls.commit rfl)
    intro e he
    apply hrollback e
    simp only [perform]
    split
    · next e' t heq =>
      rw [heq] at he
      exact congrArg some (Except.error.inj he)
    · next m t heq =>
      rw [heq] at he
      cases he
  | publishAcquired calls media =>
    apply publishAcquired_atomic s (hreadable calls.commit rfl)
    intro e he
    apply hrollback e
    simp only [perform]
    split
    · next e' t heq =>
      rw [heq] at he
      exact congrArg some (Except.error.inj he)
    · next m t heq =>
      rw [heq] at he
      cases he
  | restore calls =>
    intro active hactive
    refine (restore_cases calls s).imp_right ?_
    rintro ⟨saved, restored, hsaved, _, hall, hafter, hlive, hmanifest⟩
    have hrestored := hall (Option.isSome_iff_exists.2 ⟨active, hactive⟩)
    refine ⟨saved, hsaved, ?_, hrestored ▸ hlive, hrestored ▸ hmanifest⟩
    rw [hafter, hsaved]
    rfl

theorem Consistent.of_unchanged {s t : Service} (h : Consistent s) (ht : Unchanged s t) :
    Consistent t where
  live := by rw [ht.live, ht.manifest, h.live]
  saved := by
    rw [ht.saved, ht.manifest]
    exact h.saved

theorem consistent_of_holds {t : Service} {manifest : SetupManifest} (h : Holds manifest t) :
    Consistent t where
  live := by rw [h.live, h.manifest]
  saved := by
    intro active hactive
    rw [h.manifest, Option.some.injEq] at hactive
    obtain ⟨saved, hsaved, rfl⟩ := Option.map_eq_some_iff.1 h.saved
    exact ⟨saved, hsaved, hactive ▸ List.Sublist.refl _⟩

/-- An operation that is a transaction keeps the status consistent. -/
theorem Consistent.perform {s : Service} {o : Operation} (h : Consistent s) (ho : Atomic s o) :
    Consistent (perform o s).2 := by
  cases o with
  | apply calls request =>
    simp only [SetupService.perform]
    split
    · next e t heq => exact h.of_unchanged (by simpa [heq] using ho.failed e (by rw [heq]))
    · next m t heq => exact consistent_of_holds (by simpa [heq] using ho.done m (by rw [heq]))
  | publishAcquired calls media =>
    obtain ⟨hfailed, hdone⟩ := ho
    simp only [SetupService.perform]
    split
    · next e t heq => exact h.of_unchanged (by simpa [heq] using hfailed e (by rw [heq]))
    · next u t heq =>
      obtain ⟨manifest, -, hholds⟩ := hdone (by rw [heq])
      exact consistent_of_holds (by simpa [heq] using hholds)
  | restore calls =>
    have hafter : (SetupService.perform (.restore calls) s).2 = (restore calls s).2 := by
      simp only [SetupService.perform]
      split
      · next heq => rw [heq]
      · next heq => rw [heq]
    rw [hafter]
    rcases restore_cases calls s with hsame | ⟨saved, active, hsaved, hsublist, _, hkept, hlive, hmanifest⟩
    · exact h.of_unchanged hsame
    · refine ⟨by rw [hlive, hmanifest], fun active' hactive => ?_⟩
      rw [hmanifest, Option.some.injEq] at hactive
      exact ⟨saved, hkept.trans hsaved, hactive ▸ hsublist⟩

theorem consistent_of_started {s : Service} (h : Started s) : Consistent s where
  live := by rw [h.live, h.manifest]
  saved := by
    intro active hactive
    rw [h.manifest] at hactive
    cases hactive

/-- In every run of sound operations the status is that of the published runtime and a part of what is
saved, and every sound operation is a transaction. -/
theorem transactions_atomic {s : Service} (hs : setup.ReachableBy Sound s) :
    Consistent s ∧ ∀ o, Sound s o → Atomic s o := by
  refine ⟨?_, fun o ho => atomic_of_sound ho⟩
  refine hs.invariant (fun _ h => consistent_of_started h) ?_
  intro s o t h ho hstep
  obtain rfl := Option.some.inj hstep
  exact h.perform (atomic_of_sound ho)

end Transactions

section SmallRuns

attribute [local instance] TextTables.ascii

/-- What is saved when the medium of the run below has been published. -/
def publishedFilms : List SetupConfiguration := [smallFilm "2" "T", smallFilm "3" "U"]

/-- One publication of which no call fails. -/
theorem transactions_atomic_small : ∃ t, setup.run { saved := some oneMatch }
      [.publishAcquired {} smallMedia] = some t ∧
    t.saved.map (fun saved => saved.manifest.items) = some publishedFilms ∧
    Consistent t ∧ ∀ o, Sound t o → Atomic t o := by
  have hc : configurationFromAcquired smallMedia = .ok (smallFilm "2" "T") := by decide +kernel
  have hitems : publishedItems (smallFilm "2" "T") oneMatch.manifest.items = .ok publishedFilms := by
    decide +kernel
  have hnew : newSetupManifest publishedFilms = .ok ⟨publishedFilms⟩ := by decide +kernel
  obtain ⟨t, hpublished, hsaved⟩ :=
    publishAcquired_of_items (s := { saved := some oneMatch }) rfl hc hitems hnew
  have hperform : perform (.publishAcquired {} smallMedia) { saved := some oneMatch } = (none, t) := by
    simp only [perform, hpublished]
  have hsound : Sound { saved := some oneMatch } (.publishAcquired {} smallMedia) := by
    refine ⟨fun calls hcalls => ?_, fun e he => ?_⟩
    · obtain rfl := Option.some.inj hcalls
      intro _ _ _ message deferred hsave
      cases hsave
    · rw [hperform] at he
      cases he
  have hstep : setup.step { saved := some oneMatch } (.publishAcquired {} smallMedia) = some t := by
    show some (perform (.publishAcquired {} smallMedia) { saved := some oneMatch }).2 = some t
    rw [hperform]
  refine ⟨t, ?_, ?_, transactions_atomic (.step (.init ⟨rfl, rfl⟩) hsound hstep)⟩
  · rw [System.run_cons, hstep]
    rfl
  · rw [hsaved]
    rfl

/-- The directory of the repository is not synced after the new setup was committed, and by then the
caller has gone away: the publication fails, and what it was to save stays. -/
def interrupted : PublishCalls :=
  { commit :=
      { save := .failed "sync directory" true false
        loadAfterSave := .error "load setup: context canceled" } }

theorem interrupted_not_atomic :
    ¬ ∀ s, setup.ReachableBy (fun s o => o.RollsBack s) s →
      Consistent s ∧ ∀ o, Operation.RollsBack o s → Atomic s o := by
  intro hclaim
  have hc : configurationFromAcquired smallMedia = .ok (smallFilm "2" "T") := by decide +kernel
  have hitems : publishedItems (smallFilm "2" "T") oneMatch.manifest.items = .ok publishedFilms := by
    decide +kernel
  have hnew : newSetupManifest publishedFilms = .ok ⟨publishedFilms⟩ := by decide +kernel
  have hreadable : ¬ interrupted.commit.Readable := by
    intro h
    cases h rfl rfl rfl "sync directory" false rfl
  have hload : loadManifest interrupted.load { saved := some oneMatch } = .ok oneMatch := rfl
  have hfailed : publishAcquired interrupted smallMedia { saved := some oneMatch } =
      (.error ⟨"persist selected media", [.unavailable], none⟩,
        { saved := some ⟨oneMatch.token, ⟨publishedFilms⟩, hnew⟩ }) := by
    have hcommit := @commitManifest_unreadable _ interrupted.commit oneMatch.token ⟨publishedFilms⟩ hnew
      { saved := some oneMatch } hreadable
    simp only [publishAcquired, hload, hc, hitems, hnew]
    rw [hcommit]
    rfl
  have hatomic := (hclaim { saved := some oneMatch } (.init ⟨rfl, rfl⟩)).2
    (.publishAcquired interrupted smallMedia) (by
      intro e he
      simp only [perform, hfailed, Option.some.injEq] at he
      rw [← he])
  have hsame := (hatomic.1 _ (by rw [hfailed])).saved
  rw [hfailed] at hsame
  have hitems' : some publishedFilms = some oneMatch.manifest.items :=
    congrArg (Option.map fun saved : SavedSetup => saved.manifest.items) hsame
  exact absurd hitems' (by decide +kernel)

end SmallRuns

end BlackPearl.SetupService
