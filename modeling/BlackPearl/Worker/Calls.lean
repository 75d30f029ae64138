import BlackPearl.Worker.Process

/-!
# The calls of a step

What a step of the worker can call, and where the object in its transition comes from: one case for
each kind of step (`StepEffect`), reached by one walk over the branches of `processOne`.
-/

set_option autoImplicit false

namespace BlackPearl.Worker

open BlackPearl.Library BlackPearl.Domain BlackPearl.Acquisition BlackPearl.JobStore

section Calls

variable [TextTables] [LetterTables] [URLParser] {o : Occasion} {claim : AcquisitionJobClaim}
  {providers : Providers}

/-- A transition that attaches nothing. -/
def AttachesNothing (transition : Option TransitionCall) : Prop :=
  ∀ created owner, transition ≠ some (.attachPrepared created owner)

/-- The kinds of steps. -/
inductive StepEffect (o : Occasion) (claim : AcquisitionJobClaim) : Processed → Prop
  | quiet {transition : Option TransitionCall} (hnothing : AttachesNothing transition) :
      StepEffect o claim ⟨[], transition⟩
  | found {providers : Providers} {infoHash : String} {created : CreatedObject}
      (hproviders : o.providers = .ok providers)
      (hanswer : providers.findTorrentByHash infoHash = .ok created) :
      StepEffect o claim ⟨[], some (.attachPrepared created false)⟩
  | prepared {providers : Providers} {preparer : RangePreparer} {candidate : RangeCandidate}
      {created : CreatedObject} (hproviders : o.providers = .ok providers)
      (hpreparer : providers.rangePreparer = some preparer)
      (hanswer : preparer.prepare candidate = .ok created) :
      StepEffect o claim ⟨[], some (.attachPrepared created false)⟩
  | creates {providers : Providers} {release : Release} {err : ProviderError} {input : TorrentInput}
      {transition : Option TransitionCall} (hproviders : o.providers = .ok providers)
      (hstate : claim.job.state = .selected) (hkind : claim.job.selectionOrZero.kind = .torrent)
      (hfind : providers.findTorrentByHash claim.job.selectionOrZero.infoHash = .error err)
      (habsent : err.notFound = true)
      (hsame : release.infoHash = claim.job.selectionOrZero.infoHash)
      (hmaterial : providers.materialize release = .ok input)
      (hattach : ∀ created owner, transition = some (.attachPrepared created owner) → owner = true ∧
        (providers.createTorrent input true = .ok created ∨
          providers.reconcile claim.job.selectionOrZero.infoHash = .ok created)) :
      StepEffect o claim ⟨[.createTorrent input true], transition⟩
  | deletes {transition : Option TransitionCall} (howner : claim.job.createdByJob = true)
      (hnothing : AttachesNothing transition) :
      StepEffect o claim
        ⟨[.deleteCreatedTorrent (claim.job.createdObject.getD ⟨⟨"", ""⟩⟩)], transition⟩
  | publishes {media : AcquiredMedia} {transition : Option TransitionCall}
      (hnothing : AttachesNothing transition) :
      StepEffect o claim ⟨[.publishAcquired media], transition⟩

/-! ## The branches -/

omit [LetterTables] [URLParser] in
theorem deferProviderFailure_nothing (cause : ProviderError) :
    AttachesNothing (deferProviderFailure o claim cause) := by
  intro created owner
  unfold deferProviderFailure
  split
  · simp
  · simp [deferJob, deferJobWithProgress]

omit [LetterTables] [URLParser] in
theorem deferred_effect (cause : ProviderError) :
    StepEffect o claim ⟨[], deferProviderFailure o claim cause⟩ :=
  .quiet (deferProviderFailure_nothing cause)

omit [LetterTables] [URLParser] in
theorem fail_effect (code : JobErrorCode) (manualReview : Bool) :
    StepEffect o claim (request (.fail code manualReview)) :=
  .quiet (by simp [AttachesNothing])

omit [LetterTables] [URLParser] in
theorem abandonOrFail_effect (outcome : CandidateOutcome) (terminalCode : JobErrorCode)
    (alreadyMissing : Bool) (code : JobErrorCode) (manualReview : Bool) :
    StepEffect o claim (abandonOrFail claim providers outcome terminalCode alreadyMissing
      (.fail code manualReview)) := by
  unfold abandonOrFail
  split
  · unfold abandonCandidate
    split
    · next howner =>
      simp only
      split
      · exact .deletes howner.1 (by simp [AttachesNothing])
      · exact .deletes howner.1 (by simp [AttachesNothing])
    · exact .quiet (by simp [AttachesNothing])
  · exact fail_effect _ _

omit [LetterTables] [URLParser] in
theorem attachCreated_from {infoHash : String} {answer : Except ProviderError CreatedObject}
    {created : CreatedObject} {owner : Bool}
    (h : attachCreated o claim providers infoHash answer = some (.attachPrepared created owner)) :
    owner = true ∧ (answer = .ok created ∨ providers.reconcile infoHash = .ok created) := by
  unfold attachCreated at h
  split at h
  · simp only [Option.some.injEq, TransitionCall.attachPrepared.injEq] at h
    exact ⟨h.2.symm, Or.inl (congrArg _ h.1)⟩
  · split at h
    · exact absurd h (deferProviderFailure_nothing _ _ _)
    · split at h
      · next hreconciled =>
        simp only [Option.some.injEq, TransitionCall.attachPrepared.injEq] at h
        exact ⟨h.2.symm, Or.inr (h.1 ▸ hreconciled)⟩
      · simp at h

omit [LetterTables] [URLParser] in
theorem prepareTorrent_effect (hproviders : o.providers = .ok providers)
    (hstate : claim.job.state = .selected) (hkind : claim.job.selectionOrZero.kind = .torrent) :
    StepEffect o claim (prepareTorrent o claim providers claim.job.selectionOrZero) := by
  unfold prepareTorrent
  split
  · next hanswer => exact .found hproviders hanswer
  · next err hfind =>
    split
    · exact fail_effect _ _
    · split
      · exact deferred_effect _
      · split
        · exact deferred_effect _
        · next hfound =>
          unfold createSelected
          split
          · exact deferred_effect _
          · split
            · exact abandonOrFail_effect _ _ _ _ _
            · next releases _ ephemeral hephemeral =>
              split
              · exact abandonOrFail_effect _ _ _ _ _
              · split
                · exact deferred_effect _
                · next material hmaterial =>
                  have hsame := List.find?_some hephemeral
                  simp only [Bool.and_eq_true, decide_eq_true_eq] at hsame
                  exact .creates hproviders hstate hkind hfind (by simpa using hfound) hsame.2 hmaterial
                    fun created owner h => attachCreated_from h

omit [LetterTables] [URLParser] in
theorem prepare_effect (hproviders : o.providers = .ok providers)
    (hstate : claim.job.state = .selected) :
    StepEffect o claim (prepare o claim providers) := by
  unfold prepare
  simp only
  split
  · split
    · exact deferred_effect _
    · next preparer hpreparer =>
      unfold prepareRange
      split
      · next hanswer => exact .prepared hproviders hpreparer hanswer
      · split
        · exact abandonOrFail_effect _ _ _ _ _
        · exact deferred_effect _
  · next hkind => exact prepareTorrent_effect hproviders hstate hkind
  · exact fail_effect _ _

omit [URLParser] in
theorem publishSelected_effect (acquire : MediaCandidate → Checked AcquiredMedia)
    (inspection : PreparationInspection) :
    StepEffect o claim (publishSelected o claim providers acquire inspection) := by
  unfold publishSelected
  split
  · exact abandonOrFail_effect _ _ _ _ _
  · split
    · exact abandonOrFail_effect _ _ _ _ _
    · split
      · exact .publishes (deferProviderFailure_nothing _)
      · exact .publishes (by simp [AttachesNothing])

omit [LetterTables] [URLParser] in
theorem deferNotReady_effect (inspection : PreparationInspection) :
    StepEffect o claim (deferNotReady o claim inspection) :=
  .quiet (by simp [AttachesNothing, deferJobWithProgress])

omit [URLParser] in
theorem publish_effect : StepEffect o claim (publish o claim providers) := by
  unfold publish
  split
  · split
    · exact deferred_effect _
    · unfold publishRange
      simp only
      split
      · exact publishSelected_effect _ _
      · split
        · exact deferNotReady_effect _
        · split
          · exact abandonOrFail_effect _ _ _ _ _
          · split
            · exact abandonOrFail_effect _ _ _ _ _
            · exact deferred_effect _
  · unfold publishTorrent
    simp only
    split
    · exact publishSelected_effect _ _
    · split
      · exact abandonOrFail_effect _ _ _ _ _
      · split
        · exact deferNotReady_effect _
        · split
          · exact abandonOrFail_effect _ _ _ _ _
          · split
            · exact fail_effect _ _
            · exact deferred_effect _

omit [LetterTables] in
theorem resolveQueued_effect : StepEffect o claim (resolveQueued o claim providers) := by
  unfold resolveQueued
  simp only
  split
  · exact deferred_effect _
  · exact .quiet (by simp [AttachesNothing])
  · exact .quiet (by simp [AttachesNothing])

/-- **Every step is of one of the kinds.** -/
theorem processOne_effect (o : Occasion) (claim : AcquisitionJobClaim) :
    StepEffect o claim (processOne o claim) := by
  have hcase := processOne_case o claim
  generalize processOne o claim = result at hcase ⊢
  cases hcase with
  | failed cause => exact deferred_effect _
  | resolved hproviders hstate => exact resolveQueued_effect
  | prepared hproviders hstate hrange => exact prepare_effect hproviders hstate
  | published hproviders hstate hrange => exact publish_effect
  | ended hstate => exact .quiet (by simp [AttachesNothing])

end Calls

end BlackPearl.Worker
