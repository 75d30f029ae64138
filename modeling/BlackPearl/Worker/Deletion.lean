import BlackPearl.JobStore.LeaseSafety
import BlackPearl.Worker.Account
import BlackPearl.Worker.Calls

/-!
# What the worker deletes

A candidate that fails is abandoned, and its object deleted if the job has created it. Whether somebody
else uses the object is not looked at. Where no two jobs are attached to an object that one of them has
created, no object is deleted that another job needs (`deletions_safe`); two jobs that select the same
torrent share its object (`shared_object_deleted`).
-/

set_option autoImplicit false

namespace BlackPearl.Worker

open BlackPearl.Library BlackPearl.Domain BlackPearl.Acquisition BlackPearl.JobStore BlackPearl.Torbox

section Deletion

variable [TextTables] [LetterTables] [URLParser]

/-! ## Safe deletions -/

/-- The step has published the media of its job. -/
def Publishes (e : AccountStep) : Prop :=
  (∃ media, .publishAcquired media ∈ e.result.calls) ∧ ∃ id, e.result.transition = some (.succeed id)

/-- The step has created the object for its job: it called `CreateTorrent`, and attached the object as
its creator. -/
def Creates (e : AccountStep) (created : CreatedObject) : Prop :=
  (∃ input, .createTorrent input true ∈ e.result.calls) ∧
    e.result.transition = some (.attachPrepared created true)

/-- A deletion for a job: nobody has published the object, no other job that goes on is attached to it,
and it did not exist before the job created it. -/
structure SafeDeletion (s : AccountRun) (claim : AcquisitionJobClaim) (created : CreatedObject) : Prop
    where
  unpublished : ∀ e ∈ s.log, Publishes e → e.claim.job.createdObject ≠ some created
  unattached : ∀ id row job, s.worker.run.store.jobs.lookup id = some row → id ≠ claim.job.id →
    queryJob row = .ok job → job.state.active = true → job.createdObject ≠ some created
  own : ∃ e ∈ s.log, e.claim.job.id = claim.job.id ∧ Creates e created ∧
    created ∉ accountObjects e.account

/-- Every deletion of a step is safe. -/
def DeletesSafely (s t : AccountRun) : Prop :=
  ∀ e, t.log = s.log ++ [e] → ∀ created, .deleteCreatedTorrent created ∈ e.result.calls →
    SafeDeletion s e.claim created

/-! ## Objects of one job each -/

/-- No job but `id` has been attached to the object. -/
def OnlyFor (s : AccountRun) (id : String) (created : CreatedObject) : Prop :=
  ∀ id' owner, Attached s.worker.run.committed id' created owner → id' = id

/-- No job but `id` has been attached to the object as its creator. -/
def NotCreatedByOther (s : AccountRun) (id : String) (created : CreatedObject) : Prop :=
  ∀ id', Attached s.worker.run.committed id' created true → id' = id

/-- What the providers answer to a job: an object that they have created is new, and an object that
they have found is not one that another job has created. -/
structure Separate (s : AccountRun) (claim : AcquisitionJobClaim) (providers : Providers) : Prop where
  created : ∀ input created, providers.createTorrent input true = .ok created →
    created ∉ accountObjects s.account ∧ OnlyFor s claim.job.id created
  reconciled : ∀ infoHash created, providers.reconcile infoHash = .ok created →
    created ∉ accountObjects s.account ∧ OnlyFor s claim.job.id created
  found : ∀ infoHash created, providers.findTorrentByHash infoHash = .ok created →
    NotCreatedByOther s claim.job.id created
  prepared : ∀ preparer candidate created, providers.rangePreparer = some preparer →
    preparer.prepare candidate = .ok created → NotCreatedByOther s claim.job.id created

/-- The objects of jobs are kept apart, and what is published is recorded. -/
def KeepsApart (s : AccountRun) (a : AccountLabel) : Prop :=
  ∀ position o reaches claim, a.step = .process position o reaches →
    s.worker.run.claims[position]? = some claim →
    (∀ providers, o.providers = .ok providers → Separate s claim providers) ∧
      ∀ id, (processOne o claim).transition = some (.succeed id) →
        reaches = true ∧ (runCall s.worker.run.store claim (.succeed id) o.now).2 = .ok ()

/-! ## The invariant -/

variable {s t : AccountRun} {a : AccountLabel}

/-- What holds as long as the objects are kept apart. -/
structure ApartInvariant (s : AccountRun) : Prop where
  -- an object that a job has created has no other job
  apart : ∀ id id' created owner, Attached s.worker.run.committed id created true →
    Attached s.worker.run.committed id' created owner → id' = id
  -- and was created by a step of the log
  created : ∀ id created, Attached s.worker.run.committed id created true →
    ∃ e ∈ s.log, e.claim.job.id = id ∧ Creates e created ∧ created ∉ accountObjects e.account
  -- a job that has published is at its end
  ended : ∀ e ∈ s.log, Publishes e → ∃ row, s.worker.run.store.jobs.lookup e.claim.job.id = some row ∧
    row.leaseVersion = e.claim.leaseVersion ∧ row.state.active = false

omit [LetterTables] [URLParser] in
theorem attached_append {committed : List Commit} {new : Commit} {id : String} {created : CreatedObject}
    {owner : Bool} (h : Attached (committed ++ [new]) id created owner) :
    Attached committed id created owner ∨ new.job = id ∧ new.call = .attachPrepared created owner := by
  obtain ⟨e, he, hjob, hcall⟩ := h
  rcases List.mem_append.1 he with he | he
  · exact Or.inl ⟨e, he, hjob, hcall⟩
  · obtain rfl := List.mem_singleton.1 he
    exact Or.inr ⟨hjob, hcall⟩

/-- What a step attaches is new, or has not been created by another job. -/
theorem LogsUse.attaches {e : AccountStep} {o : Occasion} {reaches : Bool} (h : LogsUse s t a e o reaches)
    (hapart : KeepsApart s a) {created : CreatedObject} {owner : Bool}
    (hcall : e.result.transition = some (.attachPrepared created owner)) :
    (owner = true ∧ Creates e created ∧ created ∉ accountObjects e.account ∧
        OnlyFor s e.claim.job.id created) ∨
      (owner = false ∧ NotCreatedByOther s e.claim.job.id created) := by
  have hseparate := (hapart _ _ _ _ h.label h.used.claim_eq).1
  have heffect := processOne_effect o e.claim
  rw [← h.result_eq] at heffect
  generalize hresult : e.result = result at heffect hcall
  cases heffect with
  | quiet hnothing => exact absurd hcall (hnothing created owner)
  | @found providers infoHash created' hproviders hanswer =>
    cases hcall
    exact Or.inr ⟨rfl, (hseparate providers hproviders).found infoHash created hanswer⟩
  | @prepared providers preparer candidate created' hproviders hpreparer hanswer =>
    cases hcall
    exact Or.inr ⟨rfl, (hseparate providers hproviders).prepared preparer candidate created hpreparer hanswer⟩
  | @creates providers release err input transition hproviders hstate hkind hfind habsent hsame hmaterial
      hattach =>
    obtain ⟨rfl, hanswer⟩ := hattach created owner hcall
    have hnew : created ∉ accountObjects s.account ∧ OnlyFor s e.claim.job.id created := by
      rcases hanswer with hanswer | hanswer
      · exact (hseparate providers hproviders).created input created hanswer
      · exact (hseparate providers hproviders).reconciled _ created hanswer
    refine Or.inl ⟨rfl, ⟨⟨input, ?_⟩, ?_⟩, h.account_eq ▸ hnew.1, hnew.2⟩
    · rw [hresult]
      exact List.mem_singleton_self _
    · rw [hresult]
      exact hcall
  | deletes howner hnothing => exact absurd hcall (hnothing created owner)
  | publishes hnothing => exact absurd hcall (hnothing created owner)

/-- A published job whose transition is recorded is at its end. -/
theorem LogsUse.ends {e : AccountStep} {o : Occasion} {reaches : Bool} (h : LogsUse s t a e o reaches)
    (hleases : LeaseInvariant s.worker.run) (hapart : KeepsApart s a) (hpublishes : Publishes e) :
    ∃ row, t.worker.run.store.jobs.lookup e.claim.job.id = some row ∧
      row.leaseVersion = e.claim.leaseVersion ∧ row.state.active = false := by
  obtain ⟨-, id, htransition⟩ := hpublishes
  rw [h.result_eq] at htransition
  obtain ⟨hreaches, haccepted⟩ := (hapart _ _ _ _ h.label h.used.claim_eq).2 id htransition
  rcases h.used.run with ⟨-, hnone⟩ | ⟨call, hcall, -, hrun⟩
  · rw [hnone hreaches] at htransition
    cases htransition
  · obtain rfl : .succeed id = call := Option.some.inj (htransition.symm.trans hcall)
    have hstore : t.worker.run.store = (runCall s.worker.run.store e.claim (.succeed id) o.now).1 := by
      simp only [storeStep, h.used.claim_eq, Option.some.injEq] at hrun
      rw [← hrun]
    obtain ⟨row, row', rows', hcommitted⟩ := runCall_ok (Prod.ext hstore.symm haccepted)
    have hid : (JobStore.released o.now row').id = e.claim.job.id :=
      hcommitted.change.frame.1.trans (hleases.keys _ _ hcommitted.lookup)
    refine ⟨JobStore.released o.now row', ?_, ?_, ?_⟩
    · rw [hcommitted.jobs, hid, Table.lookup_insert, if_pos rfl]
    · exact hcommitted.change.frame.2.1.trans hcommitted.lease.version
    · cases hcommitted.change with
      | succeed hvalid => rfl

/-- **One step keeps the objects apart.** -/
theorem ApartInvariant.step (h : ApartInvariant s) (hleases : LeaseInvariant s.worker.run)
    (hapart : KeepsApart s a) (hstep : accountStep s a = some t) : ApartInvariant t := by
  obtain ⟨-, hworker, -⟩ := accountStep_eq_some hstep
  have hkept : ∀ e ∈ s.log, Publishes e →
      ∃ row, t.worker.run.store.jobs.lookup e.claim.job.id = some row ∧
        row.leaseVersion = e.claim.leaseVersion ∧ row.state.active = false := by
    intro e he hpublishes
    obtain ⟨row, hrow, hversion, hended⟩ := h.ended e he hpublishes
    refine ⟨row, ?_, hversion, hended⟩
    rcases (workerStep_move hworker).onRun with hsame | ⟨b, hmove, -⟩
    · rw [hsame]
      exact hrow
    · exact (hmove.keepsEnded hleases _ row hrow hended).1
  rcases accountStep_cases hstep with ⟨hlog, hcommitted⟩ | ⟨e, o, reaches, huse⟩
  · refine ⟨?_, ?_, ?_⟩
    · rw [hcommitted]
      exact h.apart
    · rw [hcommitted, hlog]
      exact h.created
    · rw [hlog]
      exact hkept
  · have hattached : ∀ {id : String} {created : CreatedObject} {owner : Bool},
        Attached t.worker.run.committed id created owner →
        Attached s.worker.run.committed id created owner ∨
          id = e.claim.job.id ∧ e.result.transition = some (.attachPrepared created owner) := by
      intro id created owner hid
      rcases huse.committed with hsame | ⟨call, hcall, hmore⟩
      · exact Or.inl (hsame ▸ hid)
      · rw [hmore] at hid
        rcases attached_append hid with hold | ⟨hjob, hnew⟩
        · exact Or.inl hold
        · exact Or.inr ⟨hjob.symm, by rw [hcall, ← hnew]⟩
    refine ⟨?_, ?_, ?_⟩
    · intro id id' created owner hid hid'
      rcases hattached hid with hold | ⟨rfl, hnew⟩
      · rcases hattached hid' with hold' | ⟨rfl, hnew'⟩
        · exact h.apart id id' created owner hold hold'
        · rcases huse.attaches hapart hnew' with ⟨-, -, -, honly⟩ | ⟨-, hnot⟩
          · exact (honly id true hold).symm
          · exact (hnot id hold).symm
      · rcases hattached hid' with hold' | ⟨rfl, -⟩
        · rcases huse.attaches hapart hnew with ⟨-, -, -, honly⟩ | ⟨howner, -⟩
          · exact honly id' owner hold'
          · cases howner
        · rfl
    · intro id created hid
      rw [huse.log_eq]
      rcases hattached hid with hold | ⟨rfl, hnew⟩
      · obtain ⟨e', he', hrest⟩ := h.created id created hold
        exact ⟨e', List.mem_append_left _ he', hrest⟩
      · rcases huse.attaches hapart hnew with ⟨-, hcreates, habsent, -⟩ | ⟨howner, -⟩
        · exact ⟨e, List.mem_append_right _ (List.mem_singleton_self _), rfl, hcreates, habsent⟩
        · cases howner
    · intro e' he' hpublishes
      rw [huse.log_eq] at he'
      rcases List.mem_append.1 he' with he' | he'
      · exact hkept e' he' hpublishes
      · obtain rfl := List.mem_singleton.1 he'
        exact huse.ends hleases hapart hpublishes

theorem reachable_apart (hs : accountSystem.ReachableBy KeepsApart s) : ApartInvariant s := by
  refine hs.invariant_under (J := fun s => WorkerInvariant s.worker)
    (fun s hs => workerInvariant_of_reachable (reachable_worker hs)) ?_ ?_
  · rintro _ ⟨clock, account, rfl⟩
    refine ⟨?_, ?_, fun e he => by cases he⟩
    · rintro id id' created owner ⟨e, he, -⟩
      cases he
    · rintro id created ⟨e, he, -⟩
      cases he
  · intro s a t hworker h hapart hstep
    exact h.step hworker.leases hapart hstep

/-- **Deletion safety**: as long as the objects of jobs are kept apart, whatever the worker deletes was
created by the job that deletes it, is published by nobody, and has no other job attached. -/
theorem deletions_safe (hs : accountSystem.ReachableBy KeepsApart s)
    (hstep : accountSystem.step s a = some t) : DeletesSafely s t := by
  have hworker := workerInvariant_of_reachable (reachable_worker hs)
  have hprovenanced := reachable_provenanced hs
  have hremembers := reachable_remembers hs
  have hinv := reachable_apart hs
  intro e hlog created hdelete
  rcases accountStep_cases hstep with ⟨hsame, -⟩ | ⟨e', o, reaches, huse⟩
  · rw [hsame] at hlog
    exact absurd hlog (by simp)
  · obtain rfl : e' = e := by
      have hends := huse.log_eq.symm.trans hlog
      simpa using hends
    have hclaim := List.mem_of_getElem? huse.used.claim_eq
    have heffect := processOne_effect o e'.claim
    rw [← huse.result_eq] at heffect
    -- the object is the job's own
    have hown : e'.claim.job.createdByJob = true ∧
        created = e'.claim.job.createdObject.getD ⟨⟨"", ""⟩⟩ := by
      generalize e'.result = result at heffect hdelete
      cases heffect with
      | quiet hnothing => cases hdelete
      | found hproviders hanswer => cases hdelete
      | prepared hproviders hpreparer hanswer => cases hdelete
      | creates hproviders hstate hkind hfind habsent hsame hmaterial hattach => simp at hdelete
      | deletes howner hnothing =>
        simp only [List.mem_singleton, ProviderCall.deleteCreatedTorrent.injEq] at hdelete
        exact ⟨howner, hdelete⟩
      | publishes hnothing => simp at hdelete
    obtain ⟨object, hobject, hattached⟩ := (hprovenanced.claims _ hclaim).owned hown.1
    obtain rfl : created = object := by rw [hown.2, hobject, Option.getD_some]
    refine ⟨?_, ?_, hinv.created _ _ hattached⟩
    · intro e he hpublishes hsame
      obtain ⟨hclaim', hused⟩ := hremembers e he
      obtain ⟨owner, hattached'⟩ := (hprovenanced.claims _ (List.mem_of_getElem? hclaim')).attached _ hsame
      have hjob := hinv.apart _ _ _ _ hattached hattached'
      obtain ⟨row, hrow, hversion, -⟩ := hinv.ended e he hpublishes
      -- the claim that deletes is later than the one that has published
      obtain ⟨hlt, heq⟩ := List.getElem?_eq_some_iff.1 hclaim'
      obtain ⟨hlt', heq'⟩ := List.getElem?_eq_some_iff.1 huse.used.claim_eq
      have hne : e.position ≠ e'.position := by
        intro hposition
        rw [hposition, huse.used.fresh] at hused
        cases hused
      have hbefore : e.position < e'.position := by
        have := huse.latest
        omega
      have hordered := List.pairwise_iff_getElem.1 hworker.leases.ordered _ _ hlt hlt' hbefore
      rw [heq, heq'] at hordered
      have hless := hordered hjob
      obtain ⟨row', hrow', hle⟩ := hworker.leases.lease_of_claim hclaim
      rw [hjob, hrow'] at hrow
      obtain rfl := Option.some.inj hrow
      omega
    · intro id row job hrow hid hread hactive hsame
      have hkey := hworker.leases.keys id row hrow
      obtain ⟨owner, hattached'⟩ := (hprovenanced.job hrow hkey hread).attached _ hsame
      have hjob := hinv.apart _ _ _ _ hattached hattached'
      exact hid (((queryJob_readFrom hread).id.trans hkey).symm.trans hjob)

end Deletion

/-! ## Small runs -/

section SmallRuns

attribute [local instance] TextTables.ascii LetterTables.ascii URLParser.refuseAll

/-- The object of the torrent in the account. -/
def packObject : CreatedObject := ⟨⟨"torbox-torrent", "1"⟩⟩

/-- One torrent with two movies. -/
def packReleases : List Release :=
  match newRelease ⟨"prowlarr", "1", "Movie 2020 2021", .torrent, 1, "Indexer",
    "c12fe1c06bba254a9dc9f519b335aa7c1367a88a", "", "", none⟩ with
  | .ok release => [release]
  | .error _ => []

/-- An account that has the torrent, or creates it; the torrent is not ready, or has no source. -/
def packProviders (present stalled : Bool) : Providers where
  complete := true
  search := fun _ => (packReleases, none)
  materialize := fun _ => .ok (.magnet "c12fe1c06bba254a9dc9f519b335aa7c1367a88a" "magnet:?")
  cachedTorrents := fun releases => (releases, none)
  findTorrentByHash := fun _ => if present then .ok packObject else .error { notFound := true }
  createTorrent := fun _ _ => .ok packObject
  reconcile := fun _ => .error {}
  inspectCreatedTorrent := fun _ => (.zero, some { stalled := stalled, notReady := true })
  deleteCreatedTorrent := fun _ => none
  directResolver := none
  rangePreparer := none
  publishAcquired := fun _ => none

/-- These answers at a time. -/
def packOccasion (present stalled : Bool) (second : ℤ) : Occasion :=
  ⟨smallOptions, .stable _, .ok (packProviders present stalled), false, atSecond second⟩

/-- A claim, while the account holds `account`. -/
def claimLabels (second : ℤ) (account : List TorrentRecord) : List AccountLabel :=
  [⟨.claimUpdate 0 smallOptions (atSecond second), account⟩, ⟨.claimRead 0, account⟩]

/-- A claim and its processing, which leaves `account`. -/
def packLabels (position : ℕ) (present : Bool) (second : ℤ) (account : List TorrentRecord) :
    List AccountLabel :=
  claimLabels second (if present then account else []) ++
    [⟨.process position (packOccasion present false second) true, account⟩]

/-- The torrent in the account. -/
def packAccount : List TorrentRecord := [⟨1, "c12fe1c06bba254a9dc9f519b335aa7c1367a88a"⟩]

/-- Nothing has been submitted, and the account is empty. -/
def packStart : AccountRun := ⟨⟨emptyRun 0, []⟩, [], []⟩

theorem packStart_init : accountSystem.init packStart := ⟨0, [], rfl⟩

/-- The first job plans, creates the torrent and is leased again. -/
def ownLabels : List AccountLabel :=
  [⟨.submit smallJob smallRequest (atSecond 1), []⟩] ++ packLabels 0 false 2 [] ++
    packLabels 1 false 3 packAccount ++ claimLabels 4 packAccount

/-- The steps are those of one job over an empty account, and none of them ends it. -/
def alone (s : AccountRun) (a : AccountLabel) : Bool :=
  match a.step with
  | .process position o _ =>
      s.account.isEmpty && s.worker.run.committed.all (fun e => e.job = smallJob) &&
        s.worker.run.claims[position]?.all fun claim =>
          claim.job.id = smallJob && match (processOne o claim).transition with
            | some (.succeed _) => false
            | _ => true
  | _ => true

theorem alone_keepsApart (s : AccountRun) (a : AccountLabel) (h : alone s a = true) : KeepsApart s a := by
  rintro position o reaches claim hlabel hclaim
  simp only [alone, hlabel, hclaim, Option.all_some, Bool.and_eq_true, decide_eq_true_eq,
    List.all_eq_true, List.isEmpty_iff] at h
  obtain ⟨⟨haccount, hcommitted⟩, hjob, hsucceed⟩ := h
  have honly : ∀ created, OnlyFor s claim.job.id created := by
    rintro created id owner ⟨e, he, rfl, -⟩
    rw [hcommitted e he, hjob]
  have hfree : ∀ created, created ∉ accountObjects s.account := by
    intro created
    rw [haccount]
    exact List.not_mem_nil
  refine ⟨fun providers _ => ?_, fun id hid => ?_⟩
  · exact {
      created := fun _ created _ => ⟨hfree created, honly created⟩
      reconciled := fun _ created _ => ⟨hfree created, honly created⟩
      found := fun _ created _ id h => honly created id true h
      prepared := fun _ _ created _ _ id h => honly created id true h }
  · rw [hid] at hsucceed
    cases hsucceed

/-- The job deletes the torrent that it has created. -/
theorem deletions_safe_small : ∃ s t,
    accountSystem.runChecked (fun s a => alone s a = true) packStart ownLabels = some s ∧
    accountSystem.step s ⟨.process 2 (packOccasion true true 4) true, []⟩ = some t ∧
    (t.log.getLast?.map fun e => e.result.calls) = some [.deleteCreatedTorrent packObject] ∧
    DeletesSafely s t := by
  have hvalues : ((accountSystem.runChecked (fun s a => alone s a = true) packStart ownLabels).bind
      fun s => (accountSystem.step s ⟨.process 2 (packOccasion true true 4) true, []⟩).bind fun t =>
        t.log.getLast?.map fun e => e.result.calls) = some [.deleteCreatedTorrent packObject] := by
    decide +kernel
  simp only [Option.bind_eq_some_iff] at hvalues
  obtain ⟨s, hs, t, ht, hcalls⟩ := hvalues
  have hreach : accountSystem.ReachableBy KeepsApart s :=
    System.ReachableBy.reaches (.init packStart_init)
      ((System.reachesBy_of_runChecked hs).mono alone_keepsApart)
  exact ⟨s, t, hs, ht, hcalls, deletions_safe hreach ht⟩

/-- The second job selects the same torrent, finds it and waits for it; the first one is leased again. -/
def sharedLabels : List AccountLabel :=
  [⟨.submit smallJob smallRequest (atSecond 1), []⟩,
    ⟨.submit otherJob ⟨.movie, "Movie", 2021, 0, 0⟩ (atSecond 1), []⟩] ++
    packLabels 0 false 2 [] ++ packLabels 1 false 3 packAccount ++ packLabels 2 true 4 packAccount ++
    packLabels 3 true 4 packAccount ++ packLabels 4 true 4 packAccount ++ packLabels 5 true 4 packAccount ++
    claimLabels 5 packAccount

/-- Two jobs share an object: the one that has created it deletes it while the other one is attached
to it. -/
theorem shared_object_deleted : ¬ ∀ s a t, accountSystem.Reachable s →
    accountSystem.step s a = some t → DeletesSafely s t := by
  intro hclaim
  have hvalues : ((accountSystem.run packStart sharedLabels).bind fun s =>
      (accountSystem.step s ⟨.process 6 (packOccasion true true 5) true, []⟩).bind fun t =>
        s.worker.run.claims[6]?.bind fun claim => (s.worker.run.store.jobs.lookup otherJob).bind fun row =>
          (queryJob row).toOption.map fun job => ((processOne (packOccasion true true 5) claim).calls,
            claim.job.id, job.state.active, job.createdObject)) =
      some ([.deleteCreatedTorrent packObject], smallJob, true, some packObject) := by
    decide +kernel
  simp only [Option.bind_eq_some_iff, Option.map_eq_some_iff, Prod.mk.injEq] at hvalues
  obtain ⟨s, hs, t, ht, claim, hclaims, row, hrow, job, hjob, hcalls, hid, hactive, hobject⟩ := hvalues
  have hlog : t.log = s.log ++ [⟨6, claim, packOccasion true true 5, s.account, []⟩] := by
    rw [(accountStep_eq_some ht).2.2.2, recorded]
    simp only [hclaims]
    rfl
  have hdeleted : .deleteCreatedTorrent packObject ∈ (processOne (packOccasion true true 5) claim).calls := by
    rw [hcalls]
    exact List.mem_singleton_self _
  have hsafe := hclaim s _ t (System.reachable_of_run packStart_init hs) ht _ hlog packObject hdeleted
  have hread : queryJob row = .ok job := by
    cases hresult : queryJob row with
    | ok job' =>
      rw [hresult] at hjob
      exact congrArg _ (Option.some.inj hjob)
    | error message =>
      rw [hresult] at hjob
      cases hjob
  exact hsafe.unattached otherJob row job hrow (by rw [hid]; decide) hread hactive hobject

end SmallRuns

end BlackPearl.Worker
