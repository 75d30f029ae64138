import BlackPearl.Worker.Account
import BlackPearl.Worker.Calls

/-!
# What the worker creates

A torrent is created only after a search of the account by its info hash has found nothing. The search
compares hashes as texts, and sees the first 1000 torrents of the account. Where one of the torrents with
the hash can be matched so, none is created next to it (`creates_once`); a job that has selected the
base32 spelling of a hash creates the torrent again (`base32_created_again`).
-/

set_option autoImplicit false

namespace BlackPearl.Worker

open BlackPearl.Library BlackPearl.Domain BlackPearl.Acquisition BlackPearl.JobStore BlackPearl.Torbox

section Creation

variable [TextTables] [LetterTables] [FoldTables] [URLParser]

/-! ## TorBox -/

/-- The torrents that the provider lists: the request of `FindTorrentByHash` has a limit of 1000. -/
def listedTorrents (account : List TorrentRecord) : List TorrentRecord := account.take 1000

/-- How the worker sees what `FindTorrentByHash` makes of a list. -/
inductive FindAnswer (listed : Checked (List TorrentRecord)) (infoHash : String) :
    Except ProviderError CreatedObject → Prop
  | found {created : CreatedObject} (h : findTorrentByHash listed infoHash = .ok created) :
      FindAnswer listed infoHash (.ok created)
  | notFound (h : findTorrentByHash listed infoHash = .error .notFound) :
      FindAnswer listed infoHash (.error { notFound := true })
  | ambiguous (h : findTorrentByHash listed infoHash = .error .ambiguous) :
      FindAnswer listed infoHash (.error { ambiguous := true })
  | failed {message : String} {err : ProviderError}
      (h : findTorrentByHash listed infoHash = .error (.failed message)) (hfound : err.notFound = false)
      (hone : err.ambiguous = false) : FindAnswer listed infoHash (.error err)

/-- The searches of an account by hash: its torrents are listed, or the request fails. -/
def Searches (account : List TorrentRecord) (search : String → Except ProviderError CreatedObject) :
    Prop :=
  ∀ infoHash, ∃ listed : Checked (List TorrentRecord),
    (listed = .ok (listedTorrents account) ∨ ∃ message, listed = .error message) ∧
      FindAnswer listed infoHash (search infoHash)

/-- What TorBox answers to a step with these calls, between two accounts, and the searchers that make
inputs of releases. -/
structure TorBoxAnswers (account after : List TorrentRecord) (providers : Providers)
    (calls : List ProviderCall) : Prop where
  found : Searches account providers.findTorrentByHash
  reconciled : Searches after providers.reconcile
  material : ∀ release input, providers.materialize release = .ok input →
    (∃ magnet, newMagnetTorrentInput release.infoHash magnet = .ok input) ∨
      ∃ sha1 payload, newTorrentFileInput sha1 release.infoHash payload = .ok input
  -- a completed creation is listed from then on
  created : ∀ input created, .createTorrent input true ∈ calls →
    providers.createTorrent input true = .ok created → ∃ torrent ∈ after,
      createTorrent (fun _ => .ok ⟨torrent.hash, torrent.id⟩) input = .ok created

/-- The providers of a step are those of the account. -/
def OverTorBox (s : AccountRun) (a : AccountLabel) : Prop :=
  ∀ position o reaches claim, a.step = .process position o reaches →
    s.worker.run.claims[position]? = some claim → ∀ providers, o.providers = .ok providers →
      TorBoxAnswers s.account a.account providers (processOne o claim).calls

/-! ## One creation for a hash -/

/-- The info hash of a torrent of the account. -/
def torrentHash (torrent : TorrentRecord) : Option (List ℕ) :=
  spelledHash (trimSpace torrent.hash).toList

/-- The info hash of a torrent that is to be created. -/
def inputHash (input : TorrentInput) : Option (List ℕ) := spelledHash input.infoHash.toList

/-- The step has called `CreateTorrent`. -/
def Issues (e : AccountStep) (input : TorrentInput) : Prop := .createTorrent input true ∈ e.result.calls

/-- The step has created a torrent with the hash. -/
def Completes (e : AccountStep) (hash : List ℕ) : Prop :=
  (∃ input, Issues e input ∧ inputHash input = some hash) ∧
    ∃ torrent ∈ e.after, torrentHash torrent = some hash

/-- The torrents that a step has created are still in the account at the later steps. -/
def Retained (s : AccountRun) : Prop :=
  s.log.Pairwise fun e e' => ∀ hash, Completes e hash → ∀ torrent ∈ e.after,
    torrentHash torrent = some hash → torrent ∈ e'.account

/-- The step has searched the account by the hash of the input, and was told that there is no such
torrent. -/
def ProvedAbsent (e : AccountStep) (input : TorrentInput) : Prop :=
  ∃ providers err, e.occasion.providers = .ok providers ∧
    providers.findTorrentByHash e.claim.job.selectionOrZero.infoHash = .error err ∧
    err.notFound = true ∧ expectedInfoHash e.claim.job.selectionOrZero.infoHash = .ok input.infoHash

/-- The creations of a run: for a torrent that the account does not hold, so at most one for each hash
while the created torrents stay there, and each after a search that proved the hash absent. -/
structure CreatesOnce (s : AccountRun) : Prop where
  absent : ∀ e ∈ s.log, ∀ input hash, Issues e input → inputHash input = some hash →
    ∀ torrent ∈ e.account, torrentHash torrent ≠ some hash
  once : Retained s → s.log.Pairwise fun e e' => ∀ hash, Completes e hash → ¬ Completes e' hash
  searched : ∀ e ∈ s.log, ∀ input, Issues e input → ProvedAbsent e input

/-- If torrents of the account have the hash, then one of them is listed, has an id, and spells it in
the same encoding. -/
def Matchable (account : List TorrentRecord) (infoHash : String) : Prop :=
  ∀ hash, spelledHash infoHash.toList = some hash →
    (∃ torrent ∈ account, torrentHash torrent = some hash) →
      ∃ torrent ∈ listedTorrents account, 0 < torrent.id ∧ torrentHash torrent = some hash ∧
        (trimSpace torrent.hash).toList.length = infoHash.toList.length

/-- The hash of a job that is about to be prepared can be matched in the account. -/
def MatchesAccount (s : AccountRun) (a : AccountLabel) : Prop :=
  ∀ position o reaches claim, a.step = .process position o reaches →
    s.worker.run.claims[position]? = some claim → claim.job.state = .selected →
      claim.job.selectionOrZero.kind = .torrent → ∀ infoHash,
        expectedInfoHash claim.job.selectionOrZero.infoHash = .ok infoHash →
          Matchable s.account infoHash

/-! ## A search that finds nothing -/

variable {s t : AccountRun} {a : AccountLabel}

omit [LetterTables] in
theorem newMagnetTorrentInput_infoHash {hash magnet : String} {input : TorrentInput}
    (h : newMagnetTorrentInput hash magnet = .ok input) : expectedInfoHash hash = .ok input.infoHash := by
  simp only [newMagnetTorrentInput, bind_eq_ok] at h
  obtain ⟨expected, hexpected, _, -, hinput⟩ := h
  rw [hexpected]
  split at hinput
  · cases hinput
  · simp only [bind_eq_ok, pure_eq_ok] at hinput
    obtain ⟨_, -, rfl⟩ := hinput
    rfl

omit [LetterTables] [URLParser] in
theorem newTorrentFileInput_infoHash {sha1 : Bytes → Bytes} {hash : String} {payload : Bytes}
    {input : TorrentInput} (h : newTorrentFileInput sha1 hash payload = .ok input) :
    expectedInfoHash hash = .ok input.infoHash := by
  unfold newTorrentFileInput at h
  split at h
  · cases h
  · next expected hexpected =>
    rw [hexpected]
    split at h
    · cases h
    · split at h
      · cases h
      · simp only [bind_eq_ok] at h
        obtain ⟨actual, -, h⟩ := h
        split at h
        · rw [← Except.ok.inj h]
          rfl
        · cases h

omit [LetterTables] in
/-- Nothing that is listed matches the hash. -/
theorem findTorrentByHash_notFound {listed : Checked (List TorrentRecord)} {hash infoHash : String}
    (h : findTorrentByHash listed hash = .error .notFound)
    (hexpected : expectedInfoHash hash = .ok infoHash) :
    ∃ torrents, listed = .ok torrents ∧ ∀ torrent ∈ torrents, recordMatches infoHash torrent = false := by
  unfold findTorrentByHash at h
  split at h
  · cases h
  · next validated hvalidated =>
    obtain rfl : infoHash = validated.infoHash := by
      have hsame := (newMagnetTorrentInput_infoHash hvalidated).symm.trans hexpected
      exact (Except.ok.inj hsame).symm
    split at h
    · cases h
    · next torrents =>
      refine ⟨torrents, rfl, fun torrent htorrent => ?_⟩
      split at h
      · next hnone =>
        rw [List.filter_eq_nil_iff] at hnone
        simpa using hnone torrent htorrent
      · split at h
        · cases h
        · cases h
      · cases h

omit [LetterTables] in
/-- The hash of a release is that of the input made of it. -/
theorem TorBoxAnswers.material_infoHash {account after : List TorrentRecord} {providers : Providers}
    {calls : List ProviderCall} (h : TorBoxAnswers account after providers calls) {release : Release}
    {input : TorrentInput} (hmaterial : providers.materialize release = .ok input) :
    expectedInfoHash release.infoHash = .ok input.infoHash := by
  rcases h.material release input hmaterial with ⟨magnet, hmagnet⟩ | ⟨sha1, payload, hfile⟩
  · exact newMagnetTorrentInput_infoHash hmagnet
  · exact newTorrentFileInput_infoHash hfile

omit [LetterTables] in
/-- A search that has found nothing has seen the list, and nothing in it matches. -/
theorem TorBoxAnswers.nothing_matches {account after : List TorrentRecord} {providers : Providers}
    {calls : List ProviderCall} (h : TorBoxAnswers account after providers calls)
    {hash infoHash : String} {err : ProviderError}
    (hfind : providers.findTorrentByHash hash = .error err) (habsent : err.notFound = true)
    (hexpected : expectedInfoHash hash = .ok infoHash) :
    ∀ torrent ∈ listedTorrents account, recordMatches infoHash torrent = false := by
  obtain ⟨listed, hlisted, hanswer⟩ := h.found hash
  rw [hfind] at hanswer
  have hnotFound : findTorrentByHash listed hash = .error .notFound := by
    cases hanswer with
    | notFound h => exact h
    | ambiguous h => cases habsent
    | failed h hfound hone =>
      rw [hfound] at habsent
      cases habsent
  obtain ⟨torrents, htorrents, hnone⟩ := findTorrentByHash_notFound hnotFound hexpected
  rcases hlisted with hok | ⟨message, hfailed⟩
  · rw [htorrents, Except.ok.injEq] at hok
    exact hok ▸ hnone
  · rw [htorrents] at hfailed
    cases hfailed

omit [LetterTables] [URLParser] [TextTables] in
/-- A listed torrent with the hash, in the same encoding, matches. -/
theorem recordMatches_of_torrentHash {torrent : TorrentRecord} {infoHash : String} {hash : List ℕ}
    (hid : 0 < torrent.id) (htorrent : torrentHash torrent = some hash)
    (hhash : spelledHash infoHash.toList = some hash)
    (hlength : (trimSpace torrent.hash).toList.length = infoHash.toList.length) :
    recordMatches infoHash torrent = true := by
  rw [recordMatches, Bool.and_eq_true, decide_eq_true_eq, equalFold_iff htorrent hhash]
  exact ⟨hid, rfl, hlength⟩

/-- **One step creates a torrent only after it proved that the account does not hold it.** -/
theorem LogsUse.creates_absent {e : AccountStep} {o : Occasion} {reaches : Bool}
    (h : LogsUse s t a e o reaches) (hanswers : OverTorBox s a) (hmatches : MatchesAccount s a)
    {input : TorrentInput} (hissues : Issues e input) :
    ProvedAbsent e input ∧ ∀ hash, inputHash input = some hash →
      ∀ torrent ∈ e.account, torrentHash torrent ≠ some hash := by
  have heffect := processOne_effect o e.claim
  have hresult := h.result_eq
  unfold Issues at hissues
  rw [hresult] at hissues
  have hover := hanswers _ _ _ _ h.label h.used.claim_eq
  generalize processOne o e.claim = result at heffect hissues hover
  cases heffect with
  | quiet hnothing => cases hissues
  | found hproviders hanswer => cases hissues
  | prepared hproviders hpreparer hanswer => cases hissues
  | deletes howner hnothing => simp at hissues
  | publishes hnothing => simp at hissues
  | @creates providers release err input' transition hproviders hstate hkind hfind habsent hsame hmaterial
      hattach =>
    obtain rfl : input = input' := by simpa using hissues
    have hanswers' := hover providers hproviders
    have hexpected := hanswers'.material_infoHash hmaterial
    rw [hsame] at hexpected
    refine ⟨⟨providers, err, by rw [h.occasion_eq, hproviders], hfind, habsent, hexpected⟩, ?_⟩
    intro hash hhash torrent htorrent hsameHash
    rw [h.account_eq] at htorrent
    obtain ⟨found, hlisted, hid, hfound, hlength⟩ := hmatches _ _ _ _ h.label h.used.claim_eq hstate hkind
      _ hexpected hash hhash ⟨torrent, htorrent, hsameHash⟩
    have hnone := hanswers'.nothing_matches hfind habsent hexpected found hlisted
    rw [recordMatches_of_torrentHash hid hfound hhash hlength] at hnone
    cases hnone

/-! ## Runs -/

omit [FoldTables] in
/-- Two creations of torrents that stay in the account are not for one hash. -/
theorem completes_once (habsent : ∀ e ∈ s.log, ∀ input hash, Issues e input → inputHash input = some hash →
    ∀ torrent ∈ e.account, torrentHash torrent ≠ some hash) (hretained : Retained s) :
    s.log.Pairwise fun e e' => ∀ hash, Completes e hash → ¬ Completes e' hash := by
  refine hretained.imp_of_mem fun {e e'} _ he' hkept hash hcompletes hagain => ?_
  obtain ⟨torrent, htorrent, hhash⟩ := hcompletes.2
  obtain ⟨input, hissues, hinput⟩ := hagain.1
  exact habsent e' he' input hash hissues hinput torrent (hkept hash hcompletes torrent htorrent hhash) hhash

/-- **One creation for a hash**: in every run over TorBox in which the hashes of the jobs can be matched in
the account, whatever crashes and whoever else changes the account. -/
theorem creates_once
    (hs : accountSystem.ReachableBy (fun s a => OverTorBox s a ∧ MatchesAccount s a) s) : CreatesOnce s := by
  have hlog : ∀ e ∈ s.log, ∀ input, Issues e input → ProvedAbsent e input ∧ ∀ hash,
      inputHash input = some hash → ∀ torrent ∈ e.account, torrentHash torrent ≠ some hash := by
    apply hs.invariant (I := fun s => ∀ e ∈ s.log, ∀ input, Issues e input → ProvedAbsent e input ∧
      ∀ hash, inputHash input = some hash → ∀ torrent ∈ e.account, torrentHash torrent ≠ some hash)
    · rintro _ ⟨clock, account, rfl⟩ e he
      cases he
    · rintro s a t ih ⟨hanswers, hmatches⟩ hstep e he
      rcases accountStep_cases hstep with ⟨hsame, -⟩ | ⟨e', o, reaches, huse⟩
      · exact ih e (hsame ▸ he)
      · rw [huse.log_eq] at he
        rcases List.mem_append.1 he with hold | hnew
        · exact ih e hold
        · obtain rfl := List.mem_singleton.1 hnew
          exact fun input hissues => huse.creates_absent hanswers hmatches hissues
  have habsent : ∀ e ∈ s.log, ∀ input hash, Issues e input → inputHash input = some hash →
      ∀ torrent ∈ e.account, torrentHash torrent ≠ some hash :=
    fun e he input hash hissues => (hlog e he input hissues).2 hash
  exact ⟨habsent, completes_once habsent, fun e he input hissues => (hlog e he input hissues).1⟩

end Creation

/-! ## Small runs -/

section SmallRuns

attribute [local instance] TextTables.ascii LetterTables.ascii FoldTables.ascii magnetParser

/-- One release with the hash. -/
def hashReleases (hash : String) : List Release :=
  match newRelease ⟨"prowlarr", "1", "Movie 2020", .torrent, 1, "Indexer", hash, "", "", none⟩ with
  | .ok release => [release]
  | .error _ => []

/-- The worker's search of an account that is always listed. -/
def searchAccount (account : List TorrentRecord) (infoHash : String) : Except ProviderError CreatedObject :=
  match findTorrentByHash (.ok (listedTorrents account)) infoHash with
  | .ok created => .ok created
  | .error .notFound => .error { notFound := true }
  | .error .ambiguous => .error { ambiguous := true }
  | .error (.failed _) => .error {}

/-- TorBox between two accounts: a creation is answered with the first torrent of the latter. -/
def accountProviders (hash : String) (account after : List TorrentRecord) : Providers where
  complete := true
  search := fun _ => (hashReleases hash, none)
  materialize := fun release =>
    match newMagnetTorrentInput release.infoHash ("magnet:?xt=urn:btih:" ++ release.infoHash) with
    | .ok input => .ok input
    | .error _ => .error {}
  cachedTorrents := fun releases => (releases, none)
  findTorrentByHash := searchAccount account
  createTorrent := fun input _ =>
    match after with
    | [] => .error {}
    | torrent :: _ =>
        match createTorrent (fun _ => .ok ⟨torrent.hash, torrent.id⟩) input with
        | .ok created => .ok created
        | .error _ => .error {}
  reconcile := searchAccount after
  inspectCreatedTorrent := fun _ => (.zero, some { notReady := true })
  deleteCreatedTorrent := fun _ => none
  directResolver := none
  rangePreparer := none
  publishAcquired := fun _ => none

theorem searchAccount_searches (account : List TorrentRecord) : Searches account (searchAccount account) := by
  intro infoHash
  refine ⟨.ok (listedTorrents account), Or.inl rfl, ?_⟩
  unfold searchAccount
  split
  · next h => exact .found h
  · next h => exact .notFound h
  · next h => exact .ambiguous h
  · next h => exact .failed h rfl rfl

theorem accountProviders_answers (hash : String) (account after : List TorrentRecord)
    (calls : List ProviderCall) :
    TorBoxAnswers account after (accountProviders hash account after) calls where
  found := searchAccount_searches account
  reconciled := searchAccount_searches after
  material := by
    intro release input h
    simp only [accountProviders] at h
    split at h
    · next input' hinput =>
      cases h
      exact Or.inl ⟨_, hinput⟩
    · cases h
  created := by
    intro input created _ h
    simp only [accountProviders] at h
    split at h
    · cases h
    · next torrent _ =>
      split at h
      · next hcreated =>
        cases h
        exact ⟨torrent, List.mem_cons_self, hcreated⟩
      · cases h

/-- A processing with these answers. -/
def accountLabel (hash : String) (account after : List TorrentRecord) (position : ℕ) (second : ℤ) :
    AccountLabel :=
  ⟨.process position ⟨smallOptions, .stable _, .ok (accountProviders hash account after), false,
    atSecond second⟩ true, after⟩

theorem accountLabel_overTorBox {hash : String} {account after : List TorrentRecord} {position : ℕ}
    {second : ℤ} {s : AccountRun} (haccount : s.account = account) :
    OverTorBox s (accountLabel hash account after position second) := by
  intro position' o reaches claim hlabel _ providers hproviders
  cases hlabel
  cases hproviders
  rw [haccount]
  exact accountProviders_answers hash account after _

/-- A job that selects the hash is submitted, planned and leased again, while the account stays as it
is. -/
def hashLabels (hash : String) (account : List TorrentRecord) : List AccountLabel :=
  [⟨.submit smallJob smallRequest (atSecond 1), account⟩,
    ⟨.claimUpdate 0 smallOptions (atSecond 2), account⟩, ⟨.claimRead 0, account⟩,
    accountLabel hash account account 0 2,
    ⟨.claimUpdate 0 smallOptions (atSecond 3), account⟩, ⟨.claimRead 0, account⟩]

/-- An account that holds one torrent, or none. -/
def accountStart (account : List TorrentRecord) : AccountRun := ⟨⟨emptyRun 0, []⟩, account, []⟩

theorem hashLabels_reach {P : AccountRun → AccountLabel → Prop} {hash : String}
    {account : List TorrentRecord} {s : AccountRun}
    (hP : ∀ s a, s.account = account → OverTorBox s a → P s a)
    (h : accountSystem.run (accountStart account) (hashLabels hash account) = some s) :
    accountSystem.ReachableBy P s ∧ s.account = account := by
  have hrun : ∀ (as : List AccountLabel) (s t : AccountRun), accountSystem.ReachableBy P s →
      s.account = account → (∀ a ∈ as, a.account = account ∧ ∀ s, s.account = account → OverTorBox s a) →
      accountSystem.run s as = some t → accountSystem.ReachableBy P t ∧ t.account = account := by
    intro as
    induction as with
    | nil =>
      intro s t hs haccount _ h
      rw [System.run_nil, Option.some.injEq] at h
      exact h ▸ ⟨hs, haccount⟩
    | cons a as ih =>
      intro s t hs haccount has h
      rw [System.run_cons, Option.bind_eq_some_iff] at h
      obtain ⟨u, hu, hrest⟩ := h
      obtain ⟨hkept, hover⟩ := has a List.mem_cons_self
      refine ih u t (.step hs (hP s a haccount (hover s haccount)) hu) ?_
        (fun b hb => has b (List.mem_cons_of_mem _ hb)) hrest
      rw [(accountStep_eq_some hu).2.2.1, hkept]
  refine hrun _ _ _ (.init ⟨0, account, rfl⟩) rfl ?_ h
  intro a ha
  simp only [hashLabels, List.mem_cons, List.not_mem_nil, or_false] at ha
  rcases ha with rfl | rfl | rfl | rfl | rfl | rfl
  · exact ⟨rfl, fun s _ position o reaches claim hlabel => by cases hlabel⟩
  · exact ⟨rfl, fun s _ position o reaches claim hlabel => by cases hlabel⟩
  · exact ⟨rfl, fun s _ position o reaches claim hlabel => by cases hlabel⟩
  · exact ⟨rfl, fun s haccount => accountLabel_overTorBox haccount⟩
  · exact ⟨rfl, fun s _ position o reaches claim hlabel => by cases hlabel⟩
  · exact ⟨rfl, fun s _ position o reaches claim hlabel => by cases hlabel⟩

/-- The torrent with an empty `info`. -/
def emptyInfoAccount : List TorrentRecord := [⟨1, "600ccd1b71569232d01d110bc63e906beab04d8c"⟩]

/-- What the last step of a run called, and what the account held before it. -/
def lastCreation (s : AccountRun) : Option (List ProviderCall × List TorrentRecord) :=
  s.log.getLast?.map fun e => (e.result.calls, e.account)

/-- An empty account: the torrent is created. -/
theorem creates_once_small : ∃ s t,
    accountSystem.run (accountStart []) (hashLabels "600CCD1B71569232D01D110BC63E906BEAB04D8C" []) = some s ∧
    accountSystem.step s (accountLabel "600CCD1B71569232D01D110BC63E906BEAB04D8C" [] emptyInfoAccount 1 3) =
      some t ∧
    lastCreation t = some ([.createTorrent (.magnet "600ccd1b71569232d01d110bc63e906beab04d8c"
      "magnet:?xt=urn:btih:600ccd1b71569232d01d110bc63e906beab04d8c") true], []) ∧ CreatesOnce t := by
  have hvalues : ((accountSystem.run (accountStart [])
      (hashLabels "600CCD1B71569232D01D110BC63E906BEAB04D8C" [])).bind fun s =>
        (accountSystem.step s
          (accountLabel "600CCD1B71569232D01D110BC63E906BEAB04D8C" [] emptyInfoAccount 1 3)).bind
            lastCreation) =
      some ([.createTorrent (.magnet "600ccd1b71569232d01d110bc63e906beab04d8c"
        "magnet:?xt=urn:btih:600ccd1b71569232d01d110bc63e906beab04d8c") true], []) := by
    decide +kernel
  simp only [Option.bind_eq_some_iff] at hvalues
  obtain ⟨s, hs, t, ht, hlast⟩ := hvalues
  have hempty : ∀ s a, s.account = [] → OverTorBox s a → OverTorBox s a ∧ MatchesAccount s a := by
    intro s a haccount hover
    refine ⟨hover, fun position o reaches claim _ _ _ _ infoHash _ hash _ hheld => ?_⟩
    obtain ⟨torrent, htorrent, -⟩ := hheld
    rw [haccount] at htorrent
    cases htorrent
  obtain ⟨hreach, haccount⟩ := hashLabels_reach hempty hs
  exact ⟨s, t, hs, ht, hlast,
    creates_once (.step hreach (hempty _ _ haccount (accountLabel_overTorBox haccount)) ht)⟩

/-- The torrent is in the account, and is created again for a job that has selected its hash in
base32. -/
theorem base32_created_again :
    ¬ ∀ s, accountSystem.ReachableBy OverTorBox s → CreatesOnce s := by
  intro hclaim
  have hvalues : ((accountSystem.run (accountStart emptyInfoAccount)
      (hashLabels "MAGM2G3RK2JDFUA5CEF4MPUQNPVLATMM" emptyInfoAccount)).bind fun s =>
        (accountSystem.step s (accountLabel "MAGM2G3RK2JDFUA5CEF4MPUQNPVLATMM" emptyInfoAccount
          emptyInfoAccount 1 3)).bind lastCreation) =
      some ([.createTorrent (.magnet "MAGM2G3RK2JDFUA5CEF4MPUQNPVLATMM"
        "magnet:?xt=urn:btih:MAGM2G3RK2JDFUA5CEF4MPUQNPVLATMM") true], emptyInfoAccount) := by
    decide +kernel
  simp only [Option.bind_eq_some_iff, lastCreation, Option.map_eq_some_iff, Prod.mk.injEq] at hvalues
  obtain ⟨s, hs, t, ht, e, hlast, hcalls, haccount'⟩ := hvalues
  obtain ⟨hreach, haccount⟩ := hashLabels_reach (fun _ _ _ hover => hover) hs
  have honce := hclaim t (.step hreach (accountLabel_overTorBox haccount) ht)
  have hissues : Issues e (.magnet "MAGM2G3RK2JDFUA5CEF4MPUQNPVLATMM"
      "magnet:?xt=urn:btih:MAGM2G3RK2JDFUA5CEF4MPUQNPVLATMM") := by
    rw [Issues, hcalls]
    exact List.mem_singleton_self _
  refine honce.absent e (List.mem_of_getLast? hlast) _ emptyInfoHash hissues (by decide +kernel)
    ⟨1, "600ccd1b71569232d01d110bc63e906beab04d8c"⟩ ?_ (by decide +kernel)
  rw [haccount']
  exact List.mem_singleton_self _

end SmallRuns

end BlackPearl.Worker
