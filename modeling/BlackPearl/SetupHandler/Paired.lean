import BlackPearl.SetupHandler.Gate
import BlackPearl.SetupService.Transactions

/-!
# Only paired browsers

Let `T` be any set of tokens with the one that was saved at first and with those that paired browsers
supply. In every run the saved token stays in `T`, even between the phases of a commit, and so nobody who
has neither the launcher's value nor a token of `T` nor a session of one gets an operation begun or a
session issued (`only_paired_served`).
-/

set_option autoImplicit false

namespace BlackPearl.SetupHandler

open BlackPearl.Library BlackPearl.Setup BlackPearl.SetupService BlackPearl.Acquisition

section Paired

variable [TextTables] (p : Pairing) (T : ByteText → Prop)

/-- A token that is to be the saved one, or one of `T`. -/
def Known (token : ByteText) : Prop := token = [] ∨ T token

/-- A request that shows the launcher's value, the session of a token in `T`, or such a token. -/
def Paired (r : Request) : Prop :=
  p.validBootstrap r.bootstrap = true ∨
    ∃ t, T t ∧ (r.session = p.sessionForToken t ∨ r.token ≠ [] ∧ r.token = t)

/-- What paired browsers supply is in `T`. -/
def Supplied (_ : Gate) : GateCall → Prop
  | .receive _ request _ => Paired p T request → Known T request.token
  | _ => True

variable [FoldTables] [OriginParser] (h : Handler)

/-- What holds of a request before its next step. -/
def StageSafe (r : Request) : Stage → Prop
  | .authorizing operation => serveHTTP h r = .asks operation
  | .acting operation => serveHTTP h r = .asks operation ∧ Paired p T r
  | .committing => Paired p T r
  | .discovered token => Paired p T r ∧ Known T token
  | .issuing token _ => Paired p T r ∧ Known T token
  | .answered response => ∀ session, response.session = some session →
      Paired p T r ∧ ∃ t, T t ∧ session = p.sessionForToken t

/-- A request that is under way. -/
structure ExchangeSafe (x : Exchange) : Prop where
  supplied : Paired p T x.request → Known T x.request.token
  stage : StageSafe p T h x.request x.stage

/-- The invariant of the setup page. -/
structure GateSafe (g : Gate) : Prop where
  saved : ∀ x, g.service.saved = some x → T x.token
  commit : ∀ c, g.commit = some c → T c.prepared.token ∧
    (∀ q, c.prepared.previous = some q → T q.token) ∧
      ∀ id, c.owner = some id → ∃ x, g.exchanges.lookup id = some x ∧ Paired p T x.request
  exchanges : ∀ id x, g.exchanges.lookup id = some x → ExchangeSafe p T h x
  calls : ∀ id operation, (id, operation) ∈ g.calls → ∃ x, g.exchanges.lookup id = some x ∧
    serveHTTP h x.request = .asks operation ∧ Paired p T x.request

variable {p T h} {g g' : Gate}

/-! ## Tokens -/

omit [FoldTables] [OriginParser] in
/-- What `resolveToken` gives is what was supplied, or what is saved. -/
theorem resolveToken_eq_ok {load : Call} {supplied token : ByteText} {s t : Service}
    (h : resolveToken load supplied s = (.ok token, t)) :
    (supplied ≠ [] ∧ token = supplied) ∨ ∃ x, s.saved = some x ∧ token = x.token := by
  unfold resolveToken at h
  split at h
  · next hne =>
    split at h
    · cases h
    · have htoken : supplied = token := Except.ok.inj (congrArg Prod.fst h)
      exact Or.inl ⟨hne, htoken.symm⟩
  · split at h
    · cases h
    · cases h
    · next x hload =>
      have htoken : x.token = token := Except.ok.inj (congrArg Prod.fst h)
      exact Or.inr ⟨x, saved_of_loadManifest hload, htoken.symm⟩

omit [FoldTables] [OriginParser] in
/-- A token that resolves to something resolves to one of `T`. -/
theorem known_resolveToken {load : Call} {supplied token : ByteText} {s t : Service}
    (hsaved : ∀ x, s.saved = some x → T x.token) (hsupplied : Known T supplied)
    (h : resolveToken load supplied s = (.ok token, t)) : T token := by
  rcases resolveToken_eq_ok h with ⟨hne, rfl⟩ | ⟨x, hx, rfl⟩
  · exact hsupplied.resolve_left hne
  · exact hsaved x hx

omit [FoldTables] [OriginParser] in
theorem resolveToken_saved (load : Call) (supplied : ByteText) (s : Service) :
    (resolveToken load supplied s).2.saved = s.saved :=
  (resolveToken_unchanged load supplied s).saved

omit [FoldTables] [OriginParser] in
/-- Whoever is authorized is paired. -/
theorem paired_of_authorizeSetup {load : Call} {r : Request} {token : ByteText} {s t : Service}
    (hsaved : ∀ x, s.saved = some x → T x.token) (htoken : token = r.token ∨ token = [])
    (h : authorizeSetup p load token r.session r.bootstrap s = (.ok (), t)) : Paired p T r := by
  unfold authorizeSetup at h
  split at h
  · split at h
    · cases h
    · next hboot =>
      rw [not_or, Bool.not_eq_false] at hboot
      exact Or.inl hboot.2
  · cases h
  · next x hload =>
    have hx := hsaved x (saved_of_loadManifest hload)
    dsimp only at h
    split at h
    · next hboot => exact Or.inl hboot
    split at h
    · next hsession => exact Or.inr ⟨x.token, hx, Or.inl hsession⟩
    split at h
    · next hsupplied =>
      rcases htoken with rfl | rfl
      · exact Or.inr ⟨x.token, hx, Or.inr hsupplied⟩
      · exact absurd rfl hsupplied.1
    · cases h

omit [FoldTables] [OriginParser] in
theorem authorizeSetup_saved (load : Call) (token session bootstrap : ByteText) (s : Service) :
    (authorizeSetup p load token session bootstrap s).2.saved = s.saved := by
  unfold authorizeSetup
  split
  · split <;> rfl
  · rfl
  · dsimp only
    split
    · rfl
    split
    · rfl
    split <;> rfl

omit [FoldTables] [OriginParser] in
/-- What a commit is prepared to save, and what it would go back to, are in `T`. -/
theorem known_prepareCommit {calls : CommitCalls} {token : ByteText} {manifest : SetupManifest}
    {s : Service} {c : SetupService.Prepared} (hsaved : ∀ x, s.saved = some x → T x.token) (htoken : T token)
    (h : prepareCommit calls token manifest s = .ok c) :
    T c.token ∧ ∀ q, c.previous = some q → T q.token := by
  obtain ⟨heq, hprevious⟩ := prepareCommit_eq_ok h
  exact ⟨heq ▸ htoken, fun q hq => hsaved q (hprevious q hq)⟩

omit [FoldTables] [OriginParser] in
theorem known_prepareApply {calls : ApplyCalls} {request : ApplyRequest} {s t : Service} {c : SetupService.Prepared}
    (hsaved : ∀ x, s.saved = some x → T x.token) (hsupplied : Known T request.token)
    (h : prepareApply calls request s = (.ok c, t)) :
    t.saved = s.saved ∧ T c.token ∧ ∀ q, c.previous = some q → T q.token := by
  unfold prepareApply at h
  split at h
  · cases h
  · next token u hresolved =>
    have htoken := known_resolveToken hsaved hsupplied hresolved
    have hu : u.saved = s.saved := by
      have := resolveToken_saved calls.loadToken request.token s
      rwa [hresolved] at this
    obtain ⟨hprepared, rfl⟩ := Prod.mk.inj h
    refine ⟨hu, ?_⟩
    unfold prepareWithToken at hprepared
    split at hprepared
    · cases hprepared
    split at hprepared
    · cases hprepared
    split at hprepared
    · cases hprepared
    split at hprepared
    · cases hprepared
    exact known_prepareCommit (hu ▸ hsaved) htoken hprepared

omit [FoldTables] [OriginParser] in
theorem known_preparePublish {calls : PublishCalls} {media : Setup.AcquiredMedia} {s : Service} {c : SetupService.Prepared}
    (hsaved : ∀ x, s.saved = some x → T x.token) (h : preparePublish calls media s = .ok c) :
    T c.token ∧ ∀ q, c.previous = some q → T q.token := by
  unfold preparePublish at h
  split at h
  · cases h
  · cases h
  · next current hload =>
    split at h
    · cases h
    split at h
    · cases h
    split at h
    · cases h
    exact known_prepareCommit hsaved (hsaved current (saved_of_loadManifest hload)) h

omit [FoldTables] [OriginParser] in
theorem prepareApply_saved (calls : ApplyCalls) (request : ApplyRequest) (s : Service) :
    (prepareApply calls request s).2.saved = s.saved := by
  have hresolved := resolveToken_saved calls.loadToken request.token s
  unfold prepareApply
  split
  · next h => rwa [h] at hresolved
  · next h => rwa [h] at hresolved

omit [FoldTables] [OriginParser] in
theorem discover_saved (calls : ApplyCalls) (token : ByteText) (s : Service) :
    (discover calls token s).2.saved = s.saved := by
  have hresolved := resolveToken_saved calls.loadToken token s
  unfold discover
  split
  · next h => rwa [h] at hresolved
  · next h => rwa [h] at hresolved

omit [FoldTables] [OriginParser] in
theorem issueSession_saved (load : Call) (token : ByteText) (s : Service) :
    (issueSession p load token s).2.saved = s.saved := by
  have hresolved := resolveToken_saved load token s
  unfold issueSession
  split
  · next h => rwa [h] at hresolved
  · next h => rwa [h] at hresolved

omit [FoldTables] [OriginParser] in
theorem session_of_issueSession {load : Call} {token session : ByteText} {s t : Service}
    (hsaved : ∀ x, s.saved = some x → T x.token) (hknown : Known T token)
    (h : issueSession p load token s = (.ok session, t)) : ∃ t, T t ∧ session = p.sessionForToken t := by
  unfold issueSession at h
  split at h
  · cases h
  · next resolved u hresolved =>
    have hsession : p.sessionForToken resolved = session := Except.ok.inj (congrArg Prod.fst h)
    exact ⟨resolved, known_resolveToken hsaved hknown hresolved, hsession.symm⟩

omit [FoldTables] [OriginParser] in
theorem restore_saved (calls : RestoreCalls) (s : Service) : (restore calls s).2.saved = s.saved := by
  rcases restore_cases calls s with hsame | ⟨_, _, -, -, -, hsaved, -⟩
  · exact hsame.saved
  · exact hsaved

/-! ## Steps -/

/-- The step lemma of the requests: one of them goes on. -/
theorem GateSafe.change (hg : GateSafe p T h g) {id : ℕ} {x : Exchange} {stage : Stage}
    (hx : g.exchanges.lookup id = some x)
    (hexchanges : g'.exchanges = g.exchanges.insert id { x with stage := stage })
    (hsaved : ∀ y, g'.service.saved = some y → T y.token)
    (hcommit : ∀ c, g'.commit = some c → g.commit = some c ∨ T c.prepared.token ∧
      (∀ q, c.prepared.previous = some q → T q.token) ∧
        ∀ id', c.owner = some id' → id' = id ∧ Paired p T x.request)
    (hcalls : ∀ id' operation, (id', operation) ∈ g'.calls → (id', operation) ∈ g.calls ∨
      id' = id ∧ serveHTTP h x.request = .asks operation ∧ Paired p T x.request)
    (hsafe : StageSafe p T h x.request stage) : GateSafe p T h g' := by
  -- a request keeps what it asks for
  have hkept : ∀ id' x', g.exchanges.lookup id' = some x' →
      ∃ x'', g'.exchanges.lookup id' = some x'' ∧ x''.request = x'.request := by
    intro id' x' hx'
    rw [hexchanges, Table.lookup_insert]
    split
    · next heq =>
      subst heq
      obtain rfl := Option.some.inj (hx.symm.trans hx')
      exact ⟨_, rfl, rfl⟩
    · exact ⟨x', hx', rfl⟩
  constructor
  · exact hsaved
  · intro c hc
    rcases hcommit c hc with hbefore | ⟨htoken, hprevious, howner⟩
    · obtain ⟨htoken, hprevious, howner⟩ := hg.commit c hbefore
      refine ⟨htoken, hprevious, fun id' hid' => ?_⟩
      obtain ⟨x', hx', hpaired⟩ := howner id' hid'
      obtain ⟨x'', hx'', hrequest⟩ := hkept id' x' hx'
      exact ⟨x'', hx'', by rwa [hrequest]⟩
    · refine ⟨htoken, hprevious, fun id' hid' => ?_⟩
      obtain ⟨rfl, hpaired⟩ := howner id' hid'
      obtain ⟨x'', hx'', hrequest⟩ := hkept id' x hx
      exact ⟨x'', hx'', by rwa [hrequest]⟩
  · intro id' x' hx'
    rw [hexchanges, Table.lookup_insert] at hx'
    split at hx'
    · obtain rfl := Option.some.inj hx'
      exact ⟨(hg.exchanges id x hx).supplied, hsafe⟩
    · exact hg.exchanges id' x' hx'
  · intro id' operation hmem
    rcases hcalls id' operation hmem with hbefore | ⟨rfl, hasks, hpaired⟩
    · obtain ⟨x', hx', hasks, hpaired⟩ := hg.calls id' operation hbefore
      obtain ⟨x'', hx'', hrequest⟩ := hkept id' x' hx'
      exact ⟨x'', hx'', by rwa [hrequest], by rwa [hrequest]⟩
    · obtain ⟨x'', hx'', hrequest⟩ := hkept id' x hx
      exact ⟨x'', hx'', by rwa [hrequest], by rwa [hrequest]⟩

/-- The service changes but for what is saved, or what is saved is in `T` all the same. -/
theorem GateSafe.changeService (hg : GateSafe p T h g) (hexchanges : g'.exchanges = g.exchanges)
    (hcalls : g'.calls = g.calls) (hsaved : ∀ y, g'.service.saved = some y → T y.token)
    (hcommit : ∀ c, g'.commit = some c → T c.prepared.token ∧
      (∀ q, c.prepared.previous = some q → T q.token) ∧
        ∀ id, c.owner = some id → ∃ x, g.exchanges.lookup id = some x ∧ Paired p T x.request) :
    GateSafe p T h g' where
  saved := hsaved
  commit := hexchanges ▸ hcommit
  exchanges := hexchanges ▸ hg.exchanges
  calls := by
    rw [hexchanges, hcalls]
    exact hg.calls

/-- An answer without a session. -/
theorem stageSafe_answered {r : Request} {response : Response} (hnone : response.session = none) :
    StageSafe p T h r (.answered response) := by
  intro session hsome
  rw [hnone] at hsome
  cases hsome

omit [TextTables] [FoldTables] [OriginParser] in
theorem acquisitionError_session (e : CallError) : (acquisitionError e).session = none := by
  cases e <;> rfl

omit [TextTables] [FoldTables] [OriginParser] in
theorem jobError_session (e : CallError) : (jobError e).session = none := by
  cases e <;> rfl

omit [TextTables] [FoldTables] [OriginParser] in
theorem watchlistError_session (e : CallError) : (watchlistError e).session = none := by
  cases e <;> rfl

omit [TextTables] [FoldTables] [OriginParser] in
theorem authorizeError_session (e : AuthorizeError) : (authorizeError e).session = none := by
  cases e <;> rfl

omit [TextTables] [FoldTables] [OriginParser] in
theorem serviceError_session (e : ServiceError) : (serviceError e).session = none := by
  unfold serviceError
  split
  · rfl
  · split <;> rfl

/-- What follows an operation of a paired browser. -/
theorem stageSafe_afterCall {r : Request} {operation : Protected} (answer : CallAnswer)
    (manifest : Option SetupManifest) (hpaired : Paired p T r) (hnot : ∀ token, operation ≠ .discover token) :
    StageSafe p T h r (afterCall answer manifest operation) := by
  have hissuing : ∀ status, StageSafe p T h r (.issuing [] status) := fun _ => ⟨hpaired, Or.inl rfl⟩
  cases operation with
  | discover token => exact absurd rfl (hnot token)
  | apply request => exact hpaired
  | watchlistStatus =>
    simp only [afterCall]
    cases answer.error with
    | some e => exact stageSafe_answered (watchlistError_session e)
    | none => exact stageSafe_answered rfl
  | setPolicy policy =>
    simp only [afterCall]
    cases answer.error with
    | some e => exact stageSafe_answered rfl
    | none =>
      cases answer.statusError with
      | some e => exact stageSafe_answered rfl
      | none => exact hissuing 200
  | configure baseURL apiKey =>
    simp only [afterCall]
    cases answer.error with
    | some e => exact stageSafe_answered (acquisitionError_session e)
    | none => exact hissuing 200
  | acquire search =>
    simp only [afterCall]
    cases answer.error with
    | some e => exact stageSafe_answered (acquisitionError_session e)
    | none =>
      dsimp only
      split
      · exact hissuing 200
      · exact stageSafe_answered (acquisitionError_session .other)
  | submitJob search =>
    simp only [afterCall]
    cases answer.error with
    | some e => exact stageSafe_answered (jobError_session e)
    | none => exact hissuing 202
  | listJobs =>
    simp only [afterCall]
    cases answer.error with
    | some e => exact stageSafe_answered (jobError_session e)
    | none => exact stageSafe_answered rfl
  | getJob id =>
    simp only [afterCall]
    cases answer.error with
    | some e => exact stageSafe_answered (jobError_session e)
    | none => exact stageSafe_answered rfl

theorem stageSafe_authorized {r : Request} {operation : Protected}
    (hasks : serveHTTP h r = .asks operation) (hpaired : Paired p T r) :
    StageSafe p T h r (authorized operation) := by
  unfold authorized
  split
  · split
    · exact ⟨hasks, hpaired⟩
    · exact stageSafe_answered (jobError_session .notFound)
  · exact ⟨hasks, hpaired⟩

/-- A request arrives. -/
theorem GateSafe.receive (hg : GateSafe p T h g) {id : ℕ} {request : Request}
    {statusError : Option CallError} (hnew : g.exchanges.lookup id = none)
    (hsupplied : Paired p T request → Known T request.token) :
    GateSafe p T h { g with
      exchanges := g.exchanges.insert id ⟨request, Gate.received h request statusError⟩ } := by
  have hother : ∀ id' x', g.exchanges.lookup id' = some x' →
      (g.exchanges.insert id ⟨request, Gate.received h request statusError⟩).lookup id' = some x' := by
    intro id' x' hx'
    rw [Table.lookup_insert, if_neg]
    · exact hx'
    · rintro rfl
      rw [hnew] at hx'
      cases hx'
  refine ⟨hg.saved, fun c hc => ?_, fun id' x' hx' => ?_, fun id' operation hmem => ?_⟩
  · obtain ⟨htoken, hprevious, howner⟩ := hg.commit c hc
    refine ⟨htoken, hprevious, fun id' hid' => ?_⟩
    obtain ⟨x', hx', hpaired⟩ := howner id' hid'
    exact ⟨x', hother id' x' hx', hpaired⟩
  · rw [Table.lookup_insert] at hx'
    split at hx'
    · obtain rfl := Option.some.inj hx'
      refine ⟨hsupplied, ?_⟩
      show StageSafe p T h request (Gate.received h request statusError)
      unfold Gate.received
      split
      · next response hanswered => exact stageSafe_answered (session_of_answered hanswered)
      · exact stageSafe_answered rfl
      · split
        · exact stageSafe_answered (acquisitionError_session _)
        · exact stageSafe_answered rfl
      · next operation hasks => exact hasks
    · exact hg.exchanges id' x' hx'
  · obtain ⟨x', hx', hasks, hpaired⟩ := hg.calls id' operation hmem
    exact ⟨x', hother id' x' hx', hasks, hpaired⟩

/-- A request goes on, and neither the lock nor what is saved changes. -/
theorem GateSafe.changeStage (hg : GateSafe p T h g) {id : ℕ} {x : Exchange} {stage : Stage} {s : Service}
    (hx : g.exchanges.lookup id = some x) (hsaved : s.saved = g.service.saved)
    (hsafe : StageSafe p T h x.request stage) :
    GateSafe p T h { g.setStage id x stage with service := s } :=
  hg.change hx rfl (fun y hy => hg.saved y (hsaved ▸ hy)) (fun _ hc => Or.inl hc)
    (fun _ _ hmem => Or.inl hmem) hsafe

/-- The answer of `AuthorizeSetup`. -/
theorem GateSafe.authorize (hg : GateSafe p T h g) {id : ℕ} {x : Exchange} {operation : Protected}
    (hx : g.exchanges.lookup id = some x) (hstage : x.stage = .authorizing operation) {load : Call}
    {result : Except AuthorizeError Unit} {s : Service}
    (hresult : authorizeSetup p load operation.token x.request.session x.request.bootstrap g.service =
      (result, s)) :
    GateSafe p T h { g.setStage id x (match result with
      | .error e => .answered (authorizeError e)
      | .ok () => authorized operation) with service := s } := by
  have hsaved := authorizeSetup_saved (p := p) load operation.token x.request.session
    x.request.bootstrap g.service
  have hsafe := (hg.exchanges id x hx).stage
  rw [hresult] at hsaved
  rw [hstage] at hsafe
  apply hg.changeStage hx hsaved
  cases result with
  | error e => exact stageSafe_answered (authorizeError_session e)
  | ok u =>
    exact stageSafe_authorized hsafe
      (paired_of_authorizeSetup hg.saved (browser_of_asks hsafe).token hresult)

/-- An operation is begun, and others go on with their calls. -/
theorem GateSafe.begin (hg : GateSafe p T h g) {id : ℕ} {x : Exchange} {operation : Protected}
    (hx : g.exchanges.lookup id = some x) (hstage : x.stage = .acting operation) {stage : Stage} {s : Service}
    (hsaved : s.saved = g.service.saved)
    (hsafe : Paired p T x.request → StageSafe p T h x.request stage) :
    GateSafe p T h { g.setStage id x stage with service := s, calls := (id, operation) :: g.calls } := by
  have hacting := (hg.exchanges id x hx).stage
  rw [hstage] at hacting
  refine hg.change hx rfl (fun y hy => hg.saved y (hsaved ▸ hy)) (fun _ hc => Or.inl hc) ?_
    (hsafe hacting.2)
  intro id' operation' hmem
  rcases List.mem_cons.1 hmem with heq | hmem
  · obtain ⟨rfl, rfl⟩ := Prod.mk.inj heq
    exact Or.inr ⟨rfl, hacting⟩
  · exact Or.inl hmem

/-- A paired browser's operation that is no `Apply`. -/
theorem GateSafe.perform (hg : GateSafe p T h g) {id : ℕ} {x : Exchange} {operation : Protected}
    (hx : g.exchanges.lookup id = some x) (hstage : x.stage = .acting operation) {answer : CallAnswer}
    (hstep : g.perform id x operation answer = some g') : GateSafe p T h g' := by
  have hacting := (hg.exchanges id x hx).stage
  rw [hstage] at hacting
  have hsupplied := (hg.exchanges id x hx).supplied
  have hplain : (∀ token, operation ≠ .discover token) → GateSafe p T h
      { g.setStage id x (afterCall answer g.service.manifest operation) with
        service := g.service, calls := (id, operation) :: g.calls } := fun hnot =>
    hg.begin hx hstage rfl fun hpaired => stageSafe_afterCall answer _ hpaired hnot
  cases operation with
  | apply request => cases hstep
  | discover token =>
    simp only [Gate.perform] at hstep
    have hsaved := discover_saved answer.discovery token g.service
    have htoken : Known T (Protected.discover token).token := by
      rcases (browser_of_asks hacting.1).token with heq | heq
      · rw [heq]
        exact hsupplied hacting.2
      · exact Or.inl heq
    split at hstep
    · next e s hresult =>
      obtain rfl := Option.some.inj hstep
      rw [hresult] at hsaved
      exact hg.begin hx hstage hsaved fun _ => stageSafe_answered (serviceError_session e)
    · next items s hresult =>
      obtain rfl := Option.some.inj hstep
      rw [hresult] at hsaved
      exact hg.begin hx hstage hsaved fun hpaired => ⟨hpaired, htoken⟩
  | watchlistStatus => exact Option.some.inj hstep ▸ hplain fun _ => by simp
  | setPolicy policy => exact Option.some.inj hstep ▸ hplain fun _ => by simp
  | configure baseURL apiKey => exact Option.some.inj hstep ▸ hplain fun _ => by simp
  | acquire search => exact Option.some.inj hstep ▸ hplain fun _ => by simp
  | submitJob search => exact Option.some.inj hstep ▸ hplain fun _ => by simp
  | listJobs => exact Option.some.inj hstep ▸ hplain fun _ => by simp
  | getJob id => exact Option.some.inj hstep ▸ hplain fun _ => by simp

/-- The lock is released with what is saved in `T`. -/
theorem GateSafe.release (hg : GateSafe p T h g) {c : Commit} (hc : g.commit = some c) {s : Service}
    (hsaved : ∀ y, s.saved = some y → T y.token) (result : Except ServiceError SetupManifest) :
    GateSafe p T h (({ g with service := s } : Gate).release c.owner result) := by
  have howner := (hg.commit c hc).2.2
  have hfree : GateSafe p T h { g with service := s, commit := none } :=
    hg.changeService rfl rfl hsaved fun c hc => by cases hc
  unfold Gate.release
  cases hid : c.owner with
  | none => exact hfree
  | some id =>
    obtain ⟨x, hx, hpaired⟩ := howner id hid
    dsimp only
    rw [hx]
    cases result with
    | error e =>
      exact hg.change hx rfl hsaved (fun c hc => by cases hc) (fun _ _ hmem => Or.inl hmem)
        (stageSafe_answered (serviceError_session e))
    | ok manifest =>
      exact hg.change hx rfl hsaved (fun c hc => by cases hc) (fun _ _ hmem => Or.inl hmem)
        ⟨hpaired, Or.inl rfl⟩

/-- Every step keeps the invariant. -/
theorem GateSafe.step (hg : GateSafe p T h g) {a : GateCall} (ha : Supplied p T g a)
    (hstep : g.step h p a = some g') : GateSafe p T h g' := by
  cases a with
  | receive id request statusError =>
    simp only [Gate.step] at hstep
    split at hstep
    · next hnew =>
      obtain rfl := Option.some.inj hstep
      exact hg.receive hnew ha
    · cases hstep
  | authorize id load =>
    simp only [Gate.step] at hstep
    split at hstep
    · next x hx =>
      split at hstep
      · next operation hstage =>
        split at hstep
        · next e s hresult =>
          obtain rfl := Option.some.inj hstep
          exact hg.authorize hx hstage hresult
        · next s hresult =>
          obtain rfl := Option.some.inj hstep
          exact hg.authorize hx hstage hresult
      · cases hstep
    · cases hstep
  | perform id answer =>
    simp only [Gate.step] at hstep
    split at hstep
    · next x hx =>
      split at hstep
      · next operation hstage => exact hg.perform hx hstage hstep
      · cases hstep
    · cases hstep
  | prepareApply id calls =>
    simp only [Gate.step] at hstep
    split at hstep
    · next x hx hfree =>
      split at hstep
      · next request hstage =>
        have hacting := (hg.exchanges id x hx).stage
        rw [hstage] at hacting
        have htoken : Known T (Protected.apply request).token := by
          rcases (browser_of_asks hacting.1).token with heq | heq
          · rw [heq]
            exact (hg.exchanges id x hx).supplied hacting.2
          · exact Or.inl heq
        have hsaved := prepareApply_saved calls request g.service
        split at hstep
        · next e s hresult =>
          obtain rfl := Option.some.inj hstep
          rw [hresult] at hsaved
          exact hg.begin hx hstage hsaved fun _ => stageSafe_answered (serviceError_session e)
        · next prepared s hresult =>
          obtain rfl := Option.some.inj hstep
          obtain ⟨hsame, hknown⟩ := known_prepareApply hg.saved htoken hresult
          refine hg.change hx rfl (fun y hy => hg.saved y (hsame ▸ hy)) ?_ ?_ hacting.2
          · intro c hc
            obtain rfl := Option.some.inj hc
            exact Or.inr ⟨hknown.1, hknown.2, fun id' hid' => ⟨(Option.some.inj hid').symm, hacting.2⟩⟩
          · intro id' operation hmem
            rcases List.mem_cons.1 hmem with heq | hmem
            · obtain ⟨rfl, rfl⟩ := Prod.mk.inj heq
              exact Or.inr ⟨rfl, hacting⟩
            · exact Or.inl hmem
      · cases hstep
    · cases hstep
  | preparePublish calls media =>
    simp only [Gate.step] at hstep
    split at hstep
    · cases hstep
    · split at hstep
      · exact Option.some.inj hstep ▸ hg
      · next prepared hprepared =>
        obtain rfl := Option.some.inj hstep
        obtain ⟨htoken, hprevious⟩ := known_preparePublish hg.saved hprepared
        refine hg.changeService rfl rfl hg.saved fun c hc => ?_
        obtain rfl := Option.some.inj hc
        exact ⟨htoken, hprevious, fun id hid => by cases hid⟩
  | save call =>
    simp only [Gate.step] at hstep
    split at hstep
    · next owner prepared hcommit =>
      obtain rfl := Option.some.inj hstep
      obtain ⟨htoken, hrest⟩ := hg.commit _ hcommit
      refine hg.changeService rfl rfl (fun y hy => ?_) fun c hc => ?_
      · rcases saveManifest_saved call prepared.token prepared.manifest g.service hy with hbefore | heq
        · exact hg.saved y hbefore
        · exact heq ▸ htoken
      · obtain rfl := Option.some.inj hc
        exact ⟨htoken, hrest⟩
    · cases hstep
  | settle calls =>
    simp only [Gate.step] at hstep
    split at hstep
    · next owner prepared saved hcommit =>
      obtain rfl := Option.some.inj hstep
      refine hg.release hcommit (fun y hy => ?_) _
      rcases settle_saved calls prepared saved g.service hy with hbefore | ⟨q, hq, heq⟩
      · exact hg.saved y hbefore
      · exact heq ▸ (hg.commit _ hcommit).2.1 q hq
    · cases hstep
  | readStatus id =>
    simp only [Gate.step] at hstep
    split at hstep
    · next x hx =>
      split at hstep
      · next token hstage =>
        obtain rfl := Option.some.inj hstep
        have hsafe := (hg.exchanges id x hx).stage
        rw [hstage] at hsafe
        refine hg.change hx rfl hg.saved (fun _ hc => Or.inl hc) (fun _ _ hmem => Or.inl hmem)
          ⟨hsafe.1, ?_⟩
        split
        · exact Or.inl rfl
        · exact hsafe.2
      · cases hstep
    · cases hstep
  | issue id load =>
    simp only [Gate.step] at hstep
    split at hstep
    · next x hx =>
      split at hstep
      · next token status hstage =>
        have hsafe := (hg.exchanges id x hx).stage
        rw [hstage] at hsafe
        have hsaved := issueSession_saved (p := p) load token g.service
        split at hstep
        · next e s hresult =>
          obtain rfl := Option.some.inj hstep
          rw [hresult] at hsaved
          exact hg.changeStage hx hsaved (stageSafe_answered (serviceError_session e))
        · next session s hresult =>
          obtain rfl := Option.some.inj hstep
          rw [hresult] at hsaved
          refine hg.changeStage hx hsaved fun session' hsession' => ⟨hsafe.1, ?_⟩
          obtain rfl := Option.some.inj hsession'
          exact session_of_issueSession hg.saved hsafe.2 hresult
      · cases hstep
    · cases hstep
  | restore calls =>
    simp only [Gate.step] at hstep
    split at hstep
    · cases hstep
    · next hfree =>
      obtain rfl := Option.some.inj hstep
      refine hg.changeService rfl rfl (fun y hy => ?_) hg.commit
      exact hg.saved y (by rwa [restore_saved] at hy)

/-! ## Runs -/

/-- In every run of the setup page, with any number of requests at once and with commits that fail and
are rolled back: an operation is begun only for a request that names this computer as its host, that has
passed the other checks of the browser, and that shows the launcher's value, a token of `T` or the session
of one; a session is given to such requests only, and is that of a token of `T`; and what is saved has its
token in `T`. Here `T` is any set with the token that was saved at first and the tokens that such requests
supply. -/
theorem only_paired_served {first : Option SavedSetup} (hfirst : ∀ x, first = some x → T x.token)
    (hg : (setupPage h p first).ReachableBy (Supplied p T) g) :
    (∀ id operation, (id, operation) ∈ g.calls → ∃ x, g.exchanges.lookup id = some x ∧
      LocalName (hostOf x.request.host) ∧ FromBrowser h x.request operation ∧ Paired p T x.request) ∧
    (∀ id x response session, g.exchanges.lookup id = some x → x.stage = .answered response →
      response.session = some session → Paired p T x.request ∧ ∃ t, T t ∧ session = p.sessionForToken t) ∧
    ∀ x, g.service.saved = some x → T x.token := by
  have hsafe : GateSafe p T h g := by
    apply hg.invariant
    · rintro g rfl
      exact {
        saved := hfirst
        commit := fun _ hc => by cases hc
        exchanges := fun _ _ hx => by cases hx
        calls := fun _ _ hmem => absurd hmem List.not_mem_nil }
    · intro g a g' hg ha hstep
      exact hg.step ha hstep
  refine ⟨?_, ?_, hsafe.saved⟩
  · intro id operation hmem
    obtain ⟨x, hx, hasks, hpaired⟩ := hsafe.calls id operation hmem
    have hbrowser := browser_of_asks hasks
    have hhost : loopbackHost x.request.host = true := by
      have hread := hbrowser.read
      simp only [authorizeBrowserRead, Bool.and_eq_true] at hread
      exact hread.1.1
    exact ⟨x, hx, localName_of_loopbackHost hhost, hbrowser, hpaired⟩
  · intro id x response session hx hstage hsession
    have hanswered := (hsafe.exchanges id x hx).stage
    rw [hstage] at hanswered
    exact hanswered session hsession

end Paired

section Example

attribute [local instance] TextTables.ascii FoldTables.ascii

/-- A parser for the one origin below. -/
local instance : OriginParser where
  parse origin :=
    if origin = text "http://localhost:8080" then some ("http", text "localhost:8080") else none

/-- The launcher's value, and the session of the token below. -/
def launched : Pairing where
  bootstrapToken := text "launched"
  sessionForToken token :=
    if token = text "paired-token" then
      text "aa8a8e834691314800780dd97e796303435dad9b2f663ccc4007c10593ed8ab8"
    else []

def smallPage : Handler := ⟨text "csrf", true, true, true⟩

/-- A `Discover` of the browser that the launcher has opened, or of another page that knows the secret. -/
def discoverRequest (bootstrap token : ByteText) : Request where
  path := text "/api/setup/discover"
  method := "POST"
  host := text "localhost:8080"
  origin := text "http://localhost:8080"
  csrf := text "csrf"
  bootstrap := bootstrap
  body := some (.discover token)

/-- The launched browser and another one discover at once. -/
def twoBrowsers : List GateCall :=
  [.receive 0 (discoverRequest (text "launched") (text "paired-token")) none,
    .receive 1 (discoverRequest [] (text "other-token")) none, .authorize 0 (.ok ()),
    .authorize 1 (.ok ()), .perform 0 { discovery := { discover := .ok [] } }, .readStatus 0,
    .issue 0 (.ok ())]

/-- No requests but these two arrive. -/
def isOfTwo : GateCall → Bool
  | .receive _ request _ =>
      request == discoverRequest (text "launched") (text "paired-token") ||
        request == discoverRequest [] (text "other-token")
  | _ => true

theorem supplied_of_isOfTwo (g : Gate) {a : GateCall} (ha : isOfTwo a = true) :
    Supplied launched (· = text "paired-token") g a := by
  cases a with
  | receive id request statusError =>
    intro hpaired
    simp only [isOfTwo, Bool.or_eq_true, beq_iff_eq] at ha
    rcases ha with rfl | rfl
    · exact Or.inr rfl
    · -- the other browser shows nothing that pairs it
      rcases hpaired with hboot | ⟨t, rfl, hsession | ⟨-, htoken⟩⟩
      · exact absurd hboot (by decide)
      · exact absurd hsession (by decide)
      · exact absurd htoken (by decide)
  | _ => trivial

/-- The launched browser is given its session, and the other one is refused. -/
theorem only_paired_served_two : ∃ g : Gate,
    (g.exchanges.lookup 1).map Exchange.stage = some (.answered (authorizeError .notPaired)) ∧
      (g.exchanges.lookup 0).map Exchange.stage = some (.answered
        { status := 200, session := some (launched.sessionForToken (text "paired-token")) }) ∧
        ∀ id operation, (id, operation) ∈ g.calls → ∃ x, g.exchanges.lookup id = some x ∧
          LocalName (hostOf x.request.host) ∧ FromBrowser smallPage x.request operation ∧
            Paired launched (· = text "paired-token") x.request := by
  let start : Gate := { service := { saved := none } }
  have hrun : (((setupPage smallPage launched none).runChecked (fun _ a => isOfTwo a = true) start
      twoBrowsers).map fun g => ((g.exchanges.lookup 1).map Exchange.stage,
        (g.exchanges.lookup 0).map Exchange.stage)) =
      some (some (.answered (authorizeError .notPaired)), some (.answered
        { status := 200, session := some (launched.sessionForToken (text "paired-token")) })) := by
    decide +kernel
  obtain ⟨g, hg, hstages⟩ := Option.map_eq_some_iff.1 hrun
  obtain ⟨hrefused, hserved⟩ := Prod.mk.inj hstages
  have hreached := (System.reachesBy_of_runChecked hg).mono fun g a ha => supplied_of_isOfTwo g ha
  have hreachable : (setupPage smallPage launched none).ReachableBy
      (Supplied launched (· = text "paired-token")) g :=
    System.ReachableBy.reaches (.init rfl) hreached
  obtain ⟨hcalls, -, -⟩ := only_paired_served (fun x hx => by cases hx) hreachable
  exact ⟨g, hrefused, hserved, hcalls⟩

end Example

end BlackPearl.SetupHandler
