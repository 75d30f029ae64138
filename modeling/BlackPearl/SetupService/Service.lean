import BlackPearl.Setup.Acquired

/-!
# The setup service

`internal/service/setup/service.go`: `Apply`, `PublishAcquired`, `FindPublished` and `Restore`, with
`commitManifest` under the first two. The state is what outlives a call: the saved setup, the
manifest of the published runtime, and the status. What each call to the repository, the runtime
factory, the runtime and the publisher returns is an argument of the operation; a `SaveManifest`
that fails may have committed all the same.
-/

set_option autoImplicit false

namespace BlackPearl.SetupService

open BlackPearl.Library BlackPearl.Setup

/-! ## State -/

/-- The errors that callers of the service tell apart. -/
inductive Sentinel
  | unauthorized
  | unavailable
  | degraded
  | invalidSelection
  | notFound
  | other
  deriving DecidableEq, Repr

/-- An error: what was being done, the errors that it is, and the error of a rollback that failed
as well. -/
structure ServiceError where
  context : String
  causes : List Sentinel
  rollback : Option String := none
  deriving DecidableEq, Repr

section Service

variable [TextTables]

/-- One saved token and manifest; the repository saves nothing but accepted manifests. -/
structure SavedSetup where
  token : ByteText
  manifest : SetupManifest
  accepted : newSetupManifest manifest.items = .ok manifest

/-- What calls of the service leave behind. `live` is the manifest of the published runtime. -/
structure Service where
  saved : Option SavedSetup
  live : Option SetupManifest := none
  manifest : Option SetupManifest := none
  tokenConfigured : Bool := false
  savedItemCount : ℕ := 0

/-- `markTokenConfigured`. -/
def Service.markTokenConfigured (s : Service) : Service := { s with tokenConfigured := true }

/-- `markSavedManifest`. -/
def Service.markSavedManifest (s : Service) (itemCount : ℕ) : Service :=
  { s with tokenConfigured := true, savedItemCount := itemCount }

/-- `setStatus`. -/
def Service.setStatus (s : Service) (manifest : SetupManifest) (savedItemCount : ℕ) : Service :=
  { s with manifest := some manifest, tokenConfigured := true, savedItemCount := savedItemCount }

/-- `Publish`: the runtime of this manifest becomes the published one. -/
def Service.publish (s : Service) (manifest : SetupManifest) : Service :=
  { s with live := some manifest }

/-! ## The repository -/

/-- What a call returns that has no effect when it fails. -/
abbrev Call : Type := Except String Unit

/-- What `SaveManifest` or `Clear` returns. -/
inductive SaveCall
  | done
  | failed (message : String) (committed cleanupDeferred : Bool)
  deriving DecidableEq, Repr

/-- An error of `LoadManifest`. -/
inductive LoadError
  | notFound
  | failed (message : String)
  deriving DecidableEq, Repr

/-- An error of `SaveManifest`. -/
structure SaveError where
  message : String
  cleanupDeferred : Bool
  deriving DecidableEq, Repr

/-- `LoadManifest`. -/
def loadManifest (call : Call) (s : Service) : Except LoadError SavedSetup :=
  match call with
  | .error message => .error (.failed message)
  | .ok () =>
      match s.saved with
      | none => .error .notFound
      | some saved => .ok saved

/-- `SaveManifest`. -/
def saveManifest (call : SaveCall) (token : ByteText) (manifest : SetupManifest) (s : Service) :
    Except SaveError Unit × Service :=
  match h : newSetupManifest manifest.items with
  | .error message => (.error ⟨"validate setup manifest: " ++ message, false⟩, s)
  | .ok validated =>
      let saved : Service := { s with saved := some ⟨token, validated, newSetupManifest_idem h⟩ }
      match call with
      | .done => (.ok (), saved)
      | .failed message committed cleanupDeferred =>
          (.error ⟨message, cleanupDeferred⟩, if committed then saved else s)

/-- `Clear`. -/
def clear (call : SaveCall) (s : Service) : Except SaveError Unit × Service :=
  match call with
  | .done => (.ok (), { s with saved := none })
  | .failed message committed cleanupDeferred =>
      (.error ⟨message, cleanupDeferred⟩, if committed then { s with saved := none } else s)

/-- `rollbackPersistence`: the error, if it fails. -/
def rollbackPersistence (call : SaveCall) (previous : Option SavedSetup) (s : Service) :
    Option String × Service :=
  match previous with
  | some saved =>
      match saveManifest call saved.token saved.manifest s with
      | (.error e, s) => (some ("restore prior setup persistence: " ++ e.message), s)
      | (.ok (), s) => (none, s)
  | none =>
      match clear call s with
      | (.error e, s) => (some ("clear failed setup persistence: " ++ e.message), s)
      | (.ok (), s) => (none, s)

/-! ## Transactions -/

/-- What the calls of one `commitManifest` return. -/
structure CommitCalls where
  prepare : Call := .ok ()
  ready : Call := .ok ()
  loadPrior : Call := .ok ()
  save : SaveCall := .done
  loadAfterSave : Call := .ok ()
  publish : Call := .ok ()
  rollback : SaveCall := .done

/-- The part of `commitManifest` after the manifest was saved. -/
def publishRuntime (calls : CommitCalls) (previous : Option SavedSetup) (manifest : SetupManifest)
    (s : Service) : Except ServiceError SetupManifest × Service :=
  match calls.publish with
  | .error _ =>
      let (rollbackErr, s) := rollbackPersistence calls.rollback previous s
      (.error ⟨"publish selected media", [.unavailable], rollbackErr⟩, s)
  | .ok () => (.ok manifest, (s.publish manifest).setStatus manifest manifest.items.length)

/-- Whether the repository holds this token and manifest. -/
def committed (call : Call) (token : ByteText) (manifest : SetupManifest) (s : Service) : Bool :=
  match loadManifest call s with
  | .ok saved => saved.token = token && saved.manifest = manifest
  | .error _ => false

/-- The part of `commitManifest` from `SaveManifest` on. -/
def persist (calls : CommitCalls) (token : ByteText) (previous : Option SavedSetup)
    (manifest : SetupManifest) (s : Service) : Except ServiceError SetupManifest × Service :=
  match saveManifest calls.save token manifest s with
  | (.ok (), s) => publishRuntime calls previous manifest s
  | (.error e, s) =>
      if e.cleanupDeferred && committed calls.loadAfterSave token manifest s then
        publishRuntime calls previous manifest s
      else if committed calls.loadAfterSave token manifest s then
        let (rollbackErr, s) := rollbackPersistence calls.rollback previous s
        (.error ⟨"persist selected media", [.unavailable], rollbackErr⟩, s)
      else (.error ⟨"persist selected media", [.unavailable], none⟩, s)

/-- `commitManifest`. -/
def commitManifest (calls : CommitCalls) (token : ByteText) (manifest : SetupManifest)
    (s : Service) : Except ServiceError SetupManifest × Service :=
  match calls.prepare with
  | .error _ => (.error ⟨"prepare selected media", [.unavailable], none⟩, s)
  | .ok () =>
      match calls.ready with
      | .error _ => (.error ⟨"probe selected media", [.unavailable], none⟩, s)
      | .ok () =>
          match loadManifest calls.loadPrior s with
          | .error (.failed _) =>
              (.error ⟨"load prior setup before commit", [.unavailable], none⟩, s)
          | .error .notFound => persist calls token none manifest s
          | .ok previous => persist calls token (some previous) manifest s

/-! ## Apply -/

/-- `ApplyItemRequest`. -/
structure ApplyItemRequest where
  objectID : ByteText
  mediaType : ByteText := []
  title : ByteText
  year : Int64
  showTitle : ByteText := []
  season : Int64 := 0
  episode : Int64 := 0
  deriving DecidableEq, Repr

/-- `ApplyRequest`. -/
structure ApplyRequest where
  token : ByteText := []
  items : List ApplyItemRequest := []
  objectID : ByteText := []
  title : ByteText := []
  year : Int64 := 0
  deriving DecidableEq, Repr

/-- `itemRequests`. -/
def ApplyRequest.itemRequests (r : ApplyRequest) : Checked (List ApplyItemRequest) :=
  if r.items ≠ [] then do
    require (r.items.length ≤ maximumSetupManifestItems) "request contains too many items"
    require (¬ (r.objectID ≠ [] ∨ r.title ≠ [] ∨ r.year ≠ 0))
      "request cannot combine items and legacy selection"
    return r.items
  else do
    require (r.objectID ≠ []) "request requires at least one item"
    return [{ objectID := r.objectID, title := r.title, year := r.year }]

/-- `configurationFromRequest`. -/
def configurationFromRequest (candidate : MediaCandidate) (request : ApplyItemRequest) :
    Checked SetupConfiguration :=
  if request.mediaType = [] ∨ request.mediaType = mediaTypeMovie then
    newSetupConfiguration candidate request.title request.year
  else if request.mediaType = mediaTypeEpisode then
    newSetupEpisodeConfiguration candidate request.showTitle request.year request.season
      request.episode request.title
  else .error ("unsupported media type: " ++ ByteText.quote request.mediaType)

/-- The loop of `Apply` over the requested items; of two candidates for one object the later one
counts. -/
def selectConfigurations (candidates : List MediaCandidate) (requests : List ApplyItemRequest) :
    Except ServiceError (List SetupConfiguration) :=
  requests.mapM fun request =>
    match candidates.reverse.find? fun c => c.objectID = request.objectID with
    | none => .error ⟨"", [.invalidSelection], none⟩
    | some selected =>
        match configurationFromRequest selected request with
        | .error _ => .error ⟨"validate selected media", [.invalidSelection], none⟩
        | .ok configuration => .ok configuration

/-- What the calls of one `Apply` return; `discover` says whether it fails for the credentials. -/
structure ApplyCalls where
  loadToken : Call := .ok ()
  gateway : Call := .ok ()
  discover : Except Bool (List MediaCandidate)
  commit : CommitCalls := {}

/-- `maximumTokenBytes` of `resolveToken`. -/
def maximumTokenBytes : ℕ := 4096

/-- `resolveToken`. -/
def resolveToken (call : Call) (supplied : ByteText) (s : Service) :
    Except ServiceError ByteText × Service :=
  if supplied ≠ [] then
    if ByteText.byteLength supplied > maximumTokenBytes ∨ ByteText.trimSpace supplied ≠ supplied ∨
        ByteText.containsChar supplied '\x00' then
      (.error ⟨"", [.unauthorized], none⟩, s)
    else (.ok supplied, s)
  else
    match loadManifest call s with
    | .error .notFound => (.error ⟨"", [.unauthorized], none⟩, s)
    | .error (.failed _) => (.error ⟨"load saved provider credentials", [.unavailable], none⟩, s)
    | .ok saved => (.ok saved.token, s.markTokenConfigured)

/-- `discoverWithToken`. -/
def discoverWithToken (calls : ApplyCalls) : Except ServiceError (List MediaCandidate) :=
  match calls.gateway with
  | .error _ => .error ⟨"configure provider discovery", [.unavailable], none⟩
  | .ok () =>
      match calls.discover with
      | .error true => .error ⟨"discover provider media", [.unauthorized], none⟩
      | .error false => .error ⟨"discover provider media", [.unavailable], none⟩
      | .ok items => .ok items

/-- `Apply`, from the token on. -/
def applyWithToken (calls : ApplyCalls) (request : ApplyRequest) (token : ByteText) (s : Service) :
    Except ServiceError SetupManifest × Service :=
  match request.itemRequests with
  | .error _ => (.error ⟨"", [.invalidSelection], none⟩, s)
  | .ok requests =>
      match discoverWithToken calls with
      | .error e => (.error e, s)
      | .ok candidates =>
          match selectConfigurations candidates requests with
          | .error e => (.error e, s)
          | .ok configurations =>
              match newSetupManifest configurations with
              | .error _ => (.error ⟨"validate selected manifest", [.invalidSelection], none⟩, s)
              | .ok manifest => commitManifest calls.commit token manifest s

/-- `Apply`. -/
def apply (calls : ApplyCalls) (request : ApplyRequest) (s : Service) :
    Except ServiceError SetupManifest × Service :=
  match resolveToken calls.loadToken request.token s with
  | (.error e, s) => (.error e, s)
  | (.ok token, s) => applyWithToken calls request token s

/-! ## Acquired media -/

/-- The media type as the manifest writes it. -/
def mediaTypeText : MediaType → ByteText
  | .movie => mediaTypeMovie
  | .episode => mediaTypeEpisode
  | .unset => []

/-- `sameLogicalMedia`. -/
def sameLogicalMedia (left right : SetupConfiguration) : Bool :=
  if left.mediaType ≠ right.mediaType ∨ left.year ≠ right.year then false
  else if left.mediaType = mediaTypeMovie then left.title = right.title
  else if left.mediaType = mediaTypeEpisode then
    left.showTitle = right.showTitle && left.season = right.season && left.episode = right.episode
  else false

/-- `publishedMediaMatches`. -/
def publishedMediaMatches (item : SetupConfiguration) (request : SearchRequest) : Bool :=
  if item.mediaType ≠ mediaTypeText request.mediaType ∨ item.year ≠ request.year then false
  else
    match request.mediaType with
    | .movie => item.title = request.title
    | .episode =>
        item.showTitle = request.title && item.season = request.season &&
          item.episode = request.episode
    | .unset => false

/-- The test of the loop in `PublishAcquired`. -/
def replaces (configuration item : SetupConfiguration) : Bool :=
  item.backing = configuration.backing || sameLogicalMedia item configuration

/-- The loop of `PublishAcquired`: the first item that matches is replaced. -/
def replaceItem (configuration : SetupConfiguration) :
    List SetupConfiguration → Option (List SetupConfiguration)
  | [] => none
  | item :: rest =>
      if replaces configuration item then some (configuration :: rest)
      else (replaceItem configuration rest).map (item :: ·)

/-- What the calls of one `PublishAcquired` return. -/
structure PublishCalls where
  load : Call := .ok ()
  commit : CommitCalls := {}

/-- The items of `PublishAcquired`. -/
def publishedItems (configuration : SetupConfiguration) (items : List SetupConfiguration) :
    Except ServiceError (List SetupConfiguration) :=
  match replaceItem configuration items with
  | some replaced => .ok replaced
  | none =>
      if items.length = maximumSetupManifestItems then
        .error ⟨"setup manifest is at capacity", [.invalidSelection], none⟩
      else .ok (items ++ [configuration])

/-- `PublishAcquired`. -/
def publishAcquired (calls : PublishCalls) (media : AcquiredMedia) (s : Service) :
    Except ServiceError Unit × Service :=
  match loadManifest calls.load s with
  | .error .notFound => (.error ⟨"", [.unauthorized], none⟩, s)
  | .error (.failed _) =>
      (.error ⟨"load setup before acquired publication", [.unavailable], none⟩, s)
  | .ok current =>
      match configurationFromAcquired media with
      | .error _ => (.error ⟨"validate acquired media", [.invalidSelection], none⟩, s)
      | .ok configuration =>
          match publishedItems configuration current.manifest.items with
          | .error e => (.error e, s)
          | .ok items =>
              match newSetupManifest items with
              | .error _ => (.error ⟨"validate acquired manifest", [.invalidSelection], none⟩, s)
              | .ok manifest =>
                  let (result, s) := commitManifest calls.commit current.token manifest s
                  (result.map fun _ => (), s)

/-- `FindPublished`. -/
def findPublished (call : Call) (request : SearchRequest) (s : Service) :
    Except ServiceError (Option ByteText) :=
  match loadManifest call s with
  | .error .notFound => .ok none
  | .error (.failed _) => .error ⟨"load published media manifest", [.unavailable], none⟩
  | .ok saved =>
      .ok ((saved.manifest.items.find? fun item => publishedMediaMatches item request).map
        SetupConfiguration.objectID)

/-! ## Restore -/

/-- `RestorePreparation`: a runtime, if it is there, and the manifest that it exposes. -/
structure RestorePreparation where
  hasRuntime : Bool
  activeManifest : SetupManifest

/-- What the calls of one `Restore` return; `prepare` says of its error whether it is
`ErrUnavailable` of the domain. -/
structure RestoreCalls where
  load : Call := .ok ()
  prepare : Except Bool RestorePreparation
  ready : Call := .ok ()
  publish : Call := .ok ()

/-- The loop of `validateRestorePreparation`: whether the active items are among the saved ones, in
order. -/
def orderedSubset : List SetupConfiguration → List SetupConfiguration → Bool
  | [], _ => true
  | _ :: _, [] => false
  | active :: more, saved :: rest =>
      if saved = active then orderedSubset more rest else orderedSubset (active :: more) rest

/-- `validateRestorePreparation`. -/
def validateRestorePreparation (saved : SetupManifest) (preparation : RestorePreparation) :
    Checked Unit := do
  require (preparation.hasRuntime = true) "restore runtime is required"
  require (preparation.activeManifest.items ≠ [])
    "restore manifest must contain at least one active item"
  require (preparation.activeManifest.items.length ≤ saved.items.length)
    "restore manifest exceeds saved manifest"
  require (orderedSubset preparation.activeManifest.items saved.items = true)
    "restore manifest is not an ordered saved subset"

/-- `Restore`. -/
def restore (calls : RestoreCalls) (s : Service) : Except ServiceError Unit × Service :=
  match loadManifest calls.load s with
  | .error .notFound => (.error ⟨"", [.notFound], none⟩, s)
  | .error (.failed message) => (.error ⟨message, [.other], none⟩, s)
  | .ok saved =>
      let s := s.markSavedManifest saved.manifest.items.length
      match calls.prepare with
      | .error true => (.error ⟨"prepare saved setup", [.unavailable], none⟩, s)
      | .error false => (.error ⟨"prepare saved setup", [.other], none⟩, s)
      | .ok preparation =>
          match validateRestorePreparation saved.manifest preparation with
          | .error _ => (.error ⟨"validate saved setup preparation", [.other], none⟩, s)
          | .ok () =>
              let active := preparation.activeManifest
              let degraded := decide (active.items.length < saved.manifest.items.length)
              if degraded && s.manifest.isSome then
                (.error ⟨"", [.degraded, .unavailable], none⟩, s)
              else
                match calls.ready with
                | .error _ => (.error ⟨"probe saved setup", [.unavailable], none⟩, s)
                | .ok () =>
                    match calls.publish with
                    | .error _ => (.error ⟨"publish saved setup", [.unavailable], none⟩, s)
                    | .ok () =>
                        let s := (s.publish active).setStatus active saved.manifest.items.length
                        if degraded then (.error ⟨"", [.degraded, .unavailable], none⟩, s)
                        else (.ok (), s)

/-! ## What the calls do -/

/-- What `SaveManifest` does with a manifest that was accepted. -/
theorem saveManifest_accepted (call : SaveCall) (token : ByteText) {manifest : SetupManifest}
    (h : newSetupManifest manifest.items = .ok manifest) (s : Service) :
    saveManifest call token manifest s =
      match call with
      | .done => (.ok (), { s with saved := some ⟨token, manifest, h⟩ })
      | .failed message committed cleanupDeferred =>
          (.error ⟨message, cleanupDeferred⟩,
            if committed then { s with saved := some ⟨token, manifest, h⟩ } else s) := by
  unfold saveManifest
  split
  · next herror =>
    rw [h] at herror
    cases herror
  · next validated hvalidated =>
    obtain rfl := Except.ok.inj (h.symm.trans hvalidated)
    rfl

/-- A transaction of which no call fails. -/
theorem commitManifest_calm (token : ByteText) {manifest : SetupManifest}
    (h : newSetupManifest manifest.items = .ok manifest) (s : Service) :
    commitManifest {} token manifest s = (.ok manifest,
      { saved := some ⟨token, manifest, h⟩, live := some manifest, manifest := some manifest,
        tokenConfigured := true, savedItemCount := manifest.items.length }) := by
  have hpersist : ∀ previous, persist {} token previous manifest s = (.ok manifest,
      { saved := some ⟨token, manifest, h⟩, live := some manifest, manifest := some manifest,
        tokenConfigured := true, savedItemCount := manifest.items.length }) := by
    intro previous
    rw [persist, saveManifest_accepted _ _ h]
    rfl
  cases hsaved : s.saved with
  | none =>
    have hload : loadManifest (.ok ()) s = .error .notFound := by rw [loadManifest, hsaved]
    simp only [commitManifest, hload, hpersist]
  | some saved =>
    have hload : loadManifest (.ok ()) s = .ok saved := by rw [loadManifest, hsaved]
    simp only [commitManifest, hload, hpersist]

end Service

end BlackPearl.SetupService
