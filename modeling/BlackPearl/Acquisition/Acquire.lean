import BlackPearl.Acquisition.Job
import BlackPearl.Acquisition.Results
import BlackPearl.Acquisition.Selection
import BlackPearl.Library.Failure

/-!
# Acquiring at once

`Acquire` of `internal/service/acquisition/service.go`, and `Coordinator.Acquire` over it: search, look
into the cache of the provider, create an object from what is cached, wait for its files and publish
one. What the providers, the repositories and the context answer is a parameter, and the calls that
change something or can are recorded with the result.

A caller may try again after an error exactly if the error is not `ErrAmbiguousMutation`, so that error
has to come whenever the account or the manifest may have changed, and at no other time
(`acquire_calls`).
-/

set_option autoImplicit false

namespace BlackPearl.Acquisition

open BlackPearl.Library BlackPearl.Domain

/-! ## Errors -/

/-- The errors that `errors.Is` is asked for on this path. -/
inductive Cause
  | canceled
  | deadlineExceeded
  | unauthorized
  | notFound
  | notConfigured
  | notReady
  | notCached
  | noPlayableMedia
  | unavailable
  | ambiguousMutation
  deriving DecidableEq, Repr

/-- An error: its own text, and all that `errors.Is` finds in it. -/
structure AcquireError where
  text : String
  causes : List Cause
  deriving DecidableEq, Repr

/-- `errors.Is`. -/
def AcquireError.is (e : AcquireError) (cause : Cause) : Bool := decide (cause ∈ e.causes)

/-- The error of a context. -/
def contextCause : ContextError → Cause
  | .canceled => .canceled
  | .deadlineExceeded => .deadlineExceeded

/-- `publicBoundaryError`. -/
def publicBoundaryError (action : String) (err : AcquireError) : AcquireError :=
  if err.is .canceled then ⟨action, [.canceled]⟩
  else if err.is .deadlineExceeded then ⟨action, [.deadlineExceeded]⟩
  else if err.is .unauthorized then ⟨action, [.unauthorized]⟩
  else ⟨action, [.unavailable]⟩

/-- The causes that `ambiguousMutationError` passes on. -/
def safeCauses : List Cause :=
  [.canceled, .deadlineExceeded, .unauthorized, .noPlayableMedia, .unavailable]

/-- `ambiguousMutationError`. -/
def ambiguousMutationError (action : String) (err : AcquireError) : AcquireError :=
  ⟨action, .ambiguousMutation :: safeCauses.filter err.is⟩

/-- `ErrNotCached`. -/
def errNotCached : AcquireError := ⟨"no cached release is available", [.notCached]⟩

/-- `ErrUnavailable`. -/
def errUnavailable : AcquireError := ⟨"acquisition is temporarily unavailable", [.unavailable]⟩

/-! ## Answers and calls -/

/-- `Options`, as `validateOptions` accepts them. -/
structure Options where
  inspectionAttempts : ℕ
  inspectionInterval : ℤ
  attempts_pos : 1 ≤ inspectionAttempts
  attempts_le : inspectionAttempts ≤ 100
  interval_pos : 0 < inspectionInterval

section Acquire

variable [TextTables]

/-- What an `Acquire` is answered: `inspect n` and `wait n` are the inspection and the wait of the
attempt `n`. -/
structure Answers where
  contextBefore : Option ContextError := none
  search : Except AcquireError (List Release)
  cachedTorrents : Except AcquireError (List Release)
  createCachedTorrent : Except AcquireError CreatedObject
  inspect : ℕ → Except AcquireError PreparationInspection
  wait : ℕ → Option ContextError := fun _ => none
  publishAcquired : Option AcquireError := none
  contextAfter : Option ContextError := none

/-- The calls of an `Acquire`. -/
inductive AcquireCall
  | search (request : SearchRequest)
  | cachedTorrents (releases : List Release)
  | createCachedTorrent (release : Release)
  | inspectCreatedTorrent (created : CreatedObject)
  | publishAcquired (media : AcquiredMedia)
  deriving DecidableEq

/-- What an `Acquire` has called, in order, and what it returns. -/
structure Acquired (α : Type) where
  calls : List AcquireCall
  result : Except AcquireError α

/-- Calls before the others. -/
def Acquired.after {α : Type} (calls : List AcquireCall) (m : Acquired α) : Acquired α :=
  ⟨calls ++ m.calls, m.result⟩

/-! ## The transaction -/

variable [LetterTables]

/-- `validateRequest`. -/
def validateRequest (request : SearchRequest) : Except AcquireError SearchRequest :=
  match request.mediaType with
  | .unset => .error ⟨"cached acquisition requires validated movie or episode intent", []⟩
  | _ =>
      match validateSearchRequest request with
      | .error message => .error ⟨message, []⟩
      | .ok validated => .ok validated

/-- The loop of `Acquire` over the releases: the first torrent with an info hash. -/
def preferredRelease (releases : List Release) : Option Release :=
  releases.find? fun release => release.protocol = .torrent && release.infoHash ≠ ""

/-- The loop of `waitForMedia`, with `left` attempts after the attempt `n`. -/
def waitForMedia (answers : Answers) (created : CreatedObject) :
    ℕ → ℕ → Acquired (List MediaCandidate)
  | left, n =>
      match answers.inspect n with
      | .ok inspection => ⟨[.inspectCreatedTorrent created], .ok inspection.candidates⟩
      | .error err =>
          if ¬ err.is .notReady ∧ ¬ err.is .notFound then
            ⟨[.inspectCreatedTorrent created],
              .error (publicBoundaryError "inspect cached acquisition object" err)⟩
          else
            match left with
            | 0 => ⟨[.inspectCreatedTorrent created],
                .error ⟨"cached acquisition object did not become ready", [.unavailable]⟩⟩
            | left + 1 =>
                match answers.wait n with
                | some cause => ⟨[.inspectCreatedTorrent created],
                    .error ⟨"wait for cached acquisition object", [contextCause cause]⟩⟩
                | none => (waitForMedia answers created left (n + 1)).after [.inspectCreatedTorrent created]

/-- `Acquire` from the selected media on. -/
def publishResult (answers : Answers) (media : AcquiredMedia) : Acquired AcquiredMedia :=
  match answers.publishAcquired with
  | none => ⟨[.publishAcquired media], .ok media⟩
  | some _ =>
      match answers.contextAfter with
      | some cause => ⟨[.publishAcquired media],
          .error (ambiguousMutationError "publish acquired media" ⟨"", [contextCause cause]⟩)⟩
      | none => ⟨[.publishAcquired media],
          .error (ambiguousMutationError "publish acquired media" errUnavailable)⟩

/-- `Acquire` from the files of the created object on. -/
def publishSelected (answers : Answers) (sorter : Sorter MediaCandidate) (validated : SearchRequest)
    (release : Release) (items : List MediaCandidate) : Acquired AcquiredMedia :=
  match selectCandidate sorter validated items with
  | .error message => ⟨[], .error (ambiguousMutationError "select created acquisition media"
      ⟨message, [.noPlayableMedia]⟩)⟩
  | .ok selected =>
      match newAcquiredMedia validated release selected with
      | .error _ => ⟨[], .error (ambiguousMutationError "validate created acquisition media"
          ⟨errNoPlayableMedia, [.noPlayableMedia]⟩)⟩
      | .ok media => publishResult answers media

/-- `Acquire` from the created object on. -/
def finishCreated (options : Options) (answers : Answers) (sorter : Sorter MediaCandidate)
    (validated : SearchRequest) (release : Release) (created : CreatedObject) :
    Acquired AcquiredMedia :=
  let waited := waitForMedia answers created (options.inspectionAttempts - 1) 0
  match waited.result with
  | .error err =>
      ⟨waited.calls, .error (ambiguousMutationError "inspect created acquisition object" err)⟩
  | .ok items => (publishSelected answers sorter validated release items).after waited.calls

/-- `Acquire` from the cached release on. -/
def createSelected (options : Options) (answers : Answers) (sorter : Sorter MediaCandidate)
    (validated : SearchRequest) (release : Release) : Acquired AcquiredMedia :=
  match answers.createCachedTorrent with
  | .error err =>
      if err.is .unauthorized then
        ⟨[.createCachedTorrent release],
          .error (publicBoundaryError "create cached acquisition object" err)⟩
      else
        ⟨[.createCachedTorrent release],
          .error (ambiguousMutationError "create cached acquisition object" err)⟩
  | .ok created =>
      (finishCreated options answers sorter validated release created).after
        [.createCachedTorrent release]

/-- `Acquire` from the preferred release on. -/
def checkCache (options : Options) (answers : Answers) (sorter : Sorter MediaCandidate)
    (validated : SearchRequest) (preferred : Release) : Acquired AcquiredMedia :=
  match answers.cachedTorrents with
  | .error err =>
      ⟨[.cachedTorrents [preferred]], .error (publicBoundaryError "check acquisition cache" err)⟩
  | .ok [] => ⟨[.cachedTorrents [preferred]], .error errNotCached⟩
  | .ok (cached :: _) =>
      if cached.protocol ≠ preferred.protocol ∨ cached.infoHash ≠ preferred.infoHash then
        ⟨[.cachedTorrents [preferred]], .error errNotCached⟩
      else
        (createSelected options answers sorter validated cached).after [.cachedTorrents [preferred]]

/-- `Acquire`. -/
def acquire (options : Options) (answers : Answers) (sorter : Sorter MediaCandidate)
    (request : SearchRequest) : Acquired AcquiredMedia :=
  match answers.contextBefore with
  | some cause => ⟨[], .error ⟨"acquire media", [contextCause cause]⟩⟩
  | none =>
      match validateRequest request with
      | .error err => ⟨[], .error err⟩
      | .ok validated =>
          match answers.search with
          | .error err =>
              ⟨[.search validated], .error (publicBoundaryError "search acquisition releases" err)⟩
          | .ok releases =>
              match preferredRelease releases with
              | none => ⟨[.search validated], .error errNotCached⟩
              | some preferred =>
                  (checkCache options answers sorter validated preferred).after [.search validated]

/-! ## Errors that callers see -/

/-- The texts of the errors of an `Acquire` that accepts its request. -/
def acquireTexts : List String :=
  ["acquire media", "search acquisition releases", "no cached release is available",
    "check acquisition cache", "create cached acquisition object",
    "inspect created acquisition object", "select created acquisition media",
    "validate created acquisition media", "publish acquired media"]

/-- The sentinels that an error of an `Acquire` can be. -/
def acquireCauses : List Cause :=
  [.canceled, .deadlineExceeded, .unauthorized, .notCached, .noPlayableMedia, .unavailable,
    .ambiguousMutation]

omit [TextTables] [LetterTables] in
theorem publicBoundaryError_text (action : String) (err : AcquireError) :
    (publicBoundaryError action err).text = action := by
  unfold publicBoundaryError
  split_ifs <;> rfl

omit [TextTables] [LetterTables] in
theorem publicBoundaryError_causes (action : String) (err : AcquireError) :
    (publicBoundaryError action err).causes ⊆ acquireCauses := by
  unfold publicBoundaryError
  split_ifs <;> simp [acquireCauses]

omit [TextTables] [LetterTables] in
theorem ambiguousMutationError_causes (action : String) (err : AcquireError) :
    (ambiguousMutationError action err).causes ⊆ acquireCauses := by
  intro cause h
  rcases List.mem_cons.1 h with rfl | h
  · decide
  · have hsafe : safeCauses ⊆ acquireCauses := by decide
    exact hsafe (List.mem_of_mem_filter h)

omit [TextTables] [LetterTables] in
/-- The error of a boundary says nothing of a mutation, whatever the provider says. -/
theorem publicBoundaryError_not_ambiguous (action : String) (err : AcquireError) :
    (publicBoundaryError action err).is .ambiguousMutation = false := by
  unfold publicBoundaryError
  split_ifs <;> rfl

omit [TextTables] [LetterTables] in
theorem ambiguousMutationError_ambiguous (action : String) (err : AcquireError) :
    (ambiguousMutationError action err).is .ambiguousMutation = true := by
  simp [ambiguousMutationError, AcquireError.is]

omit [TextTables] [LetterTables] in
/-- A request that is refused is refused with the message of its check alone. -/
theorem validateRequest_causes {request : SearchRequest} {err : AcquireError}
    (h : validateRequest request = .error err) : err.causes = [] := by
  unfold validateRequest at h
  split at h
  · cases h
    rfl
  · split at h
    · cases h
      rfl
    · cases h

/-! ## The ways in which an `Acquire` ends -/

/-- The request is accepted, and this is the first torrent of what the search has found. -/
structure Preferred (answers : Answers) (request validated : SearchRequest) (preferred : Release) :
    Prop where
  valid : validateRequest request = .ok validated
  found : ∃ releases, answers.search = .ok releases ∧ preferredRelease releases = some preferred

/-- This is what the cache of the provider has of it. -/
structure Cached (answers : Answers) (request validated : SearchRequest)
    (preferred release : Release) : Prop extends Preferred answers request validated preferred where
  cached : ∃ others, answers.cachedTorrents = .ok (release :: others)
  protocol : release.protocol = preferred.protocol
  infoHash : release.infoHash = preferred.infoHash

/-- The text that callers see is fixed, unless the request is refused, and so are the sentinels. -/
structure Told (request : SearchRequest) (err : AcquireError) : Prop where
  text : err.text ∈ acquireTexts ∨ validateRequest request = .error err
  causes : err.causes ⊆ acquireCauses

/-- An error before anything can have changed. -/
structure PlainError (request : SearchRequest) (err : AcquireError) : Prop where
  plain : err.is .ambiguousMutation = false
  told : Told request err

/-- An error after something may have changed. -/
structure AmbiguousError (request : SearchRequest) (err : AcquireError) : Prop where
  ambiguous : err.is .ambiguousMutation = true
  told : Told request err

/-- The calls up to the creation. -/
def creationCalls (validated : SearchRequest) (preferred release : Release) : List AcquireCall :=
  [.search validated, .cachedTorrents [preferred], .createCachedTorrent release]

/-- The attempt `n` finds these files, and the attempts before it find that there is nothing yet. -/
structure ReadyAt (answers : Answers) (n : ℕ) (items : List MediaCandidate) : Prop where
  ready : ∃ inspection, answers.inspect n = .ok inspection ∧ inspection.candidates = items
  waited : ∀ i < n, ∃ err, answers.inspect i = .error err ∧
    (err.is .notReady = true ∨ err.is .notFound = true) ∧ answers.wait i = none

/-- Where an `Acquire` ends. -/
inductive AcquireCase (options : Options) (answers : Answers) (sorter : Sorter MediaCandidate)
    (request : SearchRequest) : Acquired AcquiredMedia → Prop
  | refused {err : AcquireError} (herr : PlainError request err) :
      AcquireCase options answers sorter request ⟨[], .error err⟩
  | searched {validated : SearchRequest} {err : AcquireError}
      (hvalid : validateRequest request = .ok validated) (herr : PlainError request err) :
      AcquireCase options answers sorter request ⟨[.search validated], .error err⟩
  | checked {validated : SearchRequest} {preferred : Release} {err : AcquireError}
      (hpreferred : Preferred answers request validated preferred) (herr : PlainError request err) :
      AcquireCase options answers sorter request
        ⟨[.search validated, .cachedTorrents [preferred]], .error err⟩
  | rejected {validated : SearchRequest} {preferred release : Release} {cause err : AcquireError}
      (hcached : Cached answers request validated preferred release)
      (hcreate : answers.createCachedTorrent = .error cause)
      (hunauthorized : cause.is .unauthorized = true) (herr : PlainError request err) :
      AcquireCase options answers sorter request
        ⟨creationCalls validated preferred release, .error err⟩
  | failed {validated : SearchRequest} {preferred release : Release} {cause err : AcquireError}
      (hcached : Cached answers request validated preferred release)
      (hcreate : answers.createCachedTorrent = .error cause)
      (hunauthorized : cause.is .unauthorized = false) (herr : AmbiguousError request err) :
      AcquireCase options answers sorter request
        ⟨creationCalls validated preferred release, .error err⟩
  | inspected {validated : SearchRequest} {preferred release : Release} {created : CreatedObject}
      {k : ℕ} {err : AcquireError} (hcached : Cached answers request validated preferred release)
      (hcreate : answers.createCachedTorrent = .ok created) (hk : k ≤ options.inspectionAttempts)
      (herr : AmbiguousError request err) :
      AcquireCase options answers sorter request
        ⟨creationCalls validated preferred release ++
          List.replicate k (.inspectCreatedTorrent created), .error err⟩
  | published {validated : SearchRequest} {preferred release : Release} {created : CreatedObject}
      {n : ℕ} {items : List MediaCandidate} {selected : MediaCandidate} {media : AcquiredMedia}
      {result : Except AcquireError AcquiredMedia}
      (hcached : Cached answers request validated preferred release)
      (hcreate : answers.createCachedTorrent = .ok created) (hn : n < options.inspectionAttempts)
      (hready : ReadyAt answers n items)
      (hselected : selectCandidate sorter validated items = .ok selected)
      (hmedia : newAcquiredMedia validated release selected = .ok media)
      (hresult : answers.publishAcquired = none ∧ result = .ok media ∨
        answers.publishAcquired ≠ none ∧ ∃ err, result = .error err ∧ AmbiguousError request err) :
      AcquireCase options answers sorter request
        ⟨creationCalls validated preferred release ++
          List.replicate (n + 1) (.inspectCreatedTorrent created) ++ [.publishAcquired media], result⟩

section Cases

variable {options : Options} {answers : Answers} {sorter : Sorter MediaCandidate}
  {request validated : SearchRequest} {preferred release : Release} {created : CreatedObject}

omit [TextTables] [LetterTables] in
theorem publicBoundaryError_plain {action : String} (haction : action ∈ acquireTexts)
    (err : AcquireError) : PlainError request (publicBoundaryError action err) where
  plain := publicBoundaryError_not_ambiguous action err
  told := ⟨Or.inl (by rw [publicBoundaryError_text]; exact haction),
    publicBoundaryError_causes action err⟩

omit [TextTables] [LetterTables] in
theorem ambiguousMutationError_told {action : String} (haction : action ∈ acquireTexts)
    (err : AcquireError) : AmbiguousError request (ambiguousMutationError action err) where
  ambiguous := ambiguousMutationError_ambiguous action err
  told := ⟨Or.inl haction, ambiguousMutationError_causes action err⟩

omit [LetterTables] in
variable (answers) in
/-- Waiting inspects the created object, at most once for each attempt that is left; it ends with files
at the first attempt that finds the object ready. -/
theorem waitForMedia_calls (created : CreatedObject) (left : ℕ) : ∀ n,
    (∀ i < n, ∃ err, answers.inspect i = .error err ∧
      (err.is .notReady = true ∨ err.is .notFound = true) ∧ answers.wait i = none) →
    ∃ k ≤ left, (waitForMedia answers created left n).calls =
        List.replicate (k + 1) (.inspectCreatedTorrent created) ∧
      ∀ items, (waitForMedia answers created left n).result = .ok items →
        ReadyAt answers (n + k) items := by
  induction left with
  | zero =>
    intro n hwaited
    refine ⟨0, Nat.le_refl 0, ?_⟩
    unfold waitForMedia
    split
    · next inspection hinspect =>
      refine ⟨rfl, fun items h => ?_⟩
      cases h
      exact ⟨⟨inspection, hinspect, rfl⟩, hwaited⟩
    · split_ifs
      · exact ⟨rfl, fun items h => by cases h⟩
      · exact ⟨rfl, fun items h => by cases h⟩
  | succ left ih =>
    intro n hwaited
    unfold waitForMedia
    split
    · next inspection hinspect =>
      refine ⟨0, Nat.zero_le _, rfl, fun items h => ?_⟩
      cases h
      exact ⟨⟨inspection, hinspect, rfl⟩, hwaited⟩
    · next err hinspect =>
      split_ifs with hfatal
      · exact ⟨0, Nat.zero_le _, rfl, fun items h => by cases h⟩
      · cases hwait : answers.wait n with
        | some cause => exact ⟨0, Nat.zero_le _, rfl, fun items h => by cases h⟩
        | none =>
          -- this attempt joins those before it, and the others go on from here
          have hyet : err.is .notReady = true ∨ err.is .notFound = true := by
            by_contra hnot
            exact hfatal (not_or.1 hnot)
          obtain ⟨k, hk, hcalls, hready⟩ := ih (n + 1) (by
            intro i hi
            rcases Nat.lt_succ_iff_lt_or_eq.1 hi with hlt | rfl
            · exact hwaited i hlt
            · exact ⟨err, hinspect, hyet, hwait⟩)
          refine ⟨k + 1, Nat.succ_le_succ hk, ?_, fun items h => ?_⟩
          · rw [List.replicate_succ, ← hcalls]
            rfl
          · have := hready items h
            rwa [Nat.add_right_comm, Nat.add_assoc] at this

omit [LetterTables] in
variable (answers request) in
/-- What publishing returns. -/
theorem publishResult_result (media : AcquiredMedia) :
    (publishResult answers media).calls = [.publishAcquired media] ∧
      (answers.publishAcquired = none ∧ (publishResult answers media).result = .ok media ∨
        answers.publishAcquired ≠ none ∧ ∃ err, (publishResult answers media).result = .error err ∧
          AmbiguousError request err) := by
  have htext : "publish acquired media" ∈ acquireTexts := by decide
  unfold publishResult
  cases hpublish : answers.publishAcquired with
  | none => exact ⟨rfl, Or.inl ⟨rfl, rfl⟩⟩
  | some cause =>
    cases answers.contextAfter with
    | none =>
      refine ⟨rfl, Or.inr ⟨by simp, _, rfl, ?_⟩⟩
      exact ambiguousMutationError_told htext _
    | some cause =>
      refine ⟨rfl, Or.inr ⟨by simp, _, rfl, ?_⟩⟩
      exact ambiguousMutationError_told htext _

/-- The files of the object give media to publish, or an error that is marked. -/
theorem publishSelected_cases (answers : Answers) (sorter : Sorter MediaCandidate)
    (validated : SearchRequest) (release : Release) (items : List MediaCandidate) :
    (∃ action err, action ∈ acquireTexts ∧ publishSelected answers sorter validated release items =
        ⟨[], .error (ambiguousMutationError action err)⟩) ∨
      ∃ selected media, selectCandidate sorter validated items = .ok selected ∧
        newAcquiredMedia validated release selected = .ok media ∧
        publishSelected answers sorter validated release items = publishResult answers media := by
  unfold publishSelected
  cases hselected : selectCandidate sorter validated items with
  | error message => exact Or.inl ⟨_, _, by decide, rfl⟩
  | ok selected =>
    simp only
    cases hmedia : newAcquiredMedia validated release selected with
    | error message => exact Or.inl ⟨_, ⟨errNoPlayableMedia, _⟩, by decide, rfl⟩
    | ok media => exact Or.inr ⟨selected, media, rfl, hmedia, rfl⟩

/-- An `Acquire` that has created its object. -/
theorem finishCreated_case (hcached : Cached answers request validated preferred release)
    (hcreate : answers.createCachedTorrent = .ok created) :
    AcquireCase options answers sorter request
      ((finishCreated options answers sorter validated release created).after
        (creationCalls validated preferred release)) := by
  obtain ⟨k, hk, hcalls, hready⟩ := waitForMedia_calls answers created
    (options.inspectionAttempts - 1) 0 fun i hi => absurd hi (Nat.not_lt_zero i)
  have hattempts : k + 1 ≤ options.inspectionAttempts := by
    have := options.attempts_pos
    omega
  -- every other end after the wait is an error that is marked
  have hfailed : ∀ action err, action ∈ acquireTexts → AcquireCase options answers sorter request
      (Acquired.after (creationCalls validated preferred release)
        ⟨List.replicate (k + 1) (.inspectCreatedTorrent created),
          .error (ambiguousMutationError action err)⟩) :=
    fun action err haction => .inspected hcached hcreate hattempts (ambiguousMutationError_told haction err)
  simp only [finishCreated]
  cases hwaited : (waitForMedia answers created (options.inspectionAttempts - 1) 0).result with
  | error err =>
    rw [hcalls]
    exact hfailed _ err (by decide)
  | ok items =>
    rw [hcalls]
    rcases publishSelected_cases answers sorter validated release items with
      ⟨action, err, haction, heq⟩ | ⟨selected, media, hselected, hmedia, heq⟩
    · simp only [heq, Acquired.after, List.append_nil]
      exact hfailed action err haction
    · obtain ⟨hcalls, hresult⟩ := publishResult_result answers request media
      have hat := hready items hwaited
      rw [Nat.zero_add] at hat
      simp only [heq, Acquired.after, hcalls, ← List.append_assoc]
      exact .published hcached hcreate (Nat.lt_of_succ_le hattempts) hat hselected hmedia hresult

/-- An `Acquire` whose release is in the cache. -/
theorem createSelected_case (hcached : Cached answers request validated preferred release) :
    AcquireCase options answers sorter request
      ((createSelected options answers sorter validated release).after
        [.search validated, .cachedTorrents [preferred]]) := by
  have htext : "create cached acquisition object" ∈ acquireTexts := by decide
  unfold createSelected
  cases hcreate : answers.createCachedTorrent with
  | error cause =>
    by_cases hunauthorized : cause.is .unauthorized = true
    · simp only [if_pos hunauthorized]
      exact .rejected hcached hcreate hunauthorized (publicBoundaryError_plain htext cause)
    · simp only [if_neg hunauthorized]
      exact .failed hcached hcreate (Bool.eq_false_iff.2 hunauthorized)
        (ambiguousMutationError_told htext cause)
  | ok created => exact finishCreated_case hcached hcreate

/-- Every `Acquire` ends in one of the ways. -/
theorem acquire_case (options : Options) (answers : Answers) (sorter : Sorter MediaCandidate)
    (request : SearchRequest) :
    AcquireCase options answers sorter request (acquire options answers sorter request) := by
  unfold acquire
  cases answers.contextBefore with
  | some cause =>
    have hcause : contextCause cause ≠ .ambiguousMutation ∧ [contextCause cause] ⊆ acquireCauses := by
      cases cause <;> decide
    refine .refused ⟨?_, Or.inl (by simp [acquireTexts]), hcause.2⟩
    simp [AcquireError.is, hcause.1.symm]
  | none =>
    cases hvalid : validateRequest request with
    | error err =>
      have hnone := validateRequest_causes hvalid
      refine .refused ⟨?_, Or.inr hvalid, ?_⟩
      · simp [AcquireError.is, hnone]
      · rw [hnone]
        exact List.nil_subset _
    | ok validated =>
      cases hsearch : answers.search with
      | error err => exact .searched hvalid (publicBoundaryError_plain (by decide) err)
      | ok releases =>
        simp only
        cases hfound : preferredRelease releases with
        | none => exact .searched hvalid ⟨rfl, Or.inl (by decide), by decide⟩
        | some preferred =>
          have hpreferred : Preferred answers request validated preferred :=
            ⟨hvalid, releases, hsearch, hfound⟩
          have hnone : PlainError request errNotCached := ⟨rfl, Or.inl (by decide), by decide⟩
          simp only [checkCache]
          cases hcached : answers.cachedTorrents with
          | error err => exact .checked hpreferred (publicBoundaryError_plain (by decide) err)
          | ok found =>
            cases found with
            | nil => exact .checked hpreferred hnone
            | cons cached others =>
              by_cases hother : cached.protocol ≠ preferred.protocol ∨
                  cached.infoHash ≠ preferred.infoHash
              · simp only [if_pos hother]
                exact .checked hpreferred hnone
              · simp only [if_neg hother]
                obtain ⟨hprotocol, hhash⟩ := not_or.1 hother
                exact createSelected_case ⟨hpreferred, ⟨others, hcached⟩,
                  not_not.1 hprotocol, not_not.1 hhash⟩

end Cases

/-! ## What an `Acquire` does -/

/-- All the calls that an `Acquire` can make, when it inspects `k` times. -/
def allCalls (validated : SearchRequest) (preferred release : Release) (created : CreatedObject)
    (k : ℕ) (media : AcquiredMedia) : List AcquireCall :=
  creationCalls validated preferred release ++
    List.replicate k (.inspectCreatedTorrent created) ++ [.publishAcquired media]

/-- The release is the first torrent that the search has found, as the cache of the provider has it. -/
def Creates (answers : Answers) (release : Release) : Prop :=
  ∃ releases preferred others, answers.search = .ok releases ∧
    preferredRelease releases = some preferred ∧ answers.cachedTorrents = .ok (release :: others) ∧
    release.protocol = .torrent ∧ release.infoHash = preferred.infoHash ∧ release.infoHash ≠ ""

/-- The media are of the best file of the created object, once it was ready. -/
def Publishes (options : Options) (answers : Answers) (request : SearchRequest) (release : Release)
    (media : AcquiredMedia) : Prop :=
  ∃ validated n items selected, validateRequest request = .ok validated ∧
    n < options.inspectionAttempts ∧ ReadyAt answers n items ∧
    BestSelectable validated items selected ∧ newAcquiredMedia validated release selected = .ok media

/-- The account of the provider, or what is published, may have changed. -/
def MayHaveMutated (answers : Answers) (calls : List AcquireCall) : Prop :=
  (∃ release, .createCachedTorrent release ∈ calls) ∧
    ∀ cause, answers.createCachedTorrent = .error cause → cause.is .unauthorized = false

/-- What is to hold of the calls and the result of an `Acquire`. -/
structure AcquireSafe (options : Options) (answers : Answers) (request : SearchRequest)
    (m : Acquired AcquiredMedia) : Prop where
  order : ∃ validated preferred release created media, ∃ k ≤ options.inspectionAttempts,
    m.calls <+: allCalls validated preferred release created k media
  creates : ∀ release, .createCachedTorrent release ∈ m.calls → Creates answers release
  publishes : ∀ media, .publishAcquired media ∈ m.calls → ∃ release,
    .createCachedTorrent release ∈ m.calls ∧ Publishes options answers request release media
  succeeds : ∀ media, m.result = .ok media ↔
    .publishAcquired media ∈ m.calls ∧ answers.publishAcquired = none
  ambiguous : ∀ err, m.result = .error err →
    (err.is .ambiguousMutation = true ↔ MayHaveMutated answers m.calls)
  told : ∀ err, m.result = .error err → Told request err

section Safe

variable {options : Options} {answers : Answers} {sorter : Sorter MediaCandidate}
  {request validated : SearchRequest} {preferred release : Release} {created : CreatedObject}

omit [LetterTables] in
theorem Cached.creates (h : Cached answers request validated preferred release) :
    Creates answers release := by
  obtain ⟨releases, hsearch, hfound⟩ := h.found
  obtain ⟨others, hcached⟩ := h.cached
  have hwanted := List.find?_some hfound
  simp only [Bool.and_eq_true, decide_eq_true_eq] at hwanted
  refine ⟨releases, preferred, others, hsearch, hfound, hcached, ?_, h.infoHash, ?_⟩
  · rw [h.protocol, hwanted.1]
  · rw [h.infoHash]
    exact hwanted.2

/-- A list of calls without a creation is safe with an error that is not marked. -/
theorem acquireSafe_plain {calls : List AcquireCall} {err : AcquireError}
    (hcalls : ∃ validated preferred, calls <+: [.search validated, .cachedTorrents [preferred]])
    (herr : PlainError request err) : AcquireSafe options answers request ⟨calls, .error err⟩ := by
  obtain ⟨validated, preferred, hprefix⟩ := hcalls
  have hnone : ∀ release, .createCachedTorrent release ∉ calls := by
    intro release hmem
    simpa using hprefix.subset hmem
  have hquiet : ∀ media, .publishAcquired media ∉ calls := by
    intro media hmem
    simpa using hprefix.subset hmem
  refine ⟨?_, fun release h => absurd h (hnone release), fun media h => absurd h (hquiet media),
    fun media => ⟨fun h => (by cases h), fun h => absurd h.1 (hquiet media)⟩, ?_, ?_⟩
  · refine ⟨validated, preferred, .zero, ⟨⟨"", ""⟩⟩, ⟨validated, .zero, ⟨"", "", "", "", 0⟩⟩, 0,
      Nat.zero_le _, hprefix.trans ?_⟩
    exact ⟨_, rfl⟩
  · intro e h
    cases h
    rw [herr.plain]
    exact iff_of_false (by simp) fun h => hnone _ h.1.choose_spec
  · intro e h
    cases h
    exact herr.told

variable (options created) in
/-- The calls from the creation on are safe when nothing is published. -/
theorem acquireSafe_created {k : ℕ} {err : AcquireError} (hk : k ≤ options.inspectionAttempts)
    (hcached : Cached answers request validated preferred release) (htold : Told request err)
    (hmarked : err.is .ambiguousMutation = true ↔
      ∀ cause, answers.createCachedTorrent = .error cause → cause.is .unauthorized = false) :
    AcquireSafe options answers request
      ⟨creationCalls validated preferred release ++
        List.replicate k (.inspectCreatedTorrent created), .error err⟩ := by
  have hmem : ∀ r, .createCachedTorrent r ∈ creationCalls validated preferred release ++
      List.replicate k (.inspectCreatedTorrent created) ↔ r = release := by
    intro r
    simp [creationCalls]
  have hquiet : ∀ media, .publishAcquired media ∉ creationCalls validated preferred release ++
      List.replicate k (.inspectCreatedTorrent created) := by
    intro media
    simp [creationCalls]
  refine ⟨?_, ?_, fun media h => absurd h (hquiet media),
    fun media => ⟨fun h => (by cases h), fun h => absurd h.1 (hquiet media)⟩, ?_, ?_⟩
  · exact ⟨validated, preferred, release, created, ⟨validated, .zero, ⟨"", "", "", "", 0⟩⟩, k, hk,
      List.prefix_append _ _⟩
  · intro r h
    rw [(hmem r).1 h]
    exact hcached.creates
  · intro e h
    cases h
    rw [hmarked]
    exact ⟨fun h => ⟨⟨release, (hmem release).2 rfl⟩, h⟩, fun h => h.2⟩
  · intro e h
    cases h
    exact htold

/-- An `Acquire` calls in one order, each thing at most once but the inspections. It creates an object
for the first torrent that the search has found, if the provider has it in its cache, and publishes the
best file of it. It succeeds exactly if what it publishes is published; and its error is marked exactly
if the account or the manifest may have changed. No text of a provider is in an error. -/
theorem acquire_calls (options : Options) (answers : Answers) (sorter : Sorter MediaCandidate)
    (request : SearchRequest) :
    AcquireSafe options answers request (acquire options answers sorter request) := by
  have hcase := acquire_case options answers sorter request
  generalize acquire options answers sorter request = m at hcase ⊢
  cases hcase with
  | refused herr => exact acquireSafe_plain ⟨request, .zero, List.nil_prefix⟩ herr
  | searched hvalid herr => exact acquireSafe_plain ⟨_, .zero, ⟨_, rfl⟩⟩ herr
  | checked hpreferred herr => exact acquireSafe_plain ⟨_, _, List.prefix_rfl⟩ herr
  | rejected hcached hcreate hunauthorized herr =>
    have hsafe := acquireSafe_created options ⟨⟨"", ""⟩⟩ (Nat.zero_le _)
      hcached herr.told
    rw [List.replicate_zero, List.append_nil] at hsafe
    apply hsafe
    rw [herr.plain]
    refine iff_of_false (by simp) fun h => ?_
    rw [h _ hcreate] at hunauthorized
    cases hunauthorized
  | failed hcached hcreate hunauthorized herr =>
    have hsafe := acquireSafe_created options ⟨⟨"", ""⟩⟩ (Nat.zero_le _)
      hcached herr.told
    rw [List.replicate_zero, List.append_nil] at hsafe
    apply hsafe
    refine iff_of_true herr.ambiguous fun cause h => ?_
    rw [hcreate] at h
    cases h
    exact hunauthorized
  | inspected hcached hcreate hk herr =>
    apply acquireSafe_created options _ hk hcached herr.told
    refine iff_of_true herr.ambiguous fun cause h => ?_
    rw [hcreate] at h
    cases h
  | @published validated preferred release created n items selected media result hcached hcreate hn
      hready hselected hmedia hresult =>
    have hmem : ∀ r, .createCachedTorrent r ∈ creationCalls validated preferred release ++
        List.replicate (n + 1) (.inspectCreatedTorrent created) ++ [.publishAcquired media] ↔
          r = release := by
      intro r
      simp [creationCalls]
    have hmedia' : ∀ m, .publishAcquired m ∈ creationCalls validated preferred release ++
        List.replicate (n + 1) (.inspectCreatedTorrent created) ++ [.publishAcquired media] ↔
          m = media := by
      intro m
      simp [creationCalls]
    refine ⟨⟨validated, preferred, release, created, media, n + 1, hn, List.prefix_rfl⟩, ?_, ?_, ?_,
      ?_, ?_⟩
    · intro r h
      rw [(hmem r).1 h]
      exact hcached.creates
    · intro m h
      rw [(hmedia' m).1 h]
      exact ⟨release, (hmem release).2 rfl, validated, n, items, selected, hcached.valid, hn, hready,
        selectCandidate_best hselected, hmedia⟩
    · intro m
      rw [hmedia' m]
      rcases hresult with ⟨hnone, rfl⟩ | ⟨hsome, err, rfl, -⟩
      · exact ⟨fun h => ⟨(Except.ok.inj h).symm, hnone⟩, fun h => by rw [h.1]⟩
      · exact ⟨fun h => (by cases h), fun h => absurd h.2 hsome⟩
    · intro e h
      rcases hresult with ⟨-, rfl⟩ | ⟨-, err, rfl, herr⟩
      · cases h
      · cases h
        refine iff_of_true herr.ambiguous ⟨⟨release, (hmem release).2 rfl⟩, fun cause h => ?_⟩
        rw [hcreate] at h
        cases h
    · intro e h
      rcases hresult with ⟨-, rfl⟩ | ⟨-, err, rfl, herr⟩
      · cases h
      · cases h
        exact herr.told

end Safe

/-! ## The coordinator -/

/-- What a `Coordinator.Acquire` is answered: the saved settings and the saved token, whether the
factories make providers of them, and what these providers answer. -/
structure CoordinatorAnswers (σ τ : Type) where
  contextBefore : Option ContextError := none
  loadSettings : Except AcquireError σ
  loadToken : Except AcquireError τ
  searchFactory : σ → Bool
  gatewayFactory : τ → Bool
  providers : σ → τ → Answers

/-- `Coordinator.Acquire`. -/
def coordinate {σ τ : Type} (options : Options) (answers : CoordinatorAnswers σ τ)
    (sorter : Sorter MediaCandidate) (request : SearchRequest) : Acquired AcquiredMedia :=
  match answers.contextBefore with
  | some cause => ⟨[], .error ⟨"coordinate acquisition", [contextCause cause]⟩⟩
  | none =>
      match answers.loadSettings with
      | .error err =>
          if err.is .notFound then ⟨[], .error ⟨"not configured", [.notConfigured]⟩⟩
          else ⟨[], .error ⟨"load acquisition search settings", [.unavailable]⟩⟩
      | .ok settings =>
          match answers.loadToken with
          | .error _ => ⟨[], .error ⟨"load acquisition account credentials", [.unavailable]⟩⟩
          | .ok token =>
              if answers.searchFactory settings = false then
                ⟨[], .error ⟨"construct acquisition search provider", [.unavailable]⟩⟩
              else if answers.gatewayFactory token = false then
                ⟨[], .error ⟨"construct cached acquisition provider", [.unavailable]⟩⟩
              else acquire options (answers.providers settings token) sorter request

/-- The providers are those of what is saved. -/
structure Coordinates {σ τ : Type} (options : Options) (answers : CoordinatorAnswers σ τ)
    (request : SearchRequest) (settings : σ) (token : τ) (m : Acquired AcquiredMedia) : Prop where
  loaded : answers.loadSettings = .ok settings ∧ answers.loadToken = .ok token
  safe : AcquireSafe options (answers.providers settings token) request m

/-- A coordinator calls nothing and returns an error that is not marked, or it runs one `Acquire` with
the providers of the saved settings and of the saved token. It says that the search is not configured
exactly when there are no saved settings. -/
theorem coordinate_calls {σ τ : Type} (options : Options) (answers : CoordinatorAnswers σ τ)
    (sorter : Sorter MediaCandidate) (request : SearchRequest) :
    ((∃ settings token, Coordinates options answers request settings token
        (coordinate options answers sorter request)) ∨
      (coordinate options answers sorter request).calls = [] ∧
        ∃ err, (coordinate options answers sorter request).result = .error err ∧
          err.is .ambiguousMutation = false) ∧
    ((∃ err, (coordinate options answers sorter request).result = .error err ∧
        err.is .notConfigured = true) ↔
      answers.contextBefore = none ∧
        ∃ err, answers.loadSettings = .error err ∧ err.is .notFound = true) := by
  have hquiet : ∀ (err : AcquireError), err.is .ambiguousMutation = false →
      (∃ e, (Except.error err : Except AcquireError AcquiredMedia) = .error e ∧
        e.is .ambiguousMutation = false) := fun err h => ⟨err, rfl, h⟩
  have hother : ∀ (err : AcquireError), err.is .notConfigured = false →
      ¬ ∃ e, (Except.error err : Except AcquireError AcquiredMedia) = .error e ∧
        e.is .notConfigured = true := by
    rintro err h ⟨e, he, hconfigured⟩
    cases he
    rw [h] at hconfigured
    cases hconfigured
  unfold coordinate
  cases hcontext : answers.contextBefore with
  | some cause =>
    refine ⟨Or.inr ⟨rfl, hquiet _ (by cases cause <;> rfl)⟩, ?_⟩
    exact iff_of_false (hother _ (by cases cause <;> rfl)) fun h => by cases h.1
  | none =>
    simp only [true_and]
    cases hsettings : answers.loadSettings with
    | error err =>
      simp only
      split_ifs with hmissing
      · refine ⟨Or.inr ⟨rfl, hquiet _ rfl⟩, iff_of_true ⟨_, rfl, rfl⟩ ⟨err, rfl, hmissing⟩⟩
      · refine ⟨Or.inr ⟨rfl, hquiet _ rfl⟩, iff_of_false (hother _ rfl) ?_⟩
        rintro ⟨e, he, h⟩
        cases he
        exact hmissing h
    | ok settings =>
      -- from here on the settings are there
      have hsaved : ¬ ∃ e, (Except.ok settings : Except AcquireError σ) = .error e ∧
          e.is .notFound = true := by
        rintro ⟨e, he, _⟩
        cases he
      dsimp only
      cases htoken : answers.loadToken with
      | error err => exact ⟨Or.inr ⟨rfl, hquiet _ rfl⟩, iff_of_false (hother _ rfl) hsaved⟩
      | ok token =>
        dsimp only
        by_cases hsearch : answers.searchFactory settings = false
        · rw [if_pos hsearch]
          exact ⟨Or.inr ⟨rfl, hquiet _ rfl⟩, iff_of_false (hother _ rfl) hsaved⟩
        · rw [if_neg hsearch]
          by_cases hgateway : answers.gatewayFactory token = false
          · rw [if_pos hgateway]
            exact ⟨Or.inr ⟨rfl, hquiet _ rfl⟩, iff_of_false (hother _ rfl) hsaved⟩
          · rw [if_neg hgateway]
            have hsafe := acquire_calls options (answers.providers settings token) sorter request
            refine ⟨Or.inl ⟨settings, token, ⟨hsettings, htoken⟩, hsafe⟩, iff_of_false ?_ hsaved⟩
            rintro ⟨err, herr, hconfigured⟩
            have hmem := (hsafe.told err herr).causes (of_decide_eq_true hconfigured)
            revert hmem
            decide

end Acquire

end BlackPearl.Acquisition
