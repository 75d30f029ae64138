import BlackPearl.HttpRange.Sources
import BlackPearl.Torbox.LinkSafety

/-!
# Concurrent calls as single ones

What a call of the gateway returns, however it was interleaved with others, is what the function of a
single call returns for the answers that it got: `openTorrentFile` for an `Open`, `readAt` for a `ReadAt`
(`calls_follow`). So what is known of these functions holds of every call of every run. A read whose link
is refused goes on with a link that the provider has sent after that (`refreshed_link_newer`).
-/

set_option autoImplicit false

namespace BlackPearl.Torbox

open BlackPearl.Library BlackPearl.Domain BlackPearl.Acquisition BlackPearl.HttpRange

section Calls

variable [TextTables] {options : GatewayOptions} {s t : GatewayState}

/-! ## Opening -/

/-- The metadata of an `Open` has been loaded. -/
structure Loaded (token : String) (opening : Opening) (file : LinkedFile) : Prop where
  asked : Asked opening.answers opening.backing file.identifier
  metadata : loadMetadata token opening.answers.metadata file.identifier = .ok file.metadata

/-- The first link of an `Open` has been refused. -/
structure Refused (opening : Opening) (file : LinkedFile) : Prop where
  expired : ∃ url, downloadURL false opening.answers.link = .ok (url, false) ∧
    (validateDownload opening.answers.validation url file.metadata.size).expired = true

/-- What is known of the answers of an `Open` in each phase. -/
def Opening.Follows (token : String) (opening : Opening) : Prop :=
  match opening.phase with
  | .loading identifier | .requesting identifier => Asked opening.answers opening.backing identifier
  | .linking file force | .awaiting file force _ =>
      Loaded token opening file ∧ (force = true → Refused opening file)
  | .validating file url false =>
      Loaded token opening file ∧ downloadURL false opening.answers.link = .ok (url, false)
  | .validating file url true => Loaded token opening file ∧ Refused opening file ∧
      ∃ cached, downloadURL true opening.answers.forced = .ok (url, cached)
  | .invalidating file _ => Loaded token opening file ∧ Refused opening file
  | .caching file url => Loaded token opening file ∧
      openLinked opening.answers file.metadata = .ok (newSource file.metadata url)
  | .returned result => openTorrentFile token opening.answers opening.backing = result

/-- After the metadata, an `Open` returns what the rest of it does. -/
theorem Loaded.openTorrentFile {token : String} {opening : Opening} {file : LinkedFile}
    (h : Loaded token opening file) : openTorrentFile token opening.answers opening.backing =
      openLinked opening.answers file.metadata := by
  rw [h.asked.openTorrentFile, h.metadata]
  rfl

/-- An `Open` whose call of `downloadURL` fails. -/
theorem openLinked_link_error {answers : OpenAnswers} {metadata : FileMetadata} {e : Failure}
    (hlink : downloadURL false answers.link = .error e) : openLinked answers metadata = .error e := by
  simp only [openLinked, hlink]

/-- An `Open` that has its link from the cache. -/
theorem openLinked_cached {answers : OpenAnswers} {metadata : FileMetadata} {url : String}
    (hlink : downloadURL false answers.link = .ok (url, true)) :
    openLinked answers metadata = .ok (newSource metadata url) := by
  simp only [openLinked, hlink]

/-- An `Open` whose first link is not refused. -/
theorem openLinked_fresh {answers : OpenAnswers} {metadata : FileMetadata} {url : String}
    (hlink : downloadURL false answers.link = .ok (url, false))
    (hfresh : (validateDownload answers.validation url metadata.size).expired ≠ true) :
    openLinked answers metadata = validated metadata answers.validation url := by
  simp only [openLinked, hlink, if_neg hfresh]

/-- An `Open` whose first link is refused asks for another one. -/
theorem Refused.openLinked {opening : Opening} {file : LinkedFile} (h : Refused opening file) :
    openLinked opening.answers file.metadata =
      downloadURL true opening.answers.forced >>= fun link =>
        validated file.metadata opening.answers.again link.1 := by
  obtain ⟨url, hlink, hexpired⟩ := h.expired
  simp only [Torbox.openLinked, hlink, if_pos hexpired]
  cases downloadURL true opening.answers.forced <;> rfl

/-- Where a call of a table is after a step. -/
def OpensFollow (token : String) (s : GatewayState) : Prop :=
  ∀ id opening, s.opens.lookup id = some opening → opening.Follows token

theorem OpensFollow.setOpen {token : String} {id : ℕ} {opening : Opening} (h : OpensFollow token s)
    (hfollows : opening.Follows token) : OpensFollow token (s.setOpen id opening) := by
  intro id' opening' hlookup
  rw [GatewayState.setOpen, Table.lookup_insert] at hlookup
  split at hlookup
  · cases hlookup
    exact hfollows
  · exact h id' opening' hlookup

theorem startOpening_follows (token : String) (before : Option ContextError) (backing : BackingRef) :
    Opening.Follows token ⟨backing, .none before, startOpening before backing⟩ := by
  cases before with
  | some e => simp only [Opening.Follows, startOpening, openTorrentFile, OpenAnswers.none]
  | none =>
    by_cases hprovider : backing.provider = providerName
    · cases hparse : parseObjectID backing.objectID with
      | error e =>
        simp only [Opening.Follows, startOpening, hprovider, ne_eq, not_true, if_false, hparse,
          openTorrentFile, OpenAnswers.none]
        rfl
      | ok identifier =>
        simp only [Opening.Follows, startOpening, hprovider, ne_eq, not_true, if_false, hparse]
        exact ⟨rfl, hprovider, hparse⟩
    · simp only [Opening.Follows, startOpening, ne_eq, hprovider, not_false_eq_true, if_true,
        openTorrentFile, OpenAnswers.none]

omit [TextTables] in
/-- A link that is asked for by force does not come from the cache. -/
theorem startLink_cached {file : LinkedFile} {force : Bool} {url : String}
    (h : startLink s file force = (t, .cached url)) : force = false := by
  cases force with
  | false => rfl
  | true => cases h

omit [TextTables] in
theorem downloadURL_fresh {force cached : Bool} {wait : LinkWait} {url : String}
    (h : downloadURL force ⟨none, wait⟩ = .ok (url, cached)) : cached = false := by
  cases wait with
  | done e => cases force <;> cases h
  | resolved result => cases result <;> cases force <;> cases h <;> rfl

/-- What a call was answered later changes nothing of its metadata. -/
theorem Loaded.later {token : String} {opening later : Opening} {file : LinkedFile}
    (h : Loaded token opening file) (hbacking : later.backing = opening.backing)
    (hbefore : later.answers.before = opening.answers.before)
    (hmetadata : later.answers.metadata = opening.answers.metadata) : Loaded token later file := by
  refine ⟨⟨hbefore.trans h.asked.live, ?_, ?_⟩, ?_⟩
  · rw [hbacking]
    exact h.asked.provider
  · rw [hbacking]
    exact h.asked.file
  · rw [hmetadata]
    exact h.metadata

theorem Refused.later {opening later : Opening} {file : LinkedFile} (h : Refused opening file)
    (hlink : later.answers.link = opening.answers.link)
    (hvalidation : later.answers.validation = opening.answers.validation) : Refused later file := by
  obtain ⟨url, hurl, hexpired⟩ := h.expired
  exact ⟨url, by rw [hlink, hurl], by rw [hvalidation, hexpired]⟩

/-- An `Open` whose last call fails returns its error. -/
theorem Loaded.returned {token : String} {opening : Opening} {file : LinkedFile}
    {result : Except Failure Source} (h : Loaded token opening file)
    (hlinked : openLinked opening.answers file.metadata = result) :
    Opening.Follows token { opening with phase := .returned result } := by
  have hopen := h.openTorrentFile
  rw [hlinked] at hopen
  exact hopen

theorem loadMetadataStep_follows {token : String} {id : ℕ} {opening : Opening} {identifier : ObjectID}
    (h : OpensFollow token s) (hasked : Asked opening.answers opening.backing identifier) :
    OpensFollow token (loadMetadataStep s id opening identifier) := by
  unfold loadMetadataStep
  split
  · next metadata hload =>
    refine h.setOpen ⟨⟨?_, rfl⟩, fun hforce => absurd hforce (by decide)⟩
    exact ⟨hasked.live, hasked.provider, hasked.file⟩
  · exact h.setOpen hasked

theorem requestMetadataStep_follows {id : ℕ} {opening : Opening} {identifier : ObjectID}
    {answers : MetadataAnswers} (h : OpensFollow options.token s)
    (hasked : Asked opening.answers opening.backing identifier) :
    OpensFollow options.token (requestMetadataStep options s id opening identifier answers) := by
  have hasked' : Asked { opening.answers with metadata := answers } opening.backing identifier :=
    ⟨hasked.live, hasked.provider, hasked.file⟩
  unfold requestMetadataStep
  dsimp only
  split
  · next e hload =>
    refine h.setOpen ?_
    show openTorrentFile options.token { opening.answers with metadata := answers } opening.backing = _
    rw [hasked'.openTorrentFile, hload]
    rfl
  · next metadata hload =>
    refine OpensFollow.setOpen (s := s) h ?_
    exact ⟨⟨hasked', hload⟩, fun hforce => absurd hforce (by decide)⟩

theorem linkOpenStep_follows {token : String} {id : ℕ} {opening : Opening} {file : LinkedFile}
    {force : Bool} (h : OpensFollow token s) (hloaded : Loaded token opening file)
    (hrefused : force = true → Refused opening file) :
    OpensFollow token (linkOpenStep s id opening file force) := by
  have hopens : (startLink s file force).1.opens = s.opens := by
    unfold startLink
    split <;> rfl
  unfold linkOpenStep
  split
  · next s' url heq =>
    have hforce := startLink_cached heq
    subst hforce
    rw [heq] at hopens
    let later : Opening := { opening with
      answers := opening.answers.setLink false { LinkAnswers.none with cached := some url } }
    have hloaded' : Loaded token later file := hloaded.later rfl rfl rfl
    have hreturned := hloaded'.returned (openLinked_cached rfl)
    intro id' opening' hlookup
    simp only [returnSource, Table.lookup_insert] at hlookup
    split at hlookup
    · cases hlookup
      exact hreturned
    · exact h id' opening' (hopens ▸ hlookup)
  · next s' call heq =>
    rw [heq] at hopens
    refine OpensFollow.setOpen (s := s') (fun id' opening' hlookup => ?_) ⟨?_, ?_⟩
    · exact h id' opening' (hopens ▸ hlookup)
    · exact hloaded.later rfl rfl rfl
    · exact fun hforce => (hrefused hforce).later rfl rfl

theorem wakeOpenStep_follows {token : String} {id : ℕ} {opening : Opening} {file : LinkedFile}
    {force : Bool} {wait : LinkWait} (h : OpensFollow token s) (hloaded : Loaded token opening file)
    (hrefused : force = true → Refused opening file) :
    OpensFollow token (wakeOpenStep s id opening file force wait) := by
  let later : Opening := { opening with answers := opening.answers.setLink force ⟨none, wait⟩ }
  have hloaded' : Loaded token later file := by
    cases force <;> exact hloaded.later rfl rfl rfl
  unfold wakeOpenStep
  dsimp only
  split
  · next e hlink =>
    refine h.setOpen (hloaded'.returned ?_)
    cases force with
    | false => exact openLinked_link_error hlink
    | true =>
      have hrefused' : Refused later file := (hrefused rfl).later rfl rfl
      have hforced : downloadURL true later.answers.forced = .error e := hlink
      rw [hrefused'.openLinked, hforced]
      rfl
  · next url cached hlink =>
    refine h.setOpen ?_
    cases force with
    | false =>
      have hcached := downloadURL_fresh hlink
      subst hcached
      exact ⟨hloaded'.later rfl rfl rfl, hlink⟩
    | true => exact ⟨hloaded'.later rfl rfl rfl, (hrefused rfl).later rfl rfl, cached, hlink⟩

/-- A link of an `Open` that is validated comes to a source, or to the error. -/
theorem validated_eq {metadata : FileMetadata} {validation : Validation} {url : String} :
    validated metadata validation url =
      match (validateDownload validation url metadata.size).err with
      | some e => .error e
      | none => .ok (newSource metadata url) := rfl

theorem validateOpenStep_follows {token : String} {id : ℕ} {opening : Opening} {file : LinkedFile}
    {url : String} {again : Bool} {validation : Validation} (h : OpensFollow token s)
    (hat : opening.phase = .validating file url again) (hfollows : opening.Follows token) :
    OpensFollow token (validateOpenStep s id opening file url again validation) := by
  let later : Opening := { opening with answers := opening.answers.setValidation again validation }
  have hopens : (acceptLink s validation url file.metadata.size).opens = s.opens :=
    (acceptLink_same _ _ _).opens
  have hset : ∀ {opening' : Opening}, opening'.Follows token →
      OpensFollow token ((acceptLink s validation url file.metadata.size).setOpen id opening') := by
    intro opening' hfollows'
    refine OpensFollow.setOpen (fun id' opening'' hlookup => ?_) hfollows'
    exact h id' opening'' (hopens ▸ hlookup)
  simp only [Opening.Follows, hat] at hfollows
  unfold validateOpenStep
  dsimp only
  cases again with
  | false =>
    obtain ⟨hloaded, hlink⟩ := hfollows
    have hloaded' : Loaded token later file := hloaded.later rfl rfl rfl
    have hlink' : downloadURL false later.answers.link = .ok (url, false) := hlink
    split
    · next hexpired => exact hset ⟨hloaded'.later rfl rfl rfl, ⟨url, hlink', hexpired.2⟩⟩
    · next hexpired =>
      have hfresh : (validateDownload later.answers.validation url file.metadata.size).expired ≠ true :=
        fun hexpired' => hexpired ⟨rfl, hexpired'⟩
      have hopen := openLinked_fresh hlink' hfresh
      rw [validated_eq] at hopen
      have herr : (validateDownload validation url file.metadata.size).err =
          (validateDownload later.answers.validation url file.metadata.size).err := rfl
      rw [herr]
      split
      · next e hfailed =>
        rw [hfailed] at hopen
        exact hset (hloaded'.returned hopen)
      · next haccepted =>
        rw [haccepted] at hopen
        exact hset ⟨hloaded'.later rfl rfl rfl, hopen⟩
  | true =>
    obtain ⟨hloaded, hrefused, cached, hlink⟩ := hfollows
    have hloaded' : Loaded token later file := hloaded.later rfl rfl rfl
    have hrefused' : Refused later file := hrefused.later rfl rfl
    have hlink' : downloadURL true later.answers.forced = .ok (url, cached) := hlink
    have hopen := hrefused'.openLinked
    have hbind : (downloadURL true later.answers.forced >>= fun link =>
        validated file.metadata later.answers.again link.1) =
          validated file.metadata later.answers.again url := by
      rw [hlink']
      rfl
    rw [hbind, validated_eq] at hopen
    have herr : (validateDownload validation url file.metadata.size).err =
        (validateDownload later.answers.again url file.metadata.size).err := rfl
    rw [if_neg (by simp), herr]
    split
    · next e hfailed =>
      rw [hfailed] at hopen
      exact hset (hloaded'.returned hopen)
    · next haccepted =>
      rw [haccepted] at hopen
      exact hset ⟨hloaded'.later rfl rfl rfl, hopen⟩

theorem openStep_follows {id : ℕ} {opening : Opening} {label : GatewayLabel}
    (h : OpensFollow options.token s) (hopening : s.opens.lookup id = some opening)
    (hstep : openStep options s id opening label = some t) : OpensFollow options.token t := by
  have hfollows := h id opening hopening
  cases label with
  | loadMetadata _ =>
    simp only [openStep] at hstep
    split at hstep <;> cases hstep
    next hat =>
      simp only [Opening.Follows, hat] at hfollows
      exact loadMetadataStep_follows h hfollows
  | requestMetadata _ joinPath exchange =>
    simp only [openStep] at hstep
    split at hstep <;> cases hstep
    next hat =>
      simp only [Opening.Follows, hat] at hfollows
      exact requestMetadataStep_follows h hfollows
  | linkOpen _ =>
    simp only [openStep] at hstep
    split at hstep <;> cases hstep
    next hat =>
      simp only [Opening.Follows, hat] at hfollows
      exact linkOpenStep_follows h hfollows.1 hfollows.2
  | wakeOpen _ done =>
    simp only [openStep] at hstep
    split at hstep
    · next hat =>
      obtain ⟨wait, -, rfl⟩ := Option.map_eq_some_iff.1 hstep
      simp only [Opening.Follows, hat] at hfollows
      exact wakeOpenStep_follows h hfollows.1 hfollows.2
    · cases hstep
  | validateOpen _ validation =>
    simp only [openStep] at hstep
    split at hstep <;> cases hstep
    next hat => exact validateOpenStep_follows h hat hfollows
  | invalidateOpen _ =>
    simp only [openStep] at hstep
    split at hstep <;> cases hstep
    next file url hat =>
      simp only [Opening.Follows, hat] at hfollows
      have hopens : (invalidateDownloadURL s file url).opens = s.opens := invalidateDownloadURL_same.opens
      refine OpensFollow.setOpen (fun id' opening' hlookup => h id' opening' (hopens ▸ hlookup)) ?_
      exact ⟨hfollows.1.later rfl rfl rfl, fun _ => hfollows.2.later rfl rfl⟩
  | cacheOpen _ =>
    simp only [openStep] at hstep
    split at hstep <;> cases hstep
    next file url hat =>
      simp only [Opening.Follows, hat] at hfollows
      have hreturned := hfollows.1.returned hfollows.2
      exact OpensFollow.setOpen (s := s) h hreturned
  | _ => cases hstep

/-! ## Reading -/

omit [TextTables] in
/-- A read that gets to its request. -/
theorem readAvailable_of_wanted {closed clipped : Bool} {size wanted offset : ℤ} {ctx : ReadContext}
    {destination : List UInt8}
    (h : readWanted closed size ctx destination offset = some (wanted, clipped)) (texts : SourceTexts)
    (read : ℤ → Bool → ReadResult) :
    readAvailable texts closed size ctx destination offset read = read wanted clipped := by
  unfold readWanted at h
  split at h
  · cases h
  · next hchecks =>
    simp only [not_or, Bool.not_eq_true, Option.isSome_eq_false_iff, Option.isNone_iff_eq_none] at hchecks
    obtain ⟨hbefore, hclosed, hlow, hempty, hbeyond⟩ := hchecks
    simp only [readAvailable, hbefore, hclosed, Bool.false_eq_true, if_false, if_neg hlow, if_neg hempty,
      if_neg hbeyond]
    split at h <;> cases h
    · next hclip => rw [if_pos hclip]
    · next hclip => rw [if_neg hclip]

omit [TextTables] in
/-- A read that does not get to its request ends as if the request did nothing. -/
theorem readAvailable_of_unwanted {closed : Bool} {size offset : ℤ} {ctx : ReadContext}
    {destination : List UInt8} (h : readWanted closed size ctx destination offset = none)
    (texts : SourceTexts) (read read' : ℤ → Bool → ReadResult) :
    readAvailable texts closed size ctx destination offset read =
      readAvailable texts closed size ctx destination offset read' := by
  unfold readWanted at h
  split at h
  · next hchecks =>
    unfold readAvailable
    cases hbefore : ctx.before with
    | some e => rfl
    | none =>
      dsimp only
      simp only [hbefore, Option.isSome_none, Bool.false_eq_true, false_or] at hchecks
      split
      · rfl
      split
      · rfl
      split
      · rfl
      split
      · rfl
      · next hclosed hlow hempty hbeyond =>
        rcases hchecks with hchecks | hchecks | hchecks | hchecks
        · exact absurd hchecks hclosed
        · exact absurd hchecks hlow
        · exact absurd hchecks hempty
        · exact absurd hchecks hbeyond
  · split at h <;> cases h

/-- What `readAt` returns for the answers of a read. -/
def Reading.result (reading : Reading) : ReadResult :=
  readAt reading.answers.source reading.ctx reading.answers.client reading.answers.again
    (refreshLink reading.answers.link reading.answers.validation reading.answers.source.size)
    reading.destination reading.offset

/-- The first request of a read. -/
def Reading.first (reading : Reading) : RangeResult :=
  readRange reading.answers.source reading.answers.client reading.answers.source.download reading.front
    reading.offset reading.wanted

/-- A read has got to its request. -/
def Reading.Begun (reading : Reading) : Prop :=
  readWanted reading.answers.source.closed reading.answers.source.size reading.ctx reading.destination
    reading.offset = some (reading.wanted, reading.clipped)

/-- The first request of a read has been refused. -/
structure Reading.Lost (reading : Reading) : Prop where
  begun : reading.Begun
  refused : reading.first.err.isSome ∧ refusedStatus reading.first.status = true

/-- A refused read has another link. -/
structure Reading.Refreshed (reading : Reading) (url : String) : Prop where
  lost : reading.Lost
  link : ∃ cached, downloadURL true reading.answers.link = .ok (url, cached)

/-- What is known of the answers of a `ReadAt` in each phase. -/
def Reading.Follows (reading : Reading) : Prop :=
  match reading.phase with
  | .requesting => reading.Begun
  | .linking | .awaiting _ => reading.Lost
  | .validating url => reading.Refreshed url
  | .caching url | .storing url | .again url => reading.Refreshed url ∧
      (validateDownload reading.answers.validation url reading.answers.source.size).err = none
  | .returned result => reading.result = result

theorem Reading.Begun.result {reading : Reading} (h : reading.Begun) : reading.result =
    (readRefreshed reading.answers.source reading.answers.client reading.answers.again
      (refreshLink reading.answers.link reading.answers.validation reading.answers.source.size)
      reading.destination reading.offset reading.wanted reading.clipped).1 := by
  unfold Reading.result readAt
  exact readAvailable_of_wanted h _ _

/-- A first request that is not refused ends the read. -/
theorem Reading.Begun.result_first {reading : Reading} (h : reading.Begun)
    (hkept : ¬ (reading.first.err.isSome ∧ refusedStatus reading.first.status = true)) :
    reading.result = finishRead reading.rest reading.clipped reading.first := by
  rw [h.result, readRefreshed]
  exact congrArg Prod.fst (if_neg hkept)

/-- After a refused request, the read goes on with the refreshed link. -/
theorem Reading.Lost.result {reading : Reading} (h : reading.Lost) {refresh : Refresh}
    (hrefresh : refreshLink reading.answers.link reading.answers.validation reading.answers.source.size =
      refresh) :
    reading.result =
      match refresh.downloadURL, refresh.validateDownload with
      | .error e, _ => failed reading.destination (.wrapped "refresh TorBox download link" e)
      | .ok _, some e =>
          failed reading.destination (.wrapped "validate refreshed TorBox download link" e)
      | .ok url, none => finishRead reading.rest reading.clipped
          (readRange reading.answers.source reading.answers.again url reading.front reading.offset
            reading.wanted) := by
  have hrefused := h.refused
  rw [h.begun.result, hrefresh, readRefreshed]
  simp only [Reading.first, Reading.front] at hrefused
  rw [if_pos hrefused]
  cases refresh.downloadURL with
  | error e => rfl
  | ok url => cases refresh.validateDownload <;> rfl

/-- What is refreshed, when the link has come. -/
theorem refreshLink_ok {link : LinkAnswers} {url : String} {cached : Bool} (validation : Validation)
    (size : ℤ) (h : downloadURL true link = .ok (url, cached)) :
    refreshLink link validation size = ⟨.ok url, (validateDownload validation url size).err⟩ := by
  simp only [refreshLink, h]
  rfl

/-- A range is asked for within the size of the source, and nothing else of it. -/
theorem readRange_size {a b : Source} (h : a.size = b.size) (client : Client) (url : String)
    (destination : List UInt8) (offset wanted : ℤ) :
    readRange a client url destination offset wanted = readRange b client url destination offset wanted := by
  simp only [readRange, h]

def ReadsFollow (s : GatewayState) : Prop :=
  ∀ id reading, s.reads.lookup id = some reading → reading.Follows

theorem ReadsFollow.setRead {id : ℕ} {reading : Reading} (h : ReadsFollow s) (hfollows : reading.Follows) :
    ReadsFollow (s.setRead id reading) := by
  intro id' reading' hlookup
  rw [GatewayState.setRead, Table.lookup_insert] at hlookup
  split at hlookup
  · cases hlookup
    exact hfollows
  · exact h id' reading' hlookup

theorem startReading_follows (source : ℕ) (opened : OpenedSource) (ctx : ReadContext)
    (destination : List UInt8) (offset : ℤ) :
    (startReading source opened ctx destination offset).Follows := by
  unfold startReading
  dsimp only
  split
  · next wanted clipped hwanted => exact hwanted
  · next hwanted =>
    show readAt _ _ _ _ _ _ _ = _
    exact readAvailable_of_unwanted hwanted _ _ _

theorem requestRangeStep_follows {id : ℕ} {reading : Reading} {source : Source} {client : Client}
    (h : ReadsFollow s) (hsize : reading.answers.source.size = source.size) (hbegun : reading.Begun) :
    ReadsFollow (requestRangeStep s id reading source client) := by
  have hbegun' : (reading.answered source client).Begun := hbegun
  have hfirst : readRange source client source.download (reading.answered source client).front
      (reading.answered source client).offset (reading.answered source client).wanted =
        (reading.answered source client).first := readRange_size hsize.symm _ _ _ _ _
  unfold requestRangeStep
  dsimp only
  rw [hfirst]
  split
  · next hrefused => exact h.setRead ⟨hbegun', hrefused⟩
  · next hkept => exact h.setRead (hbegun'.result_first hkept)

theorem wakeReadStep_follows {id : ℕ} {reading : Reading} {wait : LinkWait} (h : ReadsFollow s)
    (hlost : reading.Lost) : ReadsFollow (wakeReadStep s id reading wait) := by
  let later : Reading := { reading with answers := { reading.answers with link := ⟨none, wait⟩ } }
  have hlost' : later.Lost := ⟨hlost.begun, hlost.refused⟩
  unfold wakeReadStep
  dsimp only
  split
  · next e hlink =>
    refine h.setRead ?_
    have hlink' : downloadURL true later.answers.link = .error e := hlink
    have hrefresh : refreshLink later.answers.link later.answers.validation later.answers.source.size =
        ⟨.error e, none⟩ := by
      simp only [refreshLink, hlink']
      rfl
    exact hlost'.result hrefresh
  · next url cached hlink =>
    refine h.setRead ⟨⟨hlost.begun, hlost.refused⟩, cached, hlink⟩

theorem validateReadStep_follows {id : ℕ} {reading : Reading} {file : LinkedFile} {url : String}
    {validation : Validation} (h : ReadsFollow s)
    (hsize : reading.answers.source.size = file.metadata.size) (hrefreshed : reading.Refreshed url) :
    ReadsFollow (validateReadStep s id reading file url validation) := by
  let later : Reading := { reading with answers := { reading.answers with validation := validation } }
  have hlost : later.Lost := ⟨hrefreshed.lost.begun, hrefreshed.lost.refused⟩
  obtain ⟨cached, hlink⟩ := hrefreshed.link
  have hreads : ReadsFollow (acceptLink s validation url file.metadata.size) := by
    intro id' reading' hlookup
    exact h id' reading' ((acceptLink_same _ _ _).reads ▸ hlookup)
  have herr : (validateDownload validation url file.metadata.size).err =
      (validateDownload later.answers.validation url later.answers.source.size).err := by
    rw [← hsize]
  have hrefresh := refreshLink_ok later.answers.validation later.answers.source.size hlink
  unfold validateReadStep
  dsimp only
  rw [herr]
  split
  · next e hfailed =>
    refine hreads.setRead ?_
    rw [hfailed] at hrefresh
    exact hlost.result hrefresh
  · next haccepted => exact hreads.setRead ⟨⟨⟨hlost.begun, hlost.refused⟩, cached, hlink⟩, haccepted⟩

theorem requestAgainStep_follows {id : ℕ} {reading : Reading} {source : Source} {url : String}
    {client : Client} (h : ReadsFollow s) (hsize : reading.answers.source.size = source.size)
    (hrefreshed : reading.Refreshed url)
    (haccepted : (validateDownload reading.answers.validation url reading.answers.source.size).err = none) :
    ReadsFollow (requestAgainStep s id reading source url client) := by
  let later : Reading := reading.answeredAgain client
  have hlost : later.Lost := ⟨hrefreshed.lost.begun, hrefreshed.lost.refused⟩
  obtain ⟨cached, hlink⟩ := hrefreshed.link
  have hrefresh := refreshLink_ok later.answers.validation later.answers.source.size hlink
  have haccepted' : (validateDownload later.answers.validation url later.answers.source.size).err = none :=
    haccepted
  rw [haccepted'] at hrefresh
  have hresult := hlost.result hrefresh
  dsimp only at hresult
  have hagain : readRange source client url (reading.answeredAgain client).front
      (reading.answeredAgain client).offset (reading.answeredAgain client).wanted = readRange later.answers.source later.answers.again url later.front later.offset later.wanted :=
    readRange_size hsize.symm _ _ _ _ _
  unfold requestAgainStep
  dsimp only
  rw [hagain]
  exact h.setRead hresult

theorem readStep_follows {id : ℕ} {reading : Reading} {opened : OpenedSource} {label : GatewayLabel}
    (h : ReadsFollow s) (hreading : s.reads.lookup id = some reading)
    (hsize : reading.answers.source.size = opened.file.metadata.size)
    (hsource : opened.source.size = opened.file.metadata.size)
    (hstep : readStep options s id reading opened label = some t) : ReadsFollow t := by
  have hfollows := h id reading hreading
  cases label with
  | requestRange _ client =>
    simp only [readStep] at hstep
    split at hstep <;> cases hstep
    next hat =>
      simp only [Reading.Follows, hat] at hfollows
      exact requestRangeStep_follows h (hsize.trans hsource.symm) hfollows
  | linkRead _ =>
    simp only [readStep] at hstep
    split at hstep <;> cases hstep
    next hat =>
      simp only [Reading.Follows, hat] at hfollows
      have hreads : (startLink s opened.file true).1.reads = s.reads := rfl
      exact ReadsFollow.setRead (s := (startLink s opened.file true).1) h
        ⟨hfollows.begun, hfollows.refused⟩
  | wakeRead _ done =>
    simp only [readStep] at hstep
    split at hstep
    · next hat =>
      obtain ⟨wait, -, rfl⟩ := Option.map_eq_some_iff.1 hstep
      simp only [Reading.Follows, hat] at hfollows
      exact wakeReadStep_follows h hfollows
    · cases hstep
  | validateRead _ validation =>
    simp only [readStep] at hstep
    split at hstep <;> cases hstep
    next hat =>
      simp only [Reading.Follows, hat] at hfollows
      exact validateReadStep_follows h hsize hfollows
  | cacheRead _ =>
    simp only [readStep] at hstep
    split at hstep <;> cases hstep
    next url hat =>
      simp only [Reading.Follows, hat] at hfollows
      exact ReadsFollow.setRead (s := cacheDownloadURL options s opened.file url) h
        ⟨⟨⟨hfollows.1.lost.begun, hfollows.1.lost.refused⟩, hfollows.1.link⟩, hfollows.2⟩
  | storeRead _ =>
    simp only [readStep] at hstep
    split at hstep <;> cases hstep
    next url hat =>
      simp only [Reading.Follows, hat] at hfollows
      exact ReadsFollow.setRead (s := s) h
        ⟨⟨⟨hfollows.1.lost.begun, hfollows.1.lost.refused⟩, hfollows.1.link⟩, hfollows.2⟩
  | requestAgain _ client =>
    simp only [readStep] at hstep
    split at hstep <;> cases hstep
    next url hat =>
      simp only [Reading.Follows, hat] at hfollows
      exact requestAgainStep_follows h (hsize.trans hsource.symm) hfollows.1 hfollows.2
  | _ => cases hstep

/-! ## Runs -/

/-- The actions of an `Open` leave the reads alone. -/
theorem openStep_reads {id : ℕ} {opening : Opening} {label : GatewayLabel}
    (hstep : openStep options s id opening label = some t) : t.reads = s.reads := by
  cases label with
  | loadMetadata _ =>
    simp only [openStep] at hstep
    split at hstep <;> cases hstep
    unfold loadMetadataStep
    split <;> rfl
  | requestMetadata _ joinPath exchange =>
    simp only [openStep] at hstep
    split at hstep <;> cases hstep
    unfold requestMetadataStep
    dsimp only
    split <;> rfl
  | linkOpen _ =>
    simp only [openStep] at hstep
    split at hstep <;> cases hstep
    next file force hat =>
      have hsame : (startLink s file force).1.reads = s.reads := by
        unfold startLink
        split <;> rfl
      unfold linkOpenStep
      split
      · next s' url heq =>
        rw [heq] at hsame
        exact hsame
      · next s' call heq =>
        rw [heq] at hsame
        exact hsame
  | wakeOpen _ done =>
    simp only [openStep] at hstep
    split at hstep
    · obtain ⟨wait, -, rfl⟩ := Option.map_eq_some_iff.1 hstep
      unfold wakeOpenStep
      dsimp only
      split <;> rfl
    · cases hstep
  | validateOpen _ validation =>
    simp only [openStep] at hstep
    split at hstep <;> cases hstep
    next file url again hat =>
      have hsame := (acceptLink_same (s := s) url validation file.metadata.size).reads
      unfold validateOpenStep
      dsimp only
      split
      · exact hsame
      · split <;> exact hsame
  | invalidateOpen _ =>
    simp only [openStep] at hstep
    split at hstep <;> cases hstep
    exact invalidateDownloadURL_same.reads
  | cacheOpen _ =>
    simp only [openStep] at hstep
    split at hstep <;> cases hstep
    rfl
  | _ => cases hstep

/-- The actions of a `ReadAt` leave the `Open`s alone. -/
theorem readStep_opens {id : ℕ} {reading : Reading} {opened : OpenedSource} {label : GatewayLabel}
    (hstep : readStep options s id reading opened label = some t) : t.opens = s.opens := by
  cases label with
  | requestRange _ client =>
    simp only [readStep] at hstep
    split at hstep <;> cases hstep
    unfold requestRangeStep
    dsimp only
    split <;> rfl
  | wakeRead _ done =>
    simp only [readStep] at hstep
    split at hstep
    · obtain ⟨wait, -, rfl⟩ := Option.map_eq_some_iff.1 hstep
      unfold wakeReadStep
      dsimp only
      split <;> rfl
    · cases hstep
  | validateRead _ validation =>
    simp only [readStep] at hstep
    split at hstep <;> cases hstep
    next url hat =>
      have hsame := (acceptLink_same (s := s) url validation opened.file.metadata.size).opens
      unfold validateReadStep
      dsimp only
      split <;> exact hsame
  | linkRead | cacheRead | storeRead | requestAgain =>
    simp only [readStep] at hstep
    split at hstep <;> cases hstep
    rfl
  | _ => cases hstep

/-- All calls follow the functions of a single call. -/
structure CallsFollow (token : String) (s : GatewayState) : Prop where
  opens : OpensFollow token s
  reads : ReadsFollow s

variable [URLTexts]

theorem gatewayStep_follows {label : GatewayLabel} (hsafe : GatewaySafe options s)
    (h : CallsFollow options.token s) (hstep : gatewayStep options s label = some t) :
    CallsFollow options.token t := by
  cases label with
  | elapse duration =>
    cases hstep
    exact ⟨h.opens, h.reads⟩
  | resolve call answers =>
    obtain ⟨made, -, hstep⟩ := Option.bind_eq_some_iff.1 hstep
    obtain ⟨requests, -, hstep⟩ := Option.bind_eq_some_iff.1 hstep
    cases hstep
    exact ⟨h.opens, h.reads⟩
  | «open» id before backing =>
    simp only [gatewayStep] at hstep
    split at hstep <;> cases hstep
    exact ⟨h.opens.setOpen (startOpening_follows options.token before backing), h.reads⟩
  | read id source ctx destination offset =>
    simp only [gatewayStep] at hstep
    split at hstep
    · cases hstep
    · obtain ⟨opened, -, hstep⟩ := Option.bind_eq_some_iff.1 hstep
      cases hstep
      exact ⟨h.opens, h.reads.setRead (startReading_follows source opened ctx destination offset)⟩
  | close id =>
    obtain ⟨opened, -, hstep⟩ := Option.bind_eq_some_iff.1 hstep
    cases hstep
    exact ⟨h.opens, h.reads⟩
  | loadMetadata id | requestMetadata id _ _ | linkOpen id | wakeOpen id _ | validateOpen id _
  | invalidateOpen id | cacheOpen id =>
    obtain ⟨opening, hopening, hopen⟩ := Option.bind_eq_some_iff.1 hstep
    have hreads := openStep_reads hopen
    exact ⟨openStep_follows h.opens hopening hopen, fun id' reading hlookup =>
      h.reads id' reading (hreads ▸ hlookup)⟩
  | requestRange id _ | linkRead id | wakeRead id _ | validateRead id _ | cacheRead id | storeRead id
  | requestAgain id _ =>
    obtain ⟨reading, hreading, hstep⟩ := Option.bind_eq_some_iff.1 hstep
    obtain ⟨opened, hopened, hread⟩ := Option.bind_eq_some_iff.1 hstep
    have hopens := readStep_opens hread
    obtain ⟨opened', hopened', hsize, -⟩ := hsafe.reads _ _ hreading
    rw [hopened] at hopened'
    cases hopened'
    exact ⟨fun id' opening hlookup => h.opens id' opening (hopens ▸ hlookup),
      readStep_follows h.reads hreading hsize (hsafe.sources _ _ hopened).size hread⟩

theorem callsFollow_of_reachable (h : (gatewaySystem options).Reachable s) :
    CallsFollow options.token s := by
  refine h.invariant_under (fun s => gatewaySafe_of_reachable) ?_
    fun s label t hsafe hs _ hstep => gatewayStep_follows hsafe hs hstep
  rintro s ⟨now, rfl⟩
  refine ⟨fun id opening hlookup => ?_, fun id reading hlookup => ?_⟩
  · simp [newGateway] at hlookup
  · simp [newGateway] at hlookup

/-- What an `Open` of a run has returned is what `openTorrentFile` returns for its answers. -/
def OpenReturns (token : String) (s : GatewayState) : Prop :=
  ∀ id opening result, s.opens.lookup id = some opening → opening.phase = .returned result →
    openTorrentFile token opening.answers opening.backing = result

/-- What a `ReadAt` of a run has returned is what `readAt` returns for its answers, and it is strict for
the size of its file. -/
def ReadReturns (s : GatewayState) : Prop :=
  ∀ id reading result, s.reads.lookup id = some reading → reading.phase = .returned result →
    reading.result = result ∧ ∃ opened, s.sources.lookup reading.source = some opened ∧
      StrictRead opened.file.metadata.size (fun _ => True)
        (Answered reading.answers.source reading.answers.client reading.answers.again
          (refreshLink reading.answers.link reading.answers.validation reading.answers.source.size)
          reading.offset) reading.destination reading.offset result

/-- In every interleaving, an `Open` and a `ReadAt` return what the function of a single call returns for
the answers that they got, and every `ReadAt` is strict. -/
theorem calls_follow (h : (gatewaySystem options).Reachable s) :
    OpenReturns options.token s ∧ ReadReturns s := by
  have hfollows := callsFollow_of_reachable h
  have hsafe := gatewaySafe_of_reachable h
  constructor
  · intro id opening result hlookup hreturned
    have hopening := hfollows.opens id opening hlookup
    simp only [Opening.Follows, hreturned] at hopening
    exact hopening
  · intro id reading result hlookup hreturned
    have hreading := hfollows.reads id reading hlookup
    simp only [Reading.Follows, hreturned] at hreading
    obtain ⟨opened, hopened, hsize, -⟩ := hsafe.reads id reading hlookup
    refine ⟨hreading, opened, hopened, ?_⟩
    rw [← hsize, ← hreading]
    exact readAt_strict _ _ _ _ _ _ _

end Calls

/-! ## Refreshed links -/

section Refreshed

variable {s t : GatewayState}

theorem startLink_grows (file : LinkedFile) (force : Bool) : Grows s (startLink s file force).1 := by
  unfold startLink
  split
  · exact .of_eq rfl rfl
  · exact ⟨SharedCalls.extends_join _ _ _, List.Subset.refl _⟩

theorem invalidateDownloadURL_grows (file : LinkedFile) (url : String) :
    Grows s (invalidateDownloadURL s file url) := by
  unfold invalidateDownloadURL
  split
  · split <;> exact .of_eq rfl rfl
  · exact .of_eq rfl rfl

theorem setRead_reads {id : ℕ} {reading : Reading} (h : s.reads = t.reads) :
    (s.setRead id reading).reads = t.reads.insert id reading := by
  rw [GatewayState.setRead, h]

theorem Grows.trans {u : GatewayState} (hst : Grows s t) (htu : Grows t u) : Grows s u :=
  ⟨hst.requests.trans htu.requests, fun _ h => htu.accepted (hst.accepted h)⟩

/-- Where a read is that had to ask for another link in the state `s`: it does not have one yet, waits for
a request that had no result then, or has the link of such a request. -/
def ReadPhase.Newer (s t : GatewayState) : ReadPhase → Prop
  | .requesting => False
  | .linking | .returned _ => True
  | .awaiting call => s.requests.result call = none
  | .validating url | .caching url | .storing url | .again url =>
      ∃ call, s.requests.result call = none ∧ t.requests.result call = some (.ok url)

theorem ReadPhase.Newer.grows {u : GatewayState} {phase : ReadPhase} (h : phase.Newer s t)
    (htu : Grows t u) : phase.Newer s u := by
  cases phase with
  | requesting => exact h
  | linking | returned => trivial
  | awaiting call => exact h
  | validating url | caching url | storing url | again url =>
    obtain ⟨call, hbefore, hafter⟩ := h
    exact ⟨call, hbefore, htu.requests.result hafter⟩

/-- A request that runs had no result before. -/
theorem result_none_of_running {call : ℕ} (hst : Grows s t) (hrunning : t.requests.Running call) :
    s.requests.result call = none := by
  obtain ⟨key, input, hcall⟩ := hrunning
  cases hresult : s.requests.result call with
  | none => rfl
  | some r =>
    have hafter := hst.requests.result hresult
    simp [SharedCalls.result, hcall] at hafter

/-- A read that had to ask for another link in the state `s`, in a later state `t`. -/
structure AsksAgain (s t : GatewayState) (id : ℕ) : Prop where
  grows : Grows s t
  reading : ∃ reading, t.reads.lookup id = some reading ∧ reading.phase.Newer s t

variable [TextTables] {options : GatewayOptions}

theorem openStep_grows {id : ℕ} {opening : Opening} {label : GatewayLabel}
    (hstep : openStep options s id opening label = some t) : Grows s t := by
  cases label with
  | loadMetadata _ =>
    simp only [openStep] at hstep
    split at hstep <;> cases hstep
    unfold loadMetadataStep
    split <;> exact .of_eq rfl rfl
  | requestMetadata _ joinPath exchange =>
    simp only [openStep] at hstep
    split at hstep <;> cases hstep
    unfold requestMetadataStep
    dsimp only
    split <;> exact .of_eq rfl rfl
  | linkOpen _ =>
    simp only [openStep] at hstep
    split at hstep <;> cases hstep
    next file force hat =>
      have hgrows := startLink_grows (s := s) file force
      unfold linkOpenStep
      split
      · next s' url heq =>
        rw [heq] at hgrows
        exact hgrows.trans (.of_eq rfl rfl)
      · next s' call heq =>
        rw [heq] at hgrows
        exact hgrows.trans (.of_eq rfl rfl)
  | wakeOpen _ done =>
    simp only [openStep] at hstep
    split at hstep
    · obtain ⟨wait, -, rfl⟩ := Option.map_eq_some_iff.1 hstep
      unfold wakeOpenStep
      dsimp only
      split <;> exact .of_eq rfl rfl
    · cases hstep
  | validateOpen _ validation =>
    simp only [openStep] at hstep
    split at hstep <;> cases hstep
    next file url again hat =>
      have hgrows := acceptLink_grows (s := s) url validation file.metadata.size
      unfold validateOpenStep
      dsimp only
      split
      · exact hgrows.trans (.of_eq rfl rfl)
      · split <;> exact hgrows.trans (.of_eq rfl rfl)
  | invalidateOpen _ =>
    simp only [openStep] at hstep
    split at hstep <;> cases hstep
    exact (invalidateDownloadURL_grows _ _).trans (.of_eq rfl rfl)
  | cacheOpen _ =>
    simp only [openStep] at hstep
    split at hstep <;> cases hstep
    exact .of_eq rfl rfl
  | _ => cases hstep

/-- A step of a read: it changes the read alone, and a link that it gets is newer than the state `s` if
the read had to ask for one then. -/
theorem readStep_newer {u : GatewayState} {id : ℕ} {reading : Reading} {opened : OpenedSource}
    {label : GatewayLabel} (hcoherent : t.requests.Coherent) (hst : Grows s t)
    (hstep : readStep options t id reading opened label = some u) :
    Grows t u ∧ ∃ reading', u.reads = t.reads.insert id reading' ∧
      (reading.phase.Newer s t → reading'.phase.Newer s u) := by
  cases label with
  | requestRange _ client =>
    simp only [readStep] at hstep
    split at hstep <;> cases hstep
    next hat =>
      unfold requestRangeStep
      dsimp only
      split
      · exact ⟨.of_eq rfl rfl, _, rfl, fun _ => trivial⟩
      · exact ⟨.of_eq rfl rfl, _, rfl, fun _ => trivial⟩
  | linkRead _ =>
    simp only [readStep] at hstep
    split at hstep <;> cases hstep
    have hgrows := startLink_grows (s := t) opened.file true
    obtain ⟨input, hcall⟩ := SharedCalls.join_running opened.file.key opened.file.identifier
      hcoherent
    have hrunning : (startLink t opened.file true).1.requests.Running
        (t.requests.join opened.file.key opened.file.identifier).2 := ⟨_, input, hcall⟩
    exact ⟨hgrows.trans (.of_eq rfl rfl), { reading with phase := .awaiting _ }, rfl, fun _ =>
      result_none_of_running (hst.trans hgrows) hrunning⟩
  | wakeRead _ done =>
    simp only [readStep] at hstep
    split at hstep
    · next call hat =>
      obtain ⟨wait, hwait, rfl⟩ := Option.map_eq_some_iff.1 hstep
      unfold wakeReadStep
      dsimp only
      split
      · exact ⟨.of_eq rfl rfl, _, rfl, fun _ => trivial⟩
      · next url cached hurl =>
        refine ⟨.of_eq rfl rfl, _, rfl, fun hnewer => ?_⟩
        rw [hat] at hnewer
        refine ⟨call, hnewer, ?_⟩
        -- the wait has ended with the result of the request, since it has a link
        cases done with
        | some e =>
          cases hwait
          cases hurl
        | none =>
          obtain ⟨result, hresult, rfl⟩ := Option.map_eq_some_iff.1 hwait
          cases result with
          | error e => cases hurl
          | ok url' =>
            cases hurl
            exact hresult
    · cases hstep
  | validateRead _ validation =>
    simp only [readStep] at hstep
    split at hstep <;> cases hstep
    next url hat =>
      have hgrows := acceptLink_grows (s := t) url validation opened.file.metadata.size
      have hreads := (acceptLink_same (s := t) url validation opened.file.metadata.size).reads
      unfold validateReadStep
      dsimp only
      split
      · exact ⟨hgrows.trans (.of_eq rfl rfl), _, setRead_reads hreads, fun _ => trivial⟩
      · refine ⟨hgrows.trans (.of_eq rfl rfl), _, setRead_reads hreads, fun hnewer => ?_⟩
        rw [hat] at hnewer
        have hcaching : ReadPhase.Newer s t (.caching url) := hnewer
        exact hcaching.grows (hgrows.trans (.of_eq rfl rfl))
  | cacheRead _ =>
    simp only [readStep] at hstep
    split at hstep <;> cases hstep
    next url hat =>
      refine ⟨.of_eq rfl rfl, _, rfl, fun hnewer => ?_⟩
      rw [hat] at hnewer
      exact hnewer
  | storeRead _ =>
    simp only [readStep] at hstep
    split at hstep <;> cases hstep
    next url hat =>
      refine ⟨.of_eq rfl rfl, _, rfl, fun hnewer => ?_⟩
      rw [hat] at hnewer
      exact hnewer
  | requestAgain _ client =>
    simp only [readStep] at hstep
    split at hstep <;> cases hstep
    exact ⟨.of_eq rfl rfl, _, rfl, fun _ => trivial⟩
  | _ => cases hstep

variable [URLTexts]

theorem gatewayStep_asksAgain {u : GatewayState} {id : ℕ} {label : GatewayLabel}
    (hcoherent : t.requests.Coherent) (h : AsksAgain s t id)
    (hstep : gatewayStep options t label = some u) : AsksAgain s u id := by
  obtain ⟨hst, reading, hreading, hnewer⟩ := h
  have hkept : Grows t u → u.reads.lookup id = t.reads.lookup id → AsksAgain s u id := by
    intro htu hsame
    exact ⟨hst.trans htu, reading, hsame.trans hreading, hnewer.grows htu⟩
  cases label with
  | elapse duration =>
    cases hstep
    exact hkept (.of_eq rfl rfl) rfl
  | resolve call answers =>
    obtain ⟨made, -, hstep⟩ := Option.bind_eq_some_iff.1 hstep
    obtain ⟨requests, hfinish, hstep⟩ := Option.bind_eq_some_iff.1 hstep
    cases hstep
    exact hkept ⟨SharedCalls.extends_finish hfinish, List.Subset.refl _⟩ rfl
  | «open» _ before backing =>
    simp only [gatewayStep] at hstep
    split at hstep <;> cases hstep
    exact hkept (.of_eq rfl rfl) rfl
  | read id' source ctx destination offset =>
    simp only [gatewayStep] at hstep
    split at hstep
    · cases hstep
    · next hfree =>
      obtain ⟨opened, -, hstep⟩ := Option.bind_eq_some_iff.1 hstep
      cases hstep
      refine hkept (.of_eq rfl rfl) ?_
      have hid : id ≠ id' := by
        rintro rfl
        rw [hreading] at hfree
        exact hfree rfl
      rw [GatewayState.setRead, Table.lookup_insert, if_neg hid]
  | close _ =>
    obtain ⟨opened, -, hstep⟩ := Option.bind_eq_some_iff.1 hstep
    cases hstep
    exact hkept (.of_eq rfl rfl) rfl
  | loadMetadata _ | requestMetadata _ _ _ | linkOpen _ | wakeOpen _ _ | validateOpen _ _
  | invalidateOpen _ | cacheOpen _ =>
    obtain ⟨opening, -, hopen⟩ := Option.bind_eq_some_iff.1 hstep
    exact hkept (openStep_grows hopen) (by rw [openStep_reads hopen])
  | requestRange id' _ | linkRead id' | wakeRead id' _ | validateRead id' _ | cacheRead id'
  | storeRead id' | requestAgain id' _ =>
    obtain ⟨reading', hreading', hstep⟩ := Option.bind_eq_some_iff.1 hstep
    obtain ⟨opened, -, hread⟩ := Option.bind_eq_some_iff.1 hstep
    obtain ⟨htu, later, hreads, hlater⟩ := readStep_newer hcoherent hst hread
    by_cases hid : id = id'
    · subst hid
      rw [hreading] at hreading'
      cases hreading'
      exact ⟨hst.trans htu, later, by rw [hreads, Table.lookup_insert, if_pos rfl], hlater hnewer⟩
    · exact hkept htu (by rw [hreads, Table.lookup_insert, if_neg hid])

/-- A read whose link was refused goes on with a link that a request has brought since: when the link was
refused, the request had no result. -/
theorem refreshed_link_newer {id : ℕ} {refused reading : Reading} {url : String}
    (hs : (gatewaySystem options).Reachable s) (hst : (gatewaySystem options).Reaches s t)
    (hrefused : s.reads.lookup id = some refused) (hlinking : refused.phase = .linking)
    (hreading : t.reads.lookup id = some reading) (hagain : reading.phase = .again url) :
    ∃ call, s.requests.result call = none ∧ t.requests.result call = some (.ok url) := by
  have hasks : AsksAgain s t id := by
    clear hreading hagain
    induction hst with
    | refl => exact ⟨.of_eq rfl rfl, refused, hrefused, by rw [hlinking]; trivial⟩
    | tail hsu _ hstep ih =>
      have hsafe := gatewaySafe_of_reachable (hs.reaches hsu)
      exact gatewayStep_asksAgain hsafe.coherent ih hstep
  obtain ⟨reading', hreading', hnewer⟩ := hasks.reading
  rw [hreading] at hreading'
  cases hreading'
  rw [hagain] at hnewer
  exact hnewer

end Refreshed

section SmallCalls

attribute [local instance] TextTables.ascii smallLinks

/-- What a read has returned, in a state. -/
def returnedRead (s : GatewayState) (id : ℕ) : Option ReadResult := do
  match (← s.reads.lookup id).phase with
  | .returned result => some result
  | _ => none

theorem returnedRead_eq_some {s : GatewayState} {id : ℕ} {result : ReadResult} :
    returnedRead s id = some result ↔
      ∃ reading, s.reads.lookup id = some reading ∧ reading.phase = .returned result := by
  simp only [returnedRead, Option.bind_eq_bind, Option.bind_eq_some_iff]
  constructor
  · rintro ⟨reading, hreading, hresult⟩
    refine ⟨reading, hreading, ?_⟩
    split at hresult
    · next hphase => rw [hphase, Option.some.inj hresult]
    · cases hresult
  · rintro ⟨reading, hreading, hphase⟩
    exact ⟨reading, hreading, by rw [hphase]⟩

theorem calls_follow_small : ∃ s,
    (gatewaySystem smallGatewayOptions).run (newGateway 0)
      (smallRefusedRun ++ smallRefreshRun ++ [.requestAgain 0 smallCDN]) = some s ∧
      returnedRead s 0 = some ⟨[5], 1, none⟩ ∧ OpenReturns smallGatewayOptions.token s ∧
        ReadReturns s := by
  have hvalues : ((gatewaySystem smallGatewayOptions).run (newGateway 0)
      (smallRefusedRun ++ smallRefreshRun ++ [.requestAgain 0 smallCDN])).bind (fun s => returnedRead s 0) =
        some ⟨[5], 1, none⟩ := by
    decide +kernel
  obtain ⟨s, hs, hreturned⟩ := Option.bind_eq_some_iff.1 hvalues
  have hreachable : (gatewaySystem smallGatewayOptions).Reachable s := System.reachable_of_run ⟨0, rfl⟩ hs
  exact ⟨s, hs, hreturned, calls_follow hreachable⟩

/-- The link of a read at its second request. -/
def linkAgain (s : GatewayState) (id : ℕ) : Option String := do
  match (← s.reads.lookup id).phase with
  | .again url => some url
  | _ => none

theorem exists_of_linkAgain {s : GatewayState} {id : ℕ} {url : String} (h : linkAgain s id = some url) :
    ∃ reading, s.reads.lookup id = some reading ∧ reading.phase = .again url := by
  obtain ⟨reading, hreading, hlink⟩ := Option.bind_eq_some_iff.1 h
  refine ⟨reading, hreading, ?_⟩
  split at hlink
  · next hphase => rw [hphase, Option.some.inj hlink]
  · cases hlink

/-- Whether the link of a read was just refused. -/
def asksForLink (s : GatewayState) (id : ℕ) : Bool :=
  match (s.reads.lookup id).map Reading.phase with
  | some .linking => true
  | _ => false

theorem exists_of_asksForLink {s : GatewayState} {id : ℕ} (h : asksForLink s id = true) :
    ∃ reading, s.reads.lookup id = some reading ∧ reading.phase = .linking := by
  unfold asksForLink at h
  split at h
  · next hphase => exact Option.map_eq_some_iff.1 hphase
  · cases h

/-- The link of the read has been refused, and its second request is for another one. -/
theorem refreshed_link_newer_small : ∃ s t call,
    (gatewaySystem smallGatewayOptions).run (newGateway 0) smallRefusedRun = some s ∧
      (gatewaySystem smallGatewayOptions).run s smallRefreshRun = some t ∧
      s.requests.result call = none ∧ t.requests.result call = some (.ok "b") := by
  have hbefore : ((gatewaySystem smallGatewayOptions).run (newGateway 0) smallRefusedRun).map
      (fun s => asksForLink s 0) = some true := by
    decide +kernel
  have hafter : ((gatewaySystem smallGatewayOptions).run (newGateway 0)
      (smallRefusedRun ++ smallRefreshRun)).bind (fun t => linkAgain t 0) = some "b" := by
    decide +kernel
  rw [System.run_append] at hafter
  obtain ⟨s, hs, hasks⟩ := Option.map_eq_some_iff.1 hbefore
  obtain ⟨t, hrun, hlink⟩ := Option.bind_eq_some_iff.1 hafter
  obtain ⟨s', hs', ht⟩ := Option.bind_eq_some_iff.1 hrun
  have hsame : s = s' := Option.some.inj (hs.symm.trans hs')
  subst hsame
  obtain ⟨refused, hrefused, hlinking⟩ := exists_of_asksForLink hasks
  obtain ⟨reading, hreading, hagain⟩ := exists_of_linkAgain hlink
  have hreachable : (gatewaySystem smallGatewayOptions).Reachable s := System.reachable_of_run ⟨0, rfl⟩ hs
  obtain ⟨call, hnone, hsome⟩ := refreshed_link_newer hreachable (System.reachesBy_of_run ht) hrefused
    hlinking hreading hagain
  exact ⟨s, t, call, hs, ht, hnone, hsome⟩

end SmallCalls

end BlackPearl.Torbox
