import BlackPearl.Library.Slice
import BlackPearl.Torbox.Links

/-!
# What links are used for

In every run of the gateway, at most one request for a link of a file is in flight, a caller that waits
can be woken, and every link that is cached, held by a source or sent a request for a range has been
given for that very file and accepted with its size (`GatewaySafe`). The key of a link holds the file and
its validator, and a validator holds the size, so that no link is used for another file or another size.
-/

set_option autoImplicit false

namespace BlackPearl.Torbox

open BlackPearl.Library BlackPearl.Domain BlackPearl.Acquisition BlackPearl.HttpRange

/-! ## Keys -/

theorem notMem_decimal {c : Char} (hdigit : c.isDigit = false) (hminus : c ≠ '-') (n : ℤ) : c ∉ decimal n := by
  intro hmem
  rcases isDigit_or_minus_of_mem_decimal hmem with h | h
  · rw [hdigit] at h
    cases h
  · exact hminus h

theorem decimal_injective : Function.Injective decimal := by
  intro m n h
  have hparse := congrArg parseDecimal h
  rw [parseDecimal_decimal, parseDecimal_decimal] at hparse
  exact Option.some.inj hparse

theorem ObjectID.toList_text (identifier : ObjectID) :
    identifier.text.toList = decimal identifier.torrentID ++ ':' :: decimal identifier.fileID := by
  have hcolon : ":".toList = [':'] := rfl
  rw [ObjectID.text, String.toList_append, String.toList_append, toList_toString, toList_toString, hcolon,
    List.append_assoc, List.singleton_append]

theorem ObjectID.text_injective : Function.Injective ObjectID.text := by
  intro i j h
  have hlists := congrArg String.toList h
  rw [ObjectID.toList_text, ObjectID.toList_text] at hlists
  obtain ⟨htorrent, hfile⟩ := append_cons_cancel (notMem_decimal (by decide) (by decide) _)
    (notMem_decimal (by decide) (by decide) _) hlists
  cases i
  cases j
  simp only [ObjectID.mk.injEq]
  exact ⟨decimal_injective htorrent, decimal_injective hfile⟩

/-- A key tells the file and the validator. -/
theorem linkKey_eq {i j : ObjectID} {validator validator' : String}
    (h : linkKey i validator = linkKey j validator') : i = j ∧ validator = validator' := by
  have hnull : "\x00".toList = ['\x00'] := rfl
  have hlists := congrArg String.toList h
  simp only [linkKey, String.toList_append, hnull, List.append_assoc, List.singleton_append] at hlists
  have hfree : ∀ k : ObjectID, '\x00' ∉ k.text.toList := by
    intro k hmem
    rw [ObjectID.toList_text, List.mem_append, List.mem_cons] at hmem
    rcases hmem with hmem | hmem | hmem
    · exact notMem_decimal (by decide) (by decide) _ hmem
    · exact absurd hmem (by decide)
    · exact notMem_decimal (by decide) (by decide) _ hmem
  obtain ⟨htext, hvalidator⟩ := append_cons_cancel (hfree i) (hfree j) hlists
  exact ⟨ObjectID.text_injective (String.toList_injective htext), String.toList_injective hvalidator⟩

/-- Metadata as `loadMetadata` makes it. -/
structure FileMetadata.Accepted (metadata : FileMetadata) : Prop where
  positive : 0 < metadata.size
  validator : ∃ kind hash, metadata.validator =
    "torbox:" ++ kind ++ ":" ++ hash ++ ":" ++ toString metadata.size

/-- The validator tells the size. -/
theorem FileMetadata.Accepted.size_eq {m n : FileMetadata} (hm : m.Accepted) (hn : n.Accepted)
    (h : m.validator = n.validator) : m.size = n.size := by
  obtain ⟨kind, hash, hvalidator⟩ := hm.validator
  obtain ⟨kind', hash', hvalidator'⟩ := hn.validator
  rw [hvalidator, hvalidator'] at h
  have hcolon : ":".toList = [':'] := rfl
  have hlists := congrArg String.toList h
  simp only [String.toList_append, hcolon, toList_toString, List.append_assoc, List.cons_append,
    List.nil_append] at hlists
  -- the size is what comes after the last colon
  have hgroup : ∀ (a b c d : List Char), a ++ (b ++ ':' :: (c ++ ':' :: d)) = (a ++ b ++ ':' :: c) ++ ':' :: d := by
    intro a b c d
    simp
  rw [hgroup, hgroup] at hlists
  obtain ⟨-, hsize⟩ := append_cons_cancel_right (notMem_decimal (by decide) (by decide) _)
    (notMem_decimal (by decide) (by decide) _) hlists
  exact decimal_injective hsize

section Safety

theorem checkFile_accepted {identifier : ObjectID} {file : FileRecord} {metadata : FileMetadata}
    (h : checkFile identifier file = .ok metadata) : metadata.Accepted := by
  unfold checkFile at h
  split at h
  · cases h
  split at h
  · cases h
  split at h
  · cases h
  · next hpositive =>
    dsimp only at h
    split at h
    · cases h
    · cases h
      exact ⟨not_le.1 hpositive, _, _, rfl⟩

theorem checkTorrent_accepted {identifier : ObjectID} {torrent : TorrentMetadata} {metadata : FileMetadata}
    (h : checkTorrent identifier torrent = .ok metadata) : metadata.Accepted := by
  unfold checkTorrent at h
  dsimp only at h
  split at h
  · cases h
  split at h
  · cases h
  split at h
  · cases h
  split at h
  · cases h
  · exact checkFile_accepted h

theorem loadMetadata_accepted {token : String} {answers : MetadataAnswers} {identifier : ObjectID}
    {metadata : FileMetadata} (hcached : answers.cached = none)
    (h : loadMetadata token answers identifier = .ok metadata) : metadata.Accepted := by
  unfold loadMetadata at h
  rw [hcached] at h
  dsimp only at h
  split at h
  · cases h
  split at h
  · cases h
  split at h
  · cases h
  split at h
  · cases h
  split at h
  · cases h
  · exact checkTorrent_accepted h

/-! ## What is known of a link -/

/-- A request for a link of a file has come back with it. -/
def Resolved (s : GatewayState) (identifier : ObjectID) (url : String) : Prop :=
  ∃ call key, s.requests.Made call key identifier ∧ s.requests.result call = some (.ok url)

/-- A link has been given for a file, and accepted with its size. -/
structure Vouched (s : GatewayState) (file : LinkedFile) (url : String) : Prop where
  resolved : Resolved s file.identifier url
  accepted : (url, file.metadata.size) ∈ s.accepted

/-- A file whose metadata `loadMetadata` has made, with a call for its link. -/
structure Awaits (s : GatewayState) (file : LinkedFile) (call : ℕ) : Prop where
  checked : file.metadata.Accepted
  made : s.requests.Made call file.key file.identifier

/-- What is known of the file and the link of an `Open`. -/
def OpenPhase.Safe (s : GatewayState) : OpenPhase → Prop
  | .linking file _ | .invalidating file _ => file.metadata.Accepted
  | .awaiting file _ call => Awaits s file call
  | .validating file url _ => file.metadata.Accepted ∧ Resolved s file.identifier url
  | .caching file url => file.metadata.Accepted ∧ Vouched s file url
  | .loading _ | .requesting _ | .returned _ => True

/-- What is known of the link of a `ReadAt` of a file. -/
def ReadPhase.Safe (s : GatewayState) (file : LinkedFile) : ReadPhase → Prop
  | .awaiting call => Awaits s file call
  | .validating url => Resolved s file.identifier url
  | .caching url | .storing url | .again url => Vouched s file url
  | .requesting | .linking | .returned _ => True

/-- An opened source has the metadata of its file, and a link that is vouched for. -/
structure OpenedSource.Safe (s : GatewayState) (opened : OpenedSource) : Prop where
  checked : opened.file.metadata.Accepted
  size : opened.source.size = opened.file.metadata.size
  validator : opened.source.validator = opened.file.metadata.validator
  vouched : Vouched s opened.file opened.source.download

/-- A key of a file, and a link that is vouched for it. -/
def CachedFor (s : GatewayState) (key url : String) : Prop :=
  ∃ file : LinkedFile, file.key = key ∧ file.metadata.Accepted ∧ Vouched s file url

/-- What every step keeps. -/
structure GatewaySafe (options : GatewayOptions) (s : GatewayState) : Prop where
  coherent : s.requests.Coherent
  keyed : s.requests.All fun key identifier => ∃ validator, key = linkKey identifier validator
  metadata : Expiring.Kept (fun _ metadata _ => metadata.Accepted) s.now options.metadataTTL s.metadata
  links : Expiring.Kept (fun key url _ => CachedFor s key url) s.now options.linkTTL s.links
  opens : ∀ id opening, s.opens.lookup id = some opening → opening.phase.Safe s
  sources : ∀ id opened, s.sources.lookup id = some opened → opened.Safe s
  owned : ∀ id opened, s.sources.lookup id = some opened →
    ∃ opening result, s.opens.lookup id = some opening ∧ opening.phase = .returned result
  reads : ∀ id reading, s.reads.lookup id = some reading →
    ∃ opened, s.sources.lookup reading.source = some opened ∧
      reading.answers.source.size = opened.file.metadata.size ∧ reading.phase.Safe s opened.file

/-! ## More requests, more accepted links -/

/-- Nothing that was seen is forgotten. -/
structure Grows (s t : GatewayState) : Prop where
  requests : s.requests.Extends t.requests
  accepted : s.accepted ⊆ t.accepted

variable {options : GatewayOptions} {s t : GatewayState} {file : LinkedFile} {url : String}

theorem Grows.of_eq (hrequests : t.requests = s.requests) (haccepted : t.accepted = s.accepted) :
    Grows s t := by
  refine ⟨?_, ?_⟩
  · rw [hrequests]
    exact .refl _
  · rw [haccepted]
    exact List.Subset.refl _

theorem Resolved.grows {identifier : ObjectID} (h : Resolved s identifier url) (hst : Grows s t) :
    Resolved t identifier url := by
  obtain ⟨call, key, hmade, hresult⟩ := h
  exact ⟨call, key, hst.requests.made hmade, hst.requests.result hresult⟩

theorem Vouched.grows (h : Vouched s file url) (hst : Grows s t) : Vouched t file url :=
  ⟨h.resolved.grows hst, hst.accepted h.accepted⟩

theorem Awaits.grows {call : ℕ} (h : Awaits s file call) (hst : Grows s t) : Awaits t file call :=
  ⟨h.checked, hst.requests.made h.made⟩

theorem CachedFor.grows {key : String} (h : CachedFor s key url) (hst : Grows s t) : CachedFor t key url := by
  obtain ⟨file, hkey, hchecked, hvouched⟩ := h
  exact ⟨file, hkey, hchecked, hvouched.grows hst⟩

theorem OpenPhase.Safe.grows {phase : OpenPhase} (h : phase.Safe s) (hst : Grows s t) : phase.Safe t := by
  cases phase with
  | loading | requesting | returned => trivial
  | linking | invalidating => exact h
  | awaiting file force call => exact Awaits.grows h hst
  | validating file url again => exact ⟨h.1, h.2.grows hst⟩
  | caching file url => exact ⟨h.1, h.2.grows hst⟩

theorem ReadPhase.Safe.grows {phase : ReadPhase} (h : phase.Safe s file) (hst : Grows s t) :
    phase.Safe t file := by
  cases phase with
  | requesting | linking | returned => trivial
  | awaiting call => exact Awaits.grows h hst
  | validating url => exact Resolved.grows h hst
  | caching url | storing url | again url => exact Vouched.grows h hst

theorem OpenedSource.Safe.grows {opened : OpenedSource} (h : opened.Safe s) (hst : Grows s t) :
    opened.Safe t := ⟨h.checked, h.size, h.validator, h.vouched.grows hst⟩

/-- The tables of the calls and sources are those of another state. -/
structure SameCalls (s t : GatewayState) : Prop where
  opens : t.opens = s.opens
  sources : t.sources = s.sources
  reads : t.reads = s.reads

/-- A step that leaves the calls alone. -/
theorem GatewaySafe.grows (h : GatewaySafe options s) (hst : Grows s t) (hcalls : SameCalls s t)
    (hcoherent : t.requests.Coherent)
    (hkeyed : t.requests.All fun key identifier => ∃ validator, key = linkKey identifier validator)
    (hmetadata : Expiring.Kept (fun _ metadata _ => FileMetadata.Accepted metadata) t.now
      options.metadataTTL t.metadata)
    (hlinks : Expiring.Kept (fun key url _ => CachedFor t key url) t.now options.linkTTL t.links) :
    GatewaySafe options t where
  coherent := hcoherent
  keyed := hkeyed
  metadata := hmetadata
  links := hlinks
  opens id opening hlookup := (h.opens id opening (hcalls.opens ▸ hlookup)).grows hst
  sources id opened hlookup := (h.sources id opened (hcalls.sources ▸ hlookup)).grows hst
  owned := by
    rw [hcalls.sources, hcalls.opens]
    exact h.owned
  reads := by
    rw [hcalls.sources, hcalls.reads]
    intro id reading hlookup
    obtain ⟨opened, hopened, hsize, hsafe⟩ := h.reads id reading hlookup
    exact ⟨opened, hopened, hsize, hsafe.grows hst⟩

/-- The links stay as they are while more is seen. -/
theorem GatewaySafe.links_grow (h : GatewaySafe options s) (hst : Grows s t) :
    Expiring.Kept (fun key url _ => CachedFor t key url) s.now options.linkTTL s.links :=
  h.links.mono (le_refl _) fun _ _ _ hcached => hcached.grows hst

/-! ## The locked sections -/

theorem newGateway_safe (now : ℤ) : GatewaySafe options (newGateway now) where
  coherent := SharedCalls.coherent_empty
  keyed := by
    rintro call key identifier ⟨result, hcall⟩
    simp [newGateway, SharedCalls.empty] at hcall
  metadata := Expiring.kept_empty
  links := Expiring.kept_empty
  opens id opening hlookup := by simp [newGateway] at hlookup
  sources id opened hlookup := by simp [newGateway] at hlookup
  owned id opened hlookup := by simp [newGateway] at hlookup
  reads id reading hlookup := by simp [newGateway] at hlookup

/-- What is known at the end of the locked section of `downloadURL`. -/
def LinkStart.Safe (s : GatewayState) (file : LinkedFile) : LinkStart → Prop
  | .cached url => Vouched s file url
  | .waits call => Awaits s file call

/-- A link in the cache under the key of a file is vouched for the file. -/
theorem CachedFor.vouched (h : CachedFor s file.key url) (hchecked : file.metadata.Accepted) :
    Vouched s file url := by
  obtain ⟨file', hkey, hchecked', hvouched⟩ := h
  obtain ⟨hidentifier, hvalidator⟩ := linkKey_eq hkey
  have hsize := hchecked'.size_eq hchecked hvalidator
  refine ⟨?_, ?_⟩
  · rw [← hidentifier]
    exact hvouched.resolved
  · rw [← hsize]
    exact hvouched.accepted

/-- The locked section of `downloadURL`: it leaves the calls alone, and its outcome is for the file. -/
structure LinkStarted (options : GatewayOptions) (s : GatewayState) (file : LinkedFile)
    (started : GatewayState × LinkStart) : Prop where
  safe : GatewaySafe options started.1
  grows : Grows s started.1
  same : SameCalls s started.1
  outcome : started.2.Safe started.1 file

theorem GatewaySafe.startLink (h : GatewaySafe options s) (hchecked : file.metadata.Accepted)
    (force : Bool) : LinkStarted options s file (startLink s file force) := by
  unfold Torbox.startLink
  split
  · next url hload =>
    have hfound : Expiring.load s.now s.links file.key = some url := by
      cases force with
      | true => simp at hload
      | false => simpa using hload
    obtain ⟨storedAt, -, -, hcached⟩ := h.links.load hfound
    exact ⟨h, .of_eq rfl rfl, ⟨rfl, rfl, rfl⟩, hcached.vouched hchecked⟩
  · have hgrows : Grows s { s with requests := (s.requests.join file.key file.identifier).1 } :=
      ⟨SharedCalls.extends_join _ _ _, List.Subset.refl _⟩
    have hkeyed := h.keyed.join file.key file.identifier ⟨_, rfl⟩
    refine ⟨h.grows hgrows ⟨rfl, rfl, rfl⟩ h.coherent.join hkeyed h.metadata (h.links_grow hgrows), hgrows,
      ⟨rfl, rfl, rfl⟩, hchecked, ?_⟩
    -- the call that is joined has been made under this key, and a key tells its file
    obtain ⟨identifier, hcall⟩ :=
      SharedCalls.join_running file.key file.identifier h.coherent
    obtain ⟨validator, hkey⟩ := hkeyed _ _ _ ⟨none, hcall⟩
    obtain ⟨hidentifier, -⟩ := linkKey_eq hkey
    exact ⟨none, hidentifier ▸ hcall⟩

/-- A request ends, with any result. -/
theorem GatewaySafe.finish {requests : SharedCalls String ObjectID (Except Failure String)} {call : ℕ}
    {result : Except Failure String} (h : GatewaySafe options s)
    (hfinish : s.requests.finish call result = some requests) :
    GatewaySafe options { s with requests := requests } := by
  have hgrows : Grows s { s with requests := requests } :=
    ⟨SharedCalls.extends_finish hfinish, List.Subset.refl _⟩
  exact h.grows hgrows ⟨rfl, rfl, rfl⟩ (h.coherent.finish hfinish) (h.keyed.finish hfinish) h.metadata
    (h.links_grow hgrows)

theorem GatewaySafe.elapse (h : GatewaySafe options s) (duration : ℕ) :
    GatewaySafe options { s with now := s.now + duration } := by
  have hnow : s.now ≤ s.now + duration := by omega
  exact h.grows (.of_eq rfl rfl) ⟨rfl, rfl, rfl⟩ h.coherent h.keyed
    (h.metadata.mono hnow fun _ _ _ hP => hP)
    (h.links.mono hnow fun _ _ _ hcached => hcached.grows (.of_eq rfl rfl))

/-- The section that keeps a link. -/
theorem GatewaySafe.cacheDownloadURL (h : GatewaySafe options s) (hchecked : file.metadata.Accepted)
    (hvouched : Vouched s file url) : GatewaySafe options (cacheDownloadURL options s file url) := by
  refine h.grows (.of_eq rfl rfl) ⟨rfl, rfl, rfl⟩ h.coherent h.keyed h.metadata ?_
  exact Expiring.Kept.store (h.links_grow (.of_eq rfl rfl))
    ⟨file, rfl, hchecked, hvouched.grows (.of_eq rfl rfl)⟩

theorem GatewaySafe.invalidateDownloadURL (h : GatewaySafe options s) :
    GatewaySafe options (invalidateDownloadURL s file url) := by
  unfold Torbox.invalidateDownloadURL
  split
  · split
    · refine h.grows (.of_eq rfl rfl) ⟨rfl, rfl, rfl⟩ h.coherent h.keyed h.metadata ?_
      exact Expiring.Kept.erase (h.links_grow (.of_eq rfl rfl))
    · exact h
  · exact h

theorem invalidateDownloadURL_same : SameCalls s (invalidateDownloadURL s file url) := by
  unfold Torbox.invalidateDownloadURL
  split
  · split
    · exact ⟨rfl, rfl, rfl⟩
    · exact ⟨rfl, rfl, rfl⟩
  · exact ⟨rfl, rfl, rfl⟩

end Safety

section Accepted

variable [TextTables] {options : GatewayOptions} {s : GatewayState} {file : LinkedFile} {url : String}

theorem acceptLink_grows (url : String) (validation : Validation) (size : ℤ) :
    Grows s (acceptLink s validation url size) := by
  unfold acceptLink
  split
  · exact ⟨.refl _, List.subset_cons_self _ _⟩
  · exact .of_eq rfl rfl

theorem acceptLink_same (url : String) (validation : Validation) (size : ℤ) :
    SameCalls s (acceptLink s validation url size) := by
  unfold acceptLink
  split <;> exact ⟨rfl, rfl, rfl⟩

theorem GatewaySafe.acceptLink (h : GatewaySafe options s) (url : String) (validation : Validation)
    (size : ℤ) : GatewaySafe options (acceptLink s validation url size) := by
  have hgrows := acceptLink_grows (s := s) url validation size
  unfold Torbox.acceptLink at hgrows ⊢
  split at hgrows
  · exact h.grows hgrows ⟨rfl, rfl, rfl⟩ h.coherent h.keyed h.metadata (h.links_grow hgrows)
  · exact h

/-- A link that `validateDownload` accepts is vouched for. -/
theorem Resolved.acceptLink {validation : Validation} (h : Resolved s file.identifier url)
    (haccepted : (validateDownload validation url file.metadata.size).err = none) :
    Vouched (acceptLink s validation url file.metadata.size) file url := by
  refine ⟨h.grows (acceptLink_grows _ _ _), ?_⟩
  simp only [Torbox.acceptLink, haccepted]
  exact List.mem_cons_self

end Accepted

/-! ## Calls go on -/

section Calls

variable {options : GatewayOptions} {s t : GatewayState} {file : LinkedFile} {url : String}

/-- A call that has not returned. -/
def Live (s : GatewayState) (id : ℕ) : Prop :=
  ∀ opening result, s.opens.lookup id = some opening → opening.phase ≠ .returned result

theorem GatewaySafe.setOpen {id : ℕ} {opening : Opening} (h : GatewaySafe options s)
    (hphase : opening.phase.Safe s) (hlive : Live s id) : GatewaySafe options (s.setOpen id opening) where
  coherent := h.coherent
  keyed := h.keyed
  metadata := h.metadata
  links := h.links_grow (.of_eq rfl rfl)
  opens id' opening' hlookup := by
    rw [GatewayState.setOpen, Table.lookup_insert] at hlookup
    split at hlookup
    · cases hlookup
      exact hphase.grows (.of_eq rfl rfl)
    · exact (h.opens id' opening' hlookup).grows (.of_eq rfl rfl)
  sources id' opened hlookup := (h.sources id' opened hlookup).grows (.of_eq rfl rfl)
  owned id' opened hlookup := by
    obtain ⟨old, result, hold, hreturned⟩ := h.owned id' opened hlookup
    refine ⟨old, result, ?_, hreturned⟩
    rw [GatewayState.setOpen, Table.lookup_insert, if_neg ?_]
    · exact hold
    · rintro rfl
      exact hlive old result hold hreturned
  reads id' reading hlookup := by
    obtain ⟨opened, hopened, hsize, hsafe⟩ := h.reads id' reading hlookup
    exact ⟨opened, hopened, hsize, hsafe.grows (.of_eq rfl rfl)⟩

theorem GatewaySafe.returnSource {id : ℕ} {opening : Opening} (h : GatewaySafe options s)
    (hchecked : file.metadata.Accepted) (hvouched : Vouched s file url) (hlive : Live s id) :
    GatewaySafe options (returnSource s id opening file url) := by
  let returned : Opening := { opening with phase := .returned (.ok (newSource file.metadata url)) }
  have hset : GatewaySafe options (s.setOpen id returned) := h.setOpen trivial hlive
  have hgrows : Grows s (Torbox.returnSource s id opening file url) := .of_eq rfl rfl
  refine ⟨h.coherent, h.keyed, h.metadata, h.links_grow hgrows,
    fun id' opening' hlookup => (hset.opens id' opening' hlookup).grows (.of_eq rfl rfl), ?_, ?_, ?_⟩
  · intro id' opened hlookup
    simp only [Torbox.returnSource, Table.lookup_insert] at hlookup
    split at hlookup
    · cases hlookup
      exact ⟨hchecked, rfl, rfl, hvouched.grows hgrows⟩
    · exact (h.sources id' opened hlookup).grows hgrows
  · intro id' opened hlookup
    simp only [Torbox.returnSource, Table.lookup_insert] at hlookup ⊢
    split at hlookup
    · next hid => exact ⟨_, _, by rw [if_pos hid], rfl⟩
    · next hid =>
      rw [if_neg hid]
      exact h.owned id' opened hlookup
  · intro id' reading hlookup
    obtain ⟨opened, hopened, hsize, hsafe⟩ := h.reads id' reading hlookup
    refine ⟨opened, ?_, hsize, hsafe.grows hgrows⟩
    simp only [Torbox.returnSource, Table.lookup_insert]
    rw [if_neg ?_]
    · exact hopened
    · -- a source under this number would be one that the call has already returned
      rintro hid
      obtain ⟨old, result, hold, hreturned⟩ := h.owned _ opened hopened
      exact hlive old result (hid ▸ hold) hreturned

theorem GatewaySafe.setRead {id : ℕ} (reading : Reading) (opened : OpenedSource)
    (h : GatewaySafe options s) (hopened : s.sources.lookup reading.source = some opened)
    (hsize : reading.answers.source.size = opened.file.metadata.size)
    (hphase : reading.phase.Safe s opened.file) : GatewaySafe options (s.setRead id reading) where
  coherent := h.coherent
  keyed := h.keyed
  metadata := h.metadata
  links := h.links_grow (.of_eq rfl rfl)
  opens id' opening hlookup := (h.opens id' opening hlookup).grows (.of_eq rfl rfl)
  sources id' opened hlookup := (h.sources id' opened hlookup).grows (.of_eq rfl rfl)
  owned := h.owned
  reads id' reading' hlookup := by
    rw [GatewayState.setRead, Table.lookup_insert] at hlookup
    split at hlookup
    · cases hlookup
      exact ⟨opened, hopened, hsize, hphase.grows (.of_eq rfl rfl)⟩
    · obtain ⟨opened', hopened', hsize', hsafe⟩ := h.reads id' reading' hlookup
      exact ⟨opened', hopened', hsize', hsafe.grows (.of_eq rfl rfl)⟩

/-- A source changes, but not its file. -/
theorem GatewaySafe.setSource (id : ℕ) {opened : OpenedSource} (source : Source)
    (h : GatewaySafe options s) (hopened : s.sources.lookup id = some opened)
    (hsafe : OpenedSource.Safe s ⟨opened.file, source⟩) :
    GatewaySafe options { s with sources := s.sources.insert id ⟨opened.file, source⟩ } where
  coherent := h.coherent
  keyed := h.keyed
  metadata := h.metadata
  links := h.links_grow (.of_eq rfl rfl)
  opens id' opening hlookup := (h.opens id' opening hlookup).grows (.of_eq rfl rfl)
  sources id' opened' hlookup := by
    rw [Table.lookup_insert] at hlookup
    split at hlookup
    · cases hlookup
      exact hsafe.grows (.of_eq rfl rfl)
    · exact (h.sources id' opened' hlookup).grows (.of_eq rfl rfl)
  owned id' opened' hlookup := by
    rw [Table.lookup_insert] at hlookup
    split at hlookup
    · next hid =>
      subst hid
      exact h.owned id' opened hopened
    · exact h.owned id' opened' hlookup
  reads id' reading hlookup := by
    obtain ⟨opened', hopened', hsize, hphase⟩ := h.reads id' reading hlookup
    simp only [Table.lookup_insert]
    by_cases hid : reading.source = id
    · rw [hid, hopened] at hopened'
      cases hopened'
      exact ⟨⟨opened.file, source⟩, by rw [if_pos hid], hsize, hphase.grows (.of_eq rfl rfl)⟩
    · exact ⟨opened', by rw [if_neg hid, hopened'], hsize, hphase.grows (.of_eq rfl rfl)⟩

theorem SameCalls.live {id : ℕ} (hsame : SameCalls s t) (hlive : Live s id) : Live t id := by
  intro opening result hlookup
  exact hlive opening result (hsame.opens ▸ hlookup)

/-! ## Steps of an `Open` -/

theorem GatewaySafe.storeMetadata (identifier : ObjectID) {metadata : FileMetadata}
    (h : GatewaySafe options s) (haccepted : metadata.Accepted) :
    GatewaySafe options { s with
      metadata := Expiring.store s.now options.metadataTTL s.metadata identifier metadata } :=
  h.grows (.of_eq rfl rfl) ⟨rfl, rfl, rfl⟩ h.coherent h.keyed (h.metadata.store haccepted)
    (h.links_grow (.of_eq rfl rfl))

theorem loadMetadataStep_safe {id : ℕ} {opening : Opening} {identifier : ObjectID}
    (h : GatewaySafe options s) (hlive : Live s id) :
    GatewaySafe options (loadMetadataStep s id opening identifier) := by
  unfold loadMetadataStep
  split
  · next metadata hload =>
    obtain ⟨storedAt, -, -, haccepted⟩ := h.metadata.load hload
    exact h.setOpen haccepted hlive
  · exact h.setOpen trivial hlive

theorem requestMetadataStep_safe {id : ℕ} {opening : Opening} {identifier : ObjectID}
    {answers : MetadataAnswers} (h : GatewaySafe options s) (hcached : answers.cached = none)
    (hlive : Live s id) :
    GatewaySafe options (requestMetadataStep options s id opening identifier answers) := by
  unfold requestMetadataStep
  dsimp only
  split
  · exact h.setOpen trivial hlive
  · next metadata hload =>
    have haccepted := loadMetadata_accepted hcached hload
    exact GatewaySafe.setOpen (h.storeMetadata identifier haccepted) haccepted hlive

theorem linkOpenStep_safe {id : ℕ} {opening : Opening} {force : Bool} (h : GatewaySafe options s)
    (hchecked : file.metadata.Accepted) (hlive : Live s id) :
    GatewaySafe options (linkOpenStep s id opening file force) := by
  have hstarted := h.startLink hchecked force
  unfold linkOpenStep
  split
  · next s' url heq =>
    rw [heq] at hstarted
    exact hstarted.safe.returnSource hchecked hstarted.outcome (hstarted.same.live hlive)
  · next s' call heq =>
    rw [heq] at hstarted
    exact hstarted.safe.setOpen hstarted.outcome (hstarted.same.live hlive)

/-- A link that the wait of `downloadURL` ends with has been given for the file. -/
theorem endWait_resolved {call : ℕ} {done : Option ContextError} {wait : LinkWait} {force cached : Bool}
    (hawaits : Awaits s file call) (hwait : endWait s call done = some wait)
    (hurl : downloadURL force ⟨none, wait⟩ = .ok (url, cached)) : Resolved s file.identifier url := by
  cases done with
  | some e =>
    simp only [endWait, Option.some.injEq] at hwait
    subst hwait
    cases force <;> cases hurl
  | none =>
    obtain ⟨result, hresult, rfl⟩ := Option.map_eq_some_iff.1 hwait
    cases result with
    | error e => cases force <;> cases hurl
    | ok url' =>
      have hsame : url' = url := by
        cases force <;> cases hurl <;> rfl
      subst hsame
      exact ⟨call, file.key, hawaits.made, hresult⟩

theorem wakeOpenStep_safe {id call : ℕ} {opening : Opening} {force : Bool} {done : Option ContextError}
    {wait : LinkWait} (h : GatewaySafe options s) (hawaits : Awaits s file call)
    (hwait : endWait s call done = some wait) (hlive : Live s id) :
    GatewaySafe options (wakeOpenStep s id opening file force wait) := by
  unfold wakeOpenStep
  dsimp only
  split
  · exact h.setOpen trivial hlive
  · next url cached hurl =>
    exact h.setOpen ⟨hawaits.checked, endWait_resolved hawaits hwait hurl⟩ hlive

theorem invalidateOpen_safe {id : ℕ} {opening : Opening} (h : GatewaySafe options s)
    (hchecked : file.metadata.Accepted) (hlive : Live s id) :
    GatewaySafe options
      ((invalidateDownloadURL s file url).setOpen id { opening with phase := .linking file true }) :=
  h.invalidateDownloadURL.setOpen hchecked (invalidateDownloadURL_same.live hlive)

theorem cacheOpen_safe {id : ℕ} {opening : Opening} (h : GatewaySafe options s)
    (hchecked : file.metadata.Accepted) (hvouched : Vouched s file url) (hlive : Live s id) :
    GatewaySafe options (returnSource (cacheDownloadURL options s file url) id opening file url) :=
  (h.cacheDownloadURL hchecked hvouched).returnSource hchecked (hvouched.grows (.of_eq rfl rfl)) hlive

end Calls

section Opens

variable [TextTables] {options : GatewayOptions} {s t : GatewayState} {file : LinkedFile} {url : String}

theorem validateOpenStep_safe {id : ℕ} {opening : Opening} {again : Bool} {validation : Validation}
    (h : GatewaySafe options s) (hchecked : file.metadata.Accepted)
    (hresolved : Resolved s file.identifier url) (hlive : Live s id) :
    GatewaySafe options (validateOpenStep s id opening file url again validation) := by
  have hsafe := h.acceptLink url validation file.metadata.size
  have hlive' : Live (acceptLink s validation url file.metadata.size) id := (acceptLink_same _ _ _).live hlive
  unfold validateOpenStep
  dsimp only
  split
  · exact hsafe.setOpen hchecked hlive'
  · split
    · exact hsafe.setOpen trivial hlive'
    · next haccepted => exact hsafe.setOpen ⟨hchecked, hresolved.acceptLink haccepted⟩ hlive'

/-- Every action of an `Open` is safe. -/
theorem openStep_safe {id : ℕ} {opening : Opening} {label : GatewayLabel} (h : GatewaySafe options s)
    (hopening : s.opens.lookup id = some opening) (hstep : openStep options s id opening label = some t) :
    GatewaySafe options t := by
  have hphase := h.opens id opening hopening
  have hlive : (∀ result, opening.phase ≠ .returned result) → Live s id := by
    intro hne opening' result hlookup
    rw [hopening] at hlookup
    cases hlookup
    exact hne result
  cases label with
  | loadMetadata _ =>
    simp only [openStep] at hstep
    split at hstep <;> cases hstep
    next hat => exact loadMetadataStep_safe h (hlive (by simp [hat]))
  | requestMetadata _ joinPath exchange =>
    simp only [openStep] at hstep
    split at hstep <;> cases hstep
    next hat => exact requestMetadataStep_safe h rfl (hlive (by simp [hat]))
  | linkOpen _ =>
    simp only [openStep] at hstep
    split at hstep <;> cases hstep
    next hat =>
      rw [hat] at hphase
      exact linkOpenStep_safe h hphase (hlive (by simp [hat]))
  | wakeOpen _ done =>
    simp only [openStep] at hstep
    split at hstep
    · next hat =>
      obtain ⟨wait, hwait, rfl⟩ := Option.map_eq_some_iff.1 hstep
      rw [hat] at hphase
      exact wakeOpenStep_safe h hphase hwait (hlive (by simp [hat]))
    · cases hstep
  | validateOpen _ validation =>
    simp only [openStep] at hstep
    split at hstep <;> cases hstep
    next hat =>
      rw [hat] at hphase
      exact validateOpenStep_safe h hphase.1 hphase.2 (hlive (by simp [hat]))
  | invalidateOpen _ =>
    simp only [openStep] at hstep
    split at hstep <;> cases hstep
    next hat =>
      rw [hat] at hphase
      exact invalidateOpen_safe h hphase (hlive (by simp [hat]))
  | cacheOpen _ =>
    simp only [openStep] at hstep
    split at hstep <;> cases hstep
    next hat =>
      rw [hat] at hphase
      exact cacheOpen_safe h hphase.1 hphase.2 (hlive (by simp [hat]))
  | _ => cases hstep

end Opens

/-! ## Steps of a `ReadAt` -/

section Reads

variable {options : GatewayOptions} {s t : GatewayState} {file : LinkedFile} {url : String}

theorem SameCalls.source {id : ℕ} {opened : OpenedSource} (hsame : SameCalls s t)
    (hopened : s.sources.lookup id = some opened) : t.sources.lookup id = some opened :=
  hsame.sources ▸ hopened

theorem linkReadStep_safe {id : ℕ} {reading : Reading} {opened : OpenedSource}
    (h : GatewaySafe options s) (hopened : s.sources.lookup reading.source = some opened)
    (hsize : reading.answers.source.size = opened.file.metadata.size) :
    GatewaySafe options (linkReadStep s id reading opened.file) := by
  have hchecked := (h.sources _ _ hopened).checked
  have hstarted := h.startLink hchecked true
  unfold linkReadStep
  split
  · next s' url heq =>
    rw [heq] at hstarted
    have hvouched : Vouched s' opened.file url := hstarted.outcome
    exact hstarted.safe.setRead { reading with phase := .validating url } opened
      (hstarted.same.source hopened) hsize hvouched.resolved
  · next s' call heq =>
    rw [heq] at hstarted
    exact hstarted.safe.setRead { reading with phase := .awaiting call } opened
      (hstarted.same.source hopened) hsize hstarted.outcome

theorem wakeReadStep_safe {id call : ℕ} {reading : Reading} {opened : OpenedSource}
    {done : Option ContextError} {wait : LinkWait} (h : GatewaySafe options s)
    (hopened : s.sources.lookup reading.source = some opened)
    (hsize : reading.answers.source.size = opened.file.metadata.size) (hawaits : Awaits s opened.file call)
    (hwait : endWait s call done = some wait) : GatewaySafe options (wakeReadStep s id reading wait) := by
  unfold wakeReadStep
  dsimp only
  split
  · exact h.setRead _ opened hopened hsize trivial
  · next url cached hurl =>
    exact h.setRead _ opened hopened hsize (endWait_resolved hawaits hwait hurl)

theorem storeReadStep_safe {id : ℕ} {reading : Reading} {opened : OpenedSource} (h : GatewaySafe options s)
    (hopened : s.sources.lookup reading.source = some opened)
    (hsize : reading.answers.source.size = opened.file.metadata.size) (hvouched : Vouched s opened.file url) :
    GatewaySafe options (storeReadStep s id reading opened url) := by
  have hsource := h.sources _ _ hopened
  have hset : GatewaySafe options (s.setRead id { reading with phase := .again url }) :=
    h.setRead _ opened hopened hsize hvouched
  exact hset.setSource reading.source { opened.source with download := url } hopened
    ⟨hsource.checked, hsource.size, hsource.validator, hvouched.grows (.of_eq rfl rfl)⟩

end Reads

section Runs

variable [TextTables] {options : GatewayOptions} {s t : GatewayState} {file : LinkedFile} {url : String}

theorem requestRangeStep_safe {id : ℕ} {reading : Reading} {opened : OpenedSource} {client : Client}
    (h : GatewaySafe options s) (hopened : s.sources.lookup reading.source = some opened)
    (hsize : reading.answers.source.size = opened.file.metadata.size) :
    GatewaySafe options (requestRangeStep s id reading opened.source client) := by
  unfold requestRangeStep
  dsimp only
  split
  · exact h.setRead _ opened hopened hsize trivial
  · exact h.setRead _ opened hopened hsize trivial

theorem validateReadStep_safe {id : ℕ} {reading : Reading} {opened : OpenedSource} {validation : Validation}
    (h : GatewaySafe options s) (hopened : s.sources.lookup reading.source = some opened)
    (hsize : reading.answers.source.size = opened.file.metadata.size)
    (hresolved : Resolved s opened.file.identifier url) :
    GatewaySafe options (validateReadStep s id reading opened.file url validation) := by
  have hsafe := h.acceptLink url validation opened.file.metadata.size
  have hsame := acceptLink_same (s := s) url validation opened.file.metadata.size
  unfold validateReadStep
  dsimp only
  split
  · exact hsafe.setRead _ opened (hsame.source hopened) hsize trivial
  · next haccepted =>
    exact hsafe.setRead _ opened (hsame.source hopened) hsize (hresolved.acceptLink haccepted)

/-- Every action of a `ReadAt` is safe. -/
theorem readStep_safe {id : ℕ} {reading : Reading} {opened : OpenedSource} {label : GatewayLabel}
    (h : GatewaySafe options s) (hreading : s.reads.lookup id = some reading)
    (hopened : s.sources.lookup reading.source = some opened)
    (hstep : readStep options s id reading opened label = some t) : GatewaySafe options t := by
  obtain ⟨hsize, hphase⟩ : reading.answers.source.size = opened.file.metadata.size ∧
      reading.phase.Safe s opened.file := by
    obtain ⟨opened', hopened', hread⟩ := h.reads id reading hreading
    rw [hopened] at hopened'
    cases hopened'
    exact hread
  cases label with
  | requestRange _ client =>
    simp only [readStep] at hstep
    split at hstep <;> cases hstep
    exact requestRangeStep_safe h hopened hsize
  | linkRead _ =>
    simp only [readStep] at hstep
    split at hstep <;> cases hstep
    exact linkReadStep_safe h hopened hsize
  | wakeRead _ done =>
    simp only [readStep] at hstep
    split at hstep
    · next hat =>
      obtain ⟨wait, hwait, rfl⟩ := Option.map_eq_some_iff.1 hstep
      rw [hat] at hphase
      exact wakeReadStep_safe h hopened hsize hphase hwait
    · cases hstep
  | validateRead _ validation =>
    simp only [readStep] at hstep
    split at hstep <;> cases hstep
    next hat =>
      rw [hat] at hphase
      exact validateReadStep_safe h hopened hsize hphase
  | cacheRead _ =>
    simp only [readStep] at hstep
    split at hstep <;> cases hstep
    next url hat =>
      rw [hat] at hphase
      have hvouched : Vouched s opened.file url := hphase
      have hkept := h.cacheDownloadURL (h.sources _ _ hopened).checked hvouched
      exact hkept.setRead _ opened hopened hsize (hvouched.grows (.of_eq rfl rfl))
  | storeRead _ =>
    simp only [readStep] at hstep
    split at hstep <;> cases hstep
    next hat =>
      rw [hat] at hphase
      exact storeReadStep_safe h hopened hsize hphase
  | requestAgain _ client =>
    simp only [readStep] at hstep
    split at hstep <;> cases hstep
    exact h.setRead _ opened hopened hsize trivial
  | _ => cases hstep

/-! ## Runs -/

/-- The first phase of an `Open` says nothing about links. -/
theorem startOpening_safe (before : Option ContextError) (backing : BackingRef) :
    (startOpening before backing).Safe s := by
  unfold startOpening
  split
  · trivial
  · split
    · trivial
    · split <;> trivial

theorem startReading_safe (source : ℕ) (opened : OpenedSource) (ctx : ReadContext)
    (destination : List UInt8) (offset : ℤ) :
    (startReading source opened ctx destination offset).phase.Safe s opened.file := by
  unfold startReading
  dsimp only
  split <;> trivial

@[simp] theorem startReading_answers (source : ℕ) (opened : OpenedSource) (ctx : ReadContext)
    (destination : List UInt8) (offset : ℤ) :
    (startReading source opened ctx destination offset).answers.source = opened.source := by
  unfold startReading
  dsimp only
  split <;> rfl

@[simp] theorem startReading_source (source : ℕ) (opened : OpenedSource) (ctx : ReadContext)
    (destination : List UInt8) (offset : ℤ) :
    (startReading source opened ctx destination offset).source = source := by
  unfold startReading
  dsimp only
  split <;> rfl

/-- One action of a call that has begun. -/
theorem callStep_safe {label : GatewayLabel} {caller : Caller} (h : GatewaySafe options s)
    (hstep : callStep options s label caller = some t) : GatewaySafe options t := by
  cases caller with
  | opening id =>
    obtain ⟨opening, hopening, hstep⟩ := Option.bind_eq_some_iff.1 hstep
    exact openStep_safe h hopening hstep
  | reading id =>
    obtain ⟨reading, hreading, hstep⟩ := Option.bind_eq_some_iff.1 hstep
    obtain ⟨opened, hopened, hstep⟩ := Option.bind_eq_some_iff.1 hstep
    exact readStep_safe h hreading hopened hstep

variable [URLTexts]

theorem gatewayStep_safe {label : GatewayLabel} (h : GatewaySafe options s)
    (hstep : gatewayStep options s label = some t) : GatewaySafe options t := by
  cases label with
  | elapse duration =>
    cases hstep
    exact h.elapse duration
  | resolve call answers =>
    obtain ⟨made, -, hstep⟩ := Option.bind_eq_some_iff.1 hstep
    obtain ⟨requests, hfinish, hstep⟩ := Option.bind_eq_some_iff.1 hstep
    cases hstep
    exact h.finish hfinish
  | «open» id before backing =>
    simp only [gatewayStep] at hstep
    split at hstep <;> cases hstep
    next hfree =>
      refine h.setOpen (startOpening_safe before backing) fun opening result hlookup => ?_
      rw [hlookup] at hfree
      exact absurd rfl hfree
  | read id source ctx destination offset =>
    simp only [gatewayStep] at hstep
    split at hstep
    · cases hstep
    · obtain ⟨opened, hopened, hstep⟩ := Option.bind_eq_some_iff.1 hstep
      cases hstep
      exact h.setRead _ opened (by rw [startReading_source, hopened])
        (by rw [startReading_answers, (h.sources _ _ hopened).size])
        (startReading_safe source opened ctx destination offset)
  | close id =>
    obtain ⟨opened, hopened, hstep⟩ := Option.bind_eq_some_iff.1 hstep
    cases hstep
    have hsource := h.sources id opened hopened
    exact h.setSource _ _ hopened ⟨hsource.checked, hsource.size, hsource.validator, hsource.vouched⟩
  | loadMetadata | requestMetadata | linkOpen | wakeOpen | validateOpen | invalidateOpen | cacheOpen
  | requestRange | linkRead | wakeRead | validateRead | cacheRead | storeRead | requestAgain =>
    simp only [gatewayStep, GatewayLabel.caller, Option.bind_some] at hstep
    exact callStep_safe h hstep

theorem gatewaySafe_of_reachable (h : (gatewaySystem options).Reachable s) : GatewaySafe options s := by
  refine h.invariant ?_ fun s label t hs _ hstep => gatewayStep_safe hs hstep
  rintro s ⟨now, rfl⟩
  exact newGateway_safe now

/-! ## What the gateway promises -/

/-- The links of a state are each for one file and one size, and are asked for once at a time. -/
structure LinksVouched (s : GatewayState) : Prop where
  /-- At most one request for a key is running. -/
  single : ∀ (key : String) (i j : ℕ) (input input' : ObjectID),
    s.requests.calls[i]? = some ⟨key, input, none⟩ →
    s.requests.calls[j]? = some ⟨key, input', none⟩ → i = j
  /-- A link that `Open` would take from the cache has been given for the file, and accepted for it. -/
  cached : ∀ file : LinkedFile, file.metadata.Accepted → ∀ url,
    Expiring.load s.now s.links file.key = some url → Vouched s file url
  /-- The link of every opened source is vouched for its file. -/
  opened : ∀ id opened, s.sources.lookup id = some opened → opened.source.size = opened.file.metadata.size ∧
    Vouched s opened.file opened.source.download
  /-- The link of every second request of a read is vouched for its file. -/
  again : ∀ id reading url, s.reads.lookup id = some reading → reading.phase = .again url →
    ∃ opened, s.sources.lookup reading.source = some opened ∧ Vouched s opened.file url

/-- Every caller that waits for a link can go on: the request that it waits for is for its own file, and
has a result or is still running. -/
structure WaitsEnd (s : GatewayState) : Prop where
  opens : ∀ id opening file force call, s.opens.lookup id = some opening →
    opening.phase = .awaiting file force call → s.requests.Made call file.key file.identifier ∧
      (s.requests.Running call ∨ ∃ wait, endWait s call none = some wait)
  reads : ∀ id reading call, s.reads.lookup id = some reading → reading.phase = .awaiting call →
    ∃ opened, s.sources.lookup reading.source = some opened ∧
      s.requests.Made call opened.file.key opened.file.identifier ∧
      (s.requests.Running call ∨ ∃ wait, endWait s call none = some wait)

omit [TextTables] [URLTexts] in
theorem Awaits.ends {call : ℕ} (h : Awaits s file call) : s.requests.Made call file.key file.identifier ∧
    (s.requests.Running call ∨ ∃ wait, endWait s call none = some wait) := by
  refine ⟨h.made, ?_⟩
  rcases h.made.running_or_result with hrunning | ⟨result, hresult⟩
  · exact .inl hrunning
  · exact .inr ⟨.resolved result, by rw [endWait, hresult, Option.map_some]⟩

/-- In every interleaving, links are used for the file and the size that they were given and accepted
for, at most one request for a key runs at a time, and no caller waits for a request that is lost. -/
theorem links_vouched (h : (gatewaySystem options).Reachable s) : LinksVouched s ∧ WaitsEnd s := by
  have hsafe := gatewaySafe_of_reachable h
  refine ⟨⟨?_, ?_, ?_, ?_⟩, ⟨?_, ?_⟩⟩
  · intro key i j input input' hi hj
    exact hsafe.coherent.single hi hj
  · intro file hchecked url hload
    obtain ⟨storedAt, -, -, hcached⟩ := hsafe.links.load hload
    exact CachedFor.vouched hcached hchecked
  · intro id opened hopened
    have hsource := hsafe.sources id opened hopened
    exact ⟨hsource.size, hsource.vouched⟩
  · intro id reading url hreading hat
    obtain ⟨opened, hopened, -, hphase⟩ := hsafe.reads id reading hreading
    rw [hat] at hphase
    exact ⟨opened, hopened, hphase⟩
  · intro id opening file force call hopening hat
    have hphase := hsafe.opens id opening hopening
    rw [hat] at hphase
    exact Awaits.ends hphase
  · intro id reading call hreading hat
    obtain ⟨opened, hopened, -, hphase⟩ := hsafe.reads id reading hreading
    rw [hat] at hphase
    exact ⟨opened, hopened, Awaits.ends hphase⟩

end Runs

section SmallRun

/-- A parser that takes every text for a link of one host. -/
@[reducible] def smallLinks : URLTexts where
  parse _ := some ⟨"https", false, "cdn", "", []⟩
  text data := data

attribute [local instance] TextTables.ascii smallLinks

def smallGatewayOptions : GatewayOptions := ⟨"secret", 60, 30⟩

/-- A torrent with one file of two bytes. -/
def smallTorrentAnswer : Exchange (ApiResponse MetadataEnvelope) where
  newRequest _ := none
  send _ := .ok ⟨200, .ok ⟨true, "", some ⟨7, true, true, [⟨1, 2, "h", "", false, false, by decide⟩]⟩, none⟩,
    some .eof, none⟩
  after := none

def smallLinkAnswer (url : String) : LinkRequestAnswers where
  joinPath := .ok "https://api/torrents/requestdl"
  newRequest _ := none
  send _ := .ok ⟨200, .ok ⟨true, "", url⟩, some .eof, none⟩
  after := none

/-- A CDN that serves one byte of the file. -/
def smallCDN : Client where
  newRequest _ := none
  send _ := .ok ⟨206, fun _ => "bytes 0-0/2", ⟨[5], none, none⟩⟩

/-- A CDN that refuses links. -/
def refusingCDN : Client where
  newRequest _ := none
  send _ := .ok ⟨403, fun _ => "", ⟨[], none, none⟩⟩

def smallBacking : BackingRef := ⟨providerName, "7:1"⟩

/-- A file is opened twice with one request for the link, and then a read has the link refused. -/
def smallRefusedRun : List GatewayLabel :=
  [.open 0 none smallBacking, .loadMetadata 0, .requestMetadata 0 (.ok "u") smallTorrentAnswer,
    .open 1 none smallBacking, .loadMetadata 1, .linkOpen 0, .linkOpen 1, .resolve 0 (smallLinkAnswer "a"),
    .wakeOpen 0 none, .wakeOpen 1 none, .validateOpen 0 ⟨smallCDN, none⟩, .cacheOpen 0,
    .read 0 0 ⟨none, none⟩ [0] 0, .requestRange 0 refusingCDN]

/-- The read has the link refreshed. -/
def smallRefreshRun : List GatewayLabel :=
  [.linkRead 0, .resolve 1 (smallLinkAnswer "b"), .wakeRead 0 none, .validateRead 0 ⟨smallCDN, none⟩,
    .cacheRead 0, .storeRead 0]

theorem links_vouched_small : ∃ s opened,
    (gatewaySystem smallGatewayOptions).run (newGateway 0) (smallRefusedRun ++ smallRefreshRun) = some s ∧
      s.requests.calls.length = 2 ∧ s.sources.lookup 0 = some opened ∧ opened.source.download = "b" ∧
      LinksVouched s ∧ WaitsEnd s := by
  have hvalues : ((gatewaySystem smallGatewayOptions).run (newGateway 0) (smallRefusedRun ++ smallRefreshRun)).bind (fun s =>
      (s.sources.lookup 0).map fun opened => (s.requests.calls.length, opened.source.download)) =
        some (2, "b") := by
    decide +kernel
  simp only [Option.bind_eq_some_iff, Option.map_eq_some_iff, Prod.mk.injEq] at hvalues
  obtain ⟨s, hs, opened, hopened, hcalls, hdownload⟩ := hvalues
  have hreachable : (gatewaySystem smallGatewayOptions).Reachable s :=
    System.reachable_of_run ⟨0, rfl⟩ hs
  exact ⟨s, opened, hs, hcalls, hopened, hdownload, links_vouched hreachable⟩

end SmallRun

end BlackPearl.Torbox
