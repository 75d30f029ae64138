import BlackPearl.Acquisition.Job
import BlackPearl.InternetArchive.ObjectID
import BlackPearl.Library.Json
import BlackPearl.Library.Sorting

/-!
# Listing and opening archive files

`ListRangeCandidates` of `internal/gateway/internetarchive/files.go`, and how `Open` finds the file
that an identity names. Both walk the same sorted files of an item's metadata. A name is normalized
when a file is read, so that several files of a document may have one name, and then one identity;
opening finds the first of them (`resolveObjectID_agrees_iff`).
-/

set_option autoImplicit false

namespace BlackPearl.InternetArchive

open BlackPearl.Library BlackPearl.Domain BlackPearl.Acquisition

/-! ## Files -/

def providerName : String := "internet-archive"

def internetArchiveTag : String := "Internet Archive"

def maximumRangeCandidates : ℕ := 100

/-- `archiveFile`. A size that is missing is `none`. -/
structure ArchiveFile where
  name : String
  size : Option Json
  sha1 : String
  source : String

/-- `exactFile`. -/
structure ExactFile where
  name : String
  size : ℤ
  sha1 : String
  source : String
  deriving DecidableEq, Repr

/-- The integers of 64 bits that a literal can denote. -/
def parseInt64 (literal : List Char) : Option ℤ :=
  (parseDecimal literal).filter fun n => decide (-2 ^ 63 ≤ n) && decide (n < 2 ^ 63)

/-- `parsePositiveSize`. -/
def parsePositiveSize : Option Json → Option ℤ
  | some (.number literal) => (parseInt64 literal.1).filter fun size => 0 < size
  | some (.string t) =>
      (parseInt64 (ByteText.runes t)).filter fun size =>
        decide (0 < size) && decide (decimal size = ByteText.runes t)
  | _ => none

section Files

variable [TextTables]

/-- One step of the loop of `eligibleExactFiles`. -/
def exactFile (file : ArchiveFile) : Option ExactFile :=
  let source := toLowerString (trimSpace file.source)
  if source ≠ "original" ∧ source ≠ "derivative" then none
  else
    match parsePositiveSize file.size with
    | none => none
    | some size =>
      let sha := toLowerString (trimSpace file.sha1)
      match decodeHex sha.toList with
      | none => none
      | some decoded =>
        if decoded.length ≠ 20 then none
        else
          let name := cleanMediaName file.name
          let extension := toLowerString (String.ofList (pathExt name.toList))
          if extension ≠ ".mp4" ∧ extension ≠ ".mkv" then none
          else some { name := name, size := size, sha1 := sha, source := source }

/-- The comparison that `eligibleExactFiles` sorts by. -/
def exactFileLess (left right : ExactFile) : Bool :=
  let leftOriginal := decide (left.source = "original")
  let rightOriginal := decide (right.source = "original")
  if leftOriginal ≠ rightOriginal then leftOriginal
  else textLess (toLowerString left.name) (toLowerString right.name)

/-- `eligibleExactFiles`. -/
def eligibleExactFiles (sorter : Sorter ExactFile) (files : List ArchiveFile) : List ExactFile :=
  sorter.sort exactFileLess (files.filterMap exactFile)

/-- `findExactFile`. -/
def findExactFile (sorter : Sorter ExactFile) (files : List ArchiveFile) (filename : List UInt8) :
    Checked ExactFile :=
  match (eligibleExactFiles sorter files).find? fun file => textBytes file.name = filename with
  | some file => .ok file
  | none => .error "archive file is no longer available"

/-! ## Listing -/

/-- The metadata of an item, with whether `supportedLicense` accepts its license. -/
structure Metadata where
  licensed : Bool
  files : List ArchiveFile

/-- `Gateway`: what `fetchMetadata` returns for an item, and whether `url.JoinPath` accepts an item
below the base URL of the gateway and below the one of the archive. -/
structure Gateway where
  fetchMetadata : String → Checked Metadata
  joinsBase : List UInt8 → Bool
  joins : List UInt8 → Bool

/-- The candidate that `ListRangeCandidates` makes of a file. -/
def rangeCandidate (g : Gateway) (identifier : String) (file : ExactFile) :
    Checked RangeCandidate := do
  let objectID ← encodeFileObjectID g.joins (textBytes identifier) (textBytes file.name)
  let media ← newProviderMediaCandidate ⟨fileProviderName, asciiText objectID⟩ file.name file.size
  newRangeCandidate media internetArchiveTag ("internet-archive:sha1:" ++ file.sha1)

/-- The loop of `ListRangeCandidates`. -/
def listFrom (g : Gateway) (identifier : String) :
    List ExactFile → List RangeCandidate → List RangeCandidate
  | [], result => result
  | file :: files, result =>
    match rangeCandidate g identifier file with
    | .error _ => listFrom g identifier files result
    | .ok candidate =>
      if (result ++ [candidate]).length = maximumRangeCandidates then result ++ [candidate]
      else listFrom g identifier files (result ++ [candidate])

/-- `ListRangeCandidates`. -/
def listRangeCandidates (g : Gateway) (sorter : Sorter ExactFile) (release : Release) :
    Checked (List RangeCandidate) := do
  require (¬ (release.provider ≠ providerName ∨ release.sourceID = ""))
    "internet Archive file listing requires its validated release"
  require (archiveTorrentURL g.joinsBase (textBytes release.sourceID) = true)
    "internet Archive file listing has an invalid item identifier"
  let metadata ← g.fetchMetadata release.sourceID
  require (metadata.licensed = true)
    "internet Archive item does not declare a supported open license"
  return listFrom g release.sourceID (eligibleExactFiles sorter metadata.files) []

/-- What `Open` makes of an identity: the item and the name, and the file of that name. -/
def resolveObjectID (g : Gateway) (sorter : Sorter ExactFile) (files : List ArchiveFile)
    (objectID : String) : Checked ExactFile := do
  let file ← decodeFileObjectID g.joins (textBytes objectID)
  findExactFile sorter files file.2

/-! ## What is listed -/

/-- A file that can be listed. -/
def Listable (g : Gateway) (identifier : String) (file : ExactFile) : Prop :=
  ∃ candidate, rangeCandidate g identifier file = .ok candidate

/-- Whether a file can be listed. -/
def isListable (g : Gateway) (identifier : String) (file : ExactFile) : Bool :=
  (rangeCandidate g identifier file).isOk

theorem isListable_iff {g : Gateway} {identifier : String} {file : ExactFile} :
    isListable g identifier file = true ↔ Listable g identifier file := by
  unfold isListable Listable
  cases rangeCandidate g identifier file with
  | ok candidate => exact iff_of_true rfl ⟨candidate, rfl⟩
  | error e =>
    refine iff_of_false Bool.false_ne_true ?_
    rintro ⟨candidate, h⟩
    cases h

/-- The candidates that are listed come from the first files that can be listed. -/
theorem listFrom_spec (g : Gateway) (identifier : String) (files : List ExactFile)
    (result : List RangeCandidate) (hshort : result.length < maximumRangeCandidates) :
    ∃ listed, listFrom g identifier files result = result ++ listed ∧
      List.Forall₂ (fun file c => rangeCandidate g identifier file = .ok c)
        ((files.filter (isListable g identifier)).take (maximumRangeCandidates - result.length))
        listed := by
  induction files generalizing result with
  | nil => exact ⟨[], by simp [listFrom], by simp⟩
  | cons file files ih =>
    rw [listFrom]
    cases hcandidate : rangeCandidate g identifier file with
    | error e =>
      have hno : isListable g identifier file = false := by
        rw [isListable, hcandidate]
        rfl
      rw [List.filter_cons_of_neg (by rw [hno]; decide)]
      exact ih result hshort
    | ok c =>
      have hyes : isListable g identifier file = true := isListable_iff.2 ⟨c, hcandidate⟩
      rw [List.filter_cons_of_pos hyes]
      dsimp only
      split
      · rename_i hfull
        rw [List.length_append, List.length_singleton] at hfull
        have hone : maximumRangeCandidates - result.length = 0 + 1 := by omega
        refine ⟨[c], rfl, ?_⟩
        rw [hone, List.take_succ_cons, List.take_zero]
        exact .cons hcandidate .nil
      · rename_i hmore
        rw [List.length_append, List.length_singleton] at hmore
        obtain ⟨listed, hlisted, hpairs⟩ := ih (result ++ [c])
          (by rw [List.length_append, List.length_singleton]; omega)
        rw [List.length_append, List.length_singleton] at hpairs
        have hsucc : maximumRangeCandidates - result.length =
            maximumRangeCandidates - (result.length + 1) + 1 := by omega
        refine ⟨c :: listed, by rw [hlisted, List.append_assoc, List.singleton_append], ?_⟩
        rw [hsucc, List.take_succ_cons]
        exact .cons hcandidate hpairs

/-- The identity, the size and the validator of a listed file. -/
theorem rangeCandidate_spec {g : Gateway} {identifier : String} {file : ExactFile}
    {c : RangeCandidate} (h : rangeCandidate g identifier file = .ok c) :
    (∃ objectID, encodeFileObjectID g.joins (textBytes identifier) (textBytes file.name) =
        .ok objectID ∧ c.media.objectID = asciiText objectID ∧
      newProviderMediaCandidate ⟨fileProviderName, asciiText objectID⟩ file.name file.size =
        .ok c.media) ∧
      c.media.size = file.size ∧ c.validator = "internet-archive:sha1:" ++ file.sha1 := by
  simp only [rangeCandidate, newRangeCandidate, bind_eq_ok, pure_eq_ok, require_eq_ok,
    within_eq_ok] at h
  obtain ⟨objectID, hencode, media, hmedia, validated, hvalidated, _, -, indexer, -, validator,
    hvalidator, rfl⟩ := h
  obtain ⟨hagain, -, hobject, hsize, hbacking, hprovider, -⟩ := newProviderMediaCandidate_idem hmedia
  have hself : media.backing = ⟨media.provider, media.objectID⟩ := by
    rw [MediaCandidate.backing, if_neg hprovider]
  rw [hself, hagain] at hvalidated
  cases hvalidated
  refine ⟨⟨objectID, hencode, hobject, hmedia⟩, hsize, ?_⟩
  simp only [validateRangeValidator, bind_eq_ok, pure_eq_ok, require_eq_ok] at hvalidator
  obtain ⟨_, hclean, -, -, -, -, rfl⟩ := hvalidator
  push Not at hclean
  exact hclean.2

/-- A listed identity decodes to the item and the name of its file. -/
theorem decode_rangeCandidate {g : Gateway} {identifier : String} {file : ExactFile}
    {c : RangeCandidate} (h : rangeCandidate g identifier file = .ok c) :
    decodeFileObjectID g.joins (textBytes c.media.objectID) =
      .ok (textBytes identifier, textBytes file.name) := by
  obtain ⟨⟨objectID, hencode, hobject, -⟩, -, -⟩ := rangeCandidate_spec h
  rw [hobject, textBytes_asciiText fun b hb => encodeFileObjectID_ascii hencode hb]
  exact decodeFileObjectID_of_encode hencode

/-! ## Files of one name -/

omit [TextTables] in
theorem length_of_decodeHex : ∀ {cs : List Char} {bytes : List ℕ}, decodeHex cs = some bytes →
    cs.length = 2 * bytes.length
  | [], bytes, h => by
    cases h
    rfl
  | [_], _, h => by cases h
  | hi :: lo :: rest, bytes, h => by
    simp only [decodeHex, Option.bind_eq_bind, Option.bind_eq_some_iff, Option.pure_def,
      Option.some.injEq] at h
    obtain ⟨_, -, _, -, tail, htail, rfl⟩ := h
    rw [List.length_cons, List.length_cons, List.length_cons, length_of_decodeHex htail]
    omega

/-- A digest that `eligibleExactFiles` accepts. -/
def ValidDigest (sha1 : String) : Prop :=
  ∃ decoded, decodeHex sha1.toList = some decoded ∧ decoded.length = 20

omit [TextTables] in
/-- Such a digest makes a validator. -/
theorem ValidDigest.validator {sha1 : String} (h : ValidDigest sha1) :
    validateRangeValidator ("internet-archive:sha1:" ++ sha1) =
      .ok ("internet-archive:sha1:" ++ sha1) := by
  obtain ⟨decoded, hdecode, htwenty⟩ := h
  have hchars : ∀ c ∈ ("internet-archive:sha1:" ++ sha1).toList,
      c.toNat < 128 ∧ isSpace c = false ∧ isControl c = false := by
    intro c hc
    rw [String.toList_append, List.mem_append] at hc
    rcases hc with hc | hc
    · have hall : ("internet-archive:sha1:".toList.all fun c =>
          decide (c.toNat < 128) && !isSpace c && !isControl c) = true := by decide
      have hone := List.all_eq_true.1 hall c hc
      simp only [Bool.and_eq_true, decide_eq_true_eq, Bool.not_eq_true'] at hone
      exact ⟨hone.1.1, hone.1.2, hone.2⟩
    · have hhex := hexValue_of_decodeHex (by rw [hdecode]; rfl) c hc
      have hascii := toNat_lt_of_hexValue hhex
      refine ⟨hascii, ?_⟩
      exact ascii_cases (P := fun c => (hexValue c).isSome → isSpace c = false ∧ isControl c = false)
        (by decide) c hascii hhex
  have htrim := trimSpace_eq_self fun c hc => (hchars c hc).2.1
  have hlength : ("internet-archive:sha1:" ++ sha1).toList.length = 62 := by
    rw [String.toList_append, List.length_append, length_of_decodeHex hdecode, htwenty]
    rfl
  have hnonempty : "internet-archive:sha1:" ++ sha1 ≠ "" := by
    intro h
    rw [h] at hlength
    cases hlength
  have hcontrol : hasControl ("internet-archive:sha1:" ++ sha1) = false := by
    rw [hasControl, List.any_eq_false]
    intro c hc
    rw [(hchars c hc).2.2]
    exact Bool.false_ne_true
  simp only [validateRangeValidator, bind_eq_ok, pure_eq_ok, require_eq_ok, htrim]
  refine ⟨(), by simp [hnonempty], (), ?_, (), hcontrol, trivial⟩
  rw [byteLength_of_ascii fun c hc => (hchars c hc).1, hlength]
  decide

/-- What an eligible file has. -/
theorem exactFile_spec {file : ArchiveFile} {x : ExactFile} (h : exactFile file = some x) :
    0 < x.size ∧ ValidDigest x.sha1 := by
  unfold exactFile at h
  dsimp only at h
  split at h
  · cases h
  · split at h
    · cases h
    · rename_i size hsize
      split at h
      · cases h
      · rename_i decoded hdecode
        split at h
        · cases h
        · rename_i htwenty
          split at h
          · cases h
          · obtain rfl := Option.some.inj h
            refine ⟨?_, decoded, hdecode, not_not.1 htwenty⟩
            unfold parsePositiveSize at hsize
            split at hsize
            · have hpos := (Option.filter_eq_some_iff.1 hsize).2
              exact of_decide_eq_true hpos
            · have hpos := (Option.filter_eq_some_iff.1 hsize).2
              rw [Bool.and_eq_true, decide_eq_true_eq] at hpos
              exact hpos.1
            · cases hsize

theorem mem_eligibleExactFiles {sorter : Sorter ExactFile} {files : List ArchiveFile} {x : ExactFile}
    (h : x ∈ eligibleExactFiles sorter files) : 0 < x.size ∧ ValidDigest x.sha1 := by
  obtain ⟨file, -, hfile⟩ := List.mem_filterMap.1 (sorter.mem_sort.1 h)
  exact exactFile_spec hfile

/-- The size of a candidate matters only by its sign. -/
theorem newProviderMediaCandidate_size {backing : BackingRef} {name : String} {size size' : ℤ}
    {media : MediaCandidate} (h : newProviderMediaCandidate backing name size = .ok media)
    (hsize : 0 < size') :
    newProviderMediaCandidate backing name size' = .ok { media with size := size' } := by
  simp only [newProviderMediaCandidate, bind_eq_ok, pure_eq_ok, require_eq_ok, within_eq_ok] at h ⊢
  obtain ⟨validated, hvalidated, _, hpath, _, hsegments, _, hext, _, -, rfl⟩ := h
  exact ⟨validated, hvalidated, (), hpath, (), hsegments, (), hext, (), hsize, rfl⟩

/-- Whether a file can be listed depends on its name alone. -/
theorem Listable.of_name_eq {g : Gateway} {identifier : String} {x y : ExactFile}
    (hx : Listable g identifier x) (hname : y.name = x.name) (hsize : 0 < y.size)
    (hdigest : ValidDigest y.sha1) : Listable g identifier y := by
  obtain ⟨c, hc⟩ := hx
  simp only [rangeCandidate, newRangeCandidate, bind_eq_ok, pure_eq_ok, require_eq_ok,
    within_eq_ok] at hc
  obtain ⟨objectID, hencode, media, hmedia, validated, hvalidated, _, hext, indexer, hindexer, -, -,
    rfl⟩ := hc
  have hmedia' := newProviderMediaCandidate_size hmedia hsize
  have hvalidated' := newProviderMediaCandidate_size hvalidated hsize
  refine ⟨⟨{ validated with size := y.size }, indexer, "internet-archive:sha1:" ++ y.sha1⟩, ?_⟩
  simp only [rangeCandidate, newRangeCandidate, bind_eq_ok, pure_eq_ok, require_eq_ok,
    within_eq_ok, hname]
  exact ⟨objectID, hencode, _, hmedia', _, hvalidated', (), hext, indexer, hindexer, _,
    hdigest.validator, rfl⟩

/-! ## Opening what is listed -/

/-- The release and the metadata of its item are such that `ListRangeCandidates` lists files. -/
def ListingAccepted (g : Gateway) (release : Release) (metadata : Metadata) : Prop :=
  release.provider = providerName ∧ release.sourceID ≠ "" ∧
    archiveTorrentURL g.joinsBase (textBytes release.sourceID) = true ∧
    g.fetchMetadata release.sourceID = .ok metadata ∧ metadata.licensed = true

/-- The first files that can be listed, of those that are eligible. -/
def firstListable (g : Gateway) (sorter : Sorter ExactFile) (identifier : String)
    (files : List ArchiveFile) : List ExactFile :=
  ((eligibleExactFiles sorter files).filter (isListable g identifier)).take maximumRangeCandidates

/-- Opening the identity of each listed candidate finds a file of its size and digest. -/
def OpensAsListed (g : Gateway) (sorter : Sorter ExactFile) (release : Release) : Prop :=
  ∀ candidates metadata, listRangeCandidates g sorter release = .ok candidates →
    g.fetchMetadata release.sourceID = .ok metadata → ∀ c ∈ candidates, ∃ file,
      resolveObjectID g sorter metadata.files c.media.objectID = .ok file ∧
        file.size = c.media.size ∧ "internet-archive:sha1:" ++ file.sha1 = c.validator

/-- No two of the files that are listed have one name but different sizes or digests. -/
def NamesTellFiles (g : Gateway) (sorter : Sorter ExactFile) (release : Release) : Prop :=
  ∀ metadata, ListingAccepted g release metadata →
    ∀ x ∈ firstListable g sorter release.sourceID metadata.files,
      ∀ y ∈ firstListable g sorter release.sourceID metadata.files,
        x.name = y.name → x.size = y.size ∧ x.sha1 = y.sha1

theorem listRangeCandidates_eq_ok {g : Gateway} {sorter : Sorter ExactFile} {release : Release}
    {candidates : List RangeCandidate} :
    listRangeCandidates g sorter release = .ok candidates ↔
      ∃ metadata, ListingAccepted g release metadata ∧
        List.Forall₂ (fun file c => rangeCandidate g release.sourceID file = .ok c)
          (firstListable g sorter release.sourceID metadata.files) candidates := by
  have hunique : ∀ {l : List ExactFile} {cs cs' : List RangeCandidate},
      List.Forall₂ (fun file c => rangeCandidate g release.sourceID file = .ok c) l cs →
      List.Forall₂ (fun file c => rangeCandidate g release.sourceID file = .ok c) l cs' →
        cs = cs' := by
    intro l cs cs' h
    induction h generalizing cs' with
    | nil =>
      intro h'
      cases h'
      rfl
    | cons hc _ ih =>
      intro h'
      cases h' with
      | cons hc' hrest' =>
        rw [Except.ok.inj (hc.symm.trans hc'), ih hrest']
  have hlist : ∀ files, ∃ listed, listFrom g release.sourceID (eligibleExactFiles sorter files) [] =
      listed ∧ List.Forall₂ (fun file c => rangeCandidate g release.sourceID file = .ok c)
        (firstListable g sorter release.sourceID files) listed := by
    intro files
    obtain ⟨listed, hlisted, hpairs⟩ := listFrom_spec g release.sourceID
      (eligibleExactFiles sorter files) [] (by decide)
    exact ⟨listed, hlisted, hpairs⟩
  simp only [listRangeCandidates, bind_eq_ok, pure_eq_ok, require_eq_ok, not_or, not_not,
    ListingAccepted]
  constructor
  · rintro ⟨_, ⟨hprovider, hsource⟩, _, hjoins, metadata, hfetch, _, hlicensed, rfl⟩
    obtain ⟨listed, hlisted, hpairs⟩ := hlist metadata.files
    exact ⟨metadata, ⟨hprovider, hsource, hjoins, hfetch, hlicensed⟩, hlisted ▸ hpairs⟩
  · rintro ⟨metadata, ⟨hprovider, hsource, hjoins, hfetch, hlicensed⟩, hcandidates⟩
    obtain ⟨listed, hlisted, hpairs⟩ := hlist metadata.files
    exact ⟨(), ⟨hprovider, hsource⟩, (), hjoins, metadata, hfetch, (), hlicensed,
      hlisted.trans (hunique hpairs hcandidates)⟩

/-- The identity of a listed file leads to the first eligible file of its name. -/
theorem resolveObjectID_rangeCandidate {g : Gateway} {sorter : Sorter ExactFile}
    {identifier : String} {files : List ArchiveFile} {x : ExactFile} {c : RangeCandidate}
    (hx : x ∈ eligibleExactFiles sorter files) (hc : rangeCandidate g identifier x = .ok c) :
    ∃ before y after, eligibleExactFiles sorter files = before ++ y :: after ∧ y.name = x.name ∧
      x ∉ before ∧ resolveObjectID g sorter files c.media.objectID = .ok y := by
  have hresolve : resolveObjectID g sorter files c.media.objectID =
      findExactFile sorter files (textBytes x.name) := by
    rw [resolveObjectID, decode_rangeCandidate hc]
    rfl
  rw [hresolve, findExactFile]
  cases hfind : (eligibleExactFiles sorter files).find? fun file =>
      textBytes file.name = textBytes x.name with
  | none =>
    have hno := List.find?_eq_none.1 hfind x hx
    exact absurd (decide_eq_true rfl) hno
  | some y =>
    obtain ⟨hname, before, after, hsplit, hbefore⟩ := List.find?_eq_some_iff_append.1 hfind
    refine ⟨before, y, after, hsplit, textBytes_injective (of_decide_eq_true hname), ?_, rfl⟩
    intro hmem
    have hno := hbefore x hmem
    rw [decide_eq_true rfl] at hno
    cases hno

omit [TextTables] in
/-- What is taken from the front with a later element is taken. -/
theorem mem_take_of_append {x y : ExactFile} {before after : List ExactFile} {n : ℕ}
    (hx : x ∈ (before ++ y :: after).take n) (hbefore : x ∉ before) :
    y ∈ (before ++ y :: after).take n := by
  have hn : before.length < n := by
    by_contra hshort
    rw [List.take_append_of_le_length (by omega)] at hx
    exact hbefore (List.mem_of_mem_take hx)
  have hsplit : n = before.length + (n - before.length - 1 + 1) := by omega
  rw [hsplit, List.take_length_add_append, List.take_succ_cons]
  exact List.mem_append_right _ List.mem_cons_self

/-- Opening agrees with the listing exactly if the names of the listed files tell them apart. -/
theorem opensAsListed_iff (g : Gateway) (sorter : Sorter ExactFile) (release : Release) :
    OpensAsListed g sorter release ↔ NamesTellFiles g sorter release := by
  constructor
  · intro h metadata haccepted x hx y hy hname
    have hlistable : ∀ z ∈ firstListable g sorter release.sourceID metadata.files,
        ∃ c, rangeCandidate g release.sourceID z = .ok c := fun z hz =>
      isListable_iff.1 (List.mem_filter.1 (List.mem_of_mem_take hz)).2
    obtain ⟨candidates, hcandidates⟩ := exists_forall₂ hlistable
    have hlist := listRangeCandidates_eq_ok.2 ⟨metadata, haccepted, hcandidates⟩
    have hfirst : ∀ z ∈ firstListable g sorter release.sourceID metadata.files, z.name = x.name →
        ∃ file, findExactFile sorter metadata.files (textBytes x.name) = .ok file ∧
          file.size = z.size ∧ file.sha1 = z.sha1 := by
      intro z hz hzname
      obtain ⟨c, hc, hzc⟩ := exists_of_mem_forall₂ (hcandidates.flip) hz
      obtain ⟨file, hresolve, hsize, hdigest⟩ := h candidates metadata hlist haccepted.2.2.2.1 c hc
      obtain ⟨-, hcsize, hvalidator⟩ := rangeCandidate_spec hzc
      rw [resolveObjectID, decode_rangeCandidate hzc] at hresolve
      refine ⟨file, hzname ▸ hresolve, hsize.trans hcsize, ?_⟩
      exact (String.append_right_inj _).1 (hdigest.trans hvalidator)
    obtain ⟨file, hfile, hsize, hdigest⟩ := hfirst x hx rfl
    obtain ⟨file', hfile', hsize', hdigest'⟩ := hfirst y hy hname.symm
    obtain rfl := Except.ok.inj (hfile.symm.trans hfile')
    exact ⟨hsize.symm.trans hsize', hdigest.symm.trans hdigest'⟩
  · intro h candidates metadata hlist hfetch c hc
    obtain ⟨metadata', haccepted, hpairs⟩ := listRangeCandidates_eq_ok.1 hlist
    obtain rfl := Except.ok.inj (hfetch.symm.trans haccepted.2.2.2.1)
    obtain ⟨x, hx, hxc⟩ := exists_of_mem_forall₂ hpairs hc
    have heligible := (List.mem_filter.1 (List.mem_of_mem_take hx)).1
    obtain ⟨before, y, after, hsplit, hname, hbefore, hresolve⟩ :=
      resolveObjectID_rangeCandidate heligible hxc
    have hyeligible : y ∈ eligibleExactFiles sorter metadata.files := by
      rw [hsplit]
      exact List.mem_append_right before List.mem_cons_self
    obtain ⟨hysize, hydigest⟩ := mem_eligibleExactFiles hyeligible
    have hylistable : Listable g release.sourceID y :=
      Listable.of_name_eq ⟨c, hxc⟩ hname hysize hydigest
    have hy : y ∈ firstListable g sorter release.sourceID metadata.files := by
      have hxtake := hx
      unfold firstListable at hxtake ⊢
      rw [hsplit, List.filter_append, List.filter_cons_of_pos (isListable_iff.2 hylistable)]
        at hxtake ⊢
      exact mem_take_of_append hxtake fun hmem => hbefore (List.mem_of_mem_filter hmem)
    obtain ⟨hsize, hdigest⟩ := h metadata haccepted y hy x hx hname
    obtain ⟨-, hcsize, hvalidator⟩ := rangeCandidate_spec hxc
    exact ⟨y, hresolve, by rw [hsize, hcsize], by rw [hdigest, hvalidator]⟩

end Files

end BlackPearl.InternetArchive
