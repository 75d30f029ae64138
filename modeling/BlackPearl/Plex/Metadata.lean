import BlackPearl.Domain.Playback
import BlackPearl.Library.Decimal
import BlackPearl.Library.Distinct
import BlackPearl.Library.Sorting
import Mathlib.Data.List.Perm.Subperm

/-!
# The next episode

`internal/gateway/plexmetadata/gateway.go`: the children of a show and of its seasons are read page
by page, and the least episode after the current one is searched season by season. The server is
arbitrary: its answer may depend on the request and on how many requests came before.

`children_correct` says what a listing that is read stands for, and `next_correct` what is found.
-/

set_option autoImplicit false

namespace BlackPearl.Plex

open BlackPearl.Library BlackPearl.Domain

def maximumResponseBytes : ℕ := 2 * 2 ^ 20
def maximumSeasons : ℕ := 100
def maximumEpisodes : ℕ := 1000
def maximumTokenBytes : ℕ := 4 * 2 ^ 10
def maximumPageSize : ℕ := 100

/-! ## Answers -/

/-- `wireEntry`. -/
structure WireEntry where
  type : String
  index : ℤ
  parentIndex : ℤ
  ratingKey : String
  deriving DecidableEq, Repr

/-- `wireContainer`. -/
structure WireContainer where
  size : ℤ
  totalSize : Option ℤ
  offset : Option ℤ
  metadata : List WireEntry
  deriving DecidableEq, Repr

/-- A response: read without an error or not, with its length in bytes, its status, the headers
`X-Plex-Container-Start` and `X-Plex-Container-Total-Size`, and what `json.Unmarshal` decodes or
refuses. Closing its body may fail. -/
structure MetadataResponse where
  intact : Bool
  length : ℕ
  status : ℤ
  containerStart : String
  containerTotalSize : String
  decoded : Option WireContainer
  closed : Bool
  deriving DecidableEq, Repr

/-- What a request comes to: it cannot be constructed, it is not answered, with the context ended or
not, or there is a response. -/
inductive MetadataAnswer
  | notConstructed
  | notSent (ended : Bool)
  | received (response : MetadataResponse)
  deriving DecidableEq, Repr

/-- The part of a request that differs between requests. -/
structure MetadataRequest where
  metadataID : String
  start : ℕ
  size : ℕ
  deriving DecidableEq, Repr

/-- What resolving the next episode fails with: an invalid argument, the end of the context,
`ErrUnavailable`, `ErrUnauthorized` or `ErrNotFound`. A body that cannot be closed is added to the
error there is. -/
inductive NextError
  | invalid (message : String)
  | ended (operation : String)
  | unavailable (operation : String)
  | unauthorized
  | notFound
  | unclosed
  | unclosedAfter (first : NextError)
  deriving DecidableEq, Repr

/-- `metadataContextError`. -/
def metadataContextError (ended : Bool) (operation : String) : NextError :=
  if ended then .ended operation else .unavailable operation

/-- `paginationInteger`; `none` is its error. -/
def paginationInteger (bodyValue : Option ℤ) (headerValue : String) : Option (Option ℤ) :=
  if headerValue = "" then some bodyValue
  else
    match atoi headerValue with
    | none => none
    | some parsed =>
      if bodyValue.isSome ∧ bodyValue ≠ some parsed then none else some (some parsed)
where
  /-- `strconv.Atoi`. -/
  atoi (value : String) : Option ℤ :=
    let parsed :=
      match value.toList with
      | '+' :: digits => if digits.head? = some '-' then none else parseDecimal digits
      | digits => parseDecimal digits
    parsed.filter fun n => decide (-2 ^ 63 ≤ n ∧ n < 2 ^ 63)

/-- `do`, before the body is closed. -/
def readResponse (response : MetadataResponse) : Except NextError MetadataResponse :=
  if response.intact = false ∨ maximumResponseBytes < response.length then
    .error (.unavailable "read Plex metadata response")
  else if response.status = 401 ∨ response.status = 403 then .error .unauthorized
  else if response.status < 200 ∨ 300 ≤ response.status then
    .error (.unavailable "read Plex metadata response")
  else .ok response

/-- `do`. -/
def receive (response : MetadataResponse) : Except NextError MetadataResponse :=
  match readResponse response, response.closed with
  | result, true => result
  | .ok _, false => .error .unclosed
  | .error first, false => .error (.unclosedAfter first)

/-- A page of children; the position is the offset with the total of a paginated answer. -/
structure Page where
  entries : List WireEntry
  position : Option (ℤ × ℤ)
  deriving DecidableEq, Repr

/-- `childrenPage`, from what its request comes to. -/
def childrenPage (maximum : ℕ) (answer : MetadataAnswer) : Except NextError Page :=
  match answer with
  | .notConstructed => .error (.unavailable "construct Plex metadata request")
  | .notSent ended => .error (metadataContextError ended "request Plex metadata")
  | .received response =>
    match receive response with
    | .error e => .error e
    | .ok response =>
      match response.decoded with
      | none => .error (.unavailable "decode Plex metadata response")
      | some container =>
        if container.size < 0 ∨ maximum < container.size ∨
            container.size ≠ container.metadata.length then
          .error (.unavailable "validate Plex metadata response")
        else
          match paginationInteger container.offset response.containerStart,
            paginationInteger container.totalSize response.containerTotalSize with
          | some none, some none => .ok ⟨container.metadata, none⟩
          | some (some offset), some (some total) =>
            if offset < 0 ∨ total < 0 ∨ total < offset then
              .error (.unavailable "validate Plex metadata pagination")
            else .ok ⟨container.metadata, some (offset, total)⟩
          | _, _ => .error (.unavailable "validate Plex metadata pagination")

/-! ## Listings -/

/-- `metadataIDPattern`. -/
def isMetadataID (value : String) : Bool :=
  value.toList.length == 24 &&
    value.toList.all fun c => c.isDigit || decide ('a'.toNat ≤ c.toNat ∧ c.toNat ≤ 'f'.toNat)

/-- The answers of the server, to the request with each number. -/
abbrev Server := ℕ → MetadataRequest → MetadataAnswer

/-- The loop of `children`, with the number of the next request. -/
def childrenFrom (server : Server) (metadataID : String) (maximum start : ℕ)
    (result : List WireEntry) (requested : ℕ) : Except NextError (List WireEntry) × ℕ :=
  if _hfull : maximum ≤ result.length then
    (.error (.unavailable "validate Plex metadata response"), requested)
  else
    let requestSize := min maximumPageSize (maximum - result.length)
    match childrenPage maximum (server requested ⟨metadataID, start, requestSize⟩) with
    | .error e => (.error e, requested + 1)
    | .ok page =>
      match page.position with
      | none =>
        if start ≠ 0 ∨ maximum < page.entries.length then
          (.error (.unavailable "validate Plex metadata pagination"), requested + 1)
        else (.ok page.entries, requested + 1)
      | some (offset, total) =>
        if hpage : offset ≠ start ∨ maximum < total ∨ page.entries.length = 0 ∨
            total < offset + page.entries.length then
          (.error (.unavailable "validate Plex metadata pagination"), requested + 1)
        else if start + page.entries.length = total then
          (.ok (result ++ page.entries), requested + 1)
        else
          childrenFrom server metadataID maximum (start + page.entries.length)
            (result ++ page.entries) (requested + 1)
termination_by maximum - result.length
decreasing_by
  rw [List.length_append]
  omega

/-- `children`. -/
def children (server : Server) (metadataID : String) (maximum requested : ℕ) :
    Except NextError (List WireEntry) × ℕ :=
  if isMetadataID metadataID = false then
    (.error (.unavailable "validate Plex metadata identity"), requested)
  else childrenFrom server metadataID maximum 0 [] requested

/-- `seasonRef`. -/
structure SeasonRef where
  index : ℤ
  id : String
  deriving DecidableEq, Repr

/-- The loop of `seasons`; its map of what it has seen has the indices and keys of the result. -/
def seasonRefs : List WireEntry → List SeasonRef → Except NextError (List SeasonRef)
  | [], result => .ok result
  | entry :: entries, result =>
    if entry.type ≠ "season" ∨ entry.index < 1 ∨ 99 < entry.index ∨
        isMetadataID entry.ratingKey = false then
      seasonRefs entries result
    else
      match result.find? fun season => decide (season.index = entry.index) with
      | some existing =>
        if existing.id ≠ entry.ratingKey then
          .error (.unavailable "validate Plex season metadata")
        else seasonRefs entries result
      | none => seasonRefs entries (result ++ [⟨entry.index, entry.ratingKey⟩])

/-- `seasons`. -/
def seasons (sorter : Sorter SeasonRef) (server : Server) (showID : String) (requested : ℕ) :
    Except NextError (List SeasonRef) × ℕ :=
  match children server showID maximumSeasons requested with
  | (.error e, requested) => (.error e, requested)
  | (.ok entries, requested) =>
    match seasonRefs entries [] with
    | .error e => (.error e, requested)
    | .ok result =>
      (.ok (sorter.sort (fun left right => intLess left.index right.index) result), requested)

/-- Whether `episodes` takes an entry. -/
def episodeOf (season : SeasonRef) (entry : WireEntry) : Bool :=
  !decide (entry.type ≠ "episode" ∨ entry.parentIndex ≠ season.index ∨ entry.index < 1 ∨
    999 < entry.index)

/-- The numbers that `episodes` returns for the entries of a listing. -/
def episodeNumbers (season : SeasonRef) (entries : List WireEntry) : List ℤ :=
  stableSort intLess (appendNew id [] ((entries.filter (episodeOf season)).map WireEntry.index))

/-- `episodes`. -/
def episodes (server : Server) (season : SeasonRef) (requested : ℕ) :
    Except NextError (List ℤ) × ℕ :=
  match children server season.id maximumEpisodes requested with
  | (.error e, requested) => (.error e, requested)
  | (.ok entries, requested) => (.ok (episodeNumbers season entries), requested)

/-! ## The search -/

/-- The coordinate of an episode, if it is one after the current. -/
def coordinateAfter (current : EpisodeCoordinate) (season : SeasonRef) (episode : ℤ) :
    Option EpisodeCoordinate :=
  match newEpisodeCoordinate season.index episode with
  | .error _ => none
  | .ok coordinate => if coordinate.After current then some coordinate else none

/-- The second loop of `Next`, over the seasons. -/
def nextIn (server : Server) (current : EpisodeCoordinate) :
    List SeasonRef → ℕ → Except NextError EpisodeCoordinate × ℕ
  | [], requested => (.error .notFound, requested)
  | season :: seasons, requested =>
    if season.index < current.season then nextIn server current seasons requested
    else
      match episodes server season requested with
      | (.error e, requested) => (.error e, requested)
      | (.ok found, requested) =>
        if season.index = current.season ∧ current.episode ∉ found then
          (.error .notFound, requested)
        else
          match found.findSome? (coordinateAfter current season) with
          | some coordinate => (.ok coordinate, requested)
          | none => nextIn server current seasons requested

/-- `validateToken`. -/
def validateToken (token : String) : Bool :=
  !decide (token = "" ∨ maximumTokenBytes < byteLength token ∨ trimSpace token ≠ token) &&
    token.toList.all fun c => !(isControl c || isSpace c)

/-- `showGUIDPattern`, with what its group matches. -/
def showGUID (externalShowID : String) : Option String :=
  let scheme := "plex://show/".toList
  if scheme.isPrefixOf externalShowID.toList then
    let id := String.ofList (externalShowID.toList.drop scheme.length)
    if isMetadataID id then some id else none
  else none

/-- The checks of `Next` before its first request. The token source gives a token, or none with the
context ended or not. -/
def prepare (ended : Bool) (token : Except Bool String) (externalShowID : String)
    (current : EpisodeCoordinate) : Except NextError String :=
  if ended then .error (.ended "resolve Plex next episode")
  else
    match showGUID externalShowID with
    | none => .error (.invalid "plex show identity is invalid")
    | some showID =>
      match newEpisodeCoordinate current.season current.episode with
      | .error e => .error (.invalid ("current episode coordinate is invalid: " ++ e))
      | .ok _ =>
        match token with
        | .error ended => .error (metadataContextError ended "load Plex metadata credential")
        | .ok token =>
          if validateToken token = false then
            .error (.unavailable "load Plex metadata credential")
          else .ok showID

/-- `Next`, with the number of requests it made. -/
def next (sorter : Sorter SeasonRef) (server : Server) (ended : Bool) (token : Except Bool String)
    (externalShowID : String) (current : EpisodeCoordinate) :
    Except NextError EpisodeCoordinate × ℕ :=
  match prepare ended token externalShowID current with
  | .error e => (.error e, 0)
  | .ok showID =>
    match seasons sorter server showID 0 with
    | (.error e, requested) => (.error e, requested)
    | (.ok found, requested) =>
      if found.all fun season => decide (season.index ≠ current.season) then
        (.error .notFound, requested)
      else nextIn server current found requested

/-! ## What a listing stands for -/

/-- The entries of some pages. -/
def joined (pages : List Page) : List WireEntry := pages.flatMap Page.entries

@[simp] theorem joined_nil : joined [] = [] := rfl

theorem joined_append_singleton (pages : List Page) (page : Page) :
    joined (pages ++ [page]) = joined pages ++ page.entries := by
  simp [joined]

/-- The pages answer requests one after the other, each for the position after the ones before it. -/
def Answered (server : Server) (metadataID : String) (maximum requested : ℕ) (pages : List Page) :
    Prop :=
  ∀ before page after, pages = before ++ page :: after →
    childrenPage maximum (server (requested + before.length) ⟨metadataID, (joined before).length,
      min maximumPageSize (maximum - (joined before).length)⟩) = .ok page

/-- The pages are at the positions where the ones before them end. -/
def Adjacent (pages : List Page) : Prop :=
  ∀ before page after, pages = before ++ page :: after →
    ∃ total, page.position = some (((joined before).length : ℤ), total)

/-- The pages cover the positions below the total of the last one; or there is one page without a
position. -/
def Covered (pages : List Page) : Prop :=
  (∃ page, pages = [page] ∧ page.position = none) ∨
    Adjacent pages ∧ ∃ before last offset, pages = before ++ [last] ∧
      last.position = some (offset, ((joined pages).length : ℤ))

/-- A listing makes at most as many requests as the most entries it may have. If it succeeds, its
entries are those of the pages that were answered, which cover them all. -/
structure ListingCorrect (server : Server) (metadataID : String) (maximum requested : ℕ)
    (result : Except NextError (List WireEntry) × ℕ) : Prop where
  requests : requested ≤ result.2 ∧ result.2 ≤ requested + maximum
  covered : ∀ entries, result.1 = .ok entries → ∃ pages, result.2 = requested + pages.length ∧
    Answered server metadataID maximum requested pages ∧ Covered pages ∧ joined pages = entries ∧
    entries.length ≤ maximum

section Listings

variable {server : Server} {metadataID : String} {maximum requested : ℕ}

/-- An element of a list that grew at its end was there, or is the new one. -/
theorem split_of_append_singleton {α : Type} {l before after : List α} {a last : α}
    (h : l ++ [last] = before ++ a :: after) :
    (before = l ∧ a = last) ∨ ∃ rest, l = before ++ a :: rest := by
  rcases List.eq_nil_or_concat after with rfl | ⟨rest, other, rfl⟩
  · obtain ⟨rfl, hlast⟩ := List.append_inj' h rfl
    exact Or.inl ⟨rfl, (List.cons.inj hlast).1.symm⟩
  · rw [List.concat_eq_append, ← List.cons_append, ← List.append_assoc] at h
    exact Or.inr ⟨rest, (List.append_inj' h rfl).1⟩

theorem Answered.append_singleton {pages : List Page} {page : Page}
    (h : Answered server metadataID maximum requested pages)
    (hpage : childrenPage maximum (server (requested + pages.length) ⟨metadataID,
      (joined pages).length, min maximumPageSize (maximum - (joined pages).length)⟩) = .ok page) :
    Answered server metadataID maximum requested (pages ++ [page]) := by
  intro before other after hsplit
  rcases split_of_append_singleton hsplit with ⟨rfl, rfl⟩ | ⟨rest, hrest⟩
  · exact hpage
  · exact h before other rest hrest

theorem Adjacent.append_singleton {pages : List Page} {page : Page} {total : ℤ}
    (h : Adjacent pages) (hpage : page.position = some (((joined pages).length : ℤ), total)) :
    Adjacent (pages ++ [page]) := by
  intro before other after hsplit
  rcases split_of_append_singleton hsplit with ⟨rfl, rfl⟩ | ⟨rest, hrest⟩
  · exact ⟨total, hpage⟩
  · exact h before other rest hrest

theorem eq_nil_of_joined {pages : List Page} (h : ∀ page ∈ pages, page.entries ≠ [])
    (hlength : (joined pages).length = 0) : pages = [] := by
  cases pages with
  | nil => rfl
  | cons page pages =>
    have hnil := List.length_eq_zero_iff.1 hlength
    rw [joined, List.flatMap_cons, List.append_eq_nil_iff] at hnil
    exact absurd hnil.1 (h page List.mem_cons_self)

/-- Every page that the loop goes on from has entries, so it ends. -/
theorem childrenFrom_requests (start : ℕ) (result : List WireEntry) (requested : ℕ) :
    requested ≤ (childrenFrom server metadataID maximum start result requested).2 ∧
      (childrenFrom server metadataID maximum start result requested).2 ≤
        requested + (maximum - result.length) := by
  induction hleft : maximum - result.length using Nat.strong_induction_on
    generalizing start result requested with
  | _ left ih =>
    rw [childrenFrom]
    by_cases hfull : maximum ≤ result.length
    · rw [dif_pos hfull]
      exact ⟨le_refl _, Nat.le_add_right _ _⟩
    rw [dif_neg hfull]
    dsimp only
    split
    · exact ⟨by dsimp only; omega, by dsimp only; omega⟩
    · rename_i page _
      split
      · split <;> exact ⟨by dsimp only; omega, by dsimp only; omega⟩
      · split
        · exact ⟨by dsimp only; omega, by dsimp only; omega⟩
        · rename_i hpage
          split
          · exact ⟨by dsimp only; omega, by dsimp only; omega⟩
          · have hgrown : (result ++ page.entries).length = result.length + page.entries.length :=
              List.length_append
            have hrest := ih _ (by omega) (start + page.entries.length) (result ++ page.entries)
              (requested + 1) rfl
            exact ⟨by omega, by omega⟩

/-- The loop goes on from pages that cover what it has. -/
theorem childrenFrom_covered {pages : List Page} {entries : List WireEntry}
    (hanswered : Answered server metadataID maximum requested pages) (hadjacent : Adjacent pages)
    (hentries : ∀ page ∈ pages, page.entries ≠ [])
    (h : (childrenFrom server metadataID maximum (joined pages).length (joined pages)
      (requested + pages.length)).1 = .ok entries) :
    ∃ all, (childrenFrom server metadataID maximum (joined pages).length (joined pages)
        (requested + pages.length)).2 = requested + all.length ∧
      Answered server metadataID maximum requested all ∧ Covered all ∧ joined all = entries ∧
      entries.length ≤ maximum := by
  induction hleft : maximum - (joined pages).length using Nat.strong_induction_on
    generalizing pages with
  | _ left ih =>
    rw [childrenFrom] at h ⊢
    by_cases hfull : maximum ≤ (joined pages).length
    · rw [dif_pos hfull] at h
      cases h
    rw [dif_neg hfull] at h ⊢
    dsimp only at h ⊢
    cases hpage : childrenPage maximum (server (requested + pages.length) ⟨metadataID,
        (joined pages).length, min maximumPageSize (maximum - (joined pages).length)⟩) with
    | error e =>
      rw [hpage] at h
      cases h
    | ok page =>
      have hnext := hanswered.append_singleton hpage
      have hgrown := joined_append_singleton pages page
      have hlength : (joined (pages ++ [page])).length =
          (joined pages).length + page.entries.length := by
        rw [hgrown, List.length_append]
      have hcount : requested + (pages ++ [page]).length = requested + pages.length + 1 := by
        rw [List.length_append, List.length_singleton, Nat.add_assoc]
      rw [hpage] at h
      dsimp only at h ⊢
      cases hposition : page.position with
      | none =>
        rw [hposition] at h
        dsimp only at h ⊢
        by_cases hbad : (joined pages).length ≠ 0 ∨ maximum < page.entries.length
        · rw [if_pos hbad] at h
          cases h
        rw [if_neg hbad] at h ⊢
        rw [not_or, not_not] at hbad
        obtain rfl := eq_nil_of_joined hentries hbad.1
        obtain rfl := Except.ok.inj h
        exact ⟨[page], rfl, hnext, Or.inl ⟨page, rfl, hposition⟩, hgrown, by omega⟩
      | some position =>
        obtain ⟨offset, total⟩ := position
        rw [hposition] at h
        dsimp only at h ⊢
        by_cases hbad : offset ≠ (joined pages).length ∨ maximum < total ∨
            page.entries.length = 0 ∨ total < offset + page.entries.length
        · rw [dif_pos hbad] at h
          cases h
        rw [dif_neg hbad] at h ⊢
        have hoffset : offset = (joined pages).length := by omega
        subst hoffset
        by_cases hlast : ((joined pages).length : ℤ) + page.entries.length = total
        · rw [if_pos hlast] at h ⊢
          obtain rfl := Except.ok.inj h
          have hcovered : Covered (pages ++ [page]) := by
            refine Or.inr ⟨hadjacent.append_singleton hposition, pages, page, (joined pages).length,
              rfl, ?_⟩
            rw [hposition, hlength, ← hlast, Nat.cast_add]
          exact ⟨pages ++ [page], hcount.symm, hnext, hcovered, hgrown, by rw [← hgrown]; omega⟩
        · rw [if_neg hlast] at h ⊢
          rw [← hgrown, ← hlength, ← hcount] at h ⊢
          refine ih _ ?_ hnext (hadjacent.append_singleton hposition) ?_ h rfl
          · omega
          · intro other hother
            rcases List.mem_append.1 hother with hother | hother
            · exact hentries other hother
            · rw [List.mem_singleton.1 hother, ← List.length_pos_iff]
              omega

theorem children_correct (server : Server) (metadataID : String) (maximum requested : ℕ) :
    ListingCorrect server metadataID maximum requested
      (children server metadataID maximum requested) := by
  unfold children
  by_cases hid : isMetadataID metadataID = false
  · rw [if_pos hid]
    exact ⟨⟨le_refl _, Nat.le_add_right _ _⟩, fun entries h => by cases h⟩
  · rw [if_neg hid]
    refine ⟨childrenFrom_requests 0 [] requested, fun entries h => ?_⟩
    have hnil : ∀ before page after, ([] : List Page) ≠ before ++ page :: after := by
      intro before page after hsplit
      exact absurd hsplit.symm (by simp)
    have hanswered : Answered server metadataID maximum requested [] :=
      fun _ _ _ hsplit => absurd hsplit (hnil _ _ _)
    have hadjacent : Adjacent [] := fun _ _ _ hsplit => absurd hsplit (hnil _ _ _)
    exact childrenFrom_covered hanswered hadjacent (fun page hpage => by cases hpage) h

end Listings

/-! ## Seasons and episodes -/

/-- The season of a valid season entry. -/
def seasonOf (entry : WireEntry) : Option SeasonRef :=
  if entry.type = "season" ∧ 1 ≤ entry.index ∧ entry.index ≤ 99 ∧
      isMetadataID entry.ratingKey = true then
    some ⟨entry.index, entry.ratingKey⟩
  else none

/-- A valid episode entry of a season. -/
def EpisodeEntry (season : SeasonRef) (entry : WireEntry) : Prop :=
  entry.type = "episode" ∧ entry.parentIndex = season.index ∧ 1 ≤ entry.index ∧ entry.index ≤ 999

/-- The seasons are those of the valid entries, in order. -/
structure SeasonsOf (entries : List WireEntry) (found : List SeasonRef) : Prop where
  ordered : found.Pairwise fun left right => left.index < right.index
  valid : ∀ season, season ∈ found ↔ season ∈ entries.filterMap seasonOf

theorem seasonOf_index {entry : WireEntry} {season : SeasonRef} (h : seasonOf entry = some season) :
    1 ≤ season.index ∧ season.index ≤ 99 := by
  unfold seasonOf at h
  split at h
  · rename_i hvalid
    obtain rfl := Option.some.inj h
    exact ⟨hvalid.2.1, hvalid.2.2.1⟩
  · cases h

/-- What the loop of `seasons` returns, which has all valid seasons. -/
theorem seasonRefs_eq_ok {entries : List WireEntry} {result found : List SeasonRef}
    (h : seasonRefs entries result = .ok found) :
    found = appendNew SeasonRef.index result (entries.filterMap seasonOf) ∧
      ∀ season, season ∈ result ∨ season ∈ entries.filterMap seasonOf → season ∈ found := by
  induction entries generalizing result with
  | nil =>
    obtain rfl := Except.ok.inj h
    refine ⟨rfl, ?_⟩
    rintro season (hseason | hseason)
    · exact hseason
    · cases hseason
  | cons entry entries ih =>
    unfold seasonRefs at h
    split at h
    · rename_i hinvalid
      have hnone : seasonOf entry = none := by
        unfold seasonOf
        rw [if_neg]
        rintro ⟨htype, hlow, hhigh, hkey⟩
        rw [hkey] at hinvalid
        rcases hinvalid with hbad | hbad | hbad | hbad
        · exact hbad htype
        · omega
        · omega
        · cases hbad
      rw [List.filterMap_cons_none hnone]
      exact ih h
    · rename_i hvalid
      have hsome : seasonOf entry = some ⟨entry.index, entry.ratingKey⟩ := by
        simp only [not_or, not_lt, not_not, Bool.not_eq_false] at hvalid
        exact if_pos hvalid
      rw [List.filterMap_cons_some hsome, appendNew_cons]
      split at h
      · rename_i existing hfind
        split at h
        · cases h
        · rename_i hsame
          rw [not_not] at hsame
          have hindex := List.find?_some hfind
          rw [decide_eq_true_eq] at hindex
          have hmem : existing ∈ result := List.mem_of_find?_eq_some hfind
          have heq : existing = ⟨entry.index, entry.ratingKey⟩ := by
            rw [← hindex, ← hsame]
          obtain ⟨hfound, hall⟩ := ih h
          have hold : insertNew SeasonRef.index result ⟨entry.index, entry.ratingKey⟩ = result :=
            if_pos (heq ▸ List.mem_map_of_mem hmem)
          refine ⟨by rw [hold]; exact hfound, ?_⟩
          rintro season (hseason | hseason)
          · exact hall season (Or.inl hseason)
          · rcases List.mem_cons.1 hseason with rfl | hseason
            · exact hall _ (Or.inl (heq ▸ hmem))
            · exact hall season (Or.inr hseason)
      · rename_i hfind
        have hnew : entry.index ∉ result.map SeasonRef.index := by
          intro hmem
          obtain ⟨season, hseason, hindex⟩ := List.mem_map.1 hmem
          exact List.find?_eq_none.1 hfind season hseason (decide_eq_true hindex)
        obtain ⟨hfound, hall⟩ := ih h
        have hadd : insertNew SeasonRef.index result ⟨entry.index, entry.ratingKey⟩ =
            result ++ [⟨entry.index, entry.ratingKey⟩] := if_neg hnew
        refine ⟨by rw [hadd]; exact hfound, ?_⟩
        rintro season (hseason | hseason)
        · exact hall season (Or.inl (List.mem_append_left _ hseason))
        · rcases List.mem_cons.1 hseason with rfl | hseason
          · exact hall _ (Or.inl (List.mem_append_right _ List.mem_cons_self))
          · exact hall season (Or.inr hseason)

/-- What `seasons` returns are the seasons of the entries of a listing. -/
theorem seasons_eq_ok {sorter : Sorter SeasonRef} {server : Server} {showID : String}
    {requested after : ℕ} {found : List SeasonRef}
    (h : seasons sorter server showID requested = (.ok found, after)) :
    ∃ entries, children server showID maximumSeasons requested = (.ok entries, after) ∧
      SeasonsOf entries found := by
  unfold seasons at h
  split at h
  · cases h
  · rename_i entries requested' hchildren
    split at h
    · cases h
    · rename_i result hrefs
      obtain ⟨hfound, hafter⟩ := Prod.mk.inj h
      obtain rfl := Except.ok.inj hfound
      subst hafter
      obtain ⟨hresult, hall⟩ := seasonRefs_eq_ok hrefs
      have hnodup : (result.map SeasonRef.index).Nodup := by
        rw [hresult]
        exact appendNew_nodup _ List.nodup_nil
      have hless : StrictWeak fun left right : SeasonRef => intLess left.index right.index :=
        intLess_total.toStrictWeak.comap SeasonRef.index
      have hperm := sorter.perm (fun left right => intLess left.index right.index) result
      refine ⟨entries, hchildren, ?_, fun season => ?_⟩
      · have hsorted := sorter.sorted _ result hless
        have hdistinct := (hperm.map SeasonRef.index).nodup_iff.2 hnodup
        have hboth := hsorted.and (List.pairwise_map.1 hdistinct)
        refine hboth.imp fun {left right} hpair => ?_
        have hle := of_decide_eq_false hpair.1
        have hne := hpair.2
        omega
      · rw [hperm.mem_iff]
        constructor
        · intro hmem
          rw [hresult] at hmem
          exact (appendNew_sublist _).subset hmem
        · exact fun hmem => hall season (Or.inr hmem)

theorem mem_episodeNumbers {season : SeasonRef} {entries : List WireEntry} {episode : ℤ} :
    episode ∈ episodeNumbers season entries ↔
      ∃ entry ∈ entries, EpisodeEntry season entry ∧ entry.index = episode := by
  unfold episodeNumbers
  rw [(stableSort_perm _ _).mem_iff, ← List.map_id (appendNew _ _ _), mem_map_appendNew,
    List.map_id, List.map_id, List.mem_map]
  constructor
  · rintro (hnil | ⟨entry, hentry, hindex⟩)
    · cases hnil
    · obtain ⟨hmem, hvalid⟩ := List.mem_filter.1 hentry
      simp only [episodeOf, Bool.not_eq_true', decide_eq_false_iff_not, not_or, not_not,
        not_lt] at hvalid
      exact ⟨entry, hmem, hvalid, hindex⟩
  · rintro ⟨entry, hmem, hvalid, hindex⟩
    refine Or.inr ⟨entry, List.mem_filter.2 ⟨hmem, ?_⟩, hindex⟩
    simp only [episodeOf, Bool.not_eq_true', decide_eq_false_iff_not, not_or, not_not, not_lt]
    exact hvalid

theorem episodeNumbers_sorted (season : SeasonRef) (entries : List WireEntry) :
    (episodeNumbers season entries).Pairwise fun a b => a ≤ b :=
  (stableSort_sorted intLess_total.toStrictWeak _).imp fun h =>
    not_lt.1 (of_decide_eq_false h)

/-! ## The search -/

/-- The listings of some seasons, requested one after the other. -/
def listings (server : Server) :
    List SeasonRef → ℕ → List (SeasonRef × Except NextError (List WireEntry))
  | [], _ => []
  | season :: seasons, requested =>
    let listing := children server season.id maximumEpisodes requested
    (season, listing.1) :: listings server seasons listing.2

/-- A listing has a valid entry with this coordinate. -/
def Listed (ls : List (SeasonRef × Except NextError (List WireEntry))) (c : EpisodeCoordinate) :
    Prop :=
  ∃ season entries, (season, .ok entries) ∈ ls ∧ season.index = c.season ∧
    ∃ entry ∈ entries, EpisodeEntry season entry ∧ entry.index = c.episode

/-- The least coordinate after the current one, which is listed itself. -/
structure Successor (ls : List (SeasonRef × Except NextError (List WireEntry)))
    (current c : EpisodeCoordinate) : Prop where
  here : Listed ls current
  listed : Listed ls c
  after : c.After current
  least : ∀ d, Listed ls d → d.After current → d = c ∨ d.After c

/-- The current season is not there, or it is listed without the current episode, or everything is
listed and nothing is after it. -/
def NothingLater (found : List SeasonRef)
    (ls : List (SeasonRef × Except NextError (List WireEntry))) (current : EpisodeCoordinate) :
    Prop :=
  (∀ season ∈ found, season.index ≠ current.season) ∨
    (∃ season entries, (season, .ok entries) ∈ ls ∧ season.index = current.season ∧
      ¬ Listed ls current) ∨
    ((∀ listing ∈ ls, ∃ entries, listing.2 = .ok entries) ∧ ∀ d, Listed ls d → ¬ d.After current)

theorem listed_cons {season : SeasonRef} {listing : Except NextError (List WireEntry)}
    {ls : List (SeasonRef × Except NextError (List WireEntry))} {c : EpisodeCoordinate} :
    Listed ((season, listing) :: ls) c ↔
      (∃ entries, listing = .ok entries ∧ season.index = c.season ∧
        c.episode ∈ episodeNumbers season entries) ∨ Listed ls c := by
  constructor
  · rintro ⟨other, entries, hmem, hindex, hentry⟩
    rcases List.mem_cons.1 hmem with heq | hmem
    · obtain ⟨rfl, hlisting⟩ := Prod.mk.inj heq
      exact Or.inl ⟨entries, hlisting.symm, hindex, mem_episodeNumbers.2 hentry⟩
    · exact Or.inr ⟨other, entries, hmem, hindex, hentry⟩
  · rintro (⟨entries, rfl, hindex, hepisode⟩ | ⟨other, entries, hmem, hindex, hentry⟩)
    · exact ⟨season, entries, List.mem_cons_self, hindex, mem_episodeNumbers.1 hepisode⟩
    · exact ⟨other, entries, List.mem_cons_of_mem _ hmem, hindex, hentry⟩

/-- What is listed is in one of the seasons. -/
theorem season_of_listed {server : Server} {order : List SeasonRef} {requested : ℕ}
    {c : EpisodeCoordinate} (h : Listed (listings server order requested) c) :
    ∃ season ∈ order, season.index = c.season := by
  induction order generalizing requested with
  | nil =>
    obtain ⟨_, _, hmem, -⟩ := h
    cases hmem
  | cons season order ih =>
    rcases listed_cons.1 h with ⟨_, -, hindex, -⟩ | hlater
    · exact ⟨season, List.mem_cons_self, hindex⟩
    · obtain ⟨other, hother, hindex⟩ := ih hlater
      exact ⟨other, List.mem_cons_of_mem _ hother, hindex⟩

theorem coordinateAfter_eq_some {current c : EpisodeCoordinate} {season : SeasonRef} {episode : ℤ} :
    coordinateAfter current season episode = some c ↔
      newEpisodeCoordinate season.index episode = .ok c ∧ c.After current := by
  unfold coordinateAfter
  split
  · rename_i e he
    rw [he]
    simp
  · rename_i coordinate hcoordinate
    rw [hcoordinate, Except.ok.injEq]
    split
    · rename_i hafter
      rw [Option.some.injEq]
      exact ⟨fun h => ⟨h, h ▸ hafter⟩, fun h => h.1⟩
    · rename_i hnot
      constructor
      · intro h
        cases h
      · rintro ⟨rfl, hafter⟩
        exact absurd hafter hnot

/-! A listing fails with another error than that nothing is found. -/

theorem receive_ne_notFound (response : MetadataResponse) :
    receive response ≠ .error .notFound := by
  have hread : readResponse response ≠ .error .notFound := by
    unfold readResponse
    split_ifs <;> simp
  unfold receive
  cases hresponse : readResponse response with
  | ok _ => cases response.closed <;> simp
  | error first =>
    rw [hresponse] at hread
    cases response.closed with
    | true => exact hread
    | false => simp

theorem childrenPage_ne_notFound (maximum : ℕ) (answer : MetadataAnswer) :
    childrenPage maximum answer ≠ .error .notFound := by
  unfold childrenPage
  cases answer with
  | notConstructed => simp
  | notSent ended => cases ended <;> simp [metadataContextError]
  | received response =>
    dsimp only
    cases hreceive : receive response with
    | error e =>
      have hne := receive_ne_notFound response
      rw [hreceive] at hne
      exact fun heq => hne (congrArg Except.error (Except.error.inj heq))
    | ok response =>
      dsimp only
      cases response.decoded with
      | none => simp
      | some container =>
        dsimp only
        split_ifs
        · simp
        · split
          · simp
          · split_ifs <;> simp
          · simp

theorem children_ne_notFound (server : Server) (metadataID : String) (maximum requested : ℕ) :
    (children server metadataID maximum requested).1 ≠ .error .notFound := by
  have hloop : ∀ start result requested,
      (childrenFrom server metadataID maximum start result requested).1 ≠ .error .notFound := by
    intro start result requested
    induction hleft : maximum - result.length using Nat.strong_induction_on
      generalizing start result requested with
    | _ left ih =>
      rw [childrenFrom]
      by_cases hfull : maximum ≤ result.length
      · simp [hfull]
      rw [dif_neg hfull]
      dsimp only
      split
      · rename_i e hpage
        have hne := childrenPage_ne_notFound maximum (server requested
          ⟨metadataID, start, min maximumPageSize (maximum - result.length)⟩)
        rw [hpage] at hne
        exact fun heq => hne (congrArg Except.error (Except.error.inj heq))
      · split
        · split_ifs <;> simp
        · split_ifs with hbad
          · simp
          · simp
          · refine ih _ ?_ _ _ _ rfl
            rw [List.length_append]
            omega
  unfold children
  split_ifs
  · simp
  · exact hloop 0 [] requested

section Search

variable {server : Server} {current : EpisodeCoordinate}

/-- What the first episode after the current one is, among those of a season. -/
theorem findSome_coordinateAfter {season : SeasonRef} {entries : List WireEntry}
    (hrange : 1 ≤ season.index ∧ season.index ≤ 99) {c : EpisodeCoordinate}
    (h : (episodeNumbers season entries).findSome? (coordinateAfter current season) = some c) :
    c.season = season.index ∧ c.episode ∈ episodeNumbers season entries ∧ c.After current ∧
      ∀ d : EpisodeCoordinate, d.season = season.index →
        d.episode ∈ episodeNumbers season entries → d.After current → d = c ∨ d.After c := by
  have hsorted := episodeNumbers_sorted season entries
  obtain ⟨before, episode, after, hsplit, hfound, hbefore⟩ := List.findSome?_eq_some_iff.1 h
  obtain ⟨hcoordinate, hafter⟩ := coordinateAfter_eq_some.1 hfound
  obtain ⟨rfl, -⟩ := newEpisodeCoordinate_eq_ok.1 hcoordinate
  refine ⟨rfl, hsplit ▸ List.mem_append_right _ List.mem_cons_self, hafter, ?_⟩
  intro d hseason hepisode hd
  obtain ⟨entry, -, hvalid, hindex⟩ := mem_episodeNumbers.1 hepisode
  have hdcoordinate : newEpisodeCoordinate season.index d.episode = .ok d := by
    rw [newEpisodeCoordinate_eq_ok, ← hseason, ← hindex]
    exact ⟨by rw [hindex], by omega, by omega, hvalid.2.2.1, hvalid.2.2.2⟩
  rw [hsplit] at hepisode hsorted
  rcases List.mem_append.1 hepisode with hfirst | hrest
  · have hnone := hbefore d.episode hfirst
    rw [coordinateAfter_eq_some.2 ⟨hdcoordinate, hd⟩] at hnone
    cases hnone
  · rcases List.mem_cons.1 hrest with heq | hrest
    · left
      rw [← heq, hdcoordinate] at hcoordinate
      rw [← heq]
      exact Except.ok.inj hcoordinate
    · have hle := (List.pairwise_cons.1 (List.pairwise_append.1 hsorted).2.1).1 _ hrest
      rcases eq_or_lt_of_le hle with heq | hlt
      · left
        rw [heq] at hcoordinate ⊢
        rw [hdcoordinate] at hcoordinate
        exact Except.ok.inj hcoordinate
      · exact Or.inr (Or.inr ⟨hseason, hlt⟩)

theorem findSome_coordinateAfter_none {season : SeasonRef} {entries : List WireEntry}
    (hrange : 1 ≤ season.index ∧ season.index ≤ 99)
    (h : (episodeNumbers season entries).findSome? (coordinateAfter current season) = none)
    {d : EpisodeCoordinate} (hseason : d.season = season.index)
    (hepisode : d.episode ∈ episodeNumbers season entries) : ¬ d.After current := by
  intro hd
  obtain ⟨entry, -, hvalid, hindex⟩ := mem_episodeNumbers.1 hepisode
  have hdcoordinate : newEpisodeCoordinate season.index d.episode = .ok d := by
    rw [newEpisodeCoordinate_eq_ok, ← hseason, ← hindex]
    exact ⟨by rw [hindex], by omega, by omega, hvalid.2.2.1, hvalid.2.2.2⟩
  have hnone := List.findSome?_eq_none_iff.1 h d.episode hepisode
  rw [coordinateAfter_eq_some.2 ⟨hdcoordinate, hd⟩] at hnone
  cases hnone

/-- What the search over seasons in order returns, against the listings of all of them. -/
structure SearchCorrect (current : EpisodeCoordinate) (order : List SeasonRef)
    (ls : List (SeasonRef × Except NextError (List WireEntry))) (requested : ℕ)
    (result : Except NextError EpisodeCoordinate × ℕ) : Prop where
  found : ∀ c, result.1 = .ok c →
    (∀ season ∈ order, season.index = current.season → Listed ls current) ∧ Listed ls c ∧
      c.After current ∧ ∀ d, Listed ls d → d.After current → d = c ∨ d.After c
  notFound : result.1 = .error .notFound ↔
    (∃ season entries, (season, .ok entries) ∈ ls ∧ season.index = current.season ∧
      ¬ Listed ls current) ∨
    ((∀ listing ∈ ls, ∃ entries, listing.2 = .ok entries) ∧ ∀ d, Listed ls d → ¬ d.After current)
  requests : result.2 ≤ requested + order.length * maximumEpisodes

theorem fst_mem_of_mem_listings {order : List SeasonRef} {requested : ℕ} {season : SeasonRef}
    {listing : Except NextError (List WireEntry)}
    (h : (season, listing) ∈ listings server order requested) : season ∈ order := by
  induction order generalizing requested with
  | nil => cases h
  | cons other order ih =>
    rcases List.mem_cons.1 h with heq | hmem
    · exact (Prod.mk.inj heq).1 ▸ List.mem_cons_self
    · exact List.mem_cons_of_mem _ (ih hmem)

/-- A season whose index is smaller than that of all that come later. -/
structure FirstSeason (current : EpisodeCoordinate) (season : SeasonRef) (order : List SeasonRef)
    (ls : List (SeasonRef × Except NextError (List WireEntry))) : Prop where
  range : 1 ≤ season.index ∧ season.index ≤ 99
  start : current.season ≤ season.index
  order : ∀ later ∈ order, season.index < later.index
  listings : ∀ later listing, (later, listing) ∈ ls → season.index < later.index

section FirstSeason

variable {season : SeasonRef} {order : List SeasonRef}
  {ls : List (SeasonRef × Except NextError (List WireEntry))} {entries : List WireEntry}
  {requested after : ℕ}

theorem FirstSeason.listed (h : FirstSeason current season order ls) {d : EpisodeCoordinate}
    (hd : Listed ls d) : season.index < d.season := by
  obtain ⟨later, entries, hmem, hindex, -⟩ := hd
  exact hindex ▸ h.listings later _ hmem

theorem FirstSeason.failed (h : FirstSeason current season order ls) {e : NextError}
    (he : e ≠ .notFound) (hafter : after ≤ requested + maximumEpisodes) :
    SearchCorrect current (season :: order) ((season, .error e) :: ls) requested
      (.error e, after) where
  found c hc := by cases hc
  notFound := by
    refine iff_of_false (fun hnot => he (Except.error.inj hnot)) ?_
    rintro (⟨other, entries, hmem, hindex, -⟩ | ⟨hall, -⟩)
    · rcases List.mem_cons.1 hmem with heq | hmem
      · cases (Prod.mk.inj heq).2
      · have hlt := h.listings other _ hmem
        have hstart := h.start
        omega
    · obtain ⟨entries, hentries⟩ := hall _ List.mem_cons_self
      cases hentries
  requests := by
    rw [List.length_cons, Nat.succ_mul]
    dsimp only
    omega

theorem FirstSeason.absent (h : FirstSeason current season order ls)
    (hindex : season.index = current.season)
    (habsent : current.episode ∉ episodeNumbers season entries)
    (hafter : after ≤ requested + maximumEpisodes) :
    SearchCorrect current (season :: order) ((season, .ok entries) :: ls) requested
      (.error .notFound, after) where
  found c hc := by cases hc
  notFound := by
    refine iff_of_true rfl (Or.inl ⟨season, entries, List.mem_cons_self, hindex, fun hlisted => ?_⟩)
    rcases listed_cons.1 hlisted with ⟨others, hothers, -, hepisode⟩ | hlater
    · obtain rfl := Except.ok.inj hothers
      exact habsent hepisode
    · have hlt := h.listed hlater
      omega
  requests := by
    rw [List.length_cons, Nat.succ_mul]
    dsimp only
    omega

/-- If the current season comes first, its listing has the current episode. -/
theorem FirstSeason.here (h : FirstSeason current season order ls)
    (hpresent : ¬ (season.index = current.season ∧
      current.episode ∉ episodeNumbers season entries)) (other : SeasonRef)
    (hother : other = season ∨ season.index < other.index)
    (hindex : other.index = current.season) :
    Listed ((season, .ok entries) :: ls) current := by
  have hstart := h.start
  rcases hother with rfl | hlt
  · rw [not_and, not_not] at hpresent
    exact listed_cons.2 (Or.inl ⟨entries, rfl, hindex, hpresent hindex⟩)
  · omega

theorem FirstSeason.taken (h : FirstSeason current season order ls)
    (hpresent : ¬ (season.index = current.season ∧
      current.episode ∉ episodeNumbers season entries)) {c : EpisodeCoordinate}
    (hc : (episodeNumbers season entries).findSome? (coordinateAfter current season) = some c)
    (hafter : after ≤ requested + maximumEpisodes) :
    SearchCorrect current (season :: order) ((season, .ok entries) :: ls) requested
      (.ok c, after) := by
  obtain ⟨hseason, hepisode, hcurrent, hleast⟩ := findSome_coordinateAfter h.range hc
  have hlisted : Listed ((season, .ok entries) :: ls) c :=
    listed_cons.2 (Or.inl ⟨entries, rfl, hseason.symm, hepisode⟩)
  constructor
  case found =>
    intro c' hc'
    obtain rfl := Except.ok.inj hc'
    refine ⟨fun other hother hindex => ?_, hlisted, hcurrent, fun d hd hdafter => ?_⟩
    · exact h.here hpresent other ((List.mem_cons.1 hother).imp id (h.order other)) hindex
    · rcases listed_cons.1 hd with ⟨others, hothers, hindex, hd⟩ | hlater
      · obtain rfl := Except.ok.inj hothers
        exact hleast d hindex.symm hd hdafter
      · have hlt := h.listed hlater
        exact Or.inr (Or.inl (by omega))
  case notFound =>
    refine iff_of_false (fun hnot => by cases hnot) ?_
    rintro (⟨other, others, hmem, hindex, hnot⟩ | ⟨-, hnone⟩)
    · refine hnot (h.here hpresent other ?_ hindex)
      rcases List.mem_cons.1 hmem with heq | hmem
      · exact Or.inl (Prod.mk.inj heq).1
      · exact Or.inr (h.listings other _ hmem)
    · exact hnone c hlisted hcurrent
  case requests =>
    rw [List.length_cons, Nat.succ_mul]
    dsimp only
    omega

theorem FirstSeason.passed (h : FirstSeason current season order ls)
    (hpresent : ¬ (season.index = current.season ∧
      current.episode ∉ episodeNumbers season entries))
    (hnone : (episodeNumbers season entries).findSome? (coordinateAfter current season) = none)
    (hafter : after ≤ requested + maximumEpisodes)
    {result : Except NextError EpisodeCoordinate × ℕ}
    (hrest : SearchCorrect current order ls after result) :
    SearchCorrect current (season :: order) ((season, .ok entries) :: ls) requested result := by
  have hstart := h.start
  have hhead : ∀ d, Listed ((season, .ok entries) :: ls) d → d.After current → Listed ls d := by
    intro d hd hdafter
    rcases listed_cons.1 hd with ⟨others, hothers, hindex, hd⟩ | hlater
    · obtain rfl := Except.ok.inj hothers
      exact absurd hdafter (findSome_coordinateAfter_none h.range hnone hindex.symm hd)
    · exact hlater
  constructor
  case found =>
    intro c hc
    obtain ⟨-, hlisted, hcurrent, hleast⟩ := hrest.found c hc
    refine ⟨fun other hother hindex => ?_, listed_cons.2 (Or.inr hlisted), hcurrent, ?_⟩
    · exact h.here hpresent other ((List.mem_cons.1 hother).imp id (h.order other)) hindex
    · exact fun d hd hdafter => hleast d (hhead d hd hdafter) hdafter
  case notFound =>
    rw [hrest.notFound]
    constructor
    · rintro (⟨other, others, hmem, hindex, -⟩ | ⟨hall, hnone⟩)
      · have hlt := h.listings other _ hmem
        omega
      · refine Or.inr ⟨fun listing hlisting => ?_, fun d hd hdafter => ?_⟩
        · rcases List.mem_cons.1 hlisting with rfl | hlisting
          · exact ⟨entries, rfl⟩
          · exact hall listing hlisting
        · exact hnone d (hhead d hd hdafter) hdafter
    · rintro (⟨other, others, hmem, hindex, hnot⟩ | ⟨hall, hnone⟩)
      · refine absurd (h.here hpresent other ?_ hindex) hnot
        rcases List.mem_cons.1 hmem with heq | hmem
        · exact Or.inl (Prod.mk.inj heq).1
        · exact Or.inr (h.listings other _ hmem)
      · exact Or.inr ⟨fun listing hlisting => hall listing (List.mem_cons_of_mem _ hlisting),
          fun d hd => hnone d (listed_cons.2 (Or.inr hd))⟩
  case requests =>
    have hrequests := hrest.requests
    rw [List.length_cons, Nat.succ_mul]
    omega

end FirstSeason

theorem nextIn_correct {order : List SeasonRef}
    (hordered : order.Pairwise fun left right => left.index < right.index)
    (hrange : ∀ season ∈ order, 1 ≤ season.index ∧ season.index ≤ 99)
    (hfrom : ∀ season ∈ order, current.season ≤ season.index) (requested : ℕ) :
    SearchCorrect current order (listings server order requested) requested
      (nextIn server current order requested) := by
  induction order generalizing requested with
  | nil =>
    refine ⟨(fun c h => by cases h), iff_of_true rfl (Or.inr ⟨?_, ?_⟩), Nat.le_add_right _ _⟩
    · rintro listing hmem
      cases hmem
    · rintro d ⟨_, _, hmem, -⟩
      cases hmem
  | cons season order ih =>
    obtain ⟨hlater, hordered⟩ := List.pairwise_cons.1 hordered
    have hge := hfrom season List.mem_cons_self
    have hrest := ih hordered (fun s hs => hrange s (List.mem_cons_of_mem _ hs))
      fun s hs => hfrom s (List.mem_cons_of_mem _ hs)
    have hrequests := (children_correct server season.id maximumEpisodes requested).requests.2
    have herror := children_ne_notFound server season.id maximumEpisodes requested
    rw [nextIn, if_neg (not_lt.2 hge), listings, episodes]
    cases hchildren : children server season.id maximumEpisodes requested with
    | mk result after =>
      rw [hchildren] at hrequests herror
      have hfirst : FirstSeason current season order (listings server order after) :=
        ⟨hrange season List.mem_cons_self, hge, hlater,
          fun other listing hmem => hlater other (fst_mem_of_mem_listings hmem)⟩
      dsimp only at hrequests herror ⊢
      cases result with
      | error e => exact hfirst.failed (fun he => herror (he ▸ rfl)) hrequests
      | ok entries =>
        dsimp only
        by_cases habsent : season.index = current.season ∧
            current.episode ∉ episodeNumbers season entries
        · rw [if_pos habsent]
          exact hfirst.absent habsent.1 habsent.2 hrequests
        rw [if_neg habsent]
        cases hsome : (episodeNumbers season entries).findSome? (coordinateAfter current season) with
        | some c => exact hfirst.taken habsent hsome hrequests
        | none => exact hfirst.passed habsent hsome hrequests (hrest after)

/-- The seasons that `Next` does not pass over. -/
def seasonsFrom (current : EpisodeCoordinate) (found : List SeasonRef) : List SeasonRef :=
  found.filter fun season => decide (current.season ≤ season.index)

theorem nextIn_seasonsFrom (found : List SeasonRef) (requested : ℕ) :
    nextIn server current found requested =
      nextIn server current (seasonsFrom current found) requested := by
  induction found generalizing requested with
  | nil => rfl
  | cons season found ih =>
    by_cases hbefore : season.index < current.season
    · rw [nextIn, if_pos hbefore, ih, seasonsFrom, seasonsFrom, List.filter_cons_of_neg]
      simpa using hbefore
    · have hkept : seasonsFrom current (season :: found) = season :: seasonsFrom current found :=
        List.filter_cons_of_pos (decide_eq_true (not_lt.1 hbefore))
      rw [hkept, nextIn, nextIn]
      simp only [ih]

end Search

/-! ## The next episode -/

theorem prepare_ne_notFound (ended : Bool) (token : Except Bool String) (externalShowID : String)
    (current : EpisodeCoordinate) :
    prepare ended token externalShowID current ≠ .error .notFound := by
  unfold prepare metadataContextError
  split_ifs
  · simp
  · split
    · simp
    · split
      · simp
      · split
        · split_ifs <;> simp
        · split_ifs <;> simp

theorem seasons_ne_notFound (sorter : Sorter SeasonRef) (server : Server) (showID : String)
    (requested : ℕ) : (seasons sorter server showID requested).1 ≠ .error .notFound := by
  have hrefs : ∀ entries result, seasonRefs entries result ≠ .error .notFound := by
    intro entries
    induction entries with
    | nil => simp [seasonRefs]
    | cons entry entries ih =>
      intro result
      unfold seasonRefs
      split_ifs
      · exact ih result
      · split
        · split_ifs
          · simp
          · exact ih _
        · exact ih _
  have hchildren := children_ne_notFound server showID maximumSeasons requested
  unfold seasons
  split
  · rename_i e after h
    rw [h] at hchildren
    exact fun heq => hchildren (congrArg Except.error (Except.error.inj heq))
  · split
    · rename_i h
      exact fun heq => hrefs _ [] (h.trans (congrArg Except.error (Except.error.inj heq)))
    · simp

theorem seasons_requests (sorter : Sorter SeasonRef) (server : Server) (showID : String)
    (requested : ℕ) :
    (seasons sorter server showID requested).2 ≤ requested + maximumSeasons := by
  have hchildren := (children_correct server showID maximumSeasons requested).requests.2
  unfold seasons
  split
  · rename_i h
    rwa [h] at hchildren
  · rename_i h
    rw [h] at hchildren
    split <;> exact hchildren

theorem SeasonsOf.range {entries : List WireEntry} {found : List SeasonRef}
    (h : SeasonsOf entries found) {season : SeasonRef} (hseason : season ∈ found) :
    1 ≤ season.index ∧ season.index ≤ 99 := by
  obtain ⟨entry, -, hentry⟩ := List.mem_filterMap.1 ((h.valid season).1 hseason)
  exact seasonOf_index hentry

theorem SeasonsOf.length_le {entries : List WireEntry} {found : List SeasonRef}
    (h : SeasonsOf entries found) : found.length ≤ entries.length := by
  have hnodup : found.Nodup := h.ordered.imp fun hlt heq => by
    rw [heq] at hlt
    exact lt_irrefl _ hlt
  have hsub := List.Nodup.subperm hnodup fun season hseason => (h.valid season).1 hseason
  exact hsub.length_le.trans (List.length_filterMap_le seasonOf entries)

/-- The seasons of the show were listed, with the number of the next request. -/
def SeasonsListed (sorter : Sorter SeasonRef) (server : Server) (ended : Bool)
    (token : Except Bool String) (externalShowID : String) (current : EpisodeCoordinate)
    (found : List SeasonRef) (requested : ℕ) : Prop :=
  ∃ showID entries, prepare ended token externalShowID current = .ok showID ∧
    children server showID maximumSeasons 0 = (.ok entries, requested) ∧
    seasons sorter server showID 0 = (.ok found, requested) ∧ SeasonsOf entries found

theorem seasonsListed_iff {sorter : Sorter SeasonRef} {server : Server} {ended : Bool}
    {token : Except Bool String} {externalShowID showID : String} {current : EpisodeCoordinate}
    {found found' : List SeasonRef} {requested requested' : ℕ}
    (hprepare : prepare ended token externalShowID current = .ok showID)
    (hseasons : seasons sorter server showID 0 = (.ok found, requested)) :
    SeasonsListed sorter server ended token externalShowID current found' requested' ↔
      found' = found ∧ requested' = requested := by
  constructor
  · rintro ⟨other, entries, hother, -, hlisted, -⟩
    rw [hprepare] at hother
    obtain rfl := Except.ok.inj hother
    rw [hseasons] at hlisted
    exact ⟨(Except.ok.inj (Prod.mk.inj hlisted).1).symm, (Prod.mk.inj hlisted).2.symm⟩
  · rintro ⟨rfl, rfl⟩
    obtain ⟨entries, hentries, hof⟩ := seasons_eq_ok hseasons
    exact ⟨showID, entries, hprepare, hentries, hseasons, hof⟩

/-- `Next` ends. What it finds is the least episode that is listed after the current one, and it
finds nothing exactly when the current season or episode is not listed, or nothing after it is. -/
theorem next_correct (sorter : Sorter SeasonRef) (server : Server) (ended : Bool)
    (token : Except Bool String) (externalShowID : String) (current : EpisodeCoordinate) :
    (next sorter server ended token externalShowID current).2 ≤
        maximumSeasons + maximumSeasons * maximumEpisodes ∧
      (∀ metadataID maximum requested, ListingCorrect server metadataID maximum requested
        (children server metadataID maximum requested)) ∧
      (∀ c, (next sorter server ended token externalShowID current).1 = .ok c →
        ∃ found requested,
          SeasonsListed sorter server ended token externalShowID current found requested ∧
          Successor (listings server (seasonsFrom current found) requested) current c) ∧
      ((next sorter server ended token externalShowID current).1 = .error .notFound ↔
        ∃ found requested,
          SeasonsListed sorter server ended token externalShowID current found requested ∧
          NothingLater found (listings server (seasonsFrom current found) requested) current) := by
  have hchildren := fun metadataID maximum requested =>
    children_correct server metadataID maximum requested
  unfold next
  cases hprepare : prepare ended token externalShowID current with
  | error e =>
    have hne := prepare_ne_notFound ended token externalShowID current
    rw [hprepare] at hne
    refine ⟨Nat.zero_le _, hchildren, (fun c h => by cases h), iff_of_false ?_ ?_⟩
    · exact fun heq => hne (congrArg Except.error (Except.error.inj heq))
    · rintro ⟨_, _, ⟨_, _, hok, -⟩, -⟩
      rw [hprepare] at hok
      cases hok
  | ok showID =>
    have hbound := seasons_requests sorter server showID 0
    have hne := seasons_ne_notFound sorter server showID 0
    dsimp only
    cases hseasons : seasons sorter server showID 0 with
    | mk result requested =>
      rw [hseasons] at hbound hne
      cases result with
      | error e =>
        refine ⟨?_, hchildren, (fun c h => by cases h), iff_of_false ?_ ?_⟩
        · dsimp only at hbound ⊢
          omega
        · exact fun heq => hne (congrArg Except.error (Except.error.inj heq))
        · rintro ⟨_, _, ⟨_, _, hshow, -, hlisted, -⟩, -⟩
          rw [hprepare] at hshow
          obtain rfl := Except.ok.inj hshow
          rw [hseasons] at hlisted
          cases (Prod.mk.inj hlisted).1
      | ok found =>
        obtain ⟨entries, hentries, hof⟩ := seasons_eq_ok hseasons
        have hmaximum : entries.length ≤ maximumSeasons := by
          obtain ⟨_, -, -, -, -, hlength⟩ :=
            (hchildren showID maximumSeasons 0).covered entries (by rw [hentries])
          exact hlength
        have hlisted : SeasonsListed sorter server ended token externalShowID current found
            requested := (seasonsListed_iff hprepare hseasons).2 ⟨rfl, rfl⟩
        dsimp only at hbound ⊢
        by_cases hseason : (found.all fun season => decide (season.index ≠ current.season)) = true
        · rw [if_pos hseason]
          rw [List.all_eq_true] at hseason
          have habsent : ∀ season ∈ found, season.index ≠ current.season := fun season hmem =>
            of_decide_eq_true (hseason season hmem)
          refine ⟨?_, hchildren, (fun c h => by cases h), iff_of_true rfl ?_⟩
          · dsimp only
            omega
          · exact ⟨found, requested, hlisted, Or.inl habsent⟩
        rw [if_neg hseason, nextIn_seasonsFrom]
        have hhere : ∃ season ∈ seasonsFrom current found, season.index = current.season := by
          rw [List.all_eq_true] at hseason
          obtain ⟨season, hnot⟩ := not_forall.1 hseason
          obtain ⟨hmem, hindex⟩ := Classical.not_imp.1 hnot
          rw [decide_eq_true_eq, ne_eq, not_not] at hindex
          exact ⟨season, List.mem_filter.2 ⟨hmem, decide_eq_true hindex.ge⟩, hindex⟩
        have hsearch := @nextIn_correct server current _ (hof.ordered.filter _)
          (fun season hmem => hof.range (List.mem_filter.1 hmem).1)
          (fun season hmem => of_decide_eq_true (List.mem_filter.1 hmem).2) requested
        obtain ⟨season, hmem, hindex⟩ := hhere
        refine ⟨?_, hchildren, fun c hc => ?_, ?_⟩
        · have hlength : (seasonsFrom current found).length ≤ maximumSeasons :=
            (List.length_filter_le _ found).trans (hof.length_le.trans hmaximum)
          have hmul := Nat.mul_le_mul_right maximumEpisodes hlength
          have hrequests := hsearch.requests
          rw [← seasonsFrom] at hrequests
          exact hrequests.trans (by omega)
        · obtain ⟨hcurrent, hc, hafter, hleast⟩ := hsearch.found c hc
          exact ⟨found, requested, hlisted, hcurrent season hmem hindex, hc, hafter, hleast⟩
        · refine hsearch.notFound.trans ⟨fun h => ⟨found, requested, hlisted, Or.inr h⟩, ?_⟩
          rintro ⟨found', requested', hlisted', hnothing⟩
          obtain ⟨rfl, rfl⟩ := (seasonsListed_iff hprepare hseasons).1 hlisted'
          exact hnothing.resolve_left fun habsent =>
            habsent season (List.mem_filter.1 hmem).1 hindex

end BlackPearl.Plex
