import BlackPearl.Acquisition.Watchlist
import BlackPearl.Library.Distinct

/-!
# Watchlist snapshots

`internal/gateway/plexwatchlist/gateway.go`. A snapshot asks the server for one page after the other,
each `pageSize` entries further, and collects the entries that are valid and new. The server decides
how many entries a page has.

A server that sends a shorter page than it was asked for leaves a gap before the next one, and what
lies in the gap is never asked for again. `snapshot_eachOnce_iff` states when this loses nothing.
-/

set_option autoImplicit false

namespace BlackPearl.Watchlist

open BlackPearl.Library BlackPearl.Acquisition

/-! ## The gateway -/

def defaultPageSize : ℕ := 50
def defaultMaximumItems : ℕ := 500
def maximumPageSize : ℕ := 100
def maximumItemsLimit : ℕ := 1000
def maximumResponseSize : ℕ := 2 * 2 ^ 20
def maximumTokenBytes : ℕ := 4 * 2 ^ 10

/-- The parts of a parsed base URL that `New` looks at. -/
structure BaseURL where
  scheme : String
  host : String
  hasUser : Bool
  rawQuery : String
  fragment : String
  deriving DecidableEq, Repr

/-- `Options`. -/
structure SnapshotOptions where
  baseURL : String
  pageSize : ℤ
  maximumItems : ℤ
  deriving DecidableEq, Repr

/-- `Gateway`, with the bounds that `New` checks. -/
structure Gateway where
  pageSize : ℕ
  maximumItems : ℕ
  pageSize_pos : 0 < pageSize
  pageSize_le : pageSize ≤ maximumPageSize
  maximumItems_pos : 0 < maximumItems
  maximumItems_le : maximumItems ≤ maximumItemsLimit
  deriving DecidableEq, Repr

/-- `New`; `parse` is `url.Parse`. -/
def newGateway (parse : String → Option BaseURL) (options : SnapshotOptions)
    (hasTokens hasClient : Bool) : Checked Gateway :=
  match parse options.baseURL with
  | none => .error badBaseURL
  | some parsed =>
    if (parsed.scheme ≠ "http" ∧ parsed.scheme ≠ "https") ∨ parsed.host = "" ∨ parsed.hasUser ∨
        parsed.rawQuery ≠ "" ∨ parsed.fragment ≠ "" then .error badBaseURL
    else if ¬ hasTokens ∨ ¬ hasClient then
      .error "plex watchlist token source and HTTP client are required"
    else
      let pageSize := if options.pageSize = 0 then (defaultPageSize : ℤ) else options.pageSize
      if hpage : pageSize < 1 ∨ maximumPageSize < pageSize then
        .error ("plex watchlist page size must be between 1 and " ++ toString maximumPageSize)
      else
        let maximumItems :=
          if options.maximumItems = 0 then (defaultMaximumItems : ℤ) else options.maximumItems
        if hmaximum : maximumItems < 1 ∨ maximumItemsLimit < maximumItems then
          .error ("plex watchlist maximum items must be between 1 and " ++ toString maximumItemsLimit)
        else .ok {
          pageSize := pageSize.toNat
          maximumItems := maximumItems.toNat
          pageSize_pos := by omega
          pageSize_le := by omega
          maximumItems_pos := by omega
          maximumItems_le := by omega }
where
  badBaseURL : String :=
    "plex watchlist base URL must be absolute HTTP(S) without credentials, query, or fragment"

/-- `validateToken`. -/
def validateToken (value : String) : Checked String :=
  let token := trimSpace value
  if token = "" ∨ maximumTokenBytes < byteLength token then
    .error "validate Plex watchlist credential"
  else if token.toList.any fun c => isControl c || isSpace c then
    .error "validate Plex watchlist credential"
  else .ok token

/-! ## Pages -/

/-- `wireItem`. -/
structure WireItem where
  guid : String
  type : String
  title : String
  year : ℤ
  deriving DecidableEq, Repr

/-- `wireContainer`. -/
structure WireContainer where
  size : ℤ
  totalSize : ℤ
  metadata : List WireItem
  deriving DecidableEq, Repr

/-- What a request comes back with: nothing, with the context ended or not, or a response of a
length in bytes, read without an error or not, that `json.Unmarshal` decodes or refuses. -/
inductive WatchlistAnswer
  | notSent (ended : Bool)
  | received (intact : Bool) (length : ℕ) (status : ℤ) (decoded : Option WireContainer)
  deriving DecidableEq, Repr

/-- What a snapshot fails with: the end of the context, `ErrUnavailable` or `ErrUnauthorized`. -/
inductive SnapshotError
  | ended (operation : String)
  | unavailable (operation : String)
  | unauthorized
  deriving DecidableEq, Repr

/-- `sanitizedContextError`. -/
def sanitizedContextError (ended : Bool) (operation : String) : SnapshotError :=
  if ended then .ended operation else .unavailable operation

/-- `fetchPage`, from the answer to its request. -/
def fetchPage : WatchlistAnswer → Except SnapshotError (List WireItem × ℤ)
  | .notSent ended => .error (sanitizedContextError ended "send Plex watchlist request")
  | .received intact length status decoded =>
    if intact = false ∨ maximumResponseSize < length then
      .error (.unavailable "read Plex watchlist response")
    else if status = 401 ∨ status = 403 then .error .unauthorized
    else if status < 200 ∨ 300 ≤ status then .error (.unavailable "read Plex watchlist response")
    else
      match decoded with
      | none => .error (.unavailable "decode Plex watchlist response")
      | some container =>
        if container.totalSize < 0 ∨ container.size < 0 then
          .error (.unavailable "validate Plex watchlist response")
        else .ok (container.metadata, container.totalSize)

/-- The media type that an entry names. -/
def watchlistMediaType (type : String) : WatchlistMediaType :=
  if type = "movie" then .movie else if type = "show" then .tvShow else .unsupported type

/-- The key that duplicates share. -/
def watchlistKey (item : WatchlistItem) : String := item.source ++ "\x00" ++ item.externalID

/-- The items so far, with the keys of all of them. -/
structure Collected where
  items : List WatchlistItem
  seen : List String
  seen_eq : seen = items.map watchlistKey

def Collected.empty : Collected := ⟨[], [], rfl⟩

/-- Remember an item with a new key. -/
def Collected.add (c : Collected) (item : WatchlistItem) : Collected where
  items := c.items ++ [item]
  seen := c.seen ++ [watchlistKey item]
  seen_eq := by rw [c.seen_eq, List.map_append, List.map_singleton]

/-- A page that went through, or that filled the snapshot. -/
inductive PageResult
  | through (collected : Collected)
  | full (items : List WatchlistItem)

section Snapshots

variable [TextTables]

/-- The item of an entry. -/
def wireEntry (wire : WireItem) : Checked WatchlistItem :=
  newWatchlistItem {
    source := "plex-watchlist"
    externalID := wire.guid
    mediaType := watchlistMediaType wire.type
    title := wire.title
    year := wire.year }

/-- The loop of `Snapshot` over the entries of a page. -/
def collectPage (maximumItems : ℕ) : List WireItem → Collected → PageResult
  | [], c => .through c
  | wire :: page, c =>
    match wireEntry wire with
    | .error _ => collectPage maximumItems page c
    | .ok item =>
      if watchlistKey item ∈ c.seen then collectPage maximumItems page c
      else if maximumItems ≤ (c.add item).items.length then .full (c.add item).items
      else collectPage maximumItems page (c.add item)

/-- The loop of `Snapshot` over the pages. `server` answers a request for a number of entries from a
position on. -/
def snapshotFrom (g : Gateway) (server : ℕ → ℕ → WatchlistAnswer) (start : ℕ) (c : Collected) :
    Except SnapshotError (List WatchlistItem) :=
  if start < g.maximumItems then
    match fetchPage (server start g.pageSize) with
    | .error e => .error e
    | .ok (page, total) =>
      match collectPage g.maximumItems page c with
      | .full items => .ok items
      | .through c =>
        if page.length = 0 ∨ total ≤ start + g.pageSize then .ok c.items
        else snapshotFrom g server (start + g.pageSize) c
  else .ok c.items
termination_by g.maximumItems - start
decreasing_by
  have hpos := g.pageSize_pos
  omega

/-- `Snapshot`. The token source gives a token, or none with the context ended or not. -/
def snapshot (g : Gateway) (token : Except Bool String) (server : ℕ → ℕ → WatchlistAnswer) :
    Except SnapshotError (List WatchlistItem) :=
  match token with
  | .error ended => .error (sanitizedContextError ended "load Plex watchlist credential")
  | .ok token =>
    match validateToken token with
    | .error _ => .error (.unavailable "load Plex watchlist credential")
    | .ok _ => snapshotFrom g server 0 .empty

/-! ## What a page adds -/

/-- The item of an entry that is valid. -/
def validEntry (wire : WireItem) : Option WatchlistItem := (wireEntry wire).toOption

theorem validEntry_eq_some {wire : WireItem} {item : WatchlistItem} :
    validEntry wire = some item ↔ wireEntry wire = .ok item := by
  unfold validEntry
  cases wireEntry wire <;> simp [Except.toOption]

theorem filterMap_validEntry_cons_ok {wire : WireItem} {item : WatchlistItem} (page : List WireItem)
    (h : wireEntry wire = .ok item) :
    (wire :: page).filterMap validEntry = item :: page.filterMap validEntry :=
  List.filterMap_cons_some (validEntry_eq_some.2 h)

theorem filterMap_validEntry_cons_error {wire : WireItem} {e : String} (page : List WireItem)
    (h : wireEntry wire = .error e) :
    (wire :: page).filterMap validEntry = page.filterMap validEntry := by
  apply List.filterMap_cons_none
  unfold validEntry
  rw [h]
  rfl

omit [TextTables] in
theorem insertNew_of_seen {c : Collected} {item : WatchlistItem} (h : watchlistKey item ∈ c.seen) :
    insertNew watchlistKey c.items item = c.items := by
  rw [c.seen_eq] at h
  rw [insertNew, if_pos h]

omit [TextTables] in
theorem insertNew_of_not_seen {c : Collected} {item : WatchlistItem}
    (h : watchlistKey item ∉ c.seen) :
    insertNew watchlistKey c.items item = (c.add item).items := by
  rw [c.seen_eq] at h
  rw [insertNew, if_neg h]
  rfl

/-- A page that went through has added its new valid entries. -/
theorem collectPage_through {maximumItems : ℕ} {page : List WireItem} {c c' : Collected}
    (h : collectPage maximumItems page c = .through c') :
    c'.items = appendNew watchlistKey c.items (page.filterMap validEntry) := by
  induction page generalizing c with
  | nil =>
    cases h
    rfl
  | cons wire page ih =>
    rw [collectPage] at h
    cases hentry : wireEntry wire with
    | error e =>
      rw [hentry] at h
      rw [filterMap_validEntry_cons_error page hentry]
      exact ih h
    | ok item =>
      rw [hentry] at h
      rw [filterMap_validEntry_cons_ok page hentry, appendNew_cons]
      dsimp only at h
      split at h
      · rename_i hseen
        rw [insertNew_of_seen hseen]
        exact ih h
      · rename_i hnew
        rw [insertNew_of_not_seen hnew]
        split at h
        · cases h
        · exact ih h

/-- A page that filled the snapshot has added the new valid entries of its beginning. -/
theorem collectPage_full {maximumItems : ℕ} {page : List WireItem} {c : Collected}
    {items : List WatchlistItem} (h : collectPage maximumItems page c = .full items) :
    ∃ before after, page = before ++ after ∧ maximumItems ≤ items.length ∧
      items = appendNew watchlistKey c.items (before.filterMap validEntry) := by
  induction page generalizing c with
  | nil => cases h
  | cons wire page ih =>
    rw [collectPage] at h
    cases hentry : wireEntry wire with
    | error e =>
      rw [hentry] at h
      obtain ⟨before, after, rfl, hmaximum, hitems⟩ := ih h
      refine ⟨wire :: before, after, rfl, hmaximum, ?_⟩
      rw [filterMap_validEntry_cons_error before hentry]
      exact hitems
    | ok item =>
      rw [hentry] at h
      dsimp only at h
      split at h
      · rename_i hseen
        obtain ⟨before, after, rfl, hmaximum, hitems⟩ := ih h
        refine ⟨wire :: before, after, rfl, hmaximum, ?_⟩
        rw [filterMap_validEntry_cons_ok before hentry, appendNew_cons, insertNew_of_seen hseen]
        exact hitems
      · rename_i hnew
        split at h
        · rename_i hmaximum
          cases h
          refine ⟨[wire], page, rfl, hmaximum, ?_⟩
          rw [filterMap_validEntry_cons_ok [] hentry, appendNew_cons, insertNew_of_not_seen hnew]
          rfl
        · obtain ⟨before, after, rfl, hmaximum, hitems⟩ := ih h
          refine ⟨wire :: before, after, rfl, hmaximum, ?_⟩
          rw [filterMap_validEntry_cons_ok before hentry, appendNew_cons,
            insertNew_of_not_seen hnew]
          exact hitems

/-! ## Complete snapshots -/

omit [TextTables] in
/-- The server answers, when it does, with the true total and a window of the watchlist at the
requested position, which is no longer than requested and not empty inside the watchlist. -/
def Serves (server : ℕ → ℕ → WatchlistAnswer) (watchlist : List WireItem) : Prop :=
  ∀ start size page total, 0 < size → fetchPage (server start size) = .ok (page, total) →
    total = watchlist.length ∧ page.length ≤ size ∧ page <+: watchlist.drop start ∧
      (start < watchlist.length → page ≠ [])

/-- The snapshot has the item of every valid entry once, and nothing else. -/
def EachOnce (watchlist : List WireItem) (items : List WatchlistItem) : Prop :=
  items.Perm (watchlist.filterMap validEntry)

/-- No valid entry lies between the end of a page and the start of the next request, for the
requests from `start` on. -/
def GapsEmpty (g : Gateway) (server : ℕ → ℕ → WatchlistAnswer) (watchlist : List WireItem)
    (start : ℕ) : Prop :=
  ∀ k page total, start + k * g.pageSize < watchlist.length →
    fetchPage (server (start + k * g.pageSize) g.pageSize) = .ok (page, total) →
    ∀ wire ∈ (watchlist.drop (start + k * g.pageSize + page.length)).take
      (g.pageSize - page.length), validEntry wire = none

/-- The valid entries have pairwise distinct identifiers, as `NewWatchlistItem` trims them. -/
def DistinctIdentifiers (watchlist : List WireItem) : Prop :=
  ((watchlist.filterMap validEntry).map WatchlistItem.externalID).Nodup

variable {g : Gateway} {server : ℕ → ℕ → WatchlistAnswer} {watchlist : List WireItem}

omit [TextTables] in
/-- What is left of the watchlist is the page, the gap after it, and what the next request finds. -/
theorem drop_eq_page_append_gap {start size : ℕ} {page : List WireItem}
    (hpage : page <+: watchlist.drop start) (hsize : page.length ≤ size) :
    watchlist.drop start = page ++ ((watchlist.drop (start + page.length)).take (size - page.length) ++
      watchlist.drop (start + size)) := by
  obtain ⟨rest, hrest⟩ := hpage
  have hdrop : watchlist.drop (start + page.length) = rest := by
    rw [← List.drop_drop, ← hrest, List.drop_left]
  have hnext : watchlist.drop (start + size) = rest.drop (size - page.length) := by
    rw [← hdrop, List.drop_drop]
    congr 1
    omega
  rw [hnext, hdrop, List.take_append_drop, hrest]

theorem gapsEmpty_of_length_le {start : ℕ} (h : watchlist.length ≤ start) :
    GapsEmpty g server watchlist start := by
  intro k page total hstart
  omega

/-- The gaps are the one after the first page, and the later ones. -/
theorem gapsEmpty_iff {start : ℕ} {page : List WireItem} {total : ℤ}
    (hfetch : fetchPage (server start g.pageSize) = .ok (page, total)) :
    GapsEmpty g server watchlist start ↔
      (∀ wire ∈ (watchlist.drop (start + page.length)).take (g.pageSize - page.length),
        validEntry wire = none) ∧ GapsEmpty g server watchlist (start + g.pageSize) := by
  constructor
  · intro h
    refine ⟨?_, ?_⟩
    · intro wire hwire
      by_cases hstart : start < watchlist.length
      · have hfirst := h 0 page total
        simp only [Nat.zero_mul, Nat.add_zero] at hfirst
        exact hfirst hstart hfetch wire hwire
      · rw [List.drop_eq_nil_of_le (by omega), List.take_nil] at hwire
        cases hwire
    · intro k
      have hk := h (k + 1)
      rw [Nat.succ_mul, ← Nat.add_assoc, Nat.add_right_comm] at hk
      exact hk
  · rintro ⟨hfirst, hlater⟩ k page' total' hstart hfetch'
    cases k with
    | zero =>
      simp only [Nat.zero_mul, Nat.add_zero] at hstart hfetch' ⊢
      obtain ⟨rfl, rfl⟩ := Prod.mk.inj (Except.ok.inj (hfetch.symm.trans hfetch'))
      exact hfirst
    | succ k =>
      have hk := hlater k page' total'
      rw [Nat.add_right_comm, Nat.add_assoc, ← Nat.succ_mul] at hk
      exact hk hstart hfetch'

/-- A page and what is served after it have all valid entries exactly if nothing valid is in the gap
and nothing is missing later. -/
theorem filterMap_served_iff {start : ℕ} {page served : List WireItem}
    (hpage : page <+: watchlist.drop start) (hsize : page.length ≤ g.pageSize)
    (hserved : served.Sublist (watchlist.drop (start + g.pageSize))) :
    (page ++ served).filterMap validEntry = (watchlist.drop start).filterMap validEntry ↔
      (∀ wire ∈ (watchlist.drop (start + page.length)).take (g.pageSize - page.length),
        validEntry wire = none) ∧
      served.filterMap validEntry = (watchlist.drop (start + g.pageSize)).filterMap validEntry := by
  rw [drop_eq_page_append_gap hpage hsize, List.filterMap_append, List.filterMap_append,
    List.filterMap_append, List.append_cancel_left_eq, ← List.filterMap_eq_nil_iff]
  constructor
  · intro h
    have hle := (hserved.filterMap validEntry).length_le
    have hlength := congrArg List.length h
    rw [List.length_append] at hlength
    have hgap := List.length_eq_zero_iff.1 (by omega :
      (((watchlist.drop (start + page.length)).take (g.pageSize - page.length)).filterMap
        validEntry).length = 0)
    refine ⟨hgap, ?_⟩
    rw [h, hgap, List.nil_append]
  · rintro ⟨hgap, hrest⟩
    rw [hgap, hrest, List.nil_append]

/-- The loop over the pages serves a part of what is left of the watchlist, with all valid entries
exactly if nothing valid is in a gap. -/
theorem snapshotFrom_served (hserves : Serves server watchlist)
    (hlength : watchlist.length ≤ g.maximumItems) {start : ℕ} {c : Collected}
    {items : List WatchlistItem} (hshort : c.items.length ≤ start)
    (h : snapshotFrom g server start c = .ok items) :
    ∃ served : List WireItem, served.Sublist (watchlist.drop start) ∧
      items = appendNew watchlistKey c.items (served.filterMap validEntry) ∧
      (served.filterMap validEntry = (watchlist.drop start).filterMap validEntry ↔
        GapsEmpty g server watchlist start) := by
  induction hleft : g.maximumItems - start using Nat.strong_induction_on generalizing start c with
  | _ left ih =>
  rw [snapshotFrom] at h
  by_cases hstart : start < g.maximumItems
  case neg =>
    rw [if_neg hstart] at h
    cases h
    refine ⟨[], List.nil_sublist _, rfl, ?_⟩
    rw [List.drop_eq_nil_of_le (by omega)]
    exact iff_of_true rfl (gapsEmpty_of_length_le (by omega))
  rw [if_pos hstart] at h
  cases hfetch : fetchPage (server start g.pageSize) with
  | error e =>
    rw [hfetch] at h
    cases h
  | ok answer =>
    obtain ⟨page, total⟩ := answer
    obtain ⟨htotal, hsize, hpage, hnonempty⟩ := hserves start g.pageSize page total g.pageSize_pos hfetch
    rw [hfetch] at h
    dsimp only at h
    have hpageLength : page.length ≤ watchlist.length - start := by
      rw [← List.length_drop]
      exact hpage.length_le
    have hadded : ∀ before : List WireItem,
        (appendNew watchlistKey c.items (before.filterMap validEntry)).length ≤
          start + before.length := by
      intro before
      have happend : (appendNew watchlistKey c.items (before.filterMap validEntry)).length ≤
          c.items.length + (before.filterMap validEntry).length := appendNew_length_le _ _
      have hfilter := List.length_filterMap_le validEntry before
      omega
    cases hcollect : collectPage g.maximumItems page c with
    | full full =>
      rw [hcollect] at h
      cases h
      obtain ⟨before, after, rfl, hmaximum, hitems⟩ := collectPage_full hcollect
      -- as many items as the watchlist has entries: nothing is left of it, or of the page
      have hbefore := hadded before
      rw [← hitems] at hbefore
      rw [List.length_append] at hpageLength
      have hafter : after = [] := List.length_eq_zero_iff.1 (by omega)
      subst hafter
      rw [List.append_nil] at hpage hfetch hsize
      have hall : before = watchlist.drop start :=
        hpage.eq_of_length (by rw [List.length_drop]; omega)
      refine ⟨before, hall ▸ List.Sublist.refl _, hitems, ?_⟩
      rw [← hall, gapsEmpty_iff hfetch, List.drop_eq_nil_of_le (by omega), List.take_nil]
      refine iff_of_true rfl ⟨fun wire hwire => ?_, gapsEmpty_of_length_le (by omega)⟩
      cases hwire
    | through c' =>
      rw [hcollect] at h
      dsimp only at h
      have hitems := collectPage_through hcollect
      have hpos := g.pageSize_pos
      split at h
      · rename_i hstop
        cases h
        have hend : watchlist.length ≤ start + g.pageSize := by
          rcases hstop with hempty | htotal'
          · by_contra hinside
            exact hnonempty (by omega) (List.length_eq_zero_iff.1 hempty)
          · omega
        have hdrop : watchlist.drop (start + g.pageSize) = [] := List.drop_eq_nil_of_le hend
        have hiff := filterMap_served_iff hpage hsize (List.nil_sublist _)
        rw [List.append_nil, hdrop] at hiff
        refine ⟨page, hpage.sublist, hitems, ?_⟩
        rw [hiff, gapsEmpty_iff hfetch]
        exact and_congr_right fun _ => iff_of_true rfl (gapsEmpty_of_length_le hend)
      · have hnext := hadded page
        rw [← hitems] at hnext
        obtain ⟨served, hserved, hlater, hiff⟩ :=
          ih _ (by omega) (by omega) h rfl
        refine ⟨page ++ served, ?_, ?_, ?_⟩
        · rw [drop_eq_page_append_gap hpage hsize]
          exact (List.Sublist.refl page).append
            (hserved.trans (List.sublist_append_right _ _))
        · rw [hlater, hitems, List.filterMap_append, appendNew_append]
        · rw [filterMap_served_iff hpage hsize hserved, gapsEmpty_iff hfetch, hiff]

/-! ## Completeness -/

/-- Every item of a snapshot has the same source, so its key tells its identifier. -/
theorem validEntry_source {wire : WireItem} {item : WatchlistItem}
    (h : validEntry wire = some item) : item.source = "plex-watchlist" :=
  (newWatchlistItem_eq_ok (validEntry_eq_some.1 h)).1

theorem distinctIdentifiers_iff :
    DistinctIdentifiers watchlist ↔
      ((watchlist.filterMap validEntry).map watchlistKey).Nodup := by
  have hkeys : (watchlist.filterMap validEntry).map watchlistKey =
      ((watchlist.filterMap validEntry).map WatchlistItem.externalID).map
        ("plex-watchlist" ++ "\x00" ++ ·) := by
    rw [List.map_map]
    refine List.map_congr_left fun item hitem => ?_
    obtain ⟨wire, -, hwire⟩ := List.mem_filterMap.1 hitem
    simp only [watchlistKey, validEntry_source hwire, Function.comp_apply]
  rw [hkeys, DistinctIdentifiers,
    List.nodup_map_iff fun a b h => (String.append_right_inj _).1 h]

/-- A successful snapshot of a watchlist that fits has each valid entry once exactly if no valid
entry lies in a gap between a page and the next request, and no two of them share an identifier. -/
theorem snapshot_eachOnce_iff (g : Gateway) (token : Except Bool String)
    (server : ℕ → ℕ → WatchlistAnswer) (watchlist : List WireItem) (items : List WatchlistItem)
    (hlength : watchlist.length ≤ g.maximumItems) (hserves : Serves server watchlist)
    (h : snapshot g token server = .ok items) :
    EachOnce watchlist items ↔
      GapsEmpty g server watchlist 0 ∧ DistinctIdentifiers watchlist := by
  have hloop : snapshotFrom g server 0 .empty = .ok items := by
    unfold snapshot at h
    cases token with
    | error ended => cases h
    | ok token =>
      dsimp only at h
      cases hvalid : validateToken token with
      | error e =>
        rw [hvalid] at h
        cases h
      | ok valid =>
        rw [hvalid] at h
        exact h
  obtain ⟨served, hserved, hitems, hiff⟩ :=
    snapshotFrom_served hserves hlength (Nat.le_refl 0) hloop
  rw [List.drop_zero] at hserved hiff
  rw [← hiff, distinctIdentifiers_iff, EachOnce]
  have hsublist := hserved.filterMap validEntry
  have hnodup : (items.map watchlistKey).Nodup := hitems ▸ appendNew_nodup _ List.nodup_nil
  have hle : items.length ≤ (served.filterMap validEntry).length := by
    have happend : (appendNew watchlistKey [] (served.filterMap validEntry)).length ≤
        0 + (served.filterMap validEntry).length := appendNew_length_le _ _
    rw [hitems]
    exact happend.trans (by simp)
  constructor
  · intro hperm
    refine ⟨hsublist.eq_of_length_le (hperm.length_eq ▸ hle), ?_⟩
    exact (hperm.map watchlistKey).nodup_iff.1 hnodup
  · rintro ⟨hall, hkeys⟩
    have happend : appendNew watchlistKey [] (watchlist.filterMap validEntry) =
        [] ++ watchlist.filterMap validEntry := appendNew_eq_append hkeys
    rw [hitems, hall, Collected.empty, happend]
    exact List.Perm.refl _

end Snapshots

section SmallRuns

attribute [local instance] TextTables.ascii

/-- A server whose pages have at most `limit` entries. -/
def limitedServer (limit : ℕ) (watchlist : List WireItem) (start size : ℕ) : WatchlistAnswer :=
  .received true 400 200 (some {
    size := 0
    totalSize := watchlist.length
    metadata := (watchlist.drop start).take (min limit size) })

theorem limitedServer_serves {limit : ℕ} (hlimit : 0 < limit) (watchlist : List WireItem) :
    Serves (limitedServer limit watchlist) watchlist := by
  intro start size page total hsize h
  have hanswer : fetchPage (limitedServer limit watchlist start size) =
      .ok ((watchlist.drop start).take (min limit size), (watchlist.length : ℤ)) := by
    simp [limitedServer, fetchPage, maximumResponseSize]
  obtain ⟨rfl, rfl⟩ := Prod.mk.inj (Except.ok.inj (hanswer.symm.trans h))
  refine ⟨rfl, ?_, List.take_prefix _ _, ?_⟩
  · exact (List.length_take_le _ _).trans (Nat.min_le_right _ _)
  · intro hstart hempty
    have hlength := congrArg List.length hempty
    rw [List.length_take, List.length_drop, List.length_nil] at hlength
    omega

/-- Two movies. -/
def twoMovies : List WireItem :=
  [⟨"plex://movie/1", "movie", "One", 2001⟩, ⟨"plex://movie/2", "movie", "Two", 2002⟩]

/-- Three entries to a page. -/
def threePerPage : Gateway where
  pageSize := 3
  maximumItems := 10
  pageSize_pos := by decide
  pageSize_le := by decide
  maximumItems_pos := by decide
  maximumItems_le := by decide

/-- Two movies with a season and another movie after them. -/
def moviesAroundSeason : List WireItem :=
  twoMovies ++ [⟨"plex://season/3", "season", "Three", 2003⟩,
    ⟨"plex://movie/4", "movie", "Four", 2004⟩]

/-- The items of the three movies. -/
def threeMovieItems : List WatchlistItem :=
  [⟨"plex-watchlist", "plex://movie/1", .movie, "One", 2001⟩,
    ⟨"plex-watchlist", "plex://movie/2", .movie, "Two", 2002⟩,
    ⟨"plex-watchlist", "plex://movie/4", .movie, "Four", 2004⟩]

theorem snapshot_skipsSeason :
    EachOnce moviesAroundSeason threeMovieItems ↔
      GapsEmpty threePerPage (limitedServer 2 moviesAroundSeason) moviesAroundSeason 0 ∧
        DistinctIdentifiers moviesAroundSeason :=
  snapshot_eachOnce_iff threePerPage (.ok "token") (limitedServer 2 moviesAroundSeason)
    moviesAroundSeason threeMovieItems (by decide) (limitedServer_serves (by decide) _)
    (by decide +kernel)

/-- A server that sends one entry at a time: the second movie is never asked for. -/
theorem snapshot_misses :
    ¬ ∀ (g : Gateway) (token : Except Bool String) (server : ℕ → ℕ → WatchlistAnswer)
      (watchlist : List WireItem) (items : List WatchlistItem),
      watchlist.length ≤ g.maximumItems → (watchlist.map WireItem.guid).Nodup →
      Serves server watchlist → snapshot g token server = .ok items →
      EachOnce watchlist items := by
  intro h
  have hitems : snapshot threePerPage (.ok "token") (limitedServer 1 twoMovies) =
      .ok [⟨"plex-watchlist", "plex://movie/1", .movie, "One", 2001⟩] := by decide +kernel
  have hperm := h threePerPage (.ok "token") (limitedServer 1 twoMovies) twoMovies _ (by decide)
    (by decide) (limitedServer_serves (by decide) _) hitems
  have hcount : (twoMovies.filterMap validEntry).length = 2 := by decide +kernel
  rw [← hperm.length_eq] at hcount
  cases hcount

end SmallRuns

end BlackPearl.Watchlist
