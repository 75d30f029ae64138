import BlackPearl.Torbox.Torrents
import BlackPearl.Worker.Resolve

/-!
# One torrent under several spellings

Releases, magnets, torrent files, search results, objects of an account and created objects are matched
by their info hashes as texts. All six comparisons are up to case at most, so they tell apart the
hexadecimal and the base32 spelling of one hash, and a file never has a hash in base32
(`oneIdentity_iff`).
-/

set_option autoImplicit false

namespace BlackPearl.Worker

open BlackPearl.Library BlackPearl.Acquisition BlackPearl.Torbox

section Sites

variable [TextTables]

/-- `ReleaseProtocol` as text. -/
def protocolText : ReleaseProtocol → String
  | .unset => ""
  | .torrent => "torrent"
  | .usenet => "usenet"
  | .unsupported text => text

/-- `releaseIdentity`. -/
def releaseIdentity (release : Release) : String :=
  if release.infoHash ≠ "" then
    protocolText release.protocol ++ "|hash|" ++ toLowerString release.infoHash
  else
    protocolText release.protocol ++ "|source|" ++ release.provider ++ "|" ++ release.sourceID

/-- The loop of `prepare` over the releases found: the first one of the selection. -/
def ephemeralRelease (releases : List Release) (selection : JobSelection) : Option Release :=
  releases.find? fun release => release.protocol = .torrent && release.infoHash = selection.infoHash

variable [FoldTables] [URLParser]

/-- The six comparisons of hashes with spellings `u` and `v` agree that the hashes are the same exactly
if `same` holds. The payload is a torrent file with the hash that `v` spells. -/
structure OneIdentity (sha1 : Bytes → Bytes) (u v : String) (payload : Bytes) (same : Prop) : Prop where
  identity : ∀ input input' r r', input.infoHash = u → input'.infoHash = v →
    input.protocol = input'.protocol → newRelease input = .ok r → newRelease input' = .ok r' →
    (releaseIdentity r = releaseIdentity r' ↔ same)
  magnet : ∀ magnet parsed topic, URLParser.parse magnet = some parsed → parsed.scheme = "magnet" →
    parsed.hasUser = false → parsed.fragment = "" → parsed.exactTopics = [topic] →
    btihTopic topic = some v → ((newMagnetTorrentInput u magnet).isOk = true ↔ same)
  file : (∃ input, newTorrentFileInput sha1 u payload = .ok input) ↔ same
  ephemeral : ∀ input input' r r' s, input.infoHash = u → input'.infoHash = v →
    newRelease input = .ok r → newRelease input' = .ok r' → newTorrentJobSelection r = .ok s →
    r'.protocol = .torrent → (ephemeralRelease [r'] s = some r' ↔ same)
  account : ∀ id : ℤ, 0 < id → (findTorrentByHash (.ok [⟨id, v⟩]) u =
    .ok ⟨⟨providerName, toString id⟩⟩ ↔ same)
  created : ∀ (id : ℤ) input, 0 < id → .ok input.infoHash = normalizeInfoHash u →
    (createTorrent (fun _ => .ok ⟨v, id⟩) input = .ok ⟨⟨providerName, toString id⟩⟩ ↔ same)

/-! ## Spellings -/

section Spellings

variable {cs ds : List Char} {a b : List ℕ}

omit [TextTables] [FoldTables] [URLParser] in
theorem normalSpelling_eq_iff (hcs : spelledHash cs = some a) (hds : spelledHash ds = some b) :
    normalSpelling cs = normalSpelling ds ↔ a = b ∧ cs.length = ds.length := by
  constructor
  · intro h
    have hlen := congrArg List.length h
    rw [length_normalSpelling, length_normalSpelling] at hlen
    have hsame := spelledHash_normalSpelling hcs
    rw [h, spelledHash_normalSpelling hds] at hsame
    exact ⟨(Option.some.inj hsame).symm, hlen⟩
  · intro h
    have hlower := (map_toLower_eq_iff hcs hds).2 h
    have hupper := map_toUpper_of_toLower (spelledHash_eq_some hcs).2.2 (spelledHash_eq_some hds).2.2
      hlower
    rw [normalSpelling, normalSpelling, h.2, hlower, hupper]

omit [URLParser] [TextTables] in
/-- Comparing spellings up to case. -/
theorem equalFold_iff {s t : String} (hs : spelledHash s.toList = some a)
    (ht : spelledHash t.toList = some b) :
    equalFold s t = true ↔ a = b ∧ s.toList.length = t.toList.length := by
  have hfold : ∀ cs ds : List Char, (∀ c ∈ cs, c.toNat < 128) → (∀ d ∈ ds, d.toNat < 128) →
      (cs.map FoldTables.fold = ds.map FoldTables.fold ↔ cs.map Char.toLower = ds.map Char.toLower) := by
    intro cs
    induction cs with
    | nil =>
      intro ds _ _
      cases ds with
      | nil => exact ⟨fun _ => rfl, fun _ => rfl⟩
      | cons d ds => exact ⟨nofun, nofun⟩
    | cons c cs ih =>
      intro ds hcs hds
      cases ds with
      | nil => exact ⟨nofun, nofun⟩
      | cons d ds =>
        rw [List.forall_mem_cons] at hcs hds
        rw [List.map_cons, List.map_cons, List.map_cons, List.map_cons, List.cons.injEq,
          List.cons.injEq, FoldTables.fold_ascii c d hcs.1 hds.1, ih ds hcs.2 hds.2]
  rw [equalFold, decide_eq_true_eq, hfold _ _ (spelledHash_eq_some hs).2.2 (spelledHash_eq_some ht).2.2,
    map_toLower_eq_iff hs ht]

omit [FoldTables] [URLParser] in
theorem normalizeInfoHash_spelled {s : String} (hs : spelledHash s.toList = some a) :
    normalizeInfoHash s = .ok (String.ofList (normalSpelling s.toList)) := by
  rw [normalizeInfoHash_eq_ok_iff, text, text, String.toList_ofList]
  exact normalizeInfoHashBytes_spelled hs

omit [TextTables] [FoldTables] [URLParser] in
/-- A spelling of a hash is not empty, and its characters are letters and digits. -/
theorem spelled_chars (hcs : spelledHash cs = some a) :
    0 < cs.length ∧ ∀ c ∈ cs, isSpace c = false ∧ c.isAlphanum = true := by
  have hascii := (spelledHash_eq_some hcs).2.2
  unfold spelledHash at hcs
  split_ifs at hcs with h40 h32
  · have hdigits := hexValue_of_decodeHex (Option.isSome_iff_exists.2 ⟨a, hcs⟩)
    refine ⟨by omega, fun c hc => ?_⟩
    exact ascii_cases (P := fun c => (hexValue c).isSome → isSpace c = false ∧ c.isAlphanum = true)
      (by decide) c (hascii c hc) (hdigits c hc)
  · have hletters := decodeQuintets_isSome_iff.1 (Option.isSome_iff_exists.2 ⟨a, hcs⟩)
    refine ⟨by omega, fun c hc => ?_⟩
    exact ascii_cases
      (P := fun c => (base32Value c.toUpper).isSome → isSpace c = false ∧ c.isAlphanum = true)
      (by decide) c (hascii c hc) (hletters c hc)

end Spellings

/-! ## The six comparisons -/

section Comparisons

variable {u v : String} {a b : List ℕ}

/-- The normal spelling of `u`. -/
def normalText (u : String) : String := String.ofList (normalSpelling u.toList)

omit [TextTables] [FoldTables] [URLParser] in
theorem spelledHash_normalText (hu : spelledHash u.toList = some a) :
    spelledHash (normalText u).toList = some a := by
  rw [normalText, String.toList_ofList]
  exact spelledHash_normalSpelling hu

omit [TextTables] [FoldTables] [URLParser] in
@[simp] theorem length_normalText (u : String) : (normalText u).toList.length = u.toList.length := by
  rw [normalText, String.toList_ofList, length_normalSpelling]

omit [TextTables] [FoldTables] [URLParser] in
theorem normalText_ne_empty (hu : spelledHash u.toList = some a) : normalText u ≠ "" := by
  intro h
  have hlen := length_normalText u
  have hpos := (spelled_chars hu).1
  rw [h] at hlen
  exact absurd hlen.symm (Nat.ne_of_gt hpos)

omit [FoldTables] in
/-- What a release carries. -/
theorem newRelease_infoHash {input : ReleaseInput} {r : Release} (h : newRelease input = .ok r)
    (hu : spelledHash input.infoHash.toList = some a) :
    r.infoHash = normalText input.infoHash ∧ r.protocol = input.protocol := by
  simp only [newRelease, bind_eq_ok, pure_eq_ok, require_eq_ok, within_eq_ok,
    normalInfoHash_eq_ok] at h
  obtain ⟨_, _, _, _, _, _, _, _, _, _, _, _, hash, hhash, _, _, _, _, _, _, _, _, _, _, rfl⟩ := h
  rw [normalizeInfoHash_spelled hu] at hhash
  exact ⟨(Except.ok.inj hhash).symm, rfl⟩

omit [FoldTables] [URLParser] in
theorem releaseIdentity_eq_iff {r r' : Release} (hu : spelledHash u.toList = some a)
    (hv : spelledHash v.toList = some b) (hr : r.infoHash = normalText u)
    (hr' : r'.infoHash = normalText v) (hprotocol : r.protocol = r'.protocol) :
    releaseIdentity r = releaseIdentity r' ↔ a = b ∧ u.toList.length = v.toList.length := by
  have hnu := spelledHash_normalText hu
  have hnv := spelledHash_normalText hv
  have hlower : ∀ {s : String} {c : List ℕ}, spelledHash s.toList = some c →
      (toLowerString s).toList = s.toList.map Char.toLower := by
    intro s c hs
    rw [toLowerString, mapCase, String.toList_ofList]
    exact List.map_congr_left fun d hd => TextTables.toLower_ascii d ((spelledHash_eq_some hs).2.2 d hd)
  have hsame := map_toLower_eq_iff hnu hnv
  rw [length_normalText, length_normalText] at hsame
  rw [← hsame, releaseIdentity, releaseIdentity, hr, hr', hprotocol, if_pos (normalText_ne_empty hu),
    if_pos (normalText_ne_empty hv), ← hlower hnu, ← hlower hnv, String.toList_inj]
  constructor
  · intro h
    have hlist := congrArg String.toList h
    simp only [String.toList_append, List.append_cancel_left_eq] at hlist
    exact String.toList_injective hlist
  · exact fun h => by rw [h]

omit [TextTables] [URLParser] in
/-- The two normal spellings are compared up to case. -/
theorem equalFold_normalText_iff (hu : spelledHash u.toList = some a)
    (hv : spelledHash v.toList = some b) :
    equalFold (normalText v) (normalText u) = true ↔ a = b ∧ u.toList.length = v.toList.length := by
  rw [equalFold_iff (spelledHash_normalText hv) (spelledHash_normalText hu), length_normalText,
    length_normalText, eq_comm, @eq_comm _ v.toList.length]

omit [FoldTables] [URLParser] in
theorem expectedInfoHash_spelled (hu : spelledHash u.toList = some a) :
    expectedInfoHash u = .ok (normalText u) := by
  rw [expectedInfoHash, normalizeInfoHash_spelled hu]
  exact if_neg (normalText_ne_empty hu)

theorem newMagnetTorrentInput_eq {magnet topic : String} {parsed : ParsedURL}
    (hu : spelledHash u.toList = some a) (hv : spelledHash v.toList = some b)
    (hparse : URLParser.parse magnet = some parsed) (hscheme : parsed.scheme = "magnet")
    (huser : parsed.hasUser = false) (hfragment : parsed.fragment = "")
    (htopics : parsed.exactTopics = [topic]) (htopic : btihTopic topic = some v) :
    newMagnetTorrentInput u magnet =
      if equalFold (normalText v) (normalText u) = true then .ok (.magnet (normalText u) magnet)
      else .error "torrent input magnet does not match selected info hash" := by
  have hvalid : validateMagnetURL magnet = .ok () := by
    simp only [validateMagnetURL, hparse, bind_eq_ok, require_eq_ok]
    refine ⟨(), ⟨hscheme, huser, hfragment⟩, topic, ?_, v, htopic, ?_⟩
    · rw [htopics]
      exact List.mem_singleton_self topic
    · rw [normalizeInfoHash_spelled hv]
      rfl
  have hmatch : topicMatches (normalText u) topic = equalFold (normalText v) (normalText u) := by
    simp only [topicMatches, htopic, normalizeInfoHash_spelled hv]
    rfl
  have hany : parsed.exactTopics.any (topicMatches (normalText u)) =
      equalFold (normalText v) (normalText u) := by
    rw [htopics, List.any_cons, List.any_nil, Bool.or_false, hmatch]
  simp only [newMagnetTorrentInput, expectedInfoHash_spelled hu, hvalid, hparse]
  show (require (parsed.exactTopics.any (topicMatches (normalText u)) = true) _ >>= fun _ => _) = _
  rw [hany]
  cases equalFold (normalText v) (normalText u) <;> rfl

omit [URLParser] in
theorem newTorrentFileInput_iff {sha1 : Bytes → Bytes} {payload : Bytes} {hash : String}
    (hu : spelledHash u.toList = some a) (hpayload : rawTorrentInfoHash sha1 payload = .ok hash)
    (hsize : payload.length ≤ maximumTorrentFileBytes) (hhash : decodeHex hash.toList = some b)
    (hb : b.length = 20) :
    (∃ input, newTorrentFileInput sha1 u payload = .ok input) ↔ a = b ∧ u.toList.length = 40 := by
  have hlen : hash.toList.length = 40 := by
    rw [(decodeHex_eq_some hhash).1, hb]
  have hspelled : spelledHash hash.toList = some b := by
    rw [spelledHash, if_pos hlen, hhash]
  have hempty : ¬ payload.length = 0 := by
    intro hnil
    rw [List.length_eq_zero_iff.1 hnil] at hpayload
    cases hpayload
  have hfold := equalFold_iff hspelled (spelledHash_normalText hu)
  rw [hlen, length_normalText, @eq_comm _ b, @eq_comm _ 40] at hfold
  rw [← hfold, newTorrentFileInput, expectedInfoHash_spelled hu]
  simp only [if_neg hempty, if_neg (not_lt.2 hsize), hpayload, wrapped, ok_bind]
  cases equalFold hash (normalText u) with
  | true => exact ⟨fun _ => rfl, fun _ => ⟨_, rfl⟩⟩
  | false =>
    constructor
    · rintro ⟨input, hinput⟩
      cases hinput
    · intro hsame
      cases hsame

omit [FoldTables] [URLParser] in
theorem ephemeralRelease_iff {r' : Release} {s : JobSelection} (hu : spelledHash u.toList = some a)
    (hv : spelledHash v.toList = some b) (hs : s.infoHash = normalText u)
    (hr' : r'.infoHash = normalText v) (hprotocol : r'.protocol = .torrent) :
    ephemeralRelease [r'] s = some r' ↔ a = b ∧ u.toList.length = v.toList.length := by
  rw [← normalSpelling_eq_iff hu hv, ephemeralRelease, hs, List.find?_singleton, hr', hprotocol]
  have hsame : normalText v = normalText u ↔ normalSpelling u.toList = normalSpelling v.toList := by
    rw [normalText, normalText, String.ofList_inj, eq_comm]
  by_cases h : normalText v = normalText u
  · simp [h, hsame.1 h]
  · simp [h, hsame.not.1 h]

omit [TextTables] [URLParser] in
theorem recordMatches_iff {id : ℤ} (hid : 0 < id) (hu : spelledHash u.toList = some a)
    (hv : spelledHash v.toList = some b) :
    recordMatches (normalText u) ⟨id, v⟩ = true ↔ a = b ∧ u.toList.length = v.toList.length := by
  rw [recordMatches, Bool.and_eq_true, decide_eq_true_eq, and_iff_right hid,
    trimSpace_eq_self fun c hc => ((spelled_chars hv).2 c hc).1,
    equalFold_iff hv (spelledHash_normalText hu), length_normalText, eq_comm,
    @eq_comm _ v.toList.length]

/-- The parser of URLs reads magnets of one hash: such a URL has no authority and no fragment, and its
query has the topic. -/
def ParsesMagnets : Prop :=
  ∀ hash : String, (∀ c ∈ hash.toList, c.isAlphanum = true) →
    URLParser.parse ("magnet:?xt=urn:btih:" ++ hash) =
      some ⟨"magnet", false, "", "", ["urn:btih:" ++ hash]⟩

omit [TextTables] [FoldTables] [URLParser] in
theorem btihTopic_append (hu : spelledHash u.toList = some a) :
    btihTopic ("urn:btih:" ++ u) = some u := by
  have hlist : ("urn:btih:" ++ u).toList = "urn:btih:".toList ++ u.toList := String.toList_append
  have hpos := (spelled_chars hu).1
  have htake : ("urn:btih:".toList ++ u.toList).take 9 = "urn:btih:".toList := List.take_left' rfl
  have hdrop : ("urn:btih:".toList ++ u.toList).drop 9 = u.toList := List.drop_left' rfl
  have hlen : 9 < ("urn:btih:".toList ++ u.toList).length := by
    rw [List.length_append]
    exact Nat.lt_add_of_pos_right hpos
  simp only [btihTopic, hlist, htake, hdrop]
  rw [if_pos ⟨by decide, hlen⟩, String.ofList_toList]

theorem findTorrentByHash_iff (hmagnets : ParsesMagnets) {id : ℤ} (hid : 0 < id)
    (hu : spelledHash u.toList = some a) (hv : spelledHash v.toList = some b) :
    findTorrentByHash (.ok [⟨id, v⟩]) u = .ok ⟨⟨providerName, toString id⟩⟩ ↔
      a = b ∧ u.toList.length = v.toList.length := by
  have hparse := hmagnets u fun c hc => ((spelled_chars hu).2 c hc).2
  have hself : equalFold (normalText u) (normalText u) = true :=
    (equalFold_normalText_iff hu hu).2 ⟨rfl, rfl⟩
  have hvalidated : newMagnetTorrentInput u ("magnet:?xt=urn:btih:" ++ u) =
      .ok (.magnet (normalText u) ("magnet:?xt=urn:btih:" ++ u)) := by
    rw [newMagnetTorrentInput_eq hu hu hparse rfl rfl rfl rfl (btihTopic_append hu), if_pos hself]
  have hmatch := recordMatches_iff hid hu hv
  rw [← hmatch, findTorrentByHash, hvalidated]
  cases hcase : recordMatches (normalText u) ⟨id, v⟩ with
  | true =>
    have hfound : [(⟨id, v⟩ : TorrentRecord)].filter (recordMatches (normalText u)) = [⟨id, v⟩] := by
      rw [List.filter_cons_of_pos hcase, List.filter_nil]
    simp only [TorrentInput.infoHash, hfound, newCreatedObject_toString hid]
  | false =>
    have hnone : [(⟨id, v⟩ : TorrentRecord)].filter (recordMatches (normalText u)) = [] := by
      rw [List.filter_cons_of_neg (by simp [hcase]), List.filter_nil]
    simp only [TorrentInput.infoHash, hnone]
    constructor
    · intro hfound
      cases hfound
    · intro hsame
      cases hsame

omit [URLParser] in
theorem createTorrent_iff {id : ℤ} {input : TorrentInput} (hid : 0 < id)
    (hu : spelledHash u.toList = some a) (hv : spelledHash v.toList = some b)
    (hinput : input.infoHash = normalText u) :
    createTorrent (fun _ => .ok ⟨v, id⟩) input = .ok ⟨⟨providerName, toString id⟩⟩ ↔
      a = b ∧ u.toList.length = v.toList.length := by
  have hmatch := recordMatches_iff hid hu hv
  rw [recordMatches, Bool.and_eq_true, decide_eq_true_eq, and_iff_right hid] at hmatch
  simp only [createTorrent, bind_eq_ok, require_eq_ok, Except.ok.injEq, hinput]
  rw [← hmatch]
  constructor
  · rintro ⟨_, -, data, rfl, -, -, -, hfold, -⟩
    exact hfold
  · intro hfold
    refine ⟨(), normalText_ne_empty hu, ⟨v, id⟩, rfl, (), hid, (), hfold, ?_⟩
    simp only [newCreatedObject_toString hid]

/-- The spellings of hashes are matched as the hashes are exactly if those of one hash are both
hexadecimal. -/
theorem oneIdentity_iff (sha1 : Bytes → Bytes) (payload : Bytes) (hash : String)
    (hmagnets : ParsesMagnets) (hu : spelledHash u.toList = some a)
    (hv : spelledHash v.toList = some b) (hpayload : rawTorrentInfoHash sha1 payload = .ok hash)
    (hsize : payload.length ≤ maximumTorrentFileBytes) (hhash : decodeHex hash.toList = some b) :
    OneIdentity sha1 u v payload (a = b) ↔ (a = b → u.toList.length = 40 ∧ v.toList.length = 40) := by
  have hfile := newTorrentFileInput_iff hu hpayload hsize hhash (spelledHash_eq_some hv).1
  constructor
  · intro h hsame
    have hhex := (hfile.1 (h.file.2 hsame)).2
    have hlen := ((findTorrentByHash_iff hmagnets Int.one_pos hu hv).1
      ((h.account 1 Int.one_pos).2 hsame)).2
    exact ⟨hhex, hlen ▸ hhex⟩
  · intro h
    have hsame : (a = b ∧ u.toList.length = v.toList.length) ↔ a = b :=
      ⟨And.left, fun hab => ⟨hab, (h hab).1.trans (h hab).2.symm⟩⟩
    constructor
    · rintro input input' r r' rfl rfl hprotocol hr hr'
      obtain ⟨hhash, hkind⟩ := newRelease_infoHash hr hu
      obtain ⟨hhash', hkind'⟩ := newRelease_infoHash hr' hv
      rw [releaseIdentity_eq_iff hu hv hhash hhash' (hkind.trans (hprotocol.trans hkind'.symm)), hsame]
    · intro magnet parsed topic hparse hscheme huser hfragment htopics htopic
      rw [newMagnetTorrentInput_eq hu hv hparse hscheme huser hfragment htopics htopic, ← hsame,
        ← equalFold_normalText_iff hu hv]
      cases equalFold (normalText v) (normalText u) with
      | true => exact ⟨fun _ => rfl, fun _ => rfl⟩
      | false => exact ⟨nofun, nofun⟩
    · rw [hfile]
      exact ⟨And.left, fun hab => ⟨hab, (h hab).1⟩⟩
    · rintro input input' r r' s rfl rfl hr hr' hs htorrent
      have hselected := (newTorrentJobSelection_settled hs).2.2.1
      rw [ephemeralRelease_iff hu hv (hselected.trans (newRelease_infoHash hr hu).1)
        (newRelease_infoHash hr' hv).1 htorrent, hsame]
    · intro id hid
      rw [findTorrentByHash_iff hmagnets hid hu hv, hsame]
    · intro id input hid hinput
      rw [normalizeInfoHash_spelled hu] at hinput
      rw [createTorrent_iff hid hu hv (Except.ok.inj hinput), hsame]

end Comparisons

end Sites

section SmallRuns

/-- A parser that reads magnets of one topic. -/
@[reducible] def magnetParser : URLParser where
  parse value :=
    if value.toList.take 11 = "magnet:?xt=".toList then
      some ⟨"magnet", false, "", "", [String.ofList (value.toList.drop 11)]⟩
    else none

attribute [local instance] TextTables.ascii FoldTables.ascii magnetParser

theorem parsesMagnets_magnetParser : ParsesMagnets := by
  intro hash _
  have hlist : ("magnet:?xt=urn:btih:" ++ hash).toList =
      "magnet:?xt=".toList ++ ("urn:btih:" ++ hash).toList := by
    rw [String.toList_append, String.toList_append]
    rfl
  have htake : ("magnet:?xt=".toList ++ ("urn:btih:" ++ hash).toList).take 11 = "magnet:?xt=".toList :=
    List.take_left' rfl
  have hdrop : ("magnet:?xt=".toList ++ ("urn:btih:" ++ hash).toList).drop 11 =
      ("urn:btih:" ++ hash).toList := List.drop_left' rfl
  show (if ("magnet:?xt=urn:btih:" ++ hash).toList.take 11 = "magnet:?xt=".toList then _ else none) = _
  rw [hlist, htake, hdrop, if_pos rfl, String.ofList_toList]

/-- The SHA-1 of an empty dictionary. -/
def emptyInfoHash : List ℕ :=
  [96, 12, 205, 27, 113, 86, 146, 50, 208, 29, 17, 11, 198, 62, 144, 107, 234, 176, 77, 140]

def emptyInfoDigest (_ : Bytes) : Bytes := emptyInfoHash.map Nat.toUInt8

/-- A torrent file with an empty `info`. -/
def emptyTorrent : Bytes := literal "d4:infodee"

theorem oneIdentity_hexadecimal :
    OneIdentity emptyInfoDigest "600CCD1B71569232D01D110BC63E906BEAB04D8C"
      "600ccd1b71569232d01d110bc63e906beab04d8c" emptyTorrent (emptyInfoHash = emptyInfoHash) :=
  (oneIdentity_iff emptyInfoDigest emptyTorrent "600ccd1b71569232d01d110bc63e906beab04d8c"
    parsesMagnets_magnetParser (by decide +kernel) (by decide +kernel) (by decide +kernel) (by decide)
    (by decide +kernel)).2 fun _ => by decide

/-- A torrent file is refused for its own hash in base32. -/
theorem oneIdentity_base32 :
    spelledHash "MAGM2G3RK2JDFUA5CEF4MPUQNPVLATMM".toList = some emptyInfoHash ∧
      ¬ OneIdentity emptyInfoDigest "MAGM2G3RK2JDFUA5CEF4MPUQNPVLATMM"
        "MAGM2G3RK2JDFUA5CEF4MPUQNPVLATMM" emptyTorrent (emptyInfoHash = emptyInfoHash) := by
  refine ⟨by decide +kernel, fun h => ?_⟩
  obtain ⟨input, hinput⟩ := h.file.2 rfl
  have hrefused : newTorrentFileInput emptyInfoDigest "MAGM2G3RK2JDFUA5CEF4MPUQNPVLATMM" emptyTorrent =
      refused "torrent file info hash does not match selected release" := by
    decide +kernel
  rw [hrefused] at hinput
  cases hinput

end SmallRuns

end BlackPearl.Worker
