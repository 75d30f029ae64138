import BlackPearl.HttpOrigin.Source
import BlackPearl.HttpRange.Strict
import BlackPearl.InternetArchive.Source
import BlackPearl.Torbox.Source

/-!
# The range sources are strict

The reads of the three sources are strict (`StrictRead`), and they agree on the same response: an HTTP
origin and the Internet Archive answer with the response of their one request, and TorBox with the
response of its second request if the link of the first one is refused.
-/

set_option autoImplicit false

namespace BlackPearl

open BlackPearl.Library BlackPearl.HttpRange

/-! ## HTTP origins -/

namespace HttpOrigin

section Strict

variable [TextTables]

/-- The response that a read can have. -/
def Answered (s : Source) (client : Client) (offset wanted : ℤ) (response : Response) : Prop :=
  client.Sends (rangeRequest s offset wanted) response

omit [TextTables] in
theorem validateResponseValidator_eq_ok {s : Source} {response : Response} :
    validateResponseValidator s response = .ok () ↔
      ValidatorUnchanged s.etag s.lastModified response := by
  unfold validateResponseValidator ValidatorUnchanged
  by_cases hetag : s.etag = ""
  · have hlast : s.lastModified ≠ "" := s.validated.resolve_left (not_not.2 hetag)
    by_cases hsame : response.header "Last-Modified" = s.lastModified
    · simp [hetag, hsame]
    · simp [hetag, hlast, hsame]
  · by_cases hsame : response.header "ETag" = s.etag
    · simp [hetag, hsame]
    · simp [hetag, hsame]

theorem readResponse_answers {s : Source} {destination : List UInt8} {offset wanted : ℤ} {clipped : Bool}
    {response : Response} (h : Wanted s.size destination offset wanted clipped) :
    Answers s.size offset wanted (ValidatorUnchanged s.etag s.lastModified) destination response
      (readResponse s destination offset wanted clipped response) := by
  refine h.answers sourceTexts (validateResponseValidator s) s.bounded validateResponseValidator_eq_ok
    ?_ ?_
  · intro e hbody
    unfold readResponse
    simp only [hbody]
    cases response.body.closeError with
    | none => exact ⟨.joined e, fun h => Failure.noConfusion h, rfl⟩
    | some closeError => exact ⟨.joinedBoth e closeError, fun h => Failure.noConfusion h, rfl⟩
  · intro body hlength hbody
    have hle : body.length ≤ destination.length := by
      have := h.count
      omega
    unfold readResponse
    simp only [hbody, copyInto_of_length_le hle]
    refine ⟨_, rfl, h.endRight ?_ ?_ ?_⟩
    · rintro hcloses rfl
      rw [hcloses]
      rfl
    · rintro hcloses rfl
      rw [hcloses]
      exact ⟨_, rfl, by decide⟩
    · intro hcloses
      obtain ⟨closeError, hsome⟩ := Option.ne_none_iff_exists'.1 hcloses
      rw [hsome]
      cases clipped <;> exact Option.some_ne_none _

/-- A read refuses, or has a response. -/
theorem readAt_strict (s : Source) (ctx : ReadContext) (client : Client) (destination : List UInt8)
    (offset : ℤ) :
    StrictRead s.size (ValidatorUnchanged s.etag s.lastModified) (Answered s client offset) destination
      offset (readAt s ctx client destination offset) := by
  refine readAvailable_strict (fun h => Failure.noConfusion h) (fun h => Failure.noConfusion h) ?_
  intro wanted clipped hwanted
  split
  · exact .refused fun h => Failure.noConfusion h
  · next hrequest =>
    split
    · exact .refused fun h => Failure.noConfusion h
    · next response hsent =>
      exact (readResponse_answers hwanted).strictRead hwanted ⟨hrequest, hsent⟩

/-- The reads of an open source under a context that is not done. -/
theorem readAt_of_answered {s : Source} (ctx : ReadContext) {client : Client} {destination : List UInt8}
    {offset : ℤ} {response : Response} (hopen : s.closed = false)
    (hanswered : ∀ wanted clipped, Wanted s.size destination offset wanted clipped →
      Answered s client offset wanted response) :
    ∃ read, readAt s ctx client destination offset =
        readAvailable sourceTexts false s.size ctx destination offset read ∧
      ∀ wanted clipped, Wanted s.size destination offset wanted clipped →
        Answers s.size offset wanted (ValidatorUnchanged s.etag s.lastModified) destination response
          (read wanted clipped) := by
  refine ⟨_, by rw [readAt, hopen], fun wanted clipped hwanted => ?_⟩
  obtain ⟨hrequest, hsent⟩ := hanswered wanted clipped hwanted
  have hrequest' : client.newRequest s.objectURL = none := hrequest
  simp only [hrequest', hsent]
  exact readResponse_answers hwanted

end Strict

end HttpOrigin

/-! ## The Internet Archive -/

namespace InternetArchive

/-- The response that a read can have. -/
def Answered (s : Source) (client : Client) (offset wanted : ℤ) (response : Response) : Prop :=
  client.Sends (rangeRequest s offset wanted) response

theorem validateResponseValidator_eq_ok {s : Source} {response : Response} :
    validateResponseValidator s response = .ok () ↔
      ValidatorUnchanged s.etag s.lastModified response := by
  unfold validateResponseValidator ValidatorUnchanged
  by_cases hetag : s.etag = ""
  · by_cases hsame : response.header "Last-Modified" = s.lastModified
    · simp [hetag, hsame]
    · simp [hetag, hsame]
  · by_cases hsame : response.header "ETag" = s.etag
    · simp [hetag, hsame]
    · simp [hetag, hsame]

theorem validateResponseValidator_ne_eof {s : Source} {response : Response} (e : Failure)
    (h : validateResponseValidator s response = .error e) : e ≠ .eof := by
  unfold validateResponseValidator at h
  split_ifs at h <;> (cases h; exact fun h => Failure.noConfusion h)

theorem sourceTexts_proper : sourceTexts.Proper where
  closed h := Failure.noConfusion h
  negative h := Failure.noConfusion h
  status _ h := Failure.noConfusion h
  invalid _ h := Failure.noConfusion h
  unparsed _ _ h := Failure.noConfusion h
  mismatch _ _ h := Failure.noConfusion h
  unread _ h := Failure.noConfusion h
  length _ _ h := Failure.noConfusion h

theorem readResponse_answers {s : Source} {destination : List UInt8} {offset wanted : ℤ} {clipped : Bool}
    {response : Response} (h : Wanted s.size destination offset wanted clipped) :
    Answers s.size offset wanted (ValidatorUnchanged s.etag s.lastModified) destination response
      (readResponse s destination offset wanted clipped response) := by
  refine h.answers sourceTexts (validateResponseValidator s) s.bounded validateResponseValidator_eq_ok
    ?_ ?_
  · intro e hbody
    unfold readResponse closeBody
    simp only [hbody]
    cases response.body.closeError with
    | none => exact ⟨e, completeBody_ne_eof sourceTexts_proper validateResponseValidator_ne_eof hbody, rfl⟩
    | some closeError => exact ⟨.joinedBoth e _, fun h => Failure.noConfusion h, rfl⟩
  · intro body hlength hbody
    have hle : body.length ≤ destination.length := by
      have := h.count
      omega
    unfold readResponse closeBody
    simp only [hbody, copyInto_of_length_le hle]
    refine ⟨_, rfl, h.endRight ?_ ?_ ?_⟩
    · rintro hcloses rfl
      rw [hcloses]
      rfl
    · rintro hcloses rfl
      rw [hcloses]
      exact ⟨_, rfl, by decide⟩
    · intro hcloses
      obtain ⟨closeError, hsome⟩ := Option.ne_none_iff_exists'.1 hcloses
      rw [hsome]
      cases clipped <;> exact Option.some_ne_none _

/-- A read refuses, or has a response. -/
theorem readAt_strict (s : Source) (ctx : ReadContext) (client : Client) (destination : List UInt8)
    (offset : ℤ) :
    StrictRead s.size (ValidatorUnchanged s.etag s.lastModified) (Answered s client offset) destination
      offset (readAt s ctx client destination offset) := by
  refine readAvailable_strict (fun h => Failure.noConfusion h) (fun h => Failure.noConfusion h) ?_
  intro wanted clipped hwanted
  split
  · exact .refused fun h => Failure.noConfusion h
  · next hrequest =>
    split
    · split
      · exact .refused (ContextError.failure_ne_eof _)
      · exact .refused fun h => Failure.noConfusion h
    · next response hsent =>
      exact (readResponse_answers hwanted).strictRead hwanted ⟨hrequest, hsent⟩

/-- The reads of an open source under a context that is not done. -/
theorem readAt_of_answered {s : Source} (ctx : ReadContext) {client : Client} {destination : List UInt8}
    {offset : ℤ} {response : Response} (hopen : s.closed = false)
    (hanswered : ∀ wanted clipped, Wanted s.size destination offset wanted clipped →
      Answered s client offset wanted response) :
    ∃ read, readAt s ctx client destination offset =
        readAvailable sourceTexts false s.size ctx destination offset read ∧
      ∀ wanted clipped, Wanted s.size destination offset wanted clipped →
        Answers s.size offset wanted (ValidatorUnchanged s.etag s.lastModified) destination response
          (read wanted clipped) := by
  refine ⟨_, by rw [readAt, hopen], fun wanted clipped hwanted => ?_⟩
  obtain ⟨hrequest, hsent⟩ := hanswered wanted clipped hwanted
  have hrequest' : client.newRequest s.objectURL = none := hrequest
  simp only [hrequest', hsent]
  exact readResponse_answers hwanted

end InternetArchive

/-! ## TorBox -/

namespace Torbox

section Strict

variable [TextTables]

/-- The response that a read can have: that of its first request, or that of the second one after a
refused link. -/
def Answered (s : Source) (client again : Client) (refresh : Refresh) (offset wanted : ℤ)
    (response : Response) : Prop :=
  (client.Sends (rangeRequest s.download offset wanted) response ∧
      refusedStatus response.statusCode = false) ∨
    ∃ first refreshed, client.Sends (rangeRequest s.download offset wanted) first ∧
      refusedStatus first.statusCode = true ∧ refresh.downloadURL = .ok refreshed ∧
      refresh.validateDownload = none ∧ again.Sends (rangeRequest refreshed offset wanted) response

theorem sourceTexts_proper : sourceTexts.Proper where
  closed h := Failure.noConfusion h
  negative h := Failure.noConfusion h
  status _ h := Failure.noConfusion h
  invalid _ h := Failure.noConfusion h
  unparsed _ _ h := Failure.noConfusion h
  mismatch _ _ h := Failure.noConfusion h
  unread _ h := Failure.noConfusion h
  length _ _ h := Failure.noConfusion h

/-- A request without a response has no status, and leaves its destination. -/
theorem readRange_unsent {s : Source} {client : Client} {downloadURL : String}
    (destination : List UInt8) {offset wanted : ℤ}
    (h : ∀ response, ¬ client.Sends (rangeRequest downloadURL offset wanted) response) :
    ∃ e, e ≠ .eof ∧
      readRange s client downloadURL destination offset wanted = ⟨destination, 0, 0, some e⟩ := by
  unfold readRange
  split
  · exact ⟨_, fun h => Failure.noConfusion h, rfl⟩
  · next hrequest =>
    split
    · exact ⟨_, fun h => Failure.noConfusion h, rfl⟩
    · next response hsent => exact absurd ⟨hrequest, hsent⟩ (h response)

theorem readRange_sent {s : Source} {client : Client} {downloadURL : String} {destination : List UInt8}
    {offset wanted : ℤ} {response : Response}
    (hsends : client.Sends (rangeRequest downloadURL offset wanted) response) :
    readRange s client downloadURL destination offset wanted =
      match completeBody sourceTexts s.size (fun _ => .ok ()) response offset wanted with
      | .error e =>
          ⟨destination, 0, response.statusCode, Failure.join (some e) response.body.closeError⟩
      | .ok body =>
          ⟨(copyInto destination body).1, (copyInto destination body).2, response.statusCode,
            Failure.join none response.body.closeError⟩ := by
  obtain ⟨hrequest, hsent⟩ := hsends
  have hrequest' : client.newRequest downloadURL = none := hrequest
  cases hbody : completeBody sourceTexts s.size (fun _ => .ok ()) response offset wanted with
  | error e => simp only [readRange, hrequest', hsent, hbody]
  | ok body => simp only [readRange, hrequest', hsent, hbody]

/-- A refused link is an error with its status. -/
theorem readRange_refused {s : Source} {client : Client} {downloadURL : String}
    {destination : List UInt8} {offset wanted : ℤ} {response : Response}
    (hsends : client.Sends (rangeRequest downloadURL offset wanted) response) :
    (readRange s client downloadURL destination offset wanted).err.isSome ∧
        refusedStatus (readRange s client downloadURL destination offset wanted).status = true ↔
      refusedStatus response.statusCode = true := by
  rw [readRange_sent hsends]
  constructor
  · rintro ⟨_, hstatus⟩
    split at hstatus <;> exact hstatus
  · intro hstatus
    have hstatus' : response.statusCode ≠ statusPartialContent := by
      intro hstatus206
      rw [hstatus206] at hstatus
      exact absurd hstatus (by decide)
    have hbody : completeBody sourceTexts s.size (fun _ => .ok ()) response offset wanted =
        .error (sourceTexts.status response.statusCode) := if_pos hstatus'
    rw [hbody]
    cases hcloses : response.body.closeError <;> exact ⟨rfl, hstatus⟩

theorem finishRead_answers {s : Source} {client : Client} {downloadURL : String}
    {destination : List UInt8} {offset wanted : ℤ} {clipped : Bool} {response : Response}
    (h : Wanted s.size destination offset wanted clipped)
    (hsends : client.Sends (rangeRequest downloadURL offset wanted) response) :
    Answers s.size offset wanted (fun _ => True) destination response
      (finishRead (destination.drop wanted.toNat) clipped
        (readRange s client downloadURL (destination.take wanted.toNat) offset wanted)) := by
  rw [readRange_sent hsends]
  refine h.answers sourceTexts (fun _ => .ok ()) s.bounded (iff_of_true rfl trivial) ?_ ?_
  · intro e hbody
    have hne := completeBody_ne_eof sourceTexts_proper (fun e h => by cases h) hbody
    simp only [hbody, finishRead, List.take_append_drop]
    cases hcloses : response.body.closeError with
    | none => exact ⟨.joined e, fun h => Failure.noConfusion h, rfl⟩
    | some closeError => exact ⟨.joinedBoth e closeError, fun h => Failure.noConfusion h, rfl⟩
  · intro body hlength hbody
    have htoNat : wanted.toNat = body.length := by omega
    have hle : body.length ≤ destination.length := by
      have := h.count
      omega
    have htaken : (destination.take body.length).length = body.length := by
      rw [List.length_take, min_eq_left hle]
    have hdrop : (destination.take body.length).drop body.length = [] :=
      List.drop_of_length_le htaken.le
    rw [htoNat]
    simp only [hbody, finishRead, copyInto_of_length_le htaken.ge, hdrop, List.append_nil]
    refine ⟨_, rfl, h.endRight ?_ ?_ ?_⟩
    · rintro hcloses rfl
      rw [hcloses]
      rfl
    · rintro hcloses rfl
      rw [hcloses]
      exact ⟨_, rfl, by decide⟩
    · intro hcloses
      obtain ⟨closeError, hsome⟩ := Option.ne_none_iff_exists'.1 hcloses
      rw [hsome]
      exact Option.some_ne_none _

theorem readRefreshed_answers {s : Source} {client again : Client} {refresh : Refresh}
    {destination : List UInt8} {offset wanted : ℤ} {clipped : Bool} {response : Response}
    (h : Wanted s.size destination offset wanted clipped)
    (hanswered : Answered s client again refresh offset wanted response) :
    Answers s.size offset wanted (fun _ => True) destination response
      (readRefreshed s client again refresh destination offset wanted clipped).1 := by
  unfold readRefreshed
  rcases hanswered with ⟨hsends, hstatus⟩ |
    ⟨first, refreshed, hsends, hstatus, hdownload, hvalid, hagain⟩
  · rw [if_neg (by rw [readRange_refused hsends, hstatus]; exact Bool.false_ne_true)]
    exact finishRead_answers h hsends
  · rw [if_pos ((readRange_refused hsends).2 hstatus)]
    simp only [hdownload, hvalid]
    exact finishRead_answers h hagain

/-- A read has a response, or is refused. -/
theorem readRefreshed_cases (s : Source) (client again : Client) (refresh : Refresh)
    (destination : List UInt8) (offset wanted : ℤ) (clipped : Bool) :
    (∃ response, Answered s client again refresh offset wanted response) ∨
      ∃ e, e ≠ .eof ∧
        (readRefreshed s client again refresh destination offset wanted clipped).1 =
          failed destination e := by
  by_cases hfirst : ∃ first, client.Sends (rangeRequest s.download offset wanted) first
  · obtain ⟨first, hsends⟩ := hfirst
    cases hstatus : refusedStatus first.statusCode with
    | false => exact .inl ⟨first, .inl ⟨hsends, hstatus⟩⟩
    | true =>
      unfold readRefreshed
      rw [if_pos ((readRange_refused hsends).2 hstatus)]
      cases hdownload : refresh.downloadURL with
      | error e => exact .inr ⟨_, fun h => Failure.noConfusion h, rfl⟩
      | ok refreshed =>
        cases hvalid : refresh.validateDownload with
        | some e => exact .inr ⟨_, fun h => Failure.noConfusion h, rfl⟩
        | none =>
          by_cases hsecond : ∃ response, again.Sends (rangeRequest refreshed offset wanted) response
          · obtain ⟨response, hagain⟩ := hsecond
            exact .inl ⟨response, .inr ⟨first, refreshed, hsends, hstatus, hdownload, hvalid, hagain⟩⟩
          · obtain ⟨e, hne, hunsent⟩ := readRange_unsent (s := s) (destination.take wanted.toNat)
              (not_exists.1 hsecond)
            refine .inr ⟨e, hne, ?_⟩
            dsimp only
            rw [hunsent, finishRead, List.take_append_drop]
            rfl
  · obtain ⟨e, hne, hunsent⟩ := readRange_unsent (s := s) (destination.take wanted.toNat)
      (not_exists.1 hfirst)
    refine .inr ⟨e, hne, ?_⟩
    unfold readRefreshed
    have hstatus : refusedStatus 0 ≠ true := by decide
    rw [hunsent, if_neg fun h => hstatus h.2, finishRead, List.take_append_drop]
    rfl

theorem readAt_strict (s : Source) (ctx : ReadContext) (client again : Client) (refresh : Refresh)
    (destination : List UInt8) (offset : ℤ) :
    StrictRead s.size (fun _ => True) (Answered s client again refresh offset) destination offset
      (readAt s ctx client again refresh destination offset) := by
  refine readAvailable_strict sourceTexts_proper.closed sourceTexts_proper.negative ?_
  intro wanted clipped hwanted
  rcases readRefreshed_cases s client again refresh destination offset wanted clipped with
    ⟨response, hanswered⟩ | ⟨e, hne, hrefused⟩
  · exact (readRefreshed_answers hwanted hanswered).strictRead hwanted hanswered
  · rw [hrefused]
    exact .refused hne

/-- The reads of an open source with this response. -/
theorem readAt_of_answered {s : Source} (ctx : ReadContext) {client again : Client} {refresh : Refresh}
    {destination : List UInt8} {offset : ℤ} {response : Response} (hopen : s.closed = false)
    (hanswered : ∀ wanted clipped, Wanted s.size destination offset wanted clipped →
      Answered s client again refresh offset wanted response) :
    ∃ read, readAt s ctx client again refresh destination offset =
        readAvailable sourceTexts false s.size ctx destination offset read ∧
      ∀ wanted clipped, Wanted s.size destination offset wanted clipped →
        Answers s.size offset wanted (fun _ => True) destination response (read wanted clipped) :=
  ⟨_, by rw [readAt, hopen], fun wanted clipped hwanted =>
    readRefreshed_answers hwanted (hanswered wanted clipped hwanted)⟩

end Strict

end Torbox

/-! ## All three -/

namespace HttpRange

section Sources

variable [TextTables]

/-- The reads of the three sources are strict, with the size and the validators that `Open` has seen;
those of open sources of one size agree on a response with unchanged validators whose body closes. -/
theorem rangeSources_strict :
    (∀ (objectURL : String) (head : HeadResponse) (s : HttpOrigin.Source),
      HttpOrigin.openSource objectURL head = .ok s →
      s.size = head.contentLength ∧ s.etag = head.strongETag ∧ s.lastModified = head.lastModified) ∧
    (∀ (objectURL : String) (size : ℤ) (sha1 : String) (bounded : size < 2 ^ 63) (head : HeadResponse)
        (s : InternetArchive.Source),
      InternetArchive.openSource objectURL size sha1 bounded head = .ok s →
      s.size = size ∧ s.etag = head.strongETag ∧ s.lastModified = head.lastModified) ∧
    (∀ (s : HttpOrigin.Source) (ctx : ReadContext) (client : Client) (destination : List UInt8)
        (offset : ℤ),
      StrictRead s.size (ValidatorUnchanged s.etag s.lastModified) (HttpOrigin.Answered s client offset)
        destination offset (HttpOrigin.readAt s ctx client destination offset)) ∧
    (∀ (s : InternetArchive.Source) (ctx : ReadContext) (client : Client) (destination : List UInt8)
        (offset : ℤ),
      StrictRead s.size (ValidatorUnchanged s.etag s.lastModified)
        (InternetArchive.Answered s client offset) destination offset
        (InternetArchive.readAt s ctx client destination offset)) ∧
    (∀ (s : Torbox.Source) (ctx : ReadContext) (client again : Client) (refresh : Torbox.Refresh)
        (destination : List UInt8) (offset : ℤ),
      StrictRead s.size (fun _ => True) (Torbox.Answered s client again refresh offset) destination
        offset (Torbox.readAt s ctx client again refresh destination offset)) ∧
    ∀ (origin : HttpOrigin.Source) (torbox : Torbox.Source) (archive : InternetArchive.Source)
      (ctx : ReadContext) (originClient torboxClient again archiveClient : Client)
      (refresh : Torbox.Refresh) (destination : List UInt8) (offset : ℤ) (response : Response),
      torbox.size = origin.size → archive.size = origin.size →
      origin.closed = false → torbox.closed = false → archive.closed = false → ctx.before = none →
      ValidatorUnchanged origin.etag origin.lastModified response →
      ValidatorUnchanged archive.etag archive.lastModified response →
      response.body.closeError = none →
      (∀ wanted clipped, Wanted origin.size destination offset wanted clipped →
        HttpOrigin.Answered origin originClient offset wanted response ∧
          Torbox.Answered torbox torboxClient again refresh offset wanted response ∧
          InternetArchive.Answered archive archiveClient offset wanted response) →
      Agree (HttpOrigin.readAt origin ctx originClient destination offset)
          (Torbox.readAt torbox ctx torboxClient again refresh destination offset) ∧
        Agree (HttpOrigin.readAt origin ctx originClient destination offset)
          (InternetArchive.readAt archive ctx archiveClient destination offset) := by
  refine ⟨fun objectURL head s h => ?_, fun objectURL size sha1 bounded head s h =>
    InternetArchive.openSource_eq_ok h, HttpOrigin.readAt_strict, InternetArchive.readAt_strict,
    Torbox.readAt_strict, ?_⟩
  · obtain ⟨hsize, _, hetag, hlast⟩ := HttpOrigin.openSource_eq_ok h
    exact ⟨hsize, hetag, hlast⟩
  · intro origin torbox archive ctx originClient torboxClient again archiveClient refresh destination
      offset response htorbox harchive horiginOpen htorboxOpen harchiveOpen hlive horigin hunchanged
      hcloses hanswered
    obtain ⟨read, horiginRead, horiginAnswers⟩ := HttpOrigin.readAt_of_answered ctx horiginOpen
      fun wanted clipped h => (hanswered wanted clipped h).1
    obtain ⟨read', htorboxRead, htorboxAnswers⟩ := Torbox.readAt_of_answered ctx htorboxOpen
      fun wanted clipped h => (hanswered wanted clipped (htorbox ▸ h)).2.1
    obtain ⟨read'', harchiveRead, harchiveAnswers⟩ := InternetArchive.readAt_of_answered ctx
      harchiveOpen fun wanted clipped h => (hanswered wanted clipped (harchive ▸ h)).2.2
    rw [htorbox] at htorboxRead htorboxAnswers
    rw [harchive] at harchiveRead harchiveAnswers
    rw [horiginRead, htorboxRead, harchiveRead]
    constructor
    · exact readAvailable_agree hlive hlive fun wanted clipped h =>
        (horiginAnswers wanted clipped h).agree (htorboxAnswers wanted clipped h)
          (iff_of_true horigin trivial) hcloses
    · exact readAvailable_agree hlive hlive fun wanted clipped h =>
        (horiginAnswers wanted clipped h).agree (harchiveAnswers wanted clipped h)
          (iff_of_true horigin hunchanged) hcloses

end Sources

/-! A file of two bytes, with three sources of it. -/

section SmallReads

attribute [local instance] TextTables.ascii

/-- Headers with an `ETag`, and with the whole file as their range. -/
def smallHeader (name : String) : String :=
  if name = "ETag" then "e" else if name = "Content-Range" then "bytes 0-1/2" else ""

/-- The whole file, and how its body closes. -/
def smallResponse (closeError : Option Failure) : Response := ⟨206, smallHeader, ⟨[7, 8], none, closeError⟩⟩

/-- A client that always has this response. -/
def smallClient (closeError : Option Failure) : Client :=
  ⟨fun _ => none, fun _ => .ok (smallResponse closeError)⟩

def smallHead : HeadResponse := ⟨200, 2, smallHeader, none, by norm_num⟩

def smallContext : ReadContext := ⟨none, none⟩

def smallOrigin : HttpOrigin.Source :=
  ⟨"u", 2, "e", "", false, by norm_num, .inl (by decide)⟩

def smallTorbox : Torbox.Source := ⟨2, "v", "u", false, by norm_num⟩

def smallArchive : InternetArchive.Source :=
  ⟨"u", 2, "s", "e", "", false, by norm_num, .inl (by decide)⟩

def smallRefresh : Torbox.Refresh := ⟨.ok "u", none⟩

theorem smallUnchanged (closeError : Option Failure) :
    ValidatorUnchanged "e" "" (smallResponse closeError) := by
  have hetag : smallHeader "ETag" = "e" := if_pos rfl
  unfold ValidatorUnchanged
  rw [if_pos (by decide)]
  exact hetag

theorem smallHead_opens : HttpOrigin.openSource "u" smallHead = .ok smallOrigin := by
  have hetag : smallHead.strongETag = "e" := by decide +kernel
  have hlast : smallHead.lastModified = "" := by decide +kernel
  simp only [HttpOrigin.openSource, HttpOrigin.checkMetadata, hetag, hlast]
  rfl

theorem smallArchive_opens :
    InternetArchive.openSource "u" 2 "s" smallArchive.bounded smallHead = .ok smallArchive := by
  have hetag : smallHead.strongETag = "e" := by decide +kernel
  have hlast : smallHead.lastModified = "" := by decide +kernel
  simp only [InternetArchive.openSource, InternetArchive.checkMetadata, hetag, hlast]
  rfl

/-- Three bytes are asked for, and the file has two. -/
theorem rangeSources_strict_small :
    smallOrigin.size = smallHead.contentLength ∧ smallArchive.etag = smallHead.strongETag ∧
    StrictRead 2 (ValidatorUnchanged "e" "") (HttpOrigin.Answered smallOrigin (smallClient none) 0)
      [0, 0, 0] 0 ⟨[7, 8, 0], 2, some (.joined .eof)⟩ ∧
    Agree (HttpOrigin.readAt smallOrigin smallContext (smallClient none) [0, 0, 0] 0)
        (Torbox.readAt smallTorbox smallContext (smallClient none) (smallClient none) smallRefresh
          [0, 0, 0] 0) ∧
      Agree (HttpOrigin.readAt smallOrigin smallContext (smallClient none) [0, 0, 0] 0)
        (InternetArchive.readAt smallArchive smallContext (smallClient none) [0, 0, 0] 0) := by
  obtain ⟨horigin, harchive, hstrict, -, -, hagree⟩ := rangeSources_strict
  have hread : HttpOrigin.readAt smallOrigin smallContext (smallClient none) [0, 0, 0] 0 =
      ⟨[7, 8, 0], 2, some (.joined .eof)⟩ := by decide
  refine ⟨(horigin _ _ _ smallHead_opens).1, (harchive _ _ _ _ _ _ smallArchive_opens).2.1, ?_, ?_⟩
  · rw [← hread]
    exact hstrict smallOrigin smallContext (smallClient none) [0, 0, 0] 0
  · exact hagree smallOrigin smallTorbox smallArchive smallContext _ _ _ _ smallRefresh [0, 0, 0] 0
      (smallResponse none) rfl rfl rfl rfl rfl rfl (smallUnchanged none) (smallUnchanged none) rfl
      fun _ _ _ => ⟨⟨rfl, rfl⟩, .inl ⟨⟨rfl, rfl⟩, rfl⟩, ⟨rfl, rfl⟩⟩

/-- At the end of the file nothing is read, without another error than that; and if its body does not
close, a read of TorBox does not tell the end of the file. -/
theorem smallReads_not_exact :
    ¬ Exact 2 (ValidatorUnchanged "e" "") (HttpOrigin.Answered smallOrigin (smallClient none) 2)
      [0, 0, 0] 2 (HttpOrigin.readAt smallOrigin smallContext (smallClient none) [0, 0, 0] 2) ∧
    ¬ Exact 2 (fun _ => True)
      (Torbox.Answered smallTorbox (smallClient (some (.plain "close"))) (smallClient none) smallRefresh 0)
      [0, 0, 0] 0 (Torbox.readAt smallTorbox smallContext (smallClient (some (.plain "close")))
        (smallClient none) smallRefresh [0, 0, 0] 0) ∧
    ¬ Agree (HttpOrigin.readAt smallOrigin smallContext (smallClient (some (.plain "close"))) [0, 0, 0] 0)
      (Torbox.readAt smallTorbox smallContext (smallClient (some (.plain "close"))) (smallClient none)
        smallRefresh [0, 0, 0] 0) := by
  have hbeyond : HttpOrigin.readAt smallOrigin smallContext (smallClient none) [0, 0, 0] 2 =
      ⟨[0, 0, 0], 0, some .eof⟩ := by decide
  have hunclosed : Torbox.readAt smallTorbox smallContext (smallClient (some (.plain "close")))
      (smallClient none) smallRefresh [0, 0, 0] 0 =
      ⟨[7, 8, 0], 2, some (.joined (.plain "close"))⟩ := by decide
  refine ⟨?_, ?_, ?_⟩
  · rw [hbeyond]
    rintro (⟨-, e, he, hne⟩ | ⟨hless, -⟩)
    · exact hne (Option.some.inj he).symm
    · exact absurd hless (by decide)
  · rw [hunclosed]
    rintro (⟨hzero, -⟩ | ⟨-, -, -, -, hend⟩)
    · exact absurd hzero (by decide)
    · exact absurd (hend.2 (by decide)) (by decide)
  · rw [hunclosed]
    intro hagree
    exact absurd (hagree.atEnd (by decide)) (by decide)

end SmallReads

end HttpRange

end BlackPearl
