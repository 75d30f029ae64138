import BlackPearl.HttpRange.Response

/-!
# Sources of the Internet Archive

`Open`, from the response for a file on, and `Source.ReadAt` of
`internal/gateway/internetarchive/source.go`.
-/

set_option autoImplicit false

namespace BlackPearl.InternetArchive

open BlackPearl.Library BlackPearl.HttpRange

/-- `Source`. -/
structure Source where
  objectURL : String
  size : ℤ
  sha1 : String
  etag : String
  lastModified : String
  closed : Bool
  /-- `int64`. -/
  bounded : size < 2 ^ 63
  /-- `Open` requires one of them. -/
  validated : etag ≠ "" ∨ lastModified ≠ ""

/-- `temporaryArchiveStatus`. -/
def temporaryArchiveStatus (status : ℕ) : Bool := status = 429 || 500 ≤ status

/-- The checks of `Open` after its request, for a file of this size. -/
def checkMetadata (objectURL : String) (size : ℤ) (sha1 : String) (bounded : size < 2 ^ 63)
    (response : HeadResponse) : Except Failure Source :=
  if response.statusCode = 404 ∨ response.statusCode = 410 then
    .error (.wrapped "internet Archive file metadata is unavailable" (.plain "not found"))
  else if temporaryArchiveStatus response.statusCode = true then
    .error (.wrapped ("internet Archive file metadata is temporarily unavailable: status " ++
      toString response.statusCode) (.plain "temporarily unavailable"))
  else if response.statusCode ≠ statusOK then
    .error (.plain ("internet Archive file metadata requires status 200: got " ++
      toString response.statusCode))
  else if response.contentLength ≠ size then
    .error (.wrapped ("internet Archive file size changed: got " ++ toString response.contentLength ++
      " want " ++ toString size) (.plain "direct range media is no longer playable"))
  else if h : response.strongETag ≠ "" ∨ response.lastModified ≠ "" then
    .ok ⟨objectURL, size, sha1, response.strongETag, response.lastModified, false, bounded, h⟩
  else
    .error (.wrapped "internet Archive file metadata requires a strong ETag or Last-Modified validator"
      (.plain "direct range media is no longer playable"))

/-- `Open` for a file of this size, with the response to its `HEAD`: an error of `Close` is joined to
any error. -/
def openSource (objectURL : String) (size : ℤ) (sha1 : String) (bounded : size < 2 ^ 63)
    (response : HeadResponse) : Except Failure Source :=
  match checkMetadata objectURL size sha1 bounded response, response.closeError with
  | result, none => result
  | .ok _, some _ => .error (.joined (.plain "close Internet Archive file metadata response"))
  | .error e, some _ =>
      .error (.joinedBoth e (.plain "close Internet Archive file metadata response"))

/-- An opened source has the size of the file and the validators of the response. -/
theorem openSource_eq_ok {objectURL : String} {size : ℤ} {sha1 : String} {bounded : size < 2 ^ 63}
    {response : HeadResponse} {s : Source}
    (h : openSource objectURL size sha1 bounded response = .ok s) : s.size = size ∧
      s.etag = response.strongETag ∧ s.lastModified = response.lastModified := by
  unfold openSource at h
  split at h
  · unfold checkMetadata at h
    split_ifs at h with hmissing htemporary hstatus hlength hvalidated
    have hsame := Except.ok.inj h
    subst hsame
    simp only [and_self]
  · cases h
  · cases h

/-- `Close`. -/
def Source.close (s : Source) : Source := { s with closed := true }

def sourceTexts : SourceTexts where
  closed := .plain "archive range source is closed"
  negative := .plain "archive range offset must not be negative"
  status status := .plain ("internet Archive range requires status 206: got " ++ toString status)
  contentRange := {
    invalid := fun _ => .plain "invalid Internet Archive Content-Range"
    unparsed := fun _ _ => .plain "invalid Internet Archive Content-Range"
    mismatch := fun got want => .plain ("archive Content-Range mismatch: got " ++ rangeText got ++
      " want " ++ rangeText want) }
  unread _ := .plain "read Internet Archive range body"
  length got want := .plain ("internet Archive range body length mismatch: got " ++ toString got ++
    " want " ++ toString want)

/-- `validateArchiveContentRange`. -/
def validateArchiveContentRange (value : String) (expectedStart expectedEnd expectedSize : ℤ) :
    Except Failure Unit :=
  checkContentRange sourceTexts.contentRange value expectedStart expectedEnd expectedSize

/-- The checks of the validator headers in `ReadAt`. -/
def validateResponseValidator (s : Source) (response : Response) : Except Failure Unit :=
  if s.etag ≠ "" ∧ response.header "ETag" ≠ s.etag then
    .error (.plain "internet Archive file HTTP validator changed")
  else if s.etag = "" ∧ response.header "Last-Modified" ≠ s.lastModified then
    .error (.plain "internet Archive file HTTP validator changed")
  else .ok ()

/-- The request of a read. -/
def rangeRequest (s : Source) (offset wanted : ℤ) : RangeRequest where
  url := s.objectURL
  range := rangeHeader offset (offset + wanted - 1)
  ifRange := some (if s.etag ≠ "" then s.etag else s.lastModified)

/-- The deferred part of `ReadAt`: an error of `Close` is joined to any error. -/
def closeBody (response : Response) (resultErr : Option Failure) : Option Failure :=
  match response.body.closeError with
  | some _ => Failure.join resultErr (some (.plain "close Internet Archive range response"))
  | none => resultErr

/-- The end of `ReadAt`, with its response. -/
def readResponse (s : Source) (destination : List UInt8) (offset wanted : ℤ) (clipped : Bool)
    (response : Response) : ReadResult :=
  match completeBody sourceTexts s.size (validateResponseValidator s) response offset wanted with
  | .error e => ⟨destination, 0, closeBody response (some e)⟩
  | .ok body =>
      let copied := copyInto destination body
      ⟨copied.1, copied.2, closeBody response (if clipped then some .eof else none)⟩

/-- `Source.ReadAt`. -/
def readAt (s : Source) (ctx : ReadContext) (client : Client) (destination : List UInt8) (offset : ℤ) :
    ReadResult :=
  readAvailable sourceTexts s.closed s.size ctx destination offset fun wanted clipped =>
    match client.newRequest s.objectURL with
    | some _ => failed destination (.plain "construct Internet Archive range request")
    | none =>
        match client.send (rangeRequest s offset wanted) with
        | .error _ =>
            match ctx.after with
            | some e => failed destination e.failure
            | none => failed destination (.plain "request Internet Archive file range")
        | .ok response => readResponse s destination offset wanted clipped response

end BlackPearl.InternetArchive
