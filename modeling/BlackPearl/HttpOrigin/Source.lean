import BlackPearl.HttpRange.Response

/-!
# Sources of an HTTP origin

`Open`, from its response on, and `Source.ReadAt` of `internal/gateway/httporigin/gateway.go`.
-/

set_option autoImplicit false

namespace BlackPearl.HttpOrigin

open BlackPearl.Library BlackPearl.HttpRange

section Sources

variable [TextTables]

/-- `Source`. -/
structure Source where
  objectURL : String
  size : ℤ
  etag : String
  lastModified : String
  closed : Bool
  /-- `int64`. -/
  bounded : size < 2 ^ 63
  /-- `Open` requires one of them. -/
  validated : etag ≠ "" ∨ lastModified ≠ ""

/-- The checks of `Open` after its request. -/
def checkMetadata (objectURL : String) (response : HeadResponse) : Except Failure Source :=
  if response.statusCode ≠ statusOK then
    .error (.plain ("range metadata requires status 200: got " ++ toString response.statusCode))
  else if response.contentLength ≤ 0 then
    .error (.plain ("range metadata requires positive Content-Length: " ++
      toString response.contentLength))
  else if h : response.strongETag ≠ "" ∨ response.lastModified ≠ "" then
    .ok ⟨objectURL, response.contentLength, response.strongETag, response.lastModified, false,
      response.bounded, h⟩
  else .error (.plain "range metadata requires a strong ETag or Last-Modified validator")

/-- `Open`, with the response to its `HEAD`: an error of `Close` is joined to any error. -/
def openSource (objectURL : String) (response : HeadResponse) : Except Failure Source :=
  match checkMetadata objectURL response, response.closeError with
  | .ok s, none => .ok s
  | .ok _, some e => .error (.joined e)
  | .error e, none => .error (.joined e)
  | .error e, some closeError => .error (.joinedBoth e closeError)

omit [TextTables] in
/-- An opened source has the size and the validators of the response. -/
theorem openSource_eq_ok {objectURL : String} {response : HeadResponse} {s : Source}
    (h : openSource objectURL response = .ok s) : s.size = response.contentLength ∧ 0 < s.size ∧
      s.etag = response.strongETag ∧ s.lastModified = response.lastModified := by
  unfold openSource at h
  split at h
  · next s' hchecked hclosed =>
    cases h
    unfold checkMetadata at hchecked
    split_ifs at hchecked with hstatus hlength hvalidated
    have hsame := Except.ok.inj hchecked
    have hpositive : 0 < response.contentLength := not_le.1 hlength
    subst hsame
    simp only [hpositive, and_self]
  · cases h
  · cases h
  · cases h

/-- `Close`. -/
def Source.close (s : Source) : Source := { s with closed := true }

def sourceTexts : SourceTexts where
  closed := .plain "HTTP range source is closed"
  negative := .plain "HTTP range offset must not be negative"
  status status := .plain ("HTTP range requires status 206: got " ++ toString status)
  contentRange := {
    invalid := fun value => .plain ("invalid HTTP Content-Range: " ++ TextTables.quote value)
    unparsed := fun value e => .wrapped ("parse HTTP Content-Range " ++ TextTables.quote value) e
    mismatch := fun got want => .plain ("HTTP Content-Range mismatch: got " ++ rangeText got ++
      " want " ++ rangeText want) }
  unread e := .wrapped "read HTTP range body" e
  length got want := .plain ("HTTP range body length mismatch: got " ++ toString got ++ " want " ++
    toString want)

/-- `validateContentRange`. -/
def validateContentRange (value : String) (expectedStart expectedEnd expectedSize : ℤ) :
    Except Failure Unit :=
  checkContentRange sourceTexts.contentRange value expectedStart expectedEnd expectedSize

/-- `validateResponseValidator`. -/
def validateResponseValidator (s : Source) (response : Response) : Except Failure Unit :=
  if s.etag ≠ "" ∧ response.header "ETag" ≠ s.etag then
    .error (.plain "HTTP range object validator changed")
  else if s.etag = "" ∧ s.lastModified ≠ "" ∧ response.header "Last-Modified" ≠ s.lastModified then
    .error (.plain "HTTP range object validator changed")
  else .ok ()

/-- The request of a read. -/
def rangeRequest (s : Source) (offset wanted : ℤ) : RangeRequest where
  url := s.objectURL
  range := rangeHeader offset (offset + wanted - 1)
  ifRange := if s.etag ≠ "" then some s.etag else if s.lastModified ≠ "" then some s.lastModified else none

/-- The end of `ReadAt`, with its response: the error of `Close` is joined to any error. -/
def readResponse (s : Source) (destination : List UInt8) (offset wanted : ℤ) (clipped : Bool)
    (response : Response) : ReadResult :=
  match completeBody sourceTexts s.size (validateResponseValidator s) response offset wanted with
  | .error e => ⟨destination, 0, Failure.join (some e) response.body.closeError⟩
  | .ok body =>
      let copied := copyInto destination body
      let readErr := if clipped then some Failure.eof else none
      ⟨copied.1, copied.2, Failure.join readErr response.body.closeError⟩

/-- `Source.ReadAt`. -/
def readAt (s : Source) (ctx : ReadContext) (client : Client) (destination : List UInt8) (offset : ℤ) :
    ReadResult :=
  readAvailable sourceTexts s.closed s.size ctx destination offset fun wanted clipped =>
    match client.newRequest s.objectURL with
    | some e => failed destination (.wrapped "construct HTTP range request" e)
    | none =>
        match client.send (rangeRequest s offset wanted) with
        | .error e => failed destination (.wrapped "request HTTP range" e)
        | .ok response => readResponse s destination offset wanted clipped response

end Sources

end BlackPearl.HttpOrigin
