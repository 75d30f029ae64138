import BlackPearl.Library.Decimal
import BlackPearl.Library.Failure
import BlackPearl.Library.Text
import Mathlib.Data.Int.Notation

/-!
# Reading one range of an HTTP object

What the three range sources have in common: the checks before a request, the request, and the checks
of its response. Each source has these with its own texts, and ends a read in its own way; the
functions under the names of the sources are in their own modules. The sizes and offsets are numbers,
since `offset + wanted - 1` is below the size, and a slice of bytes is shorter than `2 ^ 63 - 1`.
-/

set_option autoImplicit false

namespace BlackPearl.HttpRange

open BlackPearl.Library

/-! ## Requests and responses -/

/-- A body: the bytes that it has, the error that ends it in place of its end, and the error of
`Close`. -/
structure Body where
  bytes : List UInt8
  failure : Option Failure
  closeError : Option Failure

/-- A response, with the values of `Header.Get`. -/
structure Response where
  statusCode : ℕ
  header : String → String
  body : Body

/-- `StatusOK`. -/
def statusOK : ℕ := 200

/-- `StatusPartialContent`. -/
def statusPartialContent : ℕ := 206

/-- The response to a `HEAD`; the length is an `int64`. -/
structure HeadResponse where
  statusCode : ℕ
  contentLength : ℤ
  header : String → String
  closeError : Option Failure
  bounded : contentLength < 2 ^ 63

/-- The `ETag` that `Open` keeps: a weak one is none. -/
def HeadResponse.strongETag (response : HeadResponse) : String :=
  let etag := trimSpace (response.header "ETag")
  if "W/".toList.isPrefixOf etag.toList = true then "" else etag

/-- The `Last-Modified` that `Open` keeps. -/
def HeadResponse.lastModified (response : HeadResponse) : String :=
  trimSpace (response.header "Last-Modified")

/-- A `GET` with its `Range` and `If-Range`. -/
structure RangeRequest where
  url : String
  range : String
  ifRange : Option String
  deriving DecidableEq, Repr

/-- `http.NewRequestWithContext`, which may refuse a URL, and `Client.Do`. -/
structure Client where
  newRequest : String → Option Failure
  send : RangeRequest → Except Failure Response

/-- What a read sees of its context: `ctx.Err()` before it begins, and after a request that failed. -/
structure ReadContext where
  before : Option ContextError
  after : Option ContextError

/-- `io.ReadAll(io.LimitReader(body, limit))`. An error right after the last byte of the limit is not
seen. -/
def Body.readLimited (body : Body) (limit : ℕ) : Except Failure (List UInt8) :=
  if limit ≤ body.bytes.length then .ok (body.bytes.take limit)
  else
    match body.failure with
    | some e => if e = .eof then .ok body.bytes else .error e
    | none => .ok body.bytes

/-- The value of a `Range` header. -/
def rangeHeader (first last : ℤ) : String := "bytes=" ++ toString first ++ "-" ++ toString last

/-- What `ReadAt` has done to its destination, and what it returns. -/
structure ReadResult where
  destination : List UInt8
  count : ℕ
  err : Option Failure
  deriving DecidableEq, Repr

/-- A read that has failed before it copied anything. -/
def failed (destination : List UInt8) (e : Failure) : ReadResult := ⟨destination, 0, some e⟩

/-- `copy`. -/
def copyInto (destination source : List UInt8) : List UInt8 × ℕ :=
  (source.take destination.length ++ destination.drop source.length,
    min destination.length source.length)

/-! ## Content-Range -/

/-- Digits up to a separator, which comes right after them. -/
def digitsUntil (separator : Char) (text : List Char) : Option (List Char × List Char) :=
  match text.takeWhile Char.isDigit, text.dropWhile Char.isDigit with
  | [], _ => none
  | _, [] => none
  | digits, c :: rest => if c = separator then some (digits, rest) else none

/-- The submatches of `^bytes ([0-9]+)-([0-9]+)/([0-9]+)$`. -/
def contentRangeMatch (value : String) : Option (List Char × List Char × List Char) :=
  if "bytes ".toList.isPrefixOf value.toList = true then do
    let (first, rest) ← digitsUntil '-' (value.toList.drop 6)
    let (last, size) ← digitsUntil '/' rest
    if size ≠ [] ∧ size.all Char.isDigit = true then some (first, last, size) else none
  else none

/-- `strconv.ParseInt(raw, 10, 64)` of digits. -/
def parseInt (raw : List Char) : Except Failure ℤ :=
  if decimalValue raw < 2 ^ 63 then .ok (decimalValue raw)
  else .error (.wrapped ("strconv.ParseInt: parsing " ++ String.ofList raw)
    (.plain "value out of range"))

/-- A range in the text of an error. -/
def rangeText (range : ℤ × ℤ × ℤ) : String :=
  toString range.1 ++ "-" ++ toString range.2.1 ++ "/" ++ toString range.2.2

/-- The texts of a source about a `Content-Range`. -/
structure ContentRangeTexts where
  invalid : String → Failure
  unparsed : String → Failure → Failure
  mismatch : ℤ × ℤ × ℤ → ℤ × ℤ × ℤ → Failure

/-- `validateContentRange` with the texts of a source. -/
def checkContentRange (texts : ContentRangeTexts) (value : String)
    (expectedStart expectedEnd expectedSize : ℤ) : Except Failure Unit :=
  match contentRangeMatch value with
  | none => .error (texts.invalid value)
  | some (first, last, size) =>
      match parseInt first, parseInt last, parseInt size with
      | .error e, _, _ => .error (texts.unparsed value e)
      | .ok _, .error e, _ => .error (texts.unparsed value e)
      | .ok _, .ok _, .error e => .error (texts.unparsed value e)
      | .ok start, .ok stop, .ok length =>
          if start ≠ expectedStart ∨ stop ≠ expectedEnd ∨ length ≠ expectedSize then
            .error (texts.mismatch (start, stop, length) (expectedStart, expectedEnd, expectedSize))
          else .ok ()

/-! ## One read -/

/-- The texts of a source about a read. -/
structure SourceTexts where
  closed : Failure
  negative : Failure
  status : ℕ → Failure
  contentRange : ContentRangeTexts
  unread : Failure → Failure
  length : ℕ → ℤ → Failure

/-- The checks of `ReadAt` before its request; `read` gets how many bytes are wanted, and whether that
is less than the destination holds. -/
def readAvailable (texts : SourceTexts) (closed : Bool) (size : ℤ) (ctx : ReadContext)
    (destination : List UInt8) (offset : ℤ) (read : ℤ → Bool → ReadResult) : ReadResult :=
  match ctx.before with
  | some e => failed destination e.failure
  | none =>
      if closed = true then failed destination texts.closed
      else if offset < 0 then failed destination texts.negative
      else if destination.length = 0 then ⟨destination, 0, none⟩
      else if size ≤ offset then ⟨destination, 0, some .eof⟩
      else if size - offset < destination.length then read (size - offset) true
      else read destination.length false

/-- The checks of a response, which end with its body; `validator` is what the source checks of the
other headers. -/
def completeBody (texts : SourceTexts) (size : ℤ) (validator : Response → Except Failure Unit)
    (response : Response) (offset wanted : ℤ) : Except Failure (List UInt8) :=
  if response.statusCode ≠ statusPartialContent then .error (texts.status response.statusCode)
  else do
    checkContentRange texts.contentRange (response.header "Content-Range") offset
      (offset + wanted - 1) size
    validator response
    match response.body.readLimited (wanted + 1).toNat with
    | .error e => .error (texts.unread e)
    | .ok body =>
        if (body.length : ℤ) ≠ wanted then .error (texts.length body.length wanted) else .ok body

end BlackPearl.HttpRange
