import BlackPearl.HttpRange.Response

/-!
# Sources of TorBox

`source.ReadAt` of `internal/gateway/torbox/source.go`. A read that the download link is refused for
asks for the link once more, and then reads once more.
-/

set_option autoImplicit false

namespace BlackPearl.Torbox

open BlackPearl.Library BlackPearl.HttpRange

section Sources

variable [TextTables]

/-- `source`, with the download link that it has now. -/
structure Source where
  size : ℤ
  validator : String
  download : String
  closed : Bool
  /-- `int64`. -/
  bounded : size < 2 ^ 63

/-- `Close`. -/
def Source.close (s : Source) : Source := { s with closed := true }

/-- What the gateway answers when a link is to be refreshed: the new link, and what
`validateDownload` says of it. -/
structure Refresh where
  downloadURL : Except Failure String
  validateDownload : Option Failure

def sourceTexts : SourceTexts where
  closed := .plain "TorBox range source is closed"
  negative := .plain "TorBox range offset must not be negative"
  status status := .plain ("TorBox CDN range requires status 206: got " ++ toString status)
  contentRange := {
    invalid := fun value => .plain ("invalid TorBox CDN Content-Range: " ++ TextTables.quote value)
    unparsed := fun value e => .wrapped ("parse TorBox CDN Content-Range " ++ TextTables.quote value) e
    mismatch := fun got want => .plain ("TorBox CDN Content-Range mismatch: got " ++ rangeText got ++
      " want " ++ rangeText want) }
  unread e := .wrapped "read TorBox CDN range body" e
  length got want := .plain ("TorBox CDN range body length mismatch: got " ++ toString got ++
    " want " ++ toString want)

/-- `validateContentRange`. -/
def validateContentRange (value : String) (expectedStart expectedEnd expectedSize : ℤ) :
    Except Failure Unit :=
  checkContentRange sourceTexts.contentRange value expectedStart expectedEnd expectedSize

/-- The request of a read. -/
def rangeRequest (downloadURL : String) (offset wanted : ℤ) : RangeRequest :=
  ⟨downloadURL, rangeHeader offset (offset + wanted - 1), none⟩

/-- What `readRange` has done to its destination, and what it returns; the status is 0 without a
response. -/
structure RangeResult where
  destination : List UInt8
  count : ℕ
  status : ℕ
  err : Option Failure
  deriving DecidableEq, Repr

/-- `readRange`. -/
def readRange (s : Source) (client : Client) (downloadURL : String) (destination : List UInt8)
    (offset wanted : ℤ) : RangeResult :=
  match client.newRequest downloadURL with
  | some e => ⟨destination, 0, 0, some (.wrapped "construct TorBox CDN range request" e)⟩
  | none =>
      match client.send (rangeRequest downloadURL offset wanted) with
      | .error _ => ⟨destination, 0, 0, some (.plain "request TorBox CDN range")⟩
      | .ok response =>
          match completeBody sourceTexts s.size (fun _ => .ok ()) response offset wanted with
          | .error e =>
              ⟨destination, 0, response.statusCode, Failure.join (some e) response.body.closeError⟩
          | .ok body =>
              let copied := copyInto destination body
              ⟨copied.1, copied.2, response.statusCode, Failure.join none response.body.closeError⟩

/-- The statuses with which a download link is refused. -/
def refusedStatus (status : ℕ) : Bool := status = 401 || status = 403 || status = 410

/-- The end of `ReadAt`; the rest of the destination is as it was. -/
def finishRead (rest : List UInt8) (clipped : Bool) (result : RangeResult) : ReadResult :=
  ⟨result.destination ++ rest, result.count,
    match result.err with
    | some e => some e
    | none => if clipped then some .eof else none⟩

/-- The part of `ReadAt` after its checks: a first read, and after a refused link a second one. The
link of the source is the refreshed one once it has been validated. -/
def readRefreshed (s : Source) (client again : Client) (refresh : Refresh) (destination : List UInt8)
    (offset wanted : ℤ) (clipped : Bool) : ReadResult × Source :=
  let rest := destination.drop wanted.toNat
  let first := readRange s client s.download (destination.take wanted.toNat) offset wanted
  if first.err.isSome ∧ refusedStatus first.status = true then
    match refresh.downloadURL with
    | .error e => (failed destination (.wrapped "refresh TorBox download link" e), s)
    | .ok refreshed =>
        match refresh.validateDownload with
        | some e => (failed destination (.wrapped "validate refreshed TorBox download link" e), s)
        | none => (finishRead rest clipped
            (readRange s again refreshed (destination.take wanted.toNat) offset wanted),
            { s with download := refreshed })
  else (finishRead rest clipped first, s)

/-- `source.ReadAt`, with the client at its first and at its second request. -/
def readAt (s : Source) (ctx : ReadContext) (client again : Client) (refresh : Refresh)
    (destination : List UInt8) (offset : ℤ) : ReadResult :=
  readAvailable sourceTexts s.closed s.size ctx destination offset fun wanted clipped =>
    (readRefreshed s client again refresh destination offset wanted clipped).1

end Sources

end BlackPearl.Torbox
