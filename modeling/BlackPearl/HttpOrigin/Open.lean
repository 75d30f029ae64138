import BlackPearl.Domain.Media
import BlackPearl.HttpOrigin.Source
import BlackPearl.HttpRange.Cancellation

/-!
# Opening an object of an HTTP origin

`Open` of `internal/gateway/httporigin/gateway.go` with its request. A cancellation shows in the error of
`Open` and of `ReadAt` wherever it comes.
-/

set_option autoImplicit false

namespace BlackPearl.HttpOrigin

open BlackPearl.Library BlackPearl.Domain BlackPearl.HttpRange

section Opening

variable [TextTables]

/-- `providerName`. -/
def providerName : String := "http-range"

/-- `validateObjectID`. -/
def validateObjectID (objectID : String) : Except Failure Unit :=
  let trimmed := trimSpace objectID
  if trimmed = "" ∨ trimmed = "." ∨ trimmed = ".." ∨
      objectID.toList.any (fun c => c == '/' || c == '\\' || c == '\x00') = true then
    .error (.plain ("invalid HTTP range object ID: " ++ TextTables.quote objectID))
  else .ok ()

/-- What `Open` is answered: `ctx.Err()`, `url.JoinPath` below the base URL, and the `HEAD`. -/
structure OpenAnswers where
  before : Option ContextError
  joinPath : String → Except Failure String
  head : Exchange HeadResponse

/-- `Open`. -/
def openObject (answers : OpenAnswers) (backing : BackingRef) : Except Failure Source :=
  match answers.before with
  | some e => .error (.wrapped "open HTTP range source" e.failure)
  | none =>
      if backing.provider ≠ providerName then
        .error (.plain ("unsupported range provider: " ++ TextTables.quote backing.provider))
      else
        match validateObjectID backing.objectID with
        | .error e => .error e
        | .ok _ =>
            match answers.joinPath backing.objectID with
            | .error e => .error (.wrapped "construct range object URL" e)
            | .ok objectURL =>
                match answers.head.newRequest objectURL with
                | some e => .error (.wrapped "construct range metadata request" e)
                | none =>
                    match answers.head.send objectURL with
                    | .error e => .error (.wrapped "request range object metadata" e)
                    | .ok response => openSource objectURL response

/-- `Source.Validator`. -/
def Source.sourceValidator (s : Source) : String :=
  if s.etag ≠ "" then "etag:" ++ s.etag
  else if s.lastModified ≠ "" then "last-modified:" ++ s.lastModified
  else ""

/-! ## Cancellation -/

/-- Where `Open` can be cancelled: at its check of the context, and in its request. -/
inductive OpenCancelled (answers : OpenAnswers) (backing : BackingRef) : Prop
  | entry (h : answers.before = some .canceled)
  | request {objectURL : String} {e : Failure} (hlive : answers.before = none)
      (hprovider : backing.provider = providerName) (hobject : validateObjectID backing.objectID = .ok ())
      (hurl : answers.joinPath backing.objectID = .ok objectURL)
      (hrequest : answers.head.newRequest objectURL = none)
      (hsend : answers.head.send objectURL = .error e) (hcanceled : e.is .canceled = true)

theorem OpenCancelled.shows {answers : OpenAnswers} {backing : BackingRef}
    (h : OpenCancelled answers backing) : Shows (openObject answers backing) := by
  cases h with
  | entry h =>
    simp only [openObject, h]
    exact ⟨_, rfl, rfl⟩
  | request hlive hprovider hobject hurl hrequest hsend hcanceled =>
    simp only [openObject, hlive, hprovider, ne_eq, not_true, if_false, hobject, hurl, hrequest, hsend]
    exact ⟨_, rfl, hcanceled⟩

/-- Where `ReadAt` can be cancelled: at its check of the context, in its request, and while it reads the
body. -/
inductive ReadCancelled (s : Source) (ctx : ReadContext) (client : Client) (destination : List UInt8)
    (offset : ℤ) : Prop
  | entry (h : ctx.before = some .canceled)
  | request {wanted : ℤ} {clipped : Bool} {e : Failure}
      (hready : Ready s.closed s.size ctx destination offset wanted clipped)
      (hrequest : client.newRequest s.objectURL = none)
      (hsend : client.send (rangeRequest s offset wanted) = .error e) (hcanceled : e.is .canceled = true)
  | body {wanted : ℤ} {clipped : Bool} {response : Response} {e : Failure}
      (hready : Ready s.closed s.size ctx destination offset wanted clipped)
      (hrequest : client.newRequest s.objectURL = none)
      (hsend : client.send (rangeRequest s offset wanted) = .ok response)
      (hbody : BodyFails sourceTexts s.size (validateResponseValidator s) response offset wanted e)
      (hcanceled : e.is .canceled = true)

theorem ReadCancelled.shows {s : Source} {ctx : ReadContext} {client : Client}
    {destination : List UInt8} {offset : ℤ} (h : ReadCancelled s ctx client destination offset) :
    (readAt s ctx client destination offset).Shows := by
  cases h with
  | entry h => exact readAvailable_cancelled h
  | request hready hrequest hsend hcanceled =>
    simp only [readAt, hready.readAvailable, hrequest, hsend]
    exact shows_failed hcanceled
  | body hready hrequest hsend hbody hcanceled =>
    simp only [readAt, hready.readAvailable, hrequest, hsend, readResponse, hbody.completeBody]
    obtain ⟨e', he', hshows⟩ := shows_join (e := sourceTexts.unread _) hcanceled _
    exact ⟨e', he', hshows⟩

end Opening

end BlackPearl.HttpOrigin
