import BlackPearl.Acquisition.TorrentInput
import BlackPearl.Acquisition.Watchlist
import BlackPearl.Library.Addresses
import BlackPearl.SetupService.Service

/-!
# Requests to the setup page

`internal/handler/setup`: how a request is answered at once, or leads to an operation that still needs the
browser to be paired. A request is its path, its method, its host, the headers that are looked at, and
what `decodeJSON` makes of its body. Most routes are one function (`serve`) with their own values; every
operation has passed the checks of `authorizeBrowserRead`, and those of `authorizeBrowser` if it changes
anything (`browser_of_asks`).
-/

set_option autoImplicit false

namespace BlackPearl.SetupHandler

open BlackPearl.Library BlackPearl.Setup BlackPearl.SetupService BlackPearl.Acquisition

/-! ## Requests and responses -/

/-- A body that `decodeJSON` accepts, by the structure that it is decoded into. -/
inductive Input
  | discover (token : ByteText)
  | configuration (request : ApplyRequest)
  | watchlist (acquisitionEnabled : Option Bool) (showPolicy : WatchlistShowPolicy)
  | settings (baseURL apiKey : String)
  | search (mediaType : Domain.MediaType) (title : String) (year season episode : ℤ)
  deriving DecidableEq, Repr

/-- A request; a header that is absent is empty, and a body that is refused is `none`. -/
structure Request where
  path : ByteText
  method : String
  host : ByteText
  origin : ByteText := []
  csrf : ByteText := []
  session : ByteText := []
  bootstrap : ByteText := []
  body : Option Input := none
  deriving DecidableEq, Repr

/-- A response without the headers that are always the same and without the body of a success. -/
structure Response where
  status : ℕ
  code : String := ""
  message : String := ""
  allow : Option String := none
  session : Option ByteText := none
  deriving DecidableEq, Repr

/-- `handler`: its secret, and which of its services are there. -/
structure Handler where
  csrf : ByteText
  acquisition : Bool
  jobs : Bool
  watchlist : Bool
  deriving DecidableEq, Repr

/-- The token in a body. -/
def Request.token (r : Request) : ByteText :=
  match r.body with
  | some (.discover token) => token
  | some (.configuration request) => request.token
  | _ => []

/-- `http.NotFound`. -/
def notFound : Response := { status := 404, message := "404 page not found" }

/-- `methodNotAllowed`. -/
def methodNotAllowed (allowed : String) : Response where
  status := 405
  code := "method_not_allowed"
  message := "That operation is not supported."
  allow := some allowed

def forbidden : Response where
  status := 403
  code := "forbidden"
  message := "Setup requests are accepted only from this local page."

/-- The answer to a body that is not accepted. -/
def invalidRequest (message : String) : Response := { status := 400, code := "invalid_request", message }

/-! ## The browser -/

/-- What the checks use of `url.Parse`: the scheme and the host. -/
class OriginParser where
  parse : ByteText → Option (String × ByteText)

section Checks

variable [FoldTables]

/-- `strings.EqualFold` of texts of arbitrary bytes. -/
def equalFoldText (s t : ByteText) : Bool :=
  (ByteText.runes s).map FoldTables.fold = (ByteText.runes t).map FoldTables.fold

/-- The host of `loopbackHost`: without its port, and without brackets where the port is missing. -/
def hostOf (hostport : ByteText) : ByteText :=
  let isBracket : Piece → Bool := fun p => p == .char '[' || p == .char ']'
  match splitHost hostport with
  | some host => host
  | none =>
      if 1 < (hostport.filter (· == .char ':')).length then
        (hostport.dropWhile isBracket).rdropWhile isBracket
      else hostport

/-- `loopbackHost`. -/
def loopbackHost (hostport : ByteText) : Bool :=
  equalFoldText (hostOf hostport) (text "localhost") ||
    match ByteText.chars? (hostOf hostport) with
    | some cs => ((parseIP cs).map isLoopback).getD false
    | none => false

/-- The name `localhost`, or a loopback address: then there are no letters in it but hexadecimal
digits. -/
def LocalName (host : ByteText) : Prop :=
  equalFoldText host (text "localhost") = true ∨
    ∃ cs ip, ByteText.chars? host = some cs ∧ parseIP cs = some ip ∧ isLoopback ip = true ∧
      ∀ c ∈ cs, AddressChar c

/-- Other domain names than `localhost` are no loopback hosts, whatever they resolve to. -/
theorem localName_of_loopbackHost {hostport : ByteText} (h : loopbackHost hostport = true) :
    LocalName (hostOf hostport) := by
  rcases Bool.or_eq_true_iff.1 h with hname | haddress
  · exact Or.inl hname
  · split at haddress
    · next cs hcs =>
      cases hip : parseIP cs with
      | none =>
        rw [hip] at haddress
        cases haddress
      | some ip =>
        rw [hip] at haddress
        exact Or.inr ⟨cs, ip, hcs, hip, haddress, mem_of_parseIP hip⟩
    · cases haddress

variable [OriginParser]

/-- `validLoopbackOrigin`. -/
def validLoopbackOrigin (r : Request) : Bool :=
  match OriginParser.parse r.origin with
  | none => false
  | some (scheme, host) =>
      (scheme = "http" || scheme = "https") && loopbackHost host && equalFoldText host r.host

/-- `authorizeBrowserRead`. -/
def authorizeBrowserRead (h : Handler) (r : Request) : Bool :=
  loopbackHost r.host && r.csrf = h.csrf && (r.origin = [] || validLoopbackOrigin r)

/-- `authorizeBrowser`. -/
def authorizeBrowser (h : Handler) (r : Request) : Bool :=
  r.origin ≠ [] && authorizeBrowserRead h r && validLoopbackOrigin r

end Checks

/-! ## Routes -/

/-- An operation that needs a paired browser. -/
inductive Protected
  | discover (token : ByteText)
  | apply (request : ApplyRequest)
  | watchlistStatus
  | setPolicy (policy : WatchlistPolicy)
  | configure (baseURL apiKey : String)
  | acquire (search : Acquisition.SearchRequest)
  | submitJob (search : Acquisition.SearchRequest)
  | listJobs
  | getJob (id : ByteText)
  deriving DecidableEq, Repr

/-- The token that is given to `AuthorizeSetup`. -/
def Protected.token : Protected → ByteText
  | .discover token => token
  | .apply request => request.token
  | _ => []

/-- The operations that only read. -/
def Protected.reads : Protected → Bool
  | .watchlistStatus | .listJobs | .getJob _ => true
  | _ => false

/-- What becomes of a request: an answer, the status of the setup or of the acquisition, which everybody
may read, or an operation. -/
inductive Admission
  | answered (response : Response)
  | setupStatus
  | acquisitionStatus
  | asks (operation : Protected)
  deriving DecidableEq, Repr

/-- The checks that the routes make in turn: that the service is there, the method, the browser and the
body. -/
def serve (present : Bool) (r : Request) (method : String) (browser : Bool)
    (decoded : Except Response Protected) : Admission :=
  if present = false then .answered notFound
  else if r.method ≠ method then .answered (methodNotAllowed method)
  else if browser = false then .answered forbidden
  else
    match decoded with
    | .error response => .answered response
    | .ok operation => .asks operation

section Routes

variable [TextTables] [FoldTables] [OriginParser] (h : Handler) (r : Request)

/-- `acquisitionRequest`. -/
def acquisitionRequest (mediaType : Domain.MediaType) (title : String) (year season episode : ℤ) :
    Checked Acquisition.SearchRequest :=
  match mediaType with
  | .movie => do
      require (¬ (season ≠ 0 ∨ episode ≠ 0)) "movie intent cannot include episode coordinates"
      newMovieSearch title year
  | .episode => newEpisodeSearch title year season episode
  | .unset => .error "unsupported acquisition media type"

/-- The search in a body. -/
def decodeSearch : Except Response Acquisition.SearchRequest :=
  match r.body with
  | some (.search mediaType title year season episode) =>
      match acquisitionRequest mediaType title year season episode with
      | .ok search => .ok search
      | .error _ => .error {
          status := 422, code := "invalid_intent"
          message := "Enter a valid movie or episode title, year, season, and episode." }
  | _ => .error (invalidRequest "Enter a valid movie or episode request.")

/-- The route `/api/setup/discover`. -/
def serveDiscover : Admission :=
  serve true r "POST" (authorizeBrowser h r)
    (match r.body with
      | some (.discover token) => .ok (.discover token)
      | _ => .error (invalidRequest "Enter a valid setup request."))

/-- The route `/api/setup/configuration`. -/
def serveConfiguration : Admission :=
  serve true r "PUT" (authorizeBrowser h r)
    (match r.body with
      | some (.configuration request) => .ok (.apply request)
      | _ => .error (invalidRequest "Enter a valid setup request."))

def serveWatchlistStatus : Admission :=
  serve h.watchlist r "GET" (authorizeBrowserRead h r) (.ok .watchlistStatus)

def serveWatchlistSettings : Admission :=
  serve h.watchlist r "PUT" (authorizeBrowser h r)
    (match r.body with
      | some (.watchlist (some acquisitionEnabled) showPolicy) =>
          match newWatchlistPolicy acquisitionEnabled showPolicy with
          | .ok policy => .ok (.setPolicy policy)
          | .error _ => .error (invalidRequest "Choose off or pilot for new Watchlist shows.")
      | _ => .error (invalidRequest
          "Choose how BlackPearl should handle new Watchlist movies and shows."))

def serveAcquisitionStatus : Admission :=
  if h.acquisition = false then .answered notFound
  else if r.method ≠ "GET" then .answered (methodNotAllowed "GET")
  else .acquisitionStatus

def serveAcquisitionSettings : Admission :=
  serve h.acquisition r "PUT" (authorizeBrowser h r)
    (match r.body with
      | some (.settings baseURL apiKey) => .ok (.configure baseURL apiKey)
      | _ => .error (invalidRequest "Enter valid Prowlarr connection details."))

def serveAcquisition : Admission :=
  serve h.acquisition r "POST" (authorizeBrowser h r) ((decodeSearch r).map Protected.acquire)

def submitAcquisitionJob : Admission :=
  serve h.jobs r "POST" (authorizeBrowser h r) ((decodeSearch r).map Protected.submitJob)

def listAcquisitionJobs : Admission :=
  serve h.jobs r "GET" (authorizeBrowserRead h r) (.ok .listJobs)

def serveAcquisitionJobs : Admission :=
  if h.jobs = false then .answered notFound
  else if r.method = "POST" then submitAcquisitionJob h r
  else if r.method = "GET" then listAcquisitionJobs h r
  else .answered {
    status := 405, code := "method_not_allowed", message := "Method not allowed."
    allow := some "GET, POST" }

/-- The path of one job, without its identifier. -/
def jobsPath : ByteText := text "/api/acquisition/jobs/"

def serveAcquisitionJob : Admission :=
  serve h.jobs r "GET" (authorizeBrowserRead h r) (.ok (.getJob (r.path.drop jobsPath.length)))

/-- `ServeHTTP`. -/
def serveHTTP : Admission :=
  if r.path = text "/api/setup/status" then
    if r.method ≠ "GET" then .answered (methodNotAllowed "GET") else .setupStatus
  else if r.path = text "/api/setup/discover" then serveDiscover h r
  else if r.path = text "/api/setup/configuration" then serveConfiguration h r
  else if r.path = text "/api/acquisition/status" then serveAcquisitionStatus h r
  else if r.path = text "/api/acquisition/settings" then serveAcquisitionSettings h r
  else if r.path = text "/api/acquisition/acquire" then serveAcquisition h r
  else if r.path = text "/api/acquisition/jobs" then serveAcquisitionJobs h r
  else if r.path = text "/api/watchlist/status" then serveWatchlistStatus h r
  else if r.path = text "/api/watchlist/settings" then serveWatchlistSettings h r
  else if jobsPath.isPrefixOf r.path then serveAcquisitionJob h r
  else .answered notFound

/-! ## What an operation has passed -/

/-- An operation that stands for a request has passed the browser's checks. -/
structure FromBrowser (operation : Protected) : Prop where
  read : authorizeBrowserRead h r = true
  mutates : operation.reads = false → authorizeBrowser h r = true
  token : operation.token = r.token ∨ operation.token = []

variable {h r}

omit [TextTables] in
theorem read_of_authorizeBrowser (hb : authorizeBrowser h r = true) : authorizeBrowserRead h r = true := by
  simp only [authorizeBrowser, Bool.and_eq_true] at hb
  exact hb.1.2

omit [TextTables] [FoldTables] [OriginParser] in
theorem serve_eq_asks {present browser : Bool} {method : String} {decoded : Except Response Protected}
    {operation : Protected} (hs : serve present r method browser decoded = .asks operation) :
    browser = true ∧ decoded = .ok operation := by
  unfold serve at hs
  split at hs
  · cases hs
  split at hs
  · cases hs
  split at hs
  · cases hs
  next hbrowser =>
  split at hs
  · cases hs
  · next hdecoded =>
    obtain rfl := Admission.asks.inj hs
    exact ⟨by simpa using hbrowser, rfl⟩

omit [TextTables] in
/-- A route behind `authorizeBrowser`. -/
theorem fromBrowser_of_serve {present : Bool} {method : String} {decoded : Except Response Protected}
    {operation : Protected} (hs : serve present r method (authorizeBrowser h r) decoded = .asks operation)
    (htoken : decoded = .ok operation → operation.token = r.token ∨ operation.token = []) :
    FromBrowser h r operation := by
  obtain ⟨hbrowser, hdecoded⟩ := serve_eq_asks hs
  exact ⟨read_of_authorizeBrowser hbrowser, fun _ => hbrowser, htoken hdecoded⟩

omit [TextTables] in
/-- A route behind `authorizeBrowserRead` whose operation only reads. -/
theorem fromBrowser_of_read {present : Bool} {method : String} {read operation : Protected}
    (hs : serve present r method (authorizeBrowserRead h r) (.ok read) = .asks operation)
    (hread : read.reads = true) (htoken : read.token = []) : FromBrowser h r operation := by
  obtain ⟨hbrowser, hdecoded⟩ := serve_eq_asks hs
  obtain rfl := Except.ok.inj hdecoded
  exact ⟨hbrowser, fun hmutates => (hread.symm.trans hmutates |> Bool.noConfusion), Or.inr htoken⟩

omit [TextTables] [FoldTables] [OriginParser] in
theorem decodeSearch_token {f : Acquisition.SearchRequest → Protected} {operation : Protected}
    (hf : ∀ search, (f search).token = []) (h : (decodeSearch r).map f = .ok operation) :
    operation.token = [] := by
  cases hsearch : decodeSearch r with
  | error response =>
    rw [hsearch] at h
    cases h
  | ok search =>
    rw [hsearch] at h
    obtain rfl := Except.ok.inj h
    exact hf search

/-- Every operation has passed the checks of the browser, and its token is the one in the body. -/
theorem browser_of_asks {operation : Protected} (ha : serveHTTP h r = .asks operation) :
    FromBrowser h r operation := by
  unfold serveHTTP at ha
  split at ha
  · split at ha <;> cases ha
  split at ha
  · apply fromBrowser_of_serve ha
    intro hdecoded
    split at hdecoded
    · next token hbody =>
      obtain rfl := Except.ok.inj hdecoded
      exact Or.inl (by simp [Request.token, hbody, Protected.token])
    · cases hdecoded
  split at ha
  · apply fromBrowser_of_serve ha
    intro hdecoded
    split at hdecoded
    · next request hbody =>
      obtain rfl := Except.ok.inj hdecoded
      exact Or.inl (by simp [Request.token, hbody, Protected.token])
    · cases hdecoded
  split at ha
  · unfold serveAcquisitionStatus at ha
    split at ha
    · cases ha
    · split at ha <;> cases ha
  split at ha
  · apply fromBrowser_of_serve ha
    intro hdecoded
    split at hdecoded
    · obtain rfl := Except.ok.inj hdecoded
      exact Or.inr rfl
    · cases hdecoded
  split at ha
  · exact fromBrowser_of_serve ha fun hdecoded => Or.inr (decodeSearch_token (fun _ => rfl) hdecoded)
  split at ha
  · unfold serveAcquisitionJobs at ha
    split at ha
    · cases ha
    split at ha
    · exact fromBrowser_of_serve ha fun hdecoded => Or.inr (decodeSearch_token (fun _ => rfl) hdecoded)
    split at ha
    · exact fromBrowser_of_read ha rfl rfl
    · cases ha
  split at ha
  · exact fromBrowser_of_read ha rfl rfl
  split at ha
  · apply fromBrowser_of_serve ha
    intro hdecoded
    split at hdecoded
    · split at hdecoded
      · obtain rfl := Except.ok.inj hdecoded
        exact Or.inr rfl
      · cases hdecoded
    · cases hdecoded
  split at ha
  · exact fromBrowser_of_read ha rfl rfl
  · cases ha

/-! ## Refusals -/

omit [TextTables] [FoldTables] [OriginParser] in
theorem serve_session {present browser : Bool} {method : String} {decoded : Except Response Protected}
    {response : Response} (hs : serve present r method browser decoded = .answered response)
    (hdecoded : ∀ refusal, decoded = .error refusal → refusal.session = none) : response.session = none := by
  unfold serve at hs
  split at hs
  · exact Admission.answered.inj hs ▸ rfl
  split at hs
  · exact Admission.answered.inj hs ▸ rfl
  split at hs
  · exact Admission.answered.inj hs ▸ rfl
  split at hs
  · exact Admission.answered.inj hs ▸ hdecoded _ rfl
  · cases hs

omit [TextTables] [FoldTables] [OriginParser] in
theorem decodeSearch_session {f : Acquisition.SearchRequest → Protected} {refusal : Response}
    (h : (decodeSearch r).map f = .error refusal) : refusal.session = none := by
  unfold decodeSearch at h
  split at h
  · split at h
    · cases h
    · exact Except.error.inj h ▸ rfl
  · exact Except.error.inj h ▸ rfl

/-- No request is given a session at once. -/
theorem session_of_answered {response : Response} (ha : serveHTTP h r = .answered response) :
    response.session = none := by
  unfold serveHTTP at ha
  split at ha
  · split at ha
    · exact Admission.answered.inj ha ▸ rfl
    · cases ha
  split at ha
  · apply serve_session ha
    intro refusal hrefusal
    split at hrefusal
    · cases hrefusal
    · exact Except.error.inj hrefusal ▸ rfl
  split at ha
  · apply serve_session ha
    intro refusal hrefusal
    split at hrefusal
    · cases hrefusal
    · exact Except.error.inj hrefusal ▸ rfl
  split at ha
  · unfold serveAcquisitionStatus at ha
    split at ha
    · exact Admission.answered.inj ha ▸ rfl
    split at ha
    · exact Admission.answered.inj ha ▸ rfl
    · cases ha
  split at ha
  · apply serve_session ha
    intro refusal hrefusal
    split at hrefusal
    · cases hrefusal
    · exact Except.error.inj hrefusal ▸ rfl
  split at ha
  · exact serve_session ha fun _ hrefusal => decodeSearch_session hrefusal
  split at ha
  · unfold serveAcquisitionJobs at ha
    split at ha
    · exact Admission.answered.inj ha ▸ rfl
    split at ha
    · exact serve_session ha fun _ hrefusal => decodeSearch_session hrefusal
    split at ha
    · exact serve_session ha fun _ hrefusal => by cases hrefusal
    · exact Admission.answered.inj ha ▸ rfl
  split at ha
  · exact serve_session ha fun _ hrefusal => by cases hrefusal
  split at ha
  · apply serve_session ha
    intro refusal hrefusal
    split at hrefusal
    · split at hrefusal
      · cases hrefusal
      · exact Except.error.inj hrefusal ▸ rfl
    · exact Except.error.inj hrefusal ▸ rfl
  split at ha
  · exact serve_session ha fun _ hrefusal => by cases hrefusal
  · exact Admission.answered.inj ha ▸ rfl

end Routes

end BlackPearl.SetupHandler
