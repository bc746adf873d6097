import GalleryScan.Breakdown
import GalleryScan.Gallery.Page
import GalleryScan.Json.Reader
import GalleryScan.Log

/-!
# Fetching a page

A page is asked for until an answer comes that is not a wish for patience, or the retries are used
up. The answers that a server will give are a list; each request takes the first one that is left,
and a server with none left answers that it is exhausted.
-/

set_option autoImplicit false

namespace GalleryScan

structure ListingAnswer where
  status : Int
  reason : Text
  headers : List (Text × Text)
  body : Text

/-- What a server does with one request: it answers, or the request fails. -/
abbrev ListingReply := Except TransportFault ListingAnswer

/-- The answer of a server that has no other. -/
def ListingAnswer.exhausted : ListingAnswer := ⟨599, "script exhausted", [], ""⟩

/-- Why the body of an answer, or a header, cannot be read. -/
inductive BodyFault where
  | json (error : JsonError)
  | number (t : Text)
  | unshowable
  | other (message : Text)

def BodyFault.message : BodyFault → Text
  | json error => error.message
  | number t => "could not convert string to float: " ++ t.quoted
  | unshowable => Whole.unshowableMessage
  | other message => message

inductive FetchError where
  | notFound (username : Text)
  | unauthorized (status : Int)
  | http (status : Int) (reason : Text)
  | transport (message : Text)
  | unreadable (fault : BodyFault)
  | unexpected (answer : Json)

def FetchError.message : FetchError → Text
  | notFound username => "User '" ++ username ++ "' not found (404)."
  | unauthorized status => "Authorization failed (" ++ Text.ofInt status ++ "). Check API Key."
  | http status reason => "API Error: HTTP " ++ Text.ofInt status ++ " " ++ reason
  | transport message => "API Error: " ++ message
  | unreadable fault => "API Error: invalid JSON (" ++ fault.message ++ ")"
  | unexpected answer => (PageFault.unexpected answer).message

/-- What keeps a page from being fetched: an error that is reported, or something that ends the
program. -/
inductive FetchStop where
  | error (e : FetchError)
  | stop (s : Stop)

/-- The way in to the gallery. -/
structure Client where
  /-- The address before the name of the listing. -/
  base : Text
  /-- A key, which may be any value that counts as present. -/
  apiKey : Json
  /-- How often a page is asked for again. -/
  retries : Nat
  pause : Amount

namespace Client

/-- The way in with a key and what is usual otherwise. -/
def withKey (apiKey : Json) : Client :=
  ⟨"https://civitai.com/api/v1", apiKey, 3, .real (.ofDecimal false 15 (-1))⟩

def url (c : Client) : Text := Text.trimEnd (· = .scalar '/') c.base ++ "/images"

def headers (c : Client) : List (Text × Text) :=
  [(Text.ofString "Content-Type", Text.ofString "application/json"),
    (Text.ofString "Accept", Text.ofString "application/json")]
  ++ if c.apiKey.isTruthy then [(Text.ofString "Authorization", "Bearer " ++ c.apiKey.plain)]
    else []

end Client

structure PageQuery where
  username : Json
  sort : Json
  nsfw : Json
  size : Int
  cursor : Option Text

namespace PageQuery

def usualSize : Int := 200

/-- The parameters of a request: an empty cursor is none. -/
def parameters (q : PageQuery) : List (Text × Json) :=
  [(Text.ofString "username", q.username), (Text.ofString "sort", q.sort),
    (Text.ofString "nsfw", q.nsfw), (Text.ofString "limit", .text (Text.ofInt q.size))]
  ++ match q.cursor with
    | none | some [] => []
    | some cursor => [(Text.ofString "cursor", .text cursor)]

def shownCursor (q : PageQuery) : Text := q.cursor.getD "None"

end PageQuery

/-! ## One answer -/

/-- The length of the pause that a server asks for: digits in a header. `none` where it asks for
nothing that can be read as a length. -/
def requestedPause? (headers : List (Text × Text)) : Option (Except BodyFault Amount) :=
  match header? "Retry-After" headers with
  | none | some [] => none
  | some t =>
    if t.all CodePoint.isDigit then
      some <| match t.mapM CodePoint.decimal? with
        | some ds => .ok (.real (.ofDecimal false (Whole.ofDigits ds) 0))
        | none => .error (.number t)
    else none

/-- The pause before a retry: what the server asks for, or the first pause doubled for each retry
before. -/
def pauseBefore (c : Client) (attempt : Nat) (headers : List (Text × Text)) :
    Except FetchStop Amount :=
  match requestedPause? headers with
  | some (.ok length) => .ok length
  | some (.error fault) => .error (.error (.unreadable fault))
  | none =>
    match c.pause.doubled? attempt with
    | some length =>
      -- The pause is announced before it is taken, so its length has to have a notation.
      if length.isShowable then .ok length else .error (.error (.unreadable .unshowable))
    | none => .error (.stop (.breakdown .tooLarge))

/-- The value that a body writes; a blank one writes nothing. -/
def bodyValue (body : Text) : Except FetchError Json :=
  if body.isBlank then .ok .null
  else match Json.read body with
    | .ok x => .ok x
    | .error e => .error (.unreadable (.json e))

/-- The page of an answer that is no wish for patience. -/
def pageOf (q : PageQuery) (a : ListingAnswer) : Log × Except FetchStop Page :=
  if a.status = 404 then ([], .error (.error (.notFound q.username.plain)))
  else if a.status = 401 ∨ a.status = 403 then ([], .error (.error (.unauthorized a.status)))
  else if 400 ≤ a.status then ([], .error (.error (.http a.status a.reason)))
  else match bodyValue a.body with
    | .error e => ([], .error (.error e))
    | .ok x =>
      let (reports, result) := Page.ofJson? x
      (reports.map .line, match result with
        | .ok page => .ok page
        | .error (.unexpected answer) => .error (.error (.unexpected answer))
        | .error (.address fault) => .error (.stop (.breakdown (.address fault))))

/-- What a failed request comes to. -/
def FetchStop.ofTransport (f : TransportFault) : FetchStop :=
  match f.kind with
  | .system => .stop (.breakdown (.system f.message))
  | .interrupt => .stop (.interrupted f.message)
  | .value => .error (.unreadable (.other f.message))
  | _ => .error (.transport f.message)

def answerDetail (c : Client) (q : PageQuery) (a : ListingAnswer) : Event :=
  .detail ("GET " ++ c.url ++ " cursor=" ++ q.shownCursor ++ " -> " ++ Text.ofInt a.status)

/-- The page of a reply, or why it is none. -/
def conclude (c : Client) (q : PageQuery) : ListingReply → Log × Except FetchStop Page
  | .error fault => ([], .error (.ofTransport fault))
  | .ok a =>
    let (log, result) := pageOf q a
    (answerDetail c q a :: log, result)

/-! ## Asking again -/

/-- An answer that wishes for patience. -/
def patience? : ListingReply → Option ListingAnswer
  | .ok a => if a.status = 429 then some a else none
  | .error _ => none

def nextReply (replies : List ListingReply) : ListingReply := replies.head?.getD (.ok .exhausted)

/-- What fetching a page leaves: what happened, the replies that are left, and the page. -/
structure Fetched where
  log : Log
  replies : List ListingReply
  result : Except FetchStop Page

/-- Asks for a page and takes the reply as it is. -/
def fetchOnce (c : Client) (q : PageQuery) (replies : List ListingReply) : Fetched :=
  let (log, result) := conclude c q (nextReply replies)
  ⟨.request ⟨c.url, some q.parameters, c.headers⟩ :: log, replies.tail, result⟩

/-- Asks for a page, which may be asked for again as often as said; `attempt` is how often it was
before. -/
def fetchFrom (c : Client) (q : PageQuery) (attempt : Nat) : Nat → List ListingReply → Fetched
  | 0, replies => fetchOnce c q replies
  | retries + 1, replies =>
    match patience? (nextReply replies) with
    | none => fetchOnce c q replies
    | some a =>
      let asked := [.request ⟨c.url, some q.parameters, c.headers⟩, answerDetail c q a]
      match pauseBefore c attempt a.headers with
      | .error stop => ⟨asked, replies.tail, .error stop⟩
      | .ok length =>
        let again := fetchFrom c q (attempt + 1) retries replies.tail
        { again with
          log := asked
            ++ [.detail ("429 on page fetch, retrying in " ++ length.shown ++ "s"), .pause length]
            ++ again.log }

theorem length_replies_fetchOnce (c : Client) (q : PageQuery) (replies : List ListingReply)
    (page : Page) (h : (fetchOnce c q replies).result = .ok page) :
    (fetchOnce c q replies).replies.length < replies.length := by
  cases replies with
  | nil => simp [fetchOnce, nextReply, conclude, pageOf, ListingAnswer.exhausted] at h
  | cons reply rest => simp [fetchOnce]

/-- A page costs at least one reply. -/
theorem length_replies_fetchFrom (c : Client) (q : PageQuery) (attempt retries : Nat)
    (replies : List ListingReply) (page : Page)
    (h : (fetchFrom c q attempt retries replies).result = .ok page) :
    (fetchFrom c q attempt retries replies).replies.length < replies.length := by
  induction retries generalizing attempt replies with
  | zero => exact length_replies_fetchOnce c q replies page h
  | succ retries ih =>
    rw [fetchFrom] at h ⊢
    split at h
    · exact length_replies_fetchOnce c q replies page h
    · split at h
      · simp at h
      · have := ih (attempt + 1) replies.tail h
        simp only [List.length_tail] at this ⊢
        omega

def fetchPage (c : Client) (q : PageQuery) (replies : List ListingReply) : Fetched :=
  fetchFrom c q 0 c.retries replies

end GalleryScan
