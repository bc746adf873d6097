import GalleryScan.Proofs.Listing.Retrying

/-!
# What a page comes to

The reply that decides about a page is judged by itself: by its status first, then by whether its
body is a value, and last by whether that value is a listing.

> `Verdict q reply (fetchPage c q replies).result`

So as long as every request either is answered or fails in a way that is reported, and no server
asks for patience in digits that are no number, the replies of a busy server and the retries say how
often a page is asked for, and one reply says what it is. Whatever happens then is reported too,
with one exception: a listing may name an address of its next page that cannot be taken apart.
-/

set_option autoImplicit false

namespace GalleryScan

/-! ## Errors -/

/-- Is it neither of the two errors that stay as they are, whenever the page is asked for? -/
def FetchError.isTransient : FetchError → Bool
  | .notFound _ | .unauthorized _ => false
  | _ => true

/-- A request that fails does so in a way that the client reports. -/
def ListingReply.IsForeseen (r : ListingReply) : Prop :=
  ∀ fault, r = .error fault → fault.kind ≠ .system ∧ fault.kind ≠ .interrupt

/-- What a listing that cannot be read does to the page. -/
def PageFault.stop : PageFault → FetchStop
  | .unexpected answer => .error (.unexpected answer)
  | .address fault => .stop (.breakdown (.address fault))

theorem transient_ofTransport {fault : TransportFault} (hsystem : fault.kind ≠ .system)
    (hinterrupt : fault.kind ≠ .interrupt) :
    ∃ e, FetchStop.ofTransport fault = .error e ∧ e.isTransient = true := by
  unfold FetchStop.ofTransport
  split
  · contradiction
  · contradiction
  · exact ⟨_, rfl, rfl⟩
  · exact ⟨_, rfl, rfl⟩

theorem transient_of_bodyValue {body : Text} {e : FetchError} (h : bodyValue body = .error e) :
    e.isTransient = true := by
  unfold bodyValue at h
  split at h
  · cases h
  · split at h
    · cases h
    · cases h
      rfl

/-! ## One reply -/

/-- What a reply says about the page that was asked for. -/
inductive Verdict (q : PageQuery) : ListingReply → Except FetchStop Page → Prop where
  | failed (fault : TransportFault) (e : FetchError) (reported : FetchStop.ofTransport fault = .error e)
      (transient : e.isTransient = true) : Verdict q (.error fault) (.error (.error e))
  | notFound (a : ListingAnswer) (status : a.status = 404) :
      Verdict q (.ok a) (.error (.error (.notFound q.username.plain)))
  | unauthorized (a : ListingAnswer) (status : a.status = 401 ∨ a.status = 403) :
      Verdict q (.ok a) (.error (.error (.unauthorized a.status)))
  | refused (a : ListingAnswer) (status : 400 ≤ a.status)
      (other : a.status ∉ [401, 403, 404]) :
      Verdict q (.ok a) (.error (.error (.http a.status a.reason)))
  | undecoded (a : ListingAnswer) (status : a.status < 400) (e : FetchError)
      (body : bodyValue a.body = .error e) (transient : e.isTransient = true) :
      Verdict q (.ok a) (.error (.error e))
  | parsed (a : ListingAnswer) (status : a.status < 400) (x : Json)
      (body : bodyValue a.body = .ok x) :
      Verdict q (.ok a) ((Page.ofJson? x).2.mapError PageFault.stop)

theorem verdict_pageOf (q : PageQuery) (a : ListingAnswer) :
    Verdict q (.ok a) (pageOf q a).2 := by
  unfold pageOf
  split_ifs with hnotFound hunauthorized hrefused
  · exact .notFound a hnotFound
  · exact .unauthorized a hunauthorized
  · refine .refused a hrefused ?_
    simp only [List.mem_cons, List.not_mem_nil, or_false]
    tauto
  · have hstatus : a.status < 400 := not_le.mp hrefused
    cases hbody : bodyValue a.body with
    | error e => exact .undecoded a hstatus e hbody (transient_of_bodyValue hbody)
    | ok x =>
      have hverdict := Verdict.parsed (q := q) a hstatus x hbody
      dsimp only
      cases hpage : (Page.ofJson? x).2 with
      | ok page => rwa [hpage] at hverdict
      | error fault =>
        rw [hpage] at hverdict
        cases fault <;> exact hverdict

theorem verdict_conclude (c : Client) (q : PageQuery) {reply : ListingReply}
    (h : reply.IsForeseen) : Verdict q reply (conclude c q reply).2 := by
  cases reply with
  | error fault =>
    obtain ⟨hsystem, hinterrupt⟩ := h fault rfl
    obtain ⟨e, he, htransient⟩ := transient_ofTransport hsystem hinterrupt
    have hverdict := Verdict.failed (q := q) fault e he htransient
    rwa [← he] at hverdict
  | ok a => exact verdict_pageOf q a

theorem foreseen_nextReply {replies : List ListingReply}
    (h : ∀ r ∈ replies, ListingReply.IsForeseen r) (n : Nat) :
    (nextReply (replies.drop n)).IsForeseen := by
  cases hdrop : replies.drop n with
  | nil => exact nofun
  | cons r rest => exact h r (List.mem_of_mem_drop (hdrop ▸ List.mem_cons_self ..))

/-! ## The replies together -/

/-- What is due before each retry is a pause that can be taken, so nothing is given up. -/
theorem not_givesUp {c : Client} {replies : List ListingReply} {retries : Nat} {f : Fetched}
    (hretries : retries < Amount.powerLimit) (hpause : c.pause.InRange)
    (hreadable : ∀ a, .ok a ∈ replies → HasReadablePause a.headers) :
    ¬ GivesUp c 0 (min (leadingBusy replies) retries) replies f := by
  rintro ⟨i, hi, a, stop, hreply, hstop, -⟩
  have hfew : 0 + i < Amount.powerLimit := by omega
  obtain ⟨length, hlength⟩ :=
    exists_pauseBefore hfew hpause (hreadable a (List.mem_of_getElem? hreply))
  rw [hstop] at hlength
  cases hlength

/-- The request for a page is sent once and then again after each pause: for a reply of a busy
server, as long as there are such at the front and retries are left. Each pause is as long as the
server says in digits or else the first pause times a power of two, and the reply behind the last
one decides alone. -/
theorem fetchPage_retries (c : Client) (q : PageQuery) (replies : List ListingReply)
    (hretries : c.retries < Amount.powerLimit) (hpause : c.pause.InRange)
    (hforeseen : ∀ r ∈ replies, r.IsForeseen)
    (hreadable : ∀ a, .ok a ∈ replies → HasReadablePause a.headers) :
    let tries := min (leadingBusy replies) c.retries
    let f := fetchPage c q replies
    ∃ pauses : List Amount, pauses.length = tries
      ∧ f.log.exchange = (c.request q).repeated pauses
      ∧ f.log.requests = List.replicate (tries + 1) (c.request q)
      ∧ (∀ i length, pauses[i]? = some length →
          ∃ a, replies[i]? = some (.ok a) ∧ c.Pauses i a.headers length)
      ∧ f.replies = replies.drop (tries + 1)
      ∧ Verdict q (nextReply (replies.drop tries)) f.result := by
  intro tries f
  rcases fetchFrom_course c q 0 c.retries replies with ⟨pauses, hlength, hexchange⟩ | hgivesUp
  · refine ⟨pauses, hlength, hexchange.exchanged, ?_, ?_, ?_, ?_⟩
    · rw [← Log.requests_exchange, show f.log.exchange = _ from hexchange.exchanged,
        Request.requests_repeated, hlength]
    · intro i length hi
      obtain ⟨a, hreply, hpause⟩ := hexchange.taken i length hi
      have hi' : i < pauses.length := (List.getElem?_eq_some_iff.mp hi).1
      rw [Nat.zero_add] at hpause
      exact ⟨a, hreply, pauses_of_pauseBefore (by omega) hpause⟩
    · rw [show f.replies = _ from hexchange.rest, hlength]
    · rw [show f.result = _ from hexchange.decided, hlength]
      exact verdict_conclude c q (foreseen_nextReply hforeseen _)
  · exact (not_givesUp hretries hpause hreadable hgivesUp).elim

namespace BusyTwice

def query : PageQuery := ⟨.text "u", .text "Newest", .text "X", PageQuery.usualSize, none⟩

def empty : ListingAnswer := ⟨200, [], [], "\x7b\"items\":[]\x7d"⟩

/-- A server that asks for five seconds, then for patience, and then has a page. -/
def replies : List ListingReply :=
  [.ok ⟨429, [], [("retry-after", "5")], []⟩, .ok ⟨429, [], [], []⟩, .ok empty]

/-- At a server that is busy twice, and a client who would ask once more. -/
theorem fetchPage_retries_twice :
    let client := Client.withKey .null
    let f := fetchPage client query replies
    ∃ pauses : List Amount, pauses.length = 2
      ∧ f.log.exchange = (client.request query).repeated pauses
      ∧ f.log.requests = List.replicate 3 (client.request query)
      ∧ (∀ i length, pauses[i]? = some length →
          ∃ a, replies[i]? = some (.ok a) ∧ client.Pauses i a.headers length)
      ∧ f.replies = [] ∧ Verdict query (.ok empty) f.result := by
  refine fetchPage_retries (Client.withKey .null) query replies (by decide) trivial ?_ ?_
  · intro r hr fault hfault
    subst hfault
    simp [replies] at hr
  · intro a ha t hheader _
    simp only [replies, List.mem_cons, Except.ok.injEq, List.not_mem_nil, or_false] at ha
    rcases ha with rfl | rfl | rfl
    · cases hheader
      rfl
    · cases hheader
    · cases hheader

end BusyTwice

end GalleryScan
