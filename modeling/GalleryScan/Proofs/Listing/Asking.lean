import GalleryScan.Listing.Fetch
import GalleryScan.Proofs.Download.Quiet

/-!
# What fetching a page asks for

A page that is fetched has been asked for, and nothing else has: the same request again and again,
once for each answer that wished for patience and once for the page.

> `(fetchPage c q replies).log.pageRequests = List.replicate tries (c.request q)`

Where no reply wishes for patience there is one request.
-/

set_option autoImplicit false

namespace GalleryScan

/-- The request for a page. -/
def Client.request (c : Client) (q : PageQuery) : Request := ⟨c.url, some q.parameters, c.headers⟩

/-- No reply wishes for patience. -/
def Impatient (replies : List ListingReply) : Prop := ∀ r ∈ replies, patience? r = none

theorem Impatient.nextReply {replies : List ListingReply} (h : Impatient replies) :
    patience? (nextReply replies) = none := by
  cases replies with
  | nil => rfl
  | cons r rs => exact h r (List.mem_cons_self ..)

/-! ## Requests and pauses -/

/-- Does the event reach the server, or keep it waiting? -/
def Event.isExchange : Event → Bool
  | .request _ | .pause _ => true
  | _ => false

namespace Log

/-- The requests and pauses among what happened. -/
def exchange (log : Log) : Log := log.filter Event.isExchange

theorem exchange_append (l m : Log) : exchange (l ++ m) = exchange l ++ exchange m :=
  List.filter_append ..

theorem exchange_request (r : Request) (l : Log) :
    exchange (.request r :: l) = .request r :: exchange l := rfl

theorem exchange_lines (ts : List Text) : exchange (ts.map .line) = [] := by
  induction ts with
  | nil => rfl
  | cons t ts ih => exact ih

theorem requests_exchange (log : Log) : log.exchange.requests = log.requests := by
  induction log with
  | nil => rfl
  | cons e log ih =>
    cases e with
    | request r => exact congrArg (r :: ·) ih
    | _ => exact ih

end Log

/-! ## Requests for one page -/

variable (c : Client) (q : PageQuery)

/-- A reply that is taken as it is has been asked for, and what it comes to is only told. -/
theorem exchange_conclude (reply : ListingReply) : (conclude c q reply).1.exchange = [] := by
  cases reply with
  | error fault => rfl
  | ok a =>
    show (pageOf q a).1.exchange = []
    unfold pageOf
    split
    · rfl
    split
    · rfl
    split
    · rfl
    split
    · rfl
    · exact Log.exchange_lines _

theorem requests_conclude (reply : ListingReply) : (conclude c q reply).1.requests = [] := by
  rw [← Log.requests_exchange, exchange_conclude]
  rfl

theorem requests_fetchOnce (replies : List ListingReply) :
    (fetchOnce c q replies).log.requests = [c.request q] := by
  rw [fetchOnce, Log.requests_request, requests_conclude]
  rfl

/-- By induction on the retries that are left: each round adds one request and takes one reply. -/
theorem requests_fetchFrom (attempt retries : Nat) (replies : List ListingReply) :
    ∃ tries, 1 ≤ tries
      ∧ (fetchFrom c q attempt retries replies).log.requests = List.replicate tries (c.request q)
      ∧ (Impatient replies → tries = 1) := by
  induction retries generalizing attempt replies with
  | zero => exact ⟨1, Nat.le_refl 1, requests_fetchOnce c q replies, fun _ => rfl⟩
  | succ retries ih =>
    rw [fetchFrom]
    cases hp : patience? (nextReply replies) with
    | none => exact ⟨1, Nat.le_refl 1, requests_fetchOnce c q replies, fun _ => rfl⟩
    | some a =>
      have hpatient : Impatient replies → False := by
        intro h
        rw [h.nextReply] at hp
        cases hp
      dsimp only
      cases hb : pauseBefore c attempt a.headers with
      | error stop =>
        exact ⟨1, Nat.le_refl 1, rfl, fun h => (hpatient h).elim⟩
      | ok length =>
        obtain ⟨tries, _, hlog, _⟩ := ih (attempt + 1) replies.tail
        refine ⟨tries + 1, Nat.le_add_left .., ?_, fun h => (hpatient h).elim⟩
        show Log.requests (_ ++ (fetchFrom c q (attempt + 1) retries replies.tail).log) = _
        rw [Log.requests_append, hlog, List.replicate_succ]
        rfl

theorem pageRequests_fetchFrom (attempt retries : Nat) (replies : List ListingReply) :
    ∃ tries, 1 ≤ tries
      ∧ (fetchFrom c q attempt retries replies).log.pageRequests
        = List.replicate tries (c.request q)
      ∧ (Impatient replies → tries = 1) := by
  obtain ⟨tries, hsome, hrequests, honce⟩ := requests_fetchFrom c q attempt retries replies
  refine ⟨tries, hsome, ?_, honce⟩
  rw [Log.pageRequests, hrequests, List.filter_replicate]
  exact if_pos rfl

theorem replies_fetchFrom_suffix (attempt retries : Nat) (replies : List ListingReply) :
    (fetchFrom c q attempt retries replies).replies <:+ replies := by
  induction retries generalizing attempt replies with
  | zero => exact List.tail_suffix replies
  | succ retries ih =>
    rw [fetchFrom]
    split
    · exact List.tail_suffix replies
    · split
      · exact List.tail_suffix replies
      · exact (ih _ _).trans (List.tail_suffix replies)

theorem Impatient.fetchPage {replies : List ListingReply} (h : Impatient replies) :
    Impatient (fetchPage c q replies).replies :=
  fun r hr => h r ((replies_fetchFrom_suffix c q 0 c.retries replies).mem hr)

end GalleryScan
