import GalleryScan.Proofs.Listing.Asking

/-!
# Requests without their keys

A client sends its key with every request for a page, in one header. With that header's value left
blank the requests of two clients cannot be told apart, whatever their keys, and nor can anything
else that fetching a page leaves:

> `fetchPage (c.withOther key) q replies = { fetchPage c q replies with log }`

where `log` is the same up to the keys in its requests.
-/

set_option autoImplicit false

namespace GalleryScan

/-- The name of the header that carries a key. -/
def keyHeader : Text := "Authorization"

/-- The headers with the key left blank. -/
def maskKey (headers : List (Text × Text)) : List (Text × Text) :=
  headers.map fun (name, value) =>
    (name, if name.lowered = keyHeader.lowered then [] else value)

/-- A request for a page without the key that it carries. One for an image stays as it is. -/
def Request.masked (r : Request) : Request :=
  if r.parameters.isSome then { r with headers := maskKey r.headers } else r

def Event.masked : Event → Event
  | .request r => .request r.masked
  | e => e

namespace Log

/-- What happened, without the keys in the requests for pages. -/
def masked (log : Log) : Log := log.map Event.masked

variable {l l' : Log}

theorem masked_append (l m : Log) : masked (l ++ m) = l.masked ++ m.masked := List.map_append ..

theorem output_masked (verbose : Bool) (log : Log) :
    log.masked.output verbose = log.output verbose := by
  have hline : lineOf? verbose ∘ Event.masked = lineOf? verbose := by
    funext e
    cases e <;> rfl
  rw [output, masked, List.filterMap_map, hline]
  rfl

theorem pauses_masked (log : Log) : log.masked.pauses = log.pauses := by
  rw [pauses, masked, List.filterMap_map]
  congr
  funext e
  cases e <;> rfl

theorem requests_masked (log : Log) : log.masked.requests = log.requests.map Request.masked := by
  induction log with
  | nil => rfl
  | cons e log ih =>
    cases e with
    | request r => exact congrArg (r.masked :: ·) ih
    | _ => exact ih

/-- Whoever does not see the keys in requests for pages cannot tell the two logs apart. -/
structure Alike (l l' : Log) : Prop where
  events : l'.masked = l.masked
  output : ∀ verbose, l'.output verbose = l.output verbose
  pauses : l'.pauses = l.pauses
  requests : l'.requests.map Request.masked = l.requests.map Request.masked

theorem alike_of_masked (h : l'.masked = l.masked) : l.Alike l' where
  events := h
  output verbose := by rw [← output_masked, h, output_masked]
  pauses := by rw [← pauses_masked, h, pauses_masked]
  requests := by rw [← requests_masked, h, requests_masked]

/-- No request for an image carries a key. -/
def Discreet (log : Log) : Prop :=
  ∀ r ∈ log.requests, r.parameters = none → header? keyHeader r.headers = none

theorem Discreet.append {l m : Log} (h : l.Discreet) (h' : m.Discreet) : Discreet (l ++ m) := by
  intro r hr
  rw [requests_append] at hr
  exact (List.mem_append.mp hr).elim (h r) (h' r)

/-- What carries no key is the same with and without it. -/
theorem Discreet.congr (h : l.Discreet) (halike : l'.masked = l.masked) : l'.Discreet := by
  intro r hr himage
  have hmasked : r ∈ l.requests.map Request.masked := by
    rw [← (alike_of_masked halike).requests]
    refine List.mem_map.mpr ⟨r, hr, ?_⟩
    rw [Request.masked, himage, if_neg (by simp)]
  obtain ⟨r', hr', heq⟩ := List.mem_map.mp hmasked
  have himage' : r'.parameters = none := by
    rw [← himage, ← heq]
    unfold Request.masked
    split <;> rfl
  rw [Request.masked, himage', if_neg (by simp)] at heq
  exact heq ▸ h r' hr' himage'

end Log

/-! ## Fetching with another key -/

namespace Client

variable {c : Client} {key : Json}

/-- The same way in with another key. -/
def withOther (c : Client) (key : Json) : Client := { c with apiKey := key }

theorem maskKey_headers (hpresent : key.isTruthy = c.apiKey.isTruthy) :
    maskKey (c.withOther key).headers = maskKey c.headers := by
  have hkey : (c.withOther key).apiKey.isTruthy = c.apiKey.isTruthy := hpresent
  unfold headers
  rw [hkey]
  cases c.apiKey.isTruthy <;> rfl

theorem masked_request (hpresent : key.isTruthy = c.apiKey.isTruthy) (q : PageQuery) :
    ((c.withOther key).request q).masked = (c.request q).masked :=
  congrArg (Request.mk c.url (some q.parameters)) (maskKey_headers hpresent)

end Client

section Fetching

variable {c : Client} {key : Json} (q : PageQuery)

/-- Once the request is sent, its reply is all that counts. -/
theorem fetchOnce_withOther (hpresent : key.isTruthy = c.apiKey.isTruthy)
    (replies : List ListingReply) :
    ∃ log, fetchOnce (c.withOther key) q replies = { fetchOnce c q replies with log }
      ∧ log.masked = (fetchOnce c q replies).log.masked := by
  refine ⟨_, rfl, ?_⟩
  have hrequest := Client.masked_request hpresent q
  exact congrArg (Event.request · :: Log.masked (conclude c q (nextReply replies)).1) hrequest

/-- By induction on the retries that are left. -/
theorem fetchFrom_withOther (hpresent : key.isTruthy = c.apiKey.isTruthy) (attempt retries : Nat)
    (replies : List ListingReply) :
    ∃ log, fetchFrom (c.withOther key) q attempt retries replies
        = { fetchFrom c q attempt retries replies with log }
      ∧ log.masked = (fetchFrom c q attempt retries replies).log.masked := by
  induction retries generalizing attempt replies with
  | zero => exact fetchOnce_withOther q hpresent replies
  | succ retries ih =>
    have hrequest := Client.masked_request hpresent q
    rw [fetchFrom, fetchFrom]
    cases patience? (nextReply replies) with
    | none => exact fetchOnce_withOther q hpresent replies
    | some a =>
      have hpause : pauseBefore (c.withOther key) attempt a.headers
          = pauseBefore c attempt a.headers := rfl
      dsimp only
      rw [hpause]
      cases pauseBefore c attempt a.headers with
      | error stop => exact ⟨_, rfl, congrArg (Event.request · :: _) hrequest⟩
      | ok length =>
        obtain ⟨log, hagain, hlog⟩ := ih (attempt + 1) replies.tail
        dsimp only
        rw [hagain]
        refine ⟨_, rfl, ?_⟩
        rw [Log.masked_append, Log.masked_append _ (fetchFrom ..).log, hlog]
        exact congrArg (Event.request · :: _) hrequest

theorem fetchPage_withOther (hpresent : key.isTruthy = c.apiKey.isTruthy)
    (replies : List ListingReply) :
    ∃ log, fetchPage (c.withOther key) q replies = { fetchPage c q replies with log }
      ∧ log.masked = (fetchPage c q replies).log.masked :=
  fetchFrom_withOther q hpresent 0 c.retries replies

/-- All that is asked for is the page. -/
theorem discreet_fetchPage (c : Client) (replies : List ListingReply) :
    (fetchPage c q replies).log.Discreet := by
  intro r hr himage
  obtain ⟨tries, _, hrequests, _⟩ := requests_fetchFrom c q 0 c.retries replies
  rw [fetchPage, hrequests] at hr
  rw [List.eq_of_mem_replicate hr] at himage
  cases himage

end Fetching

end GalleryScan
