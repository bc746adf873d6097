import GalleryScan.Proofs.Listing.Asking
import GalleryScan.Proofs.Number.Doubling

/-!
# Asking again

The replies to requests for one page are of two kinds: those at the front that report a busy server,
and the first one behind them. Each of the former costs one retry, as long as there are retries, and
is answered by a pause; then one reply decides, which is the first of the other kind or, where the
retries are used up, one more that reports a busy server:

> `Exchange c q attempt replies pauses (fetchFrom c q attempt retries replies)`

A pause may also be impossible to take, and then the page is given up at once. Within the bound of
the powers of two that happens only where a server writes digits that are no number.
-/

set_option autoImplicit false

namespace GalleryScan

/-! ## Repeated requests -/

/-- One request, and one more after each pause. -/
def Request.repeated (r : Request) (pauses : List Amount) : Log :=
  .request r :: pauses.flatMap fun length => [.pause length, .request r]

theorem Request.requests_repeated (r : Request) (pauses : List Amount) :
    (r.repeated pauses).requests = List.replicate (pauses.length + 1) r := by
  induction pauses with
  | nil => rfl
  | cons length pauses ih => exact congrArg (r :: ·) ih

/-! ## Replies of a busy server -/

/-- Does the reply report a busy server? -/
def ListingReply.isBusy : ListingReply → Bool
  | .ok a => a.status = 429
  | .error _ => false

theorem patience?_of_busy {a : ListingAnswer} (h : a.status = 429) : patience? (.ok a) = some a :=
  if_pos h

theorem patience?_of_not_busy {r : ListingReply} (h : r.isBusy = false) : patience? r = none := by
  cases r with
  | error fault => rfl
  | ok a => exact if_neg (of_decide_eq_false h)

/-- How many of the first replies report a busy server. -/
def leadingBusy (replies : List ListingReply) : Nat :=
  (replies.takeWhile ListingReply.isBusy).length

theorem leadingBusy_cons_busy {a : ListingAnswer} (h : a.status = 429)
    (replies : List ListingReply) : leadingBusy (.ok a :: replies) = leadingBusy replies + 1 := by
  have hbusy : ListingReply.isBusy (.ok a) = true := decide_eq_true h
  rw [leadingBusy, List.takeWhile_cons_of_pos hbusy, List.length_cons, leadingBusy]

theorem leadingBusy_cons_other {r : ListingReply} (h : r.isBusy = false)
    (replies : List ListingReply) : leadingBusy (r :: replies) = 0 := by
  rw [leadingBusy, List.takeWhile_cons_of_neg (by simp [h]), List.length_nil]

/-! ## The course of the retries -/

section Course

variable (c : Client) (q : PageQuery)

/-- The page was asked for once more after each of the pauses, each of them was taken for a busy
server, and the reply behind them was the last. -/
structure Exchange (attempt : Nat) (replies : List ListingReply) (pauses : List Amount)
    (f : Fetched) : Prop where
  taken : ∀ i length, pauses[i]? = some length → ∃ a, replies[i]? = some (.ok a)
    ∧ pauseBefore c (attempt + i) a.headers = .ok length
  exchanged : f.log.exchange = (c.request q).repeated pauses
  rest : f.replies = replies.drop (pauses.length + 1)
  decided : f.result = (conclude c q (nextReply (replies.drop pauses.length))).2

/-- A pause that would have been due cannot be taken, and the page was given up for that. -/
structure GivesUp (attempt tries : Nat) (replies : List ListingReply) (f : Fetched) : Prop where
  due : ∃ i < tries, ∃ a stop, replies[i]? = some (.ok a)
    ∧ pauseBefore c (attempt + i) a.headers = .error stop ∧ f.result = .error stop

variable {c q} {attempt tries : Nat} {replies : List ListingReply} {pauses : List Amount}
  {a : ListingAnswer} {length : Amount}

theorem exchange_fetchOnce (c : Client) (q : PageQuery) (attempt : Nat)
    (replies : List ListingReply) :
    Exchange c q attempt replies [] (fetchOnce c q replies) where
  taken := by simp
  exchanged := by
    show Log.exchange (.request (c.request q) :: (conclude c q (nextReply replies)).1) = _
    rw [Log.exchange_request, exchange_conclude]
    rfl
  rest := List.drop_one.symm
  decided := rfl

/-- A retry more: the busy server's reply in front of the others, its pause in front of theirs. -/
theorem Exchange.retry {f : Fetched} (h : Exchange c q (attempt + 1) replies pauses f)
    (hlength : pauseBefore c attempt a.headers = .ok length) :
    Exchange c q attempt (.ok a :: replies) (length :: pauses)
      { f with
        log := [.request (c.request q), answerDetail c q a,
            .detail ("429 on page fetch, retrying in " ++ length.shown ++ "s"), .pause length]
          ++ f.log } where
  taken := by
    intro i l hi
    cases i with
    | zero =>
      cases hi
      exact ⟨a, rfl, hlength⟩
    | succ i =>
      obtain ⟨b, hb, hpause⟩ := h.taken i l hi
      exact ⟨b, hb, by rwa [← Nat.succ_eq_add_one, Nat.add_succ, ← Nat.succ_add]⟩
  exchanged := by
    rw [Log.exchange_append, h.exchanged]
    rfl
  rest := h.rest
  decided := h.decided

theorem GivesUp.retry {f : Fetched} (h : GivesUp c (attempt + 1) tries replies f) (log : Log) :
    GivesUp c attempt (tries + 1) (.ok a :: replies) { f with log } := by
  obtain ⟨i, hi, b, stop, hb, hstop, hresult⟩ := h.due
  refine ⟨i + 1, Nat.succ_lt_succ hi, b, stop, hb, ?_, hresult⟩
  rwa [Nat.add_comm i 1, ← Nat.add_assoc]

/-- By induction on the retries that are left. -/
theorem fetchFrom_course (c : Client) (q : PageQuery) (attempt retries : Nat)
    (replies : List ListingReply) :
    (∃ pauses : List Amount, pauses.length = min (leadingBusy replies) retries
        ∧ Exchange c q attempt replies pauses (fetchFrom c q attempt retries replies))
      ∨ GivesUp c attempt (min (leadingBusy replies) retries) replies
        (fetchFrom c q attempt retries replies) := by
  induction retries generalizing attempt replies with
  | zero => exact .inl ⟨[], (Nat.min_zero _).symm, exchange_fetchOnce c q attempt replies⟩
  | succ retries ih =>
    have honce : ∀ replies, leadingBusy replies = 0 → patience? (nextReply replies) = none →
        ∃ pauses : List Amount, pauses.length = min (leadingBusy replies) (retries + 1)
          ∧ Exchange c q attempt replies pauses (fetchFrom c q attempt (retries + 1) replies) := by
      intro replies hnone hpatience
      rw [fetchFrom, hpatience, hnone]
      exact ⟨[], (Nat.zero_min _).symm, exchange_fetchOnce c q attempt replies⟩
    cases replies with
    | nil => exact .inl (honce [] rfl rfl)
    | cons reply rest =>
      cases hbusy : reply.isBusy with
      | false =>
        exact .inl (honce _ (leadingBusy_cons_other hbusy rest) (patience?_of_not_busy hbusy))
      | true =>
        cases reply with
        | error fault => cases hbusy
        | ok a =>
          have hstatus : a.status = 429 := of_decide_eq_true hbusy
          rw [leadingBusy_cons_busy hstatus, Nat.add_min_add_right, fetchFrom,
            show nextReply (.ok a :: rest) = .ok a from rfl, patience?_of_busy hstatus]
          dsimp only
          cases hpause : pauseBefore c attempt a.headers with
          | error stop => exact .inr ⟨0, Nat.succ_pos _, a, stop, rfl, hpause, rfl⟩
          | ok length =>
            rcases ih (attempt + 1) rest with ⟨pauses, hlength, hexchange⟩ | hgivesUp
            · exact .inl ⟨length :: pauses, congrArg (· + 1) hlength, hexchange.retry hpause⟩
            · exact .inr (hgivesUp.retry _)

end Course

/-! ## The length of a pause -/

/-- The pause before a retry: as long as the server says in digits, or else the first pause doubled
for each retry before. -/
inductive Client.Pauses (c : Client) (attempt : Nat) (headers : List (Text × Text)) :
    Amount → Prop where
  | asked (t : Text) (ds : List Nat) (header : header? "Retry-After" headers = some t)
      (hsome : t ≠ []) (digits : t.all CodePoint.isDigit = true)
      (value : t.mapM CodePoint.decimal? = some ds) :
      Pauses c attempt headers (.real (.ofDecimal false (Whole.ofDigits ds) 0))
  | doubled (length : Amount)
      (unasked : ∀ t, header? "Retry-After" headers = some t →
        t = [] ∨ t.all CodePoint.isDigit = false)
      (power : c.pause.Doubled attempt length) : Pauses c attempt headers length

/-- Where a server asks for patience in digits, these are a number. -/
def HasReadablePause (headers : List (Text × Text)) : Prop :=
  ∀ t, header? "Retry-After" headers = some t → t.all CodePoint.isDigit = true →
    (t.mapM CodePoint.decimal?).isSome

theorem requestedPause?_cases (headers : List (Text × Text)) :
    (requestedPause? headers = none ∧ ∀ t, header? "Retry-After" headers = some t →
        t = [] ∨ t.all CodePoint.isDigit = false)
      ∨ ∃ t, header? "Retry-After" headers = some t ∧ t ≠ []
        ∧ t.all CodePoint.isDigit = true
        ∧ ((t.mapM CodePoint.decimal? = none
              ∧ requestedPause? headers = some (.error (.number t)))
          ∨ ∃ ds, t.mapM CodePoint.decimal? = some ds ∧ requestedPause? headers
            = some (.ok (.real (.ofDecimal false (Whole.ofDigits ds) 0)))) := by
  unfold requestedPause?
  cases hheader : header? "Retry-After" headers with
  | none => exact .inl ⟨rfl, nofun⟩
  | some t =>
    cases t with
    | nil => exact .inl ⟨rfl, fun t ht => .inl (Option.some.inj ht).symm⟩
    | cons d t =>
      dsimp only
      cases hdigits : (d :: t).all CodePoint.isDigit with
      | false => exact .inl ⟨rfl, fun u hu => .inr (Option.some.inj hu ▸ hdigits)⟩
      | true =>
        refine .inr ⟨d :: t, rfl, List.cons_ne_nil d t, hdigits, ?_⟩
        cases hvalue : (d :: t).mapM CodePoint.decimal? with
        | none => exact .inl ⟨rfl, rfl⟩
        | some ds => exact .inr ⟨ds, rfl, rfl⟩

section Pausing

variable {c : Client} {attempt : Nat} {headers : List (Text × Text)}

/-- A pause that is taken is of the length that is due. -/
theorem pauses_of_pauseBefore {length : Amount} (hfew : attempt < Amount.powerLimit)
    (h : pauseBefore c attempt headers = .ok length) : c.Pauses attempt headers length := by
  unfold pauseBefore at h
  rcases requestedPause?_cases headers with
    ⟨hnone, hunasked⟩ | ⟨t, hheader, hsome, hdigits, ⟨_, hfault⟩ | ⟨ds, hvalue, hasked⟩⟩
  · rw [hnone] at h
    obtain ⟨b, hb, hdoubled⟩ := Amount.exists_doubled c.pause hfew
    rw [hb] at h
    dsimp only at h
    split at h
    · cases h
      exact .doubled length hunasked hdoubled
    · cases h
  · rw [hfault] at h
    cases h
  · rw [hasked] at h
    cases h
    exact .asked t ds hheader hsome hdigits hvalue

/-- Within the bound of the powers of two, all that can happen to a pause is reported. -/
theorem fault_of_pauseBefore {stop : FetchStop} (hfew : attempt < Amount.powerLimit)
    (h : pauseBefore c attempt headers = .error stop) :
    ∃ fault, stop = .error (.unreadable fault) := by
  unfold pauseBefore at h
  split at h
  · cases h
  · cases h
    exact ⟨_, rfl⟩
  · obtain ⟨b, hb, _⟩ := Amount.exists_doubled c.pause hfew
    rw [hb] at h
    dsimp only at h
    split at h
    · cases h
    · cases h
      exact ⟨_, rfl⟩

/-- A pause is taken unless the server writes digits that are no number. -/
theorem exists_pauseBefore (hfew : attempt < Amount.powerLimit) (hpause : c.pause.InRange)
    (hreadable : HasReadablePause headers) :
    ∃ length, pauseBefore c attempt headers = .ok length := by
  unfold pauseBefore
  rcases requestedPause?_cases headers with
    ⟨hnone, _⟩ | ⟨t, hheader, _, hdigits, ⟨hvalue, _⟩ | ⟨ds, _, hasked⟩⟩
  · obtain ⟨b, hb, hdoubled⟩ := Amount.exists_doubled c.pause hfew
    rw [hnone, hb]
    exact ⟨b, if_pos (hpause.isShowable hfew hdoubled)⟩
  · have hsome := hreadable t hheader hdigits
    rw [hvalue] at hsome
    cases hsome
  · rw [hasked]
    exact ⟨_, rfl⟩

end Pausing

end GalleryScan
