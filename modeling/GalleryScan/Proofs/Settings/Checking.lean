import GalleryScan.Proofs.Text.Pieces
import GalleryScan.Settings.Configuration

/-!
# What the checks of settings come to

Four settings are checked and brought into a normal form, the others are taken as they are. `Takes`
says of each setting which values come to the one that a configuration has, and `IsSound` what the
checks are for. Together they say exactly what passes:

> `ofSettings? s = .ok c ↔ (s .username).isTruthy ∧ c.IsSound ∧ ∀ f, c.Takes f (s f)`

Whatever the values are, what does not pass is refused with a reason, but for one kind of number:
one without bounds has no whole number, and that is not foreseen.
-/

set_option autoImplicit false

namespace GalleryScan

/-! ## Whole numbers -/

namespace Json

variable {x : Json}

def IsInfinite (x : Json) : Prop := ∃ negative, x = .real (.infinity negative)

theorem whole?_eq_infinite_iff : x.whole? = .error .infinite ↔ x.IsInfinite := by
  constructor
  · intro h
    cases x with
    | real x =>
      cases x with
      | infinity negative => exact ⟨negative, rfl⟩
      | nan => cases h
      | finite => cases h
    | text t =>
      rw [whole?] at h
      split at h <;> cases h
    | null => cases h
    | bool => cases h
    | int => cases h
    | array => cases h
    | object => cases h
  · rintro ⟨negative, rfl⟩
    rfl

end Json

/-- Is the error reported as one of the settings? -/
def SettingsFault.IsForeseen (fault : SettingsFault) : Prop := fault ≠ .infinite

/-- A user is named, and not by blanks alone. -/
def Settings.NamesUser (s : Settings) : Prop :=
  (s .username).isTruthy = true ∧ (s .username).plain.isBlank = false

/-- The checks come upon a number without bounds: the limit is one, or the number of downloads is
and the limit stands for a whole number. -/
def Settings.MeetsInfinity (s : Settings) : Prop :=
  s.NamesUser ∧ ((s .limit).IsInfinite
    ∨ (∃ n, (s .limit).whole? = .ok n) ∧ (s .concurrency).IsInfinite)

namespace Configuration

variable {c : Configuration} {s : Settings} {limit concurrency : Int}

/-! ## The checks one by one -/

theorem strip_ne_nil_iff {t : Text} : t.strip ≠ [] ↔ t.isBlank = false := by
  rw [Text.isBlank, ← Bool.not_eq_true, List.all_eq_true]
  exact not_congr ⟨Text.isBlank_of_strip, Text.strip_eq_nil⟩

theorem bind_eq_ok_iff {α β : Type} {x : Except SettingsFault α} {f : α → Except SettingsFault β}
    {b : β} : x >>= f = .ok b ↔ ∃ a, x = .ok a ∧ f a = .ok b := by
  cases x <;> simp [bind, Except.bind]

theorem contains_qualities {t : Text} : qualities.contains t = true ↔ t = "HD" ∨ t = "SD" := by
  rw [List.contains_iff_mem, qualities, List.mem_cons, List.mem_singleton]

/-- The settings with a normal form in the place of those that have one. -/
def ofNumbers (s : Settings) (limit concurrency : Int) : Configuration where
  username := (s .username).plain.strip
  tags := s .tags
  excludeTags := s .excludeTags
  nsfw := s .nsfw
  sort := s .sort
  limit := limit
  output := s .output
  concurrency := concurrency
  quality := (s .quality).plain.upper
  apiKey := s .apiKey
  offline := s .offline
  showProgress := s .showProgress

/-- The checks that come when the two numbers are known. -/
def bounded (s : Settings) (limit concurrency : Int) : Except SettingsFault Configuration :=
  if limit < 1 then .error (.limitTooSmall limit)
  else if concurrency < 1 then .error (.concurrencyTooSmall concurrency)
  else if !qualities.contains (s .quality).plain.upper then
    .error (.qualityUnknown (s .quality).plain.upper)
  else .ok (ofNumbers s limit concurrency)

theorem bounded_eq_ok_iff : bounded s limit concurrency = .ok c ↔ 1 ≤ limit ∧ 1 ≤ concurrency
    ∧ ((s .quality).plain.upper = "HD" ∨ (s .quality).plain.upper = "SD")
    ∧ c = ofNumbers s limit concurrency := by
  rw [bounded, ← contains_qualities]
  split
  · rename_i hlimit
    simp [Int.not_le.mpr hlimit]
  split
  · rename_i hconcurrency
    simp [Int.not_le.mpr hconcurrency]
  split
  · rename_i hquality
    rw [Bool.not_eq_true'] at hquality
    simp only [hquality, reduceCtorEq, Bool.false_eq_true, false_and, and_false]
  · rename_i hlimit hconcurrency hquality
    rw [Bool.not_eq_true', Bool.not_eq_false] at hquality
    simp only [Except.ok.injEq, Int.not_lt.mp hlimit, Int.not_lt.mp hconcurrency, hquality,
      true_and]
    exact eq_comm

theorem bounded_ne_infinite : bounded s limit concurrency ≠ .error .infinite := by
  intro h
  unfold bounded at h
  split at h
  · cases h
  split at h
  · cases h
  split at h <;> cases h

theorem ofSettings?_of_unnamed (h : ¬ s.NamesUser) : ofSettings? s = .error .usernameMissing := by
  have hmissing : (!(s .username).isTruthy || decide ((s .username).plain.strip = [])) = true := by
    rw [Settings.NamesUser, ← strip_ne_nil_iff] at h
    simpa [imp_iff_not_or] using h
  unfold ofSettings?
  dsimp only
  rw [if_pos hmissing]
  rfl

theorem ofSettings?_of_named (h : s.NamesUser) : ofSettings? s =
    (s .limit).whole? >>= fun limit => (s .concurrency).whole? >>= bounded s limit := by
  have hthere : ¬ (!(s .username).isTruthy || decide ((s .username).plain.strip = [])) = true := by
    rw [Settings.NamesUser, ← strip_ne_nil_iff] at h
    simpa [imp_iff_not_or] using h
  unfold ofSettings?
  dsimp only
  rw [if_neg hthere]
  cases (s .limit).whole? with
  | error fault => rfl
  | ok limit =>
    cases (s .concurrency).whole? with
    | error fault => rfl
    | ok concurrency =>
      simp only [bind, Except.bind, bounded]
      split
      · rfl
      split
      · rfl
      split
      · rfl
      · rfl

/-! ## Normal forms -/

/-- The checks make of this value of a setting the one that the configuration has. -/
def Takes (c : Configuration) : Setting → Json → Prop
  | .username, x => c.username = x.plain.strip
  | .limit, x => x.whole? = .ok c.limit
  | .concurrency, x => x.whole? = .ok c.concurrency
  | .quality, x => c.quality = x.plain.upper
  | f, x => c.settings f = x

/-- What a configuration has to be for a run. -/
structure IsSound (c : Configuration) : Prop where
  named : c.username.isBlank = false
  trimmed : c.username.strip = c.username
  limit : 1 ≤ c.limit
  concurrency : 1 ≤ c.concurrency
  quality : c.quality = "HD" ∨ c.quality = "SD"

theorem takes_ofNumbers (hlimit : (s .limit).whole? = .ok limit)
    (hconcurrency : (s .concurrency).whole? = .ok concurrency) (f : Setting) :
    (ofNumbers s limit concurrency).Takes f (s f) := by
  cases f with
  | limit => exact hlimit
  | concurrency => exact hconcurrency
  | _ => rfl

/-- Nothing but a normal form is left where a configuration takes all settings. -/
theorem eq_ofNumbers (h : ∀ f, c.Takes f (s f)) : c = ofNumbers s c.limit c.concurrency := by
  obtain ⟨username, tags, excludeTags, nsfw, sort, limit, output, concurrency, quality, apiKey,
    offline, showProgress⟩ := c
  obtain rfl : username = (s .username).plain.strip := h .username
  obtain rfl : tags = s .tags := h .tags
  obtain rfl : excludeTags = s .excludeTags := h .excludeTags
  obtain rfl : nsfw = s .nsfw := h .nsfw
  obtain rfl : sort = s .sort := h .sort
  obtain rfl : output = s .output := h .output
  obtain rfl : quality = (s .quality).plain.upper := h .quality
  obtain rfl : apiKey = s .apiKey := h .apiKey
  obtain rfl : offline = s .offline := h .offline
  obtain rfl : showProgress = s .showProgress := h .showProgress
  rfl

/-- Settings pass the checks, and come to these, just where they say who the user is and a sound
configuration takes them all. -/
theorem ofSettings?_eq_ok_iff : ofSettings? s = .ok c ↔
    (s .username).isTruthy = true ∧ c.IsSound ∧ ∀ f, c.Takes f (s f) := by
  constructor
  · intro h
    by_cases hnamed : s.NamesUser
    · rw [ofSettings?_of_named hnamed] at h
      obtain ⟨limit, hlimit, h⟩ := bind_eq_ok_iff.mp h
      obtain ⟨concurrency, hconcurrency, h⟩ := bind_eq_ok_iff.mp h
      obtain ⟨hone, hone', hquality, rfl⟩ := bounded_eq_ok_iff.mp h
      have htrimmed : (s .username).plain.strip.strip = (s .username).plain.strip :=
        Text.trim_trim CodePoint.isBlank _
      have hblank : (s .username).plain.strip.isBlank = false := by
        rw [← strip_ne_nil_iff, htrimmed, strip_ne_nil_iff]
        exact hnamed.2
      exact ⟨hnamed.1, ⟨hblank, htrimmed, hone, hone', hquality⟩,
        takes_ofNumbers hlimit hconcurrency⟩
    · rw [ofSettings?_of_unnamed hnamed] at h
      cases h
  · rintro ⟨huser, hsound, htakes⟩
    have hname : c.username = (s .username).plain.strip := htakes .username
    have hlimit : (s .limit).whole? = .ok c.limit := htakes .limit
    have hconcurrency : (s .concurrency).whole? = .ok c.concurrency := htakes .concurrency
    have hquality : c.quality = (s .quality).plain.upper := htakes .quality
    have hnamed : s.NamesUser := by
      refine ⟨huser, ?_⟩
      rw [← strip_ne_nil_iff, ← hname, ← hsound.trimmed, strip_ne_nil_iff]
      exact hsound.named
    have hknown := hsound.quality
    rw [hquality] at hknown
    rw [ofSettings?_of_named hnamed, hlimit, hconcurrency]
    exact bounded_eq_ok_iff.mpr ⟨hsound.limit, hsound.concurrency, hknown, eq_ofNumbers htakes⟩

/-- A sound configuration passes the checks as it is. -/
theorem IsSound.ofSettings?_settings (h : c.IsSound) : ofSettings? c.settings = .ok c := by
  have hpresent : (Json.text c.username).isTruthy = true := by
    have hne : c.username ≠ [] := by
      rw [← h.trimmed, strip_ne_nil_iff]
      exact h.named
    exact decide_eq_true hne
  refine ofSettings?_eq_ok_iff.mpr ⟨hpresent, h, fun f => ?_⟩
  cases f with
  | username => exact h.trimmed.symm
  | quality =>
    show c.quality = c.quality.upper
    rcases h.quality with hquality | hquality
    all_goals
      rw [hquality]
      decide
  | _ => rfl

/-! ## What is not foreseen -/

theorem ofSettings?_eq_infinite_iff : ofSettings? s = .error .infinite ↔ s.MeetsInfinity := by
  by_cases hnamed : s.NamesUser
  · rw [ofSettings?_of_named hnamed, Settings.MeetsInfinity, ← Json.whole?_eq_infinite_iff,
      ← Json.whole?_eq_infinite_iff]
    cases (s .limit).whole? with
    | error fault => simp [hnamed, bind, Except.bind]
    | ok limit =>
      cases (s .concurrency).whole? with
      | error fault => simp [hnamed, bind, Except.bind]
      | ok concurrency => simpa [bind, Except.bind] using bounded_ne_infinite
  · rw [ofSettings?_of_unnamed hnamed]
    simp [Settings.MeetsInfinity, hnamed]

/-- A number without bounds is neither taken nor refused for a reason that is foreseen. -/
theorem not_settled_of_infinite {s : Settings} (h : ofSettings? s = .error .infinite) :
    ¬ ((∃ c, ofSettings? s = .ok c ∧ c.IsSound)
      ∨ ∃ fault, ofSettings? s = .error fault ∧ fault.IsForeseen) := by
  rintro (⟨c, hc, -⟩ | ⟨fault, hfault, hforeseen⟩)
  · cases h.symm.trans hc
  · cases h.symm.trans hfault
    exact hforeseen rfl

/-- **What the checks of settings come to**, whatever the values are. A sound configuration comes
out just where it takes all settings, of which the user's name has to be present. Else the settings
are refused for a reason that is foreseen; but not where the checks meet a number without bounds. -/
theorem ofSettings?_settles (s : Settings) :
    (∀ c, ofSettings? s = .ok c ↔
        (s .username).isTruthy = true ∧ c.IsSound ∧ ∀ f, c.Takes f (s f))
      ∧ ((∃ c, ofSettings? s = .ok c ∧ c.IsSound)
          ∨ (∃ fault, ofSettings? s = .error fault ∧ fault.IsForeseen) ↔ ¬ s.MeetsInfinity)
      ∧ (ofSettings? s = .error .infinite ↔ s.MeetsInfinity) := by
  refine ⟨fun c => ofSettings?_eq_ok_iff, ⟨?_, fun hnot => ?_⟩, ofSettings?_eq_infinite_iff⟩
  · intro hsettled hmeets
    exact not_settled_of_infinite (ofSettings?_eq_infinite_iff.mpr hmeets) hsettled
  · cases h : ofSettings? s with
    | ok c => exact .inl ⟨c, rfl, (ofSettings?_eq_ok_iff.mp h).2.1⟩
    | error fault =>
      refine .inr ⟨fault, rfl, ?_⟩
      rintro rfl
      exact hnot (ofSettings?_eq_infinite_iff.mp h)

/-- Settings that ask for matches without bounds. -/
def boundless : Settings := (Settings.defaults.set .username (.text "u")).set .limit
  (.real (.infinity false))

/-- Not all settings pass the checks or are refused for a reason that is foreseen. -/
theorem not_all_checked : ¬ ∀ s, (∃ c, ofSettings? s = .ok c ∧ c.IsSound)
    ∨ ∃ fault, ofSettings? s = .error fault ∧ fault.IsForeseen := by
  have hnamed : boundless.NamesUser := ⟨rfl, rfl⟩
  have hinfinite : ofSettings? boundless = .error .infinite :=
    ofSettings?_eq_infinite_iff.mpr ⟨hnamed, .inl ⟨false, rfl⟩⟩
  intro h
  exact not_settled_of_infinite hinfinite (h boundless)

end Configuration

end GalleryScan
