import GalleryScan.Console.Session
import GalleryScan.Proofs.Scan.LifeCycle
import GalleryScan.Proofs.Scan.Twins

/-!
# The key stays secret

Of a key a session shows the last four signs, and sends the whole only to the server of the listing.
The scans of two keys are twins, and what they come to is what a session prints, leaves and ends
with. So if the keys end alike, nobody else can tell which of the two it was:

> `(withConfiguration w log a).Alike (withConfiguration w log b)`
-/

set_option autoImplicit false

namespace GalleryScan

namespace Scan

/-! ## The scans of two keys -/

/-- Either no scan can be made, for the same reason, or two are made that stand in this relation. -/
inductive MadeAlike (R : Scan → Scan → Prop) :
    Except StartStop Scan → Except StartStop Scan → Prop where
  | neither (stop : StartStop) : MadeAlike R (.error stop) (.error stop)
  | both {s s' : Scan} (h : R s s') : MadeAlike R (.ok s) (.ok s')

theorem MadeAlike.mono {R Q : Scan → Scan → Prop} {x x' : Except StartStop Scan}
    (h : MadeAlike R x x') (hR : ∀ s s', R s s' → Q s s') : MadeAlike Q x x' := by
  cases h with
  | neither stop => exact .neither stop
  | both h => exact .both (hR _ _ h)

theorem twin_start {a : Assignment} {key : Json} (hpresent : key.isTruthy = a.client.apiKey.isTruthy)
    (cache : Cache) (quality : Text) (concurrency : Int) (replies : List ListingReply)
    (images : ImageServer) (disk : Disk) :
    let s := start a cache quality concurrency replies images disk
    s.Twin (s.retold key replies []) where
  same := ⟨key, [], rfl, hpresent, rfl⟩
  silent := by
    intro hear hl r e
    cases hl
    cases e <;> rfl
  discreet := fun r hr => nomatch hr

/-- Of a key that there is, a scan has nothing but the key. -/
theorem madeAlike_of_key (c : Configuration) {key key' : Json}
    (hpresent : key'.isTruthy = key.isTruthy) (replies : List ListingReply) (images : ImageServer)
    (disk : Disk) :
    MadeAlike Twin (ofConfiguration? { c with apiKey := key } replies images disk)
      (ofConfiguration? { c with apiKey := key' } replies images disk) := by
  have hfilter : Settings.filter? (Configuration.settings { c with apiKey := key' })
      = Settings.filter? (Configuration.settings { c with apiKey := key }) := rfl
  have hcache : Settings.cache? (Configuration.settings { c with apiKey := key' })
      = Settings.cache? (Configuration.settings { c with apiKey := key }) := rfl
  have hconcurrency : Settings.concurrency? (Configuration.settings { c with apiKey := key' })
      = Settings.concurrency? (Configuration.settings { c with apiKey := key }) := rfl
  unfold ofConfiguration? ofSettings?
  rw [hfilter, hcache, hconcurrency]
  cases Settings.filter? (Configuration.settings { c with apiKey := key }) with
  | error stop => exact .neither stop
  | ok filter =>
    cases Settings.cache? (Configuration.settings { c with apiKey := key }) with
    | error b => exact .neither (.breakdown b)
    | ok cache =>
      cases Settings.concurrency? (Configuration.settings { c with apiKey := key }) with
      | error b => exact .neither (.breakdown b)
      | ok concurrency => exact .both <| twin_start hpresent _ _ _ _ _ _

/-! ## What scans come to -/

/-- Two ends of a scan that come to the same for all but the server of the listing. -/
structure EndsAlike (x x' : Scan × Except ScanStop Unit) : Prop where
  result : x'.2 = x.2
  tally : x'.1.tally = x.1.tally
  failures : x'.1.failures = x.1.failures
  disk : x'.1.disk = x.1.disk
  log : x.1.log.Alike x'.1.log
  discreet : x.1.log.Discreet ∧ x'.1.log.Discreet

theorem Parallel.endsAlike {x x' : Scan × Except ScanStop Unit} (h : Parallel x x') :
    EndsAlike x x' := by
  obtain ⟨key, log, hsame, -, hlog⟩ := h.state.same
  have hlogs : x'.1.log = log := by rw [hsame]; rfl
  refine ⟨h.result, by rw [hsame]; rfl, by rw [hsame]; rfl, by rw [hsame]; rfl, ?_,
    h.state.discreet, ?_⟩
  · rw [hlogs]
    exact Log.alike_of_masked hlog
  · rw [hlogs]
    exact h.state.discreet.congr hlog

end Scan

/-! ## The whole session -/

namespace Report

/-- Of two keys that end alike the same is shown. -/
theorem settings?_key (c : Configuration) {k k' : Text} (hk : k ≠ []) (hk' : k' ≠ [])
    (hend : lastOnes k' = lastOnes k) :
    settings? { c with apiKey := .text k' } = settings? { c with apiKey := .text k } := by
  have hnote : ∀ k : Text, k ≠ [] →
      keyNote? (.text k) = .ok ("Active (..." ++ lastOnes k ++ ")") := by
    intro k hk
    cases k with
    | nil => exact absurd rfl hk
    | cons c k => rfl
  unfold settings?
  dsimp only
  rw [hnote k' hk', hnote k hk, hend]

end Report

namespace Session

/-- Two sessions that come to the same for all but the server of the listing. -/
structure Alike (x x' : Session) : Prop where
  exit : x'.exit = x.exit
  errors : x'.errors = x.errors
  disk : x'.disk = x.disk
  log : x.log.Alike x'.log

theorem alike_ofScan {x x' : Scan × Except ScanStop Unit} (h : Scan.Parallel x x') (log : Log) :
    Alike (ofScan log x.1 x.2) (ofScan log x'.1 x'.2) := by
  obtain ⟨s, s', r, rfl, rfl, htwin⟩ := h.cases
  obtain ⟨key, said, rfl, -, hsaid⟩ := htwin.same
  have hlog : (log ++ said).masked = (log ++ s.log).masked := by
    rw [Log.masked_append, Log.masked_append, hsaid]
  have hmore : ∀ more : Log, (log ++ said ++ more).masked = (log ++ s.log ++ more).masked := by
    intro more
    rw [Log.masked_append, hlog, ← Log.masked_append]
  rcases r with (e | path | b | m) | _
  · exact ⟨rfl, rfl, rfl, Log.alike_of_masked hlog⟩
  · exact ⟨rfl, rfl, rfl, Log.alike_of_masked hlog⟩
  · exact ⟨rfl, rfl, rfl, Log.alike_of_masked hlog⟩
  · exact ⟨rfl, rfl, rfl, Log.alike_of_masked (hmore _)⟩
  · exact ⟨rfl, rfl, rfl, Log.alike_of_masked (hmore _)⟩

theorem Alike.refl (x : Session) : Alike x x := ⟨rfl, rfl, rfl, Log.alike_of_masked rfl⟩

/-- Whoever sees everything but the listing's server sees the same with two keys that end alike: the
settings that are listed, the same error or the same scan with the same counts, disk, lines, pauses
and requests, of which only those for pages carry the key; and so the same session. -/
theorem key_stays_secret (w : Surroundings) (c : Configuration) (k k' : Text) (hk : k ≠ [])
    (hk' : k' ≠ []) (hend : Report.lastOnes k' = Report.lastOnes k) :
    let a : Configuration := { c with apiKey := .text k }
    let b : Configuration := { c with apiKey := .text k' }
    Report.settings? b = Report.settings? a
      ∧ Scan.MadeAlike (fun s s' => Scan.EndsAlike s.run s'.run)
        (Scan.ofConfiguration? a w.replies w.images w.disk)
        (Scan.ofConfiguration? b w.replies w.images w.disk)
      ∧ ∀ log, (withConfiguration w log a).Alike (withConfiguration w log b) := by
  intro a b
  have hsettings : Report.settings? b = Report.settings? a := Report.settings?_key c hk hk' hend
  have hpresent : (Json.text k').isTruthy = (Json.text k).isTruthy := by
    cases k with
    | nil => exact absurd rfl hk
    | cons x k =>
      cases k' with
      | nil => exact absurd rfl hk'
      | cons x' k' => rfl
  have hmade : Scan.MadeAlike Scan.Twin (Scan.ofConfiguration? a w.replies w.images w.disk)
      (Scan.ofConfiguration? b w.replies w.images w.disk) :=
    Scan.madeAlike_of_key c hpresent w.replies w.images w.disk
  refine ⟨hsettings, hmade.mono fun s s' h => h.run.endsAlike, fun log => ?_⟩
  unfold withConfiguration
  rw [hsettings]
  cases Report.settings? a with
  | error breakdown => exact .refl _
  | ok lines =>
    dsimp only
    generalize Scan.ofConfiguration? a w.replies w.images w.disk = x at hmade ⊢
    generalize Scan.ofConfiguration? b w.replies w.images w.disk = x' at hmade ⊢
    cases hmade with
    | neither stop => exact .refl _
    | both h => exact alike_ofScan h.run _

end Session

/-! ## A white cat's key and a black cat's -/

namespace CheckedCats

open Scan

def withKey (key : Text) : Configuration := { configuration with apiKey := .text key }

def surroundings : Surroundings := ⟨[], TwoCats.disk, OneOfTwo.replies, images⟩

theorem scan_made_withKey (key : Text) :
    ofConfiguration? (withKey key) OneOfTwo.replies images TwoCats.disk
      = .ok (scan.retold (.text key) OneOfTwo.replies []) := by
  have hfilter : Settings.filter? (withKey key).settings = .ok assignment.filter := filter_made
  unfold ofConfiguration? ofSettings?
  rw [hfilter]
  rfl

/-- At a user with two cats: the server is sent one key or the other, and nobody else is told. -/
theorem key_stays_secret_cats :
    (Client.withKey (.text "white-cat")).headers ≠ (Client.withKey (.text "black-cat")).headers
      ∧ Report.settings? (withKey "black-cat") = Report.settings? (withKey "white-cat")
      ∧ EndsAlike (scan.retold (.text "white-cat") OneOfTwo.replies []).run
        (scan.retold (.text "black-cat") OneOfTwo.replies []).run
      ∧ (Session.withConfiguration surroundings [] (withKey "white-cat")).Alike
        (Session.withConfiguration surroundings [] (withKey "black-cat")) := by
  obtain ⟨hsettings, hscans, hsessions⟩ := Session.key_stays_secret surroundings configuration
    "white-cat" "black-cat" (by decide) (by decide) (by decide)
  refine ⟨by decide, hsettings, ?_, hsessions []⟩
  have hmade := scan_made_withKey "white-cat"
  have hmade' := scan_made_withKey "black-cat"
  change MadeAlike _ (ofConfiguration? (withKey "white-cat") OneOfTwo.replies images TwoCats.disk)
    (ofConfiguration? (withKey "black-cat") OneOfTwo.replies images TwoCats.disk) at hscans
  rw [hmade, hmade'] at hscans
  cases hscans with
  | both h => exact h

end CheckedCats

end GalleryScan
