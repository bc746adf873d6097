import GalleryScan.Console.Session
import GalleryScan.Proofs.Settings.Layering

/-!
# From checked settings to a scan

Three steps read a configuration before its scan: its settings are listed, a filter is made from two
of them, and the user's cache from the folder for the output. The checks have left these values as
they were given, whatever their kind, and each of the steps asks for kinds of its own. `AreReadable`
gathers what they ask for.

> `(∃ lines, Report.settings? c = .ok lines) ↔ (c.settings .apiKey).HasEnd`

Where all of it holds, the only fault left is a malformed query, which is reported in one line.
Where not, the program ends with an error that nobody expects, unless a malformed query is reported
first.
-/

set_option autoImplicit false

namespace GalleryScan

/-! ## Kinds of values -/

namespace Json

/-- A text, or a value that counts as none. -/
def IsTextual (x : Json) : Prop := (∃ t, x = .text t) ∨ x.isTruthy = false

/-- An end of the value can be shown, or there is none to show. -/
def HasEnd (x : Json) : Prop := x.IsTextual ∨ ∃ xs, x = .array xs

end Json

/-- The steps before a scan can read their settings. -/
structure Settings.AreReadable (s : Settings) : Prop where
  key : (s .apiKey).HasEnd
  excludeTags : (s .excludeTags).IsTextual
  tags : (s .tags).IsTextual
  output : ∃ t, s .output = .text t

theorem Settings.AreReadable.of_eq {s s' : Settings} (h : s.AreReadable)
    (hkey : s' .apiKey = s .apiKey) (hexclude : s' .excludeTags = s .excludeTags)
    (htags : s' .tags = s .tags) (houtput : s' .output = s .output) : s'.AreReadable :=
  ⟨hkey ▸ h.key, hexclude ▸ h.excludeTags, htags ▸ h.tags, houtput ▸ h.output⟩

/-! ## One step after the other -/

theorem textSetting_isOk_iff (operation : Text) (x : Json) :
    (∃ t, textSetting operation x = .ok t) ↔ x.IsTextual := by
  rw [textSetting.eq_def, Json.IsTextual]
  split
  · rename_i t
    exact ⟨fun _ => .inl ⟨t, rfl⟩, fun _ => ⟨t, rfl⟩⟩
  · rename_i hother
    have hnone : ¬ ∃ t, x = .text t := fun ⟨t, ht⟩ => hother t ht
    cases x.isTruthy <;> simp [hnone]

namespace Report

theorem keyEnd?_isOk_iff {x : Json} :
    (∃ t, keyEnd? x = .ok t) ↔ (∃ t, x = .text t) ∨ ∃ xs, x = .array xs := by
  cases x <;> simp [keyEnd?]

theorem keyNote?_isOk_iff {x : Json} : (∃ note, keyNote? x = .ok note) ↔ x.HasEnd := by
  rw [keyNote?, Json.HasEnd, Json.IsTextual]
  cases hpresent : x.isTruthy with
  | false => simp
  | true =>
    simp only [if_true, Bool.true_eq_false, or_false]
    rw [← keyEnd?_isOk_iff]
    cases keyEnd? x <;> simp [Except.map]

theorem settings?_isOk_iff {c : Configuration} :
    (∃ lines, settings? c = .ok lines) ↔ c.apiKey.HasEnd := by
  rw [← keyNote?_isOk_iff, settings?]
  cases keyNote? c.apiKey <;> simp [bind, Except.bind, pure, Except.pure]

end Report

namespace Settings

variable {s : Settings}

theorem filter?_breaks_iff : (∃ b, s.filter? = .error (.breakdown b))
    ↔ ¬ ((s .excludeTags).IsTextual ∧ (s .tags).IsTextual) := by
  rw [← textSetting_isOk_iff "split", ← textSetting_isOk_iff "strip", filter?]
  cases textSetting "split" (s .excludeTags) with
  | error b => simp
  | ok excludeList =>
    cases textSetting "strip" (s .tags) with
    | error b => simp
    | ok query =>
      dsimp only
      cases Filter.compile? query excludeList <;> simp

end Settings

namespace Configuration

variable {c : Configuration}

theorem cache?_isOk_iff : (∃ cache, c.settings.cache? = .ok cache) ↔ ∃ t, c.output = .text t := by
  unfold Settings.cache?
  simp only [settings]
  cases c.output <;> simp

end Configuration

/-! ## The scan of a configuration -/

namespace Scan

variable {c : Configuration} {replies : List ListingReply} {images : ImageServer} {disk : Disk}

theorem ofConfiguration?_of_filter_error {stop : StartStop} (h : c.settings.filter? = .error stop) :
    ofConfiguration? c replies images disk = .error stop := by
  rw [ofConfiguration?, ofSettings?, h]
  rfl

theorem ofConfiguration?_of_cache_error {f : Filter} {b : Breakdown}
    (hfilter : c.settings.filter? = .ok f) (hcache : c.settings.cache? = .error b) :
    ofConfiguration? c replies images disk = .error (.breakdown b) := by
  rw [ofConfiguration?, ofSettings?, hfilter, hcache]
  rfl

theorem exists_ofConfiguration? {f : Filter} {cache : Cache} (replies : List ListingReply)
    (images : ImageServer) (disk : Disk) (hfilter : c.settings.filter? = .ok f)
    (hcache : c.settings.cache? = .ok cache) :
    ∃ s, ofConfiguration? c replies images disk = .ok s := by
  rw [ofConfiguration?, ofSettings?, hfilter, hcache]
  exact ⟨_, rfl⟩

end Scan

namespace Session

variable {w : Surroundings} {path : Text} {username : Json} {file options : Layer}
  {c : Configuration}

/-- A session whose steps before the scan come to the end: the query is refused in one line, or the
scan is made. -/
def Begins (w : Surroundings) (c : Configuration) (log : Log) : Prop :=
  ∃ lines, Report.settings? c = .ok lines
    ∧ ((∃ e, c.settings.filter? = .error (.query e)
        ∧ withConfiguration w log c = fatal (log ++ lines) w.disk e.message)
      ∨ ∃ s, Scan.ofConfiguration? c w.replies w.images w.disk = .ok s
        ∧ withConfiguration w log c = ofScan (log ++ lines) s.run.1 s.run.2)

/-- A session that ends before its scan, with an error that nobody expects. -/
def BreaksDown (w : Surroundings) (c : Configuration) (log : Log) : Prop :=
  ∃ b, (Report.settings? c = .error b ∧ withConfiguration w log c = broken log w.disk b)
    ∨ ∃ lines, Report.settings? c = .ok lines
      ∧ Scan.ofConfiguration? c w.replies w.images w.disk = .error (.breakdown b)
      ∧ withConfiguration w log c = broken (log ++ lines) w.disk b

theorem begins_of_readable (h : c.settings.AreReadable) (w : Surroundings) (log : Log) :
    Begins w c log := by
  obtain ⟨lines, hlines⟩ := Report.settings?_isOk_iff.mpr h.key
  obtain ⟨cache, hcache⟩ := Configuration.cache?_isOk_iff.mpr h.output
  refine ⟨lines, hlines, ?_⟩
  cases hfilter : c.settings.filter? with
  | error stop =>
    cases stop with
    | breakdown b =>
      have hnot := Settings.filter?_breaks_iff.mp ⟨b, hfilter⟩
      exact absurd ⟨h.excludeTags, h.tags⟩ hnot
    | query e =>
      refine .inl ⟨e, rfl, ?_⟩
      rw [withConfiguration, hlines]
      dsimp only
      rw [Scan.ofConfiguration?_of_filter_error hfilter]
  | ok f =>
    obtain ⟨s, hs⟩ := Scan.exists_ofConfiguration? w.replies w.images w.disk hfilter hcache
    refine .inr ⟨s, hs, ?_⟩
    rw [withConfiguration, hlines]
    dsimp only
    rw [hs]

theorem breaksDown_of_unreadable (h : ¬ c.settings.AreReadable)
    (hquery : ∀ e, c.settings.filter? ≠ .error (.query e)) (w : Surroundings) (log : Log) :
    BreaksDown w c log := by
  cases hreport : Report.settings? c with
  | error b =>
    refine ⟨b, .inl ⟨hreport, ?_⟩⟩
    rw [withConfiguration, hreport]
  | ok lines =>
    have hstop : ∃ b, Scan.ofConfiguration? c w.replies w.images w.disk
        = .error (.breakdown b) := by
      cases hfilter : c.settings.filter? with
      | error stop =>
        cases stop with
        | breakdown b => exact ⟨b, Scan.ofConfiguration?_of_filter_error hfilter⟩
        | query e => exact absurd hfilter (hquery e)
      | ok f =>
        cases hcache : c.settings.cache? with
        | error b => exact ⟨b, Scan.ofConfiguration?_of_cache_error hfilter hcache⟩
        | ok cache =>
          have htextual : (c.settings .excludeTags).IsTextual ∧ (c.settings .tags).IsTextual := by
            by_contra hnot
            obtain ⟨b, hb⟩ := Settings.filter?_breaks_iff.mpr hnot
            rw [hfilter] at hb
            cases hb
          exact absurd ⟨Report.settings?_isOk_iff.mp ⟨lines, hreport⟩, htextual.1, htextual.2,
            Configuration.cache?_isOk_iff.mp ⟨cache, hcache⟩⟩ h
    obtain ⟨b, hb⟩ := hstop
    refine ⟨b, .inr ⟨lines, hreport, hb, ?_⟩⟩
    rw [withConfiguration, hreport]
    dsimp only
    rw [hb]

theorem run_of_create {words : List Text} {name : Text} {a : Arguments}
    (hwords : Arguments.ofWords words = .ok (name, a))
    (hc : (Configuration.create w.disk w.environment a.configPath (.text name) a.options).2
      = .ok c) :
    ∃ log, run w words = withConfiguration w log c := by
  rw [run, hwords]
  dsimp only
  cases hcreate : Configuration.create w.disk w.environment a.configPath (.text name) a.options with
  | mk log read =>
    rw [hcreate] at hc
    obtain rfl : read = .ok c := hc
    exact ⟨log, rfl⟩

/-- **What a configuration can be stopped by before its scan**, wherever its settings come from. The
steps that read it ask for kinds of values, and what they ask is asked of the values as they were
given. With all of it, the query is refused in one line or there is a scan. Without, an error that
nobody expects ends the session, be it one for a command line or any other. -/
theorem readable_begins (hpath : path ≠ [])
    (hfile : w.disk.document (Path.absolute w.disk.herePath path) = .ok (.object file))
    (hc : (Configuration.create w.disk w.environment path username options).2 = .ok c) :
    let s := Configuration.given w.environment username file options
    ((∃ lines, Report.settings? c = .ok lines) ↔ (s .apiKey).HasEnd)
      ∧ ((∃ b, c.settings.filter? = .error (.breakdown b))
        ↔ ¬ ((s .excludeTags).IsTextual ∧ (s .tags).IsTextual))
      ∧ ((∃ cache, c.settings.cache? = .ok cache) ↔ ∃ t, s .output = .text t)
      ∧ (s.AreReadable → ∀ log, Begins w c log)
      ∧ (¬ s.AreReadable → (∀ e, c.settings.filter? ≠ .error (.query e)) →
        ∀ log, BreaksDown w c log)
      ∧ ∀ words name a, Arguments.ofWords words = .ok (name, a) → username = .text name →
        a.configPath = path → a.options = options →
        ∃ log, run w words = withConfiguration w log c := by
  intro s
  have hchecked := (Configuration.create_eq_ok_iff (Layer.ofFile_of_document hpath hfile)).mp hc
  obtain ⟨-, -, htakes⟩ := Configuration.ofSettings?_eq_ok_iff.mp hchecked
  have hkey : c.settings .apiKey = s .apiKey := htakes .apiKey
  have hexclude : c.settings .excludeTags = s .excludeTags := htakes .excludeTags
  have htags : c.settings .tags = s .tags := htakes .tags
  have houtput : c.settings .output = s .output := htakes .output
  refine ⟨?_, ?_, ?_, fun h log => ?_, fun h hquery log => ?_, ?_⟩
  · rw [← hkey]
    exact Report.settings?_isOk_iff
  · rw [← hexclude, ← htags]
    exact Settings.filter?_breaks_iff
  · rw [← houtput]
    exact Configuration.cache?_isOk_iff
  · exact begins_of_readable (h.of_eq hkey hexclude htags houtput) w log
  · refine breaksDown_of_unreadable (fun h' => h ?_) hquery w log
    exact h'.of_eq hkey.symm hexclude.symm htags.symm houtput.symm
  · rintro words name a hwords rfl rfl rfl
    exact run_of_create hwords hc

end Session

/-! ## A number in the place of a query -/

namespace NumberForQuery

def file : Layer := [("tags", .int 5)]

def surroundings : Surroundings := ⟨[], .withSettings file, [], []⟩

def configuration : Configuration :=
  .ofNumbers (Configuration.given [] (.text "u") file []) 10 5

theorem document_disk :
    surroundings.disk.document (Path.absolute surroundings.disk.herePath "config.json")
      = .ok (.object file) := by
  refine Disk.document_withSettings (.object file (by decide) ?_) ?_ (by decide)
  · rintro m (_ | ⟨_, ⟨⟩⟩)
    exact .int 5 (by cbv)
  · rintro y (_ | _ | ⟨_, m, _ | ⟨_, ⟨⟩⟩, ⟨⟩⟩)

theorem created : (Configuration.create surroundings.disk surroundings.environment "config.json"
    (.text "u") []).2 = .ok configuration := by
  rw [Configuration.create_eq_ok_iff (Layer.ofFile_of_document (by decide) document_disk)]
  exact Configuration.ofSettings?_eq_ok_iff.mpr ⟨rfl,
    ⟨by decide, by decide, by decide, by decide, .inl (by decide)⟩,
    Configuration.takes_ofNumbers rfl rfl⟩

theorem not_textual :
    ¬ (Configuration.given surroundings.environment (.text "u") file [] .tags).IsTextual := by
  have hfive : Configuration.given surroundings.environment (.text "u") file [] .tags = .int 5 :=
    rfl
  rw [hfive]
  rintro (⟨t, ht⟩ | hnone)
  · cases ht
  · cases hnone

theorem filter_breaks :
    configuration.settings.filter? = .error (.breakdown (.noText "int" "strip")) := rfl

def arguments : Arguments := ⟨some "u", .text "config.json", [], []⟩

theorem ofWords_user : Arguments.ofWords [("u" : Text)] = .ok ("u", arguments) := by cbv

/-- Ann's session begins, and the one with a number for a query breaks down. -/
theorem readable_begins_five :
    (∀ log, Session.Begins ⟨Disagreement.environment, Disagreement.disk, [], []⟩
        Disagreement.configuration log)
      ∧ (∃ b, configuration.settings.filter? = .error (.breakdown b))
      ∧ (∀ log, Session.BreaksDown surroundings configuration log)
      ∧ ∃ log, Session.run surroundings [("u" : Text)]
        = Session.withConfiguration surroundings log configuration := by
  obtain ⟨-, -, -, hbegins, -, -⟩ := Session.readable_begins
    (w := ⟨Disagreement.environment, Disagreement.disk, [], []⟩) (by decide)
    Disagreement.document_disk Disagreement.created
  obtain ⟨-, hfilter, -, -, hbreaks, hrun⟩ :=
    Session.readable_begins (by decide) document_disk created
  refine ⟨hbegins ?_, hfilter.mpr fun h => not_textual h.2, ?_, ?_⟩
  · exact ⟨.inl (.inl ⟨"new", (Disagreement.takes .apiKey).symm⟩),
      .inl ⟨"cat", (Disagreement.takes .excludeTags).symm⟩,
      .inl ⟨"", (Disagreement.takes .tags).symm⟩, "downloads", (Disagreement.takes .output).symm⟩
  · refine hbreaks (fun h => not_textual h.tags) fun e he => ?_
    rw [filter_breaks] at he
    cases he
  · exact hrun _ "u" arguments ofWords_user rfl rfl rfl

/-- Not all settings that pass the checks can be read by the steps that come before a scan. -/
theorem not_all_readable : ¬ ∀ (w : Surroundings) (path : Text) (username : Json)
    (file options : Layer) (c : Configuration), path ≠ [] →
    w.disk.document (Path.absolute w.disk.herePath path) = .ok (.object file) →
    (Configuration.create w.disk w.environment path username options).2 = .ok c →
    (∃ lines, Report.settings? c = .ok lines)
      ∧ (∀ b, c.settings.filter? ≠ .error (.breakdown b))
      ∧ ∃ cache, c.settings.cache? = .ok cache := by
  intro h
  obtain ⟨-, hfilter, -⟩ := h surroundings "config.json" (.text "u") file [] configuration
    (by decide) document_disk created
  exact hfilter _ filter_breaks

end NumberForQuery

end GalleryScan
