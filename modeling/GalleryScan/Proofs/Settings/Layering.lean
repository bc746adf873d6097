import GalleryScan.Proofs.Disk.Changing
import GalleryScan.Proofs.Disk.Document
import GalleryScan.Proofs.Settings.Checking
import GalleryScan.Settings.Source
import Mathlib

/-!
# The last value counts

Layers laid over each other are one layer, in which the later entries come last. What a layer gives
a setting is then told without laying anything: it is the last value there under one of the
setting's names, missing values left out.

> `s.under l f = (l.last? f).getD (s f)`

Names that are no setting's can be dropped. The environment is a layer of at most two entries, and
the user is set after all layers, whatever these say.
-/

set_option autoImplicit false

namespace GalleryScan

/-! ## Names of settings -/

namespace Setting

variable {f : Setting} {name : Text}

/-- Is this the setting's name, or its other name? -/
def isNamed (f : Setting) (name : Text) : Bool := f.key = name || f.alias? = some name

theorem isNamed_of_ofKey? (h : ofKey? name = some f) : f.isNamed name = true :=
  List.find?_some (p := (isNamed · name)) h

/-- No name is that of two settings. -/
theorem ofKey?_of_isNamed (h : f.isNamed name = true) : ofKey? name = some f := by
  rw [isNamed, Bool.or_eq_true, decide_eq_true_eq, decide_eq_true_eq] at h
  rcases h with rfl | halias
  · cases f <;> rfl
  · cases f with
    | excludeTags =>
      cases halias
      rfl
    | apiKey =>
      cases halias
      rfl
    | _ => cases halias

end Setting

/-! ## What a layer gives -/

namespace Layer

/-- Does the entry give the setting a value? -/
def gives (f : Setting) (entry : Text × Json) : Bool := f.isNamed entry.1 && !entry.2.isNull

/-- The last value that the layer gives the setting. -/
def last? (l : Layer) (f : Setting) : Option Json := (l.reverse.find? (gives f)).map (·.2)

/-- The entries that are about a setting. -/
def known (l : Layer) : Layer := l.filter fun entry => (Setting.ofKey? entry.1).isSome

theorem last?_cons (x : Text × Json) (l : Layer) (f : Setting) :
    last? (x :: l) f = (l.last? f).or (if gives f x then some x.2 else none) := by
  rw [last?, List.reverse_cons, List.find?_append, Option.map_or, last?, List.find?_singleton]
  split <;> rfl

end Layer

namespace Settings

variable (s : Settings) (l m : Layer) (f : Setting)

theorem take_apply (x : Text × Json) :
    s.take x.1 x.2 f = if Layer.gives f x then x.2 else s f := by
  rw [take, Layer.gives]
  by_cases hnamed : f.isNamed x.1 = true
  · rw [Setting.ofKey?_of_isNamed hnamed]
    cases x.2.isNull <;> simp [hnamed, set]
  · have hother : ∀ g, Setting.ofKey? x.1 = some g → f ≠ g := by
      rintro g hg rfl
      exact hnamed (Setting.isNamed_of_ofKey? hg)
    cases hkey : Setting.ofKey? x.1 with
    | none => simp [hnamed]
    | some g => cases x.2.isNull <;> simp [hnamed, set, hother g hkey]

theorem under_cons (x : Text × Json) : s.under (x :: l) = (s.take x.1 x.2).under l := rfl

theorem under_append : s.under (l ++ m) = (s.under l).under m := List.foldl_append

/-- The last value counts, and without any the one that was there. By induction on the layer, for
any settings under it. -/
theorem under_apply : s.under l f = (l.last? f).getD (s f) := by
  induction l generalizing s with
  | nil => rfl
  | cons x l ih =>
    rw [under_cons, ih, take_apply, Layer.last?_cons]
    cases Layer.last? l f with
    | some y => rfl
    | none =>
      simp only [Option.none_or, Option.getD_none]
      split <;> rfl

/-- What is about no setting changes nothing. -/
theorem under_known : s.under l.known = s.under l := by
  induction l generalizing s with
  | nil => rfl
  | cons x l ih =>
    rw [under_cons, Layer.known, List.filter_cons]
    split
    · exact ih (s.take x.1 x.2)
    · rename_i hunknown
      rw [Option.not_isSome_iff_eq_none] at hunknown
      rw [take, hunknown]
      exact ih s

end Settings

/-! ## Where layers come from -/

/-- What a file that holds an object gives. -/
theorem Layer.ofFile_of_document {d : Disk} {path : Text} {file : Layer} (hpath : path ≠ [])
    (hfile : d.document (Path.absolute d.herePath path) = .ok (.object file)) :
    (Layer.ofFile d path).2 = .ok file := by
  have hthere : d.hasFile (Path.absolute d.herePath path) = true := by
    cases hread : d.read (Path.absolute d.herePath path) with
    | ok content => exact Disk.hasFile_of_read hread
    | error fault =>
      rw [Disk.document, hread] at hfile
      cases hfile
  rw [Layer.ofFile]
  simp only [hpath, hthere, decide_false, Bool.not_true, Bool.or_self, Bool.false_eq_true,
    if_false, hfile]
  rfl

namespace Environment

/-- What the environment gives: a key unless it is empty, and a number of downloads where a whole
number is written. -/
def given (e : Environment) : Layer :=
  (if e.value "CIVIT_API_KEY" = [] then []
    else [(Setting.key .apiKey, .text (e.value "CIVIT_API_KEY"))])
  ++ match Whole.read (e.value "CIVIT_CONCURRENCY").strip with
    | .ok n => [(Setting.key .concurrency, .int n)]
    | .error _ => []

theorem layer_eq_given (e : Environment) : e.layer.2 = e.given := by
  rw [layer, given]
  split
  · rename_i hnone
    rw [hnone]
    exact (List.append_nil _).symm
  · cases Whole.read (e.value "CIVIT_CONCURRENCY").strip with
    | ok n => rfl
    | error fault => exact (List.append_nil _).symm

end Environment

namespace Configuration

variable {d : Disk} {environment : Environment} {path : Text} {username : Json}
  {file options : Layer} {c : Configuration}

/-- All settings as they are given, before they are checked. -/
def given (environment : Environment) (username : Json) (file options : Layer) : Settings :=
  (Settings.defaults.under (file ++ environment.given ++ options)).set .username username

theorem create_eq_ok_iff (hfile : (Layer.ofFile d path).2 = .ok file) :
    (create d environment path username options).2 = .ok c
      ↔ ofSettings? (given environment username file options) = .ok c := by
  rw [given, Settings.under_append, Settings.under_append, ← Environment.layer_eq_given, create]
  cases hread : Layer.ofFile d path with
  | mk log read =>
  rw [hread] at hfile
  obtain rfl : read = .ok file := hfile
  dsimp only
  split
  · rename_i hchecked
    rw [hchecked]
    simp
  · rename_i hchecked
    rw [hchecked]
    simp

/-- What is about no setting changes nothing, wherever it stands. -/
theorem given_known {file' options' : Layer} (hfile : file'.known = file.known)
    (hoptions : options'.known = options.known) :
    given environment username file' options' = given environment username file options := by
  have hlayers : ∀ l m : Layer, given environment username l m
      = given environment username l.known m.known := by
    intro l m
    simp only [given, Settings.under_append, Settings.under_known]
  rw [hlayers file', hlayers file, hfile, hoptions]

theorem given_apply {f : Setting} (hf : f ≠ .username) : given environment username file options f
    = ((file ++ environment.given ++ options).last? f).getD (Settings.defaults f) := by
  rw [given, Settings.set, if_neg hf, Settings.under_apply]

/-- **The last value counts**, whatever a file that holds an object, the environment and the
options say, as long as all of it passes the checks. Each setting but the user's name is checked
with the last value that one of the three gives it, or with its default where none does; the user's
name is always the one given. What is about no setting changes nothing, be it in the file or in the
options. What comes out is sound, and passes the checks unchanged. -/
theorem create_takes_last (hpath : path ≠ [])
    (hfile : d.document (Path.absolute d.herePath path) = .ok (.object file))
    (hc : (create d environment path username options).2 = .ok c) :
    c.username = username.plain.strip
      ∧ (∀ f ≠ .username, c.Takes f
        (((file ++ environment.given ++ options).last? f).getD (Settings.defaults f)))
      ∧ (∀ d' path' file' options', path' ≠ [] →
        d'.document (Path.absolute d'.herePath path') = .ok (.object file') →
        Layer.known file' = file.known → Layer.known options' = options.known →
        (create d' environment path' username options').2 = .ok c)
      ∧ c.IsSound
      ∧ ofSettings? c.settings = .ok c := by
  have hchecked := (create_eq_ok_iff (Layer.ofFile_of_document hpath hfile)).mp hc
  obtain ⟨-, hsound, htakes⟩ := ofSettings?_eq_ok_iff.mp hchecked
  refine ⟨htakes .username, fun f hf => ?_, ?_, hsound, hsound.ofSettings?_settings⟩
  · rw [← given_apply hf]
    exact htakes f
  · intro d' path' file' options' hpath' hfile' hknown hknown'
    rw [create_eq_ok_iff (Layer.ofFile_of_document hpath' hfile'), given_known hknown hknown']
    exact hchecked

end Configuration

/-! ## A file, an environment and options that disagree -/

/-- A disk with a settings file and nothing else. -/
def Disk.withSettings (file : Layer) : Disk :=
  ⟨[], [([("config.json" : Text)], .file ((Json.object file).written 0).bytes)]⟩

theorem Disk.document_withSettings {file : Layer} (hproper : (Json.object file).Proper)
    (hreals : ∀ y, (Json.object file).HasReal y → Json.ReadsBack y)
    (hbytes : ((Json.object file).written 0).isEncodable = true) :
    (withSettings file).document (Path.absolute (withSettings file).herePath "config.json")
      = .ok (.object file) := by
  have hread : (withSettings file).read (Path.absolute (withSettings file).herePath "config.json")
      = .ok ((Json.object file).written 0).bytes := rfl
  rw [Disk.document, hread]
  exact hproper.document hreals hbytes

namespace Disagreement

/-- Both names of a setting, a missing value, and two entries that are about no setting. -/
def file : Layer :=
  [("exclude_tags", .text "dog"), ("colour", .text "red"), ("limit", .text " 3 "),
    ("output", .null), ("excludeTags", .text "cat"), ("concurrency", .int 2),
    ("apiKey", .text "old")]

def environment : Environment := [("CIVIT_API_KEY", "new"), ("CIVIT_CONCURRENCY", " 7 ")]

def options : Layer := [("limit", .null), ("quality", .text "sd"), ("size", .int 1)]

def configuration : Configuration where
  username := "ann"
  tags := .text ""
  excludeTags := .text "cat"
  nsfw := .text "X"
  sort := .text "Newest"
  limit := 3
  output := .text "downloads"
  concurrency := 7
  quality := "SD"
  apiKey := .text "new"
  offline := .bool false
  showProgress := .bool true

def disk : Disk := .withSettings file

theorem document_disk :
    disk.document (Path.absolute disk.herePath "config.json") = .ok (.object file) := by
  have hentries : ∀ m ∈ file, m.2 = .null ∨ (∃ t, m.2 = .text t) ∨ m.2 = .int 2 := by
    simp [file]
  refine Disk.document_withSettings (.object file (by decide) fun m hm => ?_) ?_ (by decide)
  · rcases hentries m hm with hm | ⟨t, hm⟩ | hm
    · exact hm ▸ .null
    · exact hm ▸ .text t
    · exact hm ▸ .int 2 (by cbv)
  · rintro y (_ | _ | ⟨_, m, hm, hinside⟩)
    rcases hentries m hm with hm | ⟨t, hm⟩ | hm
    all_goals
      rw [hm] at hinside
      cases hinside

theorem given_environment : environment.given
    = [(Setting.key .apiKey, .text "new"), (Setting.key .concurrency, .int 7)] := by
  have hnumber : Whole.read (environment.value "CIVIT_CONCURRENCY").strip = .ok 7 := by cbv
  unfold Environment.given
  rw [hnumber]
  rfl

theorem takes (f : Setting) :
    configuration.Takes f (Configuration.given environment (.text " ann ") file options f) := by
  by_cases hf : f = .username
  · subst hf
    show ("ann" : Text) = Text.strip " ann "
    decide
  · rw [Configuration.given_apply hf, given_environment]
    cases f with
    | username => exact absurd rfl hf
    | limit =>
      show Json.whole? (.text " 3 ") = .ok 3
      cbv
    | _ => rfl

theorem created :
    (Configuration.create disk environment "config.json" (.text " ann ") options).2
      = .ok configuration := by
  rw [Configuration.create_eq_ok_iff (Layer.ofFile_of_document (by decide) document_disk)]
  exact Configuration.ofSettings?_eq_ok_iff.mpr
    ⟨rfl, ⟨by decide, by decide, by decide, by decide, .inr rfl⟩, takes⟩

/-- Ann's limit is the file's, of two exclusions in the file the later one counts, her key and the
number of downloads are the environment's, and the quality is the option's. -/
theorem create_takes_last_disagreement :
    (Configuration.create disk environment "config.json" (.text " ann ") options).2
        = .ok configuration
      ∧ configuration.Takes .limit (.text " 3 ") ∧ configuration.Takes .excludeTags (.text "cat")
      ∧ configuration.Takes .apiKey (.text "new") ∧ configuration.Takes .concurrency (.int 7)
      ∧ configuration.Takes .quality (.text "sd")
      ∧ configuration.Takes .output (Settings.defaults .output)
      ∧ Configuration.ofSettings? configuration.settings = .ok configuration := by
  obtain ⟨-, hlast, -, -, hagain⟩ :=
    Configuration.create_takes_last (by decide) document_disk created
  rw [given_environment] at hlast
  exact ⟨created, hlast .limit nofun, hlast .excludeTags nofun, hlast .apiKey nofun,
    hlast .concurrency nofun, hlast .quality nofun, hlast .output nofun, hagain⟩

end Disagreement

end GalleryScan
