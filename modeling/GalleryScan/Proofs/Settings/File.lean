import GalleryScan.Proofs.Disk.Changing
import GalleryScan.Proofs.Disk.Spelling
import GalleryScan.Proofs.Json.Stopping
import GalleryScan.Settings.Source
import Mathlib

/-!
# What a settings file comes to

Whatever there is under the name of a settings file, loading it gives the members of the JSON object
that it holds, or no settings: a file that is missing or holds something empty is passed over, and
one that is malformed or holds something else is reported:

> `(∀ stop, (ofFile d path).2 = .error stop ↔ Obstructs d path stop)`
> `∧ ∀ r, ofFile d path = r ↔ Settles d path r`

Two things are not reported but end the run: bytes that no text is written in, and a whole number of
too many digits.
-/

set_option autoImplicit false

namespace GalleryScan

/-! ## The file and its text -/

/-- There is a file with this content at the path, as it is seen from the working folder. -/
def Disk.HasContent (d : Disk) (path : Text) (content : Bytes) : Prop :=
  path ≠ [] ∧ d.at? (Path.absolute d.herePath path) = some (.file content)

/-- The file holds the bytes of a text, and this is what reading the text as JSON comes to. -/
def Disk.Reads (d : Disk) (path : Text) (outcome : Except JsonError Json) : Prop :=
  ∃ (content : Bytes) (t : Text), d.HasContent path content ∧ t.encode = .ok content
    ∧ Json.read t.withLineFeeds = outcome

namespace Layer

/-- What there is in a settings file that ends a run: bytes that are no text's, or a whole number of
too many digits. -/
inductive Obstructs (d : Disk) (path : Text) : FileStop → Prop where
  | undecodable (content : Bytes) (fault : DecodeFault) (there : d.HasContent path content)
      (none : ∀ t : Text, t.encode ≠ .ok content) (first : content.decode = .error fault) :
      Obstructs d path (.undecodable fault)
  | tooLong (content : Bytes) (t : Text) (digits : Nat) (there : d.HasContent path content)
      (text : t.encode = .ok content) (number : t.withLineFeeds.HasLongWhole digits)
      (first : Json.read t.withLineFeeds = .error (.tooLong digits)) :
      Obstructs d path (.tooLong digits)

/-- What is told about a settings file, and the settings it gives, or what ends the run. -/
inductive Settles (d : Disk) (path : Text) : Log × Except FileStop Layer → Prop where
  | absent (none : ∀ content, ¬ d.HasContent path content) : Settles d path ([], .ok [])
  | object (members : Layer) (read : d.Reads path (.ok (.object members))) :
      Settles d path ([.line ("[*] Loaded config from: " ++ path)], .ok members)
  | empty (x : Json) (read : d.Reads path (.ok x)) (other : ∀ members, x ≠ .object members)
      (falsy : x.isTruthy = false) :
      Settles d path ([.line ("[*] Loaded config from: " ++ path)], .ok [])
  | noObject (x : Json) (read : d.Reads path (.ok x)) (other : ∀ members, x ≠ .object members)
      (truthy : x.isTruthy = true) :
      Settles d path ([unusable ("expected an object in " ++ path)], .ok [])
  | malformed (error : JsonError) (read : d.Reads path (.error error))
      (short : ∀ digits, error ≠ .tooLong digits) :
      Settles d path ([unusable error.message], .ok [])
  | stopped (stop : FileStop) (obstructed : Obstructs d path stop) : Settles d path ([], .error stop)

variable {d : Disk} {path : Text} {content : Bytes}

/-! ## What is loaded -/

theorem ofFile_of_absent (h : ∀ content, ¬ d.HasContent path content) :
    ofFile d path = ([], .ok []) := by
  rw [ofFile]
  dsimp only
  rw [if_pos]
  rw [Bool.or_eq_true, decide_eq_true_eq, Bool.not_eq_true']
  by_cases hpath : path = []
  · exact .inl hpath
  right
  cases hfile : d.hasFile (Path.absolute d.herePath path) with
  | false => rfl
  | true =>
    rw [Disk.hasFile] at hfile
    split at hfile
    · rename_i content hentry
      exact absurd ⟨hpath, hentry⟩ (h content)
    · cases hfile

theorem ofFile_of_hasContent (h : d.HasContent path content) : ofFile d path
    = match content.document with
      | .ok x => ((ofDocument path x).1, .ok (ofDocument path x).2)
      | .error (.undecodable fault) => ([], .error (.undecodable fault))
      | .error (.malformed (.tooLong digits)) => ([], .error (.tooLong digits))
      | .error fault => ([unusable fault.message], .ok []) := by
  obtain ⟨hpath, hentry⟩ := h
  have hread := Disk.read_eq_ok_iff.mpr hentry
  have hdocument : d.document (Path.absolute d.herePath path) = content.document := by
    rw [Disk.document, hread]
  have hthere : ¬ (path = [] || !d.hasFile (Path.absolute d.herePath path)) = true := by
    rw [Disk.hasFile_of_read hread, Bool.not_true, Bool.or_false, decide_eq_true_eq]
    exact hpath
  rw [← hdocument]
  exact if_neg hthere

theorem ofFile_of_undecodable {fault : DecodeFault} (h : d.HasContent path content)
    (hfault : content.decode = .error fault) :
    ofFile d path = ([], .error (.undecodable fault)) := by
  rw [ofFile_of_hasContent h, Bytes.document, hfault]

theorem ofFile_of_reads {outcome : Except JsonError Json} :
    d.Reads path outcome → ofFile d path = match outcome with
      | .ok x => ((ofDocument path x).1, .ok (ofDocument path x).2)
      | .error (.tooLong digits) => ([], .error (.tooLong digits))
      | .error e => ([unusable e.message], .ok []) := by
  rintro ⟨content, t, hthere, hencode, hread⟩
  rw [ofFile_of_hasContent hthere, Bytes.document, Bytes.decode_eq_ok_iff.mpr hencode]
  dsimp only
  rw [hread]
  cases outcome with
  | ok x => rfl
  | error e => cases e <;> rfl

/-- What is not an object gives no settings. -/
theorem ofDocument_of_other {x : Json} (h : ∀ members, x ≠ .object members) : ofDocument path x
    = if x.isTruthy then ([unusable ("expected an object in " ++ path)], [])
      else ([.line ("[*] Loaded config from: " ++ path)], []) := by
  cases x with
  | object members => exact absurd rfl (h members)
  | _ => rfl

theorem settles_ofFile (d : Disk) (path : Text) : Settles d path (ofFile d path) := by
  by_cases hthere : ∃ content, d.HasContent path content
  · obtain ⟨content, hthere⟩ := hthere
    cases hdecode : content.decode with
    | error fault =>
      rw [ofFile_of_undecodable hthere hdecode]
      refine .stopped _ (.undecodable content fault hthere (fun t ht => ?_) hdecode)
      cases hdecode.symm.trans (Bytes.decode_eq_ok_iff.mpr ht)
    | ok t =>
      have hencode := Bytes.decode_eq_ok_iff.mp hdecode
      have hreads : d.Reads path (Json.read t.withLineFeeds) := ⟨content, t, hthere, hencode, rfl⟩
      rw [ofFile_of_reads hreads]
      cases hread : Json.read t.withLineFeeds with
      | error e =>
        rw [hread] at hreads
        cases e with
        | tooLong digits =>
          exact .stopped _ (.tooLong content t digits hthere hencode
            (Json.hasLongWhole_of_read hread) hread)
        | malformed kind line column position => exact .malformed _ hreads nofun
      | ok x =>
        rw [hread] at hreads
        by_cases hobject : ∃ members, x = .object members
        · obtain ⟨members, rfl⟩ := hobject
          exact .object members hreads
        · have hother : ∀ members, x ≠ .object members := fun members h => hobject ⟨members, h⟩
          dsimp only
          rw [ofDocument_of_other hother]
          cases htruthy : x.isTruthy with
          | true => exact .noObject x hreads hother htruthy
          | false => exact .empty x hreads hother htruthy
  · rw [ofFile_of_absent (not_exists.mp hthere)]
    exact .absent (not_exists.mp hthere)

theorem Obstructs.ofFile_eq {stop : FileStop} (h : Obstructs d path stop) :
    ofFile d path = ([], .error stop) := by
  cases h with
  | undecodable content fault there none first => exact ofFile_of_undecodable there first
  | tooLong content t digits there text number first =>
    exact ofFile_of_reads ⟨content, t, there, text, first⟩

/-- There is only one thing that loading the file comes to. -/
theorem Settles.ofFile_eq {r : Log × Except FileStop Layer} (h : Settles d path r) :
    ofFile d path = r := by
  cases h with
  | absent none => exact ofFile_of_absent none
  | object members read => exact ofFile_of_reads read
  | empty x read other falsy =>
    rw [ofFile_of_reads read]
    dsimp only
    rw [ofDocument_of_other other, falsy]
    rfl
  | noObject x read other truthy =>
    rw [ofFile_of_reads read]
    dsimp only
    rw [ofDocument_of_other other, truthy]
    rfl
  | malformed error read short =>
    rw [ofFile_of_reads read]
    cases error with
    | malformed kind line column position => rfl
    | tooLong digits => exact absurd rfl (short digits)
  | stopped stop obstructed => exact obstructed.ofFile_eq

theorem ofFile_eq_error_iff {stop : FileStop} :
    (ofFile d path).2 = .error stop ↔ Obstructs d path stop := by
  constructor
  · intro h
    have hsettles := settles_ofFile d path
    rcases hfile : ofFile d path with ⟨log, result⟩
    rw [hfile] at h hsettles
    obtain rfl : result = .error stop := h
    cases hsettles with
    | stopped _ obstructed => exact obstructed
  · intro h
    rw [h.ofFile_eq]

/-- Loading a settings file ends the run just where the file obstructs it, and otherwise gives the
settings of the object in it, or none; and what is told goes by what is in the file. -/
theorem ofFile_settles (d : Disk) (path : Text) :
    (∀ stop, (ofFile d path).2 = .error stop ↔ Obstructs d path stop)
      ∧ ∀ r, ofFile d path = r ↔ Settles d path r :=
  ⟨fun _ => ofFile_eq_error_iff, fun _ => ⟨fun h => h ▸ settles_ofFile d path, Settles.ofFile_eq⟩⟩

end Layer

/-! ## Bytes that are no text's -/

namespace BadByte

def disk : Disk := ⟨[], [(["config.json"], .file [0xFF])]⟩

theorem hasContent_disk : disk.HasContent "config.json" [0xFF] :=
  ⟨by decide, by decide +kernel⟩

theorem decode_badByte : Bytes.decode [0xFF] = .error ⟨0xFF, 0, 1, .start⟩ := by cbv

/-- Not every bad settings file is ignored. -/
theorem not_all_ignored : ¬ ∀ (d : Disk) (path : Text),
    ∃ layer, (Layer.ofFile d path).2 = .ok layer := by
  intro h
  obtain ⟨layer, hlayer⟩ := h disk "config.json"
  rw [Layer.ofFile_of_undecodable hasContent_disk decode_badByte] at hlayer
  cases hlayer

end BadByte

end GalleryScan
