import GalleryScan.Proofs.Json.Scalar
import GalleryScan.Proofs.Text.Utf8

/-!
# Values read back from what was written

A value written over several lines is read back:

> `x.Proper → (∀ y, x.HasReal y → ReadsBack y) → Json.read (x.written 0) = .ok x`

A value is proper if the names of each object in it are different and its whole numbers have no more
digits than are read; every value that was read is. What is to be known about the numbers with a
point is that each of them is read back by itself. The proof follows the value: whatever the level
and whatever comes after a comma or a line end, the reader takes exactly what was written.
-/

set_option autoImplicit false

namespace GalleryScan

namespace Json

/-- Names are unique in every object, and every whole number has few digits. -/
inductive Proper : Json → Prop where
  | null : Proper .null
  | bool (b : Bool) : Proper (.bool b)
  | int (n : Int) (few : FewDigits n) : Proper (.int n)
  | real (x : Double) : Proper (.real x)
  | text (t : Text) : Proper (.text t)
  | array (xs : List Json) (items : ∀ x ∈ xs, Proper x) : Proper (.array xs)
  | object (ms : List (Text × Json)) (names : (ms.map Prod.fst).Nodup)
      (values : ∀ m ∈ ms, Proper m.2) : Proper (.object ms)

/-- The number with a point occurs in the value. -/
inductive HasReal (y : Double) : Json → Prop where
  | here : HasReal y (.real y)
  | item (xs : List Json) (x : Json) (mem : x ∈ xs) (inside : HasReal y x) : HasReal y (.array xs)
  | member (ms : List (Text × Json)) (m : Text × Json) (mem : m ∈ ms) (inside : HasReal y m.2) :
      HasReal y (.object ms)

/-! ## What is written, without the pieces -/

/-- The text of a value whose first line is at a level. -/
def written (level : Nat) (x : Json) : Text := (x.pieces level).flatten

/-- What is written behind an item: each further one after a comma and a line end. -/
def moreItems (level : Nat) (xs : List Json) : Text :=
  xs.flatMap fun x => .scalar ',' :: newLine level ++ x.written level

/-- A member. -/
def writtenMember (level : Nat) (m : Text × Json) : Text :=
  writeText m.1 ++ .scalar ':' :: .scalar ' ' :: m.2.written level

/-- What is written behind a member. -/
def moreMembers (level : Nat) (ms : List (Text × Json)) : Text :=
  ms.flatMap fun m => .scalar ',' :: newLine level ++ writtenMember level m

theorem written_of_isAtom {x : Json} (h : x.isAtom = true) (level : Nat) :
    x.written level = x.writeAtom := by
  cases x with
  | array xs => cases h
  | object ms => cases h
  | _ => exact List.append_nil _

theorem flatten_itemPieces (level : Nat) (before : Text) (x : Json) (xs : List Json) :
    (itemPieces level before (x :: xs)).flatten
      = before ++ x.written level ++ moreItems level xs := by
  induction xs generalizing before x with
  | nil =>
    rw [itemPieces, itemPieces]
    cases hx : x.isAtom with
    | true => simp [written_of_isAtom hx, moreItems]
    | false => simp [written, moreItems]
  | cons y ys ih =>
    rw [itemPieces, List.flatten_append, ih]
    cases hx : x.isAtom with
    | true => simp [written_of_isAtom hx, moreItems, Text.ofString]
    | false => simp [written, moreItems, Text.ofString]

theorem flatten_memberPieces (level : Nat) (m : Text × Json) (ms : List (Text × Json)) :
    (memberPieces level (m :: ms)).flatten = writtenMember level m ++ moreMembers level ms := by
  induction ms generalizing m with
  | nil => simp [memberPieces, writtenMember, moreMembers, written, Text.ofString]
  | cons l ls ih =>
    rw [memberPieces, List.flatten_append, List.flatten_cons, List.flatten_cons, List.flatten_cons,
      ih]
    simp [writtenMember, moreMembers, written, Text.ofString]

theorem written_array (level : Nat) (x : Json) (xs : List Json) :
    written level (.array (x :: xs)) = .scalar '[' :: (newLine (level + 1)
      ++ (x.written (level + 1)
      ++ (moreItems (level + 1) xs ++ (newLine level ++ [.scalar ']'])))) := by
  rw [written, pieces, List.flatten_append, flatten_itemPieces]
  simp [Text.ofString]

theorem written_object (level : Nat) (m : Text × Json) (ms : List (Text × Json)) :
    written level (.object (m :: ms)) = .scalar '\x7b' :: (newLine (level + 1)
      ++ (writtenMember (level + 1) m
      ++ (moreMembers (level + 1) ms ++ (newLine level ++ [.scalar '\x7d'])))) := by
  rw [written, pieces, List.flatten_append, List.flatten_append, flatten_memberPieces]
  simp [Text.ofString]

/-! ## Texts -/

theorem hex4?_hex : ∀ n < 32, (Text.hex 4 n).length = 4 ∧ hex4? (Text.hex 4 n) = some n
    ∧ isLeading n = false := by decide

/-- The number of a control character, read back from the four digits of its escape. -/
theorem taken_readUnicode_control {c : CodePoint} (hc : c.val < 32) {t : Text} (ht : t ≠ [])
    (left : Nat) : taken (readUnicode left (Text.hex 4 c.val ++ t)) = .ok (c, t) := by
  obtain ⟨hlength, hvalue, hleading⟩ := hex4?_hex c.val hc
  have hpos : 0 < t.length := List.length_pos_iff.mpr ht
  have hhex : readHex left (Text.hex 4 c.val ++ t) = .ok c.val := by
    rw [readHex, if_neg (by rw [List.length_append, hlength]; omega), List.take_left' hlength,
      hvalue]
  have hdrop : (Text.hex 4 c.val ++ t).drop 4 = t := List.drop_left' hlength
  rw [readUnicode, hhex]
  dsimp only [bind, Except.bind]
  rw [hleading, Bool.false_and, if_neg (by decide)]
  show Except.ok (CodePoint.ofNat c.val, (Text.hex 4 c.val ++ t).drop 4) = _
  rw [hdrop, CodePoint.ofNat_val]

/-- A code point is written as an escape of one letter, as the escape of its number, or as it
is. -/
theorem inJson_cases (c : CodePoint) :
    (∃ d, d ≠ .scalar 'u' ∧ 32 ≤ d.val ∧ escaped? d = some c ∧ c.inJson = [.scalar '\\', d])
      ∨ (c.val < 32 ∧ c.inJson = .scalar '\\' :: .scalar 'u' :: Text.hex 4 c.val)
      ∨ (c ≠ .scalar '\x22' ∧ c ≠ .scalar '\\' ∧ 32 ≤ c.val ∧ c.inJson = [c]) := by
  unfold CodePoint.inJson
  split
  · rename_i hc
    subst hc
    exact .inl ⟨.scalar '\x22', by decide⟩
  split
  · rename_i hc
    subst hc
    exact .inl ⟨.scalar '\\', by decide⟩
  split
  · rename_i hc
    subst hc
    exact .inl ⟨.scalar 'n', by decide⟩
  split
  · rename_i hc
    subst hc
    exact .inl ⟨.scalar 'r', by decide⟩
  split
  · rename_i hc
    subst hc
    exact .inl ⟨.scalar 't', by decide⟩
  split
  · rename_i hc
    subst hc
    exact .inl ⟨.scalar 'b', by decide⟩
  split
  · rename_i hc
    subst hc
    exact .inl ⟨.scalar 'f', by decide⟩
  rename_i hquote hslash _ _ _ _ _
  split
  · rename_i hc
    exact .inr (.inl ⟨hc, rfl⟩)
  · rename_i hc
    exact .inr (.inr ⟨hquote, hslash, Nat.le_of_not_lt hc, rfl⟩)

/-- One code point, escaped or not, is read back. -/
theorem taken_readText_inJson {left : Nat} {c : CodePoint} {t r xs : Text}
    (h : taken (readText left t) = .ok (xs, r)) :
    taken (readText left (c.inJson ++ t)) = .ok (c :: xs, r) := by
  have ht : t ≠ [] := by
    rintro rfl
    rw [readText.eq_def] at h
    cases h
  rcases inJson_cases c with ⟨d, hu, _, hd, hshown⟩ | ⟨hc, hshown⟩ | ⟨hquote, hslash, hc, hshown⟩
  · rw [hshown]
    exact taken_readText_escape hu hd h
  · rw [hshown]
    exact taken_readText_unicode (taken_readUnicode_control hc ht _) h
  · rw [hshown]
    exact taken_readText_plain hquote hslash hc h

/-- A text is read back up to its closing quote. -/
theorem taken_readText_written (left : Nat) (t rest : Text) :
    taken (readText left (t.flatMap CodePoint.inJson ++ .scalar '\x22' :: rest))
      = .ok (t, rest) := by
  induction t with
  | nil => exact taken_readText_quote left rest
  | cons c t ih =>
    rw [List.flatMap_cons, List.append_assoc]
    exact taken_readText_inJson ih

theorem writeText_append (t rest : Text) : writeText t ++ rest
    = .scalar '\x22' :: (t.flatMap CodePoint.inJson ++ .scalar '\x22' :: rest) := by
  simp [writeText, Text.ofString]

/-! ## Fronts -/

/-- The front of a value that is read is none of the signs that the reader skips or that end an
array, an object or a file without a value. -/
theorem front_of_readValue {t r : Text} {x : Json} (h : taken (readValue t) = .ok (x, r)) :
    ∃ c u, t = c :: u ∧ isSpace c = false ∧ c ≠ .scalar ']' ∧ c ≠ .scalar '\x7d'
      ∧ c ≠ .scalar '\uFEFF' := by
  cases came_of_readValue h with
  | text u s front value => exact ⟨_, u, front, by decide⟩
  | noItems u front value => exact ⟨_, u, front, by decide⟩
  | items u xs front read value => exact ⟨_, u, front, by decide⟩
  | noMembers u front value => exact ⟨_, u, front, by decide⟩
  | members u ms front read value => exact ⟨_, u, front, by decide⟩
  | scalar hread =>
    cases t with
    | nil => cases hread
    | cons c u =>
      refine ⟨c, u, rfl, ?_, ?_, ?_, ?_⟩
      · cases hc : isSpace c with
        | false => rfl
        | true =>
          simp only [isSpace, Bool.or_eq_true, decide_eq_true_eq] at hc
          rcases hc with ((rfl | rfl) | rfl) | rfl <;> cases hread
      · rintro rfl
        cases hread
      · rintro rfl
        cases hread
      · rintro rfl
        cases hread

theorem skip_newLine (level : Nat) (t : Text) : skip (newLine level ++ t) = skip t := by
  have hspaces : ∀ n, skip (List.replicate n (CodePoint.scalar ' ') ++ t) = skip t := by
    intro n
    induction n with
    | zero => rfl
    | succ n ih => exact ih
  exact hspaces (2 * level)

theorem skip_of_readValue {t r : Text} {x : Json} (h : taken (readValue t) = .ok (x, r)) :
    skip t = t := by
  obtain ⟨c, u, rfl, hc, _⟩ := front_of_readValue h
  exact skip_of_not_isSpace hc

theorem closes_newLine (level : Nat) (t : Text) : Closes (newLine level ++ t) :=
  .inr ⟨_, _, rfl, .inr rfl⟩

theorem closes_comma (t : Text) : Closes (.scalar ',' :: t) := .inr ⟨_, _, rfl, .inl rfl⟩

theorem closes_moreItems (level outer : Nat) (xs : List Json) (t : Text) :
    Closes (moreItems level xs ++ (newLine outer ++ t)) := by
  cases xs with
  | nil => exact closes_newLine outer t
  | cons x xs =>
    rw [moreItems, List.flatMap_cons, List.append_assoc]
    exact closes_comma _

theorem closes_moreMembers (level outer : Nat) (ms : List (Text × Json)) (t : Text) :
    Closes (moreMembers level ms ++ (newLine outer ++ t)) := by
  cases ms with
  | nil => exact closes_newLine outer t
  | cons m ms =>
    rw [moreMembers, List.flatMap_cons, List.append_assoc]
    exact closes_comma _

/-! ## Parts -/

/-- The value is read back wherever it is written. -/
def Returns (x : Json) : Prop :=
  ∀ (level : Nat) (rest : Text), Closes rest →
    taken (readValue (x.written level ++ rest)) = .ok (x, rest)

/-- By induction on the further items: each is followed by a comma or by the last line end. -/
theorem taken_readItems_written {x : Json} {xs : List Json} (hx : Returns x)
    (hxs : ∀ y ∈ xs, Returns y) (level outer : Nat) (rest : Text) :
    taken (readItems (x.written level ++ (moreItems level xs
      ++ (newLine outer ++ .scalar ']' :: rest)))) = .ok (x :: xs, rest) := by
  have hread := hx level _ (closes_moreItems level outer xs (.scalar ']' :: rest))
  induction xs generalizing x with
  | nil => exact taken_readItems_last hread (skip_newLine outer _)
  | cons y ys ih =>
    have hy := hxs y (List.mem_cons_self ..)
    have hfront := hy level _ (closes_moreItems level outer ys (.scalar ']' :: rest))
    have hmore : moreItems level (y :: ys) ++ (newLine outer ++ .scalar ']' :: rest)
        = .scalar ',' :: (newLine level ++ (y.written level ++ (moreItems level ys
          ++ (newLine outer ++ .scalar ']' :: rest)))) := by
      simp [moreItems]
    rw [hmore] at hread ⊢
    apply taken_readItems_more hread rfl
    rw [skip_newLine, skip_of_readValue hfront]
    exact ih hy (fun z hz => hxs z (List.mem_cons_of_mem _ hz)) hfront

theorem member_written {m : Text × Json} (hm : Returns m.2) (level : Nat) {rest : Text}
    (hrest : Closes rest) : Member (writtenMember level m ++ rest) m.1 m.2 rest := by
  have hread := hm level rest hrest
  refine ⟨m.1.flatMap CodePoint.inJson
    ++ .scalar '\x22' :: .scalar ':' :: .scalar ' ' :: (m.2.written level ++ rest),
    .scalar ':' :: .scalar ' ' :: (m.2.written level ++ rest),
    .scalar ' ' :: (m.2.written level ++ rest), ?_, taken_readText_written _ _ _, rfl, ?_⟩
  · rw [writtenMember, List.append_assoc, writeText_append]
    rfl
  · show taken (readValue (skip (m.2.written level ++ rest))) = _
    rw [skip_of_readValue hread, hread]

theorem skip_writtenMember (level : Nat) (m : Text × Json) (t : Text) :
    skip (writtenMember level m ++ t) = writtenMember level m ++ t := by
  rw [writtenMember, List.append_assoc, writeText_append]
  rfl

theorem taken_readMembers_written {m : Text × Json} {ms : List (Text × Json)} (hm : Returns m.2)
    (hms : ∀ l ∈ ms, Returns l.2) (level outer : Nat) (rest : Text) :
    taken (readMembers (writtenMember level m ++ (moreMembers level ms
      ++ (newLine outer ++ .scalar '\x7d' :: rest)))) = .ok (m :: ms, rest) := by
  have hread := member_written hm level
    (closes_moreMembers level outer ms (.scalar '\x7d' :: rest))
  induction ms generalizing m with
  | nil => exact taken_readMembers_last hread (skip_newLine outer _)
  | cons l ls ih =>
    have hl := hms l (List.mem_cons_self ..)
    have hfront := member_written hl level
      (closes_moreMembers level outer ls (.scalar '\x7d' :: rest))
    have hmore : moreMembers level (l :: ls) ++ (newLine outer ++ .scalar '\x7d' :: rest)
        = .scalar ',' :: (newLine level ++ (writtenMember level l ++ (moreMembers level ls
          ++ (newLine outer ++ .scalar '\x7d' :: rest)))) := by
      simp [moreMembers]
    rw [hmore] at hread ⊢
    apply taken_readMembers_more hread rfl
    rw [skip_newLine, skip_writtenMember]
    exact ih hl (fun z hz => hms z (List.mem_cons_of_mem _ hz)) hfront

/-! ## Values -/

theorem setMember_of_notMem {k : Text} {x : Json} {ms : List (Text × Json)}
    (h : k ∉ ms.map Prod.fst) : setMember k x ms = ms ++ [(k, x)] := by
  induction ms with
  | nil => rfl
  | cons m ms ih =>
    rw [List.map_cons, List.mem_cons, not_or] at h
    rw [setMember, if_neg (Ne.symm h.1), ih h.2]
    rfl

/-- Members whose names are different stay as they are. -/
theorem ofMembers_of_nodup {ms : List (Text × Json)} (h : (ms.map Prod.fst).Nodup) :
    ofMembers ms = ms := by
  have hfold : ∀ before : List (Text × Json), ((before ++ ms).map Prod.fst).Nodup →
      ms.foldl (fun ms m => setMember m.1 m.2 ms) before = before ++ ms := by
    clear h
    induction ms with
    | nil =>
      intro before _
      exact (List.append_nil before).symm
    | cons m ms ih =>
      intro before h
      have hm : m.1 ∉ before.map Prod.fst := by
        rw [List.map_append, List.map_cons, List.nodup_append] at h
        intro hb
        exact h.2.2 _ hb _ (List.mem_cons_self ..) rfl
      rw [List.foldl_cons, setMember_of_notMem hm, ih]
      · simp
      · simpa using h
  exact hfold [] h

theorem returns_array {xs : List Json} (h : ∀ x ∈ xs, Returns x) : Returns (.array xs) := by
  intro level rest _
  cases xs with
  | nil => exact taken_readValue_noItems rfl
  | cons x xs =>
    have hx := h x (List.mem_cons_self ..)
    have hfront := hx (level + 1) _ (closes_moreItems (level + 1) level xs (.scalar ']' :: rest))
    have hitems := taken_readItems_written hx (fun y hy => h y (List.mem_cons_of_mem _ hy))
      (level + 1) level rest
    have htext : written level (.array (x :: xs)) ++ rest = .scalar '[' :: (newLine (level + 1)
        ++ (x.written (level + 1) ++ (moreItems (level + 1) xs
        ++ (newLine level ++ .scalar ']' :: rest)))) := by
      rw [written_array]
      simp
    rw [htext]
    apply taken_readValue_items
    · rw [skip_newLine, skip_of_readValue hfront]
      obtain ⟨c, u, hcu, _, hc, _⟩ := front_of_readValue hfront
      rw [hcu]
      exact head?_ne hc
    · rw [skip_newLine, skip_of_readValue hfront]
      exact hitems

theorem returns_object {ms : List (Text × Json)} (hnames : (ms.map Prod.fst).Nodup)
    (h : ∀ m ∈ ms, Returns m.2) : Returns (.object ms) := by
  intro level rest _
  cases ms with
  | nil => exact taken_readValue_noMembers rfl
  | cons m ms =>
    have hmembers := taken_readMembers_written (h m (List.mem_cons_self ..))
      (fun l hl => h l (List.mem_cons_of_mem _ hl)) (level + 1) level rest
    have htext : written level (.object (m :: ms)) ++ rest = .scalar '\x7b'
        :: (newLine (level + 1) ++ (writtenMember (level + 1) m ++ (moreMembers (level + 1) ms
        ++ (newLine level ++ .scalar '\x7d' :: rest)))) := by
      rw [written_object]
      simp
    rw [htext, ← ofMembers_of_nodup hnames]
    apply taken_readValue_members
    · rw [skip_newLine, skip_writtenMember, writtenMember, List.append_assoc, writeText_append]
      exact head?_ne (by decide)
    · rw [skip_newLine, skip_writtenMember]
      exact hmembers

/-- By induction on what is proper about the value. -/
theorem Proper.returns {x : Json} (h : x.Proper) (hreals : ∀ y, x.HasReal y → ReadsBack y) :
    Returns x := by
  have hatom : ∀ y : Json, y.isAtom = true → readScalar y.writeAtom = .ok (y, []) → Returns y := by
    intro y hy hread level rest hrest
    rw [written_of_isAtom hy]
    exact taken_readValue_closed hrest hread
  induction h with
  | null => exact hatom _ rfl rfl
  | bool b => cases b <;> exact hatom _ rfl rfl
  | int n few => exact hatom _ rfl (readScalar_ofInt few)
  | real y => exact hatom _ rfl (hreals y .here).readScalar
  | text t =>
    intro level rest _
    rw [written_of_isAtom rfl, writeAtom, writeText_append]
    exact taken_readValue_text (taken_readText_written _ t rest)
  | array xs items ih =>
    apply returns_array
    intro x hx
    exact ih x hx fun y hy => hreals y (.item _ x hx hy)
  | object ms names values ih =>
    apply returns_object names
    intro m hm
    exact ih m hm fun y hy => hreals y (.member _ m hm hy)

/-- A text from which the reader takes a value to the end is read as that value. -/
theorem read_of_taken {t : Text} {x : Json} (h : taken (readValue t) = .ok (x, [])) :
    read t = .ok x := by
  obtain ⟨c, u, hcu, _, _, _, hmark⟩ := front_of_readValue h
  have hhead : t.head? ≠ some (.scalar '\uFEFF') := by
    rw [hcu]
    exact head?_ne hmark
  have hskipped : taken (readValue (skip t)) = .ok (x, []) := by
    rw [skip_of_readValue h]
    exact h
  obtain ⟨hr, hskipped⟩ := taken_eq_ok hskipped
  have hall : readAll t = .ok x := by
    rw [readAll, if_neg hhead, hskipped]
    rfl
  rw [read, hall]

/-- A proper value is read back from its text. -/
theorem Proper.read_written {x : Json} (h : x.Proper)
    (hreals : ∀ y, x.HasReal y → ReadsBack y) : read (x.written 0) = .ok x := by
  have hread := h.returns hreals 0 [] (.inl rfl)
  rw [List.append_nil] at hread
  exact read_of_taken hread

end Json

end GalleryScan
