import GalleryScan.Proofs.Text.Pieces
import GalleryScan.Proofs.Web.Escapes
import GalleryScan.Web.Address
import Mathlib.Data.List.Forall2

/-!
# The query of an address

What stands behind the question mark of an address is its query, and a query gives back the pairs
that it spells, in their order and without those that have no value:

> `Parameters.SpellsAll pairs query → Parameters.ofQuery query = pairs.filter (·.2 ≠ [])`

No sign of a spelling parts anything, so that a query comes apart where its pairs were put together.
-/

set_option autoImplicit false

namespace GalleryScan

/-! ## Pairs -/

namespace Parameters

/-- A name and a value as a query spells them, with an equals sign between the two. -/
def SpellsPair (pair : Text × Text) (piece : Text) : Prop :=
  ∃ name value, Spells pair.1 name ∧ Spells pair.2 value
    ∧ piece = name ++ CodePoint.scalar '=' :: value

/-- Pairs as a query spells them, with an ampersand between each two. -/
def SpellsAll (pairs : List (Text × Text)) (query : Text) : Prop :=
  ∃ pieces, List.Forall₂ SpellsPair pairs pieces
    ∧ query = Text.join [CodePoint.scalar '&'] pieces

variable {pairs : List (Text × Text)} {pair : Text × Text} {piece query : Text}

/-- A sign of a query: one of a spelling, or one of the two that part spellings. -/
def IsSign (c : CodePoint) : Prop :=
  c.isSpelling = true ∨ c = .scalar '=' ∨ c = .scalar '&'

theorem IsSign.ne {c d : CodePoint} (h : IsSign c) (hspelling : d.isSpelling = false)
    (heq : d ≠ .scalar '=') (hand : d ≠ .scalar '&') : c ≠ d := by
  rcases h with h | rfl | rfl
  · exact CodePoint.ne_of_isSpelling h hspelling
  · exact heq.symm
  · exact hand.symm

theorem SpellsPair.mem (h : SpellsPair pair piece) {c : CodePoint} (hc : c ∈ piece) :
    c.isSpelling = true ∨ c = .scalar '=' := by
  obtain ⟨name, value, hname, hvalue, rfl⟩ := h
  rw [List.mem_append, List.mem_cons] at hc
  rcases hc with hc | hc | hc
  · exact .inl (hname.isSpelling c hc)
  · exact .inr hc
  · exact .inl (hvalue.isSpelling c hc)

theorem exists_pair {pieces : List Text} (h : List.Forall₂ SpellsPair pairs pieces)
    (hpiece : piece ∈ pieces) : ∃ pair, SpellsPair pair piece := by
  induction h with
  | nil => cases hpiece
  | cons hfirst _ ih =>
    rcases List.mem_cons.mp hpiece with rfl | hpiece
    · exact ⟨_, hfirst⟩
    · exact ih hpiece

theorem SpellsAll.isSign (h : SpellsAll pairs query) : ∀ c ∈ query, IsSign c := by
  obtain ⟨pieces, hpieces, rfl⟩ := h
  intro c hc
  rcases Text.mem_join hc with rfl | ⟨piece, hpiece, hc⟩
  · exact .inr (.inr rfl)
  · obtain ⟨pair, hpair⟩ := exists_pair hpieces hpiece
    exact (hpair.mem hc).imp id .inl

/-- A pair is read back, unless its value is empty. -/
theorem SpellsPair.pair? (h : SpellsPair pair piece) :
    Parameters.pair? piece = if pair.2 = [] then none else some pair := by
  obtain ⟨name, value, hname, hvalue, rfl⟩ := h
  have hcut : Text.cut (.scalar '=') (name ++ .scalar '=' :: value) = (name, some value) :=
    Text.cut_append_separator
      (fun hmem => CodePoint.ne_of_isSpelling (hname.isSpelling _ hmem) (by decide) rfl) value
  rw [Parameters.pair?, hcut]
  cases value with
  | nil => rw [if_pos (hvalue.eq_nil_iff.mp rfl)]
  | cons c value =>
    rw [if_neg fun hnil => List.cons_ne_nil c value (hvalue.eq_nil_iff.mpr hnil)]
    show some (decoded name, decoded (c :: value)) = some pair
    rw [hname.decoded, hvalue.decoded]

theorem filterMap_pieces {pieces : List Text} (h : List.Forall₂ SpellsPair pairs pieces) :
    pieces.filterMap Parameters.pair? = pairs.filter (·.2 ≠ []) := by
  induction h with
  | nil => rfl
  | @cons pair piece pairs pieces hpair _ ih =>
    rw [List.filterMap_cons, hpair.pair?, ih]
    by_cases hvalue : pair.2 = []
    · simp [hvalue]
    · simp [hvalue]

/-- A query gives back the pairs that it spells, those without a value left out. -/
theorem SpellsAll.ofQuery (h : SpellsAll pairs query) :
    Parameters.ofQuery query = pairs.filter (·.2 ≠ []) := by
  obtain ⟨pieces, hpieces, rfl⟩ := h
  have hnone : ∀ piece ∈ pieces, CodePoint.scalar '&' ∉ piece := by
    intro piece hpiece hmem
    obtain ⟨pair, hpair⟩ := exists_pair hpieces hpiece
    rcases hpair.mem hmem with h | h
    · exact CodePoint.ne_of_isSpelling h (by decide) rfl
    · cases h
  rw [Parameters.ofQuery]
  cases pieces with
  | nil =>
    cases hpieces
    rfl
  | cons piece pieces =>
    rw [Text.splitOn_join (List.cons_ne_nil piece pieces) hnone, filterMap_pieces hpieces]

/-- Of several pairs with one name the last one counts. -/
theorem last?_append_cons {name value : Text} {before after : List (Text × Text)}
    (h : ∀ p ∈ after, p.1 ≠ name) :
    last? name (before ++ (name, value) :: after) = some value := by
  have hafter : after.reverse.lookup name = none := by
    rw [List.lookup_eq_none_iff]
    intro p hp
    rw [bne_iff_ne]
    exact (h p (List.mem_reverse.mp hp)).symm
  rw [last?, List.reverse_append, List.reverse_cons, List.append_assoc, List.lookup_append, hafter]
  simp

end Parameters

/-! ## Addresses -/

namespace Address

/-- A host that an address can name: no sign of it ends it or counts for nothing, and it is not
refused for its brackets or its letters. -/
structure IsHost (host : Text) : Prop where
  whole : ∀ c ∈ host, endsHost c = false ∧ isSoft c = false
  brackets : checkBrackets host = .ok ()
  normal : checkNormal host = .ok ()

/-- A host without brackets, whose letters are their own normal form. -/
theorem isHost_of_plain {host : Text} (h : ∀ c ∈ host, endsHost c = false ∧ isSoft c = false
    ∧ c ≠ .scalar '[' ∧ c ≠ .scalar ']' ∧ turnsIntoDelimiter c = false) : IsHost host := by
  refine ⟨fun c hc => ⟨(h c hc).1, (h c hc).2.1⟩, ?_, ?_⟩
  · have hopen : host.contains (.scalar '[') = false := by
      rw [← Bool.not_eq_true, List.contains_iff_mem]
      exact fun hmem => (h _ hmem).2.2.1 rfl
    have hclose : host.contains (.scalar ']') = false := by
      rw [← Bool.not_eq_true, List.contains_iff_mem]
      exact fun hmem => (h _ hmem).2.2.2.1 rfl
    rw [checkBrackets, hopen, hclose]
  · have hnone : host.any turnsIntoDelimiter = false := by
      rw [List.any_eq_false]
      exact fun c hc => Bool.not_eq_true _ ▸ (h c hc).2.2.2.2
    rw [checkNormal, hnone, if_neg Bool.false_ne_true]

theorem clean_https (t : Text) :
    clean ("https://" ++ t) = "https://" ++ t.filter (!isSoft ·) := by
  have hfront : (Text.ofString "https://" ++ t).dropWhile isPadding
      = Text.ofString "https://" ++ t := List.dropWhile_cons_of_neg (by decide)
  rw [clean, hfront, List.filter_append]
  rfl

theorem afterScheme_https (t : Text) : afterScheme ("https://" ++ t) = "//" ++ t := by
  have hcut : Text.cut (.scalar ':') ("https://" ++ t)
      = (Text.ofString "https", some ("//" ++ t)) :=
    Text.cut_append_separator (p := Text.ofString "https") (by decide) ("//" ++ t)
  rw [afterScheme, hcut]
  rfl

/-- A host ends where the path begins. -/
theorem splitHost_slash {host : Text} (h : ∀ c ∈ host, endsHost c = false) (t : Text) :
    splitHost ("//" ++ (host ++ .scalar '/' :: t)) = (host, .scalar '/' :: t) := by
  have hall : ∀ c ∈ host, (!endsHost c) = true := fun c hc => by rw [h c hc]; rfl
  show ((host ++ .scalar '/' :: t).takeWhile (!endsHost ·),
    (host ++ .scalar '/' :: t).dropWhile (!endsHost ·)) = _
  rw [List.takeWhile_append_of_pos hall, List.dropWhile_append_of_pos hall,
    List.takeWhile_cons_of_neg (by decide), List.dropWhile_cons_of_neg (by decide),
    List.append_nil]

theorem isSoft_of_isSign {c : CodePoint} (h : Parameters.IsSign c) : isSoft c = false := by
  have hne : ∀ d ∈ [CodePoint.scalar '\t', .scalar '\r', .scalar '\n'], c ≠ d := by
    intro d hd
    refine h.ne ?_ ?_ ?_
    all_goals
      revert d
      decide
  simp only [List.forall_mem_cons] at hne
  simp [isSoft, hne.1, hne.2.1, hne.2.2.1]

/-- The query is what stands behind the question mark. -/
theorem query_https {host path query : Text} (hhost : IsHost host)
    (hpath : ∀ c ∈ path, c ≠ .scalar '?' ∧ c ≠ .scalar '#')
    (hquery : ∀ c ∈ query, Parameters.IsSign c) :
    Address.query ("https://" ++ (host ++ "/" ++ path ++ "?" ++ query)) = .ok query := by
  -- Of the path some signs may count for nothing; what is left of it parts nothing either.
  have hkept : ∀ c ∈ path.filter (!isSoft ·), c ≠ .scalar '?' ∧ c ≠ .scalar '#' :=
    fun c hc => hpath c (List.mem_of_mem_filter hc)
  have hfiltered : (host ++ "/" ++ path ++ "?" ++ query).filter (!isSoft ·)
      = host ++ .scalar '/' :: (path.filter (!isSoft ·) ++ .scalar '?' :: query) := by
    have hsoft : ∀ t : Text, (∀ c ∈ t, isSoft c = false) → t.filter (!isSoft ·) = t :=
      fun t ht => List.filter_eq_self.mpr fun c hc => by rw [ht c hc]; rfl
    rw [List.filter_append, List.filter_append, List.filter_append, List.filter_append,
      hsoft host fun c hc => (hhost.whole c hc).2,
      hsoft query fun c hc => isSoft_of_isSign (hquery c hc)]
    simp only [List.append_assoc]
    rfl
  generalize path.filter (!isSoft ·) = kept at hkept hfiltered
  have hfragment :
      CodePoint.scalar '#' ∉ CodePoint.scalar '/' :: (kept ++ .scalar '?' :: query) := by
    intro hmem
    rw [List.mem_cons, List.mem_append, List.mem_cons] at hmem
    rcases hmem with h | h | h | h
    · cases h
    · exact (hkept _ h).2 rfl
    · cases h
    · exact (hquery _ h).ne (by decide) (by decide) (by decide) rfl
  have hmark : CodePoint.scalar '?' ∉ CodePoint.scalar '/' :: kept := by
    intro hmem
    rcases List.mem_cons.mp hmem with h | h
    · cases h
    · exact (hkept _ h).1 rfl
  rw [Address.query, clean_https, hfiltered, afterScheme_https,
    splitHost_slash fun c hc => (hhost.whole c hc).1]
  dsimp only
  rw [hhost.brackets, hhost.normal]
  show Except.ok (((Text.cut _ (Text.cut _ _).1).2).getD []) = _
  rw [Text.cut_of_notMem hfragment, ← List.cons_append, Text.cut_append_separator hmark]
  rfl

end Address

end GalleryScan
