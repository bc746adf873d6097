import GalleryScan.Gallery.Page
import GalleryScan.Proofs.Json.Scalar
import GalleryScan.Proofs.Web.Query

/-!
# Where a listing goes on

A listing tells the mark at which it goes on by itself, or hides it among the parameters of the
address of its next page. From there it is read back as it is, whichever signs it holds, however the
address spells it and whatever parameters stand around it:

> `Parameters.SpellsAll (before ++ ("cursor", c) :: after) query → … →
>   Page.cursorOf metadata = .ok (some c)`

And no page has an empty mark, which would take the listing back to its start.
-/

set_option autoImplicit false

namespace GalleryScan

/-! ## What shows of a value -/

theorem NumberFormat.digits_ne_nil (f : NumberFormat) (mantissa : Nat) (exponent : Int) :
    f.digits mantissa exponent ≠ [] := by
  unfold digits
  split
  · decide
  · dsimp only
    split
    · unfold positional
      split
      · simp
      · simp
    · simp [scientific]

theorem NumberFormat.write_message_ne_nil (x : Double) : NumberFormat.message.write x ≠ [] := by
  cases x with
  | nan => decide
  | infinity negative => exact List.append_ne_nil_of_right_ne_nil _ (by decide)
  | finite negative mantissa exponent canonical =>
    refine List.append_ne_nil_of_right_ne_nil _ ?_
    rw [ne_eq, List.map_eq_nil_iff]
    exact NumberFormat.message.digits_ne_nil mantissa exponent

/-- Of what counts as present, something shows. -/
theorem Json.plain_ne_nil {x : Json} (h : x.isTruthy = true) : x.plain ≠ [] := by
  cases x with
  | null => cases h
  | bool b =>
    cases b with
    | false => cases h
    | true => decide
  | int n =>
    cases n with
    | ofNat n => exact ofNat_ne_nil n
    | negSucc n => exact List.cons_ne_nil _ _
  | real x => exact NumberFormat.write_message_ne_nil x
  | text t => exact of_decide_eq_true h
  | array items =>
    rw [Json.plain, Json.shown]
    · exact List.append_ne_nil_of_right_ne_nil _ (by decide)
    · exact nofun
  | object members =>
    rw [Json.plain, Json.shown]
    · exact List.append_ne_nil_of_right_ne_nil _ (by decide)
    · exact nofun

namespace Page

variable {metadata : Json} {cursor : Option Text}

/-- The mark of a page is not empty. -/
theorem ne_empty_of_cursorOf (h : Page.cursorOf metadata = .ok cursor) : cursor ≠ some [] := by
  rintro rfl
  unfold cursorOf at h
  dsimp only at h
  split at h
  · rename_i htruthy
    cases hplain : (metadata.get "nextCursor").plain with
    | nil => exact Json.plain_ne_nil htruthy hplain
    | cons c t =>
      rw [hplain] at h
      cases h
  split at h
  · cases hquery : Address.query (metadata.get "nextPage").plain with
    | error fault =>
      rw [hquery] at h
      cases h
    | ok query =>
      rw [hquery] at h
      have hfilter : (Parameters.last? "cursor" (Parameters.ofQuery query)).filter (· ≠ [])
          = some [] := Except.ok.inj h
      have hne := (Option.filter_eq_some_iff.mp hfilter).2
      simp at hne
  · cases h

/-- The mark is read back from the address of the next page. What spells it there, and which other
parameters there are, does not matter, as long as no later one goes by its name; and a page never
has an empty mark. -/
theorem cursorOf_nextPage :
    (∀ (metadata : Json) (host path query c : Text) (before after : List (Text × Text)), c ≠ [] →
      (metadata.get "nextCursor").isTruthy = false →
      metadata.get "nextPage" = .text ("https://" ++ (host ++ "/" ++ path ++ "?" ++ query)) →
      Address.IsHost host → (∀ d ∈ path, d ≠ .scalar '?' ∧ d ≠ .scalar '#') →
      Parameters.SpellsAll (before ++ (Text.ofString "cursor", c) :: after) query →
      (∀ p ∈ after, p.1 ≠ "cursor") →
      Page.cursorOf metadata = .ok (some c))
    ∧ ∀ (metadata : Json) (cursor : Option Text), Page.cursorOf metadata = .ok cursor →
      cursor ≠ some [] := by
  refine ⟨?_, fun metadata cursor => ne_empty_of_cursorOf⟩
  intro metadata host path query c before after hc hcursor hnext hhost hpath hquery hafter
  have htruthy : (metadata.get "nextPage").isTruthy = true := by
    rw [hnext]
    rfl
  have haddress : Address.query (metadata.get "nextPage").plain = .ok query := by
    rw [hnext]
    exact Address.query_https hhost hpath hquery.isSign
  have hlast : Parameters.last? "cursor" (Parameters.ofQuery query) = some c := by
    rw [hquery.ofQuery, List.filter_append, List.filter_cons_of_pos (by simpa using hc)]
    exact Parameters.last?_append_cons fun p hp => hafter p (List.mem_of_mem_filter hp)
  rw [cursorOf, hcursor, if_neg Bool.false_ne_true, htruthy, if_pos rfl, haddress]
  show Except.ok ((Parameters.last? "cursor" (Parameters.ofQuery query)).filter (· ≠ [])) = _
  rw [hlast, Option.filter_some, if_pos (by simpa using hc)]

end Page

namespace SpelledCursor

/-- A plus sign, a blank and a letter of two bytes. -/
def cursor : Text := "a+b é"

def query : Text := "limit=200&cursor=a%2Bb+%c3%A9&cursors="

def metadata : Json :=
  .object [("nextPage",
    .text ("https://" ++ ("civitai.com" ++ "/" ++ "api/v1/images" ++ "?" ++ query)))]

theorem spells_cursor : Parameters.Spells cursor "a%2Bb+%c3%A9" :=
  .plain (.scalar 'a') rfl <| .escaped (.scalar '+') rfl (.cons 0x2B _ _ rfl rfl .nil) <|
    .plain (.scalar 'b') rfl <| .blank <|
    .escaped (.scalar 'é') rfl (.cons 0xC3 _ _ rfl rfl (.cons 0xA9 _ _ rfl rfl .nil)) .nil

theorem spellsAll_query : Parameters.SpellsAll
    ([(Text.ofString "limit", Text.ofString "200")] ++ (Text.ofString "cursor", cursor)
      :: [(Text.ofString "cursors", [])]) query := by
  have hplain := @Parameters.spells_of_isUnreserved
  exact ⟨["limit=200", "cursor=a%2Bb+%c3%A9", "cursors="],
    .cons ⟨"limit", "200", hplain (by decide), hplain (by decide), rfl⟩
      (.cons ⟨"cursor", _, hplain (by decide), spells_cursor, rfl⟩
        (.cons ⟨"cursors", [], hplain (by decide), .nil, rfl⟩ .nil)), rfl⟩

/-- At this address. -/
theorem cursorOf_nextPage_spelled : Page.cursorOf metadata = .ok (some "a+b é") :=
  Page.cursorOf_nextPage.1 metadata "civitai.com" "api/v1/images" query cursor _ _ (by decide) rfl
    rfl (Address.isHost_of_plain (by decide)) (by decide) spellsAll_query (by decide)

end SpelledCursor

end GalleryScan
