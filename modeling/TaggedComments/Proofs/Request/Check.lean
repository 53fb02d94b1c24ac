import Mathlib.Data.List.TakeWhile
import TaggedComments.Proofs.Extract.Body
import TaggedComments.Proofs.Registry.Entry
import TaggedComments.Request

/-!
# Which requests pass their check

- `Tags.IsTag` says what counts as a tag; `Tags.validate_isOk_iff` that lists of such values are
  accepted, and nothing else but no list at all.
- `Request.Accepted` puts the conditions on a request together, `Request.check_isOk_iff` says that
  the check lets through exactly the requests that meet them.
-/

namespace TaggedComments

/-! ## Section 1: Tags -/

theorem Text.trim_eq_nil_iff {s : List Char} : trim s = [] ↔ ∀ c ∈ s, isSpace c = true := by
  constructor
  · intro h
    -- If all is trimmed away at the right, then nothing was left at the left.
    have hleft : trimLeft s = [] := by
      cases hs : trimLeft s with
      | nil => rfl
      | cons c rest =>
        have hc := head?_trimLeft (s := s) (c := c) (by rw [hs]; rfl)
        rw [trim, hs, trimRight, dropRightWhile, List.reverse_eq_nil_iff,
          List.dropWhile_eq_nil_iff] at h
        have hspace := h c (by simp)
        rw [hc] at hspace
        cases hspace
    exact List.dropWhile_eq_nil_iff.mp hleft
  · intro h
    rw [trim, trimLeft, List.dropWhile_eq_nil_iff.mpr h]
    rfl

namespace Tags

/-- A tag is a text in which some character is no white space. -/
def IsTag (d : Data) : Prop :=
  ∃ s : String, d = .text s ∧ ∃ c ∈ s.toList, Text.isSpace c = false

theorem readTag_eq_ok_iff {d : Data} {t : String} :
    readTag d = .ok t ↔ ∃ s, d = .text s ∧ t = Text.trimString s ∧ t ≠ "" := by
  unfold readTag
  split
  · next s =>
    simp only [String.isEmpty_iff]
    constructor
    · intro h
      split at h
      · cases h
      · next hvisible =>
        cases h
        exact ⟨s, rfl, rfl, hvisible⟩
    · rintro ⟨s', hs, rfl, hvisible⟩
      cases hs
      rw [if_neg hvisible]
  · next hnot =>
    constructor
    · intro h
      cases h
    · rintro ⟨s, rfl, -⟩
      exact absurd rfl (hnot s)

theorem readTag_isOk_iff {d : Data} : (∃ t, readTag d = .ok t) ↔ IsTag d := by
  have hvisible : ∀ s : String, Text.trimString s ≠ "" ↔ ∃ c ∈ s.toList, Text.isSpace c = false := by
    intro s
    rw [Text.trimString, Ne, ← String.toList_inj, String.toList_ofList, String.toList_empty,
      Text.trim_eq_nil_iff]
    simp
  simp only [readTag_eq_ok_iff, IsTag, ← hvisible]
  constructor
  · rintro ⟨t, s, hd, rfl, ht⟩
    exact ⟨s, hd, ht⟩
  · rintro ⟨s, hd, ht⟩
    exact ⟨_, s, hd, rfl, ht⟩

/-- The tags of a request are accepted if there are none or they are a list of tags. -/
theorem validate_isOk_iff {given : Data} :
    (∃ tags, validate given = .ok tags) ↔
      given = .null ∨ ∃ items, given = .list items ∧ ∀ d ∈ items, IsTag d := by
  unfold validate
  split
  · simp
  · next items =>
    simp only [mapM_isOk_iff, readTag_isOk_iff]
    simp
  · next hnull hlist =>
    constructor
    · rintro ⟨tags, h⟩
      cases h
    · rintro (rfl | ⟨items, rfl, -⟩)
      · exact absurd rfl hnull
      · exact absurd rfl (hlist items)

end Tags

/-! ## Section 2: Requests -/

namespace Request

/-- A request meets the conditions of its check: its extension is a text that is not empty, its
content is a text, and its tags are none or a list of tags. -/
structure Accepted (q : Request) : Prop where
  extension : ∃ s, q.extension = .text s ∧ s ≠ ""
  content : ∃ s, q.content = .text s
  tags : q.customTags = .null ∨ ∃ items, q.customTags = .list items ∧ ∀ d ∈ items, Tags.IsTag d

theorem readExtension_eq_ok_iff {d : Data} {s : String} :
    readExtension d = .ok s ↔ d = .text s ∧ s ≠ "" := by
  unfold readExtension
  split
  · next t =>
    by_cases ht : t = ""
    · subst ht
      simp
    · constructor
      · intro h
        rw [if_neg (by simpa using ht)] at h
        cases h
        exact ⟨rfl, ht⟩
      · rintro ⟨h, hs⟩
        cases h
        rw [if_neg (by simpa using hs)]
  · next hnot =>
    constructor
    · intro h
      cases h
    · rintro ⟨rfl, -⟩
      exact absurd rfl (hnot s)

theorem readContent_eq_ok_iff {d : Data} {s : String} : readContent d = .ok s ↔ d = .text s := by
  unfold readContent
  split
  · simp
  · next hnot =>
    constructor
    · intro h
      cases h
    · rintro rfl
      exact absurd rfl (hnot s)

/-- What a request brings is what its check finds. -/
theorem check_eq_ok_iff {q : Request} {c : Checked} :
    q.check = .ok c ↔ (q.extension = .text c.extension ∧ c.extension ≠ "")
      ∧ q.content = .text c.content ∧ Tags.validate q.customTags = .ok c.tags := by
  unfold check
  simp only [bind_eq_ok_iff, readExtension_eq_ok_iff, readContent_eq_ok_iff]
  constructor
  · rintro ⟨extension, hextension, content, hcontent, tags, htags, h⟩
    cases h
    exact ⟨hextension, hcontent, htags⟩
  · rintro ⟨hextension, hcontent, htags⟩
    exact ⟨_, hextension, _, hcontent, _, htags, rfl⟩

/-- The check lets through the requests that meet its conditions. -/
theorem check_isOk_iff {q : Request} : (∃ c, q.check = .ok c) ↔ q.Accepted := by
  simp only [check_eq_ok_iff]
  constructor
  · rintro ⟨c, hextension, hcontent, htags⟩
    exact ⟨⟨_, hextension⟩, ⟨_, hcontent⟩, Tags.validate_isOk_iff.mp ⟨_, htags⟩⟩
  · rintro ⟨⟨extension, hextension⟩, ⟨content, hcontent⟩, htags⟩
    obtain ⟨tags, htags⟩ := Tags.validate_isOk_iff.mpr htags
    exact ⟨⟨content, extension, tags⟩, hextension, hcontent, htags⟩

end Request

end TaggedComments
