import TaggedComments.Proofs.Steps
import TaggedComments.Registry.Basic

/-!
# What an association stands for

An association is accepted if it stands for an entry, and the checks let through exactly these.

- `Association.StandsFor` describes the entry that an association stands for.
- `Entry.read_eq_ok_iff` says that this entry is read, and nothing else.
- `Registry.readEntries_eq_ok_iff` says so of the associations that are merged together.
-/

namespace TaggedComments

/-! ## Section 1: One entry -/

namespace Entry

theorem checkExtension_eq_ok_iff {d : Data} {s : String} :
    checkExtension d = .ok s ↔ d = .text s ∧ IsExtension s := by
  unfold checkExtension
  split
  · next t =>
    split
    · next c r ht =>
      constructor
      · intro h
        cases h
        exact ⟨rfl, c, r, ht⟩
      · rintro ⟨h, -⟩
        cases h
        rfl
    · next hnot =>
      constructor
      · intro h
        cases h
      · rintro ⟨h, c, r, hs⟩
        cases h
        exact absurd hs (hnot c r)
  · next hnot =>
    constructor
    · intro h
      cases h
    · rintro ⟨rfl, -⟩
      exact absurd rfl (hnot s)

theorem checkName_eq_ok_iff {extension : String} {d : Data} {s : String} :
    checkName extension d = .ok s ↔ d = .text s ∧ s ≠ "" := by
  unfold checkName
  split
  · next t =>
    by_cases ht : t = ""
    · subst ht
      simp
    · simp only [String.isEmpty_iff, ht, if_false, Except.ok.injEq, Scalar.text.injEq,
        Data.scalar.injEq]
      constructor
      · rintro rfl
        exact ⟨rfl, ht⟩
      · exact fun h => h.1
  · next hnot =>
    constructor
    · intro h
      cases h
    · rintro ⟨rfl, -⟩
      exact absurd rfl (hnot s)

/-- Values that are checked to be texts with a property are these texts. -/
theorem forall₂_text_iff {p : String → Prop} {ds : List Data} {ss : List String} :
    List.Forall₂ (fun d s => d = .text s ∧ p s) ds ss ↔ ds = ss.map .text ∧ ∀ s ∈ ss, p s := by
  induction ss generalizing ds with
  | nil => simp
  | cons s ss ih =>
    rw [List.forall₂_cons_right_iff]
    simp only [ih]
    constructor
    · rintro ⟨d, ds, ⟨rfl, hs⟩, ⟨rfl, hss⟩, rfl⟩
      exact ⟨rfl, List.forall_mem_cons.mpr ⟨hs, hss⟩⟩
    · rintro ⟨rfl, h⟩
      obtain ⟨hs, hss⟩ := List.forall_mem_cons.mp h
      exact ⟨_, _, ⟨rfl, hs⟩, ⟨rfl, hss⟩, rfl⟩

end Entry

/-- An association stands for an entry of an extension: the extension is well-formed, the parts of
the association are a name or a sequence of names and a sequence of extensions, and the entry that
they make up is well-formed. -/
structure Association.StandsFor (a : Association) (extension : String) (e : Entry String) :
    Prop where
  extension : Entry.IsExtension extension
  parsers : Entry.nameList? (Entry.parts a).1 = some (e.parsers.map .text)
  included : (Entry.parts a).2.asSequence? = some (e.included.map .text)
  wellFormed : e.WellFormed

namespace Entry

/-- Reading gives the entry that an association stands for, and fails if there is none. -/
theorem read_eq_ok_iff {d : Data} {a : Association} {e : Entry String} :
    read d a = .ok e ↔ ∃ s, d = .text s ∧ a.StandsFor s e := by
  unfold read
  simp only [bind_eq_ok_iff, checkExtension_eq_ok_iff]
  constructor
  · rintro ⟨s, ⟨rfl, hs⟩, h⟩
    refine ⟨s, rfl, ?_⟩
    split at h
    · next n ns hparsers =>
      obtain ⟨names, hnames, h⟩ := bind_eq_ok_iff.mp h
      split at h
      · next ds hincluded =>
        obtain ⟨included, hds, h⟩ := bind_eq_ok_iff.mp h
        cases h
        simp only [mapM_eq_ok_iff, checkName_eq_ok_iff, forall₂_text_iff] at hnames
        simp only [mapM_eq_ok_iff, checkExtension_eq_ok_iff, forall₂_text_iff] at hds
        obtain ⟨hnames, hnonempty⟩ := hnames
        obtain ⟨rfl, hextensions⟩ := hds
        -- There is a first name, so the names are not missing.
        have hne : names ≠ [] := by
          rintro rfl
          simp at hnames
        exact ⟨hs, hnames ▸ hparsers, hincluded, hne, hnonempty, hextensions⟩
      · cases h
    · cases h
  · rintro ⟨s, rfl, hs, hparsers, hincluded, hne, hnonempty, hextensions⟩
    refine ⟨s, ⟨rfl, hs⟩, ?_⟩
    obtain ⟨parsers, included⟩ := e
    have hnames : (parsers.map Data.text).mapM (checkName s) = .ok parsers := by
      simp only [mapM_eq_ok_iff, checkName_eq_ok_iff, forall₂_text_iff, true_and]
      exact hnonempty
    have hds : (included.map Data.text).mapM checkExtension = .ok included := by
      simp only [mapM_eq_ok_iff, checkExtension_eq_ok_iff, forall₂_text_iff, true_and]
      exact hextensions
    cases parsers with
    | nil => exact absurd rfl hne
    | cons n ns =>
      rw [List.map_cons] at hnames
      rw [hparsers, List.map_cons]
      simp only [hincluded, hnames, hds]
      rfl

end Entry

/-! ## Section 2: Entries that are merged together -/

namespace Registry

/-- Associations stand for entries, one by one. -/
def StandFor (given : List (Data × Association)) (added : List (String × Entry String)) : Prop :=
  List.Forall₂ (fun x y => x.1 = .text y.1 ∧ x.2.StandsFor y.1 y.2) given added

/-- Of several associations either all entries are read or none. -/
theorem readEntries_eq_ok_iff {given : List (Data × Association)}
    {added : List (String × Entry String)} :
    readEntries given = .ok added ↔ StandFor given added := by
  rw [readEntries, mapM_eq_ok_iff, StandFor]
  have hentry : ∀ (x : Data × Association) (y : String × Entry String),
      (do
        let extension ← Entry.checkExtension x.1
        let e ← Entry.read x.1 x.2
        return (extension, e) : Except Failure (String × Entry String)) = .ok y ↔
        x.1 = .text y.1 ∧ x.2.StandsFor y.1 y.2 := by
    rintro ⟨d, a⟩ ⟨s, e⟩
    simp only [bind_eq_ok_iff, Entry.checkExtension_eq_ok_iff, Entry.read_eq_ok_iff]
    constructor
    · rintro ⟨t, ⟨rfl, -⟩, e', ⟨s', hs', he⟩, h⟩
      cases hs'
      cases h
      exact ⟨rfl, he⟩
    · rintro ⟨rfl, he⟩
      exact ⟨s, ⟨rfl, he.extension⟩, e, ⟨s, rfl, he⟩, rfl⟩
  simp only [hentry]

end Registry

end TaggedComments
