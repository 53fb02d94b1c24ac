import TaggedComments.Proofs.Registry.Table
import TaggedComments.Proofs.Request.Check
import TaggedComments.Scan.Basic
import TaggedComments.Session

/-!
# All associations or none

A registry is changed by merging associations. However they are handed in, and whatever fails
before or after, either all of them are merged or the registry stays as it was.

- `Registry.Offers` says which associations a value offers, `Registry.GivesEntries` which entries
  they stand for.
- `Registry.merge_cases`, `Registry.register_cases`, `Registry.answer_cases` and
  `Registry.setUp_cases` say what each way to hand associations in does to a registry.
- `Registry.merge_all_or_nothing` puts them together.
-/

namespace TaggedComments.Registry

/-! ## Section 1: The associations of a value -/

/-- A value that counts as false offers no associations; any other offers some only if it is a
mapping, each of its entries being one. -/
def Offers (given : Data) (es : List (Data × Association)) : Prop :=
  (given.truthy = false ∧ es = []) ∨ (given.truthy = true ∧
    ∃ fs, given.asMapping? = some fs ∧ es = fs.map fun x => (x.1, .value x.2))

/-- The associations that a value offers stand for these entries. -/
def GivesEntries (given : Data) (added : List (String × Entry String)) : Prop :=
  ∃ es, Offers given es ∧ StandFor es added

theorem associationsOf_eq_ok_iff {given : Data} {es : List (Data × Association)} :
    associationsOf given = .ok es ↔ Offers given es := by
  unfold associationsOf Offers
  by_cases htrue : given.truthy = true
  · rw [if_pos htrue]
    cases hmapping : given.asMapping? with
    | none => simp [htrue]
    | some fs =>
      simp only [htrue, Bool.true_eq_false, false_and, true_and, false_or, Except.ok.injEq,
        Option.some.injEq, exists_eq_left']
      exact eq_comm
  · rw [if_neg htrue]
    simp only [htrue, Except.ok.injEq, true_and, Bool.false_eq_true, false_and, or_false]
    exact eq_comm

theorem Offers.unique {given : Data} {es fs : List (Data × Association)} (h : Offers given es)
    (h' : Offers given fs) : es = fs := by
  rw [← associationsOf_eq_ok_iff] at h h'
  exact Except.ok.inj (h.symm.trans h')

theorem StandFor.unique {es : List (Data × Association)} {added added' : List (String × Entry String)}
    (h : StandFor es added) (h' : StandFor es added') : added = added' := by
  rw [← readEntries_eq_ok_iff] at h h'
  exact Except.ok.inj (h.symm.trans h')

theorem GivesEntries.unique {given : Data} {added added' : List (String × Entry String)}
    (h : GivesEntries given added) (h' : GivesEntries given added') : added = added' := by
  obtain ⟨es, hes, hstand⟩ := h
  obtain ⟨fs, hfs, hstand'⟩ := h'
  obtain rfl := hes.unique hfs
  exact hstand.unique hstand'

/-! ## Section 2: Each way to hand associations in -/

/-- Merging sets all entries or fails. -/
theorem merge_cases (r : Registry) (es : List (Data × Association)) :
    (∃ added log, StandFor es added ∧ r.merge es = .ok (r.setAll added, log))
      ∨ ((∀ added, ¬ StandFor es added) ∧ ∃ e, r.merge es = .error e) := by
  unfold merge
  by_cases hempty : es.isEmpty = true
  · -- Without associations nothing is done, which is the same as setting no entries.
    obtain rfl := List.isEmpty_iff.mp hempty
    exact .inl ⟨[], [], .nil, rfl⟩
  · -- All entries are read before the first is set.
    rw [if_neg hempty]
    cases hread : readEntries es with
    | ok added => exact .inl ⟨added, _, readEntries_eq_ok_iff.mp hread, rfl⟩
    | error e =>
      refine .inr ⟨fun added hstand => ?_, e, rfl⟩
      rw [readEntries_eq_ok_iff.mpr hstand] at hread
      cases hread

/-- Registering merges all entries that a value gives or fails. -/
theorem register_cases (r : Registry) (given : Data) :
    (∃ added log, GivesEntries given added ∧ r.register given = .ok (r.setAll added, log))
      ∨ ((¬ ∃ added, GivesEntries given added) ∧ ∃ e, r.register given = .error e) := by
  unfold register
  cases hoffers : associationsOf given with
  | error e =>
    refine .inr ⟨?_, e, rfl⟩
    rintro ⟨added, es, hes, -⟩
    rw [associationsOf_eq_ok_iff.mpr hes] at hoffers
    cases hoffers
  | ok es =>
    have hes := associationsOf_eq_ok_iff.mp hoffers
    rcases r.merge_cases es with ⟨added, log, hstand, hmerge⟩ | ⟨hnone, e, hmerge⟩
    · exact .inl ⟨added, log, ⟨es, hes, hstand⟩, hmerge⟩
    · refine .inr ⟨?_, e, hmerge⟩
      rintro ⟨added, fs, hfs, hstand⟩
      obtain rfl := hfs.unique hes
      exact hnone added hstand

/-- An accepted request whose associations are in order merges them before anything else can fail;
any other request leaves the registry alone. -/
theorem answer_cases (r : Registry) (q : Request) :
    (∃ added c log, q.Accepted ∧ GivesEntries q.associations added ∧ q.check = .ok c
        ∧ r.register q.associations = .ok (r.setAll added, log)
        ∧ r.answer q = (r.setAll added, (q.run c (r.setAll added)).after log))
      ∨ (¬ (q.Accepted ∧ ∃ added, GivesEntries q.associations added)
        ∧ ∃ e, r.answer q = (r, .fail e)) := by
  unfold answer
  cases hcheck : q.check with
  | error e =>
    -- A request that fails its check is not accepted.
    refine .inr ⟨?_, e, rfl⟩
    rintro ⟨haccepted, -⟩
    obtain ⟨c, hc⟩ := Request.check_isOk_iff.mpr haccepted
    rw [hc] at hcheck
    cases hcheck
  | ok c =>
    have haccepted := Request.check_isOk_iff.mp ⟨c, hcheck⟩
    rcases r.register_cases q.associations with ⟨added, log, hgives, hregister⟩ | ⟨hnone, e, hregister⟩
    · -- From here on the request may fail, but nothing touches the registry any more.
      simp only [hregister]
      exact .inl ⟨added, c, log, haccepted, hgives, rfl, rfl, rfl⟩
    · simp only [hregister]
      exact .inr ⟨fun h => hnone h.2, e, rfl⟩

/-- Setting a scanner up merges the associations of its settings, unless its ignore rules cannot be
read or an association is not in order. -/
theorem setUp_cases (r : Registry) (config : Config) (system : FileSystem) (root : Path) :
    (∃ added s, (∃ rules, IgnoreRules.ofPatterns config.ignore = .ok rules)
        ∧ GivesEntries (.mapping config.associate) added
        ∧ (Scanner.setUp config r system root).result = .ok s ∧ s.registry = r.setAll added)
      ∨ (¬ ((∃ rules, IgnoreRules.ofPatterns config.ignore = .ok rules)
          ∧ ∃ added, GivesEntries (.mapping config.associate) added)
        ∧ ∃ e, (Scanner.setUp config r system root).result = .error e) := by
  unfold Scanner.setUp
  cases hrules : IgnoreRules.ofPatterns config.ignore with
  | error e =>
    -- The ignore rules are read before anything is merged.
    refine .inr ⟨?_, e, rfl⟩
    rintro ⟨⟨rules, h⟩, -⟩
    cases h
  | ok rules =>
    rcases r.register_cases (.mapping config.associate) with
      ⟨added, log, hgives, hregister⟩ | ⟨hnone, e, hregister⟩
    · simp only [hregister]
      exact .inl ⟨added, _, ⟨rules, rfl⟩, hgives, rfl, rfl⟩
    · simp only [hregister]
      exact .inr ⟨fun h => hnone h.2, e, rfl⟩

/-! ## Section 3: All of them -/

/-- A registry is another one in which entries were set: they are found, the last of several for
one key, and everything else is found as before. -/
structure Overwrites (r : Registry) (added : List (String × Entry String)) (r' : Registry) :
    Prop where
  eq_setAll : r' = r.setAll added
  find?_eq : ∀ x, r'.find? x = (added.reverse.lookup x).or (r.find? x)

theorem overwrites_setAll (r : Registry) (added : List (String × Entry String)) :
    Overwrites r added (r.setAll added) :=
  ⟨rfl, fun _ => find?_setAll⟩

/-- Under a condition the entries that a value gives are all set; without it, or if the value gives
no entries, the registry stays as it is. -/
def AllOrNothing (condition : Prop) (given : Data) (r r' : Registry) : Prop :=
  (condition ∧ ∃ added, GivesEntries given added ∧ Overwrites r added r')
    ∨ (¬ (condition ∧ ∃ added, GivesEntries given added) ∧ r' = r)

/-- **All or nothing.** After a request the registry is the one before with all entries that the
associations of the request give, or exactly the one before; which of the two does not depend on
what the request comes to after its check. Likewise associations are registered, and a scanner is
set up, with all entries, or it fails and nothing changes. -/
theorem merge_all_or_nothing (r : Registry) :
    (∀ q : Request, AllOrNothing q.Accepted q.associations r (r.answer q).1
        ∧ ∀ added, GivesEntries q.associations added → r.setAll added ≠ r →
          ((r.answer q).1 = r.setAll added ↔ q.Accepted))
      ∧ (∀ given, AllOrNothing True given r (r.step (.register given)).1
        ∧ ((r.step (.register given)).2 = .ok .done ↔ ∃ added, GivesEntries given added))
      ∧ (∀ es, (∃ added log, StandFor es added ∧ r.merge es = .ok (r.setAll added, log))
        ∨ ((∀ added, ¬ StandFor es added) ∧ ∃ e, r.merge es = .error e))
      ∧ ∀ config system root,
        let prepared := Scanner.setUp config r system root
        let readable := ∃ rules, IgnoreRules.ofPatterns config.ignore = .ok rules
        AllOrNothing readable (.mapping config.associate) r (Scanner.registryAfter r prepared)
        ∧ ((∃ s, prepared.result = .ok s) ↔
          readable ∧ ∃ added, GivesEntries (.mapping config.associate) added) := by
  refine ⟨fun q => ?_, fun given => ?_, r.merge_cases, fun config system root => ?_⟩
  · rcases r.answer_cases q with ⟨added, c, log, haccepted, hgives, -, -, hanswer⟩ | ⟨hnot, e, hanswer⟩
    · rw [hanswer]
      refine ⟨.inl ⟨haccepted, added, hgives, overwrites_setAll r added⟩, fun added' hgives' _ => ?_⟩
      obtain rfl := hgives.unique hgives'
      exact iff_of_true rfl haccepted
    · rw [hanswer]
      refine ⟨.inr ⟨hnot, rfl⟩, fun added hgives hne => ?_⟩
      exact iff_of_false hne.symm fun haccepted => hnot ⟨haccepted, added, hgives⟩
  · rw [step]
    rcases r.register_cases given with ⟨added, log, hgives, hregister⟩ | ⟨hnone, e, hregister⟩
    · rw [hregister]
      exact ⟨.inl ⟨trivial, added, hgives, overwrites_setAll r added⟩,
        iff_of_true rfl ⟨added, hgives⟩⟩
    · rw [hregister]
      exact ⟨.inr ⟨fun h => hnone h.2, rfl⟩, iff_of_false (by rintro ⟨⟩) hnone⟩
  · intro prepared readable
    rcases r.setUp_cases config system root with ⟨added, s, hrules, hgives, hs, hregistry⟩ | ⟨hnot, e, he⟩
    · rw [Scanner.registryAfter, hs]
      refine ⟨.inl ⟨hrules, added, hgives, ?_⟩, iff_of_true ⟨s, rfl⟩ ⟨hrules, added, hgives⟩⟩
      show Overwrites r added s.registry
      rw [hregistry]
      exact overwrites_setAll r added
    · rw [Scanner.registryAfter, he]
      refine ⟨.inr ⟨hnot, rfl⟩, iff_of_false ?_ hnot⟩
      rintro ⟨s, ⟨⟩⟩

/-- A request whose extension is unknown fails, and its associations are merged all the same. -/
example :
    let q : Request := { extension := .text ".x", associations := .mapping [(.text ".y", .text "p")] }
    (empty.answer q).2.result = .error (.unsupported ".x")
      ∧ (empty.answer q).1 = ⟨[(".y", ⟨["p"], []⟩)]⟩ :=
  ⟨rfl, rfl⟩

end TaggedComments.Registry
