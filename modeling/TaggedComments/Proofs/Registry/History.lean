import TaggedComments.Proofs.Registry.Merge

/-!
# What a registry holds after any calls

Associations reach a registry by several ways, in any order, and any of the calls may fail. The
registry stays well-formed, loses no extension, and knows for each extension what was last said
about it.

- `Registry.Call` is a call that may change a registry, `Registry.after` the registry after several.
- `Registry.call_cases` says all that one call can do, `Registry.WellFormed.after` and
  `Registry.supports_after` what therefore any number of them keeps.
- `Registry.LastGiven` says which association was given last for an extension.
- `Registry.builtin_after` says what the builtin registry holds after any calls.
-/

namespace TaggedComments.Registry

/-! ## Section 1: Calls -/

/-- A call that may change a registry. -/
inductive Call where
  /-- A step of a session: associations are registered, a request is answered, or nothing changes. -/
  | step (x : Step)
  /-- Associations are merged, which may be entries. -/
  | merge (given : List (Data × Association))
  /-- A scanner is set up. -/
  | setUp (config : Config) (system : FileSystem) (root : Path)

/-- The registry after a call. -/
def call (r : Registry) : Call → Registry
  | .step x => (r.step x).1
  | .merge given =>
    match r.merge given with
    | .ok (r', _) => r'
    | .error _ => r
  | .setUp config system root =>
    Scanner.registryAfter r (Scanner.setUp config r system root)

/-- The registry after several calls. -/
def after (r : Registry) (calls : List Call) : Registry :=
  calls.foldl call r

/-- A call gets as far as merging associations. -/
inductive Call.Reaches : Call → List (Data × Association) → Prop where
  | register {given : Data} {es : List (Data × Association)} (h : Offers given es) :
      Reaches (.step (.register given)) es
  | answer {q : Request} {es : List (Data × Association)} (hq : q.Accepted)
      (h : Offers q.associations es) : Reaches (.step (.answer q)) es
  | merge {es : List (Data × Association)} : Reaches (.merge es) es
  | setUp {config : Config} {system : FileSystem} {root : Path} {es : List (Data × Association)}
      (hrules : ∃ rules, IgnoreRules.ofPatterns config.ignore = .ok rules)
      (h : Offers (.mapping config.associate) es) : Reaches (.setUp config system root) es

/-- A call merges associations: it gets that far, and each of them stands for an entry. -/
def Call.Merges (c : Call) (es : List (Data × Association)) : Prop :=
  c.Reaches es ∧ ∃ added, StandFor es added

theorem Call.Reaches.unique {c : Call} {es fs : List (Data × Association)} (h : c.Reaches es)
    (h' : c.Reaches fs) : es = fs := by
  cases h with
  | register h =>
    cases h' with
    | register h' => exact h.unique h'
  | answer _ h =>
    cases h' with
    | answer _ h' => exact h.unique h'
  | merge =>
    cases h'
    rfl
  | setUp _ h =>
    cases h' with
    | setUp _ h' => exact h.unique h'

/-- A call merges all its associations, or it leaves the registry alone. -/
theorem call_cases (r : Registry) (c : Call) :
    (∃ es added, c.Reaches es ∧ StandFor es added ∧ r.call c = r.setAll added)
      ∨ ((∀ es, ¬ c.Merges es) ∧ r.call c = r) := by
  cases c with
  | step x =>
    cases x with
    | register given =>
      simp only [call, step]
      rcases r.register_cases given with ⟨added, log, ⟨es, hes, hstand⟩, hregister⟩ | ⟨hnone, e, hregister⟩
      · exact .inl ⟨es, added, .register hes, hstand, by rw [hregister]⟩
      · refine .inr ⟨?_, by rw [hregister]⟩
        rintro es ⟨hreaches, added, hstand⟩
        cases hreaches with
        | register hes => exact hnone ⟨added, es, hes, hstand⟩
    | answer q =>
      simp only [call, step]
      rcases r.answer_cases q with ⟨added, c, log, hq, ⟨es, hes, hstand⟩, -, -, hanswer⟩ | ⟨hnot, e, hanswer⟩
      · exact .inl ⟨es, added, .answer hq hes, hstand, by rw [hanswer]⟩
      · refine .inr ⟨?_, by rw [hanswer]⟩
        rintro es ⟨hreaches, added, hstand⟩
        cases hreaches with
        | answer hq hes => exact hnot ⟨hq, added, es, hes, hstand⟩
    | supports | get | extensions | entries | resolve | copy =>
      -- The other steps merge nothing and change nothing.
      refine .inr ⟨?_, rfl⟩
      rintro es ⟨hreaches, -⟩
      cases hreaches
  | merge given =>
    simp only [call]
    rcases r.merge_cases given with ⟨added, log, hstand, hmerge⟩ | ⟨hnone, e, hmerge⟩
    · exact .inl ⟨given, added, .merge, hstand, by rw [hmerge]⟩
    · refine .inr ⟨?_, by rw [hmerge]⟩
      rintro es ⟨hreaches, added, hstand⟩
      cases hreaches
      exact hnone added hstand
  | setUp config system root =>
    simp only [call, Scanner.registryAfter]
    rcases r.setUp_cases config system root with
      ⟨added, s, hrules, ⟨es, hes, hstand⟩, hs, hregistry⟩ | ⟨hnot, e, he⟩
    · exact .inl ⟨es, added, .setUp hrules hes, hstand, by rw [hs]; exact hregistry⟩
    · refine .inr ⟨?_, by rw [he]⟩
      rintro es ⟨hreaches, added, hstand⟩
      cases hreaches with
      | setUp hrules hes => exact hnot ⟨hrules, added, es, hes, hstand⟩

/-! ## Section 2: What calls keep -/

theorem after_cons (r : Registry) (c : Call) (calls : List Call) :
    r.after (c :: calls) = (r.call c).after calls := rfl

theorem after_append (r : Registry) (calls more : List Call) :
    r.after (calls ++ more) = (r.after calls).after more :=
  List.foldl_append

theorem WellFormed.call {r : Registry} (h : r.WellFormed) (c : Call) : (r.call c).WellFormed := by
  rcases r.call_cases c with ⟨es, added, -, hstand, hcall⟩ | ⟨-, hcall⟩
  · rw [hcall]
    exact h.setAll hstand.wellFormed
  · rw [hcall]
    exact h

theorem WellFormed.after {r : Registry} (h : r.WellFormed) (calls : List Call) :
    (r.after calls).WellFormed := by
  induction calls generalizing r with
  | nil => exact h
  | cons c calls ih => exact ih (h.call c)

theorem supports_call {r : Registry} {x : String} (h : r.supports x = true) (c : Call) :
    (r.call c).supports x = true := by
  rcases r.call_cases c with ⟨es, added, -, -, hcall⟩ | ⟨-, hcall⟩
  · rw [hcall]
    exact supports_setAll h
  · rw [hcall]
    exact h

/-- No extension is lost by any calls. -/
theorem supports_after {r : Registry} {x : String} (h : r.supports x = true) (calls : List Call) :
    (r.after calls).supports x = true := by
  induction calls generalizing r with
  | nil => exact h
  | cons c calls ih => exact ih (supports_call h c)

/-! ## Section 3: What was said last -/

/-- Of several associations, the last one for an extension. -/
def lastFor? (x : String) : List (Data × Association) → Option Association
  | [] => none
  | z :: es => (lastFor? x es).or (if z.1 = .text x then some z.2 else none)

/-- No call merges an association for an extension. -/
def NeverGiven (calls : List Call) (x : String) : Prop :=
  ∀ c ∈ calls, ∀ es, c.Merges es → lastFor? x es = none

/-- The last call that merges any association for an extension gives it this one. -/
def LastGiven (calls : List Call) (x : String) (a : Association) : Prop :=
  ∃ before c later es, calls = before ++ c :: later ∧ c.Merges es ∧ lastFor? x es = some a
    ∧ NeverGiven later x

/-- What is found for an extension among entries is what its last association stands for. -/
theorem lookup_of_standFor {es : List (Data × Association)} {added : List (String × Entry String)}
    (h : StandFor es added) (x : String) :
    match lastFor? x es with
    | some a => ∃ e, a.StandsFor x e ∧ added.reverse.lookup x = some e
    | none => added.reverse.lookup x = none := by
  induction h with
  | nil => rfl
  | @cons z y es added hhead _ ih =>
    obtain ⟨d, a⟩ := z
    obtain ⟨k, e⟩ := y
    obtain ⟨rfl, hstands⟩ := hhead
    rw [List.reverse_cons, List.lookup_append, lastFor?]
    cases hlater : lastFor? x es with
    | some b =>
      -- A later association counts before this one.
      rw [hlater] at ih
      obtain ⟨e', hb, hlookup⟩ := ih
      exact ⟨e', hb, by rw [hlookup, Option.some_or]⟩
    | none =>
      rw [hlater] at ih
      simp only at ih
      rw [Option.none_or, ih, Option.none_or, lookup_cons_eq_ite, List.lookup_nil]
      by_cases hx : x = k
      · subst hx
        simpa using hstands
      · have hne : ¬ (Data.text k = Data.text x) := by
          intro h
          cases h
          exact hx rfl
        simp [hx, hne]

theorem find?_call_of_merges {r : Registry} {c : Call} {es : List (Data × Association)}
    {x : String} {a : Association} (h : c.Merges es) (hlast : lastFor? x es = some a) :
    ∃ e, a.StandsFor x e ∧ (r.call c).find? x = some e := by
  rcases r.call_cases c with ⟨fs, added, hreaches, hstand, hcall⟩ | ⟨hnone, -⟩
  · obtain rfl := h.1.unique hreaches
    have hlookup := lookup_of_standFor hstand x
    rw [hlast] at hlookup
    obtain ⟨e, he, hlookup⟩ := hlookup
    refine ⟨e, he, ?_⟩
    rw [hcall, find?_setAll, hlookup, Option.some_or]
  · exact absurd h (hnone es)

/-- Calls that merge nothing for an extension do not change what is found for it. -/
theorem find?_after_of_neverGiven {r : Registry} {calls : List Call} {x : String}
    (h : NeverGiven calls x) : (r.after calls).find? x = r.find? x := by
  induction calls generalizing r with
  | nil => rfl
  | cons c calls ih =>
    have hlater : NeverGiven calls x := fun d hd => h d (List.mem_cons_of_mem c hd)
    -- The later calls change nothing for the extension, so the first one is left.
    rw [after_cons, ih hlater]
    rcases r.call_cases c with ⟨es, added, hreaches, hstand, hcall⟩ | ⟨-, hcall⟩
    · have hlookup := lookup_of_standFor hstand x
      rw [h c List.mem_cons_self es ⟨hreaches, added, hstand⟩] at hlookup
      simp only at hlookup
      rw [hcall, find?_setAll, hlookup, Option.none_or]
    · rw [hcall]

/-- Either some call is the last to merge an association for an extension, or none does. -/
theorem neverGiven_or_lastGiven (calls : List Call) (x : String) :
    NeverGiven calls x ∨ ∃ a, LastGiven calls x a := by
  induction calls with
  | nil => exact .inl (by simp [NeverGiven])
  | cons c calls ih =>
    rcases ih with hnever | ⟨a, before, d, later, es, rfl, hd⟩
    · -- No later call counts, so this one does if it merges anything for the extension.
      by_cases hthis : ∃ es a, c.Merges es ∧ lastFor? x es = some a
      · obtain ⟨es, a, hmerges, hlast⟩ := hthis
        exact .inr ⟨a, [], c, calls, es, rfl, hmerges, hlast, hnever⟩
      · refine .inl (List.forall_mem_cons.mpr ⟨fun es hmerges => ?_, hnever⟩)
        rw [Option.eq_none_iff_forall_ne_some]
        exact fun a hlast => hthis ⟨es, a, hmerges, hlast⟩
    · exact .inr ⟨a, c :: before, d, later, es, rfl, hd⟩

/-! ## Section 4: From the builtin registry on -/

/-- **The registry after any calls.** Its keys are extensions, its entries are well-formed, and no
extension is lost, in particular no builtin one. For an extension it holds what the last association
that was merged for it stands for, and what it held from the start if there is none. -/
theorem builtin_after (calls : List Call) :
    let r := builtin.after calls
    r.WellFormed
      ∧ (∀ x, r.supports x = true → ∀ more, (r.after more).supports x = true)
      ∧ (∀ z ∈ builtinAssociations, r.supports z.1 = true)
      ∧ (∀ x, NeverGiven calls x ∨ ∃ a, LastGiven calls x a)
      ∧ (∀ x a, LastGiven calls x a →
        ∃ e, Entry.read (.text x) a = .ok e ∧ r.find? x = some e)
      ∧ ∀ x, NeverGiven calls x → r.find? x = builtin.find? x := by
  intro r
  refine ⟨wellFormed_builtin.after calls, fun x h more => supports_after h more, fun z hz => ?_,
    neverGiven_or_lastGiven calls, ?_, fun x h => find?_after_of_neverGiven h⟩
  · apply supports_after
    rw [supports_iff, map_fst_builtin]
    exact List.mem_map_of_mem hz
  · rintro x a ⟨before, c, later, es, rfl, hmerges, hlast, hnever⟩
    -- The call sets the entry whatever was there before, and the later ones keep it.
    obtain ⟨e, hstands, hfind⟩ := find?_call_of_merges (r := builtin.after before) hmerges hlast
    refine ⟨e, Entry.read_eq_ok_iff.mpr ⟨x, rfl, hstands⟩, ?_⟩
    show (builtin.after (before ++ c :: later)).find? x = some e
    rw [after_append, after_cons, find?_after_of_neverGiven hnever, hfind]

end TaggedComments.Registry
