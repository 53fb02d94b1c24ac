import TaggedComments.Proofs.Aggregate.LineOrder
import TaggedComments.Proofs.Registry.History
import TaggedComments.Proofs.Registry.Resolution

/-!
# Inclusions are followed one level deep

Extensions may include themselves and one another in cycles. Resolving an extension looks up the
extension and those that it includes and nothing else, so it always comes to an end, and what other
entries hold, or what the included entries include in turn, makes no difference.

- `FirstOccurrences` says that a list has the items of another one where they first occur.
- `Registry.SameFor` says that two registries agree on what is looked up for an extension;
  `Registry.SameFor.activeParsers` says that resolving then comes to the same.
- `Registry.activeParsers_after` says so for a registry before and after calls.
- `Registry.activeParsers_one_level` says what resolving comes to, when it fails, and on what it
  depends.
-/

namespace TaggedComments

/-! ## Section 1: First occurrences -/

/-- A list has the items of another one, each once, in the order in which they first occur there. -/
structure FirstOccurrences {α : Type} [DecidableEq α] (xs ys : List α) : Prop where
  /-- No item is repeated. -/
  nodup : ys.Nodup
  /-- No item is missing, and none is added. -/
  mem : ∀ x, x ∈ ys ↔ x ∈ xs
  /-- What occurs first stands first. -/
  order : ys.Pairwise fun x y => xs.idxOf x < xs.idxOf y

theorem firstOccurrences_distinct {α : Type} [DecidableEq α] (xs : List α) :
    FirstOccurrences xs (distinct xs) :=
  ⟨nodup_distinct xs, fun _ => mem_distinct, pairwise_idxOf_distinctBy (by simp) xs⟩

/-- First occurrences are determined. -/
theorem FirstOccurrences.unique {α : Type} [DecidableEq α] {xs ys zs : List α}
    (h : FirstOccurrences xs ys) (h' : FirstOccurrences xs zs) : ys = zs := by
  have hperm : ys.Perm zs := by
    apply (List.perm_ext_iff_of_nodup h.nodup h'.nodup).mpr
    intro x
    rw [h.mem, h'.mem]
  -- Both stand in the order of their first places, and no two items share one.
  apply hperm.eq_of_pairwise _ h.order h'.order
  intro x y _ _ hxy hyx
  omega

namespace Registry

/-! ## Section 2: What is looked up -/

/-- Two registries agree on what is looked up for an extension: on its own entry and on the parsers
of the extensions that it includes. What these include may differ, and all other entries too. -/
structure SameFor (r r' : Registry) (x : String) : Prop where
  /-- The extension has the same entry, or none in both. -/
  own : r'.find? x = r.find? x
  /-- Each included extension has the same parsers, or no entry in both. -/
  included : ∀ e, r.find? x = some e → ∀ y ∈ e.included,
    (r'.find? y).map (·.parsers) = (r.find? y).map (·.parsers)

variable {r r' : Registry} {x : String} {b : Bool}

theorem SameFor.supports_eq (h : SameFor r r' x) {e : Entry String} (he : r.find? x = some e)
    {y : String} (hy : y ∈ e.included) : r'.supports y = r.supports y := by
  have hsame := congrArg Option.isSome (h.included e he y hy)
  rwa [Option.isSome_map, Option.isSome_map] at hsame

/-- The entry of an extension may include other extensions from now on. -/
theorem SameFor.set_included {y : String} (hne : x ≠ y) {i : Entry String}
    (hi : r.find? y = some i) (included : List String) :
    SameFor r (r.set y ⟨i.parsers, included⟩) x := by
  refine ⟨by rw [find?_set, if_neg hne], fun e he z hz => ?_⟩
  rw [find?_set]
  split
  · next heq => rw [heq, hi, Option.map_some, Option.map_some]
  · rfl

/-- An extension that is not looked up may get any entry. -/
theorem SameFor.set_other {y : String} (hne : x ≠ y)
    (hnot : ∀ e, r.find? x = some e → y ∉ e.included) (i : Entry String) :
    SameFor r (r.set y i) x := by
  refine ⟨by rw [find?_set, if_neg hne], fun e he z hz => ?_⟩
  have hzy : z ≠ y := by
    rintro rfl
    exact hnot e he hz
  rw [find?_set, if_neg hzy]

/-- Calls that merge nothing for the extensions that are looked up change nothing for them. -/
theorem SameFor.after {calls : List Call} (hown : NeverGiven calls x)
    (hincluded : ∀ e, r.find? x = some e → ∀ y ∈ e.included, NeverGiven calls y) :
    SameFor r (r.after calls) x := by
  refine ⟨find?_after_of_neverGiven hown, fun e he y hy => ?_⟩
  rw [find?_after_of_neverGiven (hincluded e he y hy)]

/-- Entries with the same parsers are found for the same extensions. -/
theorem exists_found_of_map_eq {ys : List String} {inner : List (Entry String)}
    (h : List.Forall₂ (fun y i => r.find? y = some i) ys inner)
    (hsame : ∀ y ∈ ys, (r'.find? y).map (·.parsers) = (r.find? y).map (·.parsers)) :
    ∃ inner', List.Forall₂ (fun y i => r'.find? y = some i) ys inner'
      ∧ inner'.flatMap (·.parsers) = inner.flatMap (·.parsers) := by
  induction h with
  | nil => exact ⟨[], .nil, rfl⟩
  | cons hfound _ ih =>
    -- The first extension has an entry in the other registry too, which may include others.
    obtain ⟨hhead, htail⟩ := List.forall_mem_cons.mp hsame
    obtain ⟨inner', hinner', hparsers⟩ := ih htail
    rw [hfound, Option.map_some, Option.map_eq_some_iff] at hhead
    obtain ⟨i, hi, hsame⟩ := hhead
    refine ⟨i :: inner', .cons hi hinner', ?_⟩
    rw [List.flatMap_cons, List.flatMap_cons, hsame, hparsers]

/-- The entries that apply have the same parsers, one after the other. -/
theorem SameFor.applies (h : SameFor r r' x) {es : List (Entry String)} (hes : r.Applies x b es) :
    ∃ es', r'.Applies x b es' ∧ es'.flatMap (·.parsers) = es.flatMap (·.parsers) := by
  cases hes with
  | own he => exact ⟨_, .own (h.own.trans he), rfl⟩
  | embedded he hinner =>
    obtain ⟨inner', hinner', hparsers⟩ := exists_found_of_map_eq hinner (h.included _ he)
    exact ⟨_, .embedded (h.own.trans he) hinner', by
      rw [List.flatMap_cons, List.flatMap_cons, hparsers]⟩

/-- The same included extension is the first that is missing. -/
theorem SameFor.firstMissing (h : SameFor r r' x) {y : String} (hy : r.FirstMissing x y) :
    r'.FirstMissing x y := by
  obtain ⟨e, before, later, he, hsplit, hbefore, hmissing⟩ := hy
  refine ⟨e, before, later, h.own.trans he, hsplit, fun z hz => ?_, ?_⟩
  · rw [h.supports_eq he (by simp [hsplit, hz])]
    exact hbefore z hz
  · rw [h.supports_eq he (by simp [hsplit])]
    exact hmissing

/-- Resolving comes to the same in registries that agree on what is looked up. -/
theorem SameFor.activeParsers (h : SameFor r r' x) (b : Bool) :
    r'.activeParsers x b = r.activeParsers x b := by
  -- Whatever it comes to in the one registry, it comes to in the other.
  cases hr : r.activeParsers x b with
  | ok names =>
    obtain ⟨es, hes, rfl⟩ := activeParsers_eq_ok_iff.mp hr
    obtain ⟨es', hes', hparsers⟩ := h.applies hes
    exact activeParsers_eq_ok_iff.mpr ⟨es', hes', by rw [hparsers]⟩
  | error f =>
    apply activeParsers_eq_error_iff.mpr
    rcases activeParsers_eq_error_iff.mp hr with ⟨hmissing, hf⟩ | ⟨hb, y, hy, hf⟩
    · rw [supports, h.own, ← supports]
      exact .inl ⟨hmissing, hf⟩
    · exact .inr ⟨hb, y, h.firstMissing hy, hf⟩

/-- Calls that merge nothing for an extension and for those that it includes leave its parsers
alone. -/
theorem activeParsers_after {calls : List Call} (hown : NeverGiven calls x)
    (hincluded : ∀ e, r.find? x = some e → ∀ y ∈ e.included, NeverGiven calls y) (b : Bool) :
    (r.after calls).activeParsers x b = r.activeParsers x b :=
  (SameFor.after hown hincluded).activeParsers b

/-! ## Section 3: One level -/

/-- **One level.** In any registry, whatever its entries include, resolving an extension fails
exactly if the extension has no entry or, with embedded sections, if one that it includes has none,
and names the first of these. Otherwise it gives the parsers of its own entry and, with embedded
sections, of those that it includes, in this order and each where it first occurs. It comes to the
same in each registry that agrees on what is looked up: another entry may include other extensions,
and an extension that is neither the one in question nor included by it may get any entry. -/
theorem activeParsers_one_level (r : Registry) (x : String) (b : Bool) :
    (∀ f, r.activeParsers x b = .error f ↔ (r.find? x = none ∧ f = .unsupported x)
        ∨ (b = true ∧ ∃ y, r.FirstMissing x y ∧ f = .unsupported y))
      ∧ (∀ names, r.activeParsers x b = .ok names ↔
        ∃ es, r.Applies x b es ∧ FirstOccurrences (es.flatMap (·.parsers)) names)
      ∧ (∀ r', SameFor r r' x → r'.activeParsers x b = r.activeParsers x b)
      ∧ (∀ y i included, x ≠ y → r.find? y = some i →
        (r.set y ⟨i.parsers, included⟩).activeParsers x b = r.activeParsers x b)
      ∧ ∀ y i, x ≠ y → (∀ e, r.find? x = some e → y ∉ e.included) →
        (r.set y i).activeParsers x b = r.activeParsers x b := by
  refine ⟨fun f => ?_, fun names => ?_, fun r' h => h.activeParsers b, ?_, ?_⟩
  · rw [activeParsers_eq_error_iff, supports_eq_false_iff]
  · rw [activeParsers_eq_ok_iff]
    constructor
    · rintro ⟨es, hes, rfl⟩
      exact ⟨es, hes, firstOccurrences_distinct _⟩
    · rintro ⟨es, hes, hnames⟩
      exact ⟨es, hes, hnames.unique (firstOccurrences_distinct _)⟩
  · intro y i included hne hi
    exact (SameFor.set_included hne hi included).activeParsers b
  · intro y i hne hnot
    exact (SameFor.set_other hne hnot i).activeParsers b

/-- Extensions that include themselves and one another: the parsers of the second level are not
among those of the first, and what is included there may change. -/
theorem activeParsers_one_level_cycle :
    let entry : List String → List String → Data := fun parsers included => .mapping
      [(.text "parser_name", .list (parsers.map .text)),
        (.text "included_files", .list (included.map .text))]
    let given : Data := .mapping [(.text ".a", entry ["one", "two"] [".a", ".b"]),
      (.text ".b", entry ["two", "three"] [".c", ".a"]), (.text ".c", entry ["four"] [".b"])]
    let changed : Data := .mapping [(.text ".b", entry ["two", "three"] [".d"]),
      (.text ".c", entry ["five"] [".c"])]
    let r := builtin.after [.step (.register given)]
    let r' := r.after [.step (.register changed)]
    SameFor r r' ".a" ∧ r.activeParsers ".a" true = .ok ["one", "two", "three"]
      ∧ r'.activeParsers ".a" true = .ok ["one", "two", "three"]
      ∧ (r.set ".b" ⟨["two", "three"], []⟩).activeParsers ".a" true = r.activeParsers ".a" true
      ∧ (r.set ".c" ⟨["six"], []⟩).activeParsers ".a" true = r.activeParsers ".a" true
      ∧ r'.activeParsers ".b" true = .error (.unsupported ".d") := by
  intro entry given changed r r'
  have hr : r = builtin.setAll [(".a", ⟨["one", "two"], [".a", ".b"]⟩),
      (".b", ⟨["two", "three"], [".c", ".a"]⟩), (".c", ⟨["four"], [".b"]⟩)] := rfl
  have hr' : r' = r.setAll [(".b", ⟨["two", "three"], [".d"]⟩), (".c", ⟨["five"], [".c"]⟩)] := rfl
  have ha : r.find? ".a" = some ⟨["one", "two"], [".a", ".b"]⟩ := by
    rw [hr, find?_setAll]
    decide
  have hb : r.find? ".b" = some ⟨["two", "three"], [".c", ".a"]⟩ := by
    rw [hr, find?_setAll]
    decide
  have ha' : r'.find? ".a" = some ⟨["one", "two"], [".a", ".b"]⟩ := by
    rw [hr', find?_setAll, ha]
    decide
  have hb' : r'.find? ".b" = some ⟨["two", "three"], [".d"]⟩ := by
    rw [hr', find?_setAll]
    decide
  have hmissing : r'.FirstMissing ".b" ".d" :=
    ⟨_, [], [], hb', rfl, by simp, by decide +kernel⟩
  -- From here on only what is found in the two registries counts.
  clear_value r r'
  have hsame : SameFor r r' ".a" := by
    refine ⟨ha'.trans ha.symm, fun e he y hy => ?_⟩
    obtain rfl := Option.some.inj (ha.symm.trans he)
    rcases List.mem_pair.mp hy with rfl | rfl
    · rw [ha, ha']
    · rw [hb, hb']
      rfl
  obtain ⟨-, hok, hframe, hincluded, hother⟩ := activeParsers_one_level r ".a" true
  have hnames : r.activeParsers ".a" true = .ok ["one", "two", "three"] := by
    apply (hok _).mpr
    exact ⟨_, .embedded ha (.cons ha (.cons hb .nil)), by decide, by simp; grind, by decide⟩
  have hc : ∀ e, r.find? ".a" = some e → ".c" ∉ e.included := by
    intro e he
    obtain rfl := Option.some.inj (ha.symm.trans he)
    decide
  obtain ⟨herror, -⟩ := activeParsers_one_level r' ".b" true
  exact ⟨hsame, hnames, (hframe r' hsame).trans hnames, hincluded ".b" _ [] (by decide) hb,
    hother ".c" _ (by decide) hc, (herror _).mpr (.inr ⟨rfl, ".d", hmissing, rfl⟩)⟩

end Registry

end TaggedComments
