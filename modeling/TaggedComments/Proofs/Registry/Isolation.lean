import TaggedComments.Proofs.Registry.Merge

/-!
# Requests leave only their associations behind

A request may bring tags, parsers and a text of its own. None of them outlives it: a later request
is answered the same whatever earlier ones brought, as long as they merged the same associations.

- `Registry.Agree` says that two registries hold the same entries, whatever their order.
- `Registry.Agree.answer` says that what a request comes to depends on the entries alone.
- `Request.SameTrace` says that two requests leave the same behind.
- `Registry.answerAll_eq_registerAll` says that of a session nothing is left but its associations,
  `Registry.answer_isolated` what follows for two sessions and a request after them.
-/

namespace TaggedComments

namespace Registry

/-! ## Section 1: Registries with the same entries -/

/-- Two registries hold the same entries. -/
def Agree (r r' : Registry) : Prop :=
  ∀ x, r.find? x = r'.find? x

variable {r r' : Registry}

theorem Agree.set (h : Agree r r') (x : String) (e : Entry String) :
    Agree (r.set x e) (r'.set x e) := by
  intro y
  rw [find?_set, find?_set, h y]

theorem Agree.setAll (h : Agree r r') (added : List (String × Entry String)) :
    Agree (r.setAll added) (r'.setAll added) := by
  intro y
  rw [find?_setAll, find?_setAll, h y]

/-- What is logged about changes depends on the entries alone. -/
theorem Agree.changes_eq (h : Agree r r') (added : List (String × Entry String)) :
    changes r added = changes r' added := by
  -- Each change is told against the registry that the changes before it have made.
  induction added generalizing r r' with
  | nil => rfl
  | cons head added ih => rw [changes, changes, h head.1, ih (h.set head.1 head.2)]

/-- Merging fails in both registries alike, or it sets the same entries with the same log. -/
theorem Agree.merge (h : Agree r r') (es : List (Data × Association)) :
    (∃ added log, r.merge es = .ok (r.setAll added, log) ∧ r'.merge es = .ok (r'.setAll added, log))
      ∨ ∃ e, r.merge es = .error e ∧ r'.merge es = .error e := by
  unfold Registry.merge
  by_cases hempty : es.isEmpty = true
  · rw [if_pos hempty, if_pos hempty]
    exact .inl ⟨[], [], rfl, rfl⟩
  · rw [if_neg hempty, if_neg hempty]
    -- What the associations stand for has nothing to do with the registry.
    cases readEntries es with
    | error e => exact .inr ⟨e, rfl, rfl⟩
    | ok added =>
      have hchanges : changes r added = changes r' added := h.changes_eq added
      refine .inl ⟨added, _, rfl, ?_⟩
      simp only [Except.map, hchanges]

theorem Agree.register (h : Agree r r') (given : Data) :
    (∃ added log, r.register given = .ok (r.setAll added, log)
        ∧ r'.register given = .ok (r'.setAll added, log))
      ∨ ∃ e, r.register given = .error e ∧ r'.register given = .error e := by
  unfold Registry.register
  cases associationsOf given with
  | error e => exact .inr ⟨e, rfl, rfl⟩
  | ok es => exact h.merge es

theorem Agree.activeParsers_eq (h : Agree r r') (extension : String) (embedded : Bool) :
    r.activeParsers extension embedded = r'.activeParsers extension embedded := by
  have hparsers : r.parsersOf = r'.parsersOf := by
    funext x
    rw [parsersOf, parsersOf, h x]
  rw [activeParsers, activeParsers, hparsers]

theorem Agree.run_eq (h : Agree r r') (q : Request) (c : Request.Checked) :
    q.run c r = q.run c r' := by
  rw [Request.run, Request.run, h.activeParsers_eq]

/-- What a request comes to depends on the entries alone. -/
theorem Agree.answer (h : Agree r r') (q : Request) : (r.answer q).2 = (r'.answer q).2 := by
  unfold Registry.answer
  cases q.check with
  | error e => rfl
  | ok c =>
    rcases h.register q.associations with ⟨added, log, hr, hr'⟩ | ⟨e, hr, hr'⟩
    · simp only [hr, hr']
      rw [(h.setAll added).run_eq]
    · simp only [hr, hr']

end Registry

/-! ## Section 2: Sessions of requests -/

/-- Two requests pass their check and bring the same associations. In everything else they may
differ, and each of them may still fail. -/
structure Request.SameTrace (q q' : Request) : Prop where
  accepted : q.Accepted
  accepted' : q'.Accepted
  associations : q.associations = q'.associations

namespace Registry

variable {r r' : Registry}

/-- The registry after several requests are answered, one after another. -/
def answerAll (r : Registry) (qs : List Request) : Registry :=
  qs.foldl (fun r q => (r.answer q).1) r

/-- The registry after the associations of several values are registered, one after another. -/
def registerAll (r : Registry) (given : List Data) : Registry :=
  given.foldl (fun r d => (r.step (.register d)).1) r

/-- What a request that passes its check leaves behind are its associations, whatever it comes to. -/
theorem answer_registry {q : Request} (hq : q.Accepted) (r : Registry) :
    (r.answer q).1 = (r.step (.register q.associations)).1 := by
  obtain ⟨c, hc⟩ := Request.check_isOk_iff.mpr hq
  simp only [Registry.answer, step, hc]
  cases r.register q.associations with
  | error e => rfl
  | ok x => rfl

theorem answerAll_eq_registerAll {qs : List Request} (hqs : ∀ q ∈ qs, q.Accepted)
    (r : Registry) : r.answerAll qs = r.registerAll (qs.map (·.associations)) := by
  induction qs generalizing r with
  | nil => rfl
  | cons q qs ih =>
    obtain ⟨hq, hqs⟩ := List.forall_mem_cons.mp hqs
    -- The later requests start from what the first one leaves.
    show (r.answer q).1.answerAll qs =
      (r.step (.register q.associations)).1.registerAll (qs.map (·.associations))
    rw [answer_registry hq, ih hqs]

theorem Agree.registerAll (h : Agree r r') (given : List Data) :
    Agree (r.registerAll given) (r'.registerAll given) := by
  induction given generalizing r r' with
  | nil => exact h
  | cons d given ih =>
    -- One registration keeps the agreement: it sets the same entries in both, or fails in both.
    have hstep : Agree (r.step (.register d)).1 (r'.step (.register d)).1 := by
      rcases h.register d with ⟨added, log, hr, hr'⟩ | ⟨e, hr, hr'⟩
      · simp only [step, hr, hr']
        exact h.setAll added
      · simp only [step, hr, hr']
        exact h
    exact ih hstep

/-- Requests that leave the same behind pairwise pass their check and bring the same associations. -/
theorem accepted_of_sameTrace {qs qs' : List Request}
    (hqs : List.Forall₂ Request.SameTrace qs qs') :
    (∀ q ∈ qs, q.Accepted) ∧ (∀ q ∈ qs', q.Accepted)
      ∧ qs.map (·.associations) = qs'.map (·.associations) := by
  induction hqs with
  | nil => simp
  | cons hq _ ih =>
    obtain ⟨hleft, hright, hsame⟩ := ih
    refine ⟨List.forall_mem_cons.mpr ⟨hq.accepted, hleft⟩,
      List.forall_mem_cons.mpr ⟨hq.accepted', hright⟩, ?_⟩
    rw [List.map_cons, List.map_cons, hq.associations, hsame]

/-- **Options do not outlive their request.** Two sessions on registries with the same entries make
requests that pass their check and bring the same associations pairwise. They may differ in text,
extension, file, tags, parsers and embedded sections, and some of them may fail. Each session leaves
the registry behind that registering the associations alone does, and any request after the two
sessions comes to the same comments or to the same failure, with the same log. -/
theorem answer_isolated {r r' : Registry} {qs qs' : List Request} (h : Agree r r')
    (hqs : List.Forall₂ Request.SameTrace qs qs') :
    r.answerAll qs = r.registerAll (qs.map (·.associations))
      ∧ r'.answerAll qs' = r'.registerAll (qs.map (·.associations))
      ∧ ∀ q, ((r.answerAll qs).answer q).2 = ((r'.answerAll qs').answer q).2 := by
  obtain ⟨hleft, hright, hsame⟩ := accepted_of_sameTrace hqs
  have hr := answerAll_eq_registerAll hleft r
  have hr' := answerAll_eq_registerAll hright r'
  rw [← hsame] at hr'
  refine ⟨hr, hr', fun q => ?_⟩
  rw [hr, hr']
  exact (h.registerAll _).answer q

/-- A request with a tag of its own, and one that fails because its extension is unknown: the two
registries still answer a later request alike. -/
theorem answer_isolated_failing :
    let associations : Data := .mapping [(.text ".y", .text "defaultParser")]
    let one : Request := { extension := .text ".y", content := .text "// hack: a",
                           customTags := .list [.text "hack"], associations := associations }
    let other : Request := { extension := .text ".x", associations := associations }
    let later : Request := { extension := .text ".y", content := .text "// hack: b" }
    one.SameTrace other ∧ (empty.answer other).2.result = .error (.unsupported ".x")
      ∧ ((empty.answerAll [one]).answer later).2 = ((empty.answerAll [other]).answer later).2 := by
  intro associations one other later
  have htags : ∀ d ∈ [Data.text "hack"], Tags.IsTag d := by
    intro d hd
    obtain rfl := List.mem_singleton.mp hd
    exact ⟨"hack", rfl, 'h', by decide, by decide⟩
  have hone : one.Accepted := ⟨⟨".y", rfl, by decide⟩, ⟨_, rfl⟩, .inr ⟨_, rfl, htags⟩⟩
  have hother : other.Accepted := ⟨⟨".x", rfl, by decide⟩, ⟨_, rfl⟩, .inl rfl⟩
  have hpair : one.SameTrace other := ⟨hone, hother, rfl⟩
  obtain ⟨-, -, hsame⟩ := answer_isolated (fun _ => rfl : Agree empty empty) (.cons hpair .nil)
  exact ⟨hpair, rfl, hsame later⟩

end Registry

end TaggedComments
