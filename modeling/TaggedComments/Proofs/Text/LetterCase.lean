import TaggedComments.Proofs.Extract.Plain
import TaggedComments.Text.Upper

/-!
# Capitals and keys

A character has a key, which all its letter cases share, and a capital form, which may be longer.
The two come from tables of their own, so it has to be checked how they fit together. They do, but
for six capitals: each is its own capital form, and its key is that of another capital.

- `Text.CaseRun.map_induction` proves what holds of a table run by run.
- `Text.loneCapitals` are the six; `Text.upperChar_foldChar` says that any other character has the
  capital form of its key.
- `Text.upperChar_of_mem_upperChar` says that capital forms do not change any more, and
  `Text.sameLetter_of_upperChar` that a capital form of one character has the key of the character.
- `Text.Agree.upper_eq_iff` and `Text.agree_upper_iff` say what this comes to for texts.
-/

namespace TaggedComments.Text

/-! ## Section 1: Tables run by run -/

namespace CaseRun

/-- The number of code points of a run. -/
def size (r : CaseRun) : Nat :=
  (r.last - r.first) / r.step + 1

/-- The code point of a number in a run. -/
def point (r : CaseRun) (k : Nat) : Nat :=
  r.first + k * r.step

/-- Where a run moves a code point. -/
def image (r : CaseRun) (n : Nat) : Nat :=
  (Int.ofNat n + r.offset).toNat

theorem exists_point_of_covers {r : CaseRun} {n : Nat} (h : r.covers n = true) :
    ∃ k < r.size, n = r.point k := by
  simp only [covers, Bool.and_eq_true, decide_eq_true_eq, beq_iff_eq] at h
  obtain ⟨⟨hfirst, hlast⟩, hstep⟩ := h
  refine ⟨(n - r.first) / r.step, ?_, ?_⟩
  · exact Nat.lt_succ_of_le (Nat.div_le_div_right (Nat.sub_le_sub_right hlast _))
  · -- The distance from the start of the run is a multiple of its step.
    have hdistance := Nat.div_add_mod (n - r.first) r.step
    rw [hstep, Nat.add_zero, Nat.mul_comm] at hdistance
    rw [point, hdistance]
    omega

theorem map_cases (runs : List CaseRun) (n : Nat) :
    (∃ r ∈ runs, r.covers n = true ∧ map runs n = r.image n) ∨ map runs n = n := by
  rw [map]
  cases hfind : runs.find? (·.covers n) with
  | none => exact .inr rfl
  | some r =>
    have hcovers : r.covers n = true := List.find?_some (p := fun r : CaseRun => r.covers n) hfind
    exact .inl ⟨r, List.mem_of_find?_eq_some hfind, hcovers, rfl⟩

/-- What holds of every point of every run and of points that stay holds of a whole table. -/
theorem map_induction {runs : List CaseRun} {P : Nat → Nat → Prop}
    (hmoved : ∀ r ∈ runs, ∀ k < r.size, r.covers (r.point k) = true →
      P (r.point k) (r.image (r.point k)))
    (hfixed : ∀ n, P n n) (n : Nat) : P n (map runs n) := by
  rcases map_cases runs n with ⟨r, hr, hcovers, hmap⟩ | hmap
  · obtain ⟨k, hk, rfl⟩ := exists_point_of_covers hcovers
    rw [hmap]
    exact hmoved r hr k hk hcovers
  · rw [hmap]
    exact hfixed n

/-- Runs that do not cover a point may be left out. -/
theorem map_filter {runs : List CaseRun} {p : CaseRun → Bool} {n : Nat}
    (h : ∀ r ∈ runs, r.covers n = true → p r = true) : map (runs.filter p) n = map runs n := by
  have hfind : (runs.filter p).find? (·.covers n) = runs.find? (·.covers n) := by
    induction runs with
    | nil => rfl
    | cons r runs ih =>
      obtain ⟨hr, hruns⟩ := List.forall_mem_cons.mp h
      rw [List.filter_cons]
      cases hcovers : r.covers n with
      | true => simp [hr hcovers, hcovers]
      | false =>
        split
        · simp [hcovers, ih hruns]
        · simp [hcovers, ih hruns]
  rw [map, map, hfind]

/-- An interval meets the points of a run or those that it moves them to. -/
def touches (r : CaseRun) (a b : Nat) : Bool :=
  (Nat.ble r.first b && Nat.ble a r.last)
    || (Nat.ble (r.image r.first) b && Nat.ble a (r.image r.last))

theorem touches_point {r : CaseRun} {k a b : Nat} (hr : r.covers (r.point k) = true)
    (ha : a ≤ r.point k) (hb : r.point k ≤ b) : r.touches a b = true := by
  simp only [covers, Bool.and_eq_true, decide_eq_true_eq] at hr
  simp only [touches, Bool.or_eq_true, Bool.and_eq_true, Nat.ble_eq]
  exact .inl ⟨by omega, by omega⟩

theorem touches_image {r : CaseRun} {k a b : Nat} (hr : r.covers (r.point k) = true)
    (ha : a ≤ r.image (r.point k)) (hb : r.image (r.point k) ≤ b) : r.touches a b = true := by
  simp only [covers, Bool.and_eq_true, decide_eq_true_eq] at hr
  simp only [touches, Bool.or_eq_true, Bool.and_eq_true, Nat.ble_eq]
  simp only [image, Int.ofNat_eq_natCast] at ha hb ⊢
  exact .inr ⟨by omega, by omega⟩

end CaseRun

/-! ## Section 2: The two tables -/

/-- The runs of characters that have a capital form of one character. -/
def capitalRuns : List CaseRun :=
  ⟨0x61, 0x7a, 1, -32⟩ :: upperRuns

/-- The runs of characters that have another character as their key. -/
def keyRuns : List CaseRun :=
  ⟨0x41, 0x5a, 1, 32⟩ :: foldRuns

/-- The code points of the capital form of a code point. -/
def capitalsOf (n : Nat) : List Nat :=
  (upperExpansions.lookup n).getD [CaseRun.map capitalRuns n]

/-- The code point of the key of a code point. -/
def keyOf (n : Nat) : Nat :=
  CaseRun.map keyRuns n

/-- The same as `capitalsOf`, read off those parts of the tables that an interval test selects. -/
def capitalsNear (near : Nat → Nat → Bool) (n : Nat) : List Nat :=
  ((upperExpansions.filter fun e => near e.1 e.1).lookup n).getD
    [CaseRun.map (capitalRuns.filter fun s => near s.first s.last) n]

/-- The same as `keyOf`, read off the part of the table that an interval test selects. -/
def keyNear (near : Nat → Nat → Bool) (n : Nat) : Nat :=
  CaseRun.map (keyRuns.filter fun s => near s.first s.last) n

theorem map_near {runs : List CaseRun} {near : Nat → Nat → Bool} {n : Nat}
    (h : ∀ a b, a ≤ n → n ≤ b → near a b = true) :
    CaseRun.map (runs.filter fun s => near s.first s.last) n = CaseRun.map runs n := by
  apply CaseRun.map_filter
  intro r _ hcovers
  simp only [CaseRun.covers, Bool.and_eq_true, decide_eq_true_eq] at hcovers
  exact h _ _ hcovers.1.1 hcovers.1.2

theorem capitalsNear_eq {near : Nat → Nat → Bool} {n : Nat}
    (h : ∀ a b, a ≤ n → n ≤ b → near a b = true) : capitalsNear near n = capitalsOf n := by
  have hlookup : ∀ table : List (Nat × List Nat),
      (table.filter fun e => near e.1 e.1).lookup n = table.lookup n := by
    intro table
    induction table with
    | nil => rfl
    | cons e table ih =>
      obtain ⟨m, u⟩ := e
      rw [List.filter_cons, List.lookup_cons]
      by_cases hm : n = m
      · subst hm
        simp [h n n (Nat.le_refl n) (Nat.le_refl n)]
      · have hne : (n == m) = false := by simpa using hm
        split
        · simp [List.lookup_cons, hne, ih]
        · simp [hne, ih]
  rw [capitalsNear, capitalsOf, hlookup, map_near h]

/-- The six capitals that are their own capital form, but not that of their key. -/
def loneCapitals : List Char :=
  ['\u0130', '\u03F4', '\u1E9E', '\u2126', '\u212A', '\u212B']

-- The tables are checked run by run, each run against those parts only that come near to it.

theorem capitalsNear_table : ∀ r ∈ keyRuns, ∀ k < r.size,
    Char.ofNat (r.point k) ∈ loneCapitals
      ∨ capitalsNear r.touches (r.point k) = capitalsNear r.touches (r.image (r.point k)) := by
  decide +kernel

theorem keyNear_table : ∀ r ∈ capitalRuns, ∀ k < r.size,
    keyNear r.touches (r.point k) = keyNear r.touches (r.image (r.point k)) := by
  decide +kernel

theorem expansions_table : ∀ e ∈ upperExpansions, 1 < e.2.length ∧ ∀ u ∈ e.2, 65 ≤ u ∧ u < 0xd800
    ∧ capitalsNear (fun a b => Nat.ble a u && Nat.ble u b) u = [u] := by
  decide +kernel

/-- Where the tables lead there are characters; to characters below the letters they do not lead. -/
theorem image_table : ∀ r ∈ capitalRuns ++ keyRuns, 65 ≤ r.image r.first
    ∧ (r.image r.last < 0xd800 ∨ 0xdfff < r.image r.first ∧ r.image r.last < 0x110000) := by
  decide +kernel

/-- Only the first run of each table lies in ASCII. -/
theorem ascii_table : (∀ r ∈ upperRuns ++ foldRuns, 128 ≤ r.first)
    ∧ ∀ e ∈ upperExpansions, 128 ≤ e.1 := by
  decide +kernel

theorem lone_table : ∀ c ∈ loneCapitals, capitalsOf c.toNat = [c.toNat]
    ∧ c.toNat ∉ capitalsOf (keyOf c.toNat) :=
  forall_mem_of_all (by decide +kernel)

/-! ## Section 3: Code points -/

theorem capitalsOf_keyOf {n : Nat} (h : Char.ofNat n ∉ loneCapitals) :
    capitalsOf (keyOf n) = capitalsOf n := by
  have hor : Char.ofNat n ∈ loneCapitals ∨ capitalsOf n = capitalsOf (keyOf n) := by
    unfold keyOf
    apply CaseRun.map_induction
      (P := fun n m => Char.ofNat n ∈ loneCapitals ∨ capitalsOf n = capitalsOf m)
    · intro r hr k hk hcovers
      have hcheck := capitalsNear_table r hr k hk
      rwa [capitalsNear_eq fun a b => CaseRun.touches_point hcovers,
        capitalsNear_eq fun a b => CaseRun.touches_image hcovers] at hcheck
    · intro n
      exact .inr rfl
  exact (hor.resolve_left h).symm

theorem keyOf_map_capitalRuns (n : Nat) : keyOf (CaseRun.map capitalRuns n) = keyOf n := by
  apply CaseRun.map_induction (P := fun n m => keyOf m = keyOf n)
  · intro r hr k hk hcovers
    have hcheck := keyNear_table r hr k hk
    rw [keyNear, keyNear, map_near fun a b => CaseRun.touches_point hcovers,
      map_near fun a b => CaseRun.touches_image hcovers] at hcheck
    exact hcheck.symm
  · intro n
    rfl

/-- A point that is moved goes to a character that is no sign below the letters. -/
theorem map_valid {runs : List CaseRun} (hruns : runs ⊆ capitalRuns ++ keyRuns) {n : Nat}
    (hn : n.isValidChar) :
    (CaseRun.map runs n).isValidChar ∧ (CaseRun.map runs n = n ∨ 65 ≤ CaseRun.map runs n) := by
  rcases CaseRun.map_cases runs n with ⟨r, hr, hcovers, hmap⟩ | hmap
  · obtain ⟨hletter, hvalid⟩ := image_table r (hruns hr)
    simp only [CaseRun.covers, Bool.and_eq_true, decide_eq_true_eq] at hcovers
    simp only [CaseRun.image, Int.ofNat_eq_natCast] at hletter hvalid hmap
    rw [hmap]
    unfold Nat.isValidChar
    omega
  · rw [hmap]
    exact ⟨hn, .inl rfl⟩

theorem mem_of_lookup_upperExpansions {n : Nat} {u : List Nat}
    (h : upperExpansions.lookup n = some u) : (n, u) ∈ upperExpansions := by
  obtain ⟨before, after, hsplit, -⟩ := List.lookup_eq_some_iff.mp h
  rw [hsplit]
  exact List.mem_append_right _ List.mem_cons_self

/-- The points of a capital form are characters, and signs below the letters stand for
themselves. -/
theorem capitalsOf_valid {n m : Nat} (hn : n.isValidChar) (h : m ∈ capitalsOf n) :
    m.isValidChar ∧ (m = n ∨ 65 ≤ m) := by
  rw [capitalsOf] at h
  cases hlookup : upperExpansions.lookup n with
  | none =>
    rw [hlookup, Option.getD_none, List.mem_singleton] at h
    rw [h]
    exact map_valid (List.subset_append_left _ _) hn
  | some u =>
    rw [hlookup, Option.getD_some] at h
    obtain ⟨hletter, hlt, -⟩ := (expansions_table _ (mem_of_lookup_upperExpansions hlookup)).2 m h
    exact ⟨.inl hlt, .inr hletter⟩

/-- Capital forms do not change any more. -/
theorem capitalsOf_of_mem {n m : Nat} (hn : n.isValidChar) (h : m ∈ capitalsOf n) :
    capitalsOf m = [m] := by
  have hlone : ∀ {n : Nat}, n.isValidChar → Char.ofNat n ∈ loneCapitals →
      capitalsOf n = [n] := by
    intro n hn hmem
    have hfixed := (lone_table _ hmem).1
    rwa [toNat_ofNat_of_valid hn] at hfixed
  obtain ⟨hm, -⟩ := capitalsOf_valid hn h
  by_cases hlm : Char.ofNat m ∈ loneCapitals
  · exact hlone hm hlm
  by_cases hln : Char.ofNat n ∈ loneCapitals
  · have hsame := hlone hn hln
    rw [hsame, List.mem_singleton] at h
    rw [h, hsame]
  cases hlookup : upperExpansions.lookup n with
  | none =>
    -- Character and capital have one key, and each has the capital form of that.
    have hsingle : capitalsOf n = [CaseRun.map capitalRuns n] := by
      rw [capitalsOf, hlookup, Option.getD_none]
    rw [hsingle, List.mem_singleton] at h
    have hkey : keyOf m = keyOf n := by rw [h, keyOf_map_capitalRuns]
    rw [← capitalsOf_keyOf hlm, hkey, capitalsOf_keyOf hln, hsingle, h]
  | some u =>
    rw [capitalsOf, hlookup, Option.getD_some] at h
    obtain ⟨-, -, hcheck⟩ := (expansions_table _ (mem_of_lookup_upperExpansions hlookup)).2 m h
    rwa [capitalsNear_eq fun a b ha hb => by simp [Nat.ble_eq, ha, hb]] at hcheck

/-! ## Section 4: Characters -/

/-- Below the runs of a table its first run decides. -/
theorem map_cons_of_lt {r : CaseRun} {runs : List CaseRun} {n : Nat} (h : ∀ s ∈ runs, n < s.first) :
    CaseRun.map (r :: runs) n = CaseRun.map [r] n := by
  have hnone : runs.find? (·.covers n) = none := by
    rw [List.find?_eq_none]
    intro s hs
    simp [CaseRun.covers, Nat.not_le.mpr (h s hs)]
  rw [CaseRun.map, CaseRun.map, List.find?_cons, List.find?_cons, hnone, List.find?_nil]

/-- Behind its first run a table goes on. -/
theorem map_cons_of_gt {r : CaseRun} {runs : List CaseRun} {n : Nat} (h : r.last < n) :
    CaseRun.map (r :: runs) n = CaseRun.map runs n := by
  have hcovers : r.covers n = false := by simp [CaseRun.covers, Nat.not_le.mpr h]
  rw [CaseRun.map, CaseRun.map, List.find?_cons, hcovers]

theorem upperChar_eq (c : Char) : upperChar c = (capitalsOf c.toNat).map Char.ofNat := by
  obtain ⟨hruns, hexpansions⟩ := ascii_table
  rw [upperChar, capitalsOf]
  split
  · next hc =>
    have hlookup : upperExpansions.lookup c.toNat = none := by
      rw [List.lookup_eq_none_iff]
      intro e he
      have hle := hexpansions e he
      simp only [bne_iff_ne, ne_eq]
      omega
    have hascii : c.toUpper = Char.ofNat (CaseRun.map [⟨0x61, 0x7a, 1, -32⟩] c.toNat) :=
      forall_ascii (P := fun c => c.toUpper =
        Char.ofNat (CaseRun.map [⟨0x61, 0x7a, 1, -32⟩] c.toNat)) (by decide) hc
    have hfirst : CaseRun.map capitalRuns c.toNat =
        CaseRun.map [⟨0x61, 0x7a, 1, -32⟩] c.toNat := by
      apply map_cons_of_lt
      intro s hs
      have hle := hruns s (List.mem_append_left _ hs)
      omega
    rw [hlookup, Option.getD_none, List.map_singleton, hfirst, hascii]
  · next hc =>
    have hrest : CaseRun.map capitalRuns c.toNat = CaseRun.map upperRuns c.toNat :=
      map_cons_of_gt (by simp only; omega)
    rw [hrest]
    cases upperExpansions.lookup c.toNat <;> rfl

theorem foldChar_eq (c : Char) : foldChar c = Char.ofNat (keyOf c.toNat) := by
  rw [foldChar, keyOf]
  split
  · next hc =>
    have hascii : c.toLower = Char.ofNat (CaseRun.map [⟨0x41, 0x5a, 1, 32⟩] c.toNat) :=
      forall_ascii (P := fun c => c.toLower =
        Char.ofNat (CaseRun.map [⟨0x41, 0x5a, 1, 32⟩] c.toNat)) (by decide) hc
    have hfirst : CaseRun.map keyRuns c.toNat = CaseRun.map [⟨0x41, 0x5a, 1, 32⟩] c.toNat := by
      apply map_cons_of_lt
      intro s hs
      have hle := ascii_table.1 s (List.mem_append_right _ hs)
      omega
    rw [hfirst, hascii]
  · next hc =>
    have hrest : CaseRun.map keyRuns c.toNat = CaseRun.map foldRuns c.toNat :=
      map_cons_of_gt (by simp only; omega)
    rw [hrest]

theorem toNat_foldChar (c : Char) : (foldChar c).toNat = keyOf c.toNat := by
  rw [foldChar_eq, keyOf]
  exact toNat_ofNat_of_valid (map_valid (List.subset_append_right _ _) c.valid).1

theorem toNat_of_mem_upperChar {c u : Char} (h : u ∈ upperChar c) :
    u.toNat ∈ capitalsOf c.toNat := by
  rw [upperChar_eq] at h
  obtain ⟨m, hm, rfl⟩ := List.mem_map.mp h
  rwa [toNat_ofNat_of_valid (capitalsOf_valid c.valid hm).1]

theorem sameLetter_iff {c d : Char} : sameLetter c d = true ↔ keyOf c.toNat = keyOf d.toNat := by
  rw [sameLetter, beq_iff_eq, ← toNat_foldChar, ← toNat_foldChar]
  exact ⟨congrArg Char.toNat, Char.toNat_inj.mp⟩

/-- A character has the capital form of its key. -/
theorem upperChar_foldChar {c : Char} (h : c ∉ loneCapitals) :
    upperChar (foldChar c) = upperChar c := by
  rw [upperChar_eq, upperChar_eq, toNat_foldChar, capitalsOf_keyOf (by rwa [Char.ofNat_toNat])]

/-- Capital forms do not change any more. -/
theorem upperChar_of_mem_upperChar {c u : Char} (h : u ∈ upperChar c) : upperChar u = [u] := by
  rw [upperChar_eq, capitalsOf_of_mem c.valid (toNat_of_mem_upperChar h), List.map_singleton,
    Char.ofNat_toNat]

/-- A capital form of one character is another case of the character. -/
theorem sameLetter_of_upperChar {c u : Char} (h : upperChar c = [u]) : sameLetter u c = true := by
  have hmem := toNat_of_mem_upperChar (h ▸ List.mem_singleton_self u)
  rw [capitalsOf] at hmem
  cases hlookup : upperExpansions.lookup c.toNat with
  | none =>
    rw [hlookup, Option.getD_none, List.mem_singleton] at hmem
    rw [sameLetter_iff, hmem, keyOf_map_capitalRuns]
  | some v =>
    -- The entries of the other table are longer.
    have hlength := (expansions_table _ (mem_of_lookup_upperExpansions hlookup)).1
    rw [upperChar_eq, capitalsOf, hlookup, Option.getD_some] at h
    have hone := congrArg List.length h
    rw [List.length_map, List.length_singleton] at hone
    exact absurd hone (Nat.ne_of_gt hlength)

/-- A sign below the letters is in no other capital form than its own. -/
theorem eq_of_mem_upperChar {c u : Char} (h : u ∈ upperChar c) (hu : u.toNat < 65) : u = c := by
  have hor := (capitalsOf_valid c.valid (toNat_of_mem_upperChar h)).2
  exact Char.toNat_inj.mp (hor.resolve_right (by omega))

theorem upperChar_ne_nil (c : Char) : upperChar c ≠ [] := by
  rw [upperChar_eq, capitalsOf]
  cases hlookup : upperExpansions.lookup c.toNat with
  | none => simp
  | some u =>
    have hlength := (expansions_table _ (mem_of_lookup_upperExpansions hlookup)).1
    intro hnil
    rw [Option.getD_some, List.map_eq_nil_iff] at hnil
    simp [hnil] at hlength

/-- When the cases of a letter have it as their capital form: if they are the same character, or
none of the two is a lone capital. -/
theorem upperChar_eq_singleton_iff {n d : Char} (hn : upperChar n = [n])
    (h : sameLetter n d = true) :
    upperChar d = [n] ↔ n = d ∨ (n ∉ loneCapitals ∧ d ∉ loneCapitals) := by
  have hkey : foldChar d = foldChar n := (beq_iff_eq.mp h).symm
  constructor
  · intro hd
    by_cases hlone : d ∈ loneCapitals
    · -- A lone capital is its own capital form.
      have hown := (lone_table d hlone).1
      rw [upperChar_eq, hown, List.map_singleton, Char.ofNat_toNat] at hd
      exact .inl (List.singleton_inj.mp hd).symm
    · refine .inr ⟨?_, hlone⟩
      intro hlone'
      -- The capital form of its key is another one.
      rw [← upperChar_foldChar hlone, hkey] at hd
      have hmem := toNat_of_mem_upperChar (hd ▸ List.mem_singleton_self n)
      rw [toNat_foldChar] at hmem
      exact (lone_table n hlone').2 hmem
  · rintro (rfl | ⟨hlone, hlone'⟩)
    · exact hn
    · rw [← upperChar_foldChar hlone', hkey, upperChar_foldChar hlone, hn]

/-! ## Section 5: Texts -/

theorem length_le_length_upper (s : List Char) : s.length ≤ (upper s).length := by
  induction s with
  | nil => simp
  | cons c s ih =>
    have hpos := List.length_pos_iff.mpr (upperChar_ne_nil c)
    rw [upper_cons, List.length_append, List.length_cons]
    omega

theorem upperChar_of_mem_upper {s : List Char} {u : Char} (h : u ∈ upper s) :
    upperChar u = [u] := by
  obtain ⟨c, -, hc⟩ := List.mem_flatMap.mp h
  exact upperChar_of_mem_upperChar hc

/-- A text that agrees with a capital text becomes that text in upper case if at each place the two
have the same character, or characters that are no lone capitals. -/
theorem Agree.upper_eq_iff {t s : List Char} (h : Agree t s)
    (ht : ∀ c ∈ t, upperChar c = [c]) :
    upper s = t ↔
      List.Forall₂ (fun n d => n = d ∨ (n ∉ loneCapitals ∧ d ∉ loneCapitals)) t s := by
  induction h with
  | nil => simp
  | @cons n d t s hletter hagree ih =>
    obtain ⟨hn, ht⟩ := List.forall_mem_cons.mp ht
    rw [List.forall₂_cons, ← upperChar_eq_singleton_iff hn hletter, ← ih ht, upper_cons]
    constructor
    · intro heq
      -- No character is lost, so the first one has a capital form of one character.
      have hlength := congrArg List.length heq
      rw [List.length_append, List.length_cons, hagree.length_eq] at hlength
      have hle := length_le_length_upper s
      have hpos := List.length_pos_iff.mpr (upperChar_ne_nil d)
      obtain ⟨u, hu⟩ := List.length_eq_one_iff.mp (show (upperChar d).length = 1 by omega)
      rw [hu, List.singleton_append, List.cons.injEq] at heq
      exact ⟨heq.1 ▸ hu, heq.2⟩
    · rintro ⟨hd, hs⟩
      rw [hd, hs]
      rfl

/-- In upper case a text is as long as before if each of its characters has a capital form of one
character. -/
theorem length_upper_eq_iff {s : List Char} :
    (upper s).length = s.length ↔ ∀ c ∈ s, (upperChar c).length = 1 := by
  induction s with
  | nil => simp
  | cons c s ih =>
    have hpos := List.length_pos_iff.mpr (upperChar_ne_nil c)
    have hle := length_le_length_upper s
    rw [List.forall_mem_cons, ← ih, upper_cons, List.length_append, List.length_cons]
    omega

/-- These are the texts that agree with their upper case. -/
theorem agree_upper_iff {s : List Char} :
    Agree (upper s) s ↔ ∀ c ∈ s, (upperChar c).length = 1 := by
  constructor
  · intro h
    exact length_upper_eq_iff.mp h.length_eq
  · intro h
    induction s with
    | nil => exact .nil
    | cons c s ih =>
      obtain ⟨hc, hs⟩ := List.forall_mem_cons.mp h
      obtain ⟨u, hu⟩ := List.length_eq_one_iff.mp hc
      rw [upper_cons, hu]
      exact .cons (sameLetter_of_upperChar hu) (ih hs)

/-- What agrees with a character of ASCII has a capital form of one character. -/
theorem length_upperChar_of_sameLetter {n d : Char} (hn : n.toNat < 128)
    (h : sameLetter n d = true) : (upperChar d).length = 1 := by
  by_cases hlone : d ∈ loneCapitals
  · rw [upperChar_eq, (lone_table d hlone).1]
    rfl
  · -- Its key is the same character in lower case.
    have hkey : foldChar d = n.toLower := by
      rw [← beq_iff_eq.mp h, foldChar, if_pos hn]
    have hlower : n.toLower.toNat < 128 :=
      forall_ascii (P := fun n => n.toLower.toNat < 128) (by decide) hn
    rw [← upperChar_foldChar hlone, hkey, upperChar, if_pos hlower]
    rfl

theorem Agree.length_upperChar {name s : List Char} (h : Agree name s)
    (hname : ∀ n ∈ name, n.toNat < 128) : ∀ d ∈ s, (upperChar d).length = 1 := by
  induction h with
  | nil => simp
  | cons hletter _ ih =>
    obtain ⟨hn, hname⟩ := List.forall_mem_cons.mp hname
    exact List.forall_mem_cons.mpr ⟨length_upperChar_of_sameLetter hn hletter, ih hname⟩

end TaggedComments.Text
