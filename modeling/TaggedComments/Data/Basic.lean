import TaggedComments.Data.Scalar

/-!
# Dynamic values

Requests, associations, configurations and comment lists arrive as values whose kinds nothing
guarantees. A value is a scalar, a list, a mapping that keeps the order of its entries, a set or
a pair. A value may contain itself: it is then a knot, and stands inside of itself by its name.

- `Data.unfold` opens a knot: what is inside of it is complete again.
- `Data.truthy` and `Data.same` extend the notions of scalars; `Data.same_refl`, `Data.same_comm`
  and `Data.same_trans` make equality an equivalence.
- `Data.isKey` says which values may be keys of a mapping.
- `Data.get?` looks a text key up; `Entries.put` sets a key, which keeps its place.
-/

namespace TaggedComments

/-- A dynamic value. -/
inductive Data where
  /-- A value without parts. -/
  | scalar (s : Scalar)
  /-- A list. -/
  | list (items : List Data)
  /-- A mapping, in the order of its entries. -/
  | mapping (entries : List (Data × Data))
  /-- A set, in the order of its members. -/
  | set (members : List Data)
  /-- A pair. -/
  | pair (first second : Data)
  /-- A collection that contains itself, by its name. -/
  | knot (name : Nat) (body : Data)
  /-- The collection of a name around this place. -/
  | again (name : Nat)
  deriving Inhabited

namespace Data

/-- No value. -/
@[match_pattern] abbrev null : Data := .scalar .null

/-- A truth value. -/
@[match_pattern] abbrev bool (b : Bool) : Data := .scalar (.bool b)

/-- An integer. -/
@[match_pattern] abbrev int (n : Int) : Data := .scalar (.int n)

/-- A floating point number. -/
@[match_pattern] abbrev real (x : Binary64) : Data := .scalar (.real x)

/-- A text. -/
@[match_pattern] abbrev text (s : String) : Data := .scalar (.text s)

/-! ## Decidable equality -/

mutual

/-- Equality as trees, decided. -/
def beq : Data → Data → Bool
  | .scalar s, .scalar t => s == t
  | .list xs, .list ys => beqItems xs ys
  | .mapping es, .mapping fs => beqEntries es fs
  | .set xs, .set ys => beqItems xs ys
  | .pair a b, .pair c d => beq a c && beq b d
  | .knot n a, .knot m b => n == m && beq a b
  | .again n, .again m => n == m
  | _, _ => false
termination_by structural a => a

/-- Equality of lists of values. -/
def beqItems : List Data → List Data → Bool
  | [], [] => true
  | x :: xs, y :: ys => beq x y && beqItems xs ys
  | _, _ => false
termination_by structural a => a

/-- Equality of lists of entries. -/
def beqEntries : List (Data × Data) → List (Data × Data) → Bool
  | [], [] => true
  | (k, v) :: es, (l, w) :: fs => beq k l && beq v w && beqEntries es fs
  | _, _ => false
termination_by structural a => a

end

mutual

private theorem eq_of_beq' : ∀ {a b : Data}, beq a b = true → a = b
  | .scalar s, b, h => by
    cases b <;> simp_all [beq]
  | .list xs, b, h => by
    cases b <;> simp only [beq, Bool.false_eq_true] at h
    rw [eq_of_beqItems h]
  | .mapping es, b, h => by
    cases b <;> simp only [beq, Bool.false_eq_true] at h
    rw [eq_of_beqEntries h]
  | .set xs, b, h => by
    cases b <;> simp only [beq, Bool.false_eq_true] at h
    rw [eq_of_beqItems h]
  | .pair x y, b, h => by
    cases b <;> simp only [beq, Bool.false_eq_true, Bool.and_eq_true] at h
    rw [eq_of_beq' h.1, eq_of_beq' h.2]
  | .knot n a, b, h => by
    cases b <;> simp only [beq, Bool.false_eq_true, Bool.and_eq_true, beq_iff_eq] at h
    rw [h.1, eq_of_beq' h.2]
  | .again n, b, h => by
    cases b <;> simp only [beq, Bool.false_eq_true, beq_iff_eq] at h
    rw [h]

private theorem eq_of_beqItems : ∀ {xs ys : List Data}, beqItems xs ys = true → xs = ys
  | [], ys, h => by cases ys <;> simp_all [beqItems]
  | x :: xs, ys, h => by
    cases ys <;> simp only [beqItems, Bool.false_eq_true, Bool.and_eq_true] at h
    rw [eq_of_beq' h.1, eq_of_beqItems h.2]

private theorem eq_of_beqEntries :
    ∀ {es fs : List (Data × Data)}, beqEntries es fs = true → es = fs
  | [], fs, h => by cases fs <;> simp_all [beqEntries]
  | (k, v) :: es, fs, h => by
    cases fs with
    | nil => simp [beqEntries] at h
    | cons f fs =>
      obtain ⟨l, w⟩ := f
      simp only [beqEntries, Bool.and_eq_true] at h
      rw [eq_of_beq' h.1.1, eq_of_beq' h.1.2, eq_of_beqEntries h.2]

end

mutual

private theorem beq_self : ∀ a : Data, beq a a = true
  | .scalar s => by simp [beq]
  | .list xs => by simp [beq, beqItems_self xs]
  | .mapping es => by simp [beq, beqEntries_self es]
  | .set xs => by simp [beq, beqItems_self xs]
  | .pair x y => by simp [beq, beq_self x, beq_self y]
  | .knot n x => by simp [beq, beq_self x]
  | .again n => by simp [beq]

private theorem beqItems_self : ∀ xs : List Data, beqItems xs xs = true
  | [] => by simp [beqItems]
  | x :: xs => by simp [beqItems, beq_self x, beqItems_self xs]

private theorem beqEntries_self : ∀ es : List (Data × Data), beqEntries es es = true
  | [] => by simp [beqEntries]
  | (k, v) :: es => by simp [beqEntries, beq_self k, beq_self v, beqEntries_self es]

end

/-- Two values are equal as trees exactly when the decision says so. -/
theorem beq_iff_eq (a b : Data) : beq a b = true ↔ a = b :=
  ⟨eq_of_beq', fun h => h ▸ beq_self a⟩

instance : DecidableEq Data := fun a b =>
  decidable_of_iff (beq a b = true) (beq_iff_eq a b)

/-! ## Values that contain themselves -/

mutual

/-- The value with a whole in the places of its name. -/
def tie (name : Nat) (whole : Data) : Data → Data
  | .scalar s => .scalar s
  | .list xs => .list (tieItems name whole xs)
  | .mapping es => .mapping (tieEntries name whole es)
  | .set xs => .set (tieItems name whole xs)
  | .pair a b => .pair (tie name whole a) (tie name whole b)
  | .knot n b => if n = name then .knot n b else .knot n (tie name whole b)
  | .again n => if n = name then whole else .again n
termination_by structural d => d

/-- The values with a whole in the places of its name. -/
def tieItems (name : Nat) (whole : Data) : List Data → List Data
  | [] => []
  | x :: xs => tie name whole x :: tieItems name whole xs
termination_by structural d => d

/-- The entries with a whole in the places of its name. -/
def tieEntries (name : Nat) (whole : Data) : List (Data × Data) → List (Data × Data)
  | [] => []
  | (k, v) :: es => (tie name whole k, tie name whole v) :: tieEntries name whole es
termination_by structural d => d

end

/-- The body of a knot, in which the knot itself stands in the places of its name; any other value
as it is. -/
def unfold : Data → Data
  | .knot n b => tie n (.knot n b) b
  | d => d

@[simp] theorem unfold_scalar (s : Scalar) : unfold (.scalar s) = .scalar s := rfl

@[simp] theorem unfold_list (xs : List Data) : unfold (.list xs) = .list xs := rfl

@[simp] theorem unfold_mapping (es : List (Data × Data)) :
    unfold (.mapping es) = .mapping es := rfl

/-! ## Kinds -/

/-- Whether the value counts as true: nothing, false, zero and what is empty do not. -/
def truthy : Data → Bool
  | .scalar s => s.truthy
  | .list xs => !xs.isEmpty
  | .mapping es => !es.isEmpty
  | .set xs => !xs.isEmpty
  | .pair _ _ => true
  | .knot _ b => b.truthy
  | .again _ => true

/-- The value if it counts as true, else the other. -/
def orElse (d other : Data) : Data :=
  if d.truthy then d else other

/-- Whether the value may be a key: lists, mappings and sets may not, also inside a pair. -/
def isKey : Data → Bool
  | .scalar _ => true
  | .pair a b => a.isKey && b.isKey
  | .knot _ b => b.isKey
  | _ => false

mutual

/-- Equality of values. -/
def same : Data → Data → Bool
  | .scalar s, .scalar t => s.same t
  | .list xs, .list ys => sameItems xs ys
  | .pair a b, .pair c d => same a c && same b d
  | a, b => beq a b
termination_by structural a => a

/-- Equality of lists of values. -/
def sameItems : List Data → List Data → Bool
  | [], [] => true
  | x :: xs, y :: ys => same x y && sameItems xs ys
  | _, _ => false
termination_by structural a => a

end

@[simp] theorem same_text (s t : String) : same (.text s) (.text t) = (s == t) := by
  simp [same]

mutual

@[simp] theorem same_refl : ∀ a : Data, same a a = true
  | .scalar s => by simp [same]
  | .list xs => by simp [same, sameItems_refl xs]
  | .pair a b => by simp [same, same_refl a, same_refl b]
  | .mapping es => by simp [same, beq_iff_eq]
  | .set xs => by simp [same, beq_iff_eq]
  | .knot n a => by simp [same, beq_iff_eq]
  | .again n => by simp [same, beq_iff_eq]

theorem sameItems_refl : ∀ xs : List Data, sameItems xs xs = true
  | [] => by simp [sameItems]
  | x :: xs => by simp [sameItems, same_refl x, sameItems_refl xs]

end

mutual

private theorem same_symm : ∀ {a b : Data}, same a b = true → same b a = true
  | .scalar s, b, h => by
    cases b <;> simp only [same, beq, Bool.false_eq_true] at h ⊢
    rw [Scalar.same_comm]
    exact h
  | .list xs, b, h => by
    cases b <;> simp only [same, beq, Bool.false_eq_true] at h ⊢
    exact sameItems_symm h
  | .pair x y, b, h => by
    cases b <;> simp only [same, beq, Bool.false_eq_true, Bool.and_eq_true] at h ⊢
    exact ⟨same_symm h.1, same_symm h.2⟩
  | .mapping es, b, h | .set xs, b, h | .knot n a, b, h | .again n, b, h => by
    simp only [same, beq_iff_eq] at h
    exact h ▸ same_refl _

private theorem sameItems_symm : ∀ {xs ys : List Data}, sameItems xs ys = true →
    sameItems ys xs = true
  | [], ys, h => by cases ys <;> simp_all [sameItems]
  | x :: xs, ys, h => by
    cases ys <;> simp only [sameItems, Bool.false_eq_true, Bool.and_eq_true] at h ⊢
    exact ⟨same_symm h.1, sameItems_symm h.2⟩

end

theorem same_comm (a b : Data) : same a b = same b a := by
  rw [Bool.eq_iff_iff]
  exact ⟨same_symm, same_symm⟩

mutual

theorem same_trans : ∀ {a b c : Data}, same a b = true → same b c = true → same a c = true
  | .scalar s, b, c, h, k => by
    cases b <;> simp only [same, beq, Bool.false_eq_true] at h
    cases c <;> simp only [same, beq, Bool.false_eq_true] at k ⊢
    exact Scalar.same_trans h k
  | .list xs, b, c, h, k => by
    cases b <;> simp only [same, beq, Bool.false_eq_true] at h
    cases c <;> simp only [same, beq, Bool.false_eq_true] at k ⊢
    exact sameItems_trans h k
  | .pair x y, b, c, h, k => by
    cases b <;> simp only [same, beq, Bool.false_eq_true, Bool.and_eq_true] at h
    cases c <;> simp only [same, beq, Bool.false_eq_true, Bool.and_eq_true] at k ⊢
    exact ⟨same_trans h.1 k.1, same_trans h.2 k.2⟩
  | .mapping es, b, c, h, k | .set xs, b, c, h, k | .knot n a, b, c, h, k
  | .again n, b, c, h, k => by
    simp only [same, beq_iff_eq] at h
    exact h ▸ k

private theorem sameItems_trans : ∀ {xs ys zs : List Data}, sameItems xs ys = true →
    sameItems ys zs = true → sameItems xs zs = true
  | [], ys, zs, h, k => by cases ys <;> simp_all [sameItems]
  | x :: xs, ys, zs, h, k => by
    cases ys <;> simp only [sameItems, Bool.false_eq_true, Bool.and_eq_true] at h
    cases zs <;> simp only [sameItems, Bool.false_eq_true, Bool.and_eq_true] at k ⊢
    exact ⟨same_trans h.1 k.1, sameItems_trans h.2 k.2⟩

end

/-- The text of a text value. -/
def asText? : Data → Option String
  | .text s => some s
  | _ => none

/-- The items of a list. -/
def asList? (d : Data) : Option (List Data) :=
  match d.unfold with
  | .list xs => some xs
  | _ => none

/-- The entries of a mapping. -/
def asMapping? (d : Data) : Option (List (Data × Data)) :=
  match d.unfold with
  | .mapping es => some es
  | _ => none

/-! ## Entries of a mapping -/

/-- The value of a key among entries. -/
def lookup? (key : Data) (entries : List (Data × Data)) : Option Data :=
  (entries.find? fun e => e.1.same key).map (·.2)

/-- The value of a text key of a mapping. -/
def get? (key : String) (d : Data) : Option Data :=
  match d.unfold with
  | .mapping es => lookup? (.text key) es
  | _ => none

/-- Set a key: a key that is present keeps its place and its spelling and gets the new value, a
new one goes to the end. -/
def put (key value : Data) : List (Data × Data) → List (Data × Data)
  | [] => [(key, value)]
  | e :: es => if e.1.same key then (e.1, value) :: es else e :: put key value es

/-- The entries after setting keys one after another. -/
def putAll (entries added : List (Data × Data)) : List (Data × Data) :=
  added.foldl (fun es e => put e.1 e.2 es) entries

end Data

end TaggedComments
