import Mathlib.Data.List.AList
import Mathlib.Data.List.Induction

/-!
# Unordered maps

`std::unordered_map`, as an association list without repeated keys. The order of the list is not
the order in which a loop goes through the map: that one depends on the hash function and on the
buckets, so a loop may meet the entries in any order (`IterationOrder`).

**Inserting.** `emplace` does nothing if the key is there already. After any number of calls the
map has the first value given for each key (`lookup_emplaceAll`).

**Searching.** A loop that returns the first value with a property returns `v` in every iteration
order exactly when `v` is the only such value (`forall_find_iff`), and finds nothing exactly when
there is none (`find_eq_none_iff`). If a value has the property exactly under one key, the loop is
a lookup of that key (`find_eq_lookup`).
-/

abbrev UnorderedMap (κ β : Type*) := AList fun _ : κ => β

namespace UnorderedMap

variable {κ β : Type*}

/-- An order in which a loop may go through the entries. -/
def IterationOrder (m : UnorderedMap κ β) (order : List (Σ _ : κ, β)) : Prop :=
  order.Perm m.entries

/-- The first value with the property. -/
def find (p : β → Bool) (order : List (Σ _ : κ, β)) : Option β :=
  (order.find? fun e => p e.2).map Sigma.snd

variable [DecidableEq κ]

def emplace (m : UnorderedMap κ β) (k : κ) (v : β) : UnorderedMap κ β :=
  if k ∈ m then m else m.insert k v

def emplaceAll (calls : List (κ × β)) : UnorderedMap κ β :=
  calls.foldl (fun m c => m.emplace c.1 c.2) ∅

/-! ## Inserting -/

theorem lookup_emplace_self (m : UnorderedMap κ β) (k : κ) (v : β) :
    (m.emplace k v).lookup k = some ((m.lookup k).getD v) := by
  unfold emplace
  by_cases hk : k ∈ m
  · obtain ⟨v', hv'⟩ := Option.isSome_iff_exists.1 (AList.lookup_isSome.2 hk)
    rw [if_pos hk, hv', Option.getD_some]
  · rw [if_neg hk, AList.lookup_insert, AList.lookup_eq_none.2 hk, Option.getD_none]

theorem lookup_emplace_of_ne (m : UnorderedMap κ β) {k k' : κ} (v : β) (h : k' ≠ k) :
    (m.emplace k v).lookup k' = m.lookup k' := by
  unfold emplace
  by_cases hk : k ∈ m
  · rw [if_pos hk]
  · rw [if_neg hk, AList.lookup_insert_ne h]

@[simp] theorem emplaceAll_concat (calls : List (κ × β)) (c : κ × β) :
    emplaceAll (calls ++ [c]) = (emplaceAll calls).emplace c.1 c.2 := by
  rw [emplaceAll, List.foldl_append, List.foldl_cons, List.foldl_nil, emplaceAll]

/-- **The first value stays.** -/
theorem lookup_emplaceAll (calls : List (κ × β)) (k : κ) :
    (emplaceAll calls).lookup k = calls.lookup k := by
  induction calls using List.reverseRecOn with
  | nil => rfl
  | append_singleton calls c ih =>
    obtain ⟨k', v⟩ := c
    rw [emplaceAll_concat, List.lookup_append]
    by_cases hk : k = k'
    · subst hk
      rw [lookup_emplace_self, ih]
      cases calls.lookup k <;> simp
    · have hne : (k == k') = false := by simpa using hk
      rw [lookup_emplace_of_ne _ _ hk, ih]
      simp [List.lookup_cons, hne]

/-! ## Searching -/

variable {m : UnorderedMap κ β} {order : List (Σ _ : κ, β)} {p : β → Bool}

/-- What a loop finds is in the map. -/
theorem exists_of_find {v : β} (h : m.IterationOrder order) (hv : find p order = some v) :
    ∃ k, m.lookup k = some v ∧ p v := by
  obtain ⟨⟨k, v⟩, he, rfl⟩ := Option.map_eq_some_iff.1 hv
  have hp : p v := List.find?_some (p := fun e : Σ _ : κ, β => p e.2) he
  exact ⟨k, AList.mem_lookup_iff.2 (h.subset (List.mem_of_find?_eq_some he)), hp⟩

theorem find_eq_none_iff (h : m.IterationOrder order) :
    find p order = none ↔ ∀ k v, m.lookup k = some v → p v = false := by
  rw [find, Option.map_eq_none_iff, List.find?_eq_none]
  refine ⟨?_, ?_⟩
  · intro hnone k v hv
    have := hnone ⟨k, v⟩ (h.symm.subset (AList.mem_lookup_iff.1 hv))
    simpa using this
  · intro hnone e he
    rw [hnone e.1 e.2 (AList.mem_lookup_iff.2 (h.subset he))]
    simp

/-- **The only match.** A loop finds `v` in every iteration order exactly when `v` has the property
and is the only value that has. -/
theorem forall_find_iff {v : β} :
    (∀ order, m.IterationOrder order → find p order = some v) ↔
      (∃ k, m.lookup k = some v ∧ p v) ∧ ∀ k v', m.lookup k = some v' → p v' → v' = v := by
  refine ⟨?_, ?_⟩
  · intro hfind
    refine ⟨exists_of_find (List.Perm.refl _) (hfind m.entries (List.Perm.refl _)), ?_⟩
    intro k v' hv' hp
    -- In an order that begins with `v'`, the loop returns `v'`.
    obtain ⟨pre, post, hentries⟩ := List.append_of_mem (AList.mem_lookup_iff.1 hv')
    have horder : m.IterationOrder (⟨k, v'⟩ :: (pre ++ post)) := by
      rw [IterationOrder, hentries]
      exact List.perm_middle.symm
    have hfirst : find p (⟨k, v'⟩ :: (pre ++ post) : List (Σ _ : κ, β)) = some v' := by
      simp [find, hp]
    exact Option.some.inj (hfirst.symm.trans (hfind _ horder))
  · intro honly order horder
    obtain ⟨⟨k, hk, hp⟩, honly⟩ := honly
    cases hfind : find p order with
    | none =>
      rw [find_eq_none_iff horder] at hfind
      rw [hfind k v hk] at hp
      cases hp
    | some v' =>
      obtain ⟨k', hk', hp'⟩ := exists_of_find horder hfind
      rw [honly k' v' hk' hp']

/-- A loop finds what is under the one key whose value has the property. -/
theorem find_eq_lookup {k₀ : κ} (h : ∀ k v, m.lookup k = some v → (p v = true ↔ k = k₀))
    (horder : m.IterationOrder order) : find p order = m.lookup k₀ := by
  cases hk₀ : m.lookup k₀ with
  | none =>
    refine (find_eq_none_iff horder).2 fun k v hv => ?_
    rw [← Bool.not_eq_true, h k v hv]
    rintro rfl
    rw [hk₀] at hv
    cases hv
  | some v =>
    refine forall_find_iff.2 ⟨⟨k₀, hk₀, (h k₀ v hk₀).2 rfl⟩, fun k v' hv' hp => ?_⟩ order horder
    obtain rfl := (h k v' hv').1 hp
    exact Option.some.inj (hv'.symm.trans hk₀)

end UnorderedMap
