import Mathlib.Data.List.Basic
import Mathlib.Data.Nat.Init

/-!
# Arrays and counted loops

An access through a pointer fails if the pointer is null, or if it leaves the array the pointer
points to. A loop with an 8-bit counter appends an element to a vector in each round. The counter
stays below the bound, which is itself an 8-bit number, so it does not wrap around.

**Loops.** A loop over all indices of an array appends its elements in order
(`emplaceBack_load`).
-/

namespace CountedLoop

universe u v

variable {ε : Type v} {α β : Type u}

/-! ## Pointers -/

/-- Accesses that have no defined result. -/
inductive BadAccess
  | nullPointer
  | outOfBounds
  deriving DecidableEq, Repr

@[simp] theorem ok_bind (a : α) (f : α → Except ε β) : (Except.ok a >>= f) = f a := rfl

/-- `*p`, for a pointer that is null or points to an object. -/
def deref : Option α → Except BadAccess α
  | some a => .ok a
  | none => .error .nullPointer

/-- `p[k]`, for a pointer to the first element of the array `p`. -/
def load (p : List α) (k : ℕ) : Except BadAccess α :=
  match p[k]? with
  | some a => .ok a
  | none => .error .outOfBounds

theorem load_of_lt {p : List α} {k : ℕ} (hk : k < p.length) : load p k = .ok p[k] := by
  rw [load, List.getElem?_eq_getElem hk]

/-! ## Loops -/

variable (n : UInt8) (f : UInt8 → Except ε α)

/-- `for (; i < n; ++i) v.emplace_back(f(i))`. -/
def emplaceFrom (i : UInt8) (v : List α) : Except ε (List α) :=
  if i < n then do
    let a ← f i
    emplaceFrom (i + 1) (v ++ [a])
  else return v
termination_by n.toNat - i.toNat
decreasing_by
  rename_i hi
  have hn := n.toNat_lt
  rw [UInt8.lt_iff_toNat_lt] at hi
  rw [UInt8.toNat_add, show (1 : UInt8).toNat = 1 from rfl]
  omega

/-- `for (std::uint8_t i = 0; i < n; ++i) v.emplace_back(f(i))`, from the empty vector. -/
def emplaceBack : Except ε (List α) := emplaceFrom n f 0 []

variable {n f}

/-- After `k` rounds the vector has the first `k` elements. -/
theorem emplaceFrom_take {l : List α} (hlen : l.length = n.toNat)
    (hf : ∀ k (hk : k < l.length), f (.ofNat k) = .ok l[k]) {k : ℕ} (hk : k ≤ l.length) :
    emplaceFrom n f (.ofNat k) (l.take k) = .ok l := by
  have hn := n.toNat_lt
  induction hk using Nat.decreasingInduction with
  | self =>
    have hend : ¬ UInt8.ofNat l.length < n := by
      rw [hlen, UInt8.ofNat_toNat]
      exact UInt8.lt_irrefl n
    rw [emplaceFrom, if_neg hend, List.take_length]
    rfl
  | of_succ k hk ih =>
    have hlt : UInt8.ofNat k < n := by
      rw [UInt8.lt_iff_toNat_lt, UInt8.toNat_ofNat']
      omega
    have hnext : UInt8.ofNat k + 1 = UInt8.ofNat (k + 1) := by
      rw [UInt8.ofNat_add]
      rfl
    rw [emplaceFrom, if_pos hlt, hf k hk, hnext]
    rw [List.take_succ_eq_append_getElem hk] at ih
    exact ih

/-- **Counted loops.** The vector has the elements that were appended in the `n` rounds. -/
theorem emplaceBack_eq_ok {l : List α} (hlen : l.length = n.toNat)
    (hf : ∀ k (hk : k < l.length), f (.ofNat k) = .ok l[k]) : emplaceBack n f = .ok l :=
  emplaceFrom_take hlen hf (Nat.zero_le _)

/-- A loop whose body only computes. -/
theorem emplaceBack_pure (n : UInt8) (g : UInt8 → α) :
    emplaceBack n (fun i => (return g i : Except ε α)) =
      .ok ((List.range n.toNat).map fun k => g (.ofNat k)) :=
  emplaceBack_eq_ok (by rw [List.length_map, List.length_range]) fun k hk => by
    rw [List.getElem_map, List.getElem_range]
    rfl

/-- A loop over an array with `n` elements. -/
theorem emplaceBack_load {p : List β} (hlen : p.length = n.toNat) (g : β → α) :
    emplaceBack n (fun i => return g (← load p i.toNat)) = .ok (p.map g) := by
  have hn := n.toNat_lt
  refine emplaceBack_eq_ok (by rw [List.length_map, hlen]) fun k hk => ?_
  rw [List.length_map] at hk
  have hindex : (UInt8.ofNat k).toNat = k := by
    rw [UInt8.toNat_ofNat']
    omega
  rw [hindex, load_of_lt hk, List.getElem_map]
  rfl

end CountedLoop
