import Mathlib.Algebra.Order.Ring.Int
import Mathlib.Data.List.Forall2

/-!
# JSON documents

Documents as the `nlohmann` library holds them, with insertion-ordered objects, and the
operations a hand-written decoder uses: subscripting, the implicit conversions, and the
range-based `for`. Each of them may throw, so decoders live in `Except`.

**Numbers.** A number is signed or unsigned and 64 bits wide; there are no floating-point
numbers. Converting it to a narrower type is a cast, and a boolean converts as 0 or 1.

**Missing keys.** On a null or an object, subscripting with a missing key inserts a null. Reading
that null later gives what reading the missing key gives, so `subscript` leaves the document
alone.

The lemmas `readNumber_eq_ok`, `readString_eq_ok` and `readItems_eq_ok` say when a read succeeds
in terms of what the document holds, so that a decoder is inverted by rewriting with them.
`Throws` says which error a decoder may end with.
-/

namespace Nlohmann

/-- A JSON value. The fields of an object are in insertion order. -/
inductive Json
  | null
  | boolean (b : Bool)
  | number_integer (v : Int64)
  | number_unsigned (v : UInt64)
  | string (s : String)
  | array (elems : List Json)
  | object (fields : List (String × Json))
  deriving Repr

/-- `type_error` 302 is a conversion from the wrong kind of value, 305 a string subscript of
something that is no object. -/
inductive JsonError
  | type_error_302
  | type_error_305
  deriving DecidableEq, Repr

variable {α β : Type}

/-! ## Decoders -/

/-- A sequence of two decoders succeeds when both do. -/
theorem bind_eq_ok {x : Except JsonError α} {f : α → Except JsonError β} {b : β} :
    (x >>= f) = .ok b ↔ ∃ a, x = .ok a ∧ f a = .ok b := by
  cases x with
  | error e => exact ⟨fun h => (nomatch h), fun ⟨a, h, _⟩ => (nomatch h)⟩
  | ok a => exact ⟨fun h => ⟨a, rfl, h⟩, fun ⟨a', h, hf⟩ => by cases h; exact hf⟩

theorem pure_eq_ok {a b : α} : (pure a : Except JsonError α) = .ok b ↔ a = b :=
  Except.ok.injEq a b ▸ Iff.rfl

/-- Decoding a list succeeds when every element decodes, and gives the results in order. -/
theorem mapM_eq_ok {f : α → Except JsonError β} {xs : List α} {ys : List β} :
    xs.mapM f = .ok ys ↔ List.Forall₂ (fun x y => f x = .ok y) xs ys := by
  induction xs generalizing ys with
  | nil =>
    rw [List.mapM_nil, pure_eq_ok, List.forall₂_nil_left_iff]
    exact eq_comm
  | cons x xs ih =>
    simp only [List.mapM_cons, bind_eq_ok, pure_eq_ok, ih, List.forall₂_cons_left_iff]
    refine ⟨?_, ?_⟩
    · intro h
      obtain ⟨y, hy, ys', hys, rfl⟩ := h
      exact ⟨y, ys', hy, hys, rfl⟩
    · intro h
      obtain ⟨y, ys', hy, hys, rfl⟩ := h
      exact ⟨y, hy, ys', hys, rfl⟩

/-- A list decodes when each of its elements does. -/
theorem exists_mapM_eq_ok {f : α → Except JsonError β} {xs : List α}
    (h : ∀ x ∈ xs, ∃ y, f x = .ok y) : ∃ ys, xs.mapM f = .ok ys := by
  induction xs with
  | nil => exact ⟨[], rfl⟩
  | cons x xs ih =>
    obtain ⟨y, hy⟩ := h x List.mem_cons_self
    obtain ⟨ys, hys⟩ := ih fun x' hx' => h x' (List.mem_cons_of_mem x hx')
    exact ⟨y :: ys, mapM_eq_ok.2 (.cons hy (mapM_eq_ok.1 hys))⟩

/-- Each element of a decoded list decodes. -/
theorem exists_of_decoded {f : α → Except JsonError β} {xs : List α} {ys : List β}
    (h : List.Forall₂ (fun x y => f x = .ok y) xs ys) : ∀ x ∈ xs, ∃ y, f x = .ok y := by
  induction h with
  | nil => intro x hx; cases hx
  | cons hxy _ ih =>
    intro x hx
    rcases List.mem_cons.1 hx with rfl | hx
    · exact ⟨_, hxy⟩
    · exact ih x hx

/-- What a decoder guarantees of its results holds of every element of a decoded list. -/
theorem forall_of_decoded {f : α → Except JsonError β} {P : β → Prop}
    (hf : ∀ x y, f x = .ok y → P y) {xs : List α} {ys : List β}
    (h : List.Forall₂ (fun x y => f x = .ok y) xs ys) : ∀ y ∈ ys, P y := by
  induction h with
  | nil => intro y hy; cases hy
  | cons hxy _ ih =>
    intro y hy
    rcases List.mem_cons.1 hy with rfl | hy
    · exact hf _ _ hxy
    · exact ih y hy

namespace Json

/-! ## Reading a document -/

/-- `j[key]`. -/
def subscript : Json → String → Except JsonError Json
  | null, _ => .ok null
  | object fields, key => .ok ((fields.lookup key).getD null)
  | _, _ => .error .type_error_305

/-- The integer a number or a boolean stands for. -/
def toInt? : Json → Option ℤ
  | boolean b => some b.toInt
  | number_integer v => some v.toInt
  | number_unsigned v => some v.toNat
  | _ => none

/-- A number, as opposed to a boolean. -/
def IsNumber : Json → Prop
  | number_integer _ | number_unsigned _ => True
  | _ => False

def IsObject : Json → Prop
  | object _ => True
  | _ => False

/-- The string a value stands for. -/
def toString? : Json → Option String
  | string s => some s
  | _ => none

/-- The conversion to an arithmetic type with the cast `cast`. -/
def getNumber (cast : ℤ → α) (j : Json) : Except JsonError α :=
  match j.toInt? with
  | some z => .ok (cast z)
  | none => .error .type_error_302

/-- The conversion to a string. -/
def getString (j : Json) : Except JsonError String :=
  match j.toString? with
  | some s => .ok s
  | none => .error .type_error_302

/-- The values a range-based `for` over `j` visits. -/
def items : Json → List Json
  | null => []
  | array elems => elems
  | object fields => fields.map Prod.snd
  | j => [j]

/-- A member initialised with `j[key]`, of an arithmetic type. -/
def readNumber (cast : ℤ → α) (j : Json) (key : String) : Except JsonError α := do
  (← j.subscript key).getNumber cast

/-- A member initialised with `j[key]`, of type string. -/
def readString (j : Json) (key : String) : Except JsonError String := do
  (← j.subscript key).getString

/-- The values visited by a range-based `for` over `j[key]`. -/
def readItems (j : Json) (key : String) : Except JsonError (List Json) := do
  return (← j.subscript key).items

/-! ## What a document holds -/

/-- The value the document holds under `key`. -/
def value? : Json → String → Option Json
  | object fields, key => fields.lookup key
  | _, _ => none

/-- The number or boolean the document holds under `key`, as an integer. -/
def number? (j : Json) (key : String) : Option ℤ := (j.value? key).bind toInt?

/-- The string the document holds under `key`. -/
def string? (j : Json) (key : String) : Option String := (j.value? key).bind toString?

/-- The values a range-based `for` over the value under `key` visits: none without the key. -/
def itemsAt (j : Json) (key : String) : List Json := ((j.value? key).getD null).items

/-- Whether subscripting with a string works. -/
def Subscriptable : Json → Prop
  | null | object _ => True
  | _ => False

theorem getNumber_eq_ok {cast : ℤ → α} {j : Json} {v : α} :
    j.getNumber cast = .ok v ↔ ∃ z, j.toInt? = some z ∧ cast z = v := by
  unfold getNumber
  cases j.toInt? <;> simp

theorem getString_eq_ok {j : Json} {s : String} : j.getString = .ok s ↔ j.toString? = some s := by
  unfold getString
  cases j.toString? <;> simp

theorem readNumber_eq_ok {cast : ℤ → α} {j : Json} {key : String} {v : α} :
    j.readNumber cast key = .ok v ↔ ∃ z, j.number? key = some z ∧ cast z = v := by
  unfold readNumber
  simp only [bind_eq_ok, getNumber_eq_ok]
  cases j with
  | object fields => cases h : fields.lookup key <;> simp [subscript, number?, value?, toInt?, h]
  | _ => simp [subscript, number?, value?, toInt?]

theorem readString_eq_ok {j : Json} {key : String} {s : String} :
    j.readString key = .ok s ↔ j.string? key = some s := by
  unfold readString
  simp only [bind_eq_ok, getString_eq_ok]
  cases j with
  | object fields => cases h : fields.lookup key <;> simp [subscript, string?, value?, toString?, h]
  | _ => simp [subscript, string?, value?, toString?]

theorem readItems_eq_ok {j : Json} {key : String} {elems : List Json} :
    j.readItems key = .ok elems ↔ j.Subscriptable ∧ j.itemsAt key = elems := by
  unfold readItems
  cases j <;> simp [subscript, Subscriptable, itemsAt, value?]

theorem string?_eq_some {j : Json} {key s : String} :
    j.string? key = some s ↔ j.value? key = some (string s) := by
  rw [string?, Option.bind_eq_some_iff]
  refine ⟨?_, fun h => ⟨_, h, rfl⟩⟩
  rintro ⟨v, hv, hs⟩
  cases v with
  | string s' => rw [hv, Option.some.inj hs]
  | _ => cases hs

/-- A document that holds a number is an object. -/
theorem subscriptable_of_number? {j : Json} {key : String} {z : ℤ} (h : j.number? key = some z) :
    j.Subscriptable := by
  cases j with
  | object fields => trivial
  | _ => exact (nomatch h)

/-- A list none of whose elements is a number or a boolean is converted to numbers only if it is
empty. -/
theorem eq_nil_of_numbers {f : ℤ → α} {js : List Json} {ys : List α}
    (h : ∀ j ∈ js, j.toInt? = none)
    (hys : List.Forall₂ (fun j y => ∃ z, j.toInt? = some z ∧ f z = y) js ys) : js = [] := by
  cases hys with
  | nil => rfl
  | cons hy _ =>
    obtain ⟨z, hz, -⟩ := hy
    rw [h _ List.mem_cons_self] at hz
    cases hz

theorem IsNumber.exists_toInt? {j : Json} (h : j.IsNumber) : ∃ z, j.toInt? = some z := by
  cases j with
  | number_integer v => exact ⟨_, rfl⟩
  | number_unsigned v => exact ⟨_, rfl⟩
  | _ => exact h.elim

/-! ## Writing a document -/

def ofUInt8 (v : UInt8) : Json := number_unsigned v.toUInt64

def ofUInt32 (v : UInt32) : Json := number_unsigned v.toUInt64

def ofInt8 (v : Int8) : Json := number_integer v.toInt64

def ofInt32 (v : Int32) : Json := number_integer v.toInt64

/-- An empty optional is stored as null. -/
def ofOption (o : Option Json) : Json := o.getD null

/-- What `for (x : xs) j[key].emplace_back(x)` adds to `j`: without a round of the loop the key
is never created. -/
def arrayField (key : String) : List Json → List (String × Json)
  | [] => []
  | x :: xs => [(key, array (x :: xs))]

@[simp] theorem toInt?_ofUInt8 (v : UInt8) : (ofUInt8 v).toInt? = some (v.toNat : ℤ) := rfl

@[simp] theorem toInt?_ofUInt32 (v : UInt32) : (ofUInt32 v).toInt? = some (v.toNat : ℤ) := rfl

@[simp] theorem toInt?_ofInt8 (v : Int8) : (ofInt8 v).toInt? = some v.toInt := by
  rw [ofInt8, toInt?, Int8.toInt_toInt64]

@[simp] theorem toInt?_ofInt32 (v : Int32) : (ofInt32 v).toInt? = some v.toInt := by
  rw [ofInt32, toInt?, Int32.toInt_toInt64]

@[simp] theorem value?_object (fields : List (String × Json)) (key : String) :
    (object fields).value? key = fields.lookup key := rfl

theorem ofUInt8_inj {v w : UInt8} : ofUInt8 v = ofUInt8 w ↔ v = w := by
  rw [ofUInt8, ofUInt8, number_unsigned.injEq, UInt8.toUInt64_inj]

theorem ofUInt32_inj {v w : UInt32} : ofUInt32 v = ofUInt32 w ↔ v = w := by
  rw [ofUInt32, ofUInt32, number_unsigned.injEq, UInt32.toUInt64_inj]

theorem ofInt8_inj {v w : Int8} : ofInt8 v = ofInt8 w ↔ v = w := by
  refine ⟨fun h => ?_, congrArg ofInt8⟩
  have htoInt := congrArg toInt? h
  rwa [toInt?_ofInt8, toInt?_ofInt8, Option.some.injEq, Int8.toInt_inj] at htoInt

theorem ofInt32_inj {v w : Int32} : ofInt32 v = ofInt32 w ↔ v = w := by
  refine ⟨fun h => ?_, congrArg ofInt32⟩
  have htoInt := congrArg toInt? h
  rwa [toInt?_ofInt32, toInt?_ofInt32, Option.some.injEq, Int32.toInt_inj] at htoInt

theorem arrayField_inj {key : String} {elems elems' : List Json} :
    arrayField key elems = arrayField key elems' ↔ elems = elems' := by
  cases elems <;> cases elems' <;> simp [arrayField]

/-- The elements written under a fresh key are those read back. -/
theorem itemsAt_arrayField {fields : List (String × Json)} {key : String}
    (h : fields.lookup key = none) (elems : List Json) :
    (object (fields ++ arrayField key elems)).itemsAt key = elems := by
  rw [itemsAt, value?_object, List.lookup_append, h, Option.none_or]
  cases elems with
  | nil => rfl
  | cons x xs => rw [arrayField, List.lookup_cons_self]; rfl

end Json

/-! ## Errors -/

/-- Where `x` fails, it fails with `e`. -/
def Throws (e : JsonError) (x : Except JsonError α) : Prop := ∀ e', x = .error e' → e' = e

theorem throws_pure (e : JsonError) (a : α) : Throws e (pure a : Except JsonError α) :=
  fun _ h => nomatch h

theorem throws_error (e : JsonError) : Throws e (.error e : Except JsonError α) :=
  fun _ h => (Except.error.inj h).symm

theorem Throws.bind {e : JsonError} {x : Except JsonError α} {f : α → Except JsonError β}
    (hx : Throws e x) (hf : ∀ a, Throws e (f a)) : Throws e (x >>= f) := by
  intro e' h
  cases x with
  | error e₀ =>
    cases h
    exact hx e' rfl
  | ok a => exact hf a e' h

theorem throws_mapM {e : JsonError} {f : α → Except JsonError β} (hf : ∀ a, Throws e (f a))
    (xs : List α) : Throws e (xs.mapM f) := by
  induction xs with
  | nil => exact throws_pure e []
  | cons x xs ih =>
    rw [List.mapM_cons]
    exact (hf x).bind fun y => ih.bind fun ys => throws_pure e _

namespace Json

/-- The error of a subscript is not that of a conversion. -/
theorem subscript_of_subscriptable {j : Json} (h : j.Subscriptable) (key : String) :
    ∃ v, j.subscript key = .ok v := by
  cases j with
  | null | object fields => exact ⟨_, rfl⟩
  | _ => exact h.elim

theorem subscript_of_not {j : Json} (h : ¬ j.Subscriptable) (key : String) :
    j.subscript key = .error .type_error_305 := by
  cases j with
  | null | object fields => exact absurd trivial h
  | _ => rfl

theorem throws_getNumber (cast : ℤ → α) (j : Json) :
    Throws .type_error_302 (j.getNumber cast) := by
  intro e h
  unfold getNumber at h
  split at h
  · cases h
  · exact (Except.error.inj h).symm

theorem throws_getString (j : Json) : Throws .type_error_302 j.getString := by
  intro e h
  unfold getString at h
  split at h
  · cases h
  · exact (Except.error.inj h).symm

variable {j : Json} (h : j.Subscriptable)

include h

theorem throws_readNumber (cast : ℤ → α) (key : String) :
    Throws .type_error_302 (j.readNumber cast key) := by
  obtain ⟨v, hv⟩ := subscript_of_subscriptable h key
  rw [readNumber, hv]
  exact throws_getNumber cast v

theorem throws_readString (key : String) : Throws .type_error_302 (j.readString key) := by
  obtain ⟨v, hv⟩ := subscript_of_subscriptable h key
  rw [readString, hv]
  exact throws_getString v

theorem throws_readItems (key : String) : Throws .type_error_302 (j.readItems key) := by
  obtain ⟨v, hv⟩ := subscript_of_subscriptable h key
  rw [readItems, hv]
  exact throws_pure _ _

end Json

/-! ## Casts -/

theorem toNat_uint8_ofInt (z : ℤ) : ((UInt8.ofInt z).toNat : ℤ) = z % 2 ^ 8 := by
  rw [UInt8.ofInt, UInt8.toNat_ofNat']
  omega

theorem toNat_uint32_ofInt (z : ℤ) : ((UInt32.ofInt z).toNat : ℤ) = z % 2 ^ 32 := by
  rw [UInt32.ofInt, UInt32.toNat_ofNat']
  omega

@[simp] theorem uint8_ofInt_toNat (v : UInt8) : UInt8.ofInt v.toNat = v := by
  apply UInt8.toNat_inj.1
  have h := toNat_uint8_ofInt v.toNat
  have hv := v.toNat_lt
  omega

@[simp] theorem uint32_ofInt_toNat (v : UInt32) : UInt32.ofInt v.toNat = v := by
  apply UInt32.toNat_inj.1
  have h := toNat_uint32_ofInt v.toNat
  have hv := v.toNat_lt
  omega

/-- A byte is read back from its signed reading. -/
@[simp] theorem uint8_ofInt_toInt8 (v : UInt8) : UInt8.ofInt v.toInt8.toInt = v := by
  have hmod : v.toInt8.toInt % (2 ^ 8 : ℕ) = v.toNat % (2 ^ 8 : ℕ) := by
    rw [show v.toInt8.toInt = Int.bmod v.toNat (2 ^ 8) from BitVec.toInt_eq_toNat_bmod v.toBitVec]
    exact Int.bmod_emod
  apply UInt8.toNat_inj.1
  have h := toNat_uint8_ofInt v.toInt8.toInt
  have hv := v.toNat_lt
  omega

end Nlohmann
