import OhosWrapper.Lib.Json

/-!
# Patches

What an assignment `j[key] = v` does to a document that has the key, and what it does to a
document further down. A patch of a value that is not an object, or not an array where it should
be, does nothing; in particular null stays null.

**Composition.** Assignments one after the other are one assignment, in which the last write to
each key comes first (`assign_assign`).
-/

namespace Nlohmann

namespace Json

variable {fields : List (String × Json)} {key : String} {elems : List Json}

/-! ## Assignments -/

/-- The values of the keys that are written are replaced. -/
def assignFields (writes fields : List (String × Json)) : List (String × Json) :=
  fields.map fun field => (field.1, (writes.lookup field.1).getD field.2)

/-- `j[key] = v` for each of the writes whose key is there. -/
def assign (writes : List (String × Json)) : Json → Json
  | object fields => object (assignFields writes fields)
  | j => j

theorem assign_assign (writes writes' : List (String × Json)) (j : Json) :
    (j.assign writes).assign writes' = j.assign (writes' ++ writes) := by
  cases j with
  | object fields =>
    simp only [assign, assignFields, List.map_map]
    congr 2
    funext field
    simp only [Function.comp_apply, List.lookup_append]
    cases writes'.lookup field.1 <;> rfl
  | _ => rfl

theorem assignFields_append (writes fields fields' : List (String × Json)) :
    assignFields writes (fields ++ fields') =
      assignFields writes fields ++ assignFields writes fields' :=
  List.map_append

/-- An array whose key is not written stays. -/
theorem assignFields_arrayField {writes : List (String × Json)} (h : writes.lookup key = none) :
    assignFields writes (arrayField key elems) = arrayField key elems := by
  cases elems with
  | nil => rfl
  | cons x xs => simp [assignFields, arrayField, h]

/-! ## Arrays -/

/-- Element `i` of an array is changed. -/
def modifyAt (i : ℕ) (f : Json → Json) : Json → Json
  | array elems => array (elems.modify i f)
  | j => j

/-- Element `i` of the array under `key` is changed. -/
def modifyItem (key : String) (i : ℕ) (f : Json → Json) : Json → Json
  | object fields => object (fields.map fun field =>
      if field.1 = key then (field.1, field.2.modifyAt i f) else field)
  | j => j

/-- The array under `key` is replaced, and is the last one. -/
def putArray (key : String) (elems : List Json) : Json → Json
  | object fields => object (fields.filter (·.1 ≠ key) ++ arrayField key elems)
  | j => j

theorem ne_of_lookup_eq_none (h : fields.lookup key = none) :
    ∀ field ∈ fields, field.1 ≠ key := by
  intro field hfield hkey
  have hne := List.lookup_eq_none_iff.1 h field hfield
  rw [hkey, bne_self_eq_false] at hne
  cases hne

/-- The array is the only field that is changed. -/
theorem modifyItem_arrayField (h : fields.lookup key = none) (i : ℕ) (f : Json → Json) :
    (object (fields ++ arrayField key elems)).modifyItem key i f =
      object (fields ++ arrayField key (elems.modify i f)) := by
  have hfields : (fields.map fun field =>
      if field.1 = key then (field.1, field.2.modifyAt i f) else field) = fields :=
    (List.map_congr_left fun field hfield =>
      if_neg (ne_of_lookup_eq_none h field hfield)).trans (List.map_id' fields)
  rw [modifyItem, List.map_append, hfields]
  cases elems with
  | nil => simp [arrayField]
  | cons x xs => cases i <;> simp [arrayField, modifyAt]

theorem putArray_arrayField (h : fields.lookup key = none) (elems' : List Json) :
    (object (fields ++ arrayField key elems)).putArray key elems' =
      object (fields ++ arrayField key elems') := by
  have hfields : fields.filter (·.1 ≠ key) = fields :=
    List.filter_eq_self.2 fun field hfield => by simpa using ne_of_lookup_eq_none h field hfield
  have harray : (arrayField key elems).filter (·.1 ≠ key) = [] := by
    cases elems <;> simp [arrayField]
  rw [putArray, List.filter_append, hfields, harray, List.append_nil]

end Json

end Nlohmann
