import OhosWrapper.Usb.Decode

/-!
# The grammar of interface documents

Which documents the constructor of an interface accepts is decided by a dozen conversions that may
throw, and by what a range-based `for` makes of the value under `endpoints`: nothing of null, the
values of an array or an object, and of a scalar the scalar itself, which is no endpoint.

**Theorem (`interface_grammar`).** The documents accepted are exactly those of
`InterfaceGrammar`. The interface has one endpoint for each element, in order, the numbers are
reduced to the width of the members, and only the keys of the grammar matter.
-/

namespace OhosWrapper.Usb

open Nlohmann

/-! ## The grammar -/

/-- A number or a boolean. -/
def IsArithmetic : Json → Prop
  | .boolean _ | .number_integer _ | .number_unsigned _ => True
  | _ => False

/-- Null or a collection of values. -/
def IsRange : Json → Prop
  | .null | .array _ | .object _ => True
  | _ => False

def endpointKeys : List String :=
  ["address", "attributes", "interval", "maxPacketSize", "interfaceId"]

def interfaceKeys : List String := ["id", "protocol", "clazz", "subClass", "alternateSetting"]

/-- An object with a number or a boolean under each of the keys. -/
def HasArithmetic (keys : List String) (j : Json) : Prop :=
  j.IsObject ∧ ∀ key ∈ keys, ∃ v, j.value? key = some v ∧ IsArithmetic v

def EndpointGrammar : Json → Prop := HasArithmetic endpointKeys

/-- The values of the array or the object under `endpoints`, in order. -/
def endpointValues (j : Json) : List Json :=
  match j.value? "endpoints" with
  | some (.array elems) => elems
  | some (.object fields) => fields.map Prod.snd
  | _ => []

structure InterfaceGrammar (j : Json) : Prop where
  numbers : HasArithmetic interfaceKeys j
  name : ∃ s, j.value? "name" = some (.string s)
  range : ∀ v, j.value? "endpoints" = some v → IsRange v
  endpoints : ∀ ej ∈ endpointValues j, EndpointGrammar ej

theorem isArithmetic_iff {v : Json} : IsArithmetic v ↔ ∃ z, v.toInt? = some z := by
  cases v <;> simp [IsArithmetic, Json.toInt?]

theorem isObject_of_value? {j v : Json} {key : String} (h : j.value? key = some v) :
    j.IsObject := by
  cases j with
  | object fields => trivial
  | _ => exact (nomatch h)

/-- The numbers under the keys are what the conversions find. -/
theorem hasArithmetic_iff {keys : List String} (hne : keys ≠ []) {j : Json} :
    HasArithmetic keys j ↔ ∀ key ∈ keys, ∃ z, j.number? key = some z := by
  have hkey : ∀ key, (∃ v, j.value? key = some v ∧ IsArithmetic v) ↔
      ∃ z, j.number? key = some z := by
    intro key
    simp only [Json.number?, Option.bind_eq_some_iff, isArithmetic_iff]
    constructor
    · intro h
      obtain ⟨v, hv, z, hz⟩ := h
      exact ⟨z, v, hv, hz⟩
    · intro h
      obtain ⟨z, v, hv, hz⟩ := h
      exact ⟨v, hv, z, hz⟩
  unfold HasArithmetic
  simp only [hkey]
  refine and_iff_right_of_imp ?_
  intro h
  obtain ⟨key, hmem⟩ := List.exists_mem_of_ne_nil keys hne
  obtain ⟨v, hv, -⟩ := (hkey key).2 (h key hmem)
  exact isObject_of_value? hv

/-- **The grammar of an endpoint.** -/
theorem endpoint_grammar {j : Json} : (∃ e, USBEndpoint.ofJson j = .ok e) ↔ EndpointGrammar j := by
  rw [EndpointGrammar, hasArithmetic_iff (by simp [endpointKeys])]
  simp only [endpointKeys, List.forall_mem_cons, List.not_mem_nil, false_implies, implies_true,
    and_true]
  refine ⟨?_, ?_⟩
  · intro h
    obtain ⟨e, he⟩ := h
    obtain ⟨a, at', iv, mp, ii, ha, hat, hiv, hmp, hii, -⟩ := USBEndpoint.ofJson_eq_ok.1 he
    exact ⟨⟨a, ha⟩, ⟨at', hat⟩, ⟨iv, hiv⟩, ⟨mp, hmp⟩, ⟨ii, hii⟩⟩
  · intro h
    obtain ⟨⟨a, ha⟩, ⟨at', hat⟩, ⟨iv, hiv⟩, ⟨mp, hmp⟩, ⟨ii, hii⟩⟩ := h
    exact ⟨_, USBEndpoint.ofJson_eq_ok.2 ⟨a, at', iv, mp, ii, ha, hat, hiv, hmp, hii, rfl⟩⟩

/-- The loop meets only endpoints exactly when it goes over a collection of endpoints. -/
theorem endpoints_iff {j : Json} :
    (∀ ej ∈ j.itemsAt "endpoints", EndpointGrammar ej) ↔
      (∀ v, j.value? "endpoints" = some v → IsRange v) ∧
        ∀ ej ∈ endpointValues j, EndpointGrammar ej := by
  unfold Json.itemsAt endpointValues
  cases j.value? "endpoints" with
  | none => simp [Json.items]
  | some v =>
    cases v with
    | null | array elems | object fields => simp [Json.items, IsRange]
    | boolean b | number_integer n | number_unsigned n | string s =>
      simp [Json.items, IsRange, EndpointGrammar, HasArithmetic, Json.IsObject]

/-- On a collection the loop visits its values. -/
theorem itemsAt_endpoints {j : Json} (h : ∀ v, j.value? "endpoints" = some v → IsRange v) :
    j.itemsAt "endpoints" = endpointValues j := by
  unfold Json.itemsAt endpointValues
  cases hv : j.value? "endpoints" with
  | none => rfl
  | some v =>
    have hrange := h v hv
    cases v with
    | null | array elems | object fields => rfl
    | boolean b | number_integer n | number_unsigned n | string s => exact hrange.elim

/-! ## Stored values -/

/-- The members of an endpoint, from its document. -/
structure USBEndpoint.Decoded (e : USBEndpoint) (j : Json) : Prop where
  address_ : StoresUnsigned 32 j "address" e.address_.toNat
  attributes_ : StoresUnsigned 32 j "attributes" e.attributes_.toNat
  interval_ : StoresSigned 32 j "interval" e.interval_.toInt
  maxPacketSize_ : StoresSigned 32 j "maxPacketSize" e.maxPacketSize_.toInt
  interfaceId_ : StoresUnsigned 8 j "interfaceId" e.interfaceId_.toNat

/-- The members of an interface, from its ids and its document. -/
structure USBInterface.Decoded (i : USBInterface) (deviceId : UInt64) (interfaceIndex : UInt8)
    (j : Json) : Prop where
  deviceId_ : i.deviceId_ = deviceId
  interfaceIndex_ : i.interfaceIndex_ = interfaceIndex
  id_ : StoresSigned 32 j "id" i.id_.toInt
  protocol_ : StoresSigned 32 j "protocol" i.protocol_.toInt
  clazz_ : StoresSigned 32 j "clazz" i.clazz_.toInt
  subClass_ : StoresSigned 32 j "subClass" i.subClass_.toInt
  alternateSetting_ : StoresSigned 32 j "alternateSetting" i.alternateSetting_.toInt
  name_ : j.value? "name" = some (.string i.name_)
  endpoints : List.Forall₂ (fun ej e => e.Decoded ej) (endpointValues j) i.endpoints

theorem USBEndpoint.decoded {j : Json} {e : USBEndpoint} (h : USBEndpoint.ofJson j = .ok e) :
    e.Decoded j := by
  obtain ⟨a, at', iv, mp, ii, ha, hat, hiv, hmp, hii, rfl⟩ := USBEndpoint.ofJson_eq_ok.1 h
  exact ⟨storesUInt32 ha, storesUInt32 hat, storesInt32 hiv, storesInt32 hmp, storesUInt8 hii⟩

theorem name_iff {j : Json} {s : String} :
    j.string? "name" = some s ↔ j.value? "name" = some (.string s) :=
  Json.string?_eq_some

/-- **Acceptance.** The documents of the grammar are those the constructor accepts. -/
theorem USBInterface.accepts_iff {deviceId : UInt64} {interfaceIndex : UInt8} {j : Json} :
    (∃ i, USBInterface.ofJson deviceId interfaceIndex j = .ok i) ↔ InterfaceGrammar j := by
  have hne : interfaceKeys ≠ [] := by simp [interfaceKeys]
  refine ⟨?_, ?_⟩
  · intro h
    obtain ⟨i, hi⟩ := h
    obtain ⟨id', pr, cl, sc, as, nm, eps, hid, hpr, hcl, hsc, has, hnm, heps, -⟩ :=
      USBInterface.ofJson_eq_ok.1 hi
    obtain ⟨hrange, hvalues⟩ := endpoints_iff.1 fun ej hej =>
      endpoint_grammar.1 (exists_of_decoded heps ej hej)
    refine ⟨(hasArithmetic_iff hne).2 ?_, ⟨nm, name_iff.1 hnm⟩, hrange, hvalues⟩
    simp [interfaceKeys, hid, hpr, hcl, hsc, has]
  · intro h
    obtain ⟨hnumbers, ⟨nm, hnm⟩, hrange, hvalues⟩ := h
    rw [hasArithmetic_iff hne] at hnumbers
    simp only [interfaceKeys, List.forall_mem_cons, List.not_mem_nil, false_implies, implies_true,
      and_true] at hnumbers
    obtain ⟨⟨id', hid⟩, ⟨pr, hpr⟩, ⟨cl, hcl⟩, ⟨sc, hsc⟩, as, has⟩ := hnumbers
    obtain ⟨eps, heps⟩ := exists_mapM_eq_ok fun ej hej =>
      endpoint_grammar.2 (endpoints_iff.2 ⟨hrange, hvalues⟩ ej hej)
    exact ⟨_, USBInterface.ofJson_eq_ok.2 ⟨id', pr, cl, sc, as, nm, eps, hid, hpr, hcl, hsc, has,
      name_iff.2 hnm, mapM_eq_ok.1 heps, rfl⟩⟩

theorem USBInterface.decoded {deviceId : UInt64} {interfaceIndex : UInt8} {j : Json}
    {i : USBInterface} (h : USBInterface.ofJson deviceId interfaceIndex j = .ok i) :
    i.Decoded deviceId interfaceIndex j := by
  have hrange := (USBInterface.accepts_iff.1 ⟨i, h⟩).range
  obtain ⟨id', pr, cl, sc, as, nm, eps, hid, hpr, hcl, hsc, has, hnm, heps, rfl⟩ :=
    USBInterface.ofJson_eq_ok.1 h
  rw [itemsAt_endpoints hrange] at heps
  exact ⟨rfl, rfl, storesInt32 hid, storesInt32 hpr, storesInt32 hcl, storesInt32 hsc,
    storesInt32 has, name_iff.1 hnm, heps.imp fun ej e => USBEndpoint.decoded⟩

/-! ## Keys that are read -/

/-- Two objects with the same values under the keys. -/
def SameUnder (keys : List String) (j j' : Json) : Prop :=
  j.IsObject ∧ j'.IsObject ∧ ∀ key ∈ keys, j.value? key = j'.value? key

/-- Two documents that differ only in keys the constructors of interfaces and endpoints do not
read. -/
structure Agree (j j' : Json) : Prop where
  interface : SameUnder (interfaceKeys ++ ["name"]) j j'
  endpoints : List.Forall₂ (fun ej ej' => ej = ej' ∨ SameUnder endpointKeys ej ej')
    (j.itemsAt "endpoints") (j'.itemsAt "endpoints")

variable {keys : List String} {j j' : Json} {key : String}

theorem SameUnder.subscript (h : SameUnder keys j j') (hkey : key ∈ keys) :
    j.subscript key = j'.subscript key := by
  obtain ⟨hobj, hobj', hvalue⟩ := h
  have hsame := hvalue key hkey
  cases j with
  | object fields =>
    cases j' with
    | object fields' =>
      rw [Json.value?_object, Json.value?_object] at hsame
      rw [Json.subscript, Json.subscript, hsame]
    | _ => exact hobj'.elim
  | _ => exact hobj.elim

theorem SameUnder.readNumber {α : Type} {cast : ℤ → α} (h : SameUnder keys j j')
    (hkey : key ∈ keys) : j.readNumber cast key = j'.readNumber cast key := by
  rw [Json.readNumber, h.subscript hkey, Json.readNumber]

theorem SameUnder.readString (h : SameUnder keys j j') (hkey : key ∈ keys) :
    j.readString key = j'.readString key := by
  rw [Json.readString, h.subscript hkey, Json.readString]

theorem endpoint_congr (h : SameUnder endpointKeys j j') :
    USBEndpoint.ofJson j = USBEndpoint.ofJson j' := by
  simp only [USBEndpoint.ofJson,
    h.readNumber (show "address" ∈ endpointKeys by simp [endpointKeys]),
    h.readNumber (show "attributes" ∈ endpointKeys by simp [endpointKeys]),
    h.readNumber (show "interval" ∈ endpointKeys by simp [endpointKeys]),
    h.readNumber (show "maxPacketSize" ∈ endpointKeys by simp [endpointKeys]),
    h.readNumber (show "interfaceId" ∈ endpointKeys by simp [endpointKeys])]

/-- An object is subscripted, and the values under the key are visited. -/
theorem readItems_of_isObject (h : j.IsObject) (key : String) :
    j.readItems key = pure (j.itemsAt key) :=
  Json.readItems_eq_ok.2 ⟨by cases j <;> trivial, rfl⟩

theorem mapM_congr {js js' : List Json}
    (h : List.Forall₂ (fun ej ej' => ej = ej' ∨ SameUnder endpointKeys ej ej') js js') :
    js.mapM USBEndpoint.ofJson = js'.mapM USBEndpoint.ofJson := by
  induction h with
  | nil => rfl
  | cons hsame _ ih =>
    rw [List.mapM_cons, List.mapM_cons, hsame.elim (congrArg _) endpoint_congr, ih]

/-- Keys that are not read have no influence. -/
theorem interface_congr (deviceId : UInt64) (interfaceIndex : UInt8) (h : Agree j j') :
    USBInterface.ofJson deviceId interfaceIndex j =
      USBInterface.ofJson deviceId interfaceIndex j' := by
  have hkeys := h.interface
  have hmem : ∀ key ∈ interfaceKeys, key ∈ interfaceKeys ++ ["name"] :=
    fun key => List.mem_append_left _
  simp only [USBInterface.ofJson,
    hkeys.readNumber (hmem "id" (by simp [interfaceKeys])),
    hkeys.readNumber (hmem "protocol" (by simp [interfaceKeys])),
    hkeys.readNumber (hmem "clazz" (by simp [interfaceKeys])),
    hkeys.readNumber (hmem "subClass" (by simp [interfaceKeys])),
    hkeys.readNumber (hmem "alternateSetting" (by simp [interfaceKeys])),
    hkeys.readString (List.mem_append_right _ List.mem_cons_self),
    readItems_of_isObject hkeys.1, readItems_of_isObject hkeys.2.1, pure_bind,
    mapM_congr h.endpoints]

/-- **The grammar of an interface.** The constructor succeeds on exactly the documents of the
grammar; it stores their values, reduced to the width of the members, and one endpoint for each
element, in order; and it does not depend on any other key. -/
theorem interface_grammar (deviceId : UInt64) (interfaceIndex : UInt8) (j : Json) :
    ((∃ i, USBInterface.ofJson deviceId interfaceIndex j = .ok i) ↔ InterfaceGrammar j) ∧
    (∀ i, USBInterface.ofJson deviceId interfaceIndex j = .ok i →
      i.Decoded deviceId interfaceIndex j) ∧
    ∀ j', Agree j j' → USBInterface.ofJson deviceId interfaceIndex j =
      USBInterface.ofJson deviceId interfaceIndex j' :=
  ⟨USBInterface.accepts_iff, fun _ => USBInterface.decoded,
    fun _ => interface_congr deviceId interfaceIndex⟩

/-- The instance at a document with booleans, an object of endpoints, and a key that is not read. -/
theorem interface_grammar_unread_key : ∃ i,
    USBInterface.ofJson 7 1 (.object [("id", .number_unsigned 4294967297),
      ("protocol", .boolean true), ("clazz", .number_unsigned 8), ("subClass", .number_unsigned 6),
      ("alternateSetting", .boolean false), ("name", .string "disk"),
      ("endpoints", .object [("in", .object [("address", .number_unsigned 129),
        ("attributes", .number_unsigned 2), ("interval", .number_integer (-1)),
        ("maxPacketSize", .number_unsigned 64), ("interfaceId", .number_integer (-1))])]),
      ("speed", .string "full")]) = .ok i ∧ i.id_ = 1 ∧ i.protocol_ = 1 ∧
    i.endpoints.length = 1 ∧ InterfaceGrammar (.object [("id", .number_unsigned 4294967297),
      ("protocol", .boolean true), ("clazz", .number_unsigned 8), ("subClass", .number_unsigned 6),
      ("alternateSetting", .boolean false), ("name", .string "disk"),
      ("endpoints", .object [("in", .object [("address", .number_unsigned 129),
        ("attributes", .number_unsigned 2), ("interval", .number_integer (-1)),
        ("maxPacketSize", .number_unsigned 64), ("interfaceId", .number_integer (-1))])]),
      ("speed", .string "full")]) :=
  ⟨_, rfl, rfl, rfl, rfl, (interface_grammar 7 1 _).1.1 ⟨_, rfl⟩⟩

end OhosWrapper.Usb
