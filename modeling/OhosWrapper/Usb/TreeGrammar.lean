import OhosWrapper.Usb.Grammar

/-!
# The grammars of configuration and device documents

The constructors of configurations and of devices read numbers and strings as that of an interface
does, but make an index out of each value under `interfaces` or `configs` (`USBConfig.ofJson`,
`USBDevice.ofJson`). The range-based `for` visits a scalar once, as itself, and a scalar may be an
index. So one number is taken for the list of it.

**Theorem (`config_grammar`, `device_grammar`).** The documents accepted are exactly those of
`ConfigGrammar` and `DeviceGrammar`. Numbers are reduced to the width of the members, there is one
child for each index, in order, and only the keys of the grammar matter. All other documents throw:
error 305 if the document is neither null nor an object, and error 302 otherwise.
-/

namespace OhosWrapper.Usb

open Nlohmann

/-! ## The grammars -/

/-- What a loop over the value makes indices of. -/
def IsIndices : Json → Prop
  | .null => True
  | .array elems => ∀ elem ∈ elems, IsArithmetic elem
  | .object fields => ∀ field ∈ fields, IsArithmetic field.2
  | .string _ => False
  | .boolean _ | .number_integer _ | .number_unsigned _ => True

/-- Numbers, strings, and indices of children. -/
structure ParentGrammar (numberKeys stringKeys : List String) (childrenKey : String) (j : Json) :
    Prop where
  numbers : HasArithmetic numberKeys j
  strings : ∀ key ∈ stringKeys, ∃ s, j.value? key = some (.string s)
  children : ∀ v, j.value? childrenKey = some v → IsIndices v

def configKeys : List String := ["id", "attributes", "maxPower"]

def deviceKeys : List String :=
  ["devAddress", "busNum", "vendorId", "productId", "clazz", "subClass", "protocol"]

def deviceNames : List String := ["name", "manufacturerName", "productName", "version"]

def ConfigGrammar : Json → Prop := ParentGrammar configKeys ["name"] "interfaces"

def DeviceGrammar : Json → Prop := ParentGrammar deviceKeys deviceNames "configs"

/-- The loop meets only indices exactly when the value is made of indices. -/
theorem indices_iff {j : Json} {key : String} :
    (∀ v, j.value? key = some v → IsIndices v) ↔ ∀ item ∈ j.itemsAt key, IsArithmetic item := by
  unfold Json.itemsAt
  cases j.value? key with
  | none => simp [Json.items]
  | some v =>
    cases v with
    | null | array elems => simp [Json.items, IsIndices]
    | object fields =>
      simp only [Json.items, IsIndices, Option.some.injEq, forall_eq', Option.getD_some,
        List.forall_mem_map]
    | boolean b | number_integer n | number_unsigned n | string s =>
      simp [Json.items, IsIndices, IsArithmetic]

/-! ## Stored values -/

/-- Each child has the index of its element, reduced to 8 bits. -/
def MadeOf {α : Type} (make : UInt8 → α) (js : List Json) (children : List α) : Prop :=
  List.Forall₂ (fun j c => ∃ z, j.toInt? = some z ∧ make (.ofInt z) = c) js children

theorem exists_madeOf {α : Type} (make : UInt8 → α) {js : List Json}
    (h : ∀ j ∈ js, IsArithmetic j) : ∃ children, MadeOf make js children := by
  induction js with
  | nil => exact ⟨[], .nil⟩
  | cons j js ih =>
    obtain ⟨z, hz⟩ := isArithmetic_iff.1 (h j List.mem_cons_self)
    obtain ⟨cs, hcs⟩ := ih fun j' hj' => h j' (List.mem_cons_of_mem _ hj')
    exact ⟨make (.ofInt z) :: cs, .cons ⟨z, hz, rfl⟩ hcs⟩

theorem MadeOf.isArithmetic {α : Type} {make : UInt8 → α} {js : List Json} {children : List α}
    (h : MadeOf make js children) : ∀ j ∈ js, IsArithmetic j := by
  induction h with
  | nil => intro j hj; cases hj
  | cons hj _ ih =>
    obtain ⟨z, hz, -⟩ := hj
    exact List.forall_mem_cons.2 ⟨isArithmetic_iff.2 ⟨z, hz⟩, ih⟩

/-- The members of a configuration, from its ids and its document. -/
structure USBConfig.Decoded (c : USBConfig) (deviceId : UInt64) (configIndex : UInt8) (j : Json) :
    Prop where
  deviceId_ : c.deviceId_ = deviceId
  configIndex_ : c.configIndex_ = configIndex
  id_ : StoresSigned 32 j "id" c.id_.toInt
  attributes_ : StoresUnsigned 32 j "attributes" c.attributes_.toNat
  maxPower_ : StoresSigned 32 j "maxPower" c.maxPower_.toInt
  name_ : j.value? "name" = some (.string c.name_)
  interfaces : MadeOf (USBInterface.ofIndex deviceId) (j.itemsAt "interfaces") c.interfaces

/-- The members of a device, from its id and its document. -/
structure USBDevice.Decoded (d : USBDevice) (deviceId : UInt64) (j : Json) : Prop where
  deviceId_ : d.deviceId_ = deviceId
  name_ : j.value? "name" = some (.string d.name_)
  manufacturerName_ : j.value? "manufacturerName" = some (.string d.manufacturerName_)
  productName_ : j.value? "productName" = some (.string d.productName_)
  version_ : j.value? "version" = some (.string d.version_)
  devAddr_ : StoresUnsigned 8 j "devAddress" d.devAddr_.toNat
  busNum_ : StoresUnsigned 8 j "busNum" d.busNum_.toNat
  vendorId_ : StoresSigned 32 j "vendorId" d.vendorId_.toInt
  productId_ : StoresSigned 32 j "productId" d.productId_.toInt
  clazz_ : StoresSigned 32 j "clazz" d.clazz_.toInt
  subClass_ : StoresSigned 32 j "subClass" d.subClass_.toInt
  protocol_ : StoresSigned 32 j "protocol" d.protocol_.toInt
  configs : MadeOf (USBConfig.ofIndex deviceId) (j.itemsAt "configs") d.configs

theorem USBConfig.decoded {deviceId : UInt64} {configIndex : UInt8} {j : Json} {c : USBConfig}
    (h : USBConfig.ofJson deviceId configIndex j = .ok c) : c.Decoded deviceId configIndex j := by
  obtain ⟨id', at', mp, nm, is, hid, hat, hmp, hnm, his, rfl⟩ := USBConfig.ofJson_eq_ok.1 h
  exact ⟨rfl, rfl, storesInt32 hid, storesUInt32 hat, storesInt32 hmp, name_iff.1 hnm, his⟩

theorem USBDevice.decoded {deviceId : UInt64} {j : Json} {d : USBDevice}
    (h : USBDevice.ofJson deviceId j = .ok d) : d.Decoded deviceId j := by
  obtain ⟨nm, mn, pn, vs, da, bn, vi, pi, cl, sc, pr, cs, hnm, hmn, hpn, hvs, hda, hbn, hvi, hpi,
    hcl, hsc, hpr, hcs, rfl⟩ := USBDevice.ofJson_eq_ok.1 h
  rw [Json.string?_eq_some] at hnm hmn hpn hvs
  exact ⟨rfl, hnm, hmn, hpn, hvs, storesUInt8 hda, storesUInt8 hbn,
    storesInt32 hvi, storesInt32 hpi, storesInt32 hcl, storesInt32 hsc, storesInt32 hpr, hcs⟩

/-! ## Acceptance -/

theorem USBConfig.grammar_iff {deviceId : UInt64} {configIndex : UInt8} {j : Json} :
    (∃ c, USBConfig.ofJson deviceId configIndex j = .ok c) ↔ ConfigGrammar j := by
  have hne : configKeys ≠ [] := by simp [configKeys]
  refine ⟨?_, ?_⟩
  · rintro ⟨c, hc⟩
    obtain ⟨id', at', mp, nm, is, hid, hat, hmp, hnm, his, -⟩ := USBConfig.ofJson_eq_ok.1 hc
    refine ⟨(hasArithmetic_iff hne).2 ?_, ?_, indices_iff.2 (MadeOf.isArithmetic his)⟩
    · simp [configKeys, hid, hat, hmp]
    · simpa using ⟨nm, Json.string?_eq_some.1 hnm⟩
  · rintro ⟨hnumbers, hstrings, hchildren⟩
    rw [hasArithmetic_iff hne] at hnumbers
    simp only [configKeys, List.forall_mem_cons, List.not_mem_nil, false_implies, implies_true,
      and_true] at hnumbers hstrings
    obtain ⟨⟨id', hid⟩, ⟨at', hat⟩, mp, hmp⟩ := hnumbers
    obtain ⟨nm, hnm⟩ := hstrings
    obtain ⟨is, his⟩ := exists_madeOf (USBInterface.ofIndex deviceId) (indices_iff.1 hchildren)
    exact ⟨_, USBConfig.ofJson_eq_ok.2 ⟨id', at', mp, nm, is, hid, hat, hmp,
      Json.string?_eq_some.2 hnm, his, rfl⟩⟩

theorem USBDevice.grammar_iff {deviceId : UInt64} {j : Json} :
    (∃ d, USBDevice.ofJson deviceId j = .ok d) ↔ DeviceGrammar j := by
  have hne : deviceKeys ≠ [] := by simp [deviceKeys]
  refine ⟨?_, ?_⟩
  · rintro ⟨d, hd⟩
    obtain ⟨nm, mn, pn, vs, da, bn, vi, pi, cl, sc, pr, cs, hnm, hmn, hpn, hvs, hda, hbn, hvi, hpi,
      hcl, hsc, hpr, hcs, -⟩ := USBDevice.ofJson_eq_ok.1 hd
    rw [Json.string?_eq_some] at hnm hmn hpn hvs
    refine ⟨(hasArithmetic_iff hne).2 ?_, ?_, indices_iff.2 (MadeOf.isArithmetic hcs)⟩
    · simp [deviceKeys, hda, hbn, hvi, hpi, hcl, hsc, hpr]
    · simp [deviceNames, hnm, hmn, hpn, hvs]
  · rintro ⟨hnumbers, hstrings, hchildren⟩
    rw [hasArithmetic_iff hne] at hnumbers
    simp only [deviceKeys, deviceNames, List.forall_mem_cons, List.not_mem_nil, false_implies,
      implies_true, and_true, ← Json.string?_eq_some] at hnumbers hstrings
    obtain ⟨⟨da, hda⟩, ⟨bn, hbn⟩, ⟨vi, hvi⟩, ⟨pi, hpi⟩, ⟨cl, hcl⟩, ⟨sc, hsc⟩, pr, hpr⟩ := hnumbers
    obtain ⟨⟨nm, hnm⟩, ⟨mn, hmn⟩, ⟨pn, hpn⟩, vs, hvs⟩ := hstrings
    obtain ⟨cs, hcs⟩ := exists_madeOf (USBConfig.ofIndex deviceId) (indices_iff.1 hchildren)
    exact ⟨_, USBDevice.ofJson_eq_ok.2 ⟨nm, mn, pn, vs, da, bn, vi, pi, cl, sc, pr, cs, hnm, hmn,
      hpn, hvs, hda, hbn, hvi, hpi, hcl, hsc, hpr, hcs, rfl⟩⟩

/-! ## Errors -/

/-- The error of a document that is not accepted. -/
def documentError (j : Json) : JsonError :=
  match j with
  | .null | .object _ => .type_error_302
  | _ => .type_error_305

theorem documentError_of_subscriptable {j : Json} (h : j.Subscriptable) :
    documentError j = .type_error_302 := by
  cases j with
  | null | object fields => rfl
  | _ => exact h.elim

theorem documentError_of_not {j : Json} (h : ¬ j.Subscriptable) :
    documentError j = .type_error_305 := by
  cases j with
  | null | object fields => exact absurd trivial h
  | _ => rfl

theorem throws_indices {α : Type} (make : UInt8 → α) (js : List Json) :
    Throws .type_error_302 (js.mapM fun j => do return make (← j.getNumber UInt8.ofInt)) :=
  throws_mapM (fun j => (j.throws_getNumber _).bind fun _ => throws_pure _ _) js

theorem USBConfig.throws_ofJson (deviceId : UInt64) (configIndex : UInt8) (j : Json) :
    Throws (documentError j) (USBConfig.ofJson deviceId configIndex j) := by
  by_cases h : j.Subscriptable
  · rw [documentError_of_subscriptable h, USBConfig.ofJson]
    refine (Json.throws_readNumber h _ _).bind fun id' => ?_
    refine (Json.throws_readNumber h _ _).bind fun at' => ?_
    refine (Json.throws_readNumber h _ _).bind fun mp => ?_
    refine (Json.throws_readString h _).bind fun nm => ?_
    refine (Json.throws_readItems h _).bind fun items => ?_
    exact (throws_indices _ items).bind fun is => throws_pure _ _
  · rw [documentError_of_not h, USBConfig.ofJson, Json.readNumber, Json.subscript_of_not h]
    exact throws_error _

theorem USBDevice.throws_ofJson (deviceId : UInt64) (j : Json) :
    Throws (documentError j) (USBDevice.ofJson deviceId j) := by
  by_cases h : j.Subscriptable
  · rw [documentError_of_subscriptable h, USBDevice.ofJson]
    refine (Json.throws_readString h _).bind fun nm => ?_
    refine (Json.throws_readString h _).bind fun mn => ?_
    refine (Json.throws_readString h _).bind fun pn => ?_
    refine (Json.throws_readString h _).bind fun vs => ?_
    refine (Json.throws_readNumber h _ _).bind fun da => ?_
    refine (Json.throws_readNumber h _ _).bind fun bn => ?_
    refine (Json.throws_readNumber h _ _).bind fun vi => ?_
    refine (Json.throws_readNumber h _ _).bind fun pi => ?_
    refine (Json.throws_readNumber h _ _).bind fun cl => ?_
    refine (Json.throws_readNumber h _ _).bind fun sc => ?_
    refine (Json.throws_readNumber h _ _).bind fun pr => ?_
    refine (Json.throws_readItems h _).bind fun items => ?_
    exact (throws_indices _ items).bind fun cs => throws_pure _ _
  · rw [documentError_of_not h, USBDevice.ofJson, Json.readString, Json.subscript_of_not h]
    exact throws_error _

/-! ## Keys that are read -/

variable {j j' : Json}

theorem SameUnder.readItems {keys : List String} (h : SameUnder keys j j') {key : String}
    (hkey : key ∈ keys) : j.readItems key = j'.readItems key := by
  rw [Json.readItems, h.subscript hkey, Json.readItems]

theorem config_congr (deviceId : UInt64) (configIndex : UInt8)
    (h : SameUnder (configKeys ++ ["name", "interfaces"]) j j') :
    USBConfig.ofJson deviceId configIndex j = USBConfig.ofJson deviceId configIndex j' := by
  have hmem : ∀ key ∈ ["id", "attributes", "maxPower", "name", "interfaces"],
      key ∈ configKeys ++ ["name", "interfaces"] := fun key hkey => hkey
  simp only [USBConfig.ofJson, h.readNumber (hmem "id" (by simp)),
    h.readNumber (hmem "attributes" (by simp)), h.readNumber (hmem "maxPower" (by simp)),
    h.readString (hmem "name" (by simp)), h.readItems (hmem "interfaces" (by simp))]

theorem device_congr (deviceId : UInt64)
    (h : SameUnder (deviceKeys ++ deviceNames ++ ["configs"]) j j') :
    USBDevice.ofJson deviceId j = USBDevice.ofJson deviceId j' := by
  have hnumber : ∀ {α : Type} (cast : ℤ → α), ∀ key ∈ deviceKeys,
      j.readNumber cast key = j'.readNumber cast key := fun cast key hkey =>
    h.readNumber (List.mem_append_left _ (List.mem_append_left _ hkey))
  have hstring : ∀ key ∈ deviceNames, j.readString key = j'.readString key := fun key hkey =>
    h.readString (List.mem_append_left _ (List.mem_append_right _ hkey))
  simp only [USBDevice.ofJson, hstring "name" (by simp [deviceNames]),
    hstring "manufacturerName" (by simp [deviceNames]),
    hstring "productName" (by simp [deviceNames]), hstring "version" (by simp [deviceNames]),
    hnumber _ "devAddress" (by simp [deviceKeys]), hnumber _ "busNum" (by simp [deviceKeys]),
    hnumber _ "vendorId" (by simp [deviceKeys]), hnumber _ "productId" (by simp [deviceKeys]),
    hnumber _ "clazz" (by simp [deviceKeys]), hnumber _ "subClass" (by simp [deviceKeys]),
    hnumber _ "protocol" (by simp [deviceKeys]),
    h.readItems (show "configs" ∈ _ from List.mem_append_right _ List.mem_cons_self)]

/-- **The grammar of a configuration.** The constructor succeeds on exactly the documents of the
grammar and stores their values, with one interface for each index; on others it throws the error
of the document; and it does not depend on any other key. -/
theorem config_grammar (deviceId : UInt64) (configIndex : UInt8) (j : Json) :
    ((∃ c, USBConfig.ofJson deviceId configIndex j = .ok c) ↔ ConfigGrammar j) ∧
    (∀ c, USBConfig.ofJson deviceId configIndex j = .ok c → c.Decoded deviceId configIndex j) ∧
    (∀ e, USBConfig.ofJson deviceId configIndex j = .error e → e = documentError j) ∧
    ∀ j', SameUnder (configKeys ++ ["name", "interfaces"]) j j' →
      USBConfig.ofJson deviceId configIndex j = USBConfig.ofJson deviceId configIndex j' :=
  ⟨USBConfig.grammar_iff, fun _ => USBConfig.decoded,
    USBConfig.throws_ofJson deviceId configIndex j, fun _ => config_congr deviceId configIndex⟩

/-- **The grammar of a device.** -/
theorem device_grammar (deviceId : UInt64) (j : Json) :
    ((∃ d, USBDevice.ofJson deviceId j = .ok d) ↔ DeviceGrammar j) ∧
    (∀ d, USBDevice.ofJson deviceId j = .ok d → d.Decoded deviceId j) ∧
    (∀ e, USBDevice.ofJson deviceId j = .error e → e = documentError j) ∧
    ∀ j', SameUnder (deviceKeys ++ deviceNames ++ ["configs"]) j j' →
      USBDevice.ofJson deviceId j = USBDevice.ofJson deviceId j' :=
  ⟨USBDevice.grammar_iff, fun _ => USBDevice.decoded, USBDevice.throws_ofJson deviceId j,
    fun _ => device_congr deviceId⟩

end OhosWrapper.Usb
