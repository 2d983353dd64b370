import OhosWrapper.Usb.Device

/-!
# What the decoders store

The constructors from a document check nothing but the kinds of the values they read. This module
says what they store, and which documents the constructor of a device accepts.

**Narrowing.** A number is reduced to the width of the member it initialises; a boolean counts as
0 or 1. Strings are kept. `maxPower()` is twice the number stored.

**Theorem (`stores`).** A constructor that returns has stored, for every key it read, the
document's string, or its number reduced to the width of the member.

**Acceptance.** A document is well formed when each level has the keys its constructor reads, and
the lists of children are arrays of well-formed documents or missing. Every well-formed interface
is accepted, with its endpoints in order. But a configuration makes an index out of each
interface, and a device out of each configuration, and an object is no index.

**Theorem (`accepts_document_iff`).** A well-formed document of a device is accepted, and gives
the tree it describes, if and only if it has no configurations.
-/

namespace OhosWrapper.Usb

open Nlohmann

/-! ## Stored values -/

/-- `v` is the number under `key`, reduced to `w` bits. -/
def StoresUnsigned (w : ℕ) (j : Json) (key : String) (v : ℕ) : Prop :=
  ∃ z, j.number? key = some z ∧ (v : ℤ) = z % 2 ^ w

/-- `v` is the number under `key`, reduced to `w` bits with a sign. -/
def StoresSigned (w : ℕ) (j : Json) (key : String) (v : ℤ) : Prop :=
  ∃ z, j.number? key = some z ∧ v = z.bmod (2 ^ w)

/-- The getters of an endpoint return what the document holds. `InterfaceId` does so for the
indices it can represent. -/
structure USBEndpoint.Stores (e : USBEndpoint) (j : Json) : Prop where
  address : StoresUnsigned 32 j "address" e.address.toNat
  attributes : StoresUnsigned 32 j "attributes" e.attributes.toNat
  interval : StoresSigned 32 j "interval" e.interval.toInt
  maxPacketSize : StoresSigned 32 j "maxPacketSize" e.maxPacketSize.toInt
  interfaceId : ∃ z, j.number? "interfaceId" = some z ∧
    (z % 2 ^ 8 < 2 ^ 7 → e.InterfaceId.toInt = z % 2 ^ 8)

structure USBInterface.Stores (i : USBInterface) (j : Json) : Prop where
  id : StoresSigned 32 j "id" i.id.toInt
  protocol : StoresSigned 32 j "protocol" i.protocol.toInt
  clazz : StoresSigned 32 j "clazz" i.clazz.toInt
  subClass : StoresSigned 32 j "subClass" i.subClass.toInt
  alternateSetting : StoresSigned 32 j "alternateSetting" i.alternateSetting.toInt
  name : j.string? "name" = some i.name

/-- `maxPower` returns twice the number stored, where the product is defined. -/
structure USBConfig.Stores (c : USBConfig) (j : Json) : Prop where
  id : StoresSigned 32 j "id" c.id.toInt
  attributes : StoresUnsigned 32 j "attributes" c.attributes.toNat
  maxPower : ∃ z, j.number? "maxPower" = some z ∧ (-2 ^ 31 ≤ 2 * z.bmod (2 ^ 32) →
    2 * z.bmod (2 ^ 32) < 2 ^ 31 → c.maxPower.toInt = 2 * z.bmod (2 ^ 32))
  name : j.string? "name" = some c.name

structure USBDevice.Stores (d : USBDevice) (j : Json) : Prop where
  name : j.string? "name" = some d.name
  manufacturerName : j.string? "manufacturerName" = some d.manufacturerName
  productName : j.string? "productName" = some d.productName
  version : j.string? "version" = some d.version
  devAddr : StoresUnsigned 8 j "devAddress" d.devAddr.toNat
  busNum : StoresUnsigned 8 j "busNum" d.busNum.toNat
  vendorId : StoresSigned 32 j "vendorId" d.vendorId.toInt
  productId : StoresSigned 32 j "productId" d.productId.toInt
  clazz : StoresSigned 32 j "clazz" d.clazz.toInt
  subClass : StoresSigned 32 j "subClass" d.subClass.toInt
  protocol : StoresSigned 32 j "protocol" d.protocol.toInt

theorem storesUInt8 {j : Json} {key : String} {z : ℤ} (h : j.number? key = some z) :
    StoresUnsigned 8 j key (UInt8.ofInt z).toNat :=
  ⟨z, h, toNat_uint8_ofInt z⟩

theorem storesUInt32 {j : Json} {key : String} {z : ℤ} (h : j.number? key = some z) :
    StoresUnsigned 32 j key (UInt32.ofInt z).toNat :=
  ⟨z, h, toNat_uint32_ofInt z⟩

theorem storesInt32 {j : Json} {key : String} {z : ℤ} (h : j.number? key = some z) :
    StoresSigned 32 j key (Int32.ofInt z).toInt :=
  ⟨z, h, Int32.toInt_ofInt⟩

/-- A byte below `2 ^ 7` is its own signed reading. -/
theorem toInt_toInt8_of_lt {v : UInt8} (h : v.toNat < 2 ^ 7) : v.toInt8.toInt = v.toNat := by
  rw [show v.toInt8.toInt = Int.bmod v.toNat (2 ^ 8) from BitVec.toInt_eq_toNat_bmod v.toBitVec]
  exact Int.bmod_eq_of_le (by omega) (by omega)

/-- The product in `maxPower()`, where it is defined. -/
theorem toInt_mul_two {v : Int32} (hlo : -2 ^ 31 ≤ 2 * v.toInt) (hhi : 2 * v.toInt < 2 ^ 31) :
    (v * 2).toInt = 2 * v.toInt := by
  rw [Int32.toInt_mul, show (2 : Int32).toInt = 2 from rfl, Int.mul_comm]
  exact Int.bmod_eq_of_le (by omega) (by omega)

theorem USBEndpoint.stores_of_ofJson {j : Json} {e : USBEndpoint}
    (h : USBEndpoint.ofJson j = .ok e) : e.Stores j := by
  obtain ⟨a, at', iv, mp, ii, ha, hat, hiv, hmp, hii, rfl⟩ := USBEndpoint.ofJson_eq_ok.1 h
  refine ⟨storesUInt32 ha, storesUInt32 hat, storesInt32 hiv, storesInt32 hmp, ii, hii, ?_⟩
  intro hlt
  have hmod := toNat_uint8_ofInt ii
  have hbyte : (UInt8.ofInt ii).toNat < 2 ^ 7 := by omega
  exact (toInt_toInt8_of_lt hbyte).trans hmod

theorem USBInterface.stores_of_ofJson {deviceId : UInt64} {interfaceIndex : UInt8} {j : Json}
    {i : USBInterface} (h : USBInterface.ofJson deviceId interfaceIndex j = .ok i) :
    i.Stores j := by
  obtain ⟨id', pr, cl, sc, as, nm, eps, hid, hpr, hcl, hsc, has, hnm, -, rfl⟩ :=
    USBInterface.ofJson_eq_ok.1 h
  exact ⟨storesInt32 hid, storesInt32 hpr, storesInt32 hcl, storesInt32 hsc, storesInt32 has, hnm⟩

theorem USBConfig.stores_of_ofJson {deviceId : UInt64} {configIndex : UInt8} {j : Json}
    {c : USBConfig} (h : USBConfig.ofJson deviceId configIndex j = .ok c) : c.Stores j := by
  obtain ⟨id', at', mp, nm, is, hid, hat, hmp, hnm, -, rfl⟩ := USBConfig.ofJson_eq_ok.1 h
  refine ⟨storesInt32 hid, storesUInt32 hat, ⟨mp, hmp, ?_⟩, hnm⟩
  intro hlo hhi
  have hstored : (Int32.ofInt mp).toInt = mp.bmod (2 ^ 32) := Int32.toInt_ofInt
  rw [USBConfig.maxPower, ← hstored]
  exact toInt_mul_two (by rwa [hstored]) (by rwa [hstored])

theorem USBDevice.stores_of_ofJson {deviceId : UInt64} {j : Json} {d : USBDevice}
    (h : USBDevice.ofJson deviceId j = .ok d) : d.Stores j := by
  obtain ⟨nm, mn, pn, vs, da, bn, vi, pi, cl, sc, pr, cs, hnm, hmn, hpn, hvs, hda, hbn, hvi, hpi,
    hcl, hsc, hpr, -, rfl⟩ := USBDevice.ofJson_eq_ok.1 h
  exact ⟨hnm, hmn, hpn, hvs, storesUInt8 hda, storesUInt8 hbn, storesInt32 hvi, storesInt32 hpi,
    storesInt32 hcl, storesInt32 hsc, storesInt32 hpr⟩

/-- **Stored values.** At each level, a constructor that returns stores the document's strings and
its numbers reduced to the width of the members. -/
theorem stores (deviceId : UInt64) (index : UInt8) (j : Json) :
    (∀ e, USBEndpoint.ofJson j = .ok e → e.Stores j) ∧
    (∀ i, USBInterface.ofJson deviceId index j = .ok i → i.Stores j) ∧
    (∀ c, USBConfig.ofJson deviceId index j = .ok c → c.Stores j) ∧
    (∀ d, USBDevice.ofJson deviceId j = .ok d → d.Stores j) :=
  ⟨fun _ => USBEndpoint.stores_of_ofJson, fun _ => USBInterface.stores_of_ofJson,
    fun _ => USBConfig.stores_of_ofJson, fun _ => USBDevice.stores_of_ofJson⟩

/-- The instance at a document with the keys of every level. -/
theorem stores_one_document : ∃ j,
    (∃ e, USBEndpoint.ofJson j = .ok e ∧ e.Stores j) ∧
    (∃ i, USBInterface.ofJson 7 1 j = .ok i ∧ i.Stores j) ∧
    (∃ c, USBConfig.ofJson 7 1 j = .ok c ∧ c.Stores j) ∧
    ∃ d, USBDevice.ofJson 7 j = .ok d ∧ d.Stores j :=
  ⟨.object [("address", .number_unsigned 4294967425), ("attributes", .number_unsigned 2),
      ("interval", .number_integer (-1)), ("maxPacketSize", .number_unsigned 64),
      ("interfaceId", .number_unsigned 0), ("id", .number_unsigned 1),
      ("protocol", .number_unsigned 0), ("clazz", .number_unsigned 8),
      ("subClass", .number_unsigned 6), ("alternateSetting", .number_unsigned 0),
      ("name", .string "disk"), ("maxPower", .number_unsigned 50),
      ("manufacturerName", .string "m"), ("productName", .string "p"), ("version", .string "1"),
      ("devAddress", .number_unsigned 3), ("busNum", .number_unsigned 1),
      ("vendorId", .number_unsigned 1155), ("productId", .number_unsigned 22352)],
    ⟨_, rfl, (stores 7 1 _).1 _ rfl⟩, ⟨_, rfl, (stores 7 1 _).2.1 _ rfl⟩,
    ⟨_, rfl, (stores 7 1 _).2.2.1 _ rfl⟩, _, rfl, (stores 7 1 _).2.2.2 _ rfl⟩

/-- Numbers are not stored as they are: an address is reduced to 32 bits, a boolean is stored as
1, an interface index is read with a sign, and `maxPower` is doubled. -/
theorem not_stores_exactly :
    (∃ e, USBEndpoint.ofJson (.object [("address", .number_unsigned 4294967296),
      ("attributes", .boolean true), ("interval", .number_integer 5),
      ("maxPacketSize", .number_unsigned 64), ("interfaceId", .number_unsigned 200)]) = .ok e ∧
      e.address = 0 ∧ e.attributes = 1 ∧ e.InterfaceId = -56) ∧
    ∃ c, USBConfig.ofJson 7 1 (.object [("id", .number_unsigned 1),
      ("attributes", .number_unsigned 128), ("maxPower", .number_unsigned 50),
      ("name", .string "")]) = .ok c ∧ c.maxPower = 100 :=
  ⟨⟨_, rfl, rfl, rfl, rfl⟩, _, rfl, rfl⟩

/-! ## Accepted documents -/

/-- An object with a number under each of `ints` and a string under each of `strings`. -/
def HasKeys (ints strings : List String) (j : Json) : Prop :=
  (∀ key ∈ ints, ∃ v, j.value? key = some v ∧ v.IsNumber) ∧
  ∀ key ∈ strings, ∃ s, j.value? key = some (.string s)

/-- What is under `key`, if anything, is an array of documents in `P`. -/
def HasArray (key : String) (P : Json → Prop) (j : Json) : Prop :=
  ∀ v, j.value? key = some v → ∃ elems, v = .array elems ∧ ∀ elem ∈ elems, P elem

def EndpointDocument : Json → Prop :=
  HasKeys ["address", "attributes", "interval", "maxPacketSize", "interfaceId"] []

def InterfaceDocument (j : Json) : Prop :=
  HasKeys ["id", "protocol", "clazz", "subClass", "alternateSetting"] ["name"] j ∧
    HasArray "endpoints" EndpointDocument j

def ConfigDocument (j : Json) : Prop :=
  HasKeys ["id", "attributes", "maxPower"] ["name"] j ∧ HasArray "interfaces" InterfaceDocument j

def DeviceDocument (j : Json) : Prop :=
  HasKeys ["devAddress", "busNum", "vendorId", "productId", "clazz", "subClass", "protocol"]
    ["name", "manufacturerName", "productName", "version"] j ∧ HasArray "configs" ConfigDocument j

/-- The interface is the document's, with one endpoint for each element, in order. -/
def USBInterface.Matches (i : USBInterface) (j : Json) : Prop :=
  i.Stores j ∧ List.Forall₂ (fun ej e => e.Stores ej) (j.itemsAt "endpoints") i.endpoints

def USBConfig.Matches (c : USBConfig) (j : Json) : Prop :=
  c.Stores j ∧ List.Forall₂ (fun ij i => i.Matches ij) (j.itemsAt "interfaces") c.interfaces

def USBDevice.Matches (d : USBDevice) (j : Json) : Prop :=
  d.Stores j ∧ List.Forall₂ (fun cj c => c.Matches cj) (j.itemsAt "configs") d.configs

theorem HasKeys.number? {ints strings : List String} {j : Json} (h : HasKeys ints strings j)
    {key : String} (hkey : key ∈ ints) : ∃ z, j.number? key = some z := by
  obtain ⟨v, hv, hnum⟩ := h.1 key hkey
  rw [Json.number?, hv, Option.bind_some]
  exact hnum.exists_toInt?

theorem HasKeys.string? {ints strings : List String} {j : Json} (h : HasKeys ints strings j)
    {key : String} (hkey : key ∈ strings) : ∃ s, j.string? key = some s := by
  obtain ⟨s, hs⟩ := h.2 key hkey
  exact ⟨s, by rw [Json.string?, hs]; rfl⟩

/-- The children of a well-formed document are well formed. -/
theorem HasArray.of_mem {key : String} {P : Json → Prop} {j elem : Json} (h : HasArray key P j)
    (helem : elem ∈ j.itemsAt key) : P elem := by
  unfold Json.itemsAt at helem
  cases hv : j.value? key with
  | none => rw [hv] at helem; cases helem
  | some v =>
    obtain ⟨elems, rfl, hP⟩ := h v hv
    rw [hv] at helem
    exact hP elem helem

/-- A document with numbers or strings under some keys is no number. -/
theorem HasKeys.toInt? {ints strings : List String} {j : Json} (h : HasKeys ints strings j)
    (hne : ints ≠ []) : j.toInt? = none := by
  obtain ⟨key, hkey⟩ := List.exists_mem_of_ne_nil ints hne
  obtain ⟨v, hv, -⟩ := h.1 key hkey
  cases j with
  | object fields => rfl
  | _ => exact (nomatch hv)

theorem USBEndpoint.accepts {j : Json} (h : EndpointDocument j) :
    ∃ e, USBEndpoint.ofJson j = .ok e := by
  obtain ⟨a, ha⟩ := h.number? (show "address" ∈ _ by simp)
  obtain ⟨at', hat⟩ := h.number? (show "attributes" ∈ _ by simp)
  obtain ⟨iv, hiv⟩ := h.number? (show "interval" ∈ _ by simp)
  obtain ⟨mp, hmp⟩ := h.number? (show "maxPacketSize" ∈ _ by simp)
  obtain ⟨ii, hii⟩ := h.number? (show "interfaceId" ∈ _ by simp)
  exact ⟨_, USBEndpoint.ofJson_eq_ok.2 ⟨a, at', iv, mp, ii, ha, hat, hiv, hmp, hii, rfl⟩⟩

/-- **Interfaces are accepted.** Every well-formed document of an interface is accepted and gives
its endpoints in order. -/
theorem USBInterface.accepts (deviceId : UInt64) (interfaceIndex : UInt8) {j : Json}
    (h : InterfaceDocument j) :
    ∃ i, USBInterface.ofJson deviceId interfaceIndex j = .ok i ∧ i.Matches j := by
  obtain ⟨hkeys, harray⟩ := h
  obtain ⟨id', hid⟩ := hkeys.number? (show "id" ∈ _ by simp)
  obtain ⟨pr, hpr⟩ := hkeys.number? (show "protocol" ∈ _ by simp)
  obtain ⟨cl, hcl⟩ := hkeys.number? (show "clazz" ∈ _ by simp)
  obtain ⟨sc, hsc⟩ := hkeys.number? (show "subClass" ∈ _ by simp)
  obtain ⟨as, has⟩ := hkeys.number? (show "alternateSetting" ∈ _ by simp)
  obtain ⟨nm, hnm⟩ := hkeys.string? (show "name" ∈ _ by simp)
  obtain ⟨eps, heps⟩ := exists_mapM_eq_ok fun ej hej => USBEndpoint.accepts (harray.of_mem hej)
  obtain ⟨i, hok, rfl⟩ : ∃ i, USBInterface.ofJson deviceId interfaceIndex j = .ok i ∧
      i.endpoints = eps :=
    ⟨_, USBInterface.ofJson_eq_ok.2 ⟨id', pr, cl, sc, as, nm, eps, hid, hpr, hcl, hsc, has, hnm,
      mapM_eq_ok.1 heps, rfl⟩, rfl⟩
  exact ⟨i, hok, USBInterface.stores_of_ofJson hok,
    (mapM_eq_ok.1 heps).imp fun ej e => USBEndpoint.stores_of_ofJson⟩

/-- A well-formed document of a configuration is accepted if and only if it has no interfaces. -/
theorem USBConfig.accepts_iff (deviceId : UInt64) (configIndex : UInt8) {j : Json}
    (h : ConfigDocument j) :
    (∃ c, USBConfig.ofJson deviceId configIndex j = .ok c ∧ c.Matches j) ↔
      j.itemsAt "interfaces" = [] := by
  obtain ⟨hkeys, harray⟩ := h
  refine ⟨?_, ?_⟩
  · intro h
    obtain ⟨c, hc, -⟩ := h
    obtain ⟨_, _, _, _, is, -, -, -, -, his, -⟩ := USBConfig.ofJson_eq_ok.1 hc
    exact Json.eq_nil_of_numbers (fun ij hij => (harray.of_mem hij).1.toInt? (by simp)) his
  · intro hnil
    obtain ⟨id', hid⟩ := hkeys.number? (show "id" ∈ _ by simp)
    obtain ⟨at', hat⟩ := hkeys.number? (show "attributes" ∈ _ by simp)
    obtain ⟨mp, hmp⟩ := hkeys.number? (show "maxPower" ∈ _ by simp)
    obtain ⟨nm, hnm⟩ := hkeys.string? (show "name" ∈ _ by simp)
    obtain ⟨c, hok, his⟩ : ∃ c, USBConfig.ofJson deviceId configIndex j = .ok c ∧
        c.interfaces = [] :=
      ⟨_, USBConfig.ofJson_eq_ok.2 ⟨id', at', mp, nm, [], hid, hat, hmp, hnm,
        by rw [hnil]; exact .nil, rfl⟩, rfl⟩
    exact ⟨c, hok, USBConfig.stores_of_ofJson hok, by rw [hnil, his]; exact .nil⟩

/-- **Accepted devices.** A well-formed document of a device is accepted, and gives the tree it
describes, if and only if it has no configurations. -/
theorem USBDevice.accepts_document_iff (deviceId : UInt64) {j : Json} (h : DeviceDocument j) :
    (∃ d, USBDevice.ofJson deviceId j = .ok d ∧ d.Matches j) ↔ j.itemsAt "configs" = [] := by
  obtain ⟨hkeys, harray⟩ := h
  refine ⟨?_, ?_⟩
  · intro h
    obtain ⟨d, hd, -⟩ := h
    obtain ⟨_, _, _, _, _, _, _, _, _, _, _, cs, -, -, -, -, -, -, -, -, -, -, -, hcs, -⟩ :=
      USBDevice.ofJson_eq_ok.1 hd
    exact Json.eq_nil_of_numbers (fun cj hcj => (harray.of_mem hcj).1.toInt? (by simp)) hcs
  · intro hnil
    obtain ⟨nm, hnm⟩ := hkeys.string? (show "name" ∈ _ by simp)
    obtain ⟨mn, hmn⟩ := hkeys.string? (show "manufacturerName" ∈ _ by simp)
    obtain ⟨pn, hpn⟩ := hkeys.string? (show "productName" ∈ _ by simp)
    obtain ⟨vs, hvs⟩ := hkeys.string? (show "version" ∈ _ by simp)
    obtain ⟨da, hda⟩ := hkeys.number? (show "devAddress" ∈ _ by simp)
    obtain ⟨bn, hbn⟩ := hkeys.number? (show "busNum" ∈ _ by simp)
    obtain ⟨vi, hvi⟩ := hkeys.number? (show "vendorId" ∈ _ by simp)
    obtain ⟨pi, hpi⟩ := hkeys.number? (show "productId" ∈ _ by simp)
    obtain ⟨cl, hcl⟩ := hkeys.number? (show "clazz" ∈ _ by simp)
    obtain ⟨sc, hsc⟩ := hkeys.number? (show "subClass" ∈ _ by simp)
    obtain ⟨pr, hpr⟩ := hkeys.number? (show "protocol" ∈ _ by simp)
    obtain ⟨d, hok, hcs⟩ : ∃ d, USBDevice.ofJson deviceId j = .ok d ∧ d.configs = [] :=
      ⟨_, USBDevice.ofJson_eq_ok.2 ⟨nm, mn, pn, vs, da, bn, vi, pi, cl, sc, pr, [], hnm, hmn, hpn,
        hvs, hda, hbn, hvi, hpi, hcl, hsc, hpr, by rw [hnil]; exact .nil, rfl⟩, rfl⟩
    exact ⟨d, hok, USBDevice.stores_of_ofJson hok, by rw [hnil, hcs]; exact .nil⟩

/-- The instance at a document with an empty array of configurations. -/
theorem USBDevice.accepts_no_configs : ∃ j, j.value? "configs" = some (.array []) ∧
    ∃ d, USBDevice.ofJson 7 j = .ok d ∧ d.Matches j := by
  refine ⟨.object [("name", .string "disk"), ("manufacturerName", .string "m"),
    ("productName", .string "p"), ("version", .string "1"), ("devAddress", .number_unsigned 3),
    ("busNum", .number_unsigned 1), ("vendorId", .number_unsigned 1155),
    ("productId", .number_unsigned 22352), ("clazz", .number_unsigned 0),
    ("subClass", .number_unsigned 0), ("protocol", .number_unsigned 0), ("configs", .array [])],
    rfl, (USBDevice.accepts_document_iff 7 ⟨⟨?_, ?_⟩, ?_⟩).2 rfl⟩
  · simp [List.lookup_cons, Json.IsNumber]
  · simp [List.lookup_cons]
  · simp [HasArray, List.lookup_cons]

/-- A well-formed document with one configuration, which has no interfaces, is rejected. -/
theorem USBDevice.not_accepts_one_config : ∃ j, DeviceDocument j ∧
    j.value? "configs" = some (.array [.object [("id", .number_unsigned 1),
      ("attributes", .number_unsigned 128), ("maxPower", .number_unsigned 50),
      ("name", .string "")]]) ∧
    USBDevice.ofJson 7 j = .error .type_error_302 := by
  refine ⟨.object [("name", .string "disk"), ("manufacturerName", .string "m"),
    ("productName", .string "p"), ("version", .string "1"), ("devAddress", .number_unsigned 3),
    ("busNum", .number_unsigned 1), ("vendorId", .number_unsigned 1155),
    ("productId", .number_unsigned 22352), ("clazz", .number_unsigned 0),
    ("subClass", .number_unsigned 0), ("protocol", .number_unsigned 0),
    ("configs", .array [.object [("id", .number_unsigned 1), ("attributes", .number_unsigned 128),
      ("maxPower", .number_unsigned 50), ("name", .string "")]])], ⟨⟨?_, ?_⟩, ?_⟩, rfl, rfl⟩
  · simp [List.lookup_cons, Json.IsNumber]
  · simp [List.lookup_cons]
  · simp [HasArray, ConfigDocument, HasKeys, List.lookup_cons, Json.IsNumber]

end OhosWrapper.Usb
