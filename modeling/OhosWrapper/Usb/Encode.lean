import OhosWrapper.Usb.Device

/-!
# Which trees are serialised

`toJson` of an object with children stores what `toJson` of each child returns, and a child that
returns nothing is stored as null. So a tree is serialised in full when no flag `parsed_` in it is
set (`serialises_iff`).

**Populated trees.** The flag is documented as "whether the fields to be serialised have been
updated", and the constructors that give the fields their values set it; but `toJson` returns a
document when it is *not* set.

**Theorem (`not_serialises`).** No tree whose objects were built by the constructors that give the
fields their values is serialised, whatever setters were called on them.
-/

namespace OhosWrapper.Usb

open Nlohmann

/-! ## Serialisation in full -/

/-- The endpoint appears in a document as the object `j`. -/
def USBEndpoint.Appears (e : USBEndpoint) (j : Json) : Prop := e.toJson = some j ∧ j.IsObject

/-- The interface appears as the object `j`, and so does every endpoint in it, in order. -/
def USBInterface.Appears (i : USBInterface) (j : Json) : Prop :=
  i.toJson = some j ∧ j.IsObject ∧
    List.Forall₂ (fun ej e => e.Appears ej) (j.itemsAt "endpoints") i.endpoints_

def USBConfig.Appears (c : USBConfig) (j : Json) : Prop :=
  c.toJson = some j ∧ j.IsObject ∧
    List.Forall₂ (fun ij i => i.Appears ij) (j.itemsAt "interfaces") c.interfaces_

/-- `toJson` returns a document, in which every object of the tree appears as an object. -/
def USBDevice.Serialises (d : USBDevice) : Prop :=
  ∃ j, d.toJson = some j ∧
    List.Forall₂ (fun cj c => c.Appears cj) (j.itemsAt "configs") d.configs_

/-- `toJson` of every object of the tree returns a document. -/
def USBInterface.Encodes (i : USBInterface) : Prop :=
  i.toJson.isSome ∧ ∀ e ∈ i.endpoints_, e.toJson.isSome

def USBConfig.Encodes (c : USBConfig) : Prop :=
  c.toJson.isSome ∧ ∀ i ∈ c.interfaces_, i.Encodes

def USBDevice.Encodes (d : USBDevice) : Prop :=
  d.toJson.isSome ∧ ∀ c ∈ d.configs_, c.Encodes

/-- The array of the encoded children, compared with the children one by one. -/
theorem forall₂_children_iff {α : Type} {toJson : α → Option Json} {A : α → Json → Prop}
    {E : α → Prop} (h : ∀ x, A x (.ofOption (toJson x)) ↔ E x) (xs : List α) :
    List.Forall₂ (fun j x => A x j) (xs.map fun x => .ofOption (toJson x)) xs ↔
      ∀ x ∈ xs, E x := by
  rw [List.forall₂_map_left_iff, List.forall₂_same]
  exact forall₂_congr fun x _ => h x

/-- An object that writes the document `j` appears, and its children do, exactly when `toJson`
returns something and `Q` holds of the children. -/
theorem appears_document_iff {parsed_ : Bool} {j : Json} {P : Json → Prop} {Q : Prop}
    (hobj : j.IsObject) (h : P j ↔ Q) :
    (Serializable.toJson parsed_ j = some (.ofOption (Serializable.toJson parsed_ j)) ∧
      (Json.ofOption (Serializable.toJson parsed_ j)).IsObject ∧
      P (.ofOption (Serializable.toJson parsed_ j))) ↔
      (Serializable.toJson parsed_ j).isSome ∧ Q := by
  cases hj : Serializable.toJson parsed_ j with
  | none => simp
  | some j' =>
    obtain ⟨-, rfl⟩ := Serializable.toJson_eq_some.1 hj
    rw [Json.ofOption, Option.getD_some, h, and_iff_right hobj, and_iff_right rfl,
      Option.isSome_some, and_iff_right rfl]

theorem USBEndpoint.appears_iff (e : USBEndpoint) :
    e.Appears (.ofOption e.toJson) ↔ e.toJson.isSome := by
  unfold USBEndpoint.Appears
  cases h : e.toJson with
  | none => simp
  | some j =>
    obtain ⟨-, rfl⟩ := Serializable.toJson_eq_some.1 h
    exact ⟨fun _ => rfl, fun _ => ⟨rfl, trivial⟩⟩

theorem USBInterface.appears_iff (i : USBInterface) :
    i.Appears (.ofOption i.toJson) ↔ i.Encodes := by
  refine appears_document_iff (j := i.document)
    (P := fun j => List.Forall₂ _ (j.itemsAt "endpoints") i.endpoints_) trivial ?_
  rw [i.itemsAt_document]
  exact forall₂_children_iff USBEndpoint.appears_iff i.endpoints_

theorem USBConfig.appears_iff (c : USBConfig) :
    c.Appears (.ofOption c.toJson) ↔ c.Encodes := by
  refine appears_document_iff (j := c.document)
    (P := fun j => List.Forall₂ _ (j.itemsAt "interfaces") c.interfaces_) trivial ?_
  rw [c.itemsAt_document]
  exact forall₂_children_iff USBInterface.appears_iff c.interfaces_

/-- **Serialisation in full.** A tree is serialised at every depth if and only if `toJson` of
every object in it returns a document. -/
theorem USBDevice.serialises_iff (d : USBDevice) : d.Serialises ↔ d.Encodes := by
  have hcs := forall₂_children_iff USBConfig.appears_iff d.configs_
  refine ⟨?_, ?_⟩
  · intro ⟨j, hj, h⟩
    obtain ⟨-, rfl⟩ := Serializable.toJson_eq_some.1 hj
    rw [d.itemsAt_document, hcs] at h
    exact ⟨Option.isSome_of_eq_some hj, h⟩
  · intro ⟨hd, h⟩
    obtain ⟨j, hj⟩ := Option.isSome_iff_exists.1 hd
    obtain ⟨-, rfl⟩ := Serializable.toJson_eq_some.1 hj
    refine ⟨_, hj, ?_⟩
    rw [d.itemsAt_document, hcs]
    exact h

/-! ## Populated trees -/

/-- One call of a setter. -/
inductive USBEndpoint.Set : USBEndpoint → USBEndpoint → Prop
  | setAddr (e val) : Set e (e.setAddr val)
  | setAttr (e val) : Set e (e.setAttr val)
  | setInterval (e val) : Set e (e.setInterval val)
  | setMaxPacketSize (e val) : Set e (e.setMaxPacketSize val)
  | setInterfaceId (e interfaceId) : Set e (e.setInterfaceId interfaceId)

/-- Built by the constructor that gives values, then changed by setters. -/
inductive USBEndpoint.Populated : USBEndpoint → Prop
  | ofJson {j e} (h : USBEndpoint.ofJson j = .ok e) : Populated e
  | set {e e'} (h : Populated e) (hset : e.Set e') : Populated e'

/-- One call of a setter, on the interface or on one of its endpoints. The endpoints passed to a
setter are populated themselves. -/
inductive USBInterface.Set : USBInterface → USBInterface → Prop
  | setEndpoints (i eps) (h : ∀ e ∈ eps, e.Populated) : Set i (i.setEndpoints eps)
  | setId (i id) : Set i (i.setId id)
  | setProtocol (i protocol) : Set i (i.setProtocol protocol)
  | setClazz (i clazz) : Set i (i.setClazz clazz)
  | setSubClass (i subClass) : Set i (i.setSubClass subClass)
  | setAlternatesetting (i alternatesetting) : Set i (i.setAlternatesetting alternatesetting)
  | setName (i name) : Set i (i.setName name)
  | setiInterface (i idx) : Set i (i.setiInterface idx)
  | endpointOf {i : USBInterface} {index : ℕ} {e e'} (he : i.endpoints_[index]? = some e)
      (hset : e.Set e') : Set i { i with endpoints_ := i.endpoints_.set index e' }

inductive USBInterface.Populated : USBInterface → Prop
  | ofFields (deviceId interfaceIndex id protocol interfaceClass subClass alternatesetting name)
      {endpoints} (h : ∀ e ∈ endpoints, e.Populated) :
      Populated (.ofFields deviceId interfaceIndex id protocol interfaceClass subClass
        alternatesetting name endpoints)
  | ofJson {deviceId interfaceIndex j i}
      (h : USBInterface.ofJson deviceId interfaceIndex j = .ok i) : Populated i
  | set {i i'} (h : Populated i) (hset : i.Set i') : Populated i'

inductive USBConfig.Set : USBConfig → USBConfig → Prop
  | setInterfaces (c is) (h : ∀ i ∈ is, i.Populated) : Set c (c.setInterfaces is)
  | setId (c id) : Set c (c.setId id)
  | setAttribute (c attributes) : Set c (c.setAttribute attributes)
  | setMaxPower (c maxPower) : Set c (c.setMaxPower maxPower)
  | setName (c name) : Set c (c.setName name)
  | setiConfiguration (c idx) : Set c (c.setiConfiguration idx)
  | interfaceOf {c : USBConfig} {index : ℕ} {i i'} (hi : c.interfaces_[index]? = some i)
      (hset : i.Set i') : Set c { c with interfaces_ := c.interfaces_.set index i' }

/-- The constructor from a document makes interfaces from their index alone, so one that gives
values to the interfaces too has found none. -/
inductive USBConfig.Populated : USBConfig → Prop
  | ofFields (deviceId configIndex id attributes name maxPower) {interfaces}
      (h : ∀ i ∈ interfaces, i.Populated) :
      Populated (.ofFields deviceId configIndex id attributes name maxPower interfaces)
  | ofJson {deviceId configIndex j c} (h : USBConfig.ofJson deviceId configIndex j = .ok c)
      (his : ∀ i ∈ c.interfaces_, i.Populated) : Populated c
  | set {c c'} (h : Populated c) (hset : c.Set c') : Populated c'

inductive USBDevice.Set : USBDevice → USBDevice → Prop
  | setConfigs (d cs) (h : ∀ c ∈ cs, c.Populated) : Set d (d.setConfigs cs)
  | setDevAddr (d addr) : Set d (d.setDevAddr addr)
  | setBusNum (d num) : Set d (d.setBusNum num)
  | setName (d name) : Set d (d.setName name)
  | setManufacturerName (d manufacturerName) : Set d (d.setManufacturerName manufacturerName)
  | setProductName (d productName) : Set d (d.setProductName productName)
  | setVersion (d version) : Set d (d.setVersion version)
  | setVendorId (d vendorId) : Set d (d.setVendorId vendorId)
  | setProductId (d productId) : Set d (d.setProductId productId)
  | setClazz (d deviceClass) : Set d (d.setClazz deviceClass)
  | setSubclass (d subClass) : Set d (d.setSubclass subClass)
  | setProtocol (d protocol) : Set d (d.setProtocol protocol)
  | setDescConfigCount (d count) : Set d (d.setDescConfigCount count)
  | setiManufacturer (d manufacturer) : Set d (d.setiManufacturer manufacturer)
  | setiProduct (d product) : Set d (d.setiProduct product)
  | setiSerialNumber (d sn) : Set d (d.setiSerialNumber sn)
  | setmSerial (d serial) : Set d (d.setmSerial serial)
  | setbMaxPacketSize0 (d maxSize) : Set d (d.setbMaxPacketSize0 maxSize)
  | setbcdUSB (d bcdUSB) : Set d (d.setbcdUSB bcdUSB)
  | setbcdDevice (d bcdDevice) : Set d (d.setbcdDevice bcdDevice)
  | configOf {d : USBDevice} {index : ℕ} {c c'} (hc : d.configs_[index]? = some c)
      (hset : c.Set c') : Set d { d with configs_ := d.configs_.set index c' }

inductive USBDevice.Populated : USBDevice → Prop
  | ofFields (deviceId name manufacturerName productName version devAddr busNum vendorId productId
      clazz subClass protocol) {configs} (h : ∀ c ∈ configs, c.Populated) :
      Populated (.ofFields deviceId name manufacturerName productName version devAddr busNum
        vendorId productId clazz subClass protocol configs)
  | ofJson {deviceId j d} (h : USBDevice.ofJson deviceId j = .ok d)
      (hcs : ∀ c ∈ d.configs_, c.Populated) : Populated d
  | set {d d'} (h : Populated d) (hset : d.Set d') : Populated d'

/-! ## The flag -/

/-- A child changed by a setter is put back among the others. -/
theorem forall_mem_set {α : Type} {P : α → Prop} {xs : List α} {index : ℕ} {x x' : α}
    (h : ∀ y ∈ xs, P y) (hx : xs[index]? = some x) (hset : P x → P x') :
    ∀ y ∈ xs.set index x', P y := by
  intro y hy
  rcases List.mem_or_eq_of_mem_set hy with hy | rfl
  · exact h y hy
  · exact hset (h x (List.mem_of_getElem? hx))

theorem USBEndpoint.Set.parsed {e e' : USBEndpoint} (h : e.Set e') : e'.parsed_ = e.parsed_ := by
  cases h <;> rfl

/-- **The flag of an endpoint.** Its constructor sets the flag, and no setter touches it. -/
theorem USBEndpoint.Populated.parsed {e : USBEndpoint} (h : e.Populated) : e.parsed_ = true := by
  induction h with
  | ofJson h =>
    obtain ⟨_, _, _, _, _, -, -, -, -, -, rfl⟩ := USBEndpoint.ofJson_eq_ok.1 h
    rfl
  | set _ hset ih => exact hset.parsed.trans ih

theorem USBInterface.Set.parsed {i i' : USBInterface} (h : i.Set i') : i'.parsed_ = i.parsed_ := by
  cases h <;> rfl

theorem USBInterface.Set.endpoints {i i' : USBInterface} (h : i.Set i')
    (hes : ∀ e ∈ i.endpoints_, e.Populated) : ∀ e ∈ i'.endpoints_, e.Populated := by
  cases h with
  | setEndpoints _ h => exact h
  | endpointOf he hset => exact forall_mem_set hes he fun h => h.set hset
  | _ => exact hes

/-- The flag and the endpoints of a populated interface. -/
theorem USBInterface.Populated.parsed {i : USBInterface} (h : i.Populated) :
    i.parsed_ = true ∧ ∀ e ∈ i.endpoints_, e.Populated := by
  induction h with
  | ofFields _ _ _ _ _ _ _ _ h => exact ⟨rfl, h⟩
  | ofJson h =>
    obtain ⟨_, _, _, _, _, _, eps, -, -, -, -, -, -, heps, rfl⟩ := USBInterface.ofJson_eq_ok.1 h
    exact ⟨rfl, forall_of_decoded (fun _ _ => .ofJson) heps⟩
  | set _ hset ih => exact ⟨hset.parsed.trans ih.1, hset.endpoints ih.2⟩

theorem USBConfig.Set.parsed {c c' : USBConfig} (h : c.Set c') : c'.parsed_ = c.parsed_ := by
  cases h <;> rfl

theorem USBConfig.Set.interfaces {c c' : USBConfig} (h : c.Set c')
    (his : ∀ i ∈ c.interfaces_, i.Populated) : ∀ i ∈ c'.interfaces_, i.Populated := by
  cases h with
  | setInterfaces _ h => exact h
  | interfaceOf hi hset => exact forall_mem_set his hi fun h => h.set hset
  | _ => exact his

theorem USBConfig.Populated.parsed {c : USBConfig} (h : c.Populated) :
    c.parsed_ = true ∧ ∀ i ∈ c.interfaces_, i.Populated := by
  induction h with
  | ofFields _ _ _ _ _ _ h => exact ⟨rfl, h⟩
  | ofJson h his =>
    refine ⟨?_, his⟩
    obtain ⟨_, _, _, _, _, -, -, -, -, -, rfl⟩ := USBConfig.ofJson_eq_ok.1 h
    rfl
  | set _ hset ih => exact ⟨hset.parsed.trans ih.1, hset.interfaces ih.2⟩

theorem USBDevice.Set.parsed {d d' : USBDevice} (h : d.Set d') : d'.parsed_ = d.parsed_ := by
  cases h <;> rfl

theorem USBDevice.Set.configs {d d' : USBDevice} (h : d.Set d')
    (hcs : ∀ c ∈ d.configs_, c.Populated) : ∀ c ∈ d'.configs_, c.Populated := by
  cases h with
  | setConfigs _ h => exact h
  | configOf hc hset => exact forall_mem_set hcs hc fun h => h.set hset
  | _ => exact hcs

theorem USBDevice.Populated.parsed {d : USBDevice} (h : d.Populated) :
    d.parsed_ = true ∧ ∀ c ∈ d.configs_, c.Populated := by
  induction h with
  | ofFields _ _ _ _ _ _ _ _ _ _ _ _ h => exact ⟨rfl, h⟩
  | ofJson h hcs =>
    refine ⟨?_, hcs⟩
    obtain ⟨_, _, _, _, _, _, _, _, _, _, _, _, -, -, -, -, -, -, -, -, -, -, -, -, rfl⟩ :=
      USBDevice.ofJson_eq_ok.1 h
    rfl
  | set _ hset ih => exact ⟨hset.parsed.trans ih.1, hset.configs ih.2⟩

/-- **Nothing is serialised.** In a populated tree `toJson` of no object returns a document. -/
theorem USBDevice.Populated.toJson_eq_none {d : USBDevice} (h : d.Populated) :
    d.toJson = none ∧ ∀ c ∈ d.configs_, c.toJson = none ∧ ∀ i ∈ c.interfaces_, i.toJson = none ∧
      ∀ e ∈ i.endpoints_, e.toJson = none := by
  refine ⟨Serializable.toJson_eq_none.2 h.parsed.1, fun c hc => ?_⟩
  obtain ⟨hc, his⟩ := (h.parsed.2 c hc).parsed
  refine ⟨Serializable.toJson_eq_none.2 hc, fun i hi => ?_⟩
  obtain ⟨hi, hes⟩ := (his i hi).parsed
  exact ⟨Serializable.toJson_eq_none.2 hi,
    fun e he => Serializable.toJson_eq_none.2 (hes e he).parsed⟩

/-- **Populated trees are not serialised.** -/
theorem USBDevice.not_serialises {d : USBDevice} (h : d.Populated) : ¬ d.Serialises := by
  rw [USBDevice.serialises_iff]
  intro hd
  have hnone := h.toJson_eq_none.1
  rw [USBDevice.Encodes, hnone] at hd
  exact Bool.false_ne_true hd.1

/-- The instance at a tree with an object on each level, the endpoint changed by a setter. -/
theorem USBDevice.not_serialises_one_endpoint :
    ¬ (USBDevice.ofFields 7 "disk" "m" "p" "1" 3 1 1155 22352 0 0 0
      [.ofFields 7 1 1 128 "" 50 [.ofFields 7 0 0 80 8 6 0 ""
        [USBEndpoint.setInterval ⟨true, 129, 2, 0, 64, 0⟩ 4]]]).Serialises := by
  have he : USBEndpoint.Populated ⟨true, 129, 2, 0, 64, 0⟩ :=
    .ofJson (j := .object [("address", .number_unsigned 129), ("attributes", .number_unsigned 2),
      ("interval", .number_unsigned 0), ("maxPacketSize", .number_unsigned 64),
      ("interfaceId", .number_unsigned 0)]) rfl
  apply USBDevice.not_serialises
  refine .ofFields _ _ _ _ _ _ _ _ _ _ _ _ (List.forall_mem_singleton.2 ?_)
  refine .ofFields _ _ _ _ _ _ (List.forall_mem_singleton.2 ?_)
  refine .ofFields _ _ _ _ _ _ _ _ (List.forall_mem_singleton.2 ?_)
  exact he.set (.setInterval _ _)

/-- A device built from values, without configurations, is not serialised. -/
theorem USBDevice.not_serialises_populated :
    (USBDevice.ofFields 7 "disk" "m" "p" "1" 3 1 1155 22352 0 0 0 []).Populated ∧
    ¬ (USBDevice.ofFields 7 "disk" "m" "p" "1" 3 1 1155 22352 0 0 0 []).Serialises := by
  refine ⟨.ofFields _ _ _ _ _ _ _ _ _ _ _ _ (by simp), ?_⟩
  intro ⟨j, hj, _⟩
  cases hj

end OhosWrapper.Usb
