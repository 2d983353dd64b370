import OhosWrapper.Lib.Patch
import OhosWrapper.Usb.RoundTrip
import OhosWrapper.Usb.Sharing

/-!
# Documents of trees

Two views of `toJson` for a whole tree.

**What a document tells.** `toJson` writes a getter under each key and the children in an array,
and null for a child whose flag `parsed_` is set. So a document tells the values of these getters
at every level, and nothing else (`same_document_iff`). It does not tell the ids and indices. Nor
does it tell the top bit of `maxPower_`, if the product in `maxPower()` wraps: it is signed, and
where it overflows the source leaves it undefined.

**What a call changes.** A setter replaces the values of the keys its member is written under, and
nothing else in the document. A setter of a child, called through the pointers of the tree, does
the same further down (`toJson_calls`). A program on objects in memory prints the document so
patched. The vectors that its setters get hold objects made for the call, as in `Edit`, so no object
is in a tree twice; one that is, as after `d.setConfigs({c, c})`, would change in both places.
-/

namespace OhosWrapper.Usb

open Nlohmann Json

/-! ## What a document tells -/

/-- Both write nothing, or both write the same values. -/
inductive USBEndpoint.Alike (e e' : USBEndpoint) : Prop
  | silent (parsed : e.parsed_ = true) (parsed' : e'.parsed_ = true)
  | written (parsed : e.parsed_ = false) (parsed' : e'.parsed_ = false) (agrees : e.Agrees e')

/-- Both write nothing, or both write the same values and endpoints that write the same. -/
inductive USBInterface.Alike (i i' : USBInterface) : Prop
  | silent (parsed : i.parsed_ = true) (parsed' : i'.parsed_ = true)
  | written (parsed : i.parsed_ = false) (parsed' : i'.parsed_ = false) (id : i.id = i'.id)
      (protocol : i.protocol = i'.protocol) (clazz : i.clazz = i'.clazz)
      (subClass : i.subClass = i'.subClass)
      (alternateSetting : i.alternateSetting = i'.alternateSetting) (name : i.name = i'.name)
      (endpoints : List.Forall₂ USBEndpoint.Alike i.endpoints i'.endpoints)

/-- The powers are compared as `maxPower()` returns them, with a product that wraps. -/
inductive USBConfig.Alike (c c' : USBConfig) : Prop
  | silent (parsed : c.parsed_ = true) (parsed' : c'.parsed_ = true)
  | written (parsed : c.parsed_ = false) (parsed' : c'.parsed_ = false) (id : c.id = c'.id)
      (attributes : c.attributes = c'.attributes) (maxPower : c.maxPower = c'.maxPower)
      (name : c.name = c'.name)
      (interfaces : List.Forall₂ USBInterface.Alike c.interfaces c'.interfaces)

inductive USBDevice.Alike (d d' : USBDevice) : Prop
  | silent (parsed : d.parsed_ = true) (parsed' : d'.parsed_ = true)
  | written (parsed : d.parsed_ = false) (parsed' : d'.parsed_ = false) (name : d.name = d'.name)
      (mSerial : d.mSerial = d'.mSerial)
      (manufacturerName : d.manufacturerName = d'.manufacturerName)
      (productName : d.productName = d'.productName) (version : d.version = d'.version)
      (vendorId : d.vendorId = d'.vendorId) (productId : d.productId = d'.productId)
      (clazz : d.clazz = d'.clazz) (subClass : d.subClass = d'.subClass)
      (protocol : d.protocol = d'.protocol) (devAddr : d.devAddr = d'.devAddr)
      (busNum : d.busNum = d'.busNum)
      (configs : List.Forall₂ USBConfig.Alike d.configs d'.configs)

namespace Serializable

variable {parsed_ parsed_' : Bool} {fields fields' : List (String × Json)}

theorem toJson_eq_iff {j j' : Json} : toJson parsed_ j = toJson parsed_' j' ↔
    (parsed_ = true ∧ parsed_' = true) ∨ (parsed_ = false ∧ parsed_' = false ∧ j = j') := by
  cases parsed_ <;> cases parsed_' <;> simp [toJson]

/-- Null is not a document of an object. -/
theorem ofOption_toJson_eq_iff :
    Json.ofOption (toJson parsed_ (.object fields)) =
        .ofOption (toJson parsed_' (.object fields')) ↔
      toJson parsed_ (.object fields) = toJson parsed_' (.object fields') := by
  cases parsed_ <;> cases parsed_' <;> simp [toJson, Json.ofOption]

end Serializable

/-- The arrays of the children are equal when the children write the same, one by one. -/
theorem children_eq_iff {α : Type} {toJson : α → Option Json} {R : α → α → Prop}
    (h : ∀ x x', Json.ofOption (toJson x) = Json.ofOption (toJson x') ↔ R x x') {xs xs' : List α} :
    (xs.map fun x => Json.ofOption (toJson x)) = (xs'.map fun x => Json.ofOption (toJson x)) ↔
      List.Forall₂ R xs xs' := by
  rw [← List.forall₂_eq_eq_eq, List.forall₂_map_left_iff, List.forall₂_map_right_iff]
  simp only [h]

/-- A document with an array at its end. -/
theorem object_eq_iff {fields fields' : List (String × Json)} {key : String}
    {elems elems' : List Json} (h : fields.length = fields'.length) :
    Json.object (fields ++ arrayField key elems) = .object (fields' ++ arrayField key elems') ↔
      fields = fields' ∧ elems = elems' := by
  rw [Json.object.injEq]
  refine ⟨fun heq => ?_, fun heq => by rw [heq.1, heq.2]⟩
  obtain ⟨hfields, harray⟩ := List.append_inj heq h
  exact ⟨hfields, arrayField_inj.1 harray⟩

theorem USBEndpoint.document_eq_iff {e e' : USBEndpoint} :
    e.document = e'.document ↔ e.Agrees e' := by
  refine ⟨fun h => ?_, fun h => ?_⟩
  · simp only [USBEndpoint.document, Json.object.injEq, List.cons.injEq, Prod.mk.injEq, true_and,
      and_true, ofUInt32_inj, ofInt32_inj, ofUInt8_inj, ofInt8_inj] at h
    obtain ⟨haddress, hattributes, hinterval, hsize, -, -, -, hid⟩ := h
    exact ⟨haddress, hattributes, hinterval, hsize, hid⟩
  · obtain ⟨haddress, hattributes, hinterval, hsize, hid⟩ := h
    -- The direction, the number and the type are computed from the address and the attributes.
    have hdirection : e.direction = e'.direction := congrArg (· &&& USB_ENDPOINT_DIR_MASK) haddress
    have hnumber : e.number = e'.number :=
      congrArg (fun a => (a &&& USB_ENDPOINT_NUMBER_MASK).toUInt8) haddress
    have htype : e.type = e'.type := congrArg (· &&& USB_ENDPOINT_XFERTYPE_MASK) hattributes
    rw [USBEndpoint.document, USBEndpoint.document, haddress, hattributes, hinterval, hsize, hid,
      hdirection, hnumber, htype]

theorem USBEndpoint.toJson_eq_iff {e e' : USBEndpoint} : e.toJson = e'.toJson ↔ e.Alike e' := by
  rw [USBEndpoint.toJson, USBEndpoint.toJson, Serializable.toJson_eq_iff, document_eq_iff]
  refine ⟨fun h => ?_, fun h => ?_⟩
  · rcases h with ⟨hp, hp'⟩ | ⟨hp, hp', hagrees⟩
    · exact .silent hp hp'
    · exact .written hp hp' hagrees
  · cases h with
    | silent hp hp' => exact Or.inl ⟨hp, hp'⟩
    | written hp hp' hagrees => exact Or.inr ⟨hp, hp', hagrees⟩

theorem USBInterface.toJson_eq_iff {i i' : USBInterface} : i.toJson = i'.toJson ↔ i.Alike i' := by
  have hchildren : (i.endpoints_.map fun e => Json.ofOption e.toJson) =
      (i'.endpoints_.map fun e => Json.ofOption e.toJson) ↔
        List.Forall₂ USBEndpoint.Alike i.endpoints i'.endpoints :=
    children_eq_iff fun e e' => Serializable.ofOption_toJson_eq_iff.trans USBEndpoint.toJson_eq_iff
  have hdocument : i.document = i'.document ↔ i.fields = i'.fields ∧
      List.Forall₂ USBEndpoint.Alike i.endpoints i'.endpoints := by
    rw [← hchildren]
    exact object_eq_iff (by simp [USBInterface.fields])
  rw [USBInterface.toJson, USBInterface.toJson, Serializable.toJson_eq_iff, hdocument]
  refine ⟨fun h => ?_, fun h => ?_⟩
  · rcases h with ⟨hp, hp'⟩ | ⟨hp, hp', hfields, hendpoints⟩
    · exact .silent hp hp'
    · simp only [USBInterface.fields, List.cons.injEq, Prod.mk.injEq, true_and, and_true,
        ofInt32_inj, Json.string.injEq] at hfields
      obtain ⟨hid, hprotocol, hclazz, hsubClass, halternate, hname⟩ := hfields
      exact .written hp hp' hid hprotocol hclazz hsubClass halternate hname hendpoints
  · cases h with
    | silent hp hp' => exact Or.inl ⟨hp, hp'⟩
    | written hp hp' hid hprotocol hclazz hsubClass halternate hname hendpoints =>
      refine Or.inr ⟨hp, hp', ?_, hendpoints⟩
      rw [USBInterface.fields, USBInterface.fields, hid, hprotocol, hclazz, hsubClass, halternate,
        hname]

theorem USBConfig.toJson_eq_iff {c c' : USBConfig} : c.toJson = c'.toJson ↔ c.Alike c' := by
  have hchildren : (c.interfaces_.map fun i => Json.ofOption i.toJson) =
      (c'.interfaces_.map fun i => Json.ofOption i.toJson) ↔
        List.Forall₂ USBInterface.Alike c.interfaces c'.interfaces :=
    children_eq_iff fun i i' => Serializable.ofOption_toJson_eq_iff.trans USBInterface.toJson_eq_iff
  have hdocument : c.document = c'.document ↔ c.fields = c'.fields ∧
      List.Forall₂ USBInterface.Alike c.interfaces c'.interfaces := by
    rw [← hchildren]
    exact object_eq_iff (by simp [USBConfig.fields])
  rw [USBConfig.toJson, USBConfig.toJson, Serializable.toJson_eq_iff, hdocument]
  refine ⟨fun h => ?_, fun h => ?_⟩
  · rcases h with ⟨hp, hp'⟩ | ⟨hp, hp', hfields, hinterfaces⟩
    · exact .silent hp hp'
    · simp only [USBConfig.fields, List.cons.injEq, Prod.mk.injEq, true_and, and_true,
        ofInt32_inj, ofUInt32_inj, Json.string.injEq] at hfields
      obtain ⟨hid, hattributes, -, -, hmaxPower, hname⟩ := hfields
      exact .written hp hp' hid hattributes hmaxPower hname hinterfaces
  · cases h with
    | silent hp hp' => exact Or.inl ⟨hp, hp'⟩
    | written hp hp' hid hattributes hmaxPower hname hinterfaces =>
      refine Or.inr ⟨hp, hp', ?_, hinterfaces⟩
      have hwakeup : c.isRemoteWakeup = c'.isRemoteWakeup :=
        congrArg (fun a => a &&& USB_CFG_REMOTE_WAKEUP != 0) hattributes
      have hpowered : c.isSelfPowered = c'.isSelfPowered :=
        congrArg (fun a => a &&& USB_CFG_SELF_POWERED != 0) hattributes
      rw [USBConfig.fields, USBConfig.fields, hid, hattributes, hwakeup, hpowered, hmaxPower, hname]

theorem USBDevice.toJson_eq_iff {d d' : USBDevice} : d.toJson = d'.toJson ↔ d.Alike d' := by
  have hchildren : (d.configs_.map fun c => Json.ofOption c.toJson) =
      (d'.configs_.map fun c => Json.ofOption c.toJson) ↔
        List.Forall₂ USBConfig.Alike d.configs d'.configs :=
    children_eq_iff fun c c' => Serializable.ofOption_toJson_eq_iff.trans USBConfig.toJson_eq_iff
  have hdocument : d.document = d'.document ↔ d.fields = d'.fields ∧
      List.Forall₂ USBConfig.Alike d.configs d'.configs := by
    rw [← hchildren]
    exact object_eq_iff (by simp [USBDevice.fields])
  rw [USBDevice.toJson, USBDevice.toJson, Serializable.toJson_eq_iff, hdocument]
  refine ⟨fun h => ?_, fun h => ?_⟩
  · rcases h with ⟨hp, hp'⟩ | ⟨hp, hp', hfields, hconfigs⟩
    · exact .silent hp hp'
    · simp only [USBDevice.fields, List.cons.injEq, Prod.mk.injEq, true_and, and_true,
        ofInt32_inj, ofUInt8_inj, Json.string.injEq] at hfields
      obtain ⟨hname, hserial, hmanufacturer, hproduct, hversion, hvendor, hproductId, hclazz,
        hsubClass, hprotocol, haddr, hbus⟩ := hfields
      exact .written hp hp' hname hserial hmanufacturer hproduct hversion hvendor hproductId hclazz
        hsubClass hprotocol haddr hbus hconfigs
  · cases h with
    | silent hp hp' => exact Or.inl ⟨hp, hp'⟩
    | written hp hp' hname hserial hmanufacturer hproduct hversion hvendor hproductId hclazz
        hsubClass hprotocol haddr hbus hconfigs =>
      refine Or.inr ⟨hp, hp', ?_, hconfigs⟩
      rw [USBDevice.fields, USBDevice.fields, hname, hserial, hmanufacturer, hproduct, hversion,
        hvendor, hproductId, hclazz, hsubClass, hprotocol, haddr, hbus]

/-! ### Trees serialised in full -/

theorem forall₂_congr_of_mem {α : Type} {R S : α → α → Prop} {xs ys : List α}
    (h : ∀ x ∈ xs, ∀ y ∈ ys, (R x y ↔ S x y)) : List.Forall₂ R xs ys ↔ List.Forall₂ S xs ys := by
  induction xs generalizing ys with
  | nil => rw [List.forall₂_nil_left_iff, List.forall₂_nil_left_iff]
  | cons x xs ih =>
    cases ys with
    | nil => simp
    | cons y ys =>
      rw [List.forall₂_cons, List.forall₂_cons, h x List.mem_cons_self y List.mem_cons_self,
        ih fun x' hx' y' hy' => h x' (List.mem_cons_of_mem _ hx') y' (List.mem_cons_of_mem _ hy')]

theorem USBEndpoint.alike_iff_agrees {e e' : USBEndpoint} (h : e.toJson.isSome)
    (h' : e'.toJson.isSome) : e.Alike e' ↔ e.Agrees e' := by
  have hp := Serializable.isSome_toJson.1 h
  have hp' := Serializable.isSome_toJson.1 h'
  refine ⟨fun halike => ?_, .written hp hp'⟩
  cases halike with
  | silent parsed _ => rw [hp] at parsed; cases parsed
  | written _ _ hagrees => exact hagrees

theorem USBInterface.alike_iff_agrees {i i' : USBInterface} (h : i.Encodes) (h' : i'.Encodes) :
    i.Alike i' ↔ i.Agrees i' := by
  have hp := Serializable.isSome_toJson.1 h.1
  have hp' := Serializable.isSome_toJson.1 h'.1
  have hchildren : List.Forall₂ USBEndpoint.Alike i.endpoints i'.endpoints ↔
      List.Forall₂ USBEndpoint.Agrees i.endpoints i'.endpoints :=
    forall₂_congr_of_mem fun e he e' he' => USBEndpoint.alike_iff_agrees (h.2 e he) (h'.2 e' he')
  refine ⟨fun halike => ?_, fun hagrees => ?_⟩
  · cases halike with
    | silent parsed _ => rw [hp] at parsed; cases parsed
    | written _ _ hid hprotocol hclazz hsubClass halternate hname hendpoints =>
      exact ⟨hid, hprotocol, hclazz, hsubClass, halternate, hname, hchildren.1 hendpoints⟩
  · obtain ⟨hid, hprotocol, hclazz, hsubClass, halternate, hname, hendpoints⟩ := hagrees
    exact .written hp hp' hid hprotocol hclazz hsubClass halternate hname (hchildren.2 hendpoints)

theorem USBConfig.alike_iff_agrees {c c' : USBConfig} (h : c.Encodes) (h' : c'.Encodes) :
    c.Alike c' ↔ c.Agrees c' := by
  have hp := Serializable.isSome_toJson.1 h.1
  have hp' := Serializable.isSome_toJson.1 h'.1
  have hchildren : List.Forall₂ USBInterface.Alike c.interfaces c'.interfaces ↔
      List.Forall₂ USBInterface.Agrees c.interfaces c'.interfaces :=
    forall₂_congr_of_mem fun i hi i' hi' => USBInterface.alike_iff_agrees (h.2 i hi) (h'.2 i' hi')
  refine ⟨fun halike => ?_, fun hagrees => ?_⟩
  · cases halike with
    | silent parsed _ => rw [hp] at parsed; cases parsed
    | written _ _ hid hattributes hmaxPower hname hinterfaces =>
      exact ⟨hid, hattributes, hmaxPower, hname, hchildren.1 hinterfaces⟩
  · obtain ⟨hid, hattributes, hmaxPower, hname, hinterfaces⟩ := hagrees
    exact .written hp hp' hid hattributes hmaxPower hname (hchildren.2 hinterfaces)

theorem USBDevice.alike_iff_agrees {d d' : USBDevice} (h : d.Encodes) (h' : d'.Encodes) :
    d.Alike d' ↔ d.Agrees d' := by
  have hp := Serializable.isSome_toJson.1 h.1
  have hp' := Serializable.isSome_toJson.1 h'.1
  have hchildren : List.Forall₂ USBConfig.Alike d.configs d'.configs ↔
      List.Forall₂ USBConfig.Agrees d.configs d'.configs :=
    forall₂_congr_of_mem fun c hc c' hc' => USBConfig.alike_iff_agrees (h.2 c hc) (h'.2 c' hc')
  refine ⟨fun halike => ?_, fun hagrees => ?_⟩
  · cases halike with
    | silent parsed _ => rw [hp] at parsed; cases parsed
    | written _ _ hname hserial hmanufacturer hproduct hversion hvendor hproductId hclazz hsubClass
        hprotocol haddr hbus hconfigs =>
      exact ⟨hname, hserial, hmanufacturer, hproduct, hversion, hvendor, hproductId, hclazz,
        hsubClass, hprotocol, haddr, hbus, hchildren.1 hconfigs⟩
  · obtain ⟨hname, hserial, hmanufacturer, hproduct, hversion, hvendor, hproductId, hclazz,
      hsubClass, hprotocol, haddr, hbus, hconfigs⟩ := hagrees
    exact .written hp hp' hname hserial hmanufacturer hproduct hversion hvendor hproductId hclazz
      hsubClass hprotocol haddr hbus (hchildren.2 hconfigs)

/-- **What a document tells.** Two devices write the same document exactly when their trees are
alike; if both are serialised in full, exactly when their getters agree at every level. -/
theorem same_document_iff (d d' : USBDevice) : (d.toJson = d'.toJson ↔ d.Alike d') ∧
    (d.Encodes → d'.Encodes → (d.toJson = d'.toJson ↔ d.Agrees d')) :=
  ⟨USBDevice.toJson_eq_iff, fun h h' =>
    USBDevice.toJson_eq_iff.trans (USBDevice.alike_iff_agrees h h')⟩

/-! ## What a call changes -/

/-- The values a setter leaves under the keys of the document. -/
def USBEndpoint.Setter.writes : Setter → List (String × Json)
  | setAddr val => [("address", .ofUInt32 val),
      ("direction", .ofUInt32 (val &&& USB_ENDPOINT_DIR_MASK)),
      ("number", .ofUInt8 (val &&& USB_ENDPOINT_NUMBER_MASK).toUInt8)]
  | setAttr val => [("attributes", .ofUInt32 val),
      ("type", .ofUInt32 (val &&& USB_ENDPOINT_XFERTYPE_MASK))]
  | setInterval val => [("interval", .ofInt32 val)]
  | setMaxPacketSize val => [("maxPacketSize", .ofInt32 val)]
  | setInterfaceId interfaceId => [("interfaceId", .ofInt8 interfaceId.toInt8)]

def USBInterface.Setter.writes : Setter → List (String × Json)
  | setId id => [("id", .ofInt32 id)]
  | setProtocol protocol => [("protocol", .ofInt32 protocol)]
  | setClazz clazz => [("clazz", .ofInt32 clazz)]
  | setSubClass subClass => [("subClass", .ofInt32 subClass)]
  | setAlternatesetting alternatesetting => [("alterateSetting", .ofInt32 alternatesetting)]
  | setName name => [("name", .string name)]
  | setiInterface _ => []

def USBConfig.Setter.writes : Setter → List (String × Json)
  | setId id => [("id", .ofInt32 id)]
  | setAttribute attributes => [("attributes", .ofUInt32 attributes),
      ("isRemoteWakeup", .boolean (attributes &&& USB_CFG_REMOTE_WAKEUP != 0)),
      ("isSelfPowered", .boolean (attributes &&& USB_CFG_SELF_POWERED != 0))]
  | setMaxPower maxPower => [("maxPower", .ofInt32 (maxPower * 2))]
  | setName name => [("name", .string name)]
  | setiConfiguration _ => []

def USBDevice.Setter.writes : Setter → List (String × Json)
  | setDevAddr addr => [("devAddress", .ofUInt8 addr)]
  | setBusNum num => [("busNum", .ofUInt8 num)]
  | setName name => [("name", .string name)]
  | setManufacturerName manufacturerName => [("manufacturerName", .string manufacturerName)]
  | setProductName productName => [("productName", .string productName)]
  | setVersion version => [("version", .string version)]
  | setVendorId vendorId => [("vendorId", .ofInt32 vendorId)]
  | setProductId productId => [("productId", .ofInt32 productId)]
  | setClazz deviceClass => [("clazz", .ofInt32 deviceClass)]
  | setSubclass subClass => [("subClass", .ofInt32 subClass)]
  | setProtocol protocol => [("protocol", .ofInt32 protocol)]
  | setmSerial serial => [("serial", .string serial)]
  | setDescConfigCount _ | setiManufacturer _ | setiProduct _ | setiSerialNumber _
  | setbMaxPacketSize0 _ | setbcdUSB _ | setbcdDevice _ => []

theorem USBEndpoint.Setter.document_apply (s : Setter) (e : USBEndpoint) :
    (s.apply e).document = e.document.assign s.writes := by
  cases s <;> rfl

theorem USBInterface.Setter.fields_apply (s : Setter) (i : USBInterface) :
    (s.apply i).fields = assignFields s.writes i.fields := by
  cases s <;> rfl

theorem USBConfig.Setter.fields_apply (s : Setter) (c : USBConfig) :
    (s.apply c).fields = assignFields s.writes c.fields := by
  cases s <;> rfl

theorem USBDevice.Setter.fields_apply (s : Setter) (d : USBDevice) :
    (s.apply d).fields = assignFields s.writes d.fields := by
  cases s <;> rfl

/-! ### One object -/

theorem Serializable.toJson_map (parsed_ : Bool) (f : Json → Json) (j : Json) :
    toJson parsed_ (f j) = (toJson parsed_ j).map f := by
  cases parsed_ <;> rfl

theorem USBEndpoint.Setter.toJson_apply (s : Setter) (e : USBEndpoint) :
    (s.apply e).toJson = e.toJson.map (assign s.writes) := by
  rw [USBEndpoint.toJson, (s.set_apply e).parsed, s.document_apply, Serializable.toJson_map]
  rfl

theorem USBInterface.Setter.toJson_apply (s : Setter) (i : USBInterface) :
    (s.apply i).toJson = i.toJson.map (assign s.writes) := by
  have hchildren : (s.apply i).endpoints_ = i.endpoints_ := by cases s <;> rfl
  have hkey : s.writes.lookup "endpoints" = none := by cases s <;> rfl
  have hdocument : (s.apply i).document = i.document.assign s.writes := by
    rw [USBInterface.document, s.fields_apply, hchildren, USBInterface.document, assign,
      assignFields_append, assignFields_arrayField hkey]
  rw [USBInterface.toJson, (s.set_apply i).parsed, hdocument, Serializable.toJson_map]
  rfl

theorem USBConfig.Setter.toJson_apply (s : Setter) (c : USBConfig) :
    (s.apply c).toJson = c.toJson.map (assign s.writes) := by
  have hchildren : (s.apply c).interfaces_ = c.interfaces_ := by cases s <;> rfl
  have hkey : s.writes.lookup "interfaces" = none := by cases s <;> rfl
  have hdocument : (s.apply c).document = c.document.assign s.writes := by
    rw [USBConfig.document, s.fields_apply, hchildren, USBConfig.document, assign,
      assignFields_append, assignFields_arrayField hkey]
  rw [USBConfig.toJson, (s.set_apply c).parsed, hdocument, Serializable.toJson_map]
  rfl

theorem USBDevice.Setter.toJson_apply (s : Setter) (d : USBDevice) :
    (s.apply d).toJson = d.toJson.map (assign s.writes) := by
  have hchildren : (s.apply d).configs_ = d.configs_ := by cases s <;> rfl
  have hkey : s.writes.lookup "configs" = none := by cases s <;> rfl
  have hdocument : (s.apply d).document = d.document.assign s.writes := by
    rw [USBDevice.document, s.fields_apply, hchildren, USBDevice.document, assign,
      assignFields_append, assignFields_arrayField hkey]
  rw [USBDevice.toJson, (s.set_apply d).parsed, hdocument, Serializable.toJson_map]
  rfl

/-- The last call for each key decides. -/
theorem USBDevice.toJson_setters (ss : List USBDevice.Setter) (d : USBDevice) :
    (ss.foldl (fun d s => s.apply d) d).toJson =
      d.toJson.map (assign (ss.reverse.flatMap Setter.writes)) := by
  induction ss generalizing d with
  | nil =>
    cases h : d.toJson with
    | none => simp [h]
    | some j =>
      obtain ⟨-, rfl⟩ := Serializable.toJson_eq_some.1 h
      simp [h, document, assign, assignFields]
  | cons s ss ih =>
    rw [List.foldl_cons, ih, s.toJson_apply, Option.map_map, List.reverse_cons, List.flatMap_append,
      List.flatMap_singleton]
    congr 1
    funext j
    exact assign_assign _ _ j

/-! ### Children -/

/-- The documents of the children. -/
def documents {α : Type} (toJson : α → Option Json) (xs : List α) : List Json :=
  xs.map fun x => .ofOption (toJson x)

/-- One child is replaced by a child whose document is patched. -/
theorem documents_set {α : Type} {toJson : α → Option Json} {f : Json → Json}
    (hnull : f .null = .null) {xs : List α} {i : ℕ} {x x' : α} (hx : xs[i]? = some x)
    (h : toJson x' = (toJson x).map f) :
    documents toJson (xs.set i x') = (documents toJson xs).modify i f := by
  have hdocument : Json.ofOption (toJson x') = f (.ofOption (toJson x)) := by
    rw [h]
    cases toJson x with
    | none => exact hnull.symm
    | some j => rfl
  apply List.ext_getElem?
  intro j
  rw [documents, List.getElem?_map, List.getElem?_modify, documents, List.getElem?_map]
  by_cases hij : i = j
  · subst hij
    have hlt : i < xs.length := (List.getElem?_eq_some_iff.1 hx).1
    simp [List.getElem?_set_self hlt, hx, hdocument]
  · simp [List.getElem?_set_ne hij, hij]

theorem exists_of_map {α β : Type} {f : α → β} {x : Except Fault α} {b : β}
    (h : x.map f = .ok b) : ∃ a, x = .ok a ∧ f a = b := by
  cases x with
  | error e => cases h
  | ok a => exact ⟨a, rfl, Except.ok.inj h⟩

theorem exists_of_atIndex {α : Type} {fault : Fault} {xs ys : List α} {i : ℕ}
    {f : α → Except Fault α} (h : atIndex fault xs i f = .ok ys) :
    ∃ x x', xs[i]? = some x ∧ f x = .ok x' ∧ ys = xs.set i x' := by
  cases hx : xs[i]? with
  | none => rw [atIndex_none hx] at h; cases h
  | some x =>
    rw [atIndex_some hx] at h
    obtain ⟨x', hx', rfl⟩ := exists_of_map h
    exact ⟨x, x', rfl, hx', rfl⟩

theorem documents_atIndex {α : Type} {toJson : α → Option Json} {p : Json → Json}
    (hnull : p .null = .null) {fault : Fault} {xs ys : List α} {i : ℕ} {f : α → Except Fault α}
    (hf : ∀ x x', f x = .ok x' → toJson x' = (toJson x).map p)
    (h : atIndex fault xs i f = .ok ys) :
    documents toJson ys = (documents toJson xs).modify i p := by
  obtain ⟨x, x', hx, hx', rfl⟩ := exists_of_atIndex h
  exact documents_set hnull hx (hf x x' hx')

section

variable {parsed_ : Bool} {fields : List (String × Json)} {key : String} {elems elems' : List Json}

/-- A document whose array is patched. -/
theorem Serializable.toJson_modifyItem (hkey : fields.lookup key = none) {i : ℕ} {p : Json → Json}
    (h : elems' = elems.modify i p) :
    toJson parsed_ (.object (fields ++ arrayField key elems')) =
      (toJson parsed_ (.object (fields ++ arrayField key elems))).map (modifyItem key i p) := by
  rw [h, ← modifyItem_arrayField hkey, toJson_map]

theorem Serializable.toJson_putArray (h : fields.lookup key = none) :
    toJson parsed_ (.object (fields ++ arrayField key elems')) =
      (toJson parsed_ (.object (fields ++ arrayField key elems))).map (putArray key elems') := by
  rw [← putArray_arrayField h elems', toJson_map]

end

theorem USBInterface.toJson_setEndpoints (i : USBInterface) (es : List USBEndpoint) :
    (i.setEndpoints es).toJson =
      i.toJson.map (putArray "endpoints" (documents USBEndpoint.toJson es)) :=
  Serializable.toJson_putArray rfl

theorem USBConfig.toJson_setInterfaces (c : USBConfig) (is : List USBInterface) :
    (c.setInterfaces is).toJson =
      c.toJson.map (putArray "interfaces" (documents USBInterface.toJson is)) :=
  Serializable.toJson_putArray rfl

theorem USBDevice.toJson_setConfigs (d : USBDevice) (cs : List USBConfig) :
    (d.setConfigs cs).toJson = d.toJson.map (putArray "configs" (documents USBConfig.toJson cs)) :=
  Serializable.toJson_putArray rfl

section

variable {p : Json → Json} (hnull : p .null = .null)

include hnull

theorem USBInterface.toJson_atEndpoint {i i' : USBInterface} {k : ℕ}
    {f : USBEndpoint → Except Fault USBEndpoint}
    (hf : ∀ e e', f e = .ok e' → e'.toJson = e.toJson.map p) (h : atEndpoint i k f = .ok i') :
    i'.toJson = i.toJson.map (modifyItem "endpoints" k p) := by
  obtain ⟨es, hes, rfl⟩ := exists_of_map h
  exact Serializable.toJson_modifyItem rfl (documents_atIndex hnull hf hes)

theorem USBConfig.toJson_atInterface {c c' : USBConfig} {j : ℕ}
    {f : USBInterface → Except Fault USBInterface}
    (hf : ∀ i i', f i = .ok i' → i'.toJson = i.toJson.map p) (h : atInterface c j f = .ok c') :
    c'.toJson = c.toJson.map (modifyItem "interfaces" j p) := by
  obtain ⟨is, his, rfl⟩ := exists_of_map h
  exact Serializable.toJson_modifyItem rfl (documents_atIndex hnull hf his)

theorem USBDevice.toJson_atConfig {d : USBDevice} {cs : List USBConfig} {i : ℕ}
    {f : USBConfig → Except Fault USBConfig}
    (hf : ∀ c c', f c = .ok c' → c'.toJson = c.toJson.map p)
    (h : atConfig d.configs_ i f = .ok cs) :
    (d.setConfigs cs).toJson = d.toJson.map (modifyItem "configs" i p) :=
  Serializable.toJson_modifyItem rfl (documents_atIndex hnull hf h)

end

/-! ### Calls -/

/-- A call of a setter on a device, or on what its pointers lead to. The vectors hold objects made
for the call, so no object is in the tree twice. -/
inductive TreeCall
  | set (s : USBDevice.Setter)
  | setConfigs (cs : List USBConfig)
  | edit (e : Edit)

def TreeCall.apply (d : USBDevice) : TreeCall → Except Fault USBDevice
  | .set s => .ok (s.apply d)
  | .setConfigs cs => .ok (d.setConfigs cs)
  | .edit e => (e.apply d.configs_).map d.setConfigs

def Edit.patch : Edit → Json → Json
  | .config i s => modifyItem "configs" i (assign s.writes)
  | .setInterfaces i is =>
    modifyItem "configs" i (putArray "interfaces" (documents USBInterface.toJson is))
  | .interface i j s => modifyItem "configs" i (modifyItem "interfaces" j (assign s.writes))
  | .setEndpoints i j es => modifyItem "configs" i (modifyItem "interfaces" j
      (putArray "endpoints" (documents USBEndpoint.toJson es)))
  | .endpoint i j k s => modifyItem "configs" i (modifyItem "interfaces" j
      (modifyItem "endpoints" k (assign s.writes)))

/-- What the call does to the document. -/
def TreeCall.patch : TreeCall → Json → Json
  | .set s => assign s.writes
  | .setConfigs cs => putArray "configs" (documents USBConfig.toJson cs)
  | .edit e => e.patch

/-- A call on a child patches its part of the document. -/
theorem Edit.toJson_apply {d : USBDevice} {cs : List USBConfig} (e : Edit)
    (h : e.apply d.configs_ = .ok cs) : (d.setConfigs cs).toJson = d.toJson.map e.patch := by
  cases e with
  | config i s =>
    refine USBDevice.toJson_atConfig rfl (fun c c' hc => ?_) h
    obtain rfl := Except.ok.inj hc
    exact s.toJson_apply c
  | setInterfaces i is =>
    refine USBDevice.toJson_atConfig rfl (fun c c' hc => ?_) h
    obtain rfl := Except.ok.inj hc
    exact c.toJson_setInterfaces is
  | interface i j s =>
    refine USBDevice.toJson_atConfig rfl (fun c c' hc => ?_) h
    refine USBConfig.toJson_atInterface rfl (fun f f' hf => ?_) hc
    obtain rfl := Except.ok.inj hf
    exact s.toJson_apply f
  | setEndpoints i j es =>
    refine USBDevice.toJson_atConfig rfl (fun c c' hc => ?_) h
    refine USBConfig.toJson_atInterface rfl (fun f f' hf => ?_) hc
    obtain rfl := Except.ok.inj hf
    exact f.toJson_setEndpoints es
  | endpoint i j k s =>
    refine USBDevice.toJson_atConfig rfl (fun c c' hc => ?_) h
    refine USBConfig.toJson_atInterface rfl (fun f f' hf => ?_) hc
    refine USBInterface.toJson_atEndpoint rfl (fun e e' he => ?_) hf
    obtain rfl := Except.ok.inj he
    exact s.toJson_apply e

theorem TreeCall.toJson_apply {d d' : USBDevice} (call : TreeCall) (h : call.apply d = .ok d') :
    d'.toJson = d.toJson.map call.patch := by
  cases call with
  | set s =>
    obtain rfl := Except.ok.inj h
    exact s.toJson_apply d
  | setConfigs cs =>
    obtain rfl := Except.ok.inj h
    exact d.toJson_setConfigs cs
  | edit e =>
    obtain ⟨cs, hcs, rfl⟩ := exists_of_map h
    exact e.toJson_apply hcs

theorem TreeCall.toJson_foldlM {calls : List TreeCall} {d d' : USBDevice}
    (h : calls.foldlM TreeCall.apply d = .ok d') :
    d'.toJson = d.toJson.map fun j => calls.foldl (fun j call => call.patch j) j := by
  induction calls generalizing d with
  | nil =>
    obtain rfl := Except.ok.inj h
    exact Option.map_id'.symm
  | cons call calls ih =>
    rw [List.foldlM_cons] at h
    cases hcall : call.apply d with
    | error e => rw [hcall] at h; cases h
    | ok d₁ =>
      rw [hcall] at h
      rw [ih h, call.toJson_apply hcall, Option.map_map]
      rfl

/-! ### Calls on objects -/

variable {ι : Type} [DecidableEq ι]

/-- The call on the device in `x`. -/
def TreeCall.op (x : ι) : TreeCall → DeviceOp ι
  | .set s => .set x s
  | .setConfigs cs => .setConfigs x cs
  | .edit e => .edit x e

/-- The variable `x` has the device `d`, with its tree. -/
def HasDevice (s : DeviceWorld ι Trees ℕ) (x : ι) (d : USBDevice) : Prop :=
  ∃ own k, s.locals x = some ⟨own, k⟩ ∧ own.setConfigs (s.memory.tree k) = d

namespace HasDevice

variable {s : DeviceWorld ι Trees ℕ} {x : ι} {d d' : USBDevice}

/-- A device that is made has a tree of its own. -/
theorem construct (s : DeviceWorld ι Trees ℕ) (x : ι) (d : USBDevice) :
    HasDevice (Trees.storage.step s (.construct x d)).1 x d := by
  refine ⟨d.setConfigs [], s.memory.next, Function.update_self .., ?_⟩
  change (d.setConfigs []).setConfigs (Function.update s.memory.tree s.memory.next d.configs_ _) = d
  rw [Function.update_self]
  rfl

/-- A call on the variable is the call on the value, and shows nothing. -/
theorem step (h : HasDevice s x d) {call : TreeCall} (hcall : call.apply d = .ok d') :
    (Trees.storage.step s (call.op x)).2 = [] ∧
      HasDevice (Trees.storage.step s (call.op x)).1 x d' := by
  obtain ⟨own, k, hx, rfl⟩ := h
  cases call with
  | set setter =>
    obtain rfl := Except.ok.inj hcall
    simp only [TreeCall.op, Storage.step, hx]
    exact ⟨trivial, setter.apply own, k, Function.update_self .., (setter.apply_configs own _).symm⟩
  | setConfigs cs =>
    obtain rfl := Except.ok.inj hcall
    simp only [TreeCall.op, Storage.step, hx]
    refine ⟨trivial, own, s.memory.next, Function.update_self .., ?_⟩
    change own.setConfigs (Function.update s.memory.tree s.memory.next cs _) = own.setConfigs cs
    rw [Function.update_self]
  | edit e =>
    obtain ⟨cs, hcs, rfl⟩ := exists_of_map hcall
    have hedit : Trees.storage.edit s.memory k e =
        .ok { s.memory with tree := Function.update s.memory.tree k cs } := by
      change (e.apply (s.memory.tree k)).map _ = _
      rw [show e.apply (s.memory.tree k) = .ok cs from hcs]
      rfl
    rw [TreeCall.op, Storage.step_edit _ hx hedit]
    refine ⟨rfl, own, k, hx, ?_⟩
    change own.setConfigs (Function.update s.memory.tree k cs k) = own.setConfigs cs
    rw [Function.update_self]

theorem run {calls : List TreeCall} (h : HasDevice s x d)
    (hcalls : calls.foldlM TreeCall.apply d = .ok d') :
    Trees.storage.machine.output s (calls.map (TreeCall.op x)) = [] ∧
      HasDevice (Trees.storage.machine.state s (calls.map (TreeCall.op x))) x d' := by
  induction calls generalizing s d with
  | nil =>
    obtain rfl := Except.ok.inj hcalls
    exact ⟨rfl, h⟩
  | cons call calls ih =>
    rw [List.foldlM_cons] at hcalls
    cases hcall : call.apply d with
    | error e => rw [hcall] at hcalls; cases hcalls
    | ok d₁ =>
      rw [hcall] at hcalls
      obtain ⟨hshown, hstep⟩ := h.step hcall
      obtain ⟨hrest, hrun⟩ := ih hstep hcalls
      refine ⟨?_, hrun⟩
      rw [List.map_cons, Storage.output_of_silent _ hshown, hrest]

theorem toJson (h : HasDevice s x d) :
    Trees.storage.machine.output s [.toJson x] = [.document d.toJson] := by
  obtain ⟨own, k, hx, rfl⟩ := h
  rw [Storage.output_of_step _ (Storage.step_toJson _ hx), ← DeviceObject.toJson_map ⟨own, k⟩]
  rfl

end HasDevice

/-- A device that is made, changed by calls that succeed, and written. -/
theorem printed_calls (x : ι) {calls : List TreeCall} {d d' : USBDevice}
    (h : calls.foldlM TreeCall.apply d = .ok d') :
    printed (.construct x d :: calls.map (TreeCall.op x) ++ [.toJson x]) =
      [.document d'.toJson] := by
  obtain ⟨hshown, hrun⟩ := (HasDevice.construct (.new .empty) x d).run h
  rw [printed, (run_related _).2, List.cons_append, Storage.output_of_silent _ rfl,
    Transducer.output_append, hshown, List.nil_append, hrun.toJson]

/-- **Calls are patches.** After any calls of setters on a device and on what its pointers lead to,
the document is the one before them, patched by each of the calls in order. This is what a program
on objects in memory prints, if the vectors in the calls hold objects made for the call. -/
theorem toJson_calls (x : ι) {calls : List TreeCall} {d d' : USBDevice}
    (h : calls.foldlM TreeCall.apply d = .ok d') :
    (d'.toJson = d.toJson.map fun j => calls.foldl (fun j call => call.patch j) j) ∧
      printed (.construct x d :: calls.map (TreeCall.op x) ++ [.toJson x]) =
        [.document d'.toJson] :=
  ⟨TreeCall.toJson_foldlM h, printed_calls x h⟩

/-- The instance at a configuration that is added and then given its power. -/
theorem toJson_calls_powered : ∃ d' : USBDevice, d'.configs.map USBConfig.maxPower = [100] ∧
    (d'.toJson = (USBDevice.ofId 7).toJson.map fun j =>
      modifyItem "configs" 0 (assign [("maxPower", .ofInt32 100)])
        (putArray "configs" (documents USBConfig.toJson [.ofIndex 7 0]) j)) ∧
    printed [.construct 0 (USBDevice.ofId 7), .setConfigs 0 [.ofIndex 7 0],
      .edit 0 (.config 0 (.setMaxPower 50)), .toJson 0] = [.document d'.toJson] := by
  have hcalls : [TreeCall.setConfigs [.ofIndex 7 0], .edit (.config 0 (.setMaxPower 50))].foldlM
      TreeCall.apply (USBDevice.ofId 7) = .ok ((USBDevice.ofId 7).setConfigs
        [(USBConfig.ofIndex 7 0).setMaxPower 50]) := rfl
  exact ⟨_, by decide, toJson_calls 0 hcalls⟩

end OhosWrapper.Usb
