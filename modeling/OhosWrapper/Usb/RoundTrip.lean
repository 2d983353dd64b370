import OhosWrapper.Usb.Encode

/-!
# Reading a tree back

`toJson` and the constructor from a document are inverse to each other for an endpoint, and for
nothing above it.

* The document of an interface is rejected: its alternate setting is under another key.
* The document of a configuration gives back the same configuration only if there is no interface
  and no power, since `maxPower()` doubles what the constructor stored
  (`USBConfig.reads_back_iff`).
* The document of a device loses the serial number, and is rejected if there is a configuration.

**Theorem (`USBDevice.round_trip_iff`).** A tree that is serialised in full is read back from its
document, with the same getters at every level, if and only if it has no configurations and no
serial number.
-/

namespace OhosWrapper.Usb

open Nlohmann

/-! ## Agreement -/

/-- The getters whose values `toJson` writes agree. -/
structure USBEndpoint.Agrees (e e' : USBEndpoint) : Prop where
  address : e.address = e'.address
  attributes : e.attributes = e'.attributes
  interval : e.interval = e'.interval
  maxPacketSize : e.maxPacketSize = e'.maxPacketSize
  interfaceId : e.InterfaceId = e'.InterfaceId

structure USBInterface.Agrees (i i' : USBInterface) : Prop where
  id : i.id = i'.id
  protocol : i.protocol = i'.protocol
  clazz : i.clazz = i'.clazz
  subClass : i.subClass = i'.subClass
  alternateSetting : i.alternateSetting = i'.alternateSetting
  name : i.name = i'.name
  endpoints : List.Forall₂ USBEndpoint.Agrees i.endpoints i'.endpoints

structure USBConfig.Agrees (c c' : USBConfig) : Prop where
  id : c.id = c'.id
  attributes : c.attributes = c'.attributes
  maxPower : c.maxPower = c'.maxPower
  name : c.name = c'.name
  interfaces : List.Forall₂ USBInterface.Agrees c.interfaces c'.interfaces

structure USBDevice.Agrees (d d' : USBDevice) : Prop where
  name : d.name = d'.name
  mSerial : d.mSerial = d'.mSerial
  manufacturerName : d.manufacturerName = d'.manufacturerName
  productName : d.productName = d'.productName
  version : d.version = d'.version
  vendorId : d.vendorId = d'.vendorId
  productId : d.productId = d'.productId
  clazz : d.clazz = d'.clazz
  subClass : d.subClass = d'.subClass
  protocol : d.protocol = d'.protocol
  devAddr : d.devAddr = d'.devAddr
  busNum : d.busNum = d'.busNum
  configs : List.Forall₂ USBConfig.Agrees d.configs d'.configs

/-! ## Endpoints -/

/-- **Endpoints are read back.** -/
theorem USBEndpoint.reads_back {e : USBEndpoint} {j : Json} (h : e.toJson = some j) :
    ∃ e', USBEndpoint.ofJson j = .ok e' ∧ e'.Agrees e := by
  obtain ⟨-, rfl⟩ := Serializable.toJson_eq_some.1 h
  exact ⟨_, e.ofJson_document, rfl, rfl, rfl, rfl, rfl⟩

/-! ## Configurations -/

/-- **Configurations.** A configuration is read back if and only if it has no interfaces and draws
no power. -/
theorem USBConfig.reads_back_iff {c : USBConfig} (h : c.Encodes) :
    (∃ j c', c.toJson = some j ∧ USBConfig.ofJson c.deviceId c.configIndex j = .ok c' ∧
      c'.Agrees c) ↔ c.interfaces_ = [] ∧ c.maxPower = 0 := by
  obtain ⟨hc, his⟩ := h
  have hunparsed := Serializable.isSome_toJson.1 hc
  refine ⟨?_, ?_⟩
  · intro h
    obtain ⟨j, c', hj, hc', hagrees⟩ := h
    obtain ⟨-, rfl⟩ := Serializable.toJson_eq_some.1 hj
    obtain ⟨_, _, mp, _, is, -, -, hmp, -, hdecoded, rfl⟩ := USBConfig.ofJson_eq_ok.1 hc'
    rw [c.itemsAt_document] at hdecoded
    refine ⟨List.map_eq_nil_iff.1 (Json.eq_nil_of_numbers ?_ hdecoded), ?_⟩
    · exact List.forall_mem_map.2 fun i hi => Serializable.toInt?_toJson (his i hi).1
    · have hmp' : c.document.number? "maxPower" = some c.maxPower.toInt := Json.toInt?_ofInt32 _
      obtain rfl : c.maxPower.toInt = mp := Option.some.inj (hmp'.symm.trans hmp)
      have hdouble : Int32.ofInt c.maxPower.toInt * 2 = c.maxPower := hagrees.maxPower
      rw [Int32.ofInt_toInt] at hdouble
      grind
  · intro h
    obtain ⟨hnil, hpower⟩ := h
    obtain ⟨c', hok, hid, hat, hmp, hnm, his'⟩ : ∃ c', USBConfig.ofJson c.deviceId c.configIndex
        c.document = .ok c' ∧ c'.id = c.id ∧ c'.attributes = c.attributes ∧
        c'.maxPower = c.maxPower * 2 ∧ c'.name = c.name ∧ c'.interfaces = [] := by
      refine ⟨_, USBConfig.ofJson_eq_ok.2 ⟨c.id.toInt, c.attributes.toNat, c.maxPower.toInt,
        c.name, [], Json.toInt?_ofInt32 _, rfl, Json.toInt?_ofInt32 _, rfl, ?_, rfl⟩,
        Int32.ofInt_toInt _, uint32_ofInt_toNat _, ?_, rfl, rfl⟩
      · rw [c.itemsAt_document, hnil]
        exact .nil
      · exact congrArg (· * 2) (Int32.ofInt_toInt c.maxPower)
    refine ⟨_, c', Serializable.toJson_eq_some.2 ⟨hunparsed, rfl⟩, hok, hid, hat, ?_, hnm, ?_⟩
    · rw [hmp, hpower]; rfl
    · rw [his', USBConfig.interfaces, hnil]; exact .nil

/-! ## Devices -/

/-- **Round trip.** A tree that is serialised in full is read back if and only if it has neither
configurations nor a serial number. -/
theorem USBDevice.round_trip_iff {d : USBDevice} (h : d.Encodes) :
    (∃ j d', d.toJson = some j ∧ USBDevice.ofJson d.deviceId j = .ok d' ∧ d'.Agrees d) ↔
      d.configs_ = [] ∧ d.mSerial = "" := by
  obtain ⟨hd, hcs⟩ := h
  have hunparsed := Serializable.isSome_toJson.1 hd
  refine ⟨?_, ?_⟩
  · intro h
    obtain ⟨j, d', hj, hd', hagrees⟩ := h
    obtain ⟨-, rfl⟩ := Serializable.toJson_eq_some.1 hj
    obtain ⟨_, _, _, _, _, _, _, _, _, _, _, cs, -, -, -, -, -, -, -, -, -, -, -, hdecoded, rfl⟩ :=
      USBDevice.ofJson_eq_ok.1 hd'
    rw [d.itemsAt_document] at hdecoded
    refine ⟨List.map_eq_nil_iff.1 (Json.eq_nil_of_numbers ?_ hdecoded), hagrees.mSerial.symm⟩
    exact List.forall_mem_map.2 fun c hc => Serializable.toInt?_toJson (hcs c hc).1
  · intro h
    obtain ⟨hnil, hserial⟩ := h
    have hdecoded : ∃ d', USBDevice.ofJson d.deviceId d.document = .ok d' ∧ d'.Agrees d := by
      refine ⟨_, USBDevice.ofJson_eq_ok.2 ⟨d.name, d.manufacturerName, d.productName, d.version,
        d.devAddr.toNat, d.busNum.toNat, d.vendorId.toInt, d.productId.toInt, d.clazz.toInt,
        d.subClass.toInt, d.protocol.toInt, [], rfl, rfl, rfl, rfl, rfl, rfl, Json.toInt?_ofInt32 _,
        Json.toInt?_ofInt32 _, Json.toInt?_ofInt32 _, Json.toInt?_ofInt32 _, Json.toInt?_ofInt32 _,
        ?_, rfl⟩, rfl, hserial.symm, rfl, rfl, rfl, Int32.ofInt_toInt _, Int32.ofInt_toInt _,
        Int32.ofInt_toInt _, Int32.ofInt_toInt _, Int32.ofInt_toInt _, uint8_ofInt_toNat _,
        uint8_ofInt_toNat _, ?_⟩
      · rw [d.itemsAt_document, hnil]
        exact .nil
      · rw [USBDevice.configs, USBDevice.configs, hnil]
        exact .nil
    obtain ⟨d', hok, hagrees⟩ := hdecoded
    exact ⟨_, d', Serializable.toJson_eq_some.2 ⟨hunparsed, rfl⟩, hok, hagrees⟩

/-- The instance at a device with a name and a bus number, set after construction from its id. -/
theorem USBDevice.round_trip_named : ∃ j d',
    (((USBDevice.ofId 7).setName "disk").setBusNum 1).toJson = some j ∧
    USBDevice.ofJson 7 j = .ok d' ∧ d'.Agrees (((USBDevice.ofId 7).setName "disk").setBusNum 1) :=
  (USBDevice.round_trip_iff ⟨rfl, fun _ hc => absurd hc List.not_mem_nil⟩).2 ⟨rfl, rfl⟩

/-- A serial number is lost, and a configuration without interfaces makes the document one that is
rejected. -/
theorem USBDevice.not_round_trip :
    (∃ j d', ((USBDevice.ofId 7).setmSerial "S1").toJson = some j ∧ USBDevice.ofJson 7 j = .ok d' ∧
      d'.mSerial = "") ∧
    ((USBDevice.ofId 7).setConfigs [.ofIndex 7 0]).Encodes ∧
    ∃ j, ((USBDevice.ofId 7).setConfigs [.ofIndex 7 0]).toJson = some j ∧
      USBDevice.ofJson 7 j = .error .type_error_302 :=
  ⟨⟨_, _, rfl, rfl, rfl⟩,
    ⟨rfl, List.forall_mem_singleton.2 ⟨rfl, fun _ hi => absurd hi List.not_mem_nil⟩⟩, _, rfl, rfl⟩

end OhosWrapper.Usb
