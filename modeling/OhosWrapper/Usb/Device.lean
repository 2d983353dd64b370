import OhosWrapper.Usb.Config

/-!
# Devices

`USBDevice` is the root of the device tree. Besides the fields given by the JSON document it
keeps some of the device descriptor's, which take part in no document.

**Children.** As for the interfaces of a configuration, the constructor from a document makes
each configuration from a device id and the element itself, which converts to an index.

**Keys.** `toJson` writes the serial number under `serial`, which the constructor does not read.

**Identifier.** `busNum-devAddress`, two bytes with three digits each. Devices have the same
identifier exactly when they have the same bus number and device address (`identifier_eq_iff`).
-/

namespace OhosWrapper.Usb

open Nlohmann

def UINT16_MAX : UInt16 := 65535

/-! ## The class -/

structure USBDevice where
  parsed_ : Bool := false
  deviceId_ : UInt64
  configs_ : List USBConfig := []
  name_ : String := ""
  manufacturerName_ : String := ""
  productName_ : String := ""
  version_ : String := ""
  serial_ : String := ""
  devAddr_ : UInt8 := UINT8_MAX
  busNum_ : UInt8 := UINT8_MAX
  descConfigCount_ : UInt8 := UINT8_MAX
  bMaxPacketSize0_ : UInt8 := UINT8_MAX
  bcdUSB_ : UInt16 := UINT16_MAX
  bcdDevice_ : UInt16 := UINT16_MAX
  iManufacturer_ : UInt8 := UINT8_MAX
  iProduct_ : UInt8 := UINT8_MAX
  iSerialNumber_ : UInt8 := UINT8_MAX
  vendorId_ : Int32 := INVALID_USB_INT_VALUE
  productId_ : Int32 := INVALID_USB_INT_VALUE
  clazz_ : Int32 := INVALID_USB_INT_VALUE
  subClass_ : Int32 := INVALID_USB_INT_VALUE
  protocol_ : Int32 := INVALID_USB_INT_VALUE
  deriving DecidableEq, Repr

namespace USBDevice

/-! ## Constructors -/

def ofId (deviceId : UInt64) : USBDevice := { deviceId_ := deviceId }

/-- The field-list constructor. -/
def ofFields (deviceId : UInt64) (name manufacturerName productName version : String)
    (devAddr busNum : UInt8) (vendorId productId clazz subClass protocol : Int32)
    (configs : List USBConfig) : USBDevice :=
  { parsed_ := true
    deviceId_ := deviceId
    name_ := name
    manufacturerName_ := manufacturerName
    productName_ := productName
    version_ := version
    devAddr_ := devAddr
    busNum_ := busNum
    vendorId_ := vendorId
    productId_ := productId
    clazz_ := clazz
    subClass_ := subClass
    protocol_ := protocol
    configs_ := configs }

/-- The constructor from a document. An element under `configs` converts to the index of the
configuration it makes. -/
def ofJson (deviceId : UInt64) (j : Json) : Except JsonError USBDevice := do
  let name_ ← j.readString "name"
  let manufacturerName_ ← j.readString "manufacturerName"
  let productName_ ← j.readString "productName"
  let version_ ← j.readString "version"
  let devAddr_ ← j.readNumber UInt8.ofInt "devAddress"
  let busNum_ ← j.readNumber UInt8.ofInt "busNum"
  let vendorId_ ← j.readNumber Int32.ofInt "vendorId"
  let productId_ ← j.readNumber Int32.ofInt "productId"
  let clazz_ ← j.readNumber Int32.ofInt "clazz"
  let subClass_ ← j.readNumber Int32.ofInt "subClass"
  let protocol_ ← j.readNumber Int32.ofInt "protocol"
  let configs_ ← (← j.readItems "configs").mapM fun config => do
    return USBConfig.ofIndex deviceId (← config.getNumber UInt8.ofInt)
  return { parsed_ := true, deviceId_ := deviceId, name_, manufacturerName_, productName_,
           version_, devAddr_, busNum_, vendorId_, productId_, clazz_, subClass_, protocol_,
           configs_ }

/-! ## Getters -/

def deviceId (d : USBDevice) : UInt64 := d.deviceId_

def configs (d : USBDevice) : List USBConfig := d.configs_

def name (d : USBDevice) : String := d.name_

def manufacturerName (d : USBDevice) : String := d.manufacturerName_

def productName (d : USBDevice) : String := d.productName_

def version (d : USBDevice) : String := d.version_

def vendorId (d : USBDevice) : Int32 := d.vendorId_

def productId (d : USBDevice) : Int32 := d.productId_

def clazz (d : USBDevice) : Int32 := d.clazz_

def subClass (d : USBDevice) : Int32 := d.subClass_

def protocol (d : USBDevice) : Int32 := d.protocol_

def devAddr (d : USBDevice) : UInt8 := d.devAddr_

def busNum (d : USBDevice) : UInt8 := d.busNum_

def descConfigCount (d : USBDevice) : UInt8 := d.descConfigCount_

def iManufacturer (d : USBDevice) : UInt8 := d.iManufacturer_

def iProduct (d : USBDevice) : UInt8 := d.iProduct_

def iSerialNumber (d : USBDevice) : UInt8 := d.iSerialNumber_

def mSerial (d : USBDevice) : String := d.serial_

def bcdUSB (d : USBDevice) : UInt16 := d.bcdUSB_

def bcdDevice (d : USBDevice) : UInt16 := d.bcdDevice_

def bMaxPacketSize0 (d : USBDevice) : UInt8 := d.bMaxPacketSize0_

/-! ## Setters -/

def setConfigs (d : USBDevice) (configs : List USBConfig) : USBDevice :=
  { d with configs_ := configs }

def setDevAddr (d : USBDevice) (addr : UInt8) : USBDevice := { d with devAddr_ := addr }

def setBusNum (d : USBDevice) (num : UInt8) : USBDevice := { d with busNum_ := num }

def setName (d : USBDevice) (name : String) : USBDevice := { d with name_ := name }

def setManufacturerName (d : USBDevice) (manufacturerName : String) : USBDevice :=
  { d with manufacturerName_ := manufacturerName }

def setProductName (d : USBDevice) (productName : String) : USBDevice :=
  { d with productName_ := productName }

def setVersion (d : USBDevice) (version : String) : USBDevice := { d with version_ := version }

def setVendorId (d : USBDevice) (vendorId : Int32) : USBDevice := { d with vendorId_ := vendorId }

def setProductId (d : USBDevice) (productId : Int32) : USBDevice :=
  { d with productId_ := productId }

def setClazz (d : USBDevice) (deviceClass : Int32) : USBDevice := { d with clazz_ := deviceClass }

def setSubclass (d : USBDevice) (subClass : Int32) : USBDevice := { d with subClass_ := subClass }

def setProtocol (d : USBDevice) (protocol : Int32) : USBDevice := { d with protocol_ := protocol }

def setDescConfigCount (d : USBDevice) (count : UInt8) : USBDevice :=
  { d with descConfigCount_ := count }

def setiManufacturer (d : USBDevice) (manufacturer : UInt8) : USBDevice :=
  { d with iManufacturer_ := manufacturer }

def setiProduct (d : USBDevice) (product : UInt8) : USBDevice := { d with iProduct_ := product }

def setiSerialNumber (d : USBDevice) (sn : UInt8) : USBDevice := { d with iSerialNumber_ := sn }

def setmSerial (d : USBDevice) (serial : String) : USBDevice := { d with serial_ := serial }

def setbMaxPacketSize0 (d : USBDevice) (maxSize : UInt8) : USBDevice :=
  { d with bMaxPacketSize0_ := maxSize }

def setbcdUSB (d : USBDevice) (bcdUSB : UInt16) : USBDevice := { d with bcdUSB_ := bcdUSB }

def setbcdDevice (d : USBDevice) (bcdDevice : UInt16) : USBDevice :=
  { d with bcdDevice_ := bcdDevice }

/-! ## The identifier -/

/-- `std::sprintf` with `%03d`, for a value that is not negative. -/
def sprintf03d (v : ℕ) : List Char := (Nat.toDigits 10 v).leftpad 3 '0'

/-- What `std::sprintf` writes with `"%03d-%03d"`. It is shorter than the buffer of `MAX_PATH`
characters. -/
def identifier (d : USBDevice) : String :=
  .ofList (sprintf03d d.busNum.toNat ++ '-' :: sprintf03d d.devAddr.toNat)

theorem length_sprintf03d {v : ℕ} (h : v < 10 ^ 3) : (sprintf03d v).length = 3 := by
  have hlen : (Nat.toDigits 10 v).length ≤ 3 :=
    (Nat.length_toDigits_le_iff (by decide) (by decide)).2 h
  rw [sprintf03d, List.length_leftpad, Nat.max_eq_left hlen]

theorem sprintf03d_injective : Function.Injective sprintf03d := by
  intro v w h
  have hvalue : ∀ v, Nat.ofDigitChars 10 (sprintf03d v) 0 = v := by
    intro v
    rw [sprintf03d, List.leftpad, Nat.ofDigitChars_append, Nat.ofDigitChars_replicate_zero,
      Nat.mul_zero, Nat.ofDigitChars_ten_toDigits]
  rw [← hvalue v, h, hvalue w]

/-- **What identifies a device.** -/
theorem identifier_eq_iff {d d' : USBDevice} :
    d.identifier = d'.identifier ↔ d.busNum = d'.busNum ∧ d.devAddr = d'.devAddr := by
  have hbyte : ∀ v : UInt8, (sprintf03d v.toNat).length = 3 := by
    intro v
    exact length_sprintf03d (v.toNat_lt.trans (by decide))
  rw [identifier, identifier, String.ofList_inj]
  refine ⟨?_, ?_⟩
  · intro h
    obtain ⟨hbus, haddr⟩ := List.append_inj h ((hbyte _).trans (hbyte _).symm)
    obtain ⟨-, haddr⟩ := List.cons_eq_cons.1 haddr
    exact ⟨UInt8.toNat_inj.1 (sprintf03d_injective hbus),
      UInt8.toNat_inj.1 (sprintf03d_injective haddr)⟩
  · intro h
    rw [h.1, h.2]

/-! ## JSON -/

/-- The fields `toJson` writes before the configurations. -/
def fields (d : USBDevice) : List (String × Json) := [
  ("name", .string d.name),
  ("serial", .string d.mSerial),
  ("manufacturerName", .string d.manufacturerName),
  ("productName", .string d.productName),
  ("version", .string d.version),
  ("vendorId", .ofInt32 d.vendorId),
  ("productId", .ofInt32 d.productId),
  ("clazz", .ofInt32 d.clazz),
  ("subClass", .ofInt32 d.subClass),
  ("protocol", .ofInt32 d.protocol),
  ("devAddress", .ofUInt8 d.devAddr),
  ("busNum", .ofUInt8 d.busNum)]

/-- The document `toJson` builds. -/
def document (d : USBDevice) : Json :=
  .object (d.fields ++ Json.arrayField "configs" (d.configs_.map (.ofOption ·.toJson)))

def toJson (d : USBDevice) : Option Json := Serializable.toJson d.parsed_ d.document

theorem itemsAt_document (d : USBDevice) :
    d.document.itemsAt "configs" = d.configs_.map (.ofOption ·.toJson) :=
  Json.itemsAt_arrayField rfl _

/-- **Decoding a device.** It succeeds when the eleven keys hold values of the right kind and
every element under `configs` is a number or a boolean. -/
theorem ofJson_eq_ok {deviceId : UInt64} {j : Json} {d : USBDevice} :
    ofJson deviceId j = .ok d ↔
      ∃ name manufacturerName productName version devAddr busNum vendorId productId clazz subClass
          protocol configs,
        j.string? "name" = some name ∧ j.string? "manufacturerName" = some manufacturerName ∧
        j.string? "productName" = some productName ∧ j.string? "version" = some version ∧
        j.number? "devAddress" = some devAddr ∧ j.number? "busNum" = some busNum ∧
        j.number? "vendorId" = some vendorId ∧ j.number? "productId" = some productId ∧
        j.number? "clazz" = some clazz ∧ j.number? "subClass" = some subClass ∧
        j.number? "protocol" = some protocol ∧
        List.Forall₂
          (fun cj c => ∃ z, cj.toInt? = some z ∧ USBConfig.ofIndex deviceId (.ofInt z) = c)
          (j.itemsAt "configs") configs ∧
        d = { parsed_ := true, deviceId_ := deviceId, name_ := name,
              manufacturerName_ := manufacturerName, productName_ := productName,
              version_ := version, devAddr_ := .ofInt devAddr, busNum_ := .ofInt busNum,
              vendorId_ := .ofInt vendorId, productId_ := .ofInt productId,
              clazz_ := .ofInt clazz, subClass_ := .ofInt subClass,
              protocol_ := .ofInt protocol, configs_ := configs } := by
  simp only [ofJson, bind_eq_ok, pure_eq_ok, Json.readNumber_eq_ok, Json.readString_eq_ok,
    Json.readItems_eq_ok, mapM_eq_ok, Json.getNumber_eq_ok, exists_exists_and_eq_and]
  refine ⟨?_, ?_⟩
  · intro h
    obtain ⟨nm, hnm, mn, hmn, pn, hpn, vs, hvs, da, hda, bn, hbn, vi, hvi, pi, hpi, cl, hcl, sc,
      hsc, pr, hpr, _, ⟨-, rfl⟩, cs, hcs, rfl⟩ := h
    exact ⟨nm, mn, pn, vs, da, bn, vi, pi, cl, sc, pr, cs, hnm, hmn, hpn, hvs, hda, hbn, hvi, hpi,
      hcl, hsc, hpr, hcs, rfl⟩
  · intro h
    obtain ⟨nm, mn, pn, vs, da, bn, vi, pi, cl, sc, pr, cs, hnm, hmn, hpn, hvs, hda, hbn, hvi, hpi,
      hcl, hsc, hpr, hcs, rfl⟩ := h
    exact ⟨nm, hnm, mn, hmn, pn, hpn, vs, hvs, da, hda, bn, hbn, vi, hvi, pi, hpi, cl, hcl, sc,
      hsc, pr, hpr, _, ⟨Json.subscriptable_of_number? hda, rfl⟩, cs, hcs, rfl⟩

end USBDevice

end OhosWrapper.Usb
