import OhosWrapper.Usb.Interface

/-!
# Configurations

`USBConfig` holds the interfaces of one configuration. It can be built from an index alone, from
values for its fields, from a JSON document, or from a descriptor, which `AltSettings` is about.

**Children.** The constructor from a document makes each interface from a device id and the
element itself. The class `USBInterface` has no constructor from an id and a document, but it has
one from an id and an index, to which the element converts. So the elements under `interfaces`
are read as numbers (`ofJson_eq_ok`), while `toJson` writes documents.

**Units.** `maxPower()` is twice the stored value. It is what `toJson` writes, and the constructor
stores what it reads. A product outside the range of `Int32` is undefined in the source; here it
wraps around.
-/

namespace OhosWrapper.Usb

open Nlohmann

def USB_CFG_SELF_POWERED : UInt32 := 0x80

def USB_CFG_REMOTE_WAKEUP : UInt32 := 0x20

/-! ## The class -/

structure USBConfig where
  parsed_ : Bool := false
  deviceId_ : UInt64
  configIndex_ : UInt8
  interfaces_ : List USBInterface := []
  altsettings_ : List USBInterface := []
  id_ : Int32 := INVALID_USB_INT_VALUE
  attributes_ : UInt32 := 0
  maxPower_ : Int32 := INVALID_USB_INT_VALUE
  name_ : String := ""
  iConfiguration_ : UInt8 := UINT8_MAX
  deriving DecidableEq, Repr

namespace USBConfig

/-! ## Constructors -/

def ofIndex (deviceId : UInt64) (configIndex : UInt8) : USBConfig :=
  { deviceId_ := deviceId, configIndex_ := configIndex }

/-- The field-list constructor. -/
def ofFields (deviceId : UInt64) (configIndex : UInt8) (id attributes : UInt32) (name : String)
    (maxPower : UInt32) (interfaces : List USBInterface) : USBConfig :=
  { parsed_ := true
    deviceId_ := deviceId
    configIndex_ := configIndex
    id_ := id.toInt32
    attributes_ := attributes
    maxPower_ := maxPower.toInt32
    name_ := name
    interfaces_ := interfaces }

/-- The constructor from a document. An element under `interfaces` converts to the index of the
interface it makes. -/
def ofJson (deviceId : UInt64) (configIndex : UInt8) (j : Json) : Except JsonError USBConfig := do
  let id_ ← j.readNumber Int32.ofInt "id"
  let attributes_ ← j.readNumber UInt32.ofInt "attributes"
  let maxPower_ ← j.readNumber Int32.ofInt "maxPower"
  let name_ ← j.readString "name"
  let interfaces_ ← (← j.readItems "interfaces").mapM fun interface => do
    return USBInterface.ofIndex deviceId (← interface.getNumber UInt8.ofInt)
  return { parsed_ := true, deviceId_ := deviceId, configIndex_ := configIndex, id_, attributes_,
           maxPower_, name_, interfaces_ }

/-! ## Getters -/

def deviceId (c : USBConfig) : UInt64 := c.deviceId_

def configIndex (c : USBConfig) : UInt8 := c.configIndex_

def interfaces (c : USBConfig) : List USBInterface := c.interfaces_

def id (c : USBConfig) : Int32 := c.id_

def attributes (c : USBConfig) : UInt32 := c.attributes_

def maxPower (c : USBConfig) : Int32 := c.maxPower_ * 2

def name (c : USBConfig) : String := c.name_

def iConfiguration (c : USBConfig) : UInt8 := c.iConfiguration_

def isRemoteWakeup (c : USBConfig) : Bool := c.attributes_ &&& USB_CFG_REMOTE_WAKEUP != 0

def isSelfPowered (c : USBConfig) : Bool := c.attributes_ &&& USB_CFG_SELF_POWERED != 0

/-! ## Setters -/

def setInterfaces (c : USBConfig) (interfaces : List USBInterface) : USBConfig :=
  { c with interfaces_ := interfaces }

def setId (c : USBConfig) (id : Int32) : USBConfig := { c with id_ := id }

def setAttribute (c : USBConfig) (attributes : UInt32) : USBConfig :=
  { c with attributes_ := attributes }

def setMaxPower (c : USBConfig) (maxPower : Int32) : USBConfig := { c with maxPower_ := maxPower }

def setName (c : USBConfig) (name : String) : USBConfig := { c with name_ := name }

def setiConfiguration (c : USBConfig) (idx : UInt8) : USBConfig := { c with iConfiguration_ := idx }

/-! ## JSON -/

/-- The fields `toJson` writes before the interfaces. -/
def fields (c : USBConfig) : List (String × Json) := [
  ("id", .ofInt32 c.id),
  ("attributes", .ofUInt32 c.attributes),
  ("isRemoteWakeup", .boolean c.isRemoteWakeup),
  ("isSelfPowered", .boolean c.isSelfPowered),
  ("maxPower", .ofInt32 c.maxPower),
  ("name", .string c.name)]

/-- The document `toJson` builds. -/
def document (c : USBConfig) : Json :=
  .object (c.fields ++ Json.arrayField "interfaces" (c.interfaces_.map (.ofOption ·.toJson)))

def toJson (c : USBConfig) : Option Json := Serializable.toJson c.parsed_ c.document

theorem itemsAt_document (c : USBConfig) :
    c.document.itemsAt "interfaces" = c.interfaces_.map (.ofOption ·.toJson) :=
  Json.itemsAt_arrayField rfl _

/-- **Decoding a configuration.** It succeeds when the four keys hold values of the right kind and
every element under `interfaces` is a number or a boolean. -/
theorem ofJson_eq_ok {deviceId : UInt64} {configIndex : UInt8} {j : Json} {c : USBConfig} :
    ofJson deviceId configIndex j = .ok c ↔
      ∃ id attributes maxPower name interfaces,
        j.number? "id" = some id ∧ j.number? "attributes" = some attributes ∧
        j.number? "maxPower" = some maxPower ∧ j.string? "name" = some name ∧
        List.Forall₂
          (fun ij i => ∃ z, ij.toInt? = some z ∧ USBInterface.ofIndex deviceId (.ofInt z) = i)
          (j.itemsAt "interfaces") interfaces ∧
        c = { parsed_ := true, deviceId_ := deviceId, configIndex_ := configIndex,
              id_ := .ofInt id, attributes_ := .ofInt attributes, maxPower_ := .ofInt maxPower,
              name_ := name, interfaces_ := interfaces } := by
  simp only [ofJson, bind_eq_ok, pure_eq_ok, Json.readNumber_eq_ok, Json.readString_eq_ok,
    Json.readItems_eq_ok, mapM_eq_ok, Json.getNumber_eq_ok, exists_exists_and_eq_and]
  refine ⟨?_, ?_⟩
  · intro h
    obtain ⟨id', hid, at', hat, mp, hmp, nm, hnm, _, ⟨-, rfl⟩, is, his, rfl⟩ := h
    exact ⟨id', at', mp, nm, is, hid, hat, hmp, hnm, his, rfl⟩
  · intro h
    obtain ⟨id', at', mp, nm, is, hid, hat, hmp, hnm, his, rfl⟩ := h
    exact ⟨id', hid, at', hat, mp, hmp, nm, hnm, _, ⟨Json.subscriptable_of_number? hid, rfl⟩, is,
      his, rfl⟩

end USBConfig

end OhosWrapper.Usb
