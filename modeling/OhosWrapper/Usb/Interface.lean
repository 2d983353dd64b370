import OhosWrapper.Usb.Endpoint

/-!
# Interfaces

`USBInterface` holds the endpoints of one alternate setting. It can be built from an index alone,
from an interface descriptor, from values for its fields, or from a JSON document.

**Keys.** The constructor reads the alternate setting under `alternateSetting`; `toJson` writes
it under `alterateSetting`. So no document that `toJson` writes can be read back
(`ofJson_document`).

The member `handle_`, the claim on the interface, takes no part in this and is left out.
-/

namespace OhosWrapper.Usb

open Nlohmann

def INT32_MAX : Int32 := 2147483647

/-- The interface descriptor of the USB header. -/
structure UsbInterfaceDescriptor where
  bLength : UInt8
  bDescriptorType : UInt8
  bInterfaceNumber : UInt8
  bAlternateSetting : UInt8
  bNumEndpoints : UInt8
  bInterfaceClass : UInt8
  bInterfaceSubClass : UInt8
  bInterfaceProtocol : UInt8
  iInterface : UInt8
  deriving DecidableEq, Repr

/-- The descriptor with what the driver has beside it. The other members are only copied, and kept
as bytes. -/
structure UsbDdkInterfaceDescriptor where
  interfaceDescriptor : UsbInterfaceDescriptor
  others : List UInt8
  deriving DecidableEq, Repr

/-! ## The class -/

structure USBInterface where
  parsed_ : Bool := false
  deviceId_ : UInt64
  interfaceIndex_ : UInt8
  endpoints_ : List USBEndpoint := []
  ddk_descriptor_ : Option UsbDdkInterfaceDescriptor := none
  id_ : Int32 := INT32_MAX
  protocol_ : Int32 := INT32_MAX
  clazz_ : Int32 := INT32_MAX
  subClass_ : Int32 := INT32_MAX
  alternateSetting_ : Int32 := INT32_MAX
  name_ : String := ""
  iInterface_ : UInt8 := UINT8_MAX
  deriving DecidableEq, Repr

namespace USBInterface

/-! ## Constructors -/

def ofIndex (deviceId : UInt64) (interfaceIndex : UInt8) : USBInterface :=
  { deviceId_ := deviceId, interfaceIndex_ := interfaceIndex }

def ofDescriptor (deviceId : UInt64) (ddk_descriptor : UsbDdkInterfaceDescriptor) :
    USBInterface :=
  { deviceId_ := deviceId
    interfaceIndex_ := ddk_descriptor.interfaceDescriptor.bInterfaceNumber
    ddk_descriptor_ := some ddk_descriptor }

/-- The field-list constructor. -/
def ofFields (deviceId : UInt64) (interfaceIndex : UInt8)
    (id protocol interfaceClass subClass alternatesetting : Int32) (name : String)
    (endpoints : List USBEndpoint) : USBInterface :=
  { parsed_ := true
    deviceId_ := deviceId
    interfaceIndex_ := interfaceIndex
    id_ := id
    protocol_ := protocol
    clazz_ := interfaceClass
    subClass_ := subClass
    alternateSetting_ := alternatesetting
    name_ := name
    endpoints_ := endpoints
    iInterface_ := UINT8_MAX }

/-- The constructor from a document. The elements under `endpoints` are documents of endpoints. -/
def ofJson (deviceId : UInt64) (interfaceIndex : UInt8) (j : Json) :
    Except JsonError USBInterface := do
  let id_ ← j.readNumber Int32.ofInt "id"
  let protocol_ ← j.readNumber Int32.ofInt "protocol"
  let clazz_ ← j.readNumber Int32.ofInt "clazz"
  let subClass_ ← j.readNumber Int32.ofInt "subClass"
  let alternateSetting_ ← j.readNumber Int32.ofInt "alternateSetting"
  let name_ ← j.readString "name"
  let endpoints_ ← (← j.readItems "endpoints").mapM USBEndpoint.ofJson
  return { parsed_ := true, deviceId_ := deviceId, interfaceIndex_ := interfaceIndex, id_,
           protocol_, clazz_, subClass_, alternateSetting_, name_, endpoints_ }

/-! ## Getters -/

def deviceId (i : USBInterface) : UInt64 := i.deviceId_

def interfaceIndex (i : USBInterface) : UInt8 := i.interfaceIndex_

def endpoints (i : USBInterface) : List USBEndpoint := i.endpoints_

def isAlternateSetting (i : USBInterface) : Bool := i.ddk_descriptor_.isSome

def name (i : USBInterface) : String := i.name_

def id (i : USBInterface) : Int32 := i.id_

def clazz (i : USBInterface) : Int32 := i.clazz_

def subClass (i : USBInterface) : Int32 := i.subClass_

def alternateSetting (i : USBInterface) : Int32 := i.alternateSetting_

def protocol (i : USBInterface) : Int32 := i.protocol_

def iInterface (i : USBInterface) : UInt8 := i.iInterface_

/-! ## Setters -/

def setEndpoints (i : USBInterface) (eps : List USBEndpoint) : USBInterface :=
  { i with endpoints_ := eps }

def setId (i : USBInterface) (id : Int32) : USBInterface := { i with id_ := id }

def setProtocol (i : USBInterface) (protocol : Int32) : USBInterface :=
  { i with protocol_ := protocol }

def setClazz (i : USBInterface) (clazz : Int32) : USBInterface := { i with clazz_ := clazz }

def setSubClass (i : USBInterface) (subClass : Int32) : USBInterface :=
  { i with subClass_ := subClass }

def setAlternatesetting (i : USBInterface) (alternatesetting : Int32) : USBInterface :=
  { i with alternateSetting_ := alternatesetting }

def setName (i : USBInterface) (name : String) : USBInterface := { i with name_ := name }

def setiInterface (i : USBInterface) (idx : UInt8) : USBInterface := { i with iInterface_ := idx }

/-! ## JSON -/

/-- The fields `toJson` writes before the endpoints. -/
def fields (i : USBInterface) : List (String × Json) := [
  ("id", .ofInt32 i.id),
  ("protocol", .ofInt32 i.protocol),
  ("clazz", .ofInt32 i.clazz),
  ("subClass", .ofInt32 i.subClass),
  ("alterateSetting", .ofInt32 i.alternateSetting),
  ("name", .string i.name)]

/-- The document `toJson` builds. -/
def document (i : USBInterface) : Json :=
  .object (i.fields ++ Json.arrayField "endpoints" (i.endpoints_.map (.ofOption ·.toJson)))

def toJson (i : USBInterface) : Option Json := Serializable.toJson i.parsed_ i.document

theorem itemsAt_document (i : USBInterface) :
    i.document.itemsAt "endpoints" = i.endpoints_.map (.ofOption ·.toJson) :=
  Json.itemsAt_arrayField rfl _

/-- **Decoding an interface.** It succeeds when the six keys hold values of the right kind and
every element under `endpoints` decodes. -/
theorem ofJson_eq_ok {deviceId : UInt64} {interfaceIndex : UInt8} {j : Json} {i : USBInterface} :
    ofJson deviceId interfaceIndex j = .ok i ↔
      ∃ id protocol clazz subClass alternateSetting name endpoints,
        j.number? "id" = some id ∧ j.number? "protocol" = some protocol ∧
        j.number? "clazz" = some clazz ∧ j.number? "subClass" = some subClass ∧
        j.number? "alternateSetting" = some alternateSetting ∧ j.string? "name" = some name ∧
        List.Forall₂ (fun ej e => USBEndpoint.ofJson ej = .ok e) (j.itemsAt "endpoints") endpoints ∧
        i = { parsed_ := true, deviceId_ := deviceId, interfaceIndex_ := interfaceIndex,
              id_ := .ofInt id, protocol_ := .ofInt protocol, clazz_ := .ofInt clazz,
              subClass_ := .ofInt subClass, alternateSetting_ := .ofInt alternateSetting,
              name_ := name, endpoints_ := endpoints } := by
  simp only [ofJson, bind_eq_ok, pure_eq_ok, Json.readNumber_eq_ok, Json.readString_eq_ok,
    Json.readItems_eq_ok, mapM_eq_ok]
  refine ⟨?_, ?_⟩
  · intro h
    obtain ⟨_, ⟨id', hid, rfl⟩, _, ⟨pr, hpr, rfl⟩, _, ⟨cl, hcl, rfl⟩, _, ⟨sc, hsc, rfl⟩, _,
      ⟨as, has, rfl⟩, nm, hnm, _, ⟨-, rfl⟩, eps, heps, rfl⟩ := h
    exact ⟨id', pr, cl, sc, as, nm, eps, hid, hpr, hcl, hsc, has, hnm, heps, rfl⟩
  · intro h
    obtain ⟨id', pr, cl, sc, as, nm, eps, hid, hpr, hcl, hsc, has, hnm, heps, rfl⟩ := h
    exact ⟨_, ⟨id', hid, rfl⟩, _, ⟨pr, hpr, rfl⟩, _, ⟨cl, hcl, rfl⟩, _, ⟨sc, hsc, rfl⟩, _,
      ⟨as, has, rfl⟩, nm, hnm, _, ⟨Json.subscriptable_of_number? hid, rfl⟩, eps, heps, rfl⟩

/-- **No round trip.** The key under which the alternate setting is written is not the one it is
read from. -/
theorem ofJson_document (deviceId : UInt64) (interfaceIndex : UInt8) (i i' : USBInterface) :
    ofJson deviceId interfaceIndex i.document ≠ .ok i' := by
  intro h
  obtain ⟨_, _, _, _, as, _, _, _, _, _, _, has, _⟩ := ofJson_eq_ok.1 h
  have hmissing : i.document.value? "alternateSetting" = none := by
    rw [document, Json.value?_object, List.lookup_append]
    cases i.endpoints_ <;> simp [fields, List.lookup_cons, Json.arrayField]
  rw [Json.number?, hmissing] at has
  cases has

end USBInterface

end OhosWrapper.Usb
