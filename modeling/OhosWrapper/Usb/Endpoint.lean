import OhosWrapper.Lib.Json

/-!
# Endpoints

`USBEndpoint` is the leaf of the device tree. Like the three classes above it, it can be built
from a JSON document and written to one, and carries the flag `parsed_` of its base class
`Serializable`, "whether the fields to be serialised have been updated".

**Encoding.** `toJson` gives up, with an empty optional, when the flag is set. The constructors
that give the fields their values set it.
-/

namespace OhosWrapper.Usb

open Nlohmann

/-! ## Constants of `common.h` -/

def INVALID_USB_INT_VALUE : Int32 := -1

def USB_ENDPOINT_XFERTYPE_MASK : UInt32 := 0x03

def USB_ENDPOINT_NUMBER_MASK : UInt32 := 0x0f

def USB_ENDPOINT_DIR_MASK : UInt32 := 0x80

def UINT8_MAX : UInt8 := 255

/-! ## The base class -/

/-- The test each `toJson` begins with. The flag `parsed_` is set by the constructors that give
the fields their values. -/
def Serializable.toJson (parsed_ : Bool) (document : Json) : Option Json :=
  if parsed_ then none else some document

namespace Serializable

variable {parsed_ : Bool} {document j : Json}

theorem toJson_eq_none : toJson parsed_ document = none ↔ parsed_ = true := by
  unfold toJson; split_ifs with h <;> simp [h]

theorem toJson_eq_some :
    toJson parsed_ document = some j ↔ parsed_ = false ∧ document = j := by
  unfold toJson; split_ifs with h <;> simp [h]

theorem isSome_toJson : (toJson parsed_ document).isSome ↔ parsed_ = false := by
  unfold toJson; split_ifs with h <;> simp [h]

/-- A document that is an object converts to no number. -/
theorem toInt?_toJson {fields : List (String × Json)}
    (h : (toJson parsed_ (.object fields)).isSome) :
    (Json.ofOption (toJson parsed_ (.object fields))).toInt? = none := by
  rw [toJson, if_neg (by simp [isSome_toJson.1 h])]
  rfl

end Serializable

/-! ## The class -/

structure USBEndpoint where
  parsed_ : Bool := false
  address_ : UInt32 := 0
  attributes_ : UInt32 := 0
  interval_ : Int32 := INVALID_USB_INT_VALUE
  maxPacketSize_ : Int32 := INVALID_USB_INT_VALUE
  interfaceId_ : UInt8 := UINT8_MAX
  deriving DecidableEq, Repr

namespace USBEndpoint

/-! ## Getters -/

def number (e : USBEndpoint) : UInt8 := (e.address_ &&& USB_ENDPOINT_NUMBER_MASK).toUInt8

def address (e : USBEndpoint) : UInt32 := e.address_

def direction (e : USBEndpoint) : UInt32 := e.address_ &&& USB_ENDPOINT_DIR_MASK

def attributes (e : USBEndpoint) : UInt32 := e.attributes_

def interval (e : USBEndpoint) : Int32 := e.interval_

def maxPacketSize (e : USBEndpoint) : Int32 := e.maxPacketSize_

def type (e : USBEndpoint) : UInt32 := e.attributes_ &&& USB_ENDPOINT_XFERTYPE_MASK

/-- The member is unsigned, the result is signed. -/
def InterfaceId (e : USBEndpoint) : Int8 := e.interfaceId_.toInt8

/-! ## Setters -/

def setAddr (e : USBEndpoint) (val : UInt32) : USBEndpoint := { e with address_ := val }

def setAttr (e : USBEndpoint) (val : UInt32) : USBEndpoint := { e with attributes_ := val }

def setInterval (e : USBEndpoint) (val : Int32) : USBEndpoint := { e with interval_ := val }

def setMaxPacketSize (e : USBEndpoint) (val : Int32) : USBEndpoint :=
  { e with maxPacketSize_ := val }

def setInterfaceId (e : USBEndpoint) (interfaceId : UInt8) : USBEndpoint :=
  { e with interfaceId_ := interfaceId }

/-! ## JSON -/

/-- The constructor from a document. -/
def ofJson (j : Json) : Except JsonError USBEndpoint := do
  let address_ ← j.readNumber UInt32.ofInt "address"
  let attributes_ ← j.readNumber UInt32.ofInt "attributes"
  let interval_ ← j.readNumber Int32.ofInt "interval"
  let maxPacketSize_ ← j.readNumber Int32.ofInt "maxPacketSize"
  let interfaceId_ ← j.readNumber UInt8.ofInt "interfaceId"
  return { parsed_ := true, address_, attributes_, interval_, maxPacketSize_, interfaceId_ }

/-- The document `toJson` builds. -/
def document (e : USBEndpoint) : Json := .object [
  ("address", .ofUInt32 e.address),
  ("attributes", .ofUInt32 e.attributes),
  ("interval", .ofInt32 e.interval),
  ("maxPacketSize", .ofInt32 e.maxPacketSize),
  ("direction", .ofUInt32 e.direction),
  ("number", .ofUInt8 e.number),
  ("type", .ofUInt32 e.type),
  ("interfaceId", .ofInt8 e.InterfaceId)]

def toJson (e : USBEndpoint) : Option Json := Serializable.toJson e.parsed_ e.document

/-- **Decoding an endpoint.** It succeeds when the five keys it reads hold numbers or booleans. -/
theorem ofJson_eq_ok {j : Json} {e : USBEndpoint} : ofJson j = .ok e ↔
    ∃ address attributes interval maxPacketSize interfaceId,
      j.number? "address" = some address ∧ j.number? "attributes" = some attributes ∧
      j.number? "interval" = some interval ∧ j.number? "maxPacketSize" = some maxPacketSize ∧
      j.number? "interfaceId" = some interfaceId ∧
      e = { parsed_ := true, address_ := .ofInt address, attributes_ := .ofInt attributes,
            interval_ := .ofInt interval, maxPacketSize_ := .ofInt maxPacketSize,
            interfaceId_ := .ofInt interfaceId } := by
  simp only [ofJson, bind_eq_ok, pure_eq_ok, Json.readNumber_eq_ok]
  refine ⟨?_, ?_⟩
  · intro h
    obtain ⟨_, ⟨a, ha, rfl⟩, _, ⟨at', hat, rfl⟩, _, ⟨iv, hiv, rfl⟩, _, ⟨mp, hmp, rfl⟩, _,
      ⟨id', hid, rfl⟩, rfl⟩ := h
    exact ⟨a, at', iv, mp, id', ha, hat, hiv, hmp, hid, rfl⟩
  · intro h
    obtain ⟨a, at', iv, mp, id', ha, hat, hiv, hmp, hid, rfl⟩ := h
    exact ⟨_, ⟨a, ha, rfl⟩, _, ⟨at', hat, rfl⟩, _, ⟨iv, hiv, rfl⟩, _, ⟨mp, hmp, rfl⟩, _,
      ⟨id', hid, rfl⟩, rfl⟩

/-- **Round trip.** An endpoint is read back from its document. -/
theorem ofJson_document (e : USBEndpoint) : ofJson e.document = .ok { e with parsed_ := true } := by
  refine ofJson_eq_ok.2 ⟨e.address_.toNat, e.attributes_.toNat, e.interval_.toInt,
    e.maxPacketSize_.toInt, e.interfaceId_.toInt8.toInt, ?_, ?_, ?_, ?_, ?_, ?_⟩
  case refine_6 => simp
  all_goals simp [Json.number?, document, List.lookup_cons, address, attributes, interval,
    maxPacketSize, InterfaceId]

end USBEndpoint

end OhosWrapper.Usb
