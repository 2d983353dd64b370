import OhosWrapper.Usb.Encode

/-!
# Calls of setters

A call of a setter as data: which setter, with which argument. The setters of the children, which
replace vectors of pointers, are not among them.

Setters assign one member each. None of them touches `parsed_` or the children, so a setter called
on an object of a tree changes what the object holds and nothing below it.
-/

namespace OhosWrapper.Usb

/-! ## Endpoints -/

inductive USBEndpoint.Setter
  | setAddr (val : UInt32)
  | setAttr (val : UInt32)
  | setInterval (val : Int32)
  | setMaxPacketSize (val : Int32)
  | setInterfaceId (interfaceId : UInt8)
  deriving DecidableEq, Repr

def USBEndpoint.Setter.apply : Setter → USBEndpoint → USBEndpoint
  | setAddr val, e => e.setAddr val
  | setAttr val, e => e.setAttr val
  | setInterval val, e => e.setInterval val
  | setMaxPacketSize val, e => e.setMaxPacketSize val
  | setInterfaceId interfaceId, e => e.setInterfaceId interfaceId

theorem USBEndpoint.Setter.set_apply (s : Setter) (e : USBEndpoint) : e.Set (s.apply e) := by
  cases s <;> constructor

/-! ## Interfaces -/

inductive USBInterface.Setter
  | setId (id : Int32)
  | setProtocol (protocol : Int32)
  | setClazz (clazz : Int32)
  | setSubClass (subClass : Int32)
  | setAlternatesetting (alternatesetting : Int32)
  | setName (name : String)
  | setiInterface (idx : UInt8)
  deriving DecidableEq, Repr

def USBInterface.Setter.apply : Setter → USBInterface → USBInterface
  | setId id, i => i.setId id
  | setProtocol protocol, i => i.setProtocol protocol
  | setClazz clazz, i => i.setClazz clazz
  | setSubClass subClass, i => i.setSubClass subClass
  | setAlternatesetting alternatesetting, i => i.setAlternatesetting alternatesetting
  | setName name, i => i.setName name
  | setiInterface idx, i => i.setiInterface idx

theorem USBInterface.Setter.set_apply (s : Setter) (i : USBInterface) : i.Set (s.apply i) := by
  cases s <;> constructor

/-- A setter does the same whatever the endpoints are. -/
theorem USBInterface.Setter.apply_endpoints (s : Setter) (i : USBInterface)
    (es : List USBEndpoint) :
    s.apply { i with endpoints_ := es } = { s.apply i with endpoints_ := es } := by
  cases s <;> rfl

/-! ## Configurations -/

inductive USBConfig.Setter
  | setId (id : Int32)
  | setAttribute (attributes : UInt32)
  | setMaxPower (maxPower : Int32)
  | setName (name : String)
  | setiConfiguration (idx : UInt8)
  deriving DecidableEq, Repr

def USBConfig.Setter.apply : Setter → USBConfig → USBConfig
  | setId id, c => c.setId id
  | setAttribute attributes, c => c.setAttribute attributes
  | setMaxPower maxPower, c => c.setMaxPower maxPower
  | setName name, c => c.setName name
  | setiConfiguration idx, c => c.setiConfiguration idx

theorem USBConfig.Setter.set_apply (s : Setter) (c : USBConfig) : c.Set (s.apply c) := by
  cases s <;> constructor

theorem USBConfig.Setter.apply_interfaces (s : Setter) (c : USBConfig) (is : List USBInterface) :
    s.apply { c with interfaces_ := is } = { s.apply c with interfaces_ := is } := by
  cases s <;> rfl

/-! ## Devices -/

inductive USBDevice.Setter
  | setDevAddr (addr : UInt8)
  | setBusNum (num : UInt8)
  | setName (name : String)
  | setManufacturerName (manufacturerName : String)
  | setProductName (productName : String)
  | setVersion (version : String)
  | setVendorId (vendorId : Int32)
  | setProductId (productId : Int32)
  | setClazz (deviceClass : Int32)
  | setSubclass (subClass : Int32)
  | setProtocol (protocol : Int32)
  | setDescConfigCount (count : UInt8)
  | setiManufacturer (manufacturer : UInt8)
  | setiProduct (product : UInt8)
  | setiSerialNumber (sn : UInt8)
  | setmSerial (serial : String)
  | setbMaxPacketSize0 (maxSize : UInt8)
  | setbcdUSB (bcdUSB : UInt16)
  | setbcdDevice (bcdDevice : UInt16)
  deriving DecidableEq, Repr

def USBDevice.Setter.apply : Setter → USBDevice → USBDevice
  | setDevAddr addr, d => d.setDevAddr addr
  | setBusNum num, d => d.setBusNum num
  | setName name, d => d.setName name
  | setManufacturerName manufacturerName, d => d.setManufacturerName manufacturerName
  | setProductName productName, d => d.setProductName productName
  | setVersion version, d => d.setVersion version
  | setVendorId vendorId, d => d.setVendorId vendorId
  | setProductId productId, d => d.setProductId productId
  | setClazz deviceClass, d => d.setClazz deviceClass
  | setSubclass subClass, d => d.setSubclass subClass
  | setProtocol protocol, d => d.setProtocol protocol
  | setDescConfigCount count, d => d.setDescConfigCount count
  | setiManufacturer manufacturer, d => d.setiManufacturer manufacturer
  | setiProduct product, d => d.setiProduct product
  | setiSerialNumber sn, d => d.setiSerialNumber sn
  | setmSerial serial, d => d.setmSerial serial
  | setbMaxPacketSize0 maxSize, d => d.setbMaxPacketSize0 maxSize
  | setbcdUSB bcdUSB, d => d.setbcdUSB bcdUSB
  | setbcdDevice bcdDevice, d => d.setbcdDevice bcdDevice

theorem USBDevice.Setter.set_apply (s : Setter) (d : USBDevice) : d.Set (s.apply d) := by
  cases s <;> constructor

theorem USBDevice.Setter.apply_configs (s : Setter) (d : USBDevice) (cs : List USBConfig) :
    s.apply { d with configs_ := cs } = { s.apply d with configs_ := cs } := by
  cases s <;> rfl

end OhosWrapper.Usb
