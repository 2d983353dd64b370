import OhosWrapper.Lib.CountedLoop
import OhosWrapper.Usb.DeviceId
import OhosWrapper.Usb.Handles
import OhosWrapper.Usb.HostManager

/-!
# Where registered devices come from

A device is registered under the native id, which is made of the bus number and the device number
in its ArkTS id. It is found again by that id, or by the identifier made of its members `busNum`
and `devAddr`. Whether these are the numbers in its id depends on how the device was built.

**Located devices.** A device from a document has the numbers the document gives it. If those are
the numbers in its id, both lookups find the device that was first registered at a place
(`lookups_of_located`), for every place and in every iteration order of the map.

**Devices from the driver.** A device from its id or from its descriptor has the default numbers,
whatever its id is. The lookups of such devices, each registered under its own id, agree only if
they were all registered under one id (`lookups_of_default_iff`).
-/

namespace OhosWrapper.Usb

open CountedLoop

/-! ## Devices from descriptors -/

/-- The device descriptor of the USB header, as far as it is read. -/
structure UsbDeviceDescriptor where
  bNumConfigurations : UInt8
  deriving DecidableEq, Repr

structure USBDevice.Descriptor where
  deviceId_ : UInt64
  descriptor_ : UsbDeviceDescriptor
  deriving DecidableEq, Repr

namespace USBDevice

/-- The constructor, with the results of `OH_Usb_GetDeviceDescriptor`. -/
def Descriptor.Get (deviceId : UInt64) (code : USBErrCode) (descriptor_ : UsbDeviceDescriptor) :
    Except (DdkSystemError USBErrCode) Descriptor := do
  usbCheckError code "OH_Usb_GetDeviceDescriptor(deviceId, &descriptor_)"
  return { deviceId_ := deviceId, descriptor_ }

def Descriptor.deviceId (this : Descriptor) : UInt64 := this.deviceId_

def Descriptor.descriptor (this : Descriptor) : UsbDeviceDescriptor := this.descriptor_

/-- The constructor from a pointer to a descriptor. -/
def ofDescriptor (descriptor : Option Descriptor) : Except BadAccess USBDevice := do
  let deviceId_ := (← deref descriptor).deviceId
  let configs_ ← emplaceBack (← deref descriptor).descriptor.bNumConfigurations fun i => do
    return USBConfig.ofIndex (← deref descriptor).deviceId i
  return { deviceId_, configs_ }

/-- One configuration for each index below the number of configurations. -/
theorem ofDescriptor_some (descriptor : Descriptor) : ofDescriptor (some descriptor) =
    .ok { deviceId_ := descriptor.deviceId,
          configs_ := (List.range descriptor.descriptor.bNumConfigurations.toNat).map fun k =>
            .ofIndex descriptor.deviceId (.ofNat k) } := by
  simp only [ofDescriptor, deref, ok_bind, emplaceBack_pure]
  rfl

end USBDevice

/-! ## Identifiers of places -/

/-- The identifier of the bus number and the device number in an ArkTS id. -/
def identifierOf (deviceId : UInt64) : String :=
  .ofList (USBDevice.sprintf03d (JsDeviceIdToBusNum deviceId).toNat ++
    '-' :: USBDevice.sprintf03d (JsDeviceIdToDevNum deviceId).toNat)

/-- The members of the device are the numbers in its ArkTS id. -/
structure Located (deviceId : UInt64) (d : USBDevice) : Prop where
  busNum : d.busNum.toUInt32 = JsDeviceIdToBusNum deviceId
  devAddr : d.devAddr.toUInt32 = JsDeviceIdToDevNum deviceId

/-- Two ids of the same place. -/
def SamePlace (a b : UInt64) : Prop :=
  JsDeviceIdToBusNum a = JsDeviceIdToBusNum b ∧ JsDeviceIdToDevNum a = JsDeviceIdToDevNum b

instance (a b : UInt64) : Decidable (SamePlace a b) := inferInstanceAs (Decidable (_ ∧ _))

theorem native_eq_iff {a b : UInt64} :
    JsDeviceIdToNative a = JsDeviceIdToNative b ↔ SamePlace a b := by
  rw [native_eq_pack, native_eq_pack, Word.pack_inj, SamePlace]

theorem not_hyphen_mem_sprintf03d (v : ℕ) : '-' ∉ USBDevice.sprintf03d v := by
  intro h
  rw [USBDevice.sprintf03d, List.leftpad, List.mem_append, List.mem_replicate] at h
  rcases h with ⟨-, h⟩ | h
  · cases h
  · have hdigit := Nat.isDigit_of_mem_toDigits (by decide) (by decide) h
    cases hdigit

/-- The identifier tells the place, whatever the lengths of the numbers are. -/
theorem identifierOf_eq_iff {a b : UInt64} : identifierOf a = identifierOf b ↔ SamePlace a b := by
  rw [identifierOf, identifierOf, String.ofList_inj,
    List.append_cons_inj_of_notMem (not_hyphen_mem_sprintf03d _) (not_hyphen_mem_sprintf03d _),
    USBDevice.sprintf03d_injective.eq_iff, USBDevice.sprintf03d_injective.eq_iff,
    UInt32.toNat_inj, UInt32.toNat_inj, SamePlace]
  simp only [true_and]

theorem Located.identifier {a : UInt64} {d : USBDevice} (h : Located a d) :
    d.identifier = identifierOf a := by
  rw [USBDevice.identifier, identifierOf, ← h.busNum, ← h.devAddr, UInt8.toNat_toUInt32,
    UInt8.toNat_toUInt32]

/-! ## Located devices -/

namespace USBHostManager

variable {π : Type}

/-- The calls of `addDevice` for devices with the given ArkTS ids. -/
def registered (calls : List (UInt64 × DeviceObject π)) : List (UInt64 × DeviceObject π) :=
  calls.map fun c => (JsDeviceIdToNative c.1, c.2)

/-- The device that was registered first at the place of the ArkTS id. -/
def firstAt (calls : List (UInt64 × DeviceObject π)) (deviceId : UInt64) :
    Option (DeviceObject π) :=
  (calls.find? fun c => SamePlace c.1 deviceId).map Prod.snd

variable {calls : List (UInt64 × DeviceObject π)}

theorem firstAdded_registered (calls : List (UInt64 × DeviceObject π)) (a : UInt64) :
    firstAdded (registered calls) (JsDeviceIdToNative a) = firstAt calls a := by
  induction calls with
  | nil => rfl
  | cons c calls ih =>
    rw [firstAdded, registered, List.map_cons, List.lookup_cons, ← registered, ← firstAdded, ih,
      firstAt, firstAt, List.find?_cons]
    by_cases h : SamePlace c.1 a
    · have hnative : (JsDeviceIdToNative a == JsDeviceIdToNative c.1) = true :=
        beq_iff_eq.2 (native_eq_iff.2 h).symm
      rw [hnative, decide_eq_true h]
      rfl
    · have hnative : (JsDeviceIdToNative a == JsDeviceIdToNative c.1) = false :=
        beq_eq_false_iff_ne.2 fun heq => h (native_eq_iff.1 heq.symm)
      rw [hnative, decide_eq_false h]

/-- A registered device was given in some call. -/
theorem mem_of_firstAdded {id : UInt64} {d : DeviceObject π} (h : firstAdded calls id = some d) :
    (id, d) ∈ calls := by
  obtain ⟨pre, post, rfl, -⟩ := List.lookup_eq_some_iff.1 h
  simp

/-- **Located devices.** Both lookups find the device that was registered first at a place. -/
theorem lookups_of_located (h : ∀ c ∈ calls, Located c.1 c.2.own) (a : UInt64) :
    ((addAll (registered calls)).deviceOf (JsDeviceIdToNative a) =
      (firstAt calls a).elim (.error .out_of_range) .ok) ∧
    ∀ order, (addAll (registered calls)).devices_.IterationOrder order →
      findDevice order (identifierOf a) = firstAt calls a := by
  have hfirst : (addAll (registered calls)).devices_.lookup (JsDeviceIdToNative a) =
      firstAt calls a := by
    rw [lookup_devices, firstAdded_registered]
  refine ⟨?_, fun order horder => ?_⟩
  · rw [deviceOf, hfirst]
    cases firstAt calls a <;> rfl
  · rw [← hfirst]
    refine UnorderedMap.find_eq_lookup (fun id d hd => ?_) horder
    rw [lookup_devices] at hd
    obtain ⟨⟨a', d'⟩, hmem, hcall⟩ := List.mem_map.1 (mem_of_firstAdded hd)
    obtain ⟨rfl, rfl⟩ := Prod.mk.inj hcall
    rw [beq_iff_eq, (h _ hmem).identifier, identifierOf_eq_iff, native_eq_iff]

/-- The instance at a device on bus 1 that is registered under the address 2, twice. -/
theorem lookups_of_located_twice :
    findDevice [⟨0x100000002, ⟨((USBDevice.ofId 7).setBusNum 1).setDevAddr 2, [0]⟩⟩] "001-002" =
      some ⟨((USBDevice.ofId 7).setBusNum 1).setDevAddr 2, [0]⟩ := by
  have hlocated : ∀ c ∈ [((0x0001000200000000 : UInt64),
      (⟨((USBDevice.ofId 7).setBusNum 1).setDevAddr 2, [0]⟩ : DeviceObject (List ℕ))),
      (0x0001000200000005, ⟨((USBDevice.ofId 8).setBusNum 1).setDevAddr 2, [1]⟩)],
        Located c.1 c.2.own := by
    simp only [List.forall_mem_cons, List.not_mem_nil, false_implies, implies_true, and_true]
    exact ⟨⟨by decide, by decide⟩, by decide, by decide⟩
  exact (lookups_of_located hlocated 0x0001000200000000).2 _ (List.Perm.refl _)

/-! ## Devices from the driver -/

/-- The members of a device that was built from its id or from its descriptor. -/
inductive FromDriver (deviceId : UInt64) : USBDevice → Prop
  | ofId : FromDriver deviceId (.ofId deviceId)
  | ofDescriptor {descriptor : USBDevice.Descriptor} {d : USBDevice}
      (hid : descriptor.deviceId = deviceId)
      (h : USBDevice.ofDescriptor (some descriptor) = .ok d) :
      FromDriver deviceId (d.setConfigs [])

theorem FromDriver.members {id : UInt64} {d : USBDevice} (h : FromDriver id d) :
    d.deviceId = id ∧ d.busNum = UINT8_MAX ∧ d.devAddr = UINT8_MAX := by
  cases h with
  | ofId => exact ⟨rfl, rfl, rfl⟩
  | ofDescriptor hid h =>
    rw [USBDevice.ofDescriptor_some] at h
    obtain rfl := Except.ok.inj h
    exact ⟨hid, rfl, rfl⟩

/-- **Devices from the driver.** If each is registered under its own id, whatever its pointers are,
the lookups agree exactly when all were registered under one id. -/
theorem lookups_of_default_iff (h : ∀ c ∈ calls, FromDriver c.1 c.2.own) :
    (addAll calls).LookupsAgree ↔ ∀ c ∈ calls, ∀ c' ∈ calls, c.1 = c'.1 := by
  have hident : ∀ {id id' d d'}, firstAdded calls id = some d → firstAdded calls id' = some d' →
      d'.own.identifier = d.own.identifier := by
    intro id id' d d' hd hd'
    obtain ⟨-, hbus, haddr⟩ := (h _ (mem_of_firstAdded hd)).members
    obtain ⟨-, hbus', haddr'⟩ := (h _ (mem_of_firstAdded hd')).members
    exact USBDevice.identifier_eq_iff.2 ⟨hbus'.trans hbus.symm, haddr'.trans haddr.symm⟩
  have hadded : ∀ c ∈ calls, ∃ d, firstAdded calls c.1 = some d ∧ d.own.deviceId = c.1 := by
    intro c hc
    cases hd : firstAdded calls c.1 with
    | none => exact absurd (List.mem_map_of_mem hc) (lookup_eq_none.1 hd)
    | some d => exact ⟨d, rfl, (h _ (mem_of_firstAdded hd)).members.1⟩
  refine ⟨fun hagree c hc c' hc' => ?_, fun hone => ⟨fun id d hd => ?_, fun x order horder => ?_⟩⟩
  · obtain ⟨d, hd, hid⟩ := hadded c hc
    obtain ⟨d', hd', hid'⟩ := hadded c' hc'
    have hown := hagree.own c.1 d (deviceOf_addAll.2 hd)
    have hsame := (UnorderedMap.forall_find_iff.1 hown).2 c'.1 d' (by rw [lookup_devices, hd'])
      (beq_iff_eq.2 (hident hd hd'))
    rw [← hid, ← hid', hsame]
  · rw [deviceOf_addAll] at hd
    refine UnorderedMap.forall_find_iff.2 ⟨⟨id, by rw [lookup_devices, hd], by simp⟩, ?_⟩
    intro id' d' hd' _
    rw [lookup_devices] at hd'
    have hid : id' = id := hone _ (mem_of_firstAdded hd') _ (mem_of_firstAdded hd)
    rw [hid, hd] at hd'
    exact (Option.some.inj hd').symm
  · exact findDevice_eq_none x horder

/-- The instance at a device that is registered from its id and from its descriptor, with a pointer
to the one configuration of that. -/
theorem lookups_of_default_again : (addAll [(7, (⟨.ofId 7, []⟩ : DeviceObject (List ℕ))),
    (7, ⟨{ deviceId_ := 7 }, [0]⟩)]).LookupsAgree := by
  have hbuilt : USBDevice.ofDescriptor (some ⟨7, ⟨1⟩⟩) =
      .ok { deviceId_ := 7, configs_ := [.ofIndex 7 0] } := USBDevice.ofDescriptor_some _
  refine (lookups_of_default_iff ?_).2 (by simp)
  simp only [List.forall_mem_cons, List.not_mem_nil, false_implies, implies_true, and_true]
  exact ⟨.ofId, .ofDescriptor rfl hbuilt⟩

end USBHostManager

end OhosWrapper.Usb
