import OhosWrapper.Lib.CountedLoop
import OhosWrapper.Usb.Config
import OhosWrapper.Usb.ConfigDescriptor

/-!
# Configurations from descriptors

`USBConfig` can be built from a `Descriptor`, which points to a descriptor of the driver: the
number of interfaces, and an array with a record for each of them, or null. A record has the
alternate settings of its interface. The constructor makes an interface for each index below the
number of interfaces; the alternate settings it takes from the record that the pointer to the array
points to, which is the first one.

**Theorem (`covers_iff`).** The constructor takes all alternate settings and stays inside the array
exactly when there is no array, or the array has a first record and no other record has any
settings.
-/

namespace OhosWrapper.Usb

open CountedLoop

/-! ## Descriptors of the driver -/

/-- The record of an interface: its alternate settings, an array of `numAltsetting` descriptors. -/
structure UsbDdkInterface where
  numAltsetting : UInt8
  altsetting : List UsbDdkInterfaceDescriptor
  counted : altsetting.length = numAltsetting.toNat
  deriving DecidableEq

structure UsbConfigDescriptor where
  bNumInterfaces : UInt8
  deriving DecidableEq, Repr

/-- The pointer `interface` is null or points to an array of `bNumInterfaces` records. -/
structure UsbDdkConfigDescriptor where
  configDescriptor : UsbConfigDescriptor
  interface : Option (List UsbDdkInterface)
  counted : ∀ records, interface = some records →
    records.length = configDescriptor.bNumInterfaces.toNat

variable {κ : Type}

/-- What `ddk_descriptor_` points to, in the memory `mem` of the driver, unless it is null. -/
def USBConfig.Descriptor.ddkDescriptor (mem : κ → UsbDdkConfigDescriptor)
    (this : USBConfig.Descriptor κ) : Option UsbDdkConfigDescriptor :=
  this.ddk_descriptor_.map fun d => mem d.address

def USBConfig.Descriptor.descriptor (mem : κ → UsbDdkConfigDescriptor)
    (this : USBConfig.Descriptor κ) : Option UsbConfigDescriptor :=
  (this.ddkDescriptor mem).map UsbDdkConfigDescriptor.configDescriptor

/-! ## The constructor -/

def USBInterface.Attach (deviceId : UInt64) (ddk_descriptor : UsbDdkInterfaceDescriptor) :
    USBInterface :=
  .ofDescriptor deviceId ddk_descriptor

namespace USBConfig

/-- The constructor from a descriptor. The bounds of the loops do not change while they run. -/
def ofDescriptor (mem : κ → UsbDdkConfigDescriptor) (descriptor : Descriptor κ) :
    Except BadAccess USBConfig := do
  let deviceId_ := descriptor.deviceId
  let interfaces_ ← emplaceBack (← deref (descriptor.descriptor mem)).bNumInterfaces fun i =>
    return USBInterface.ofIndex deviceId_ i
  let altsettings_ ←
    match (← deref (descriptor.ddkDescriptor mem)).interface with
    | some alts =>
      -- `alts->` is the record at index 0.
      emplaceBack (← load alts 0).numAltsetting fun i => do
        return USBInterface.Attach deviceId_ (← load (← load alts 0).altsetting i.toNat)
    | none => pure []
  return { deviceId_, configIndex_ := descriptor.configIndex, interfaces_, altsettings_ }

variable {mem : κ → UsbDdkConfigDescriptor} {descriptor : Descriptor κ}
  {ddk : UsbDdkConfigDescriptor}

/-- One interface for each index below the number of interfaces. -/
def indexed (deviceId : UInt64) (ddk : UsbDdkConfigDescriptor) : List USBInterface :=
  (List.range ddk.configDescriptor.bNumInterfaces.toNat).map fun k => .ofIndex deviceId (.ofNat k)

theorem ofDescriptor_of_null (h : descriptor.ddkDescriptor mem = some ddk)
    (hnull : ddk.interface = none) : ofDescriptor mem descriptor =
      .ok { deviceId_ := descriptor.deviceId, configIndex_ := descriptor.configIndex,
            interfaces_ := indexed descriptor.deviceId ddk } := by
  simp only [ofDescriptor, Descriptor.descriptor, h, Option.map_some, deref, ok_bind,
    emplaceBack_pure, hnull]
  rfl

/-- Without interfaces there is no record to read. -/
theorem ofDescriptor_of_nil (h : descriptor.ddkDescriptor mem = some ddk)
    (hnil : ddk.interface = some []) : ofDescriptor mem descriptor = .error .outOfBounds := by
  simp only [ofDescriptor, Descriptor.descriptor, h, Option.map_some, deref, ok_bind,
    emplaceBack_pure, hnil]
  rfl

/-- The alternate settings are those of the first record. -/
theorem ofDescriptor_of_cons {alts : UsbDdkInterface} {rest : List UsbDdkInterface}
    (h : descriptor.ddkDescriptor mem = some ddk) (hcons : ddk.interface = some (alts :: rest)) :
    ofDescriptor mem descriptor =
      .ok { deviceId_ := descriptor.deviceId, configIndex_ := descriptor.configIndex,
            interfaces_ := indexed descriptor.deviceId ddk,
            altsettings_ := alts.altsetting.map (USBInterface.Attach descriptor.deviceId) } := by
  have hload : load (alts :: rest) 0 = .ok alts := rfl
  have hloop := emplaceBack_load alts.counted (USBInterface.Attach descriptor.deviceId)
  simp only [ofDescriptor, Descriptor.descriptor, h, Option.map_some, deref, ok_bind,
    emplaceBack_pure, hcons, hload, hloop]
  rfl

/-! ## Coverage -/

/-- The configuration has one interface for each index, in order, and, if there is an array of
records, the alternate settings of all records, in order, each with the number of its own
descriptor. -/
structure Covers (deviceId : UInt64) (ddk : UsbDdkConfigDescriptor) (c : USBConfig) : Prop where
  interfaces : c.interfaces_ = indexed deviceId ddk
  altsettings : ∀ records, ddk.interface = some records → c.altsettings_ =
    (records.flatMap UsbDdkInterface.altsetting).map (USBInterface.Attach deviceId)
  numbered : ∀ records, ddk.interface = some records →
    c.altsettings_.map USBInterface.interfaceIndex =
      (records.flatMap UsbDdkInterface.altsetting).map (·.interfaceDescriptor.bInterfaceNumber)

/-- Records without alternate settings. -/
theorem flatMap_altsetting_eq_nil {records : List UsbDdkInterface} :
    records.flatMap UsbDdkInterface.altsetting = [] ↔
      ∀ record ∈ records, record.numAltsetting = 0 := by
  rw [List.flatMap_eq_nil_iff]
  refine forall_congr' fun record => imp_congr_right fun _ => ?_
  rw [← List.length_eq_zero_iff, record.counted, ← UInt8.toNat_inj]
  rfl

/-- A configuration with the alternate settings of the records covers them. -/
theorem covers_of_attached {deviceId : UInt64} {c : USBConfig} {records : List UsbDdkInterface}
    (hinterface : ddk.interface = some records) (hinterfaces : c.interfaces_ = indexed deviceId ddk)
    (hsettings : c.altsettings_ =
      (records.flatMap UsbDdkInterface.altsetting).map (USBInterface.Attach deviceId)) :
    Covers deviceId ddk c := by
  refine ⟨hinterfaces, fun records' h => ?_, fun records' h => ?_⟩
  · rw [← Option.some.inj (hinterface.symm.trans h), hsettings]
  · rw [← Option.some.inj (hinterface.symm.trans h), hsettings, List.map_map]
    rfl

/-- **Coverage.** The constructor returns a configuration that covers the descriptor exactly when
there is no array of records, or there is a first record and no record after it has alternate
settings. -/
theorem covers_iff (h : descriptor.ddkDescriptor mem = some ddk) :
    (∃ c, ofDescriptor mem descriptor = .ok c ∧ Covers descriptor.deviceId ddk c) ↔
      ∀ records, ddk.interface = some records →
        records ≠ [] ∧ ∀ record ∈ records.tail, record.numAltsetting = 0 := by
  cases hi : ddk.interface with
  | none =>
    have hnone : ∀ records, ddk.interface ≠ some records := by simp [hi]
    refine iff_of_true ⟨_, ofDescriptor_of_null h hi, rfl, ?_, ?_⟩ (fun _ hr => nomatch hr)
    · exact fun records hr => absurd hr (hnone records)
    · exact fun records hr => absurd hr (hnone records)
  | some records =>
    cases records with
    | nil =>
      refine iff_of_false (fun hc => ?_) fun hr => (hr [] rfl).1 rfl
      obtain ⟨c, hc, -⟩ := hc
      rw [ofDescriptor_of_nil h hi] at hc
      cases hc
    | cons alts rest =>
      refine ⟨?_, ?_⟩
      · intro hc records hr
        obtain ⟨c, hc, hcovers⟩ := hc
        rw [ofDescriptor_of_cons h hi] at hc
        obtain rfl := Except.ok.inj hc
        obtain rfl := Option.some.inj hr
        -- The settings after those of the first record are missing, so there are none.
        have hsettings := hcovers.altsettings _ hi
        rw [List.flatMap_cons, List.map_append, List.self_eq_append_right, List.map_eq_nil_iff,
          flatMap_altsetting_eq_nil] at hsettings
        exact ⟨List.cons_ne_nil _ _, hsettings⟩
      · intro hr
        have hrest : rest.flatMap UsbDdkInterface.altsetting = [] :=
          flatMap_altsetting_eq_nil.2 (hr _ rfl).2
        refine ⟨_, ofDescriptor_of_cons h hi, covers_of_attached hi rfl ?_⟩
        rw [List.flatMap_cons, hrest, List.append_nil]

/-- The instance at one interface with two alternate settings, the second one with an endpoint. -/
theorem covers_iff_one_interface : ∃ (ddk : UsbDdkConfigDescriptor) (c : USBConfig),
    ddk.interface =
        some [⟨2, [⟨⟨9, 4, 0, 0, 0, 3, 0, 0, 0⟩, []⟩, ⟨⟨9, 4, 0, 1, 1, 3, 0, 0, 0⟩, [7]⟩], rfl⟩] ∧
      ofDescriptor (fun _ : ℕ => ddk) ⟨7, 1, some ⟨7, 1, 100⟩⟩ = .ok c ∧ Covers 7 ddk c := by
  let ddk : UsbDdkConfigDescriptor :=
    ⟨⟨1⟩, some [⟨2, [⟨⟨9, 4, 0, 0, 0, 3, 0, 0, 0⟩, []⟩, ⟨⟨9, 4, 0, 1, 1, 3, 0, 0, 0⟩, [7]⟩], rfl⟩],
      fun _ h => Option.some.inj h ▸ rfl⟩
  have hcovers := (@covers_iff ℕ (fun _ => ddk) ⟨7, 1, some ⟨7, 1, 100⟩⟩ ddk rfl).2
  obtain ⟨c, hc⟩ := hcovers fun records hr => by
    obtain rfl := Option.some.inj hr
    exact ⟨List.cons_ne_nil _ _, fun record hrecord => nomatch hrecord⟩
  exact ⟨ddk, c, rfl, hc⟩

/-- Of two interfaces with one alternate setting each, the second one's is left out. -/
theorem not_covers : ¬ ∀ (mem : ℕ → UsbDdkConfigDescriptor) (descriptor : Descriptor ℕ)
    (ddk : UsbDdkConfigDescriptor), descriptor.ddkDescriptor mem = some ddk →
      ∃ c, ofDescriptor mem descriptor = .ok c ∧ Covers descriptor.deviceId ddk c := by
  intro h
  let ddk : UsbDdkConfigDescriptor :=
    ⟨⟨2⟩, some [⟨1, [⟨⟨9, 4, 0, 0, 0, 3, 0, 0, 0⟩, []⟩], rfl⟩,
      ⟨1, [⟨⟨9, 4, 1, 0, 0, 3, 0, 0, 0⟩, []⟩], rfl⟩], fun _ h => Option.some.inj h ▸ rfl⟩
  have hddk : Descriptor.ddkDescriptor (fun _ : ℕ => ddk) ⟨7, 1, some ⟨7, 1, 100⟩⟩ = some ddk := rfl
  obtain ⟨c, hc, hcovers⟩ := h _ _ ddk hddk
  rw [ofDescriptor_of_cons hddk rfl] at hc
  obtain rfl := Except.ok.inj hc
  exact absurd (hcovers.altsettings _ rfl) (by decide)

end USBConfig

end OhosWrapper.Usb
