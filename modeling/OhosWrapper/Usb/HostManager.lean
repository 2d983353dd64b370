import OhosWrapper.Lib.UnorderedMap
import OhosWrapper.Usb.Device

/-!
# The device registry

`USBHostManager` keeps devices in an `unordered_map` under their ids. `deviceOf` looks a device up
by its id, `findDevice` by its identifier, in a loop over the map. `addDevice` inserts with
`emplace`, which does nothing if the id is there already, and does not look at identifiers.

**Devices (`DeviceObject`).** A device has pointers to its configurations, and what is claimed is
claimed below them. So two devices are the same if they have the same members and the same
pointers, which a copy has; devices with like trees in different places are not the same.

**Registered devices.** After any calls of `addDevice`, the device under an id is the one that was
added first (`deviceOf_addAll`).

**Theorem (`lookups_agree_iff`).** The two lookups agree in every iteration order of the map
exactly when registered devices with the same bus number and device address are the same.

**Theorem (`last_update_iff`).** The device under each id is the one that was added last exactly
when that one is the same as the first.
-/

namespace OhosWrapper.Usb

/-- `std::out_of_range`. -/
inductive OutOfRange
  | out_of_range
  deriving DecidableEq, Repr

/-- A device: its own members, and what it has for `configs_`, such as a vector of pointers. The
member `configs_` of `own` stands for nothing, and is empty in devices that are constructed. -/
structure DeviceObject (π : Type) where
  own : USBDevice
  configs_ : π
  deriving DecidableEq

structure USBHostManager (π : Type) where
  devices_ : UnorderedMap UInt64 (DeviceObject π) := ∅

variable {π : Type}

namespace USBHostManager

/-! ## The class -/

def addDevice (m : USBHostManager π) (deviceId : UInt64) (device : DeviceObject π) :
    USBHostManager π :=
  { m with devices_ := m.devices_.emplace deviceId device }

/-- `devices_.at(deviceId)`. -/
def deviceOf (m : USBHostManager π) (deviceId : UInt64) : Except OutOfRange (DeviceObject π) :=
  match m.devices_.lookup deviceId with
  | some device => .ok device
  | none => .error .out_of_range

/-- A loop over `devices_`, in the order `order`. -/
def findDevice (order : List (Σ _ : UInt64, DeviceObject π)) (identifier : String) :
    Option (DeviceObject π) :=
  UnorderedMap.find (fun device => device.own.identifier == identifier) order

/-! ## Calls of `addDevice` -/

/-- The manager after calls of `addDevice`. -/
def addAll (calls : List (UInt64 × DeviceObject π)) : USBHostManager π :=
  calls.foldl (fun m c => m.addDevice c.1 c.2) {}

/-- The device that was given for the id in the first call. -/
def firstAdded (calls : List (UInt64 × DeviceObject π)) (deviceId : UInt64) :
    Option (DeviceObject π) :=
  calls.lookup deviceId

/-- The device that was given for the id in the last call. -/
def lastAdded (calls : List (UInt64 × DeviceObject π)) (deviceId : UInt64) :
    Option (DeviceObject π) :=
  calls.reverse.lookup deviceId

variable {calls : List (UInt64 × DeviceObject π)} {id : UInt64} {d : DeviceObject π}

theorem devices_addAll (calls : List (UInt64 × DeviceObject π)) :
    (addAll calls).devices_ = UnorderedMap.emplaceAll calls := by
  induction calls using List.reverseRecOn with
  | nil => rfl
  | append_singleton calls c ih =>
    rw [addAll, List.foldl_append, List.foldl_cons, List.foldl_nil, ← addAll, addDevice, ih,
      UnorderedMap.emplaceAll_concat]

theorem lookup_devices (calls : List (UInt64 × DeviceObject π)) (id : UInt64) :
    (addAll calls).devices_.lookup id = firstAdded calls id := by
  rw [devices_addAll]
  exact UnorderedMap.lookup_emplaceAll calls id

/-- **The first device stays.** -/
theorem deviceOf_addAll : (addAll calls).deviceOf id = .ok d ↔ firstAdded calls id = some d := by
  rw [deviceOf, lookup_devices]
  cases firstAdded calls id with
  | none => simp
  | some d' => simp

theorem deviceOf_throws :
    (addAll calls).deviceOf id = .error .out_of_range ↔ firstAdded calls id = none := by
  rw [deviceOf, lookup_devices]
  cases firstAdded calls id with
  | none => simp
  | some d' => simp

/-! ## The two lookups -/

/-- A registered device is found by its own identifier, and an identifier finds nothing exactly if
no registered device has it. -/
structure LookupsAgree (m : USBHostManager π) : Prop where
  own : ∀ id d, m.deviceOf id = .ok d →
    ∀ order, m.devices_.IterationOrder order → findDevice order d.own.identifier = some d
  nothing : ∀ x order, m.devices_.IterationOrder order →
    (findDevice order x = none ↔ ∀ id d, m.deviceOf id = .ok d → d.own.identifier ≠ x)

theorem findDevice_eq_none (x : String) {order : List (Σ _ : UInt64, DeviceObject π)}
    (h : (addAll calls).devices_.IterationOrder order) : findDevice order x = none ↔
      ∀ id d, (addAll calls).deviceOf id = .ok d → d.own.identifier ≠ x := by
  rw [findDevice, UnorderedMap.find_eq_none_iff h]
  refine forall_congr' fun id => forall_congr' fun d => ?_
  rw [lookup_devices, deviceOf_addAll, beq_eq_false_iff_ne]

/-- **Agreement of the lookups.** After any calls of `addDevice` it holds exactly when any two
registered devices with the same bus number and device address are the same. -/
theorem lookups_agree_iff (calls : List (UInt64 × DeviceObject π)) :
    (addAll calls).LookupsAgree ↔ ∀ id id' d d', firstAdded calls id = some d →
      firstAdded calls id' = some d' → d.own.busNum = d'.own.busNum →
        d.own.devAddr = d'.own.devAddr → d = d' := by
  refine ⟨?_, ?_⟩
  · intro h id id' d d' hd hd' hbus haddr
    have honly := (UnorderedMap.forall_find_iff.1 (h.own id d (deviceOf_addAll.2 hd))).2 id' d'
    rw [lookup_devices, beq_iff_eq, USBDevice.identifier_eq_iff] at honly
    exact (honly hd' ⟨hbus.symm, haddr.symm⟩).symm
  · intro h
    refine ⟨fun id d hd => ?_, fun x order horder => findDevice_eq_none x horder⟩
    rw [deviceOf_addAll] at hd
    refine UnorderedMap.forall_find_iff.2 ⟨⟨id, by rw [lookup_devices, hd], by simp⟩, ?_⟩
    intro id' d' hd' hident
    rw [lookup_devices] at hd'
    obtain ⟨hbus, haddr⟩ := USBDevice.identifier_eq_iff.1 (beq_iff_eq.1 hident)
    exact h id' id d' d hd' hd hbus haddr

/-- Two devices that were built from their ids have the same identifier. -/
theorem not_lookups_agree :
    ¬ ∀ calls : List (UInt64 × DeviceObject (List ℕ)), (addAll calls).LookupsAgree := by
  intro h
  have hown := (h [(1, ⟨.ofId 1, []⟩), (2, ⟨.ofId 2, []⟩)]).own 1 ⟨.ofId 1, []⟩ rfl
  obtain ⟨-, honly⟩ := UnorderedMap.forall_find_iff.1 hown
  exact absurd (honly 2 ⟨.ofId 2, []⟩ rfl (by decide)) (by decide)

/-! ## Repeated ids -/

/-- The device under an id is the last one that was added, a call leaves the other ids alone, and
exactly the ids that were never added throw. -/
structure LastUpdate (calls : List (UInt64 × DeviceObject π)) : Prop where
  last : ∀ id d, lastAdded calls id = some d → (addAll calls).deviceOf id = .ok d
  untouched : ∀ pre c post, calls = pre ++ c :: post → ∀ id, id ≠ c.1 →
    (addAll (pre ++ [c])).deviceOf id = (addAll pre).deviceOf id
  throws : ∀ id, (addAll calls).deviceOf id = .error .out_of_range ↔ id ∉ calls.map Prod.fst

theorem lookup_eq_none : calls.lookup id = none ↔ id ∉ calls.map Prod.fst := by
  rw [List.lookup_eq_none_iff, List.mem_map]
  refine ⟨?_, ?_⟩
  · intro h hid
    obtain ⟨c, hc, rfl⟩ := hid
    simpa using h c hc
  · intro h c hc
    rw [bne_iff_ne]
    intro hid
    exact h ⟨c, hc, hid.symm⟩

theorem deviceOf_untouched (calls : List (UInt64 × DeviceObject π))
    {c : UInt64 × DeviceObject π} (h : id ≠ c.1) :
    (addAll (calls ++ [c])).deviceOf id = (addAll calls).deviceOf id := by
  have hc : [c].lookup id = none := lookup_eq_none.2 (by simpa using h)
  have hlookup : firstAdded (calls ++ [c]) id = firstAdded calls id := by
    rw [firstAdded, List.lookup_append, hc, Option.or_none, firstAdded]
  rw [deviceOf, deviceOf, lookup_devices, lookup_devices, hlookup]

/-- **No lost update.** It holds exactly when, for each id, the device that was added last is the
same as the one that was added first. -/
theorem last_update_iff (calls : List (UInt64 × DeviceObject π)) :
    LastUpdate calls ↔ ∀ id, lastAdded calls id = firstAdded calls id := by
  refine ⟨?_, ?_⟩
  · intro h id
    cases hlast : lastAdded calls id with
    | some d => exact (deviceOf_addAll.1 (h.last id d hlast)).symm
    | none =>
      rw [lastAdded, lookup_eq_none, List.map_reverse, List.mem_reverse] at hlast
      exact (lookup_eq_none.2 hlast).symm
  · intro h
    refine ⟨fun id d hd => ?_, fun pre c post _ id hid => deviceOf_untouched pre hid, fun id => ?_⟩
    · rw [deviceOf_addAll, ← h id, hd]
    · exact deviceOf_throws.trans lookup_eq_none

/-- A device that is added again under its id is dropped. -/
theorem not_last_update :
    ¬ ∀ calls : List (UInt64 × DeviceObject (List ℕ)), LastUpdate calls := by
  intro h
  have hlast := (h [(7, ⟨.ofId 7, []⟩), (7, ⟨(USBDevice.ofId 7).setBusNum 2, []⟩)]).last 7 _ rfl
  have hfirst : (addAll [(7, (⟨.ofId 7, []⟩ : DeviceObject (List ℕ))),
    (7, ⟨(USBDevice.ofId 7).setBusNum 2, []⟩)]).deviceOf 7 = .ok ⟨.ofId 7, []⟩ :=
      deviceOf_addAll.2 rfl
  rw [hfirst] at hlast
  exact absurd (Except.ok.inj hlast) (by decide)

end USBHostManager

end OhosWrapper.Usb
