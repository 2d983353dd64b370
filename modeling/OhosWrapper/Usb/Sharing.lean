import OhosWrapper.Lib.Transducer
import OhosWrapper.Usb.Objects

/-!
# Devices that share their configurations

`USBDevice` is copied when it is added to the manager and when `deviceOf` returns it. A copy has
members of its own and pointers to the same configurations. So a program that changes a device it
got from the manager changes a copy, and one that changes a configuration of it changes what the
manager has.

**New objects.** The vectors that constructors, `setConfigs`, `setInterfaces` and `setEndpoints` get
hold objects that are made for the call. A vector with pointers out of a tree, as in
`y.setConfigs(x.configs())`, would let two trees have a part in common; such calls are left out.

**Two levels.** A program constructs devices, registers them, copies them, and calls setters on them
and on what `configOf`, `interfaceOf` and `endpointOf` return. It runs on objects in memory
(`Heap.storage`) or on values (`Trees.storage`), where every device has the number of a tree and a
copy has the same number.

**Theorem (`heap_refines_trees`).** Both levels print the same documents and fail in the same calls;
two devices share all of their configurations or none, and nothing is in a tree twice. So, with
vectors of new objects, the pointers amount to this: a copy of a device shares its whole tree, and
nothing else is shared.

**Theorem (`registered_members_fixed`).** The manager returns the members a device had when it was
registered, with what setters had done to it until then, and the tree it has now.
-/

namespace OhosWrapper.Usb

open Nlohmann Forest CountedLoop

/-! ## Programs -/

namespace DeviceObject

variable {π π' : Type}

def map (f : π → π') (d : DeviceObject π) : DeviceObject π' := ⟨d.own, f d.configs_⟩

/-- `toJson`, from the results of `toJson` for the configurations. -/
def toJson (d : DeviceObject π) (configs : List (Option Json)) : Option Json :=
  Serializable.toJson d.own.parsed_
    (.object (d.own.fields ++ Json.arrayField "configs" (configs.map .ofOption)))

/-- The device as a value. -/
theorem toJson_map (d : DeviceObject π) (cs : List USBConfig) :
    d.toJson (cs.map USBConfig.toJson) = (d.own.setConfigs cs).toJson := by
  simp only [toJson, USBDevice.toJson, USBDevice.document, List.map_map]
  rfl

end DeviceObject

/-- A call of a setter on what `configOf(i)`, `interfaceOf(j)` and `endpointOf(k)` lead to. The
objects in the vectors passed to setters are made for the call. -/
inductive Edit
  | config (i : ℕ) (s : USBConfig.Setter)
  | setInterfaces (i : ℕ) (is : List USBInterface)
  | interface (i j : ℕ) (s : USBInterface.Setter)
  | setEndpoints (i j : ℕ) (es : List USBEndpoint)
  | endpoint (i j k : ℕ) (s : USBEndpoint.Setter)

/-- The operations on devices in variables `ι`, of which `construct` stands for the constructors,
with the tree they make. As in `Edit`, the configurations that `setConfigs` gets are made for the
call. -/
inductive DeviceOp (ι : Type)
  | construct (x : ι) (d : USBDevice)
  | addDevice (deviceId : UInt64) (x : ι)
  | deviceOf (x : ι) (deviceId : UInt64)
  | set (x : ι) (s : USBDevice.Setter)
  | setConfigs (x : ι) (cs : List USBConfig)
  | edit (x : ι) (e : Edit)
  | toJson (x : ι)
  | destroy (x : ι)

/-- What a program shows: the documents it writes, and the calls that go wrong. -/
inductive Output
  | document (j : Option Json)
  | fault (f : Fault)

/-- Where configurations are kept: `π` is what a device has of them. -/
structure Storage (M π : Type) where
  make : M → List USBConfig → M × π
  edit : M → π → Edit → Except Fault M
  toJson : M → π → List (Option Json)

structure DeviceWorld (ι M π : Type) where
  memory : M
  locals : ι → Option (DeviceObject π)
  devices_ : UnorderedMap UInt64 (DeviceObject π)

variable {ι M π : Type} [DecidableEq ι]

namespace DeviceWorld

def new (m : M) : DeviceWorld ι M π := ⟨m, fun _ => none, ∅⟩

def put (w : DeviceWorld ι M π) (x : ι) (d : Option (DeviceObject π)) : DeviceWorld ι M π :=
  { w with locals := Function.update w.locals x d }

end DeviceWorld

/-- One operation. Nothing happens to a variable that has no device. -/
def Storage.step (S : Storage M π) (w : DeviceWorld ι M π) :
    DeviceOp ι → DeviceWorld ι M π × List Output
  | .construct x d =>
    let made := S.make w.memory d.configs_
    ({ w with memory := made.1 }.put x (some ⟨d.setConfigs [], made.2⟩), [])
  | .addDevice deviceId x =>
    match w.locals x with
    | some d => ({ w with devices_ := w.devices_.emplace deviceId d }, [])
    | none => (w, [])
  | .deviceOf x deviceId =>
    match w.devices_.lookup deviceId with
    | some d => (w.put x (some d), [])
    | none => (w, [.fault (.thrown .out_of_range)])
  | .set x s =>
    match w.locals x with
    | some d => (w.put x (some ⟨s.apply d.own, d.configs_⟩), [])
    | none => (w, [])
  | .setConfigs x cs =>
    match w.locals x with
    | some d =>
      let made := S.make w.memory cs
      ({ w with memory := made.1 }.put x (some ⟨d.own, made.2⟩), [])
    | none => (w, [])
  | .edit x e =>
    match w.locals x with
    | some d =>
      match S.edit w.memory d.configs_ e with
      | .ok m => ({ w with memory := m }, [])
      | .error f => (w, [.fault f])
    | none => (w, [])
  | .toJson x =>
    match w.locals x with
    | some d => (w, [.document (d.toJson (S.toJson w.memory d.configs_))])
    | none => (w, [])
  | .destroy x => (w.put x none, [])

def Storage.machine (S : Storage M π) : Transducer (DeviceWorld ι M π) (DeviceOp ι) Output :=
  ⟨S.step⟩

/-! ## Objects in memory -/

def Heap.edit (h : Heap) (configs_ : List ℕ) : Edit → Except Fault Heap
  | .config i s => do return h.setConfig (← configOf configs_ i) s
  | .setInterfaces i is => do return h.setInterfaces (← configOf configs_ i) is
  | .interface i j s => do return h.setInterface (← h.interfaceOf (← configOf configs_ i) j) s
  | .setEndpoints i j es => do
    return h.setEndpoints (← h.interfaceOf (← configOf configs_ i) j) es
  | .endpoint i j k s => do
    return h.setEndpoint (← h.endpointOf (← h.interfaceOf (← configOf configs_ i) j) k) s

/-- A device has the addresses of its configurations. -/
def Heap.storage : Storage Heap (List ℕ) where
  make := makeAll Heap.newConfig
  edit := Heap.edit
  toJson h configs_ := configs_.map h.configToJson

/-! ## Values -/

/-- One element of a list is replaced. -/
def atIndex {α : Type} (fault : Fault) (xs : List α) (i : ℕ) (f : α → Except Fault α) :
    Except Fault (List α) :=
  match xs[i]? with
  | some x => (f x).map (xs.set i)
  | none => .error fault

theorem atIndex_some {α : Type} {fault : Fault} {xs : List α} {i : ℕ} {x : α}
    {f : α → Except Fault α} (hx : xs[i]? = some x) :
    atIndex fault xs i f = (f x).map (xs.set i) := by
  rw [atIndex, hx]

theorem atIndex_none {α : Type} {fault : Fault} {xs : List α} {i : ℕ} {f : α → Except Fault α}
    (hx : xs[i]? = none) : atIndex fault xs i f = .error fault := by
  rw [atIndex, hx]

def atConfig (cs : List USBConfig) (i : ℕ) (f : USBConfig → Except Fault USBConfig) :
    Except Fault (List USBConfig) :=
  atIndex (.thrown .out_of_range) cs i f

def atInterface (c : USBConfig) (j : ℕ) (f : USBInterface → Except Fault USBInterface) :
    Except Fault USBConfig :=
  (atIndex (.undefined .outOfBounds) c.interfaces_ j f).map c.setInterfaces

def atEndpoint (i : USBInterface) (k : ℕ) (f : USBEndpoint → Except Fault USBEndpoint) :
    Except Fault USBInterface :=
  (atIndex (.undefined .outOfBounds) i.endpoints_ k f).map i.setEndpoints

/-- What the call does to the configurations as values. -/
def Edit.apply (cs : List USBConfig) : Edit → Except Fault (List USBConfig)
  | .config i s => atConfig cs i fun c => .ok (s.apply c)
  | .setInterfaces i is => atConfig cs i fun c => .ok (c.setInterfaces is)
  | .interface i j s => atConfig cs i fun c => atInterface c j fun f => .ok (s.apply f)
  | .setEndpoints i j es => atConfig cs i fun c => atInterface c j fun f => .ok (f.setEndpoints es)
  | .endpoint i j k s =>
    atConfig cs i fun c => atInterface c j fun f => atEndpoint f k fun e => .ok (s.apply e)

/-- Trees by their numbers. -/
structure Trees where
  tree : ℕ → List USBConfig
  next : ℕ

def Trees.empty : Trees := ⟨fun _ => [], 0⟩

/-- A device has the number of its tree. -/
def Trees.storage : Storage Trees ℕ where
  make t cs := (⟨Function.update t.tree t.next cs, t.next + 1⟩, t.next)
  edit t k e := (e.apply (t.tree k)).map fun cs => { t with tree := Function.update t.tree k cs }
  toJson t k := (t.tree k).map USBConfig.toJson

/-! ## Memory represents trees -/

/-- The configurations of the tree `k` are the objects at the addresses `roots k`, which belong to
no other tree. -/
structure Represents (roots : ℕ → List ℕ) (h : Heap) (t : Trees) : Prop where
  valid : h.Valid
  unshared : Unshared roots
  below : Below h.nextConfig roots
  tree : t.tree = view roots h.readConfig

variable {roots : ℕ → List ℕ} {h h' : Heap} {t : Trees}

theorem represents_empty : Represents (fun _ => []) .empty .empty :=
  ⟨Heap.valid_empty, unshared_nil, below_nil _, rfl⟩

/-- A tree is made, under a new number. -/
theorem Represents.make (hr : Represents roots h t) (cs : List USBConfig) :
    Represents (Function.update roots t.next (makeAll Heap.newConfig h cs).2)
      (makeAll Heap.newConfig h cs).1 ⟨Function.update t.tree t.next cs, t.next + 1⟩ := by
  have hm := Heap.makes_config.makeAll hr.valid cs
  refine ⟨hm.valid, hr.unshared.adopt hr.below hm.nodup (fun a ha => (hm.new a ha).1) _, ?_, ?_⟩
  · exact hr.below.adopt hm.grows.nextConfig (fun a ha => (hm.new a ha).2) _
  · rw [view_adopt, hm.found, hr.below.view_congr hm.grows.config, hr.tree]

/-- A configuration of the tree `k` is changed. -/
theorem Represents.write (hr : Represents roots h t) {k i c : ℕ} {v : USBConfig}
    (hi : (roots k)[i]? = some c) (hv : h'.Valid) (hnext : h'.nextConfig = h.nextConfig)
    (hc : h'.readConfig = Function.update h.readConfig c v) :
    Represents roots h' { t with tree := Function.update t.tree k ((t.tree k).set i v) } := by
  refine ⟨hv, hr.unshared, hnext ▸ hr.below, ?_⟩
  rw [hc, hr.unshared.view_update hi, hr.tree]

theorem Represents.getElem? (hr : Represents roots h t) (k i : ℕ) :
    (t.tree k)[i]? = ((roots k)[i]?).map h.readConfig := by
  rw [hr.tree, getElem?_view]

/-- The call on objects and the call on values fail in the same way, or both succeed. -/
def SameEdit (roots : ℕ → List ℕ) (t : Trees) (k : ℕ) (x : Except Fault Heap)
    (y : Except Fault (List USBConfig)) : Prop :=
  (∃ f, x = .error f ∧ y = .error f) ∨
    ∃ h' cs, x = .ok h' ∧ y = .ok cs ∧
      Represents roots h' { t with tree := Function.update t.tree k cs }

/-- A call on a configuration. -/
theorem Represents.atConfig (hr : Represents roots h t) (k i : ℕ) {x : ℕ → Except Fault Heap}
    {f : USBConfig → Except Fault USBConfig}
    (hf : ∀ c, (roots k)[i]? = some c →
      (∃ fault, x c = .error fault ∧ f (h.readConfig c) = .error fault) ∨
        ∃ h' v, x c = .ok h' ∧ f (h.readConfig c) = .ok v ∧ h'.Valid ∧
          h'.nextConfig = h.nextConfig ∧ h'.readConfig = Function.update h.readConfig c v) :
    SameEdit roots t k (Heap.configOf (roots k) i >>= x) (atConfig (t.tree k) i f) := by
  have hget := hr.getElem? k i
  rw [Heap.configOf, Usb.atConfig]
  cases hi : (roots k)[i]? with
  | none =>
    rw [hi] at hget
    exact Or.inl ⟨_, rfl, atIndex_none hget⟩
  | some c =>
    rw [hi] at hget
    rw [ok_bind, atIndex_some hget]
    rcases hf c hi with ⟨fault, hx, hy⟩ | ⟨h', v, hx, hy, hv, hnext, hc⟩
    · exact Or.inl ⟨fault, hx, by rw [hy]; rfl⟩
    · exact Or.inr ⟨h', _, hx, by rw [hy]; rfl, hr.write hi hv hnext hc⟩

/-- A call on an interface. -/
theorem atInterface_cases (hv : h.Valid) {c j : ℕ} {x : ℕ → Except Fault Heap}
    {f : USBInterface → Except Fault USBInterface}
    (hf : ∀ a, (h.interfaces_ c)[j]? = some a →
      (∃ fault, x a = .error fault ∧ f (h.readInterface a) = .error fault) ∨
        ∃ h' v, x a = .ok h' ∧ f (h.readInterface a) = .ok v ∧ h'.Valid ∧
          h'.nextConfig = h.nextConfig ∧ h'.config = h.config ∧ h'.interfaces_ = h.interfaces_ ∧
          h'.readInterface = Function.update h.readInterface a v) :
    (∃ fault, (h.interfaceOf c j >>= x) = .error fault ∧
        atInterface (h.readConfig c) j f = .error fault) ∨
      ∃ h' v, (h.interfaceOf c j >>= x) = .ok h' ∧ atInterface (h.readConfig c) j f = .ok v ∧
        h'.Valid ∧ h'.nextConfig = h.nextConfig ∧
        h'.readConfig = Function.update h.readConfig c v := by
  have hget : (h.readConfig c).interfaces_[j]? = ((h.interfaces_ c)[j]?).map h.readInterface :=
    getElem?_view _ _ _ _
  rw [Heap.interfaceOf, atInterface]
  cases hj : (h.interfaces_ c)[j]? with
  | none =>
    rw [hj] at hget
    exact Or.inl ⟨_, rfl, by rw [atIndex_none hget]; rfl⟩
  | some a =>
    rw [hj] at hget
    rw [ok_bind, atIndex_some hget]
    rcases hf a hj with ⟨fault, hx, hy⟩ | ⟨h', v, hx, hy, hv', hnext, hc, hp, hi⟩
    · exact Or.inl ⟨fault, hx, by rw [hy]; rfl⟩
    · exact Or.inr ⟨h', _, hx, by rw [hy]; rfl, hv', hnext,
        Heap.readConfig_of_interface hv hc hp hi hj⟩

/-- **Edits.** A call through pointers does to the objects what it does to the values. -/
theorem Represents.edit (hr : Represents roots h t) (k : ℕ) (e : Edit) :
    SameEdit roots t k (h.edit (roots k) e) (e.apply (t.tree k)) := by
  have hv := hr.valid
  cases e with
  | config i s =>
    refine hr.atConfig k i fun c _ => Or.inr ⟨_, _, rfl, rfl, hv.setConfig c s, rfl, ?_⟩
    exact Heap.readConfig_setConfig h c s
  | setInterfaces i is =>
    refine hr.atConfig k i fun c _ => Or.inr ⟨_, _, rfl, rfl, ?_⟩
    obtain ⟨hvalid, hread⟩ := Heap.readConfig_setInterfaces hv c is
    exact ⟨hvalid, (Heap.makeAll_newInterface h is).2.2, hread⟩
  | interface i j s =>
    refine hr.atConfig k i fun c _ => atInterface_cases hv fun a _ => Or.inr ⟨_, _, rfl, rfl,
      hv.setInterface a s, rfl, rfl, rfl, ?_⟩
    exact Heap.readInterface_setInterface h a s
  | setEndpoints i j es =>
    refine hr.atConfig k i fun c _ => atInterface_cases hv fun a _ => Or.inr ⟨_, _, rfl, rfl, ?_⟩
    obtain ⟨hvalid, hread⟩ := Heap.readInterface_setEndpoints hv a es
    obtain ⟨-, -, -, hc, hp, hnext⟩ := Heap.makeAll_newEndpoint h es
    exact ⟨hvalid, hnext, hc, hp, hread⟩
  | endpoint i j k' s =>
    refine hr.atConfig k i fun c _ => atInterface_cases hv fun a _ => ?_
    have hget : (h.readInterface a).endpoints_[k']? = ((h.endpoints_ a)[k']?).map h.endpoint :=
      getElem?_view _ _ _ _
    rw [Heap.endpointOf, atEndpoint]
    cases hk : (h.endpoints_ a)[k']? with
    | none =>
      rw [hk] at hget
      exact Or.inl ⟨_, rfl, by rw [atIndex_none hget]; rfl⟩
    | some b =>
      rw [hk] at hget
      rw [ok_bind, atIndex_some hget]
      exact Or.inr ⟨_, _, rfl, rfl, hv.setEndpoint b s, rfl, rfl, rfl,
        Heap.readInterface_setEndpoint hv hk s⟩

/-! ## Programs on both levels -/

/-- The devices of the two levels have the same members, and the addresses of the objects of their
trees. -/
structure Related (roots : ℕ → List ℕ) (w : DeviceWorld ι Heap (List ℕ))
    (s : DeviceWorld ι Trees ℕ) : Prop where
  represents : Represents roots w.memory s.memory
  locals : ∀ x, w.locals x = (s.locals x).map (.map roots)
  devices : ∀ id, w.devices_.lookup id = (s.devices_.lookup id).map (.map roots)
  locals_lt : ∀ x d, s.locals x = some d → d.configs_ < s.memory.next
  devices_lt : ∀ id d, s.devices_.lookup id = some d → d.configs_ < s.memory.next

variable {w : DeviceWorld ι Heap (List ℕ)} {s : DeviceWorld ι Trees ℕ}

omit [DecidableEq ι] in
theorem related_new :
    Related (fun _ => []) (.new .empty : DeviceWorld ι Heap (List ℕ)) (.new .empty) :=
  ⟨represents_empty, fun _ => rfl, fun _ => rfl, fun _ _ h => (nomatch h), fun _ _ h => nomatch h⟩

theorem Related.put (h : Related roots w s) (x : ι) {d : Option (DeviceObject ℕ)}
    (hd : ∀ d', d = some d' → d'.configs_ < s.memory.next) :
    Related roots (w.put x (d.map (.map roots))) (s.put x d) := by
  refine ⟨h.represents, fun y => ?_, h.devices, fun y d' hd' => ?_, h.devices_lt⟩
  · by_cases hy : y = x
    · subst hy
      simp only [DeviceWorld.put, Function.update_self]
    · simpa only [DeviceWorld.put, Function.update_of_ne hy] using h.locals y
  · by_cases hy : y = x
    · subst hy
      simp only [DeviceWorld.put, Function.update_self] at hd'
      exact hd d' hd'
    · simp only [DeviceWorld.put, Function.update_of_ne hy] at hd'
      exact h.locals_lt y d' hd'

omit [DecidableEq ι] in
/-- A tree is made, and the devices keep theirs. -/
theorem Related.make (h : Related roots w s) (cs : List USBConfig) :
    Related
      (Function.update roots s.memory.next (makeAll Heap.newConfig w.memory cs).2)
      { w with memory := (makeAll Heap.newConfig w.memory cs).1 }
      { s with memory := ⟨Function.update s.memory.tree s.memory.next cs, s.memory.next + 1⟩ } := by
  have hmap : ∀ d : DeviceObject ℕ, d.configs_ < s.memory.next →
      d.map (Function.update roots s.memory.next (makeAll Heap.newConfig w.memory cs).2) =
        d.map roots := by
    intro d hd
    rw [DeviceObject.map, Function.update_of_ne hd.ne, DeviceObject.map]
  refine ⟨h.represents.make cs, fun x => ?_, fun id => ?_, fun x d hd => ?_, fun id d hd => ?_⟩
  · rw [h.locals x]
    exact Option.map_congr fun d hd => (hmap d (h.locals_lt x d hd)).symm
  · rw [h.devices id]
    exact Option.map_congr fun d hd => (hmap d (h.devices_lt id d hd)).symm
  · exact Nat.lt_succ_of_lt (h.locals_lt x d hd)
  · exact Nat.lt_succ_of_lt (h.devices_lt id d hd)

omit [DecidableEq ι] in
/-- A device is added. -/
theorem Related.add (h : Related roots w s) (id : UInt64) {d : DeviceObject ℕ}
    (hd : d.configs_ < s.memory.next) :
    Related roots { w with devices_ := w.devices_.emplace id (d.map roots) }
      { s with devices_ := s.devices_.emplace id d } := by
  refine ⟨h.represents, h.locals, fun id' => ?_, h.locals_lt, fun id' d' hd' => ?_⟩
  · by_cases hid : id' = id
    · subst hid
      simp only [UnorderedMap.lookup_emplace_self, h.devices id']
      cases s.devices_.lookup id' <;> rfl
    · simpa only [UnorderedMap.lookup_emplace_of_ne _ _ hid] using h.devices id'
  · by_cases hid : id' = id
    · subst hid
      simp only [UnorderedMap.lookup_emplace_self, Option.some.injEq] at hd'
      cases hlookup : s.devices_.lookup id' with
      | none =>
        rw [hlookup, Option.getD_none] at hd'
        exact hd' ▸ hd
      | some d₀ =>
        rw [hlookup, Option.getD_some] at hd'
        exact hd' ▸ h.devices_lt id' d₀ hlookup
    · simp only [UnorderedMap.lookup_emplace_of_ne _ _ hid] at hd'
      exact h.devices_lt id' d' hd'

omit [DecidableEq ι] in
/-- What `toJson` writes is the same. -/
theorem Related.toJson (h : Related roots w s) (d : DeviceObject ℕ) :
    (d.map roots).toJson (Heap.storage.toJson w.memory (roots d.configs_)) =
      d.toJson (Trees.storage.toJson s.memory d.configs_) := by
  have hconfigs : Heap.storage.toJson w.memory (roots d.configs_) =
      Trees.storage.toJson s.memory d.configs_ := by
    simp only [Heap.storage, Trees.storage, h.represents.tree, view, List.map_map]
    exact List.map_congr_left fun c _ => Heap.configToJson_eq w.memory c
  rw [hconfigs]
  rfl

/-- **One operation.** -/
theorem Related.step (h : Related roots w s) (op : DeviceOp ι) :
    (∃ roots', Related roots' (Heap.storage.step w op).1 (Trees.storage.step s op).1) ∧
      (Heap.storage.step w op).2 = (Trees.storage.step s op).2 := by
  cases op with
  | construct x d =>
    have hput := (h.make d.configs_).put x (d := some ⟨d.setConfigs [], s.memory.next⟩)
      (fun d' hd' => Option.some.inj hd' ▸ Nat.lt_succ_self _)
    rw [Option.map_some, DeviceObject.map, Function.update_self] at hput
    exact ⟨⟨_, hput⟩, rfl⟩
  | addDevice id x =>
    cases hx : s.locals x with
    | none => simpa [Storage.step, hx, h.locals x] using ⟨_, h⟩
    | some d =>
      simpa [Storage.step, hx, h.locals x] using ⟨_, h.add id (h.locals_lt x d hx)⟩
  | deviceOf x id =>
    cases hid : s.devices_.lookup id with
    | none => simpa [Storage.step, hid, h.devices id] using ⟨_, h⟩
    | some d =>
      have hput := h.put x (d := some d) fun d' hd' => Option.some.inj hd' ▸ h.devices_lt id d hid
      simpa [Storage.step, hid, h.devices id] using ⟨_, hput⟩
  | set x f =>
    cases hx : s.locals x with
    | none => simpa [Storage.step, hx, h.locals x] using ⟨_, h⟩
    | some d =>
      have hput := h.put x (d := some ⟨f.apply d.own, d.configs_⟩)
        fun d' hd' => Option.some.inj hd' ▸ h.locals_lt x d hx
      simpa [Storage.step, hx, h.locals x, DeviceObject.map] using ⟨_, hput⟩
  | setConfigs x cs =>
    cases hx : s.locals x with
    | none => simpa [Storage.step, hx, h.locals x] using ⟨_, h⟩
    | some d =>
      have hput := (h.make cs).put x (d := some ⟨d.own, s.memory.next⟩)
        (fun d' hd' => Option.some.inj hd' ▸ Nat.lt_succ_self _)
      rw [Option.map_some, DeviceObject.map, Function.update_self] at hput
      simpa [Storage.step, hx, h.locals x, DeviceObject.map] using ⟨_, hput⟩
  | edit x e =>
    cases hx : s.locals x with
    | none => simpa [Storage.step, hx, h.locals x] using ⟨_, h⟩
    | some d =>
      rcases h.represents.edit d.configs_ e with ⟨f, hheap, htree⟩ | ⟨h', cs, hheap, htree, hr⟩
      · simp only [Storage.step, hx, h.locals x, Option.map_some, DeviceObject.map, Heap.storage,
          Trees.storage, hheap, htree, Except.map]
        exact ⟨⟨_, h⟩, trivial⟩
      · simp only [Storage.step, hx, h.locals x, Option.map_some, DeviceObject.map, Heap.storage,
          Trees.storage, hheap, htree, Except.map]
        exact ⟨⟨_, hr, h.locals, h.devices, h.locals_lt, h.devices_lt⟩, trivial⟩
  | toJson x =>
    cases hx : s.locals x with
    | none => simpa [Storage.step, hx, h.locals x] using ⟨_, h⟩
    | some d =>
      have hjson := h.toJson d
      simp only [Storage.step, hx, h.locals x, Option.map_some]
      exact ⟨⟨_, h⟩, by rw [← hjson]; rfl⟩
  | destroy x => exact ⟨⟨_, h.put x (d := none) fun _ hd => nomatch hd⟩, rfl⟩

/-- Programs keep the levels related, and show the same on both. -/
theorem run_related (ops : List (DeviceOp ι)) :
    (∃ roots, Related roots (Heap.storage.machine.state (.new .empty) ops)
      (Trees.storage.machine.state (.new .empty) ops)) ∧
    Heap.storage.machine.output (.new .empty) ops =
      Trees.storage.machine.output (.new .empty) ops := by
  have hstep : ∀ (w : DeviceWorld ι Heap (List ℕ)) (s : DeviceWorld ι Trees ℕ) (op : DeviceOp ι),
      (∃ roots, Related roots w s) →
      (∃ roots, Related roots (Heap.storage.machine.step w op).1
        (Trees.storage.machine.step s op).1) ∧
      (Heap.storage.machine.step w op).2.filterMap some = (Trees.storage.machine.step s op).2 := by
    rintro w s op ⟨roots, h⟩
    rw [List.filterMap_some]
    exact h.step op
  have hrun := Transducer.simulate hstep ⟨_, related_new⟩ ops
  rwa [List.filterMap_some] at hrun

/-- A device of the program or of the manager. -/
def DeviceWorld.Has (w : DeviceWorld ι M π) (d : DeviceObject π) : Prop :=
  (∃ x, w.locals x = some d) ∨ ∃ id, w.devices_.lookup id = some d

omit [DecidableEq ι] in
/-- The configurations of a device are those of a tree. -/
theorem Related.exists_tree (h : Related roots w s) {d : DeviceObject (List ℕ)} (hd : w.Has d) :
    ∃ k, roots k = d.configs_ := by
  rcases hd with ⟨x, hx⟩ | ⟨id, hid⟩
  · obtain ⟨d', -, rfl⟩ := Option.map_eq_some_iff.1 ((h.locals x).symm.trans hx)
    exact ⟨d'.configs_, rfl⟩
  · obtain ⟨d', -, rfl⟩ := Option.map_eq_some_iff.1 ((h.devices id).symm.trans hid)
    exact ⟨d'.configs_, rfl⟩

omit [DecidableEq ι] in
/-- No configuration is in a device twice. -/
theorem Related.nodup (h : Related roots w s) {d : DeviceObject (List ℕ)} (hd : w.Has d) :
    d.configs_.Nodup := by
  obtain ⟨k, hk⟩ := h.exists_tree hd
  exact hk ▸ h.represents.unshared.nodup k

omit [DecidableEq ι] in
/-- Two devices have the same configurations, or none in common. -/
theorem Related.same_or_disjoint (h : Related roots w s) {d d' : DeviceObject (List ℕ)}
    (hd : w.Has d) (hd' : w.Has d') :
    d.configs_ = d'.configs_ ∨ d.configs_.Disjoint d'.configs_ := by
  obtain ⟨k, hk⟩ := h.exists_tree hd
  obtain ⟨k', hk'⟩ := h.exists_tree hd'
  rw [← hk, ← hk']
  by_cases hne : k = k'
  · exact Or.inl (congrArg roots hne)
  · exact Or.inr (h.represents.unshared.disjoint k k' hne)

/-- **A copy of a device shares its tree.** With vectors of new objects, a program on objects in
memory shows what it shows on trees, where a copy has the number of the tree. Two devices share all
of their configurations or none, and nothing is in a tree twice. -/
theorem heap_refines_trees (ops : List (DeviceOp ι)) :
    let w := Heap.storage.machine.state (.new .empty) ops
    Heap.storage.machine.output (.new .empty) ops =
        Trees.storage.machine.output (.new .empty) ops ∧
      (∀ d, w.Has d → d.configs_.Nodup ∧ ∀ d', w.Has d' →
        d.configs_ = d'.configs_ ∨ d.configs_.Disjoint d'.configs_) ∧
      w.memory.Valid := by
  intro w
  obtain ⟨⟨roots, h⟩, hshown⟩ := run_related ops
  exact ⟨hshown, fun _ hd => ⟨h.nodup hd, fun _ hd' => h.same_or_disjoint hd hd'⟩,
    h.represents.valid⟩

/-! ## What the manager has -/

/-- The operation gives `x` another device. -/
def DeviceOp.Reassigns (x : ι) : DeviceOp ι → Prop
  | .construct y _ | .deviceOf y _ | .destroy y => y = x
  | .addDevice .. | .set .. | .setConfigs .. | .edit .. | .toJson _ => False

/-- The operation gives `x` another device, or another tree. -/
def DeviceOp.Rebinds (x : ι) : DeviceOp ι → Prop
  | .construct y _ | .deviceOf y _ | .setConfigs y _ | .destroy y => y = x
  | .addDevice .. | .set .. | .edit .. | .toJson _ => False

omit [DecidableEq ι] in
theorem DeviceOp.not_reassigns {x : ι} {op : DeviceOp ι} (h : ¬ op.Rebinds x) :
    ¬ op.Reassigns x := by
  cases op with
  | construct | deviceOf | destroy => exact h
  | addDevice | set | setConfigs | edit | toJson => exact id

/-- The members of the device in `x` after the operation. -/
def DeviceOp.own (x : ι) (d : USBDevice) : DeviceOp ι → USBDevice
  | .set y s => if y = x then s.apply d else d
  | _ => d

theorem DeviceOp.own_configs (x : ι) (d : USBDevice) (cs : List USBConfig) (op : DeviceOp ι) :
    op.own x (d.setConfigs cs) = (op.own x d).setConfigs cs := by
  cases op with
  | set y s =>
    simp only [own]
    split_ifs
    · exact s.apply_configs d cs
    · rfl
  | _ => rfl

theorem DeviceOp.foldl_own_configs (x : ι) (d : USBDevice) (cs : List USBConfig)
    (ops : List (DeviceOp ι)) :
    ops.foldl (own x) (d.setConfigs cs) = (ops.foldl (own x) d).setConfigs cs := by
  induction ops generalizing d with
  | nil => rfl
  | cons op ops ih => rw [List.foldl_cons, List.foldl_cons, own_configs, ih]

namespace Storage

variable (S : Storage M π) {v : DeviceWorld ι M π} {id : UInt64} {d : DeviceObject π}

theorem output_of_step {v' : DeviceWorld ι M π} {op : DeviceOp ι} {o : List Output}
    (h : S.step v op = (v', o)) (ops : List (DeviceOp ι)) :
    S.machine.output v (op :: ops) = o ++ S.machine.output v' ops := by
  rw [Transducer.output_cons, show S.machine.step v op = (v', o) from h]

theorem output_of_silent {op : DeviceOp ι} (h : (S.step v op).2 = []) (ops : List (DeviceOp ι)) :
    S.machine.output v (op :: ops) = S.machine.output (S.step v op).1 ops := by
  rw [Transducer.output_cons, show (S.machine.step v op).2 = [] from h, List.nil_append]
  rfl

theorem step_addDevice {x : ι} (hx : v.locals x = some d) :
    S.step v (.addDevice id x) = ({ v with devices_ := v.devices_.emplace id d }, []) := by
  rw [step, hx]

theorem step_deviceOf (hid : v.devices_.lookup id = some d) (x : ι) :
    S.step v (.deviceOf x id) = (v.put x (some d), []) := by
  rw [step, hid]

theorem step_edit {x : ι} (hx : v.locals x = some d) {e : Edit} {m : M}
    (he : S.edit v.memory d.configs_ e = .ok m) :
    S.step v (.edit x e) = ({ v with memory := m }, []) := by
  rw [step, hx]
  simp only [he]

theorem step_toJson {x : ι} (hx : v.locals x = some d) :
    S.step v (.toJson x) = (v, [.document (d.toJson (S.toJson v.memory d.configs_))]) := by
  rw [step, hx]

/-- Other registrations do not register `id`. -/
theorem step_unregistered (hid : v.devices_.lookup id = none) {op : DeviceOp ι}
    (hop : ∀ x, op ≠ .addDevice id x) : (S.step v op).1.devices_.lookup id = none := by
  cases op with
  | addDevice id' x =>
    have hne : id ≠ id' := fun h => hop x (h ▸ rfl)
    simp only [step]
    split
    · rwa [UnorderedMap.lookup_emplace_of_ne _ _ hne]
    · exact hid
  | _ => simp only [step]; (repeat' split) <;> exact hid

/-- What is registered stays. -/
theorem step_registered (hid : v.devices_.lookup id = some d) (op : DeviceOp ι) :
    (S.step v op).1.devices_.lookup id = some d := by
  cases op with
  | addDevice id' x =>
    simp only [step]
    split
    · by_cases hne : id = id'
      · subst hne
        rw [UnorderedMap.lookup_emplace_self, hid, Option.getD_some]
      · rwa [UnorderedMap.lookup_emplace_of_ne _ _ hne]
    · exact hid
  | _ => simp only [step]; (repeat' split) <;> exact hid

/-- The variable keeps its device, and setters change the members. -/
theorem step_kept {x : ι} (hx : v.locals x = some d) {op : DeviceOp ι} (hop : ¬ op.Reassigns x) :
    ∃ p, (S.step v op).1.locals x = some ⟨op.own x d.own, p⟩ ∧
      (¬ op.Rebinds x → p = d.configs_) := by
  have hput : ∀ {y} (_ : ¬ y = x) (d' : Option (DeviceObject π)) (m : M),
      (({ v with memory := m }).put y d').locals x = some d := by
    intro y hy d' m
    exact (Function.update_of_ne (Ne.symm hy) _ _).trans hx
  have hsame : ∀ {v' : DeviceWorld ι M π}, v'.locals x = some d →
      ∃ p, v'.locals x = some ⟨d.own, p⟩ ∧ (¬ op.Rebinds x → p = d.configs_) :=
    fun h => ⟨d.configs_, h, fun _ => rfl⟩
  cases op with
  | construct y d' => exact hsame (hput hop _ _)
  | deviceOf y id =>
    simp only [step]
    split
    · exact hsame (hput hop _ v.memory)
    · exact hsame hx
  | set y s =>
    simp only [step, DeviceOp.own]
    split_ifs with hy
    · subst hy
      simp only [hx, DeviceWorld.put, Function.update_self]
      exact ⟨d.configs_, rfl, fun _ => rfl⟩
    · split
      · exact hsame (hput hy _ v.memory)
      · exact hsame hx
  | setConfigs y cs =>
    simp only [step]
    by_cases hy : y = x
    · subst hy
      simp only [hx, DeviceWorld.put, Function.update_self]
      exact ⟨_, rfl, fun h => absurd rfl h⟩
    · split
      · exact hsame (hput hy _ _)
      · exact hsame hx
  | destroy y => exact hsame (hput hop _ v.memory)
  | addDevice id y => simp only [step]; split <;> exact hsame hx
  | edit y e => simp only [step]; (repeat' split) <;> exact hsame hx
  | toJson y => simp only [step]; split <;> exact hsame hx

theorem state_unregistered (hid : v.devices_.lookup id = none) {ops : List (DeviceOp ι)}
    (hops : ∀ x, .addDevice id x ∉ ops) : (S.machine.state v ops).devices_.lookup id = none := by
  induction ops generalizing v with
  | nil => exact hid
  | cons op ops ih =>
    refine ih (S.step_unregistered hid fun x hop => ?_) fun x hx => ?_
    · exact hops x (hop ▸ List.mem_cons_self)
    · exact hops x (List.mem_cons_of_mem _ hx)

theorem state_registered (hid : v.devices_.lookup id = some d) (ops : List (DeviceOp ι)) :
    (S.machine.state v ops).devices_.lookup id = some d := by
  induction ops generalizing v with
  | nil => exact hid
  | cons op ops ih => exact ih (S.step_registered hid op)

theorem state_kept {x : ι} (hx : v.locals x = some d) {ops : List (DeviceOp ι)}
    (hops : ∀ op ∈ ops, ¬ op.Reassigns x) :
    ∃ p, (S.machine.state v ops).locals x = some ⟨ops.foldl (DeviceOp.own x) d.own, p⟩ ∧
      ((∀ op ∈ ops, ¬ op.Rebinds x) → p = d.configs_) := by
  induction ops generalizing v d with
  | nil => exact ⟨d.configs_, hx, fun _ => rfl⟩
  | cons op ops ih =>
    obtain ⟨p, hp, hsame⟩ := S.step_kept hx (hops op List.mem_cons_self)
    obtain ⟨p', hp', hsame'⟩ := ih hp fun op' hop' => hops op' (List.mem_cons_of_mem _ hop')
    refine ⟨p', hp', fun h => ?_⟩
    rw [hsame' fun op' hop' => h op' (List.mem_cons_of_mem _ hop')]
    exact hsame (h op List.mem_cons_self)

/-- A device is constructed and, some time later, registered. -/
theorem state_construct_addDevice {before between after : List (DeviceOp ι)} {x : ι}
    {d : USBDevice} (hid : v.devices_.lookup id = none) (hbefore : ∀ y, .addDevice id y ∉ before)
    (hbetween : ∀ op ∈ between, ¬ op.Reassigns x) (hfree : ∀ y, .addDevice id y ∉ between)
    (hafter : ∀ op ∈ after, ¬ op.Rebinds x) :
    let s := S.machine.state v
      (before ++ .construct x d :: between ++ .addDevice id x :: after)
    let registered := between.foldl (DeviceOp.own x) (d.setConfigs [])
    ∃ p, s.locals x = some ⟨after.foldl (DeviceOp.own x) registered, p⟩ ∧
      s.devices_.lookup id = some ⟨registered, p⟩ := by
  intro s registered
  have hnone := S.state_unregistered hid hbefore
  simp only [s]
  rw [Transducer.state_append, Transducer.state_append, Transducer.state_cons,
    Transducer.state_cons]
  generalize S.machine.state v before = v' at hnone
  have hx : (S.step v' (.construct x d)).1.locals x =
      some ⟨d.setConfigs [], (S.make v'.memory d.configs_).2⟩ := by
    simp only [step, DeviceWorld.put, Function.update_self]
  have hlookup : (S.step v' (.construct x d)).1.devices_.lookup id = none :=
    S.step_unregistered hnone fun y => nofun
  obtain ⟨p, hp, -⟩ := S.state_kept hx hbetween
  have hfree' := S.state_unregistered hlookup hfree
  change (S.machine.state (S.machine.step v' _).1 between).locals x = _ at hp
  change (S.machine.state (S.machine.step v' _).1 between).devices_.lookup id = _ at hfree'
  generalize S.machine.state (S.machine.step v' (.construct x d)).1 between = t at hp hfree'
  have hadd : S.step t (.addDevice id x) = _ := S.step_addDevice hp
  have hxt : (S.step t (.addDevice id x)).1.locals x = some ⟨registered, p⟩ :=
    (congrArg (fun r => r.1.locals x) hadd).trans hp
  have hidt : (S.step t (.addDevice id x)).1.devices_.lookup id = some ⟨registered, p⟩ := by
    refine (congrArg (fun r => r.1.devices_.lookup id) hadd).trans ?_
    rw [UnorderedMap.lookup_emplace_self, hfree', Option.getD_none]
  obtain ⟨p', hp', hsame⟩ := S.state_kept hxt
    fun op hop => DeviceOp.not_reassigns (hafter op hop)
  rw [hsame hafter] at hp'
  exact ⟨p, hp', S.state_registered hidt after⟩

end Storage

/-- What a program on objects in memory shows. -/
def printed (ops : List (DeviceOp ι)) : List Output :=
  Heap.storage.machine.output (.new .empty) ops

/-- **The manager has the members of the time of the registration, and the tree of now.** Between
its construction and its registration the device in `x` may be changed in any way. What is done to
`x` afterwards changes the members of `x` only, and what is done to the tree through `x`, or through
what the manager returns, is seen by both. -/
theorem registered_members_fixed {before between after : List (DeviceOp ι)} {x : ι} {d : USBDevice}
    {id : UInt64} (hbefore : ∀ y, .addDevice id y ∉ before)
    (hbetween : ∀ op ∈ between, ¬ op.Reassigns x) (hfree : ∀ y, .addDevice id y ∉ between)
    (hafter : ∀ op ∈ after, ¬ op.Rebinds x) :
    let ops := before ++ .construct x d :: between ++ .addDevice id x :: after
    let registered := between.foldl (DeviceOp.own x) d
    let own := after.foldl (DeviceOp.own x) registered
    ∃ cs,
      (∀ y, printed (ops ++ [.deviceOf y id, .toJson y]) =
        printed ops ++ [.document (registered.setConfigs cs).toJson]) ∧
      printed (ops ++ [.toJson x]) = printed ops ++ [.document (own.setConfigs cs).toJson] ∧
      ∀ (e : Edit) (cs' : List USBConfig), e.apply cs = .ok cs' →
        (∀ y, printed (ops ++ [.edit x e, .deviceOf y id, .toJson y]) =
          printed ops ++ [.document (registered.setConfigs cs').toJson]) ∧
        ∀ y ≠ x, printed (ops ++ [.deviceOf y id, .edit y e, .toJson x]) =
          printed ops ++ [.document (own.setConfigs cs').toJson] := by
  intro ops registered own
  obtain ⟨k, hx, hid⟩ := Trees.storage.state_construct_addDevice (v := .new .empty) (x := x)
    (d := d) rfl hbefore hbetween hfree hafter
  rw [DeviceOp.foldl_own_configs, DeviceOp.foldl_own_configs] at hx
  rw [DeviceOp.foldl_own_configs] at hid
  change (Trees.storage.machine.state _ ops).locals x = some ⟨own.setConfigs [], k⟩ at hx
  change (Trees.storage.machine.state _ ops).devices_.lookup id =
    some ⟨registered.setConfigs [], k⟩ at hid
  have hprinted : ∀ more, printed (ops ++ more) = printed ops ++
      Trees.storage.machine.output (Trees.storage.machine.state (.new .empty) ops) more := by
    intro more
    rw [printed, printed, (run_related _).2, (run_related _).2, Transducer.output_append]
  generalize Trees.storage.machine.state (.new .empty) ops = s at hx hid hprinted
  have hshown : ∀ (s' : DeviceWorld ι Trees ℕ) {y : ι} {d' : USBDevice},
      s'.locals y = some ⟨d', k⟩ → Trees.storage.machine.output s' [.toJson y] =
        [.document (d'.setConfigs (s'.memory.tree k)).toJson] := by
    intro s' y d' hy
    rw [Storage.output_of_step _ (Storage.step_toJson _ hy), ← DeviceObject.toJson_map ⟨d', k⟩]
    rfl
  have hput : ∀ (s' : DeviceWorld ι Trees ℕ) (y : ι) (d' : DeviceObject ℕ),
      (s'.put y (some d')).locals y = some d' := fun s' y d' => Function.update_self _ _ _
  refine ⟨s.memory.tree k, fun y => ?_, ?_, fun e cs' he => ?_⟩
  · rw [hprinted, Storage.output_of_step _ (Storage.step_deviceOf _ hid y), List.nil_append,
      hshown _ (hput _ _ _)]
    rfl
  · rw [hprinted, hshown s hx]
    rfl
  obtain ⟨t, ht, htree⟩ : ∃ t, Trees.storage.edit s.memory k e = .ok t ∧ t.tree k = cs' := by
    refine ⟨{ s.memory with tree := Function.update s.memory.tree k cs' }, ?_, ?_⟩
    · simp only [Trees.storage, he, Except.map]
    · exact Function.update_self k cs' s.memory.tree
  refine ⟨fun y => ?_, fun y hy => ?_⟩
  · rw [hprinted, Storage.output_of_step _ (Storage.step_edit _ hx ht), List.nil_append,
      Storage.output_of_step _ (Storage.step_deviceOf (v := { s with memory := t }) _ hid y),
      List.nil_append, hshown _ (hput _ _ _)]
    simp only [DeviceWorld.put, htree]
    rfl
  · have hx' : (s.put y (some ⟨registered.setConfigs [], k⟩)).locals x = s.locals x :=
      Function.update_of_ne (Ne.symm hy) _ _
    rw [hprinted, Storage.output_of_step _ (Storage.step_deviceOf _ hid y), List.nil_append,
      Storage.output_of_step _ (Storage.step_edit _ (hput _ _ _) ht), List.nil_append,
      hshown { s.put y (some ⟨registered.setConfigs [], k⟩) with memory := t } (hx'.trans hx)]
    simp only [htree]
    rfl

/-- The name is changed before the device is registered and after it, and its configuration too. -/
theorem registered_members_fixed_renamed :
    ∃ cs, printed [DeviceOp.construct 0 (USBDevice.ofId 7), .set 0 (.setName "a"),
        .setConfigs 0 [.ofIndex 7 0], .addDevice 1 0, .set 0 (.setName "b"),
        .edit 0 (.config 0 (.setName "c")), .deviceOf 1 1, .toJson 1] =
      printed [DeviceOp.construct 0 (USBDevice.ofId 7), .set 0 (.setName "a"),
        .setConfigs 0 [.ofIndex 7 0], .addDevice 1 0, .set 0 (.setName "b"),
        .edit 0 (.config 0 (.setName "c"))] ++
        [.document (((USBDevice.ofId 7).setName "a").setConfigs cs).toJson] :=
  have ⟨cs, h, _⟩ := @registered_members_fixed ℕ _ []
    [.set 0 (.setName "a"), .setConfigs 0 [.ofIndex 7 0]]
    [.set 0 (.setName "b"), .edit 0 (.config 0 (.setName "c"))] 0 (USBDevice.ofId 7) 1
    (fun _ => List.not_mem_nil) (by simp [DeviceOp.Reassigns]) (by simp)
    (by simp [DeviceOp.Rebinds])
  ⟨cs, h 1⟩

end OhosWrapper.Usb
