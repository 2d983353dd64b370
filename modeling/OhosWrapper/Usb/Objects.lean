import OhosWrapper.Lib.CountedLoop
import OhosWrapper.Lib.Forest
import OhosWrapper.Usb.HostManager
import OhosWrapper.Usb.Setters

/-!
# The objects of device trees

A device has its configurations in a vector of `std::shared_ptr`, and so on down to the endpoints.
So a tree is not one value: it is a number of objects in memory, and a setter called through a
pointer writes to one of them.

**Memory (`Heap`).** Configurations, interfaces and endpoints at addresses, with the addresses in
their vectors. An object lives as long as a pointer to it does, so nothing is ever freed that a
program could look at again. The vector `altsettings_` has no getter and stays in the
configuration.

**Reading.** `readConfig` is the value of the tree at an address. `toJson`, which follows the
pointers, writes the document of that value (`configToJson_eq`).

**Writing.** In a memory in which no object has two parents, a setter called through a pointer
changes the tree it belongs to at one place and no other tree (`readInterface_setEndpoint` and its
companions), and objects are made without touching those that exist (`makes_config`).
-/

namespace OhosWrapper.Usb

open Nlohmann Forest CountedLoop

/-- What can go wrong at an index: `at` throws, and `[]` has no defined result. -/
inductive Fault
  | thrown (e : OutOfRange)
  | undefined (e : BadAccess)
  deriving DecidableEq, Repr

/-- The objects in memory. The members `endpoints_` and `interfaces_` of the objects themselves are
not used. -/
structure Heap where
  endpoint : ℕ → USBEndpoint
  interface : ℕ → USBInterface
  endpoints_ : ℕ → List ℕ
  config : ℕ → USBConfig
  interfaces_ : ℕ → List ℕ
  nextEndpoint : ℕ
  nextInterface : ℕ
  nextConfig : ℕ

namespace Heap

/-- No object has been made. -/
def empty : Heap where
  endpoint _ := {}
  interface _ := .ofIndex 0 0
  endpoints_ _ := []
  config _ := .ofIndex 0 0
  interfaces_ _ := []
  nextEndpoint := 0
  nextInterface := 0
  nextConfig := 0

/-! ## Making objects -/

/-- `std::make_shared<USBEndpoint>`. -/
def newEndpoint (h : Heap) (e : USBEndpoint) : Heap × ℕ :=
  ({ h with endpoint := Function.update h.endpoint h.nextEndpoint e
            nextEndpoint := h.nextEndpoint + 1 }, h.nextEndpoint)

/-- `std::make_shared<USBInterface>`, with endpoints made for it. -/
def newInterface (h : Heap) (i : USBInterface) : Heap × ℕ :=
  let eps := makeAll newEndpoint h i.endpoints_
  let a := eps.1.nextInterface
  ({ eps.1 with interface := Function.update eps.1.interface a { i with endpoints_ := [] }
                endpoints_ := Function.update eps.1.endpoints_ a eps.2
                nextInterface := a + 1 }, a)

/-- `std::make_shared<USBConfig>`, with interfaces made for it. -/
def newConfig (h : Heap) (c : USBConfig) : Heap × ℕ :=
  let is := makeAll newInterface h c.interfaces_
  let a := is.1.nextConfig
  ({ is.1 with config := Function.update is.1.config a { c with interfaces_ := [] }
               interfaces_ := Function.update is.1.interfaces_ a is.2
               nextConfig := a + 1 }, a)

/-! ## Reading -/

/-- The tree of the interface at `a`. -/
def readInterface (h : Heap) (a : ℕ) : USBInterface :=
  { h.interface a with endpoints_ := view h.endpoints_ h.endpoint a }

/-- The tree of the configuration at `a`. -/
def readConfig (h : Heap) (a : ℕ) : USBConfig :=
  { h.config a with interfaces_ := view h.interfaces_ h.readInterface a }

def interfaceToJson (h : Heap) (a : ℕ) : Option Json :=
  Serializable.toJson (h.interface a).parsed_ (.object ((h.interface a).fields ++
    Json.arrayField "endpoints" ((h.endpoints_ a).map fun e => .ofOption (h.endpoint e).toJson)))

def configToJson (h : Heap) (a : ℕ) : Option Json :=
  Serializable.toJson (h.config a).parsed_ (.object ((h.config a).fields ++
    Json.arrayField "interfaces" ((h.interfaces_ a).map fun i => .ofOption (h.interfaceToJson i))))

/-- `configs_.at(index)`. -/
def configOf (configs_ : List ℕ) (index : ℕ) : Except Fault ℕ :=
  match configs_[index]? with
  | some c => .ok c
  | none => .error (.thrown .out_of_range)

/-- `interfaces_[index]`. -/
def interfaceOf (h : Heap) (c : ℕ) (index : ℕ) : Except Fault ℕ :=
  match (h.interfaces_ c)[index]? with
  | some i => .ok i
  | none => .error (.undefined .outOfBounds)

/-- `endpoints_[index]`. -/
def endpointOf (h : Heap) (i : ℕ) (index : ℕ) : Except Fault ℕ :=
  match (h.endpoints_ i)[index]? with
  | some e => .ok e
  | none => .error (.undefined .outOfBounds)

/-! ## Writing -/

def setEndpoint (h : Heap) (a : ℕ) (s : USBEndpoint.Setter) : Heap :=
  { h with endpoint := Function.update h.endpoint a (s.apply (h.endpoint a)) }

def setInterface (h : Heap) (a : ℕ) (s : USBInterface.Setter) : Heap :=
  { h with interface := Function.update h.interface a (s.apply (h.interface a)) }

def setConfig (h : Heap) (a : ℕ) (s : USBConfig.Setter) : Heap :=
  { h with config := Function.update h.config a (s.apply (h.config a)) }

/-- `setEndpoints`, with endpoints made for the call. -/
def setEndpoints (h : Heap) (a : ℕ) (es : List USBEndpoint) : Heap :=
  let eps := makeAll newEndpoint h es
  { eps.1 with endpoints_ := Function.update eps.1.endpoints_ a eps.2 }

/-- `setInterfaces`, with interfaces made for the call. -/
def setInterfaces (h : Heap) (a : ℕ) (is : List USBInterface) : Heap :=
  let made := makeAll newInterface h is
  { made.1 with interfaces_ := Function.update made.1.interfaces_ a made.2 }

/-! ## The pointers are followed -/

theorem interfaceToJson_eq (h : Heap) (a : ℕ) :
    h.interfaceToJson a = (h.readInterface a).toJson := by
  simp only [interfaceToJson, USBInterface.toJson, USBInterface.document, readInterface, view,
    List.map_map]
  rfl

theorem configToJson_eq (h : Heap) (a : ℕ) : h.configToJson a = (h.readConfig a).toJson := by
  simp only [configToJson, USBConfig.toJson, USBConfig.document, readConfig, view, List.map_map,
    interfaceToJson_eq]
  rfl

/-! ## One owner -/

/-- No interface and no endpoint has two parents, and none is at an address that is still free. -/
structure Valid (h : Heap) : Prop where
  endpoints : Unshared h.endpoints_
  endpoints_lt : Below h.nextEndpoint h.endpoints_
  interfaces : Unshared h.interfaces_
  interfaces_lt : Below h.nextInterface h.interfaces_

/-- The trees in `h` are still there in `h'`. -/
structure Extends (h h' : Heap) : Prop where
  nextEndpoint : h.nextEndpoint ≤ h'.nextEndpoint
  endpoint : ∀ a < h.nextEndpoint, h'.endpoint a = h.endpoint a
  nextInterface : h.nextInterface ≤ h'.nextInterface
  interface : ∀ a < h.nextInterface, h'.readInterface a = h.readInterface a
  nextConfig : h.nextConfig ≤ h'.nextConfig
  config : ∀ a < h.nextConfig, h'.readConfig a = h.readConfig a

theorem valid_empty : empty.Valid := ⟨unshared_nil, below_nil _, unshared_nil, below_nil _⟩

theorem Extends.refl (h : Heap) : h.Extends h :=
  ⟨Nat.le_refl _, fun _ _ => rfl, Nat.le_refl _, fun _ _ => rfl, Nat.le_refl _, fun _ _ => rfl⟩

theorem Extends.trans {h h' h'' : Heap} (h₁ : h.Extends h') (h₂ : h'.Extends h'') :
    h.Extends h'' where
  nextEndpoint := h₁.nextEndpoint.trans h₂.nextEndpoint
  endpoint a ha := (h₂.endpoint a (ha.trans_le h₁.nextEndpoint)).trans (h₁.endpoint a ha)
  nextInterface := h₁.nextInterface.trans h₂.nextInterface
  interface a ha := (h₂.interface a (ha.trans_le h₁.nextInterface)).trans (h₁.interface a ha)
  nextConfig := h₁.nextConfig.trans h₂.nextConfig
  config a ha := (h₂.config a (ha.trans_le h₁.nextConfig)).trans (h₁.config a ha)

variable {h h' : Heap}

/-! ### What an update is seen as -/

/-- The trees of interfaces depend on the interfaces, their pointers, and the endpoints. -/
theorem readInterface_eq (hi : h'.interface = h.interface)
    (hv : view h'.endpoints_ h'.endpoint = view h.endpoints_ h.endpoint) :
    h'.readInterface = h.readInterface := by
  funext a
  rw [readInterface, readInterface, hi, hv]

theorem readConfig_eq (hc : h'.config = h.config)
    (hv : view h'.interfaces_ h'.readInterface = view h.interfaces_ h.readInterface) :
    h'.readConfig = h.readConfig := by
  funext a
  rw [readConfig, readConfig, hc, hv]

/-- One interface with other endpoints. -/
theorem readInterface_update {a : ℕ} {es : List USBEndpoint} (hi : h'.interface = h.interface)
    (hv : view h'.endpoints_ h'.endpoint =
      Function.update (view h.endpoints_ h.endpoint) a es) :
    h'.readInterface = Function.update h.readInterface a
      { h.readInterface a with endpoints_ := es } := by
  funext a'
  by_cases ha : a' = a
  · subst ha
    rw [Function.update_self, readInterface, hi, hv, Function.update_self]
    rfl
  · rw [Function.update_of_ne ha, readInterface, hi, hv, Function.update_of_ne ha]
    rfl

/-- One configuration with other interfaces. -/
theorem readConfig_update {a : ℕ} {is : List USBInterface} (hc : h'.config = h.config)
    (hv : view h'.interfaces_ h'.readInterface =
      Function.update (view h.interfaces_ h.readInterface) a is) :
    h'.readConfig = Function.update h.readConfig a { h.readConfig a with interfaces_ := is } := by
  funext a'
  by_cases ha : a' = a
  · subst ha
    rw [Function.update_self, readConfig, hc, hv, Function.update_self]
    rfl
  · rw [Function.update_of_ne ha, readConfig, hc, hv, Function.update_of_ne ha]
    rfl

/-! ## Objects are made -/

theorem makeAll_newEndpoint (h : Heap) (es : List USBEndpoint) :
    (makeAll newEndpoint h es).1.interface = h.interface ∧
    (makeAll newEndpoint h es).1.endpoints_ = h.endpoints_ ∧
    (makeAll newEndpoint h es).1.nextInterface = h.nextInterface ∧
    (makeAll newEndpoint h es).1.config = h.config ∧
    (makeAll newEndpoint h es).1.interfaces_ = h.interfaces_ ∧
    (makeAll newEndpoint h es).1.nextConfig = h.nextConfig :=
  ⟨makeAll_keeps interface (fun _ _ => rfl) h es, makeAll_keeps endpoints_ (fun _ _ => rfl) h es,
    makeAll_keeps nextInterface (fun _ _ => rfl) h es, makeAll_keeps config (fun _ _ => rfl) h es,
    makeAll_keeps interfaces_ (fun _ _ => rfl) h es,
    makeAll_keeps nextConfig (fun _ _ => rfl) h es⟩

theorem makeAll_newInterface (h : Heap) (is : List USBInterface) :
    (makeAll newInterface h is).1.config = h.config ∧
    (makeAll newInterface h is).1.interfaces_ = h.interfaces_ ∧
    (makeAll newInterface h is).1.nextConfig = h.nextConfig := by
  refine ⟨makeAll_keeps config (fun m i => ?_) h is, makeAll_keeps interfaces_ (fun m i => ?_) h is,
    makeAll_keeps nextConfig (fun m i => ?_) h is⟩
  · exact (makeAll_newEndpoint m i.endpoints_).2.2.2.1
  · exact (makeAll_newEndpoint m i.endpoints_).2.2.2.2.1
  · exact (makeAll_newEndpoint m i.endpoints_).2.2.2.2.2

/-- An endpoint is made. -/
theorem makes_endpoint : Makes Valid Extends nextEndpoint endpoint newEndpoint where
  refl := .refl
  trans _ _ _ := .trans
  keeps _ _ he := ⟨he.nextEndpoint, he.endpoint⟩
  valid h e hv := ⟨hv.endpoints, hv.endpoints_lt.mono (Nat.le_succ _), hv.interfaces,
    hv.interfaces_lt⟩
  grows h e hv := by
    have hold : ∀ a < h.nextEndpoint, (h.newEndpoint e).1.endpoint a = h.endpoint a :=
      fun a ha => Function.update_of_ne ha.ne _ _
    have hi : (h.newEndpoint e).1.readInterface = h.readInterface :=
      readInterface_eq rfl (hv.endpoints_lt.view_congr hold)
    have hc : (h.newEndpoint e).1.readConfig = h.readConfig := by
      refine readConfig_eq rfl ?_
      rw [hi]
      rfl
    exact ⟨Nat.le_succ _, hold, Nat.le_refl _, fun a _ => congrFun hi a, Nat.le_refl _,
      fun a _ => congrFun hc a⟩
  new h e _ := ⟨Nat.le_refl _, Nat.lt_succ_self _⟩
  found h e _ := Function.update_self _ _ _

/-- A tree of an interface is made. -/
theorem makes_interface : Makes Valid Extends nextInterface readInterface newInterface := by
  have hmade : ∀ h (i : USBInterface), h.Valid →
      Made Valid Extends nextEndpoint endpoint h i.endpoints_
        (makeAll newEndpoint h i.endpoints_) := fun h i hv => makes_endpoint.makeAll hv i.endpoints_
  refine ⟨.refl, fun _ _ _ => .trans, fun _ _ he => ⟨he.nextInterface, he.interface⟩,
    fun h i hv => ?_, fun h i hv => ?_, fun h i hv => ?_, fun h i hv => ?_⟩
  · have hm := hmade h i hv
    have hlt : Below h.nextEndpoint (makeAll newEndpoint h i.endpoints_).1.endpoints_ := by
      rw [(makeAll_newEndpoint h i.endpoints_).2.1]
      exact hv.endpoints_lt
    refine ⟨hm.valid.endpoints.adopt hlt hm.nodup (fun a ha => (hm.new a ha).1) _, ?_,
      hm.valid.interfaces, hm.valid.interfaces_lt.mono (Nat.le_succ _)⟩
    exact hlt.adopt hm.grows.nextEndpoint (fun a ha => (hm.new a ha).2) _
  · have hm := hmade h i hv
    refine hm.grows.trans ?_
    have hold : ∀ a < (makeAll newEndpoint h i.endpoints_).1.nextInterface,
        (h.newInterface i).1.readInterface a =
          (makeAll newEndpoint h i.endpoints_).1.readInterface a := by
      intro a ha
      simp only [readInterface, newInterface, view_adopt, Function.update_of_ne ha.ne]
    have hc : (h.newInterface i).1.readConfig =
        (makeAll newEndpoint h i.endpoints_).1.readConfig :=
      readConfig_eq rfl (hm.valid.interfaces_lt.view_congr hold)
    exact ⟨Nat.le_refl _, fun _ _ => rfl, Nat.le_succ _, hold, Nat.le_refl _,
      fun a _ => congrFun hc a⟩
  · have hnext := (makeAll_newEndpoint h i.endpoints_).2.2.1
    exact ⟨hnext.ge, Nat.lt_succ_self _⟩
  · have hm := hmade h i hv
    simp only [readInterface, newInterface, view_adopt, Function.update_self, hm.found]

/-- A tree of a configuration is made. -/
theorem makes_config : Makes Valid Extends nextConfig readConfig newConfig := by
  have hmade : ∀ h (c : USBConfig), h.Valid → Made Valid Extends nextInterface readInterface h
      c.interfaces_ (makeAll newInterface h c.interfaces_) :=
    fun h c hv => makes_interface.makeAll hv c.interfaces_
  refine ⟨.refl, fun _ _ _ => .trans, fun _ _ he => ⟨he.nextConfig, he.config⟩,
    fun h c hv => ?_, fun h c hv => ?_, fun h c hv => ?_, fun h c hv => ?_⟩
  · have hm := hmade h c hv
    have hlt : Below h.nextInterface (makeAll newInterface h c.interfaces_).1.interfaces_ := by
      rw [(makeAll_newInterface h c.interfaces_).2.1]
      exact hv.interfaces_lt
    refine ⟨hm.valid.endpoints, hm.valid.endpoints_lt,
      hm.valid.interfaces.adopt hlt hm.nodup (fun a ha => (hm.new a ha).1) _, ?_⟩
    exact hlt.adopt hm.grows.nextInterface (fun a ha => (hm.new a ha).2) _
  · have hm := hmade h c hv
    refine hm.grows.trans ?_
    refine ⟨Nat.le_refl _, fun _ _ => rfl, Nat.le_refl _, fun _ _ => rfl, Nat.le_succ _,
      fun a ha => ?_⟩
    have hview : (h.newConfig c).1.readInterface =
        (makeAll newInterface h c.interfaces_).1.readInterface := rfl
    rw [readConfig, readConfig, hview]
    simp only [newConfig, view_adopt, Function.update_of_ne ha.ne]
  · have hnext := (makeAll_newInterface h c.interfaces_).2.2
    exact ⟨hnext.ge, Nat.lt_succ_self _⟩
  · have hm := hmade h c hv
    have hview : (h.newConfig c).1.readInterface =
        (makeAll newInterface h c.interfaces_).1.readInterface := rfl
    rw [readConfig, hview]
    simp only [newConfig, view_adopt, Function.update_self, hm.found]

/-! ## Setters are called -/

theorem Valid.setEndpoint (hv : h.Valid) (a : ℕ) (s : USBEndpoint.Setter) :
    (h.setEndpoint a s).Valid :=
  ⟨hv.endpoints, hv.endpoints_lt, hv.interfaces, hv.interfaces_lt⟩

theorem Valid.setInterface (hv : h.Valid) (a : ℕ) (s : USBInterface.Setter) :
    (h.setInterface a s).Valid :=
  ⟨hv.endpoints, hv.endpoints_lt, hv.interfaces, hv.interfaces_lt⟩

theorem Valid.setConfig (hv : h.Valid) (a : ℕ) (s : USBConfig.Setter) : (h.setConfig a s).Valid :=
  ⟨hv.endpoints, hv.endpoints_lt, hv.interfaces, hv.interfaces_lt⟩

/-- What changes one interface changes the configuration it belongs to. -/
theorem readConfig_of_interface (hv : h.Valid) {c j a : ℕ} {i : USBInterface}
    (hc : h'.config = h.config) (hp : h'.interfaces_ = h.interfaces_)
    (hr : h'.readInterface = Function.update h.readInterface a i)
    (hj : (h.interfaces_ c)[j]? = some a) :
    h'.readConfig = Function.update h.readConfig c
      { h.readConfig c with interfaces_ := (h.readConfig c).interfaces_.set j i } := by
  refine readConfig_update hc ?_
  rw [hp, hr, hv.interfaces.view_update hj]
  rfl

theorem readInterface_setEndpoint (hv : h.Valid) {i k a : ℕ} (hk : (h.endpoints_ i)[k]? = some a)
    (s : USBEndpoint.Setter) :
    (h.setEndpoint a s).readInterface = Function.update h.readInterface i
      { h.readInterface i with
        endpoints_ := (h.readInterface i).endpoints_.set k (s.apply (h.endpoint a)) } :=
  readInterface_update rfl (hv.endpoints.view_update hk _ _)

theorem readInterface_setInterface (h : Heap) (a : ℕ) (s : USBInterface.Setter) :
    (h.setInterface a s).readInterface =
      Function.update h.readInterface a (s.apply (h.readInterface a)) := by
  funext a'
  by_cases ha : a' = a
  · subst ha
    rw [Function.update_self, readInterface, readInterface, s.apply_endpoints]
    simp only [setInterface, Function.update_self]
  · rw [Function.update_of_ne ha, readInterface, readInterface]
    simp only [setInterface, Function.update_of_ne ha]

theorem readConfig_setConfig (h : Heap) (a : ℕ) (s : USBConfig.Setter) :
    (h.setConfig a s).readConfig = Function.update h.readConfig a (s.apply (h.readConfig a)) := by
  have hview : (h.setConfig a s).readInterface = h.readInterface := rfl
  funext a'
  by_cases ha : a' = a
  · subst ha
    rw [Function.update_self, readConfig, readConfig, s.apply_interfaces, hview]
    simp only [setConfig, Function.update_self]
  · rw [Function.update_of_ne ha, readConfig, readConfig, hview]
    simp only [setConfig, Function.update_of_ne ha]

/-- Endpoints made for an interface. -/
theorem readInterface_setEndpoints (hv : h.Valid) (a : ℕ) (es : List USBEndpoint) :
    (h.setEndpoints a es).Valid ∧ (h.setEndpoints a es).readInterface =
      Function.update h.readInterface a { h.readInterface a with endpoints_ := es } := by
  have hm := makes_endpoint.makeAll hv es
  obtain ⟨hi, hp, -⟩ := makeAll_newEndpoint h es
  have hlt : Below h.nextEndpoint (makeAll newEndpoint h es).1.endpoints_ := hp ▸ hv.endpoints_lt
  refine ⟨⟨hm.valid.endpoints.adopt hlt hm.nodup (fun a ha => (hm.new a ha).1) _, ?_,
    hm.valid.interfaces, hm.valid.interfaces_lt⟩, readInterface_update hi ?_⟩
  · exact hlt.adopt hm.grows.nextEndpoint (fun a ha => (hm.new a ha).2) _
  · change view (Function.update (makeAll newEndpoint h es).1.endpoints_ a _)
      (makeAll newEndpoint h es).1.endpoint = _
    rw [view_adopt, hm.found, hlt.view_congr hm.grows.endpoint, hp]

/-- Interfaces made for a configuration. -/
theorem readConfig_setInterfaces (hv : h.Valid) (a : ℕ) (is : List USBInterface) :
    (h.setInterfaces a is).Valid ∧ (h.setInterfaces a is).readConfig =
      Function.update h.readConfig a { h.readConfig a with interfaces_ := is } := by
  have hm := makes_interface.makeAll hv is
  obtain ⟨hc, hp, -⟩ := makeAll_newInterface h is
  have hlt : Below h.nextInterface (makeAll newInterface h is).1.interfaces_ :=
    hp ▸ hv.interfaces_lt
  refine ⟨⟨hm.valid.endpoints, hm.valid.endpoints_lt,
    hm.valid.interfaces.adopt hlt hm.nodup (fun a ha => (hm.new a ha).1) _, ?_⟩,
    readConfig_update hc ?_⟩
  · exact hlt.adopt hm.grows.nextInterface (fun a ha => (hm.new a ha).2) _
  · change view (Function.update (makeAll newInterface h is).1.interfaces_ a _)
      (makeAll newInterface h is).1.readInterface = _
    rw [view_adopt, hm.found, hlt.view_congr hm.grows.interface, hp]

end Heap

end OhosWrapper.Usb
