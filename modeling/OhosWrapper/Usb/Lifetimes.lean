import OhosWrapper.Lib.Forest
import OhosWrapper.Lib.Machine
import OhosWrapper.Lib.Refcount
import OhosWrapper.Lib.UnorderedMap
import OhosWrapper.Usb.Claim
import OhosWrapper.Usb.Device

/-!
# How long a claim lasts

The configurations of a device, their interfaces and the claims on these are objects that are
pointed to by `std::shared_ptr`: by the members `configs_`, `interfaces_` and `handle_`, and by
what the program keeps of `configOf`, `interfaceOf` and `handle`. Copies of a device, such as the
one the manager has, point to the same configurations.

**Programs.** A program constructs and destroys devices in variables `ι`, copies them into and out
of the manager, replaces children, keeps pointers in variables `κ`, and claims and releases
interfaces, which it gets at through its devices and pointers. Releases succeed, and the manager is
there to the end. The children that `setConfigs` and `setInterfaces` get are objects made for the
call, and a device is copied only by `addDevice` and `deviceOf`. Endpoints own nothing and stay in
their interface; setters of other members than the children change no pointer and are left out.

**Theorem (`released_iff_unreachable`).** In every run a claim is given back to the driver when no
device, entry of the manager or kept pointer leads to it any more, once, and not before.
-/

namespace OhosWrapper.Usb

namespace Lifetimes

open Refcount Forest
open USBInterface (Handle)

/-! ## Objects -/

/-- The objects, without the pointers in them: `interfaces_` of a configuration is empty here. -/
inductive Part (η : Type)
  | config (c : USBConfig)
  | interface (i : USBInterface)
  | handle (this : Handle η)
  deriving DecidableEq

/-- A configuration points to interfaces, and an interface to a `Handle`. -/
def Part.rank {η : Type} : Part η → ℕ
  | config _ => 2
  | interface _ => 1
  | handle _ => 0

def Part.handle_ {η : Type} : Part η → Option η
  | handle this => some this.handle_
  | _ => none

/-- What has pointers outside of objects: the devices of the program and of the manager, and the
variables for pointers. -/
inductive Variable (ι κ : Type)
  | device (x : ι)
  | registered (deviceId : UInt64)
  | kept (k : κ)
  deriving DecidableEq

/-- An expression for a pointer. -/
inductive Place (ι κ : Type)
  | configOf (x : ι) (index : ℕ)
  | kept (k : κ)
  | interfaceOf (p : Place ι κ) (index : ℕ)
  | handle (p : Place ι κ)
  deriving DecidableEq

/-- The operations, of which `construct` stands for the constructors, with the tree they make, and
`claim` has the results of `OH_Usb_ClaimInterface`. The vectors of `setConfigs` and `setInterfaces`
hold new objects, and no other operation copies a device than `addDevice` and `deviceOf`. -/
inductive Op (ι κ η : Type)
  | construct (x : ι) (d : USBDevice)
  | addDevice (deviceId : UInt64) (x : ι)
  | deviceOf (x : ι) (deviceId : UInt64)
  | setConfigs (x : ι) (cs : List USBConfig)
  | setInterfaces (p : Place ι κ) (is : List USBInterface)
  | keep (k : κ) (p : Place ι κ)
  | drop (k : κ)
  | claim (p : Place ι κ) (code : USBErrCode) (handle : η)
  | release (p : Place ι κ)
  | destroy (x : ι)

abbrev Objects (ι κ η : Type) := Store (Variable ι κ) (Part η)

/-- The devices, without `configs_`, and the objects. -/
structure World (ι κ η : Type) where
  locals : ι → Option USBDevice
  devices_ : UnorderedMap UInt64 USBDevice
  shared : Objects ι κ η

variable {ι κ η : Type}

/-- `std::make_shared<USBInterface>`. The interface is not claimed. -/
def newInterface (s : Objects ι κ η) (i : USBInterface) : Objects ι κ η × ℕ :=
  s.make (.interface i) []

/-- `std::make_shared<USBConfig>`, with interfaces made for it. -/
def newConfig (s : Objects ι κ η) (c : USBConfig) : Objects ι κ η × ℕ :=
  let is := makeAll newInterface s c.interfaces_
  is.1.make (.config (c.setInterfaces [])) is.2

namespace World

def empty : World ι κ η := ⟨fun _ => none, ∅, .empty⟩

/-- Where the expression points, unless it throws, or reads through null or outside of a vector. -/
def find (w : World ι κ η) : Place ι κ → Option ℕ
  | .configOf x index => (w.shared.roots (.device x))[index]?
  | .kept k => (w.shared.roots (.kept k)).head?
  | .interfaceOf p index => do
    let a ← w.find p
    match w.shared.made[a]? with
    | some (.config _) => (w.shared.owned a)[index]?
    | _ => none
  | .handle p => do
    let a ← w.find p
    match w.shared.made[a]? with
    | some (.interface _) => (w.shared.owned a).head?
    | _ => none

/-- The handles that were granted. -/
def granted (w : World ι κ η) : List η := w.shared.made.filterMap Part.handle_

/-- `USBInterface::claim`, on the interface `i` at `a`. -/
def claim (w : World ι κ η) (a : ℕ) (i : USBInterface) (code : USBErrCode) (h : η) :
    Except (DdkSystemError USBErrCode) (World ι κ η) := do
  let handle ← Handle.Claim
    { deviceId := i.deviceId_, interfaceIndex := i.interfaceIndex_, code, handle := h }
  let made := w.shared.make (.handle handle) []
  return { w with shared := made.1.moveOwned a [made.2] }

/-- `USBInterface::release`. -/
def release (w : World ι κ η) (a : ℕ) : World ι κ η := { w with shared := w.shared.moveOwned a [] }

/-- The number of times the handle was given back. -/
def released [DecidableEq η] (w : World ι κ η) (h : η) : ℕ :=
  (w.shared.destroyed.filterMap fun a => w.shared.made[a]?.bind Part.handle_).count h

end World

section

variable [DecidableEq ι] [DecidableEq κ] [DecidableEq η]

/-- One operation. It is refused where the program would not do it, or where it is undefined: a
variable is used before or constructed twice, an expression points nowhere or to another kind of
object, or the driver grants a handle a second time. -/
def step (w : World ι κ η) : Op ι κ η → Option (World ι κ η)
  | .construct x d =>
    match w.locals x with
    | none =>
      let made := makeAll newConfig w.shared d.configs_
      some { w with locals := Function.update w.locals x (some (d.setConfigs []))
                    shared := made.1.moveRoot (.device x) made.2 }
    | some _ => none
  | .addDevice deviceId x =>
    match w.locals x, w.devices_.lookup deviceId with
    | some d, none =>
      some { w with devices_ := w.devices_.emplace deviceId d
                    shared := w.shared.assign (.registered deviceId)
                      (w.shared.roots (.device x)) }
    | some _, some _ => some w
    | none, _ => none
  | .deviceOf x deviceId =>
    match w.locals x, w.devices_.lookup deviceId with
    | none, some d =>
      some { w with locals := Function.update w.locals x (some d)
                    shared := w.shared.assign (.device x)
                      (w.shared.roots (.registered deviceId)) }
    | none, none => some w
    | some _, _ => none
  | .setConfigs x cs =>
    match w.locals x with
    | some _ =>
      let made := makeAll newConfig w.shared cs
      some { w with shared := made.1.moveRoot (.device x) made.2 }
    | none => none
  | .setInterfaces p is => do
    let a ← w.find p
    match w.shared.made[a]? with
    | some (.config _) =>
      let made := makeAll newInterface w.shared is
      some { w with shared := made.1.moveOwned a made.2 }
    | _ => none
  | .keep k p => do
    let a ← w.find p
    some { w with shared := w.shared.assign (.kept k) [a] }
  | .drop k => some { w with shared := w.shared.moveRoot (.kept k) [] }
  | .claim p code h => do
    let a ← w.find p
    match w.shared.made[a]? with
    | some (.interface i) =>
      match w.claim a i code h with
      | .ok w' => if h ∈ w.granted then none else some w'
      | .error _ => some w
    | _ => none
  | .release p => do
    let a ← w.find p
    match w.shared.made[a]? with
    | some (.interface _) => some (w.release a)
    | _ => none
  | .destroy x =>
    match w.locals x with
    | some _ =>
      some { w with locals := Function.update w.locals x none
                    shared := w.shared.moveRoot (.device x) [] }
    | none => none

def machine : Machine (World ι κ η) (Op ι κ η) := ⟨.empty, step⟩

end

/-- The device, the entry of the manager or the variable for a pointer is there. -/
def World.Alive (w : World ι κ η) : Variable ι κ → Prop
  | .device x => (w.locals x).isSome
  | .registered deviceId => (w.devices_.lookup deviceId).isSome
  | .kept _ => True

/-- Some device, entry of the manager or kept pointer leads to a `Handle` with the handle `h`. -/
def World.Holds (w : World ι κ η) (h : η) : Prop :=
  ∃ a this, Reachable w.shared a ∧ w.shared.made[a]? = some (.handle this) ∧ this.handle_ = h

/-! ## The invariant -/

/-- The rank of the object at an address. -/
def rank (s : Objects ι κ η) (a : ℕ) : ℕ := s.made[a]?.elim 0 Part.rank

/-- The handle of the object at an address. -/
def handleAt (s : Objects ι κ η) (a : ℕ) : Option η := s.made[a]?.bind Part.handle_

/-- The use counts are right, pointers in objects go to objects of the kind below, and no two
objects have the same handle. -/
structure Valid (s : Objects ι κ η) (temps : List ℕ) : Prop where
  counted : Counted s temps
  owned : ∀ a, ∀ c ∈ s.owned a, rank s c + 1 = rank s a
  handles : ∀ a b h, handleAt s a = some h → handleAt s b = some h → a = b

/-- A `Handle` that is made gets a handle of its own. -/
def Fresh (s : Objects ι κ η) (v : Part η) : Prop :=
  ∀ h, v.handle_ = some h → ∀ a, handleAt s a ≠ some h

theorem rank_of_made {s : Objects ι κ η} {a : ℕ} {v : Part η} (h : s.made[a]? = some v) :
    rank s a = v.rank := by
  rw [rank, h]
  rfl

theorem rank_le (s : Objects ι κ η) (a : ℕ) : rank s a ≤ 2 := by
  unfold rank
  cases s.made[a]? with
  | none => exact Nat.zero_le 2
  | some v => cases v <;> simp [Part.rank]

theorem rank_of_extends {s s' : Objects ι κ η} (h : Extends s s') {a : ℕ}
    (ha : a < s.made.length) : rank s' a = rank s a := by
  rw [rank, rank, h.getElem? ha]

namespace Valid

variable {s s' : Objects ι κ η} {temps as : List ℕ}

theorem empty : Valid (Store.empty : Objects ι κ η) [] where
  counted := .empty
  owned _ _ hc := nomatch hc
  handles _ _ _ ha := nomatch ha

theorem perm {temps' : List ℕ} (hs : Valid s temps) (h : temps.Perm temps') : Valid s temps' :=
  { hs with counted := hs.counted.perm h }

/-- The object that is made has a new address. -/
theorem made_make (s : Objects ι κ η) (v : Part η) (as : List ℕ) :
    (s.make v as).1.made[(s.make v as).2]? = some v :=
  List.getElem?_concat_length

theorem make (hs : Valid s (as ++ temps)) {v : Part η} (has : ∀ c ∈ as, rank s c + 1 = v.rank)
    (hv : Fresh s v) : Valid (s.make v as).1 ((s.make v as).2 :: temps) := by
  have hext := Extends.make s v as
  have hlt : ∀ v, ∀ c ∈ s.out v, c < s.made.length := fun v c hc => hs.counted.lt_of_mem_out hc
  refine ⟨hs.counted.make v, fun a c hc => ?_, fun a b h ha hb => ?_⟩
  · rw [Store.owned_update (s := s) (a := s.made.length) (v := some ⟨as, 1⟩) rfl] at hc
    by_cases hnew : a = s.made.length
    · subst hnew
      rw [Function.update_self] at hc
      have hclt := hs.counted.lt_of_mem_temps (List.mem_append_left temps hc)
      rw [rank_of_extends hext hclt, has c hc]
      exact (rank_of_made (made_make s v as)).symm
    · rw [Function.update_of_ne hnew] at hc
      have halt : a < s.made.length := by
        by_contra hle
        rw [Store.owned] at hc
        cases hb : s.blocks a with
        | none => rw [hb] at hc; cases hc
        | some b => exact hle (hs.counted.bounded a b hb)
      rw [rank_of_extends hext (hlt (.inr a) c hc), rank_of_extends hext halt]
      exact hs.owned a c hc
  · have hold : ∀ c, c < s.made.length → handleAt (s.make v as).1 c = handleAt s c := by
      intro c hc
      rw [handleAt, handleAt, hext.getElem? hc]
    have hlast : ∀ c h, handleAt (s.make v as).1 c = some h → ¬ c < s.made.length →
        c = s.made.length ∧ v.handle_ = some h := by
      intro c h hc hle
      obtain ⟨u, hu, hh⟩ := Option.bind_eq_some_iff.1 hc
      have hclt := (List.getElem?_eq_some_iff.1 hu).1
      rw [Store.make, List.length_append, List.length_singleton] at hclt
      obtain rfl : c = s.made.length := by omega
      obtain rfl := Option.some.inj (hu.symm.trans (made_make s v as))
      exact ⟨rfl, hh⟩
    by_cases halt : a < s.made.length
    · rw [hold a halt] at ha
      by_cases hblt : b < s.made.length
      · rw [hold b hblt] at hb
        exact hs.handles a b h ha hb
      · exact absurd ha (hv h (hlast b h hb hblt).2 a)
    · obtain ⟨rfl, hh⟩ := hlast a h ha halt
      by_cases hblt : b < s.made.length
      · rw [hold b hblt] at hb
        exact absurd hb (hv h hh b)
      · exact (hlast b h hb hblt).1.symm

theorem make_nil (hs : Valid s temps) {v : Part η} (hv : Fresh s v) :
    Valid (s.make v []).1 ((s.make v []).2 :: temps) :=
  Valid.make hs (fun _ hc => (nomatch hc)) hv

/-- What is left after some objects are gone. -/
theorem frees (hs : Valid s temps) {s₁ : Objects ι κ η} (h : Frees s₁ s') (hs' : Counted s' [])
    (hmade : s₁.made = s.made) (howned : ∀ a, ∀ c ∈ s₁.owned a, rank s c + 1 = rank s a) :
    Valid s' [] := by
  have hsame : s'.made = s.made := h.made.trans hmade
  refine ⟨hs', fun a c hc => ?_, fun a b k ha hb => hs.handles a b k ?_ ?_⟩
  · rw [rank, rank, hsame]
    cases hb : s'.blocks a with
    | none => rw [Store.owned, hb] at hc; cases hc
    | some b =>
      rw [(h.owned a b hb).1] at hc
      exact howned a c hc
  · rwa [handleAt, ← hsame]
  · rwa [handleAt, ← hsame]

theorem moveRoot [DecidableEq ι] [DecidableEq κ] (hs : Valid s as) (x : Variable ι κ) :
    Valid (s.moveRoot x as) [] := by
  obtain ⟨hcounted, hfrees⟩ := hs.counted.moveRoot x
  exact hs.frees hfrees hcounted rfl hs.owned

theorem assign [DecidableEq ι] [DecidableEq κ] (hs : Valid s [])
    (has : ∀ a ∈ as, Reachable s a) (x : Variable ι κ) : Valid (s.assign x as) [] := by
  obtain ⟨hcounted, hfrees⟩ :=
    hs.counted.assign (fun a ha => hs.counted.exists_of_reachable (has a ha)) x
  exact hs.frees hfrees hcounted rfl hs.owned

theorem owned_setOwned (s : Objects ι κ η) {a : ℕ} {b : ControlBlock} (hb : s.blocks a = some b)
    (as : List ℕ) : (s.setOwned a as).owned = Function.update s.owned a as := by
  rw [Store.owned_update (s := s) (a := a) rfl, hb]
  rfl

theorem moveOwned (hs : Valid s as) {a : ℕ} {b : ControlBlock} (hb : s.blocks a = some b)
    (has : ∀ c ∈ as, rank s c + 1 = rank s a) : Valid (s.moveOwned a as) [] := by
  obtain ⟨hcounted, hfrees⟩ := hs.counted.moveOwned hb
  refine hs.frees hfrees hcounted rfl fun c d hd => ?_
  rw [owned_setOwned s hb] at hd
  by_cases hc : c = a
  · subst hc
    rw [Function.update_self] at hd
    exact has d hd
  · rw [Function.update_of_ne hc] at hd
    exact hs.owned c d hd

end Valid

/-! ### Trees -/

/-- `make` makes an object of rank `r`, whose pointer is a temporary. -/
def MakesRank {α : Type} (r : ℕ) (make : Objects ι κ η → α → Objects ι κ η × ℕ) : Prop :=
  ∀ s temps x, Valid s temps → Valid (make s x).1 ((make s x).2 :: temps) ∧
    Extends s (make s x).1 ∧ rank (make s x).1 (make s x).2 = r

theorem MakesRank.makeAll {α : Type} {r : ℕ} {make : Objects ι κ η → α → Objects ι κ η × ℕ}
    (hmake : MakesRank r make) {s : Objects ι κ η} {temps : List ℕ} (hs : Valid s temps)
    (xs : List α) : Valid (makeAll make s xs).1 ((makeAll make s xs).2 ++ temps) ∧
      Extends s (makeAll make s xs).1 ∧
        ∀ a ∈ (makeAll make s xs).2, rank (makeAll make s xs).1 a = r := by
  induction xs generalizing s temps with
  | nil => exact ⟨hs, .refl s, fun a ha => (nomatch ha)⟩
  | cons x xs ih =>
    obtain ⟨hvalid, hext, hrank⟩ := hmake s temps x hs
    obtain ⟨hvalid', hext', hrank'⟩ := ih hvalid
    refine ⟨hvalid'.perm List.perm_middle, hext.trans hext', fun a ha => ?_⟩
    rcases List.mem_cons.1 ha with rfl | ha
    · have hlt := hvalid.counted.lt_of_mem_temps List.mem_cons_self
      exact (rank_of_extends hext' hlt).trans hrank
    · exact hrank' a ha

/-- The loop makes the first temporaries. -/
theorem MakesRank.makeAll_nil {α : Type} {r : ℕ} {make : Objects ι κ η → α → Objects ι κ η × ℕ}
    (hmake : MakesRank r make) {s : Objects ι κ η} (hs : Valid s []) (xs : List α) :
    Valid (Forest.makeAll make s xs).1 (Forest.makeAll make s xs).2 ∧
      Extends s (Forest.makeAll make s xs).1 ∧
        ∀ a ∈ (Forest.makeAll make s xs).2, rank (Forest.makeAll make s xs).1 a = r := by
  obtain ⟨hvalid, hext, hrank⟩ := hmake.makeAll hs xs
  exact ⟨hvalid.perm (List.Perm.of_eq (List.append_nil _)), hext, hrank⟩

theorem makesRank_newInterface : MakesRank 1 (newInterface (ι := ι) (κ := κ) (η := η)) := by
  intro s temps i hs
  exact ⟨hs.make_nil fun h hh => (nomatch hh), .make s _ _, rank_of_made (Valid.made_make s _ _)⟩

theorem makesRank_newConfig : MakesRank 2 (newConfig (ι := ι) (κ := κ) (η := η)) := by
  intro s temps c hs
  obtain ⟨hvalid, hext, hrank⟩ := makesRank_newInterface.makeAll hs c.interfaces_
  refine ⟨hvalid.make (fun a ha => ?_) fun h hh => (nomatch hh), hext.trans (.make _ _ _),
    rank_of_made (Valid.made_make _ _ _)⟩
  rw [hrank a ha]
  rfl

/-! ### Steps -/

/-- An expression points to what a variable leads to. -/
theorem reachable_of_find {w : World ι κ η} {p : Place ι κ} {a : ℕ} (h : w.find p = some a) :
    Reachable w.shared a := by
  induction p generalizing a with
  | configOf x index => exact .root (List.mem_of_getElem? h)
  | kept k => exact .root (List.mem_of_head? h)
  | interfaceOf p index ih =>
    obtain ⟨c, hc, hm⟩ := Option.bind_eq_some_iff.1 h
    split at hm
    case h_1 => exact .owned (ih hc) (List.mem_of_getElem? hm)
    case h_2 => cases hm
  | handle p ih =>
    obtain ⟨c, hc, hm⟩ := Option.bind_eq_some_iff.1 h
    split at hm
    case h_1 => exact .owned (ih hc) (List.mem_of_head? hm)
    case h_2 => cases hm

/-- The object an expression points to is still there when others were made. -/
theorem exists_block_of_find {w : World ι κ η} {s : Objects ι κ η} {p : Place ι κ} {a : ℕ}
    (hw : Valid w.shared []) (ha : w.find p = some a) (hext : Extends w.shared s) :
    (∃ b, s.blocks a = some b) ∧ rank s a = rank w.shared a := by
  obtain ⟨b, hb⟩ := hw.counted.exists_of_reachable (reachable_of_find ha)
  have hlt := hw.counted.bounded a b hb
  exact ⟨⟨b, by rw [hext.blocks a hlt, hb]⟩, rank_of_extends hext hlt⟩

/-- A handle that was not granted before is not in another object. -/
theorem fresh_of_not_mem_granted {w : World ι κ η} {h : η} (hfresh : h ∉ w.granted)
    (this : Handle η) (hthis : this.handle_ = h) : Fresh w.shared (.handle this) := by
  intro k hk c hc
  obtain ⟨v, hv, hkv⟩ := Option.bind_eq_some_iff.1 hc
  obtain rfl := Option.some.inj hk
  exact hfresh (List.mem_filterMap.2 ⟨v, List.mem_of_getElem? hv, by rw [hkv, hthis]⟩)

theorem claim_of_success (w : World ι κ η) (a : ℕ) (i : USBInterface) (h : η) :
    w.claim a i .USB_DDK_SUCCESS h = .ok { w with
      shared := (w.shared.make (.handle ⟨i.deviceId_, i.interfaceIndex_, h⟩) []).1.moveOwned a
        [(w.shared.make (.handle ⟨i.deviceId_, i.interfaceIndex_, h⟩) []).2] } :=
  rfl

theorem claim_of_ne (w : World ι κ η) (a : ℕ) (i : USBInterface) {code : USBErrCode}
    (hcode : code ≠ .USB_DDK_SUCCESS) (h : η) : ∃ e, w.claim a i code h = .error e := by
  refine ⟨⟨code, "OH_Usb_ClaimInterface(deviceId, interfaceIndex, &handle_)"⟩, ?_⟩
  simp [World.claim, Handle.Claim, Handle.new, usbCheckError, checkError, hcode]

section

variable [DecidableEq ι] [DecidableEq κ] [DecidableEq η]

/-- What a step does. -/
inductive Step (w : World ι κ η) : Op ι κ η → World ι κ η → Prop
  | construct (x : ι) (d : USBDevice) : w.locals x = none → Step w (.construct x d)
      { w with locals := Function.update w.locals x (some (d.setConfigs []))
               shared := (makeAll newConfig w.shared d.configs_).1.moveRoot (.device x)
                (makeAll newConfig w.shared d.configs_).2 }
  | addDevice (deviceId : UInt64) (x : ι) (d : USBDevice) : w.locals x = some d →
      w.devices_.lookup deviceId = none → Step w (.addDevice deviceId x)
      { w with devices_ := w.devices_.emplace deviceId d
               shared := w.shared.assign (.registered deviceId) (w.shared.roots (.device x)) }
  | addKnown (deviceId : UInt64) (x : ι) (d : USBDevice) :
      w.devices_.lookup deviceId = some d → Step w (.addDevice deviceId x) w
  | deviceOf (x : ι) (deviceId : UInt64) (d : USBDevice) : w.locals x = none →
      w.devices_.lookup deviceId = some d → Step w (.deviceOf x deviceId)
      { w with locals := Function.update w.locals x (some d)
               shared := w.shared.assign (.device x) (w.shared.roots (.registered deviceId)) }
  | deviceOfThrows (x : ι) (deviceId : UInt64) : w.devices_.lookup deviceId = none →
      Step w (.deviceOf x deviceId) w
  | setConfigs (x : ι) (cs : List USBConfig) (d : USBDevice) : w.locals x = some d →
      Step w (.setConfigs x cs)
      { w with shared := (makeAll newConfig w.shared cs).1.moveRoot (.device x)
                (makeAll newConfig w.shared cs).2 }
  | setInterfaces (p : Place ι κ) (is : List USBInterface) (a : ℕ) (c : USBConfig) :
      w.find p = some a → w.shared.made[a]? = some (.config c) → Step w (.setInterfaces p is)
      { w with shared := (makeAll newInterface w.shared is).1.moveOwned a
                (makeAll newInterface w.shared is).2 }
  | keep (k : κ) (p : Place ι κ) (a : ℕ) : w.find p = some a →
      Step w (.keep k p) { w with shared := w.shared.assign (.kept k) [a] }
  | drop (k : κ) : Step w (.drop k) { w with shared := w.shared.moveRoot (.kept k) [] }
  | claim (p : Place ι κ) (h : η) (a : ℕ) (i : USBInterface) : w.find p = some a →
      w.shared.made[a]? = some (.interface i) → h ∉ w.granted →
      Step w (.claim p .USB_DDK_SUCCESS h) { w with
        shared := (w.shared.make (.handle ⟨i.deviceId_, i.interfaceIndex_, h⟩) []).1.moveOwned a
          [(w.shared.make (.handle ⟨i.deviceId_, i.interfaceIndex_, h⟩) []).2] }
  | claimThrows (p : Place ι κ) (code : USBErrCode) (h : η) : code ≠ .USB_DDK_SUCCESS →
      Step w (.claim p code h) w
  | release (p : Place ι κ) (a : ℕ) (i : USBInterface) : w.find p = some a →
      w.shared.made[a]? = some (.interface i) → Step w (.release p) (w.release a)
  | destroy (x : ι) (d : USBDevice) : w.locals x = some d → Step w (.destroy x)
      { w with locals := Function.update w.locals x none
               shared := w.shared.moveRoot (.device x) [] }

theorem step_cases {w w' : World ι κ η} {op : Op ι κ η} (hstep : step w op = some w') :
    Step w op w' := by
  cases op with
  | construct x d =>
    simp only [step] at hstep
    split at hstep
    case h_1 hx => exact Option.some.inj hstep ▸ .construct x d hx
    case h_2 => cases hstep
  | addDevice deviceId x =>
    simp only [step] at hstep
    split at hstep
    case h_1 hx hid => exact Option.some.inj hstep ▸ .addDevice deviceId x _ hx hid
    case h_2 hid => exact Option.some.inj hstep ▸ .addKnown deviceId x _ hid
    case h_3 => cases hstep
  | deviceOf x deviceId =>
    simp only [step] at hstep
    split at hstep
    case h_1 hx hid => exact Option.some.inj hstep ▸ .deviceOf x deviceId _ hx hid
    case h_2 hid => exact Option.some.inj hstep ▸ .deviceOfThrows x deviceId hid
    case h_3 => cases hstep
  | setConfigs x cs =>
    simp only [step] at hstep
    split at hstep
    case h_1 hx => exact Option.some.inj hstep ▸ .setConfigs x cs _ hx
    case h_2 => cases hstep
  | setInterfaces p is =>
    obtain ⟨a, ha, hstep⟩ := Option.bind_eq_some_iff.1 hstep
    split at hstep
    case h_1 c hc => exact Option.some.inj hstep ▸ .setInterfaces p is a c ha hc
    case h_2 => cases hstep
  | keep k p =>
    obtain ⟨a, ha, hstep⟩ := Option.bind_eq_some_iff.1 hstep
    exact Option.some.inj hstep ▸ .keep k p a ha
  | drop k => exact Option.some.inj hstep ▸ .drop k
  | claim p code h =>
    obtain ⟨a, ha, hstep⟩ := Option.bind_eq_some_iff.1 hstep
    split at hstep
    case h_2 => cases hstep
    case h_1 i hi =>
      by_cases hcode : code = .USB_DDK_SUCCESS
      · subst hcode
        rw [claim_of_success] at hstep
        split_ifs at hstep with hfresh
        exact Option.some.inj hstep ▸ .claim p h a i ha hi hfresh
      · obtain ⟨e, he⟩ := claim_of_ne w a i hcode h
        rw [he] at hstep
        exact Option.some.inj hstep ▸ .claimThrows p code h hcode
  | release p =>
    obtain ⟨a, ha, hstep⟩ := Option.bind_eq_some_iff.1 hstep
    split at hstep
    case h_1 i hi => exact Option.some.inj hstep ▸ .release p a i ha hi
    case h_2 => cases hstep
  | destroy x =>
    simp only [step] at hstep
    split at hstep
    case h_1 hx => exact Option.some.inj hstep ▸ .destroy x _ hx
    case h_2 => cases hstep

omit [DecidableEq η] in
theorem Valid.step {w w' : World ι κ η} {op : Op ι κ η} (hw : Valid w.shared [])
    (hstep : Step w op w') : Valid w'.shared [] := by
  have hroots : ∀ x, ∀ a ∈ w.shared.roots x, Reachable w.shared a := fun x a ha => .root ha
  cases hstep with
  | construct x d hx =>
    exact (makesRank_newConfig.makeAll_nil hw d.configs_).1.moveRoot _
  | addDevice deviceId x d hx hid | deviceOf x deviceId d hx hid => exact hw.assign (hroots _) _
  | addKnown deviceId x d hid | deviceOfThrows x deviceId hid | claimThrows p code h hcode =>
    exact hw
  | setConfigs x cs d hx =>
    exact (makesRank_newConfig.makeAll_nil hw cs).1.moveRoot _
  | setInterfaces p is a c ha hc =>
    obtain ⟨hvalid, hext, hrank⟩ := makesRank_newInterface.makeAll_nil hw is
    obtain ⟨⟨b, hb⟩, hranka⟩ := exists_block_of_find hw ha hext
    refine hvalid.moveOwned hb fun e he => ?_
    rw [hrank e he, hranka, rank_of_made hc]
    rfl
  | keep k p a ha =>
    exact hw.assign (fun c hc => List.mem_singleton.1 hc ▸ reachable_of_find ha) _
  | drop k | destroy x d hx => exact hw.moveRoot _
  | claim p h a i ha hi hfresh =>
    have hvalid := hw.make_nil
      (fresh_of_not_mem_granted hfresh ⟨i.deviceId_, i.interfaceIndex_, h⟩ rfl)
    obtain ⟨⟨b, hb⟩, hranka⟩ := exists_block_of_find hw ha (.make w.shared _ [])
    refine hvalid.moveOwned hb fun e he => ?_
    obtain rfl := List.mem_singleton.1 he
    rw [hranka, rank_of_made hi, rank_of_made (Valid.made_make _ _ _)]
    rfl
  | release p a i ha hi =>
    obtain ⟨⟨b, hb⟩, -⟩ := exists_block_of_find hw ha (.refl _)
    exact hw.moveOwned hb fun c hc => (nomatch hc)

theorem Valid.run {ops : List (Op ι κ η)} {w : World ι κ η} (hrun : machine.run ops = some w) :
    Valid w.shared [] :=
  Machine.invariant (I := fun w : World ι κ η => Valid w.shared []) .empty
    (fun _ _ _ hstep hw => hw.step (step_cases hstep)) hrun

omit [DecidableEq η] in
/-- The pointers of one variable are replaced. -/
theorem roots_update {w w' : World ι κ η} {x : Variable ι κ} {as : List ℕ}
    (h : ∀ v, ¬ w.Alive v → w.shared.roots v = [])
    (hroots : w'.shared.roots = Function.update w.shared.roots x as)
    (hx : ¬ w'.Alive x → as = []) (halive : ∀ v, v ≠ x → w.Alive v → w'.Alive v) :
    ∀ v, ¬ w'.Alive v → w'.shared.roots v = [] := by
  intro v hv
  rw [hroots]
  by_cases hvx : v = x
  · subst hvx
    rw [Function.update_self, hx hv]
  · rw [Function.update_of_ne hvx]
    exact h v fun hw => hv (halive v hvx hw)

omit [DecidableEq κ] [DecidableEq η] in
/-- Only one device of the program comes or goes. -/
theorem alive_update {w : World ι κ η} {s : Objects ι κ η} {x : ι} {o : Option USBDevice}
    {v : Variable ι κ} (hv : v ≠ .device x) (h : w.Alive v) :
    World.Alive ⟨Function.update w.locals x o, w.devices_, s⟩ v := by
  cases v with
  | device y =>
    have hyx : y ≠ x := fun heq => hv (congrArg _ heq)
    simpa [World.Alive, Function.update_of_ne hyx] using h
  | registered deviceId | kept k => exact h

omit [DecidableEq η] in
theorem roots_step {w w' : World ι κ η} {op : Op ι κ η} (hw : Valid w.shared [])
    (h : ∀ v, ¬ w.Alive v → w.shared.roots v = []) (hstep : Step w op w') :
    ∀ v, ¬ w'.Alive v → w'.shared.roots v = [] := by
  have hroots : ∀ x, ∀ a ∈ w.shared.roots x, ∃ b, w.shared.blocks a = some b :=
    fun x a ha => hw.counted.exists_of_reachable (.root ha)
  cases hstep with
  | construct x d hx =>
    obtain ⟨hvalid, hext, -⟩ := makesRank_newConfig.makeAll_nil hw d.configs_
    have hmove := (hvalid.counted.moveRoot (.device x)).2.roots
    exact roots_update h (hmove.trans (by rw [Store.setRoot, hext.roots]))
      (fun hv => absurd (by simp [World.Alive]) hv) fun v => alive_update
  | addDevice deviceId x d hx hid =>
    have hassign := (hw.counted.assign (hroots (.device x)) (.registered deviceId)).2.roots
    refine roots_update h hassign (fun hv => absurd ?_ hv) fun v hvx hv => ?_
    · simp [World.Alive, UnorderedMap.lookup_emplace_self]
    · cases v with
      | registered deviceId' =>
        have hne : deviceId' ≠ deviceId := fun heq => hvx (congrArg _ heq)
        simpa [World.Alive, UnorderedMap.lookup_emplace_of_ne _ _ hne] using hv
      | device y | kept k => exact hv
  | deviceOf x deviceId d hx hid =>
    have hassign := (hw.counted.assign (hroots (.registered deviceId)) (.device x)).2.roots
    exact roots_update h hassign (fun hv => absurd (by simp [World.Alive]) hv)
      fun v => alive_update
  | addKnown deviceId x d hid | deviceOfThrows x deviceId hid | claimThrows p code k hcode =>
    exact h
  | setConfigs x cs d hx =>
    obtain ⟨hvalid, hext, -⟩ := makesRank_newConfig.makeAll_nil hw cs
    have hmove := (hvalid.counted.moveRoot (.device x)).2.roots
    exact roots_update h (hmove.trans (by rw [Store.setRoot, hext.roots]))
      (fun hv => absurd (by simp [World.Alive, hx]) hv) fun v _ hv => hv
  | setInterfaces p is a c ha hc =>
    obtain ⟨hvalid, hext, -⟩ := makesRank_newInterface.makeAll_nil hw is
    obtain ⟨⟨b, hb⟩, -⟩ := exists_block_of_find hw ha hext
    intro v hv
    exact (congrFun ((hvalid.counted.moveOwned hb).2.roots.trans hext.roots) v).trans (h v hv)
  | keep k p a ha =>
    have halive : ∀ c ∈ [a], ∃ b, w.shared.blocks c = some b := fun c hc =>
      List.mem_singleton.1 hc ▸ hw.counted.exists_of_reachable (reachable_of_find ha)
    have hassign := (hw.counted.assign halive (.kept k)).2.roots
    exact roots_update h hassign (fun hv => absurd trivial hv) fun v _ hv => hv
  | drop k =>
    exact roots_update h (hw.counted.moveRoot (.kept k)).2.roots (fun _ => rfl) fun v _ hv => hv
  | claim p k a i ha hi hfresh =>
    have hext := Extends.make w.shared (.handle ⟨i.deviceId_, i.interfaceIndex_, k⟩) []
    obtain ⟨⟨b, hb⟩, -⟩ := exists_block_of_find hw ha hext
    have hmove := ((hw.counted.make_nil _).moveOwned hb).2.roots
    intro v hv
    exact (congrFun (hmove.trans hext.roots) v).trans (h v hv)
  | release p a i ha hi =>
    obtain ⟨⟨b, hb⟩, -⟩ := exists_block_of_find hw ha (.refl _)
    intro v hv
    exact (congrFun (hw.counted.moveOwned hb).2.roots v).trans (h v hv)
  | destroy x d hx =>
    exact roots_update h (hw.counted.moveRoot (.device x)).2.roots (fun _ => rfl)
      fun v => alive_update

/-- In every run, only what is there has pointers. -/
theorem roots_of_not_alive {ops : List (Op ι κ η)} {w : World ι κ η}
    (hrun : machine.run ops = some w) {v : Variable ι κ} (hv : ¬ w.Alive v) :
    w.shared.roots v = [] := by
  have hrooted : Valid w.shared [] ∧ ∀ v, ¬ w.Alive v → w.shared.roots v = [] :=
    Machine.invariant
      (I := fun w : World ι κ η => Valid w.shared [] ∧ ∀ v, ¬ w.Alive v → w.shared.roots v = [])
      ⟨.empty, fun _ _ => rfl⟩
      (fun _ _ _ hstep hs =>
        ⟨hs.1.step (step_cases hstep), roots_step hs.1 hs.2 (step_cases hstep)⟩) hrun
  exact hrooted.2 v hv

/-! ## Releases -/

omit [DecidableEq ι] [DecidableEq κ] [DecidableEq η] in
theorem mem_granted {w : World ι κ η} {h : η} :
    h ∈ w.granted ↔ ∃ a, handleAt w.shared a = some h := by
  rw [World.granted, List.mem_filterMap]
  refine ⟨fun ⟨v, hv, hh⟩ => ?_, fun ⟨a, ha⟩ => ?_⟩
  · obtain ⟨a, ha⟩ := List.mem_iff_getElem?.1 hv
    exact ⟨a, by rw [handleAt, ha, Option.bind_some, hh]⟩
  · obtain ⟨v, hv, hh⟩ := Option.bind_eq_some_iff.1 ha
    exact ⟨v, List.mem_of_getElem? hv, hh⟩

omit [DecidableEq ι] [DecidableEq κ] [DecidableEq η] in
theorem handleAt_eq_some {s : Objects ι κ η} {a : ℕ} {h : η} :
    handleAt s a = some h ↔ ∃ this, s.made[a]? = some (.handle this) ∧ this.handle_ = h := by
  rw [handleAt, Option.bind_eq_some_iff]
  refine ⟨fun ⟨v, hv, hh⟩ => ?_, fun ⟨this, hthis, hh⟩ => ⟨_, hthis, congrArg some hh⟩⟩
  cases v with
  | config c | interface i => cases hh
  | handle this => exact ⟨this, hv, Option.some.inj hh⟩

omit [DecidableEq ι] [DecidableEq κ] in
/-- A handle is given back when its object is destroyed. -/
theorem released_eq {w : World ι κ η} (hw : Valid w.shared []) {a : ℕ} {h : η}
    (ha : handleAt w.shared a = some h) : w.released h = w.shared.destroyed.count a := by
  rw [World.released, List.count_filterMap, List.count_eq_countP]
  refine List.countP_congr fun c _ => ?_
  rw [beq_iff_eq, beq_iff_eq]
  exact ⟨fun hc => hw.handles c a h hc ha, fun hc => hc ▸ ha⟩

omit [DecidableEq ι] [DecidableEq κ] [DecidableEq η] in
theorem holds_iff {w : World ι κ η} (hw : Valid w.shared []) {a : ℕ} {h : η}
    (ha : handleAt w.shared a = some h) : w.Holds h ↔ Reachable w.shared a := by
  refine ⟨fun ⟨c, this, hc, hthis⟩ => ?_, fun hreach => ?_⟩
  · rwa [hw.handles a c h ha (handleAt_eq_some.2 ⟨this, hthis⟩)]
  · obtain ⟨this, hthis⟩ := handleAt_eq_some.1 ha
    exact ⟨a, this, hreach, hthis⟩

omit [DecidableEq ι] [DecidableEq κ] in
/-- A handle that was granted is held, or was given back once. -/
theorem released_iff {w : World ι κ η} (hw : Valid w.shared []) (h : η) :
    w.released h ≤ 1 ∧ (w.released h = 1 ↔ h ∈ w.granted ∧ ¬ w.Holds h) := by
  by_cases hgranted : h ∈ w.granted
  · obtain ⟨a, ha⟩ := mem_granted.1 hgranted
    obtain ⟨this, hthis, -⟩ := handleAt_eq_some.1 ha
    have hlt : a < w.shared.made.length := (List.getElem?_eq_some_iff.1 hthis).1
    have halive := hw.counted.alive_iff_reachable (a := a) (rank_le w.shared)
      fun c d hd => Nat.lt_of_succ_le (Nat.le_of_eq (hw.owned c d hd))
    have hnone : w.shared.blocks a = none ↔ ¬ w.Holds h := by
      rw [holds_iff hw ha, ← halive, ← Option.isSome_iff_exists, Option.not_isSome_iff_eq_none]
    rw [released_eq hw ha, hw.counted.destroyed a, ← hnone]
    by_cases hb : w.shared.blocks a = none <;> simp [hb, hlt, hgranted]
  · have hnever : ∀ a, handleAt w.shared a ≠ some h := fun a ha => hgranted (mem_granted.2 ⟨a, ha⟩)
    have hzero : w.released h = 0 := by
      rw [World.released, List.count_filterMap, List.countP_eq_zero]
      exact fun a _ hc => hnever a (beq_iff_eq.1 hc)
    simp [hzero, hgranted]

/-- **Releases.** In every run, a handle that was granted is given back once when nothing leads to
it any more, and not before; only devices, entries of the manager and kept pointers that are there
lead anywhere. -/
theorem released_iff_unreachable {ops : List (Op ι κ η)} {w : World ι κ η}
    (hrun : machine.run ops = some w) :
    (∀ h, w.released h ≤ 1 ∧ (w.released h = 1 ↔ h ∈ w.granted ∧ ¬ w.Holds h)) ∧
      ∀ v, ¬ w.Alive v → w.shared.roots v = [] :=
  ⟨released_iff (Valid.run hrun), fun _ => roots_of_not_alive hrun⟩

/-- The instance at a device that is destroyed while its only interface is claimed. -/
theorem released_iff_unreachable_destroyed : ∃ ops, ∃ w : World ℕ ℕ ℕ, machine.run ops = some w ∧
    40 ∈ w.granted ∧ ¬ w.Holds 40 := by
  have hrun : machine.run ([
      .construct 0 ((USBDevice.ofId 7).setConfigs [(USBConfig.ofIndex 7 0).setInterfaces
        [.ofIndex 7 3]]),
      .claim (.interfaceOf (.configOf 0 0) 0) .USB_DDK_SUCCESS 40,
      .destroy 0] : List (Op ℕ ℕ ℕ)) = some _ := rfl
  exact ⟨_, _, hrun, ((released_iff_unreachable hrun).1 40).2.1 (by decide)⟩

end

end Lifetimes

end OhosWrapper.Usb
