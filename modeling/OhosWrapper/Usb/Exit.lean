import OhosWrapper.Usb.Destructors
import OhosWrapper.Usb.Lifetimes

/-!
# The end of the program

The manager is a singleton. Its constructor, when it is first used, calls `OH_Usb_Init`, and its
destructor, at the end of the program, calls `OH_Usb_Release`; the devices it has are destroyed
after that, and the claims that only they lead to with them. The programs are those of `Lifetimes`:
children that are replaced give way to new objects, and devices are copied through the manager only.

**The driver.** It serves calls from `OH_Usb_Init` to `OH_Usb_Release`: an interface can be claimed
and a claim is taken back in between, and at no other time (`Serves`).

**Theorem (`exit_ends_iff`).** Until the manager is destroyed no destructor throws. Its own ends
the program exactly when a claim is left that only registered devices lead to, and a program that
lets go of everything is ended by a destructor exactly when anything at all was claimed then.
-/

namespace OhosWrapper.Usb

namespace Lifetimes

open Refcount Forest
open USBInterface (Handle)

/-! ## Programs -/

/-- Before the first call of `Instance`, from `OH_Usb_Init` to `OH_Usb_Release`, and after. -/
inductive Manager
  | absent
  | constructed
  | destroyed
  deriving DecidableEq

/-- `addDevice` and `deviceOf` are called on `USBHostManager::Instance()`. -/
def Op.usesManager {ι κ η : Type} : Op ι κ η → Bool
  | addDevice _ _ => true
  | deviceOf _ _ => true
  | _ => false

structure Process (ι κ η : Type) where
  world : World ι κ η
  manager : Manager
  terminated : Bool

/-- `Instance` has the result of `OH_Usb_Init`, and the others those of `OH_Usb_ReleaseInterface`
for each handle. At `exit` the manager is destroyed, its entries in any order; devices and pointers
that are still there are static objects, which are destroyed later. -/
inductive Event (ι κ η : Type)
  | Instance (code : USBErrCode)
  | op (op : Op ι κ η) (code : η → USBErrCode)
  | exit (order : List UInt64) (code : η → USBErrCode)

variable {ι κ η : Type}

/-- What the devices of the program and the kept pointers lead to. -/
def World.withoutManager (w : World ι κ η) : World ι κ η where
  locals := w.locals
  devices_ := ∅
  shared := { w.shared with
    roots := fun v => match v with
      | .registered _ => []
      | v => w.shared.roots v }

/-- Nothing of the program is left. -/
def World.Empty (w : World ι κ η) : Prop :=
  (∀ x, w.locals x = none) ∧ ∀ k, w.shared.roots (.kept k) = []

section

variable [DecidableEq η]

/-- The objects that are destroyed from one state to the other. -/
def gone (w w' : World ι κ η) : List (Handle η) :=
  w'.shared.made.filterMap fun v => match v with
    | .handle this => if w.released this.handle_ < w'.released this.handle_ then some this else none
    | _ => none

/-- One of their destructors throws. -/
def ends (code : η → USBErrCode) (w w' : World ι κ η) : Bool :=
  (gone w w').any fun this => (Handle.destroy this (code this.handle_)).2

variable [DecidableEq ι] [DecidableEq κ]

/-- The entries let go of their configurations. -/
def destroyEntries (s : Objects ι κ η) (order : List UInt64) : Objects ι κ η :=
  order.foldl (fun s deviceId => s.moveRoot (.registered deviceId) []) s

/-- `devices_` is destroyed. -/
def World.clear (w : World ι κ η) (order : List UInt64) : World ι κ η :=
  { w with devices_ := ∅, shared := destroyEntries w.shared order }

namespace Process

/-- One event. A program that was terminated does nothing more, and the manager is not used before
its constructor or after its destructor, which is undefined. What is left of the objects of a
program that was terminated does not matter. -/
def step (p : Process ι κ η) (e : Event ι κ η) : Option (Process ι κ η) :=
  if p.terminated then none
  else match e with
    | .Instance code =>
      match p.manager with
      | .absent =>
        match usbCheckError code "OH_Usb_Init()" with
        | .ok _ => some { p with manager := .constructed }
        | .error _ => some p
      | .constructed => some p
      | .destroyed => none
    | .op op code =>
      if op.usesManager ∧ p.manager ≠ .constructed then none
      else (Lifetimes.step p.world op).map fun w => ⟨w, p.manager, ends code p.world w⟩
    | .exit order code =>
      if p.manager = .constructed ∧ order.Perm p.world.devices_.keys then
        some ⟨p.world.clear order, .destroyed, ends code p.world (p.world.clear order)⟩
      else none

def machine : Machine (Process ι κ η) (Event ι κ η) := ⟨⟨.empty, .absent, false⟩, step⟩

end Process

end

/-- A handle that was granted and not given back. -/
def World.Outstanding [DecidableEq η] (w : World ι κ η) (h : η) : Prop :=
  h ∈ w.granted ∧ w.released h = 0

/-- What the driver is relied on for. `exit` calls `OH_Usb_Release` before anything else. -/
def Serves [DecidableEq η] (p : Process ι κ η) : Event ι κ η → Prop
  | .Instance _ => True
  | .op op code => (∀ q h, op = .claim q .USB_DDK_SUCCESS h → p.manager = .constructed) ∧
      ∀ h, p.world.Outstanding h → (code h = .USB_DDK_SUCCESS ↔ p.manager = .constructed)
  | .exit _ code => ∀ h, p.world.Outstanding h → code h ≠ .USB_DDK_SUCCESS

/-! ## Handles over time -/

section

variable {w w' : World ι κ η}

theorem handleAt_later {s s' : Objects ι κ η} (hs : Later s s') {a : ℕ} {h : η}
    (ha : handleAt s a = some h) : handleAt s' a = some h := by
  obtain ⟨v, hv, hh⟩ := Option.bind_eq_some_iff.1 ha
  obtain ⟨rest, hrest⟩ := hs.made
  have hlt := (List.getElem?_eq_some_iff.1 hv).1
  exact Option.bind_eq_some_iff.2 ⟨v, by rw [← hrest, List.getElem?_append_left hlt, hv], hh⟩

theorem granted_later (hs : Later w.shared w'.shared) {h : η} (hgranted : h ∈ w.granted) :
    h ∈ w'.granted := by
  obtain ⟨a, ha⟩ := mem_granted.1 hgranted
  exact mem_granted.2 ⟨a, handleAt_later hs ha⟩

theorem granted_of_holds {h : η} (hh : w.Holds h) : h ∈ w.granted := by
  obtain ⟨a, this, -, hthis, rfl⟩ := hh
  exact mem_granted.2 ⟨a, handleAt_eq_some.2 ⟨this, hthis, rfl⟩⟩

variable [DecidableEq η]

theorem outstanding_iff (hw : Valid w.shared []) {h : η} : w.Outstanding h ↔ w.Holds h := by
  obtain ⟨hle, hiff⟩ := released_iff hw h
  refine ⟨fun ⟨hgranted, hzero⟩ => ?_, fun hh => ⟨granted_of_holds hh, ?_⟩⟩
  · by_contra hh
    have := hiff.2 ⟨hgranted, hh⟩
    omega
  · have hne : w.released h ≠ 1 := fun hone => (hiff.1 hone).2 hh
    omega

/-- What is given back stays given back. -/
theorem released_later (hw : Valid w.shared []) (hw' : Valid w'.shared [])
    (hs : Later w.shared w'.shared) (h : η) : w.released h ≤ w'.released h := by
  by_cases hgranted : h ∈ w.granted
  · obtain ⟨a, ha⟩ := mem_granted.1 hgranted
    rw [released_eq hw ha, released_eq hw' (handleAt_later hs ha)]
    exact hs.destroyed.sublist.count_le a
  · have hne : w.released h ≠ 1 := fun hone => hgranted ((released_iff hw h).2.1 hone).1
    have := (released_iff hw h).1
    omega

/-- The objects of `w'` come from those of `w`, and a new claim is there. -/
structure Follows (w w' : World ι κ η) : Prop where
  before : Valid w.shared []
  after : Valid w'.shared []
  later : Later w.shared w'.shared
  claimed : ∀ h, h ∈ w'.granted → h ∉ w.granted → w'.Holds h

theorem Follows.holds_of_holds (hf : Follows w w') {h : η} (hgranted : h ∈ w.granted)
    (hh : w'.Holds h) : w.Holds h := by
  refine (outstanding_iff hf.before).1 ⟨hgranted, ?_⟩
  have hzero := ((outstanding_iff hf.after).2 hh).2
  have := released_later hf.before hf.after hf.later h
  omega

/-- The claims that are given back are those that are there before and not after. -/
theorem Follows.released_lt_iff (hf : Follows w w') {h : η} :
    w.released h < w'.released h ↔ w.Holds h ∧ ¬ w'.Holds h := by
  refine ⟨fun hlt => ?_, fun ⟨hh, hh'⟩ => ?_⟩
  · obtain ⟨hle, hiff⟩ := released_iff hf.after h
    obtain ⟨hgranted', hh'⟩ := hiff.1 (by omega)
    have hgranted : h ∈ w.granted := by
      by_contra hgranted
      exact hh' (hf.claimed h hgranted' hgranted)
    exact ⟨(outstanding_iff hf.before).1 ⟨hgranted, by omega⟩, hh'⟩
  · have hzero := ((outstanding_iff hf.before).2 hh).2
    have hone := (released_iff hf.after h).2.2 ⟨granted_later hf.later (granted_of_holds hh), hh'⟩
    omega

theorem Follows.ends_iff (hf : Follows w w') {code : η → USBErrCode} :
    ends code w w' = true ↔ ∃ h, w.Holds h ∧ ¬ w'.Holds h ∧ code h ≠ .USB_DDK_SUCCESS := by
  have hthrows : ∀ this : Handle η, (Handle.destroy this (code this.handle_)).2 = true ↔
      code this.handle_ ≠ .USB_DDK_SUCCESS := by
    intro this
    rw [← Bool.not_eq_false, not_iff_not]
    exact throws_checkError_iff
  rw [ends, List.any_eq_true]
  refine ⟨fun ⟨this, hthis, hcode⟩ => ?_, fun ⟨h, hh, hh', hcode⟩ => ?_⟩
  · obtain ⟨v, -, hv⟩ := List.mem_filterMap.1 hthis
    cases v with
    | config c | interface i => cases hv
    | handle that =>
      dsimp only at hv
      split_ifs at hv with hlt
      obtain rfl := Option.some.inj hv
      obtain ⟨hh, hh'⟩ := hf.released_lt_iff.1 hlt
      exact ⟨_, hh, hh', (hthrows that).1 hcode⟩
  · obtain ⟨a, ha⟩ := mem_granted.1 (granted_later hf.later (granted_of_holds hh))
    obtain ⟨this, hthis, rfl⟩ := handleAt_eq_some.1 ha
    refine ⟨this, List.mem_filterMap.2 ⟨_, List.mem_of_getElem? hthis, ?_⟩, (hthrows this).2 hcode⟩
    exact if_pos (hf.released_lt_iff.2 ⟨hh, hh'⟩)

end

/-! ## Operations -/

theorem later_makeAll {α : Type} {make : Objects ι κ η → α → Objects ι κ η × ℕ}
    (hmake : ∀ s x, Later s (make s x).1) (s : Objects ι κ η) (xs : List α) :
    Later s (makeAll make s xs).1 := by
  induction xs generalizing s with
  | nil => exact .refl s
  | cons x xs ih => exact (hmake s x).trans (ih _)

theorem later_newInterface (s : Objects ι κ η) (i : USBInterface) : Later s (newInterface s i).1 :=
  .make s _ _

theorem later_newConfig (s : Objects ι κ η) (c : USBConfig) : Later s (newConfig s c).1 :=
  (later_makeAll later_newInterface s c.interfaces_).trans (.make _ _ _)

/-- The handles that were granted, from the objects that were made. -/
def handles (s : Objects ι κ η) : List η := s.made.filterMap Part.handle_

theorem handles_make (s : Objects ι κ η) (v : Part η) (as : List ℕ) :
    handles (s.make v as).1 = handles s ++ v.handle_.toList := by
  cases hv : v.handle_ <;> simp [handles, Store.make, hv]

theorem handles_newInterface (s : Objects ι κ η) (i : USBInterface) :
    handles (newInterface s i).1 = handles s :=
  (handles_make s _ _).trans (List.append_nil _)

theorem handles_newConfig (s : Objects ι κ η) (c : USBConfig) :
    handles (newConfig s c).1 = handles s := by
  rw [newConfig, handles_make, makeAll_keeps handles handles_newInterface]
  exact List.append_nil _

section

variable [DecidableEq ι] [DecidableEq κ] {w w' : World ι κ η} {op : Op ι κ η}

theorem later_step (hstep : Step w op w') : Later w.shared w'.shared := by
  cases hstep with
  | construct x d hx =>
    exact (later_makeAll later_newConfig _ d.configs_).trans (.moveRoot _ _ _)
  | addDevice deviceId x d hx hid | deviceOf x deviceId d hx hid => exact .assign _ _ _
  | addKnown deviceId x d hid | deviceOfThrows x deviceId hid | claimThrows p code h hcode =>
    exact .refl _
  | setConfigs x cs d hx =>
    exact (later_makeAll later_newConfig _ cs).trans (.moveRoot _ _ _)
  | setInterfaces p is a c ha hc =>
    exact (later_makeAll later_newInterface _ is).trans (.moveOwned _ _ _)
  | keep k p a ha => exact .assign _ _ _
  | drop k | destroy x d hx => exact .moveRoot _ _ _
  | claim p h a i ha hi hfresh => exact (Later.make _ _ _).trans (.moveOwned _ _ _)
  | release p a i ha hi => exact .moveOwned _ _ _

/-- Only `claim` grants a handle, to an interface that something leads to. -/
theorem granted_step (hw : Valid w.shared []) (hstep : Step w op w') :
    w'.granted = w.granted ∨ ∃ p h, op = .claim p .USB_DDK_SUCCESS h ∧
      w'.granted = w.granted ++ [h] ∧ w'.Holds h := by
  have hroots : ∀ x, ∀ a ∈ w.shared.roots x, ∃ b, w.shared.blocks a = some b :=
    fun x a ha => hw.counted.exists_of_reachable (.root ha)
  have hmade : ∀ {s s' : Objects ι κ η}, s'.made = s.made → handles s' = handles s :=
    fun h => congrArg (List.filterMap Part.handle_) h
  have hconfigs : ∀ x cs, handles ((makeAll newConfig w.shared cs).1.moveRoot x
      (makeAll newConfig w.shared cs).2) = handles w.shared := by
    intro x cs
    obtain ⟨hvalid, -⟩ := makesRank_newConfig.makeAll_nil hw cs
    exact (hmade (hvalid.counted.moveRoot x).2.made).trans
      (makeAll_keeps handles handles_newConfig _ _)
  cases hstep with
  | construct x d hx => exact .inl (hconfigs _ d.configs_)
  | addDevice deviceId x d hx hid =>
    exact .inl (hmade (hw.counted.assign (hroots (.device x)) _).2.made)
  | deviceOf x deviceId d hx hid =>
    exact .inl (hmade (hw.counted.assign (hroots (.registered deviceId)) _).2.made)
  | addKnown deviceId x d hid | deviceOfThrows x deviceId hid | claimThrows p code h hcode =>
    exact .inl rfl
  | setConfigs x cs d hx => exact .inl (hconfigs _ cs)
  | setInterfaces p is a c ha hc =>
    obtain ⟨hvalid, hext, -⟩ := makesRank_newInterface.makeAll_nil hw is
    obtain ⟨⟨b, hb⟩, -⟩ := exists_block_of_find hw ha hext
    exact .inl ((hmade (hvalid.counted.moveOwned hb).2.made).trans
      (makeAll_keeps handles handles_newInterface _ _))
  | keep k p a ha =>
    have halive : ∀ c ∈ [a], ∃ b, w.shared.blocks c = some b := fun c hc =>
      List.mem_singleton.1 hc ▸ hw.counted.exists_of_reachable (reachable_of_find ha)
    exact .inl (hmade (hw.counted.assign halive _).2.made)
  | drop k | destroy x d hx => exact .inl (hmade (hw.counted.moveRoot _).2.made)
  | claim p h a i ha hi hfresh =>
    have hvalid := hw.make_nil
      (fresh_of_not_mem_granted hfresh ⟨i.deviceId_, i.interfaceIndex_, h⟩ rfl)
    have hext := Extends.make w.shared (.handle ⟨i.deviceId_, i.interfaceIndex_, h⟩) []
    obtain ⟨⟨b, hb⟩, -⟩ := exists_block_of_find hw ha hext
    have hsame := (hvalid.counted.moveOwned hb).2.made
    refine .inr ⟨p, h, rfl, (hmade hsame).trans (handles_make w.shared _ []), ?_⟩
    have hreach := ((reachable_of_find ha).extend hw.counted hext).moveOwned
      (fun c d hd => Nat.lt_of_succ_le (Nat.le_of_eq (hvalid.owned c d hd))) hvalid.counted hb
      (List.mem_singleton_self _)
    exact ⟨_, _, hreach, (congrArg (·[_]?) hsame).trans (Valid.made_make _ _ _), rfl⟩
  | release p a i ha hi =>
    obtain ⟨⟨b, hb⟩, -⟩ := exists_block_of_find hw ha (.refl _)
    exact .inl (hmade (hw.counted.moveOwned hb).2.made)

theorem follows_step (hw : Valid w.shared []) (hstep : Step w op w') : Follows w w' where
  before := hw
  after := hw.step hstep
  later := later_step hstep
  claimed h hh hnew := by
    obtain hsame | ⟨p, k, -, hgranted, hk⟩ := granted_step hw hstep
    · rw [hsame] at hh
      exact absurd hh hnew
    · rw [hgranted, List.mem_append] at hh
      obtain rfl := List.mem_singleton.1 (hh.resolve_left hnew)
      exact hk

end

/-! ## The destructor of the manager -/

section

variable [DecidableEq ι] [DecidableEq κ] {w : World ι κ η} {order : List UInt64}

theorem destroyEntries_spec {s : Objects ι κ η} (hs : Valid s []) (order : List UInt64) :
    Valid (destroyEntries s order) [] ∧ Later s (destroyEntries s order) ∧
      Frees { s with roots := fun v => if v ∈ order.map .registered then [] else s.roots v }
        (destroyEntries s order) := by
  induction order generalizing s with
  | nil => exact ⟨hs, .refl s, .refl s⟩
  | cons deviceId order ih =>
    obtain ⟨hvalid, hlater, hfrees⟩ := ih (hs.moveRoot (.registered deviceId))
    obtain ⟨-, hfirst⟩ := hs.counted.moveRoot (.registered deviceId)
    refine ⟨hvalid, (Later.moveRoot _ _ _).trans hlater, hfrees.made.trans hfirst.made, ?_, ?_⟩
    · refine hfrees.roots.trans ?_
      funext v
      rw [hfirst.roots, List.map_cons, Store.setRoot]
      by_cases hv : v = .registered deviceId
      · simp [hv]
      · simp [hv]
    · intro a b hb
      obtain ⟨howned, b', hb'⟩ := hfrees.owned a b hb
      obtain ⟨howned', hold⟩ := hfirst.owned a b' hb'
      exact ⟨howned.trans howned', hold⟩

/-- The entries of the manager are gone, and what only they lead to with them. -/
theorem frees_clear (hw : Valid w.shared []) (hroots : ∀ v, ¬ w.Alive v → w.shared.roots v = [])
    (horder : order.Perm w.devices_.keys) :
    Frees w.withoutManager.shared (w.clear order).shared := by
  obtain ⟨-, -, hfrees⟩ := destroyEntries_spec hw order
  refine ⟨hfrees.made, hfrees.roots.trans ?_, hfrees.owned⟩
  funext v
  cases v with
  | device x | kept k => simp [World.withoutManager]
  | registered deviceId =>
    by_cases hmem : deviceId ∈ order
    · simp [World.withoutManager, hmem]
    · have hdead : ¬ w.Alive (.registered deviceId) := by
        rwa [horder.mem_iff, ← AList.mem_keys, ← AList.lookup_isSome] at hmem
      simp [World.withoutManager, hroots _ hdead]

theorem granted_clear (hw : Valid w.shared [])
    (hroots : ∀ v, ¬ w.Alive v → w.shared.roots v = []) (horder : order.Perm w.devices_.keys) :
    (w.clear order).granted = w.granted :=
  congrArg (List.filterMap Part.handle_) (frees_clear hw hroots horder).made

theorem follows_clear (hw : Valid w.shared [])
    (hroots : ∀ v, ¬ w.Alive v → w.shared.roots v = []) (horder : order.Perm w.devices_.keys) :
    Follows w (w.clear order) where
  before := hw
  after := (destroyEntries_spec hw order).1
  later := (destroyEntries_spec hw order).2.1
  claimed _ hh hnew := absurd (granted_clear hw hroots horder ▸ hh) hnew

theorem holds_clear (hw : Valid w.shared [])
    (hroots : ∀ v, ¬ w.Alive v → w.shared.roots v = []) (horder : order.Perm w.devices_.keys)
    {h : η} : (w.clear order).Holds h ↔ w.withoutManager.Holds h := by
  have hfrees := frees_clear hw hroots horder
  have hvalid := (destroyEntries_spec hw order).1
  have hmade : (w.clear order).shared.made = w.withoutManager.shared.made := hfrees.made
  have hreach : ∀ a, Reachable (w.clear order).shared a ↔ Reachable w.withoutManager.shared a :=
    fun a => hfrees.reachable_iff hvalid.counted
  simp only [World.Holds, hreach, hmade]

theorem roots_clear (hw : Valid w.shared [])
    (hroots : ∀ v, ¬ w.Alive v → w.shared.roots v = []) (horder : order.Perm w.devices_.keys) :
    ∀ v, ¬ (w.clear order).Alive v → (w.clear order).shared.roots v = [] := by
  intro v hv
  rw [(frees_clear hw hroots horder).roots]
  cases v with
  | device x => exact hroots (.device x) hv
  | registered deviceId => rfl
  | kept k => exact absurd trivial hv

end

/-! ## Runs -/

namespace Process

variable [DecidableEq ι] [DecidableEq κ] [DecidableEq η]

/-- What an event does. -/
inductive Moves (p : Process ι κ η) : Event ι κ η → Process ι κ η → Prop
  | constructed : p.manager = .absent →
      Moves p (.Instance .USB_DDK_SUCCESS) { p with manager := .constructed }
  | same (code : USBErrCode) : Moves p (.Instance code) p
  | op (op : Op ι κ η) (code : η → USBErrCode) (w : World ι κ η) :
      (op.usesManager = true → p.manager = .constructed) → Step p.world op w →
      Moves p (.op op code) ⟨w, p.manager, ends code p.world w⟩
  | exit (order : List UInt64) (code : η → USBErrCode) : p.manager = .constructed →
      order.Perm p.world.devices_.keys → Moves p (.exit order code)
      ⟨p.world.clear order, .destroyed, ends code p.world (p.world.clear order)⟩

theorem moves_of_step {p p' : Process ι κ η} {e : Event ι κ η} (hstep : p.step e = some p') :
    p.terminated = false ∧ Moves p e p' := by
  unfold step at hstep
  split_ifs at hstep with hterminated
  refine ⟨Bool.eq_false_iff.2 hterminated, ?_⟩
  cases e with
  | Instance code =>
    dsimp only at hstep
    split at hstep
    case h_1 hmanager =>
      split at hstep
      case h_1 hcode =>
        obtain rfl : code = .USB_DDK_SUCCESS := by
          by_contra hne
          simp [usbCheckError, checkError, hne] at hcode
        exact Option.some.inj hstep ▸ .constructed hmanager
      case h_2 => exact Option.some.inj hstep ▸ .same code
    case h_2 => exact Option.some.inj hstep ▸ .same code
    case h_3 => cases hstep
  | op op code =>
    dsimp only at hstep
    split_ifs at hstep with huses
    obtain ⟨w, hw, rfl⟩ := Option.map_eq_some_iff.1 hstep
    exact .op op code w (fun h => not_not.1 fun hne => huses ⟨h, hne⟩) (step_cases hw)
  | exit order code =>
    dsimp only at hstep
    split_ifs at hstep with hexit
    exact Option.some.inj hstep ▸ .exit order code hexit.1 hexit.2

/-- Nothing can be claimed without the manager, nothing is registered after it, and until then no
destructor throws. -/
structure Sound (p : Process ι κ η) : Prop where
  valid : Valid p.world.shared []
  roots : ∀ v, ¬ p.world.Alive v → p.world.shared.roots v = []
  absent : p.manager = .absent → p.world.granted = []
  destroyed : p.manager = .destroyed → p.world.devices_ = ∅
  running : p.manager ≠ .destroyed → p.terminated = false

omit [DecidableEq η] in
theorem devices_of_step {w w' : World ι κ η} {op : Op ι κ η} (hstep : Step w op w')
    (hop : op.usesManager = false) : w'.devices_ = w.devices_ := by
  cases hstep with
  | addDevice | addKnown | deviceOf | deviceOfThrows => cases hop
  | construct | setConfigs | setInterfaces => rfl
  | keep | drop | claim | claimThrows | release | destroy => rfl

/-- Handles are granted by a driver that serves calls. -/
theorem granted_of_serves {p : Process ι κ η} (hs : p.Sound) {op : Op ι κ η} {code : η → USBErrCode}
    (hserves : Serves p (.op op code)) {w : World ι κ η} (hstep : Step p.world op w)
    (hmanager : p.manager ≠ .constructed) : w.granted = p.world.granted := by
  obtain hsame | ⟨q, h, hop, -⟩ := granted_step hs.valid hstep
  · exact hsame
  · exact absurd (hserves.1 q h hop) hmanager

theorem Sound.step {p p' : Process ι κ η} {e : Event ι κ η} (hs : p.Sound) (hserves : Serves p e)
    (hp : p.terminated = false) (hmoves : Moves p e p') : p'.Sound := by
  cases hmoves with
  | constructed hmanager =>
    exact { hs with
      absent := fun h => (nomatch h)
      destroyed := fun h => (nomatch h)
      running := fun _ => hp }
  | same code => exact hs
  | op op code w huses hstep =>
    refine ⟨hs.valid.step hstep, roots_step hs.valid hs.roots hstep, fun hmanager => ?_,
      fun hmanager => ?_, fun hmanager => ?_⟩
    · have hne : p.manager ≠ .constructed := by rw [hmanager]; exact nofun
      exact (granted_of_serves hs hserves hstep hne).trans (hs.absent hmanager)
    · have hop : op.usesManager = false := by
        by_contra huse
        have := huses (Bool.eq_true_of_not_eq_false huse)
        rw [hmanager] at this
        cases this
      exact (devices_of_step hstep hop).trans (hs.destroyed hmanager)
    · -- What is given back is outstanding, so something was claimed, and the driver takes it.
      rw [← Bool.not_eq_true, (follows_step hs.valid hstep).ends_iff]
      rintro ⟨h, hh, -, hcode⟩
      have hout := (outstanding_iff hs.valid).2 hh
      refine hcode ((hserves.2 h hout).2 ?_)
      cases hm : p.manager with
      | absent =>
        have hgranted := hout.1
        rw [hs.absent hm] at hgranted
        cases hgranted
      | constructed => rfl
      | destroyed => exact absurd hm hmanager
  | exit order code hmanager horder =>
    exact {
      valid := (follows_clear hs.valid hs.roots horder).after
      roots := roots_clear hs.valid hs.roots horder
      absent := fun h => (nomatch h)
      destroyed := fun _ => rfl
      running := fun h => absurd rfl h }

/-- After the manager, and in its destructor, every claim that is given back ends the program. -/
theorem terminated_iff {p p' : Process ι κ η} {e : Event ι κ η} (hs : p.Sound)
    (hserves : Serves p e) (hp : p.terminated = false) (hmoves : Moves p e p')
    (hmanager : p'.manager = .destroyed) :
    p'.terminated = true ↔ ∃ h, p.world.Holds h ∧ ¬ p'.world.Holds h := by
  have hcodes : ∀ {w : World ι κ η} {code : η → USBErrCode}, Follows p.world w →
      (∀ h, p.world.Outstanding h → code h ≠ .USB_DDK_SUCCESS) →
      (ends code p.world w = true ↔ ∃ h, p.world.Holds h ∧ ¬ w.Holds h) := by
    intro w code hf hcode
    rw [hf.ends_iff]
    exact ⟨fun ⟨h, hh, hh', _⟩ => ⟨h, hh, hh'⟩,
      fun ⟨h, hh, hh'⟩ => ⟨h, hh, hh', hcode h ((outstanding_iff hs.valid).2 hh)⟩⟩
  cases hmoves with
  | constructed => cases hmanager
  | same code =>
    rw [hp]
    exact ⟨fun h => (nomatch h), fun ⟨h, hh, hh'⟩ => absurd hh hh'⟩
  | op op code w huses hstep =>
    refine hcodes (follows_step hs.valid hstep) fun h hout hcode => ?_
    have hconstructed := (hserves.2 h hout).1 hcode
    rw [show p.manager = .destroyed from hmanager] at hconstructed
    cases hconstructed
  | exit order code hconstructed horder =>
    exact hcodes (follows_clear hs.valid hs.roots horder) hserves

/-- So it is ended, or what was claimed is still claimed. -/
theorem claimed_iff {p p' : Process ι κ η} {e : Event ι κ η} (hs : p.Sound)
    (hserves : Serves p e) (hp : p.terminated = false) (hmoves : Moves p e p')
    (hmanager : p'.manager = .destroyed) :
    (p'.terminated = true ∨ ∃ h, p'.world.Holds h) ↔ ∃ h, p.world.Holds h := by
  have hiff := terminated_iff hs hserves hp hmoves hmanager
  have hback : ∀ h, p'.world.Holds h → p.world.Holds h := by
    intro h hh
    cases hmoves with
    | constructed => cases hmanager
    | same code => exact hh
    | op op code w huses hstep =>
      have hne : p.manager ≠ .constructed := by
        rw [show p.manager = .destroyed from hmanager]
        exact nofun
      have hgranted := granted_of_holds hh
      rw [granted_of_serves hs hserves hstep hne] at hgranted
      exact (follows_step hs.valid hstep).holds_of_holds hgranted hh
    | exit order code hconstructed horder =>
      have hgranted := granted_of_holds hh
      rw [granted_clear hs.valid hs.roots horder] at hgranted
      exact (follows_clear hs.valid hs.roots horder).holds_of_holds hgranted hh
  refine ⟨fun h => ?_, fun ⟨h, hh⟩ => ?_⟩
  · obtain hterminated | ⟨h, hh⟩ := h
    · obtain ⟨h, hh, -⟩ := hiff.1 hterminated
      exact ⟨h, hh⟩
    · exact ⟨h, hback h hh⟩
  · by_cases hh' : p'.world.Holds h
    · exact .inr ⟨h, hh'⟩
    · exact .inl (hiff.2 ⟨h, hh, hh'⟩)

omit [DecidableEq ι] [DecidableEq κ] [DecidableEq η] in
theorem not_holds_of_empty {p : Process ι κ η} (hs : p.Sound) (hmanager : p.manager = .destroyed)
    (hempty : p.world.Empty) (h : η) : ¬ p.world.Holds h := by
  have hroots : ∀ v, p.world.shared.roots v = [] := by
    intro v
    cases v with
    | device x => exact hs.roots _ (by simp [World.Alive, hempty.1 x])
    | registered deviceId => exact hs.roots _ (by simp [World.Alive, hs.destroyed hmanager])
    | kept k => exact hempty.2 k
  have hnone : ∀ a, ¬ Reachable p.world.shared a := by
    intro a ha
    induction ha with
    | root hx => rw [hroots] at hx; cases hx
    | owned _ _ ih => exact ih
  rintro ⟨a, -, ha, -⟩
  exact hnone a ha

theorem Sound.run {es : List (Event ι κ η)} {p : Process ι κ η} (hrun : machine.run es = some p)
    (hserves : machine.Along Serves es) : p.Sound := by
  refine Machine.invariant_along (I := Sound) ?_ (fun p e p' hstep hp hs => ?_) hserves hrun
  · exact ⟨.empty, fun _ _ => rfl, fun _ => rfl, fun _ => rfl, fun _ => rfl⟩
  · obtain ⟨hrunning, hmoves⟩ := moves_of_step hstep
    exact hs.step hp hrunning hmoves

/-- **The end of a program.** With a driver that serves calls from `OH_Usb_Init` to
`OH_Usb_Release`, no destructor throws until the manager is destroyed. That ends the program exactly
when a claim is left that only the manager leads to; and a program that lets go of everything,
unless a destructor ends it, is ended exactly when a claim was left. -/
theorem exit_ends_iff {es : List (Event ι κ η)} {q : Process ι κ η} (hrun : machine.run es = some q)
    (hserves : machine.Along Serves es) : (q.manager ≠ .destroyed → q.terminated = false) ∧
      ∀ pre order code post p p', es = pre ++ [.exit order code] ++ post →
        machine.run pre = some p → p.step (.exit order code) = some p' →
          (p'.terminated = true ↔ ∃ h, p.world.Holds h ∧ ¬ p.world.withoutManager.Holds h) ∧
            (q.terminated = true ∨ q.world.Empty →
              (q.terminated = true ↔ ∃ h, p.world.Holds h)) := by
  refine ⟨(Sound.run hrun hserves).running, fun pre order code post p p' hes hpre hexit => ?_⟩
  subst hes
  have hs := Sound.run hpre hserves.of_append.of_append
  have hserves' : Serves p (.exit order code) :=
    hserves pre _ post p (by rw [List.append_assoc]; rfl) hpre
  obtain ⟨hrunning, hmoves⟩ := moves_of_step hexit
  have hmanager : p'.manager = .destroyed := by
    cases hmoves
    rfl
  refine ⟨?_, fun hend => ?_⟩
  · rw [terminated_iff hs hserves' hrunning hmoves hmanager]
    cases hmoves with
    | exit _ _ hconstructed horder => simp only [holds_clear hs.valid hs.roots horder]
  · obtain ⟨hdestroyed, hsound, hiff⟩ := Machine.persists_along
      (P := fun t : Process ι κ η => t.manager = .destroyed ∧ t.Sound ∧
        ((t.terminated = true ∨ ∃ h, t.world.Holds h) ↔ ∃ h, p.world.Holds h))
      (fun t e t' hstep hserve ht => by
        obtain ⟨hrunning', hmoves'⟩ := moves_of_step hstep
        have hkept : t'.manager = .destroyed := by
          cases hmoves' with
          | constructed habsent => rw [ht.1] at habsent; cases habsent
          | same | op => exact ht.1
          | exit => rfl
        refine ⟨hkept, ht.2.1.step hserve hrunning' hmoves', ?_⟩
        rw [claimed_iff ht.2.1 hserve hrunning' hmoves' hkept, ← ht.2.2, hrunning']
        simp)
      hserves (Machine.run_concat_eq_some.2 ⟨p, hpre, hexit⟩)
      ⟨hmanager, hs.step hserves' hrunning hmoves, claimed_iff hs hserves' hrunning hmoves hmanager⟩
      hrun
    refine ⟨fun hterminated => hiff.1 (.inl hterminated), fun hclaimed => ?_⟩
    obtain hterminated | ⟨h, hh⟩ := hiff.2 hclaimed
    · exact hterminated
    · exact hend.elim id fun hempty => absurd hh (not_holds_of_empty hsound hdestroyed hempty h)

/-- A program that claims an interface of a registered device and destroys its own device. -/
def claimLeft : List (Event ℕ ℕ ℕ) :=
  [.Instance .USB_DDK_SUCCESS,
    .op (.construct 0 ((USBDevice.ofId 7).setConfigs [(USBConfig.ofIndex 7 0).setInterfaces
      [.ofIndex 7 3]])) fun _ => .USB_DDK_SUCCESS,
    .op (.addDevice 5 0) fun _ => .USB_DDK_SUCCESS,
    .op (.claim (.interfaceOf (.configOf 0 0) 0) .USB_DDK_SUCCESS 40) fun _ => .USB_DDK_SUCCESS,
    .op (.destroy 0) fun _ => .USB_DDK_SUCCESS]

/-- The instance at a claim that is left at the end, whose device only the manager has. -/
theorem exit_ends_iff_registered : ∃ p : Process ℕ ℕ ℕ, machine.run claimLeft = some p ∧
    p.world.Empty ∧ ∃ h, p.world.Holds h ∧ ¬ p.world.withoutManager.Holds h := by
  have hrun : machine.run (claimLeft ++ [.exit [5] fun _ => .USB_DDK_INVALID_OPERATION]) =
      some _ := rfl
  have hserves : machine.Along Serves
      (claimLeft ++ [.exit [5] fun _ => .USB_DDK_INVALID_OPERATION]) := by
    refine Machine.along_cons trivial fun s hs => ?_
    obtain rfl := Option.some.inj hs
    refine Machine.along_cons ⟨fun _ _ _ => rfl, fun _ _ => ⟨fun _ => rfl, fun _ => rfl⟩⟩
      fun s hs => ?_
    obtain rfl := Option.some.inj hs
    refine Machine.along_cons ⟨fun _ _ _ => rfl, fun _ _ => ⟨fun _ => rfl, fun _ => rfl⟩⟩
      fun s hs => ?_
    obtain rfl := Option.some.inj hs
    refine Machine.along_cons ⟨fun _ _ _ => rfl, fun _ _ => ⟨fun _ => rfl, fun _ => rfl⟩⟩
      fun s hs => ?_
    obtain rfl := Option.some.inj hs
    refine Machine.along_cons ⟨fun _ _ _ => rfl, fun _ _ => ⟨fun _ => rfl, fun _ => rfl⟩⟩
      fun s hs => ?_
    obtain rfl := Option.some.inj hs
    exact Machine.along_cons (fun _ _ => nofun) fun _ _ => Machine.along_nil _
  obtain ⟨-, hends⟩ := exit_ends_iff hrun hserves
  obtain ⟨hiff, -⟩ := hends claimLeft [5] (fun _ => .USB_DDK_INVALID_OPERATION) [] _ _ rfl rfl rfl
  refine ⟨_, rfl, ⟨fun x => ?_, fun k => rfl⟩, hiff.1 rfl⟩
  cases x <;> rfl

end Process

end Lifetimes

end OhosWrapper.Usb
