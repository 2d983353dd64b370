import OhosWrapper.Usb.Lifetimes

/-!
# Claims on registered devices

The manager keeps a copy of every device that was registered, and never lets go of it. So a claim
on an interface of such a device outlives the devices and pointers of the program. As in
`Lifetimes`, the objects that replace children are new, and devices are copied through the manager
only.

**Theorem (`registered_claim_kept`).** A claim on an interface of a registered device lasts until
the interface is released or claimed again, or its configuration gets other interfaces, and copies
of the device that are taken from the manager lead to it.
-/

namespace OhosWrapper.Usb

namespace Lifetimes

open Refcount Forest
open USBInterface (Handle)

variable {ι κ η : Type}

/-! ## Objects by their rank -/

theorem exists_config {s : Objects ι κ η} {a : ℕ} (h : rank s a = 2) :
    ∃ v, s.made[a]? = some (.config v) := by
  unfold rank at h
  cases hv : s.made[a]? with
  | none => rw [hv] at h; cases h
  | some v =>
    rw [hv] at h
    cases v with
    | config v => exact ⟨v, rfl⟩
    | interface _ | handle _ => cases h

theorem exists_interface {s : Objects ι κ η} {a : ℕ} (h : rank s a = 1) :
    ∃ v, s.made[a]? = some (.interface v) := by
  unfold rank at h
  cases hv : s.made[a]? with
  | none => rw [hv] at h; cases h
  | some v =>
    rw [hv] at h
    cases v with
    | interface v => exact ⟨v, rfl⟩
    | config _ | handle _ => cases h

/-! ## Paths -/

/-- From the variable `x` the `Handle` at `p`, through the configuration with index `i` at `c` and
its interface with index `j` at `a`. -/
structure Path (s : Objects ι κ η) (x : Variable ι κ) (i j c a p : ℕ) (this : Handle η) :
    Prop where
  config : (s.roots x)[i]? = some c
  interface : (s.owned c)[j]? = some a
  handle : s.owned a = [p]
  claimed : s.made[p]? = some (.handle this)

namespace Path

variable {s s' : Objects ι κ η} {x y : Variable ι κ} {i j c a p : ℕ} {this : Handle η}
  {as temps : List ℕ}

theorem reachable (h : Path s x i j c a p this) :
    Reachable s c ∧ Reachable s a ∧ Reachable s p := by
  have hc : Reachable s c := .root (List.mem_of_getElem? h.config)
  have ha : Reachable s a := .owned hc (List.mem_of_getElem? h.interface)
  exact ⟨hc, ha, .owned ha (by rw [h.handle]; exact List.mem_singleton_self p)⟩

theorem rank_interface (h : Path s x i j c a p this) (hs : Valid s temps) : rank s a = 1 := by
  rw [← hs.owned a p (by rw [h.handle]; exact List.mem_singleton_self p), rank_of_made h.claimed]
  rfl

theorem rank_config (h : Path s x i j c a p this) (hs : Valid s temps) : rank s c = 2 := by
  rw [← hs.owned c a (List.mem_of_getElem? h.interface), h.rank_interface hs]

/-- The expression for the pointer. -/
theorem find {w : World ι κ η} {v : ι} (h : Path w.shared (.device v) i j c a p this)
    (hs : Valid w.shared temps) : w.find (.handle (.interfaceOf (.configOf v i) j)) = some p := by
  obtain ⟨u, hu⟩ := exists_config (h.rank_config hs)
  obtain ⟨u', hu'⟩ := exists_interface (h.rank_interface hs)
  have hc : w.find (.configOf v i) = some c := h.config
  have ha : w.find (.interfaceOf (.configOf v i) j) = some a := by
    rw [World.find, hc, Option.bind_eq_bind, Option.bind_some, hu]
    exact h.interface
  rw [World.find, ha, Option.bind_eq_bind, Option.bind_some, hu']
  exact congrArg List.head? h.handle

theorem extend (h : Path s x i j c a p this) (hs : Counted s temps) (hext : Extends s s') :
    Path s' x i j c a p this := by
  obtain ⟨hc, ha, hp⟩ := h.reachable
  obtain ⟨b, hb⟩ := hs.exists_of_reachable hc
  obtain ⟨b', hb'⟩ := hs.exists_of_reachable ha
  obtain ⟨b'', hb''⟩ := hs.exists_of_reachable hp
  refine ⟨by rw [hext.roots, h.config], ?_, ?_, ?_⟩
  · rw [hext.owned (hs.bounded c b hb), h.interface]
  · rw [hext.owned (hs.bounded a b' hb'), h.handle]
  · rw [hext.getElem? (hs.bounded p b'' hb''), h.claimed]

/-- What is on the way is reachable, so it is not destroyed. -/
theorem frees (h : Path s x i j c a p this) (hfrees : Frees s s') (hs' : Counted s' []) :
    Path s' x i j c a p this := by
  have hkept : ∀ {d}, Reachable s d → s'.owned d = s.owned d := by
    intro d hd
    obtain ⟨b, hb⟩ := hs'.exists_of_reachable ((hfrees.reachable_iff hs').2 hd)
    exact (hfrees.owned d b hb).1
  obtain ⟨hc, ha, -⟩ := h.reachable
  refine ⟨by rw [hfrees.roots, h.config], ?_, ?_, by rw [hfrees.made, h.claimed]⟩
  · rw [hkept hc, h.interface]
  · rw [hkept ha, h.handle]

theorem setRoot [DecidableEq ι] [DecidableEq κ] (h : Path s x i j c a p this) (hyx : y ≠ x)
    (as : List ℕ) : Path (s.setRoot y as) x i j c a p this := by
  have hroots : (s.setRoot y as).roots x = s.roots x := by
    rw [Store.setRoot]
    exact Function.update_of_ne hyx.symm _ _
  exact ⟨by rw [hroots, h.config], h.interface, h.handle, h.claimed⟩

/-- A copy has the same pointers. -/
theorem copy [DecidableEq ι] [DecidableEq κ] (h : Path s x i j c a p this) (y : Variable ι κ) :
    Path (s.setRoot y (s.roots x)) y i j c a p this := by
  have hroots : (s.setRoot y (s.roots x)).roots y = s.roots x := by
    rw [Store.setRoot]
    exact Function.update_self _ _ _
  exact ⟨by rw [hroots, h.config], h.interface, h.handle, h.claimed⟩

theorem moveRoot [DecidableEq ι] [DecidableEq κ] (h : Path s x i j c a p this)
    (hs : Counted s as) (hyx : y ≠ x) : Path (s.moveRoot y as) x i j c a p this := by
  obtain ⟨hcounted, hfrees⟩ := hs.moveRoot y
  exact (h.setRoot hyx as).frees hfrees hcounted

theorem assign [DecidableEq ι] [DecidableEq κ] (h : Path s x i j c a p this) (hs : Counted s [])
    (has : ∀ d ∈ as, Reachable s d) (hyx : y ≠ x) : Path (s.assign y as) x i j c a p this := by
  obtain ⟨hcounted, hfrees⟩ := hs.assign (fun d hd => hs.exists_of_reachable (has d hd)) y
  exact (h.setRoot hyx as).frees hfrees hcounted

theorem moveOwned (h : Path s x i j c a p this) (hs : Counted s as) {d : ℕ} {b : ControlBlock}
    (hb : s.blocks d = some b) (hdc : d ≠ c) (hda : d ≠ a) :
    Path (s.moveOwned d as) x i j c a p this := by
  obtain ⟨hcounted, hfrees⟩ := hs.moveOwned hb
  have howned := Valid.owned_setOwned s hb as
  have hset : Path (s.setOwned d as) x i j c a p this :=
    ⟨h.config, by rw [howned, Function.update_of_ne hdc.symm, h.interface],
      by rw [howned, Function.update_of_ne hda.symm, h.handle], h.claimed⟩
  exact hset.frees hfrees hcounted

end Path

/-! ## Registered devices -/

section

variable [DecidableEq ι] [DecidableEq κ]

/-- The operation gives the configuration at `c` other interfaces, or claims or releases the
interface at `a`. -/
def Touches (w : World ι κ η) (c a : ℕ) : Op ι κ η → Prop
  | .setInterfaces p _ => w.find p = some c
  | .claim p _ _ | .release p => w.find p = some a
  | _ => False

/-- The device with the id is registered, and its interface with index `j` in the configuration
with index `i` is claimed. -/
structure ClaimedAt (w : World ι κ η) (deviceId : UInt64) (i j c a p : ℕ) (this : Handle η) :
    Prop where
  registered : (w.devices_.lookup deviceId).isSome
  path : Path w.shared (.registered deviceId) i j c a p this

/-- A step that does not touch the interface leaves the claim. -/
theorem ClaimedAt.step {w w' : World ι κ η} {op : Op ι κ η} {deviceId : UInt64}
    {i j c a p : ℕ} {this : Handle η} (h : ClaimedAt w deviceId i j c a p this)
    (hw : Valid w.shared []) (hstep : Step w op w') (hop : ¬ Touches w c a op) :
    ClaimedAt w' deviceId i j c a p this := by
  obtain ⟨hid, hpath⟩ := h
  have hroots : ∀ x, ∀ a ∈ w.shared.roots x, Reachable w.shared a := fun x a ha => .root ha
  have hne : ∀ {d v}, w.shared.made[d]? = some (.interface v) → d ≠ c := by
    rintro d v hv rfl
    have hrank := hpath.rank_config hw
    rw [rank_of_made hv] at hrank
    cases hrank
  cases hstep with
  | construct x d hx =>
    obtain ⟨hvalid, hext, -⟩ := makesRank_newConfig.makeAll_nil hw d.configs_
    exact ⟨hid, (hpath.extend hw.counted hext).moveRoot hvalid.counted nofun⟩
  | addDevice deviceId' x d hx hid' =>
    have hne : deviceId' ≠ deviceId := by
      rintro rfl
      rw [hid'] at hid
      cases hid
    refine ⟨?_, hpath.assign hw.counted (hroots _) fun heq => hne (Variable.registered.inj heq)⟩
    rwa [UnorderedMap.lookup_emplace_of_ne _ _ hne.symm]
  | deviceOf x deviceId' d hx hid' => exact ⟨hid, hpath.assign hw.counted (hroots _) nofun⟩
  | addKnown deviceId' x d hid' | deviceOfThrows x deviceId' hid' | claimThrows q code k hcode =>
    exact ⟨hid, hpath⟩
  | setConfigs x cs d hx =>
    obtain ⟨hvalid, hext, -⟩ := makesRank_newConfig.makeAll_nil hw cs
    exact ⟨hid, (hpath.extend hw.counted hext).moveRoot hvalid.counted nofun⟩
  | setInterfaces q is d v hd hv =>
    obtain ⟨hvalid, hext, -⟩ := makesRank_newInterface.makeAll_nil hw is
    obtain ⟨⟨b, hb⟩, -⟩ := exists_block_of_find hw hd hext
    have hda : d ≠ a := by
      rintro rfl
      have hrank := hpath.rank_interface hw
      rw [rank_of_made hv] at hrank
      cases hrank
    exact ⟨hid, (hpath.extend hw.counted hext).moveOwned hvalid.counted hb
      (fun hdc => hop (hdc ▸ hd)) hda⟩
  | keep k q d hd =>
    exact ⟨hid, hpath.assign hw.counted
      (fun e he => List.mem_singleton.1 he ▸ reachable_of_find hd) nofun⟩
  | drop k | destroy x d hx => exact ⟨hid, hpath.moveRoot hw.counted nofun⟩
  | claim q k d v hd hv hfresh =>
    have hext := Extends.make w.shared (.handle ⟨v.deviceId_, v.interfaceIndex_, k⟩) []
    obtain ⟨⟨b, hb⟩, -⟩ := exists_block_of_find hw hd hext
    exact ⟨hid, (hpath.extend hw.counted hext).moveOwned (hw.counted.make_nil _) hb
      (hne hv) fun hda => hop (hda ▸ hd)⟩
  | release q d v hd hv =>
    obtain ⟨⟨b, hb⟩, -⟩ := exists_block_of_find hw hd (.refl _)
    exact ⟨hid, hpath.moveOwned hw.counted hb (hne hv) fun hda => hop (hda ▸ hd)⟩

/-- A copy that is taken from the manager leads to the claim. -/
theorem ClaimedAt.find_of_deviceOf {w w' : World ι κ η} {x : ι} {deviceId : UInt64}
    {i j c a p : ℕ} {this : Handle η} (h : ClaimedAt w deviceId i j c a p this)
    (hw : Valid w.shared []) (hstep : Step w (.deviceOf x deviceId) w') :
    w'.find (.handle (.interfaceOf (.configOf x i) j)) = some p := by
  obtain ⟨hid, hpath⟩ := h
  have hvalid := hw.step hstep
  cases hstep with
  | deviceOfThrows x deviceId hnone =>
    rw [hnone] at hid
    cases hid
  | deviceOf x deviceId d hx hd =>
    have hroots : ∀ a ∈ w.shared.roots (.registered deviceId), Reachable w.shared a :=
      fun a ha => .root ha
    obtain ⟨hcounted, hfrees⟩ := hw.counted.assign
      (fun a ha => hw.counted.exists_of_reachable (hroots a ha)) (.device x)
    exact ((hpath.copy (.device x)).frees hfrees hcounted).find hvalid

variable [DecidableEq η]

/-- **Registered claims.** A claim on an interface of a registered device is kept in every run that
does not touch the interface, and every copy of the device that is taken from the manager then
leads to it. -/
theorem registered_claim_kept {pre post : List (Op ι κ η)} {w w' : World ι κ η}
    {deviceId : UInt64} {i j c a p : ℕ} {this : Handle η} (hpre : machine.run pre = some w)
    (h : ClaimedAt w deviceId i j c a p this) (hpost : (Machine.mk w step).run post = some w')
    (huntouched : (Machine.mk w step).Along (fun w op => ¬ Touches w c a op) post) :
    w'.released this.handle_ = 0 ∧ ∀ x w'', step w' (.deviceOf x deviceId) = some w'' →
      w''.find (.handle (.interfaceOf (.configOf x i) j)) = some p := by
  obtain ⟨hvalid, hclaimed⟩ : Valid w'.shared [] ∧ ClaimedAt w' deviceId i j c a p this :=
    Machine.invariant_along
      (I := fun w : World ι κ η => Valid w.shared [] ∧ ClaimedAt w deviceId i j c a p this)
      ⟨Valid.run hpre, h⟩
      (fun _ _ _ hstep hop hs => ⟨hs.1.step (step_cases hstep),
        hs.2.step hs.1 (step_cases hstep) hop⟩) huntouched hpost
  refine ⟨?_, fun x w'' hstep => hclaimed.find_of_deviceOf hvalid (step_cases hstep)⟩
  have hholds : w'.Holds this.handle_ := ⟨p, this, hclaimed.path.reachable.2.2,
    hclaimed.path.claimed, rfl⟩
  obtain ⟨hle, hiff⟩ := released_iff hvalid this.handle_
  have hne : w'.released this.handle_ ≠ 1 := fun hone => (hiff.1 hone).2 hholds
  omega

/-- The instance at a device that is registered, claimed through the device of the program, and
then destroyed there. -/
theorem registered_claim_kept_destroyed : ∃ w w' : World ℕ ℕ ℕ,
    w.locals 0 = none ∧ w.released 40 = 0 ∧ step w (.deviceOf 1 5) = some w' ∧
      w'.find (.handle (.interfaceOf (.configOf 1 0) 0)) = some 2 := by
  have hpre : machine.run ([
      .construct 0 ((USBDevice.ofId 7).setConfigs [(USBConfig.ofIndex 7 0).setInterfaces
        [.ofIndex 7 3]]),
      .addDevice 5 0,
      .claim (.interfaceOf (.configOf 0 0) 0) .USB_DDK_SUCCESS 40] : List (Op ℕ ℕ ℕ)) = some _ :=
    rfl
  have hkept := @registered_claim_kept _ _ _ _ _ _ _ _ _ _ 5 0 0 1 0 2 ⟨7, 3, 40⟩ hpre
    ⟨by decide, by decide, by decide, by decide, by decide⟩
    (show (Machine.mk _ step).run [.destroy 0] = some _ from rfl)
    (Machine.along_cons id fun _ _ => Machine.along_nil _)
  exact ⟨_, _, rfl, hkept.1, rfl, hkept.2 1 _ rfl⟩

end

end Lifetimes

end OhosWrapper.Usb
