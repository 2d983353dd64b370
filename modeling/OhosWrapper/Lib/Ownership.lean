import Mathlib.Logic.Function.Basic
import OhosWrapper.Lib.Machine

/-!
# Ownership of handles

A C interface grants handles and takes each of them back through a function of its own. A C++
class wraps one handle in an object, and its special member functions decide which object holds
it. A program constructs, assigns and destroys any number of objects of the class; whatever the C
interface decides is part of the operation.

**Single ownership (`SingleOwner`).** Every handle that was granted is held by exactly one object
and was never given back, or is held by none and was given back once; nothing else was given back.

**Theorem (`SingleOwner.step`).** A step keeps single ownership if the special member it runs is
`Proper`: an object takes over a handle only by emptying the object it had it from, and gives back
what it held before it takes over another.

**Theorem (`always_sound`).** In a program all of whose steps are proper, a handle is given back
only when no object holds it, and every handle exactly once by the time all objects are destroyed.
-/

namespace Ownership

variable {ι α σ ρ φ η : Type*}

/-! ## Classes and programs -/

/-- What an assignment leaves in the two objects, and the calls it made. -/
structure Assigned (σ φ η : Type*) where
  this : σ
  other : σ
  calls : List (φ × Option η)

/-- The special members of a class with objects `σ`. A call of a C function `φ` has the handle as
its argument, `none` if that is null. -/
structure Class (α σ ρ φ η : Type*) where
  /-- The handle in an object, unless it is null. -/
  held : σ → Option η
  /-- The function that takes handles back. -/
  dispose : φ
  /-- A constructor call: the object, unless it throws, and the handle granted to it. -/
  construct : α → Option σ × Option η
  /-- Move or copy construction: the new object, and what is left in the other one. -/
  constructFrom : σ → σ × σ
  /-- Move or copy assignment. The flag is `this == &other`. -/
  assign : Bool → σ → σ → Assigned σ φ η
  /-- The destructor: the calls it made, and whether it threw, which ends the program. -/
  destroy : σ → ρ → List (φ × Option η) × Bool

/-- The operations of a program on objects at the addresses `ι`. -/
inductive Op (ι α ρ : Type*)
  | construct (x : ι) (a : α)
  | constructFrom (x other : ι)
  | assign (x other : ι)
  | destroy (x : ι) (r : ρ)
  deriving DecidableEq, Repr

/-- The objects alive, the handles granted, and the calls that gave handles back, in order. -/
structure World (ι σ φ η : Type*) where
  objects : ι → Option σ
  granted : List η
  calls : List (φ × Option η)
  terminated : Bool

namespace World

def empty : World ι σ φ η := ⟨fun _ => none, [], [], false⟩

def put [DecidableEq ι] (w : World ι σ φ η) (x : ι) (o : Option σ) : World ι σ φ η :=
  { w with objects := Function.update w.objects x o }

def grant (w : World ι σ φ η) (h : η) : World ι σ φ η := { w with granted := w.granted ++ [h] }

def call (w : World ι σ φ η) (cs : List (φ × Option η)) : World ι σ φ η :=
  { w with calls := w.calls ++ cs }

/-- The operation is over; an exception that left it ends the program. -/
def finish (w : World ι σ φ η) (thrown : Bool) : World ι σ φ η := { w with terminated := thrown }

def AllDestroyed (w : World ι σ φ η) : Prop := ∀ x, w.objects x = none

end World

namespace Class

variable (C : Class α σ ρ φ η)

/-! ## Steps -/

section

variable [DecidableEq ι] [DecidableEq η]

/-- One operation. A program constructs objects only where there is none and uses only objects
that are alive, and the handle it is granted is a fresh one. -/
def step (w : World ι σ φ η) (op : Op ι α ρ) : Option (World ι σ φ η) :=
  if w.terminated then none else
  match op with
  | .construct x a =>
    match w.objects x, C.construct a with
    | none, (o, none) => some (w.put x o)
    | none, (o, some h) => if h ∈ w.granted then none else some ((w.put x o).grant h)
    | some _, _ => none
  | .constructFrom x y =>
    match w.objects x, w.objects y with
    | none, some other =>
      let r := C.constructFrom other
      some ((w.put y (some r.2)).put x (some r.1))
    | _, _ => none
  | .assign x y =>
    match w.objects x, w.objects y with
    | some this, some other =>
      let r := C.assign (decide (x = y)) this other
      some (((w.put y (some r.other)).put x (some r.this)).call r.calls)
    | _, _ => none
  | .destroy x r =>
    match w.objects x with
    | some this =>
      let d := C.destroy this r
      some (((w.put x none).call d.1).finish d.2)
    | none => none

/-- Programs over the class, started without any object. -/
def machine : Machine (World ι σ φ η) (Op ι α ρ) := ⟨.empty, C.step⟩

/-- What a step does, by the special member it runs. -/
inductive Step (w : World ι σ φ η) : Op ι α ρ → World ι σ φ η → Prop
  | construct (x : ι) (a : α) (o : Option σ) : w.objects x = none → C.construct a = (o, none) →
      Step w (.construct x a) (w.put x o)
  | grant (x : ι) (a : α) (o : Option σ) (h : η) : w.objects x = none →
      C.construct a = (o, some h) → h ∉ w.granted →
      Step w (.construct x a) ((w.put x o).grant h)
  | constructFrom (x y : ι) (other : σ) : w.objects x = none → w.objects y = some other →
      Step w (.constructFrom x y) ((w.put y (some (C.constructFrom other).2)).put x
        (some (C.constructFrom other).1))
  | assignSelf (x : ι) (this : σ) : w.objects x = some this →
      Step w (.assign x x) ((w.put x (some (C.assign true this this).this)).call
        (C.assign true this this).calls)
  | assign (x y : ι) (this other : σ) : x ≠ y → w.objects x = some this →
      w.objects y = some other →
      Step w (.assign x y) (((w.put y (some (C.assign false this other).other)).put x
        (some (C.assign false this other).this)).call (C.assign false this other).calls)
  | destroy (x : ι) (r : ρ) (this : σ) : w.objects x = some this →
      Step w (.destroy x r) (((w.put x none).call (C.destroy this r).1).finish
        (C.destroy this r).2)

variable {C} in
theorem step_cases {w w' : World ι σ φ η} {op : Op ι α ρ} (h : C.step w op = some w') :
    C.Step w op w' := by
  unfold step at h
  split_ifs at h
  cases op with
  | construct x a =>
    dsimp only at h
    split at h
    case h_1 hx ha => exact Option.some.inj h ▸ .construct x a _ hx ha
    case h_2 hx ha =>
      split_ifs at h with hg
      exact Option.some.inj h ▸ .grant x a _ _ hx ha hg
    case h_3 => cases h
  | constructFrom x y =>
    dsimp only at h
    split at h
    case h_1 hx hy => exact Option.some.inj h ▸ .constructFrom x y _ hx hy
    case h_2 => cases h
  | assign x y =>
    dsimp only at h
    split at h
    case h_2 => cases h
    case h_1 this other hx hy =>
      by_cases hxy : x = y
      · subst hxy
        obtain rfl := Option.some.inj (hx.symm.trans hy)
        have hput : (w.put x (some (C.assign true this this).other)).put x
            (some (C.assign true this this).this) =
            w.put x (some (C.assign true this this).this) := by
          simp only [World.put, Function.update_idem]
        simp only [decide_true, hput] at h
        exact Option.some.inj h ▸ .assignSelf x this hx
      · simp only [hxy, decide_false] at h
        exact Option.some.inj h ▸ .assign x y this other hxy hx hy
  | destroy x r =>
    dsimp only at h
    split at h
    case h_1 hx => exact Option.some.inj h ▸ .destroy x r _ hx
    case h_2 => cases h

end

/-! ## Holders -/

/-- The handle held by the object at `x`. -/
def holds (w : World ι σ φ η) (x : ι) : Option η := (w.objects x).bind C.held

/-- Some object holds the handle. -/
def Held (w : World ι σ φ η) (h : η) : Prop := ∃ x, C.holds w x = some h

variable {C}

@[simp] theorem holds_put [DecidableEq ι] (w : World ι σ φ η) (x : ι) (o : Option σ) :
    C.holds (w.put x o) = Function.update (C.holds w) x (o.bind C.held) := by
  funext y
  unfold holds World.put
  by_cases hy : y = x
  · subst hy
    simp
  · simp [Function.update_of_ne hy]

@[simp] theorem holds_grant (w : World ι σ φ η) (h : η) : C.holds (w.grant h) = C.holds w := rfl

@[simp] theorem holds_call (w : World ι σ φ η) (cs : List (φ × Option η)) :
    C.holds (w.call cs) = C.holds w := rfl

@[simp] theorem holds_finish (w : World ι σ φ η) (thrown : Bool) :
    C.holds (w.finish thrown) = C.holds w := rfl

theorem holds_of_objects {w : World ι σ φ η} {x : ι} {o : Option σ} (h : w.objects x = o) :
    C.holds w x = o.bind C.held := by
  rw [holds, h]

/-- Replacing an object by one that holds the same. -/
theorem holds_put_same [DecidableEq ι] {w : World ι σ φ η} {x : ι} {o o' : σ}
    (hx : w.objects x = some o) (ho : C.held o' = C.held o) :
    C.holds (w.put x (some o')) = C.holds w := by
  rw [holds_put, Option.bind_some, ho]
  exact Function.update_eq_iff.2 ⟨(holds_of_objects hx).symm, fun _ _ => rfl⟩

theorem held_of_objects {w : World ι σ φ η} {x : ι} {o : σ} {h : η} (hx : w.objects x = some o)
    (hh : C.held o = some h) : C.Held w h :=
  ⟨x, by rw [holds_of_objects hx, Option.bind_some, hh]⟩

/-- After an object was replaced, a handle is held by the new object or by another one. -/
theorem held_put [DecidableEq ι] {w : World ι σ φ η} {x : ι} {o : Option σ} {h : η} :
    C.Held (w.put x o) h ↔ o.bind C.held = some h ∨ ∃ y, y ≠ x ∧ C.holds w y = some h := by
  unfold Held
  rw [holds_put]
  refine ⟨?_, ?_⟩
  · intro hh
    obtain ⟨y, hy⟩ := hh
    rw [Function.update_apply] at hy
    split_ifs at hy with hyx
    · exact Or.inl hy
    · exact Or.inr ⟨y, hyx, hy⟩
  · intro hh
    rcases hh with ho | ⟨y, hyx, hy⟩
    · exact ⟨x, by rw [Function.update_self, ho]⟩
    · exact ⟨y, by rw [Function.update_of_ne hyx, hy]⟩

/-- Replacing an object that did not hold the handle. -/
theorem held_put_of_ne [DecidableEq ι] {w : World ι σ φ η} {x : ι} {o : Option σ} {h : η}
    (hx : C.holds w x ≠ some h) :
    C.Held (w.put x o) h ↔ o.bind C.held = some h ∨ C.Held w h := by
  rw [held_put]
  refine or_congr_right ⟨?_, ?_⟩
  · intro hh
    obtain ⟨y, -, hy⟩ := hh
    exact ⟨y, hy⟩
  · intro hh
    obtain ⟨y, hy⟩ := hh
    refine ⟨y, ?_, hy⟩
    intro hyx
    exact hx (hyx ▸ hy)

theorem not_held_put [DecidableEq ι] {w : World ι σ φ η} {x : ι} {o : Option σ} {h : η}
    (hw : ¬ C.Held w h) (ho : o.bind C.held ≠ some h) : ¬ C.Held (w.put x o) h := by
  intro hh
  rcases held_put.1 hh with ho' | ⟨y, -, hy⟩
  · exact ho ho'
  · exact hw ⟨y, hy⟩

theorem not_held_of_allDestroyed {w : World ι σ φ η} (hw : w.AllDestroyed) (h : η) :
    ¬ C.Held w h := by
  intro hh
  obtain ⟨x, hx⟩ := hh
  rw [holds_of_objects (hw x)] at hx
  cases hx

/-! ## Handles accounted for -/

variable [DecidableEq φ] [DecidableEq η] (C)

/-- How often the handle was given back. -/
def disposals (w : World ι σ φ η) (h : η) : ℕ := w.calls.count (C.dispose, some h)

/-- The calls give back the handle `p` once, and no other. -/
def GivesBack (cs : List (φ × Option η)) (p : Option η) : Prop :=
  ∀ h, cs.count (C.dispose, some h) = if p = some h then 1 else 0

/-- A handle is accounted for: never granted, or held and not given back, or given back once and
held by none. -/
inductive Covered (w : World ι σ φ η) (h : η) : Prop
  | absent : h ∉ w.granted → C.disposals w h = 0 → Covered w h
  | held : h ∈ w.granted → C.disposals w h = 0 → C.Held w h → Covered w h
  | returned : h ∈ w.granted → C.disposals w h = 1 → ¬ C.Held w h → Covered w h

/-- Handles are given back only when no object holds them, only if they were granted, and all of
them, once each, by the time all objects are destroyed. -/
structure Sound (w : World ι σ φ η) : Prop where
  not_held : ∀ h, (C.dispose, some h) ∈ w.calls → ∀ x, C.holds w x ≠ some h
  granted : ∀ h, (C.dispose, some h) ∈ w.calls → h ∈ w.granted
  once : w.AllDestroyed → ∀ h ∈ w.granted, w.calls.count (C.dispose, some h) = 1

variable {C}

theorem givesBack_nil : C.GivesBack [] none := fun _ => rfl

theorem givesBack_singleton (p : Option η) : C.GivesBack [(C.dispose, p)] p := by
  intro h
  rw [List.count_singleton]
  simp

theorem disposals_pos {w : World ι σ φ η} {h : η} :
    0 < C.disposals w h ↔ (C.dispose, some h) ∈ w.calls := List.count_pos_iff

@[simp] theorem disposals_put [DecidableEq ι] (w : World ι σ φ η) (x : ι) (o : Option σ) (h : η) :
    C.disposals (w.put x o) h = C.disposals w h := rfl

@[simp] theorem disposals_finish (w : World ι σ φ η) (thrown : Bool) (h : η) :
    C.disposals (w.finish thrown) h = C.disposals w h := rfl

@[simp] theorem disposals_call (w : World ι σ φ η) (cs : List (φ × Option η)) (h : η) :
    C.disposals (w.call cs) h = C.disposals w h + cs.count (C.dispose, some h) :=
  List.count_append

/-- A program that accounts for every handle is sound. -/
theorem sound_of_covered {w : World ι σ φ η} (hw : ∀ h, C.Covered w h) : C.Sound w where
  not_held h hcall x hx := by
    rw [← disposals_pos] at hcall
    cases hw h with
    | absent _ h₀ | held _ h₀ _ => omega
    | returned _ _ hh => exact hh ⟨x, hx⟩
  granted h hcall := by
    rw [← disposals_pos] at hcall
    cases hw h with
    | absent _ h₀ | held _ h₀ _ => omega
    | returned hg _ _ => exact hg
  once hall h hg := by
    cases hw h with
    | absent hn _ => exact absurd hg hn
    | held _ _ hh => exact absurd hh (not_held_of_allDestroyed hall h)
    | returned _ h₁ _ => exact h₁

/-- A step that neither grants nor gives back `h` keeps it accounted for, as long as it is held
as before. -/
theorem Covered.frame {w w' : World ι σ φ η} {h : η} (hw : C.Covered w h)
    (hg : h ∈ w'.granted ↔ h ∈ w.granted) (hd : C.disposals w' h = C.disposals w h)
    (hh : h ∈ w.granted → (C.Held w' h ↔ C.Held w h)) : C.Covered w' h := by
  cases hw with
  | absent h₁ h₂ => exact .absent (mt hg.1 h₁) (hd.trans h₂)
  | held h₁ h₂ h₃ => exact .held (hg.2 h₁) (hd.trans h₂) ((hh h₁).2 h₃)
  | returned h₁ h₂ h₃ => exact .returned (hg.2 h₁) (hd.trans h₂) (mt (hh h₁).1 h₃)

/-- A fresh handle is accounted for by the object it was granted to. -/
theorem Covered.grant {w w' : World ι σ φ η} {h : η} (hw : C.Covered w h) (hn : h ∉ w.granted)
    (hg : h ∈ w'.granted) (hd : C.disposals w' h = C.disposals w h) (hh : C.Held w' h) :
    C.Covered w' h := by
  cases hw with
  | absent _ h₂ => exact .held hg (hd.trans h₂) hh
  | held h₁ _ _ | returned h₁ _ _ => exact absurd h₁ hn

/-- A handle is given back when its last holder lets go. -/
theorem Covered.giveBack {w w' : World ι σ φ η} {h : η} (hw : C.Covered w h)
    (hg : h ∈ w.granted) (hh : C.Held w h) (hg' : h ∈ w'.granted)
    (hd : C.disposals w' h = C.disposals w h + 1) (hh' : ¬ C.Held w' h) : C.Covered w' h := by
  cases hw with
  | absent h₁ _ => exact absurd hg h₁
  | held _ h₂ _ => exact .returned hg' (by omega) hh'
  | returned _ _ h₃ => exact absurd hh h₃

variable (C)

/-- Single ownership: every handle is accounted for, and no two objects hold the same one. -/
structure SingleOwner (w : World ι σ φ η) : Prop where
  covered : ∀ h, C.Covered w h
  granted : ∀ x h, C.holds w x = some h → h ∈ w.granted
  unique : ∀ x y h, C.holds w x = some h → C.holds w y = some h → x = y

variable {C}

theorem SingleOwner.empty : C.SingleOwner (.empty : World ι σ φ η) where
  covered _ := .absent List.not_mem_nil rfl
  granted _ _ h := nomatch h
  unique _ _ _ h := nomatch h

/-- Nothing changes hands. -/
theorem SingleOwner.frame {w w' : World ι σ φ η} (hw : C.SingleOwner w)
    (hholds : C.holds w' = C.holds w) (hg : w'.granted = w.granted)
    (hd : ∀ h, C.disposals w' h = C.disposals w h) : C.SingleOwner w' where
  covered h := (hw.covered h).frame (by rw [hg]) (hd h) fun _ => by rw [Held, Held, hholds]
  granted x h := by rw [hholds, hg]; exact hw.granted x h
  unique x y h := by rw [hholds]; exact hw.unique x y h

variable [DecidableEq ι]

/-- An object is granted a fresh handle. -/
theorem SingleOwner.grant {w w' : World ι σ φ η} (hw : C.SingleOwner w) {x : ι} {h : η}
    (hx : C.holds w x = none) (hn : h ∉ w.granted)
    (hholds : C.holds w' = Function.update (C.holds w) x (some h))
    (hg : w'.granted = w.granted ++ [h]) (hd : ∀ k, C.disposals w' k = C.disposals w k) :
    C.SingleOwner w' := by
  have hcases : ∀ y k, C.holds w' y = some k → (y = x ∧ k = h) ∨ C.holds w y = some k := by
    intro y k hk
    rw [hholds, Function.update_apply] at hk
    split_ifs at hk with hy
    · exact Or.inl ⟨hy, (Option.some.inj hk).symm⟩
    · exact Or.inr hk
  have hfresh : ∀ y, C.holds w y ≠ some h := fun y hy => hn (hw.granted y h hy)
  refine ⟨fun k => ?_, fun y k hk => ?_, fun y z k hy hz => ?_⟩
  · by_cases hk : k = h
    · subst hk
      refine (hw.covered k).grant hn (by simp [hg]) (hd k) ⟨x, ?_⟩
      rw [hholds, Function.update_self]
    · refine (hw.covered k).frame (by simp [hg, hk]) (hd k) fun _ => ⟨?_, ?_⟩
      · intro hheld
        obtain ⟨y, hy⟩ := hheld
        rcases hcases y k hy with ⟨-, hkh⟩ | hy
        · exact absurd hkh hk
        · exact ⟨y, hy⟩
      · intro hheld
        obtain ⟨y, hy⟩ := hheld
        have hyx : y ≠ x := by
          intro hyx
          rw [hyx, hx] at hy
          cases hy
        exact ⟨y, by rw [hholds, Function.update_of_ne hyx, hy]⟩
  · rw [hg]
    rcases hcases y k hk with ⟨-, rfl⟩ | hk
    · simp
    · exact List.mem_append_left _ (hw.granted y k hk)
  · rcases hcases y k hy with ⟨rfl, rfl⟩ | hy <;> rcases hcases z _ hz with ⟨rfl, hkh⟩ | hz
    · rfl
    · exact absurd hz (hfresh z)
    · exact absurd (hkh ▸ hy) (hfresh y)
    · exact hw.unique y z k hy hz

/-- An object gives back what it holds. -/
theorem SingleOwner.giveBack {w w' : World ι σ φ η} (hw : C.SingleOwner w) {x : ι}
    (hholds : C.holds w' = Function.update (C.holds w) x none) (hg : w'.granted = w.granted)
    (hd : ∀ k, C.disposals w' k = C.disposals w k + if C.holds w x = some k then 1 else 0) :
    C.SingleOwner w' := by
  have hcases : ∀ y k, C.holds w' y = some k ↔ y ≠ x ∧ C.holds w y = some k := by
    intro y k
    rw [hholds, Function.update_apply]
    split_ifs with hy <;> simp [hy]
  refine ⟨fun k => ?_, fun y k hk => ?_, fun y z k hy hz => ?_⟩
  · by_cases hk : C.holds w x = some k
    · refine (hw.covered k).giveBack (hw.granted x k hk) ⟨x, hk⟩ ?_ (by rw [hd, if_pos hk]) ?_
      · rw [hg]
        exact hw.granted x k hk
      · intro hheld
        obtain ⟨y, hy⟩ := hheld
        obtain ⟨hyx, hy⟩ := (hcases y k).1 hy
        exact hyx (hw.unique y x k hy hk)
    · refine (hw.covered k).frame (by rw [hg]) (by simp [hd, hk]) fun _ => ?_
      refine exists_congr fun y => (hcases y k).trans ?_
      refine and_iff_right_of_imp ?_
      intro hy hyx
      exact hk (hyx ▸ hy)
  · rw [hg]
    exact hw.granted y k ((hcases y k).1 hk).2
  · exact hw.unique y z k ((hcases y k).1 hy).2 ((hcases z k).1 hz).2

/-- An object that holds nothing takes over what another one holds. -/
theorem SingleOwner.takeOver {w w' : World ι σ φ η} (hw : C.SingleOwner w) {x y : ι}
    (hxy : x ≠ y) (hx : C.holds w x = none)
    (hholds : C.holds w' = Function.update (Function.update (C.holds w) y none) x (C.holds w y))
    (hg : w'.granted = w.granted) (hd : ∀ k, C.disposals w' k = C.disposals w k) :
    C.SingleOwner w' := by
  have hcases : ∀ z k, C.holds w' z = some k ↔
      (z = x ∧ C.holds w y = some k) ∨ (z ≠ x ∧ z ≠ y ∧ C.holds w z = some k) := by
    intro z k
    rw [hholds, Function.update_apply, Function.update_apply]
    split_ifs with hzx hzy
    · simp [hzx]
    · simp [hzy, hxy.symm]
    · simp [hzx, hzy]
  refine ⟨fun k => ?_, fun z k hk => ?_, fun z z' k hz hz' => ?_⟩
  · refine (hw.covered k).frame (by rw [hg]) (hd k) fun _ => ⟨?_, ?_⟩
    · intro hheld
      obtain ⟨z, hz⟩ := hheld
      rcases (hcases z k).1 hz with ⟨-, hy⟩ | ⟨-, -, hz⟩
      · exact ⟨y, hy⟩
      · exact ⟨z, hz⟩
    · intro hheld
      obtain ⟨z, hz⟩ := hheld
      by_cases hzy : z = y
      · exact ⟨x, (hcases x k).2 (Or.inl ⟨rfl, hzy ▸ hz⟩)⟩
      · refine ⟨z, (hcases z k).2 (Or.inr ⟨?_, hzy, hz⟩)⟩
        intro hzx
        rw [hzx, hx] at hz
        cases hz
  · rw [hg]
    rcases (hcases z k).1 hk with ⟨-, hy⟩ | ⟨-, -, hz⟩
    · exact hw.granted y k hy
    · exact hw.granted z k hz
  · rcases (hcases z k).1 hz with ⟨rfl, hy⟩ | ⟨hzx, hzy, hz⟩ <;>
      rcases (hcases z' k).1 hz' with ⟨rfl, hy'⟩ | ⟨hzx', hzy', hz'⟩
    · rfl
    · exact absurd (hw.unique z' y k hz' hy) hzy'
    · exact absurd (hw.unique z y k hz hy') hzy
    · exact hw.unique z z' k hz hz'

/-! ## Programs -/

variable (C)

/-- The special member that the operation runs hands a handle over only by emptying the object it
takes it from, and gives back what is held before it is overwritten. -/
def Proper (w : World ι σ φ η) : Op ι α ρ → Prop
  | .construct _ a => (C.construct a).1.bind C.held = (C.construct a).2
  | .constructFrom _ y => ∀ other, w.objects y = some other →
      C.held (C.constructFrom other).1 = C.held other ∧ C.held (C.constructFrom other).2 = none
  | .assign x y => ∀ this other, w.objects x = some this → w.objects y = some other →
      if x = y then C.held (C.assign true this this).this = C.held this ∧
        C.GivesBack (C.assign true this this).calls none
      else C.held (C.assign false this other).this = C.held other ∧
        C.held (C.assign false this other).other = none ∧
        C.GivesBack (C.assign false this other).calls (C.held this)
  | .destroy x r => ∀ this, w.objects x = some this →
      C.GivesBack (C.destroy this r).1 (C.held this)

variable {C}

/-- **Single ownership.** Proper steps keep it. -/
theorem SingleOwner.step {w w' : World ι σ φ η} {op : Op ι α ρ} (hstep : C.step w op = some w')
    (hp : C.Proper w op) (hw : C.SingleOwner w) : C.SingleOwner w' := by
  cases step_cases hstep with
  | construct x a o hx ha =>
    have hheld : o.bind C.held = none := by simpa [Proper, ha] using hp
    have hnone : C.holds w x = none := holds_of_objects hx
    refine hw.frame ?_ rfl fun k => rfl
    rw [holds_put, hheld, ← hnone, Function.update_eq_self]
  | grant x a o h hx ha hn =>
    have hheld : o.bind C.held = some h := by simpa [Proper, ha] using hp
    refine hw.grant (holds_of_objects hx) hn ?_ rfl fun k => rfl
    rw [holds_grant, holds_put, hheld]
  | constructFrom x y other hx hy =>
    obtain ⟨hnew, hleft⟩ := hp other hy
    have hxy : x ≠ y := by
      intro hxy
      rw [← hxy, hx] at hy
      cases hy
    refine hw.takeOver hxy (holds_of_objects hx) ?_ rfl fun k => rfl
    simp only [holds_put, Option.bind_some, hnew, hleft, holds_of_objects hy]
  | assignSelf x this hx =>
    obtain ⟨hthis, hcalls⟩ : _ ∧ _ := by simpa [Proper, hx] using hp
    refine hw.frame ?_ rfl fun k => ?_
    · rw [holds_call, holds_put_same hx hthis]
    · simp [hcalls k]
  | assign x y this other hxy hx hy =>
    obtain ⟨hthis, hother, hcalls⟩ : _ ∧ _ ∧ _ := by simpa [Proper, hx, hy, hxy] using hp
    -- The object gives back what it holds, and then takes over what the other one holds.
    have hmid : C.SingleOwner ((w.put x none).call (C.assign false this other).calls) := by
      refine hw.giveBack (holds_put w x none) rfl fun k => ?_
      simp [hcalls k, holds_of_objects hx]
    refine hmid.takeOver hxy (by simp) ?_ rfl fun k => rfl
    simp only [holds_call, holds_put, Option.bind_some, Option.bind_none, hthis, hother,
      Function.update_of_ne hxy.symm, holds_of_objects hy]
    rw [Function.update_comm hxy, Function.update_idem]
  | destroy x r this hx =>
    have hcalls := hp this hx
    refine hw.giveBack (x := x) (by simp) rfl fun k => ?_
    simp [hcalls k, holds_of_objects hx]

theorem SingleOwner.run {ops : List (Op ι α ρ)} {w : World ι σ φ η}
    (hp : C.machine.Along C.Proper ops) (hrun : C.machine.run ops = some w) : C.SingleOwner w :=
  Machine.invariant_along .empty (fun _ _ _ hstep hp hw => hw.step hstep hp) hp hrun

/-- A program all of whose steps are proper is sound throughout. -/
theorem always_sound {ops : List (Op ι α ρ)} (hp : C.machine.Along C.Proper ops) :
    C.machine.Always C.Sound ops :=
  Machine.always_of_along (fun hp hrun => sound_of_covered (SingleOwner.run hp hrun).covered) hp

end Class

end Ownership
