import OhosWrapper.Commev.Event
import OhosWrapper.Lib.Ownership

/-!
# Ownership in the CommonEvent wrappers

`SubscribeInfo`, `Subscriber` and `PublishInfo` each hold one pointer, to a handle that a C create
function returned or null. They cannot be copied; a move exchanges the pointer with null, and the
destructor gives a handle back unless the pointer is null. The three classes differ only in the C
functions they call.

**Theorem (`wrappers_own`).** At every point of every program each handle that was created and not
destroyed is held by exactly one object, and a destroyed handle by none; once all objects are
destroyed, each handle was destroyed exactly once.

The special members are proper in every state. A move assignment destroys the handle of its target
first, a null pointer included, which destroys nothing.
-/

namespace OhosWrapper.Commev

open Ownership

/-- The C functions that take handles back. -/
inductive DestroyFunction
  | OH_CommonEvent_DestroySubscribeInfo
  | OH_CommonEvent_DestroySubscriber
  | OH_CommonEvent_DestroyPublishInfo
  | OH_CommonEvent_DestroyParameters
  deriving DecidableEq, Repr

variable {ι η : Type*} [DecidableEq ι] [DecidableEq η]

/-! ## The special members -/

/-- An object of one of the three classes: the member `info_` or `subscriber_`. -/
structure Wrapper (η : Type*) where
  handle : Option η
  deriving DecidableEq, Repr

namespace Wrapper

variable (destroyFn : DestroyFunction)

/-- The constructors. The create function returns a handle or null. -/
def construct (created : Option η) : Option (Wrapper η) × Option η := (some ⟨created⟩, created)

/-- Move construction: the pointer is `std::exchange(other.info_, nullptr)`. -/
def moveConstruct (other : Wrapper η) : Wrapper η × Wrapper η := (⟨other.handle⟩, ⟨none⟩)

/-- Move assignment, with `same` for `this == &other`. The pointer may be null when it is passed to
the destroy function. -/
def moveAssign (same : Bool) (this other : Wrapper η) : Assigned (Wrapper η) DestroyFunction η :=
  if !same then
    { this := ⟨other.handle⟩, other := ⟨none⟩, calls := [(destroyFn, this.handle)] }
  else { this, other, calls := [] }

/-- The destructor. -/
def destroy (this : Wrapper η) : List (DestroyFunction × Option η) :=
  if this.handle.isSome then [(destroyFn, this.handle)] else []

/-- The class whose destroy function is `destroyFn`. -/
def special : Class (Option η) (Wrapper η) Unit DestroyFunction η where
  held := handle
  dispose := destroyFn
  construct := construct
  constructFrom := moveConstruct
  assign := moveAssign destroyFn
  destroy this _ := (this.destroy destroyFn, false)

/-- The special members are proper in every state. -/
theorem proper (w : World ι (Wrapper η) DestroyFunction η) (op : Op ι (Option η) Unit) :
    (special destroyFn).Proper w op := by
  cases op with
  | construct x created => exact rfl
  | constructFrom x y => exact fun other _ => ⟨rfl, rfl⟩
  | assign x y =>
    intro this other _ _
    split_ifs
    · exact ⟨rfl, Class.givesBack_nil⟩
    · exact ⟨rfl, rfl, Class.givesBack_singleton this.handle⟩
  | destroy x r =>
    intro this _
    obtain ⟨_ | p⟩ := this
    · exact Class.givesBack_nil
    · exact Class.givesBack_singleton (some p)

end Wrapper

/-! ## The three classes -/

def SubscribeInfo.special : Class (Option η) (Wrapper η) Unit DestroyFunction η :=
  Wrapper.special .OH_CommonEvent_DestroySubscribeInfo

def Subscriber.special : Class (Option η) (Wrapper η) Unit DestroyFunction η :=
  Wrapper.special .OH_CommonEvent_DestroySubscriber

def PublishInfo.special : Class (Option η) (Wrapper η) Unit DestroyFunction η :=
  Wrapper.special .OH_CommonEvent_DestroyPublishInfo

inductive WrapperClass
  | SubscribeInfo
  | Subscriber
  | PublishInfo
  deriving DecidableEq, Repr

def WrapperClass.special : WrapperClass → Class (Option η) (Wrapper η) Unit DestroyFunction η
  | .SubscribeInfo => Commev.SubscribeInfo.special
  | .Subscriber => Commev.Subscriber.special
  | .PublishInfo => Commev.PublishInfo.special

/-- Each handle created and not destroyed has exactly one holder, a destroyed handle has none, and
each handle is destroyed exactly once by the time all objects are destroyed. -/
structure SinglyOwned {α σ ρ φ : Type*} [DecidableEq φ] (C : Class α σ ρ φ η)
    (w : World ι σ φ η) : Prop where
  unique : ∀ x y h, C.holds w x = some h → C.holds w y = some h → x = y
  owned : ∀ h ∈ w.granted, (C.dispose, some h) ∉ w.calls → ∃! x, C.holds w x = some h
  not_held : ∀ h, (C.dispose, some h) ∈ w.calls → ∀ x, C.holds w x ≠ some h
  once : w.AllDestroyed → ∀ h ∈ w.granted, w.calls.count (C.dispose, some h) = 1

/-- **Single ownership.** It holds at every point of every program over one of the classes. -/
theorem wrappers_own (c : WrapperClass) {ops : List (Op ι (Option η) Unit)}
    {w : World ι (Wrapper η) DestroyFunction η} (hrun : c.special.machine.run ops = some w) :
    SinglyOwned c.special w := by
  have hproper : ∀ (w : World ι (Wrapper η) DestroyFunction η) (op : Op ι (Option η) Unit),
      c.special.Proper w op := by
    cases c <;> exact Wrapper.proper _
  have hw : c.special.SingleOwner w := .run (fun _ op _ w _ _ => hproper w op) hrun
  have hsound := Class.sound_of_covered hw.covered
  refine ⟨hw.unique, fun h hg hcall => ?_, hsound.not_held, hsound.once⟩
  rw [← Class.disposals_pos] at hcall
  cases hw.covered h with
  | absent hn _ => exact absurd hg hn
  | returned _ h₁ _ => omega
  | held _ _ hheld =>
    obtain ⟨x, hx⟩ := hheld
    exact ⟨x, hx, fun y hy => hw.unique y x h hy hx⟩

/-- Two handles and a null pointer, moved around a cycle, onto themselves and out of a moved-from
object. -/
theorem wrappers_own_cycle : ∃ (ops : List (Op ℕ (Option ℕ) Unit))
    (w : World ℕ (Wrapper ℕ) DestroyFunction ℕ),
    (WrapperClass.special .SubscribeInfo).machine.run ops = some w ∧ w.granted = [10, 11] ∧
      SinglyOwned (WrapperClass.special .SubscribeInfo) w := by
  have hrun : ∃ w : World ℕ (Wrapper ℕ) DestroyFunction ℕ,
      (WrapperClass.special .SubscribeInfo).machine.run
        [.construct 0 (some 10), .construct 1 (some 11), .construct 2 none, .assign 2 0,
          .assign 0 1, .assign 1 2, .assign 1 1, .constructFrom 3 2, .assign 0 2,
          .destroy 0 (), .destroy 1 (), .destroy 2 (), .destroy 3 ()] = some w ∧
      w.granted = [10, 11] := ⟨_, rfl, rfl⟩
  obtain ⟨w, hrun, hgranted⟩ := hrun
  exact ⟨_, w, hrun, hgranted, wrappers_own .SubscribeInfo hrun⟩

end OhosWrapper.Commev
