import OhosWrapper.Lib.Word

/-!
# Device ids

An ArkTS device id has the bus number in its upper 16 bits, the device number in the 16 bits below
them, and 32 bits that do not identify the device. The native id has the bus number in its upper
half and the device number in its lower half.

**Theorem (`deviceId_translations`).** The halves of the native id are the two numbers, the upper
half of the ArkTS id can be computed from it, and two ArkTS ids have the same native id exactly
when they have the same upper half.
-/

namespace OhosWrapper.Usb

/-! ## The translations -/

def JsDeviceIdToNative (deviceId : UInt64) : UInt64 :=
  let busNum := (deviceId >>> 48).toUInt32
  let devNum := ((deviceId &&& 0x0000FFFF00000000) >>> 32).toUInt32
  (busNum.toUInt64 <<< 32) ||| devNum.toUInt64

def JsDeviceIdToBusNum (deviceId : UInt64) : UInt32 := (deviceId >>> 48).toUInt32

def JsDeviceIdToDevNum (deviceId : UInt64) : UInt32 :=
  ((deviceId &&& 0x0000FFFF00000000) >>> 32).toUInt32

/-! ## Fields -/

theorem toNat_busNum (a : UInt64) : (JsDeviceIdToBusNum a).toNat = a.toNat / 2 ^ 48 := by
  have ha := a.toNat_lt
  have hshift : (a >>> 48).toNat = a.toNat / 2 ^ 48 := Word.toNat_shiftRight a rfl (by decide)
  rw [JsDeviceIdToBusNum, Word.toNat_lower, hshift]
  omega

theorem toNat_devNum (a : UInt64) : (JsDeviceIdToDevNum a).toNat = a.toNat / 2 ^ 32 % 2 ^ 16 := by
  have hfield : ((a &&& 0x0000FFFF00000000) >>> 32).toNat = a.toNat / 2 ^ 32 % 2 ^ 16 :=
    Word.toNat_field a rfl (by decide) (by decide)
  rw [JsDeviceIdToDevNum, Word.toNat_lower, hfield]
  omega

theorem native_eq_pack (a : UInt64) :
    JsDeviceIdToNative a = Word.pack (JsDeviceIdToBusNum a) (JsDeviceIdToDevNum a) := rfl

/-- The bus and the device number are the upper half of the id. -/
theorem numbers_eq_iff {a b : UInt64} :
    JsDeviceIdToBusNum a = JsDeviceIdToBusNum b ∧ JsDeviceIdToDevNum a = JsDeviceIdToDevNum b ↔
      a >>> 32 = b >>> 32 := by
  rw [← UInt32.toNat_inj, ← UInt32.toNat_inj, ← UInt64.toNat_inj, toNat_busNum, toNat_busNum,
    toNat_devNum, toNat_devNum, Word.toNat_upper, Word.toNat_upper]
  omega

/-! ## Consistency -/

/-- What relates the three translations of the ids `a` and `b`. -/
structure Translations (a b : UInt64) : Prop where
  upper : JsDeviceIdToNative a >>> 32 = (JsDeviceIdToBusNum a).toUInt64
  lower : (JsDeviceIdToNative a).toUInt32 = JsDeviceIdToDevNum a
  recovered : (a >>> 32).toNat =
    (JsDeviceIdToNative a >>> 32).toNat * 2 ^ 16 + (JsDeviceIdToNative a).toNat % 2 ^ 32
  native_iff : JsDeviceIdToNative a = JsDeviceIdToNative b ↔ a >>> 32 = b >>> 32
  pairs : JsDeviceIdToNative a = JsDeviceIdToNative b ↔
    JsDeviceIdToBusNum a = JsDeviceIdToBusNum b ∧ JsDeviceIdToDevNum a = JsDeviceIdToDevNum b

/-- **Device ids.** The three translations are consistent for all ids. -/
theorem deviceId_translations (a b : UInt64) : Translations a b := by
  have hupper : JsDeviceIdToNative a >>> 32 = (JsDeviceIdToBusNum a).toUInt64 := by
    rw [native_eq_pack, Word.upper_pack]
  have hlower : (JsDeviceIdToNative a).toUInt32 = JsDeviceIdToDevNum a := by
    rw [native_eq_pack, Word.lower_pack]
  have hpairs : JsDeviceIdToNative a = JsDeviceIdToNative b ↔
      JsDeviceIdToBusNum a = JsDeviceIdToBusNum b ∧
        JsDeviceIdToDevNum a = JsDeviceIdToDevNum b := by
    rw [native_eq_pack, native_eq_pack, Word.pack_inj]
  refine ⟨hupper, hlower, ?_, hpairs.trans numbers_eq_iff, hpairs⟩
  -- The upper half of `a` is the bus number followed by the 16 bits of the device number.
  rw [hupper, ← Word.toNat_lower, hlower, UInt32.toNat_toUInt64, Word.toNat_upper, toNat_busNum,
    toNat_devNum]
  omega

end OhosWrapper.Usb
