import Mathlib
import StepFlow.Json.Decode

/-!
# Finite numbers in JSON

A JSON text holds no infinite and no undefined numbers, and an integer of 64 bits is a finite
double.

## Main definitions

* `Decimal.Moderate`: the numbers that stay finite when they are packed into 64 bits.
* `Value.isFinite`: every floating-point number inside a value is finite.

## Main results

* `Decimal.isFinite_ofInt`: the double of an integer is finite.

## Design notes

Whether a double is finite only depends on its exponent, and so do the bounds below: rounding an
integer of 64 bits to 53 of them moves the exponent far less than the 971 that a double can hold.
-/

namespace StepFlow

namespace Decimal

open Float.Model (Format UnpackedFloat totalExponent)
open Float.Model.UnpackedFloat

/-- The exponent bits of a double; they are all set if it is infinite or undefined. -/
def exponentField (x : Float) : BitVec 11 :=
  @unpackExponent Format.binary64 x.toModel.toBits.toBitVec

theorem toNat_ones : (-1#11 : BitVec 11).toNat = 2047 := by
  decide

theorem isFinite_iff (x : Float) : isFinite x = true ↔ exponentField x ≠ -1#11 := by
  have hfield : (exponentField x).toNat = x.toBits.toNat / 2 ^ 52 % 2 ^ 11 := by
    simp [exponentField, unpackExponent, Nat.shiftRight_eq_div_pow, Float.toBits]
  have hlt := (exponentField x).isLt
  rw [ne_eq, ← BitVec.toNat_inj, hfield, toNat_ones]
  simp only [isFinite, decide_eq_true_eq]
  omega

/-- A number whose exponent a finite double can hold. -/
def Moderate : UnpackedFloat → Prop
  | .zero _ => True
  | .finite _ _ exponent _ => exponent ≤ 971
  | _ => False

theorem isFinite_pack {f : UnpackedFloat} (h : Moderate f) :
    isFinite ⟨Float.Model.pack f⟩ = true := by
  rw [isFinite_iff]
  show unpackExponent (UnpackedFloat.pack Format.binary64 f) ≠ _
  cases f with
  | infinity s => exact h.elim
  | notANumber => exact h.elim
  | zero s => simp [UnpackedFloat.pack, packedZero]
  | finite s m e hm =>
    have he : e ≤ 971 := h
    have hbiased : (e + Format.binary64.exponentBias + (52 : Nat)).toNat + 1 < 2 ^ 11 := by
      have hbias : Format.binary64.exponentBias = 1023 := rfl
      omega
    simp only [UnpackedFloat.pack]
    rw [if_neg (Nat.not_le.2 hbiased)]
    split
    · rw [unpackExponent_packComponents, ne_eq, ← BitVec.toNat_inj, BitVec.toNat_ofNat, toNat_ones]
      omega
    · simp

theorem moderate_unpack {x : Float} (h : isFinite x = true) : Moderate x.toModel.unpack := by
  rw [isFinite_iff] at h
  have hlt : (exponentField x).toNat < 2047 := by
    have hlt := (exponentField x).isLt
    rw [ne_eq, ← BitVec.toNat_inj, toNat_ones] at h
    omega
  simp only [exponentField] at h hlt
  simp only [Float.Model.unpack, UnpackedFloat.unpack, if_neg h]
  split
  · next hzero =>
    split
    · trivial
    · rw [hzero]
      show (0 : Int) - (1023 + 52) + 1 ≤ 971
      decide
  · show ((@unpackExponent Format.binary64 x.toModel.toBits.toBitVec).toNat : Int) - (1023 + 52)
      ≤ 971
    omega

theorem isFinite_neg {x : Float} (h : isFinite x = true) : isFinite (-x) = true := by
  refine isFinite_pack (f := x.toModel.unpack.neg) ?_
  have hmoderate := moderate_unpack h
  revert hmoderate
  cases x.toModel.unpack <;> simp [UnpackedFloat.neg, Moderate]

theorem mantissa_shiftRight_le (m : ExtendedMantissa) (n : Nat) :
    (m >>> n).mantissa ≤ m.mantissa := by
  induction n with
  | zero => exact Nat.le_refl _
  | succ n ih => exact Nat.le_trans (Nat.div_le_self _ 2) ih

theorem roundedMantissa_le (m : ExtendedMantissa) : m.roundedMantissa ≤ m.mantissa + 1 := by
  rcases m with ⟨m, _ | _, _ | _⟩ <;>
    simp [ExtendedMantissa.roundedMantissa, ExtendedMantissa.accuracy, Accuracy.roundToNearestEven]
  omega

theorem shiftToTargetExponent_bounds {m k : Nat} {e b : Int} (a : Accuracy) (hm : m < 2 ^ k)
    (he : e ≤ b) (hb : 0 ≤ b) :
    (shiftToTargetExponent Format.binary64 m e a).1.mantissa < 2 ^ k ∧
      (shiftToTargetExponent Format.binary64 m e a).2 ≤ b + k := by
  have hlog : m.log2 ≤ k := by
    rcases Nat.eq_zero_or_pos m with rfl | hpos
    · simp
    · exact Nat.le_of_lt ((Nat.log2_lt (Nat.pos_iff_ne_zero.1 hpos)).2 hm)
  constructor
  · refine Nat.lt_of_le_of_lt (mantissa_shiftRight_le _ _) ?_
    rcases a with _ | (_ | _ | _) <;> exact hm
  · simp only [shiftToTargetExponent, shiftToExponent, Format.targetExponent, Format.minExponent,
      Format.mantissaBits, totalExponent]
    omega

-- Rounding may carry into one more bit, after which the mantissa is shifted a second time.
theorem moderate_roundWithAccuracy (s : Sign) {m : Nat} {e : Int} (a : Accuracy)
    (hm : m < 2 ^ 116) (he : e ≤ 0) : Moderate (roundWithAccuracy Format.binary64 s m e a) := by
  obtain ⟨hmantissa, hexponent⟩ := shiftToTargetExponent_bounds a hm he (Int.le_refl 0)
  have hrounded := roundedMantissa_le (shiftToTargetExponent Format.binary64 m e a).1
  obtain ⟨-, hfinal⟩ := shiftToTargetExponent_bounds (k := 117) .exact
    (Nat.lt_of_le_of_lt hrounded (by omega)) hexponent (by omega)
  simp only [roundWithAccuracy]
  split
  · trivial
  · simp only [Moderate]
    omega

theorem isFinite_toFloat (n : UInt64) : isFinite n.toFloat = true := by
  refine isFinite_pack (f := UnpackedFloat.ofUInt64 Format.binary64 n) ?_
  have hn : n.toNat < 2 ^ 64 := n.toNat_lt
  simp only [UnpackedFloat.ofUInt64, UnpackedFloat.ofNat, UnpackedFloat.ofInt,
    UnpackedFloat.normalize]
  split
  · next hneg =>
    rw [Int.compare_eq_lt] at hneg
    omega
  · trivial
  · simp only [UnpackedFloat.round, decreaseExponent]
    refine moderate_roundWithAccuracy _ _ ?_ (by omega)
    -- the mantissa is widened to 53 bits, by at most 52
    simp only [Format.targetExponent, totalExponent, Format.mantissaBits]
    rw [Nat.shiftLeft_eq]
    calc n.toNat * 2 ^ _ ≤ n.toNat * 2 ^ 52 :=
          Nat.mul_le_mul_left _ (Nat.pow_le_pow_right (by decide) (by omega))
      _ < 2 ^ 116 := by omega

/-- The double of an integer is finite. -/
theorem isFinite_ofInt (n : Int) : isFinite (ofInt n) = true := by
  rw [ofInt]
  split
  · exact isFinite_neg (isFinite_toFloat _)
  · exact isFinite_toFloat _

end Decimal

namespace Json.Value

mutual

/-- Whether every floating-point number inside the value is finite. -/
def isFinite : Value → Bool
  | float x => Decimal.isFinite x
  | arr items => finiteItems items
  | obj entries => finiteEntries entries
  | _ => true

/-- Whether every item is finite. -/
def finiteItems : List Value → Bool
  | [] => true
  | v :: rest => isFinite v && finiteItems rest

/-- Whether the value of every entry is finite. -/
def finiteEntries : List (String × Value) → Bool
  | [] => true
  | (_, v) :: rest => isFinite v && finiteEntries rest

end

theorem isFinite_of_mem {items : List Value} (h : (arr items).isFinite = true) {v : Value}
    (hv : v ∈ items) : v.isFinite = true := by
  rw [isFinite] at h
  induction items with
  | nil => exact absurd hv List.not_mem_nil
  | cons head rest ih =>
    rw [finiteItems, Bool.and_eq_true] at h
    rcases List.mem_cons.1 hv with rfl | hv
    · exact h.1
    · exact ih h.2 hv

theorem isFinite_of_get? {entries : Object} (h : (obj entries).isFinite = true) {key : String}
    {v : Value} (hv : Keyed.get? entries key = some v) : v.isFinite = true := by
  rw [isFinite] at h
  induction entries with
  | nil => simp [Keyed.get?] at hv
  | cons entry rest ih =>
    rw [finiteEntries, Bool.and_eq_true] at h
    rw [Keyed.get?] at hv
    split at hv
    · obtain rfl := Option.some.inj hv
      exact h.1
    · exact ih h.2 hv

end Json.Value

end StepFlow
