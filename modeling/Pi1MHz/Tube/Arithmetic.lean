import Mathlib.Data.Nat.Bitwise
import Pi1MHz.Foundation.Carry
import Pi1MHz.Tube.Cpu

/-! What the processor's additions and subtractions mean: numbers of any length, in binary or in
decimal digits. -/
namespace Pi1MHz.VrEmu6502
open Carry

section Flags

/-- Bits put in for a mask leave the bits outside it. -/
theorem and_of_apart {x f g m : UInt8} (apart : f &&& g = 0) (inside : m &&& g = 0) :
    (x &&& ~~~f ||| m) &&& g = x &&& g := by
  have outside : ~~~f &&& g = g := by
    calc ~~~f &&& g = f &&& g ||| ~~~f &&& g := by rw [apart, UInt8.zero_or]
      _ = (f ||| ~~~f) &&& g := (or_and _ _ _).symm
      _ = g := by rw [UInt8.or_not_self, UInt8.neg_one_and]
  rw [or_and, inside, UInt8.or_zero, UInt8.and_assoc, outside]

variable (c : Cpu) {flag other : UInt8}

theorem testBit_setOrClearBit_ne (apart : flag &&& other = 0) (set : Bool) :
    testBit (setOrClearBit c flag set) other = testBit c other := by
  have inside : (if set then flag else 0) &&& other = 0 := by
    cases set
    · simp
    · exact apart
  simp only [testBit, setOrClearBit, and_of_apart apart inside]

theorem testBit_setOrClearBit_self (real : flag ≠ 0) (set : Bool) :
    testBit (setOrClearBit c flag set) flag = set := by
  cases set with
  | false => simp [testBit, setOrClearBit, UInt8.and_assoc]
  | true => simp [testBit, setOrClearBit, or_and, UInt8.and_assoc, real]

theorem testBit_setNZ (apart : (flagN ||| flagZ) &&& other = 0) (val : UInt8) :
    testBit (setNZ c val) other = testBit c other := by
  obtain ⟨negative, zero⟩ : flagN &&& other = 0 ∧ flagZ &&& other = 0 := by
    rw [or_and, UInt8.or_eq_zero_iff] at apart
    exact apart
  have inside : (val &&& flagN ||| if val = 0 then flagZ else 0) &&& other = 0 := by
    rw [or_and, UInt8.and_assoc, negative, UInt8.and_zero, UInt8.zero_or]
    split
    · exact zero
    · exact UInt8.zero_and
  simp only [testBit, setNZ, UInt8.or_assoc, and_of_apart apart inside]

end Flags

section Words

theorem not_toNat (x : UInt8) : (~~~x).toNat = 255 - x.toNat := by
  simp

theorem bitOf_toNat (set : Bool) : (bitOf set).toNat = set.toNat := by cases set <;> rfl

theorem complement_toNat (set : Bool) : (!set).toNat = 1 - set.toNat := by cases set <;> rfl

theorem low_toNat (x : UInt8) : (x &&& 0x0f).toNat = x.toNat % 16 := by
  rw [UInt8.toNat_and]
  exact Nat.and_two_pow_sub_one_eq_mod _ 4

theorem high_toNat (x : UInt8) : ((x &&& 0xf0) >>> 4).toNat = x.toNat / 16 := by
  have shifted : (x &&& 0xf0) >>> 4 = x >>> 4 := by
    have bits : ∀ y : BitVec 8, (y &&& 0xf0#8) >>> 4 = y >>> 4 := by decide +kernel
    exact UInt8.eq_of_toBitVec_eq (bits x.toBitVec)
  rw [shifted, UInt8.toNat_shiftRight]
  exact Nat.shiftRight_eq_div_pow _ 4

end Words

section Binary

variable (c : Cpu) (opr : UInt8)

theorem addTo_decimal : testBit (addTo c opr) flagD = testBit c flagD := by
  rw [addTo, testBit_setNZ _ (by decide)]
  exact (testBit_setOrClearBit_ne _ (by decide) _).trans
    (testBit_setOrClearBit_ne c (by decide) _)

theorem sum_toNat : (c.ac.toUInt16 + opr.toUInt16 + (bitOf (testBit c flagC)).toUInt16).toNat =
    c.ac.toNat + opr.toNat + (testBit c flagC).toNat := by
  have first := c.ac.toNat_lt
  have second := opr.toNat_lt
  have bit := Bool.toNat_le (testBit c flagC)
  simp only [UInt16.toNat_add, UInt8.toNat_toUInt16, bitOf_toNat]
  omega

theorem addTo_carry : testBit (addTo c opr) flagC =
    decide (255 < c.ac.toNat + opr.toNat + (testBit c flagC).toNat) := by
  have ninth : testBit (addTo c opr) flagC =
      decide (c.ac.toUInt16 + opr.toUInt16 + (bitOf (testBit c flagC)).toUInt16 > 0xff) := by
    rw [addTo, testBit_setNZ _ (by decide)]
    exact (testBit_setOrClearBit_ne _ (by decide) _).trans
      (testBit_setOrClearBit_self c (by decide) _)
  rw [ninth, Bool.eq_iff_iff, decide_eq_true_eq, decide_eq_true_eq, gt_iff_lt,
    UInt16.lt_iff_toNat_lt, sum_toNat]
  rfl

theorem addTo_adds : Adds UInt8.toNat 256 (testBit c flagC) ⟨c.ac, opr, (addTo c opr).ac⟩
    (testBit (addTo c opr) flagC) := by
  have first := c.ac.toNat_lt
  have second := opr.toNat_lt
  have bit := Bool.toNat_le (testBit c flagC)
  have sum := sum_toNat c opr
  have carried : (testBit (addTo c opr) flagC).toNat =
      (c.ac.toNat + opr.toNat + (testBit c flagC).toNat) / 256 := by
    rw [addTo_carry]
    by_cases spills : 255 < c.ac.toNat + opr.toNat + (testBit c flagC).toNat
    · rw [decide_eq_true spills, Bool.toNat_true]
      omega
    · rw [decide_eq_false spills, Bool.toNat_false]
      omega
  have result : (addTo c opr).ac.toNat =
      (c.ac.toNat + opr.toNat + (testBit c flagC).toNat) % 256 := by
    rw [← sum]
    exact UInt16.toNat_toUInt8 _
  rw [Adds, result, carried]
  exact Nat.mod_add_div _ _

/-- A subtraction adds the complement, and its borrow is the carry's complement. -/
theorem addTo_subtracts : Subtracts UInt8.toNat 256 (!testBit c flagC)
    ⟨c.ac, opr, (addTo c (~~~opr)).ac⟩ (!testBit (addTo c (~~~opr)) flagC) := by
  have added := addTo_adds c (~~~opr)
  have operand := opr.toNat_lt
  simp only [Adds, not_toNat] at added
  simp only [Subtracts, complement_toNat]
  have bit := Bool.toNat_le (testBit c flagC)
  have next := Bool.toNat_le (testBit (addTo c (~~~opr)) flagC)
  omega

end Binary

section Decimal

/-- The number that two decimal digits write. -/
def bcd (byte : UInt8) : Nat := 10 * (byte.toNat / 16) + byte.toNat % 16

def IsBcd (byte : UInt8) : Prop := byte.toNat / 16 < 10 ∧ byte.toNat % 16 < 10

theorem nibbles_toNat (tens units : UInt8) :
    (tens <<< 4 ||| units &&& 0x0f).toNat = 16 * (tens.toNat % 16) + units.toNat % 16 := by
  have small : units.toNat % 16 < 2 ^ 4 := Nat.mod_lt _ (by decide)
  have shifted : (tens <<< 4).toNat = (tens.toNat % 16) <<< 4 := by
    rw [UInt8.toNat_shiftLeft, Nat.shiftLeft_eq, Nat.shiftLeft_eq]
    exact Nat.mul_mod_mul_right 16 tens.toNat 16
  rw [UInt8.toNat_or, low_toNat, shifted, ← Nat.shiftLeft_add_eq_or_of_lt small, Nat.shiftLeft_eq]
  omega

theorem overflows_iff (tens : UInt8) : (tens &&& 0xf0 != 0) = decide (16 ≤ tens.toNat) := by
  have bits : ∀ y : BitVec 8, (y &&& 0xf0#8 ≠ 0#8) ↔ 16 ≤ y.toNat := by decide +kernel
  rw [Bool.eq_iff_iff, bne_iff_ne, decide_eq_true_eq, ne_eq, ← UInt8.toBitVec_inj]
  exact bits tens.toBitVec

variable (c : Cpu) (value : UInt8)

theorem addDecimal_decimal : testBit (addDecimal c value) flagD = testBit c flagD := by
  simp only [addDecimal]
  exact (testBit_setOrClearBit_ne _ (by decide) _).trans ((testBit_setNZ _ (by decide) _).trans
    (testBit_setOrClearBit_ne _ (by decide) _))

/-- The digits before they are put together, each with its own carry worked in. -/
theorem addDecimal_digits : ∃ tens units : UInt8,
    (addDecimal c value).ac = tens <<< 4 ||| units &&& 0x0f ∧
      testBit (addDecimal c value) flagC = decide (16 ≤ tens.toNat) ∧
      let low := c.ac.toNat % 16 + value.toNat % 16 + (testBit c flagC).toNat
      let high := c.ac.toNat / 16 + value.toNat / 16 + if 9 < low then 1 else 0
      units.toNat = (if 9 < low then low + 6 else low) ∧
        tens.toNat = if 9 < high then high + 6 else high := by
  have first := c.ac.toNat_lt
  have second := value.toNat_lt
  have bit := Bool.toNat_le (testBit c flagC)
  have units : ((value &&& 0x0f) + (c.ac &&& 0x0f) + bitOf (testBit c flagC)).toNat =
      c.ac.toNat % 16 + value.toNat % 16 + (testBit c flagC).toNat := by
    simp only [UInt8.toNat_add, low_toNat, bitOf_toNat]
    omega
  have tens : ((value &&& 0xf0) >>> 4 + (c.ac &&& 0xf0) >>> 4).toNat =
      c.ac.toNat / 16 + value.toNat / 16 := by
    simp only [UInt8.toNat_add, high_toNat]
    omega
  have spills : ∀ x : UInt8, x > 0x09 ↔ 9 < x.toNat := fun x => UInt8.lt_iff_toNat_lt
  simp only [addDecimal, testBit_setOrClearBit_self _ (show flagC ≠ 0 by decide), overflows_iff]
  refine ⟨_, _, rfl, rfl, ?_⟩
  simp only [spills, units]
  generalize (value &&& 0x0f) + (c.ac &&& 0x0f) + bitOf (testBit c flagC) = u at units ⊢
  generalize (value &&& 0xf0) >>> 4 + (c.ac &&& 0xf0) >>> 4 = t at tens ⊢
  have next : (t + 1).toNat = t.toNat + 1 := by
    rw [UInt8.toNat_add, UInt8.toNat_one]
    omega
  have six : ∀ x : UInt8, x.toNat < 250 → (x + 6).toNat = x.toNat + 6 := by
    intro x small
    rw [UInt8.toNat_add, show (6 : UInt8).toNat = 6 from rfl]
    omega
  rw [← units]
  by_cases carried : 9 < u.toNat
  · simp only [if_pos carried, next, tens]
    refine ⟨six u (by omega), ?_⟩
    split
    · rw [six _ (by omega), next, tens]
    · rw [next, tens]
  · simp only [if_neg carried, Nat.add_zero, tens]
    refine ⟨trivial, ?_⟩
    split
    · rw [six _ (by omega), tens]
    · exact tens

theorem addDecimal_adds (first : IsBcd c.ac) (second : IsBcd value) :
    Adds bcd 100 (testBit c flagC) ⟨c.ac, value, (addDecimal c value).ac⟩
        (testBit (addDecimal c value) flagC) ∧ IsBcd (addDecimal c value).ac := by
  obtain ⟨tens, units, result, carry, low, high⟩ := addDecimal_digits c value
  have bit := Bool.toNat_le (testBit c flagC)
  have written := nibbles_toNat tens units
  rw [← result] at written
  have carried : (testBit (addDecimal c value) flagC).toNat = if 16 ≤ tens.toNat then 1 else 0 := by
    rw [carry]
    by_cases spills : 16 ≤ tens.toNat
    · rw [decide_eq_true spills, if_pos spills, Bool.toNat_true]
    · rw [decide_eq_false spills, if_neg spills, Bool.toNat_false]
  obtain ⟨firstHigh, firstLow⟩ := first
  obtain ⟨secondHigh, secondLow⟩ := second
  simp only [Adds, bcd, IsBcd, carried, written]
  clear carried written carry result
  by_cases spills : 9 < c.ac.toNat % 16 + value.toNat % 16 + (testBit c flagC).toNat
  · rw [if_pos spills] at low high
    split at high <;> split <;> omega
  · rw [if_neg spills] at low high
    split at high <;> split <;> omega

theorem negative_iff (x : UInt16) : x &&& 0x8000 != 0 ↔ 0x8000 ≤ x.toNat := by
  have small := x.toNat_lt
  have zero : x &&& 0x8000 = 0 ↔ (x.toNat.testBit 15).toNat * 2 ^ 15 = 0 := by
    rw [← UInt16.toNat_inj, UInt16.toNat_and, ← Nat.and_two_pow]
    rfl
  rw [bne_iff_ne, ne_eq, zero, Nat.testBit_eq_decide_div_mod_eq]
  by_cases high : x.toNat / 2 ^ 15 % 2 = 1
  · rw [decide_eq_true high, Bool.toNat_true]
    omega
  · rw [decide_eq_false high, Bool.toNat_false]
    omega

theorem wrapped_toNat {x : UInt16} (wrapped : x &&& 0xff0 = 0xff0) : x.toNat / 16 % 256 = 255 := by
  have shifted : x >>> 4 &&& 0xff = 0xff := by
    have both := congrArg (· >>> (4 : UInt16)) wrapped
    rw [UInt16.shiftRight_and] at both
    exact both
  have read := congrArg UInt16.toNat shifted
  rw [UInt16.toNat_and, UInt16.toNat_shiftRight] at read
  have quotient : x.toNat / 2 ^ 4 % 2 ^ 8 = 255 := by
    rw [← Nat.and_two_pow_sub_one_eq_mod, ← Nat.shiftRight_eq_div_pow]
    exact read
  exact quotient

/-- The difference as the code has it before it is cut to a byte: a borrow out of either digit
takes six more from it. -/
theorem subDecimal_result : ∃ result : UInt16,
    (subDecimal c value).ac = (result &&& 0xff).toUInt8 ∧
      testBit (subDecimal c value) flagC =
        (decide (result ≤ c.ac.toUInt16) || result &&& 0xff0 == 0xff0) ∧
      let borrow := (!testBit c flagC).toNat
      (result.toNat : Int) = (c.ac.toNat - value.toNat - borrow -
        (if c.ac.toNat < value.toNat + borrow then 0x60 else 0) -
        (if c.ac.toNat % 16 < value.toNat % 16 + borrow then 6 else 0)) % 65536 := by
  have first := c.ac.toNat_lt
  have second := value.toNat_lt
  have bit := Bool.toNat_le (!testBit c flagC)
  have difference : ∀ x y : UInt8, ((x.toUInt16 - y.toUInt16 -
      (bitOf !testBit c flagC).toUInt16).toNat : Int) =
        (x.toNat - y.toNat - (!testBit c flagC).toNat) % 65536 := by
    intro x y
    simp only [UInt16.toNat_sub, UInt8.toNat_toUInt16, bitOf_toNat]
    have small := x.toNat_lt
    have less := y.toNat_lt
    omega
  have whole := difference c.ac value
  have units := difference (c.ac &&& 0x0f) (value &&& 0x0f)
  rw [low_toNat, low_toNat] at units
  simp only [subDecimal]
  refine ⟨_, rfl, testBit_setOrClearBit_self _ (by decide) _, ?_⟩
  simp only [negative_iff]
  generalize c.ac.toUInt16 - value.toUInt16 - (bitOf !testBit c flagC).toUInt16 = r at whole ⊢
  generalize (c.ac &&& 0x0f).toUInt16 - (value &&& 0x0f).toUInt16 -
    (bitOf !testBit c flagC).toUInt16 = t at units ⊢
  have negative : 32768 ≤ r.toNat ↔ c.ac.toNat < value.toNat + (!testBit c flagC).toNat := by
    omega
  have borrows : 32768 ≤ t.toNat ↔
      c.ac.toNat % 16 < value.toNat % 16 + (!testBit c flagC).toNat := by
    omega
  have takes : ∀ x y : UInt16, ((x - y).toNat : Int) = (x.toNat - y.toNat) % 65536 := by
    intro x y
    rw [UInt16.toNat_sub]
    have small := x.toNat_lt
    have less := y.toNat_lt
    omega
  have sixty : ((if 32768 ≤ r.toNat then r - 96 else r).toNat : Int) =
      (r.toNat - if 32768 ≤ r.toNat then 96 else 0) % 65536 := by
    have small := r.toNat_lt
    split
    · exact takes r 96
    · omega
  simp only [negative, borrows] at sixty ⊢
  split
  · rw [takes, sixty, show ((6 : UInt16).toNat : Int) = 6 from rfl, whole]
    split <;> omega
  · rw [sixty, whole]
    split <;> omega

theorem subDecimal_subtracts (first : IsBcd c.ac) (second : IsBcd value) :
    Subtracts bcd 100 (!testBit c flagC) ⟨c.ac, value, (subDecimal c value).ac⟩
        (!testBit (subDecimal c value) flagC) ∧ IsBcd (subDecimal c value).ac := by
  obtain ⟨result, left, carry, difference⟩ := subDecimal_result c value
  dsimp only at difference
  have bit := Bool.toNat_le (!testBit c flagC)
  have small := result.toNat_lt
  have written : (subDecimal c value).ac.toNat = result.toNat % 256 := by
    rw [left, UInt16.toNat_toUInt8, UInt16.toNat_and]
    have cut := Nat.and_two_pow_sub_one_eq_mod result.toNat 8
    rw [show (0xff : UInt16).toNat = 2 ^ 8 - 1 from rfl, cut]
    omega
  obtain ⟨firstHigh, firstLow⟩ := first
  obtain ⟨secondHigh, secondLow⟩ := second
  have borrowed : (!testBit (subDecimal c value) flagC).toNat =
      if c.ac.toNat < value.toNat + (!testBit c flagC).toNat then 1 else 0 := by
    rw [carry]
    split
    case isTrue below =>
      rw [if_pos below] at difference
      have above : ¬result ≤ c.ac.toUInt16 := by
        rw [UInt16.le_iff_toNat_le, UInt8.toNat_toUInt16]
        split at difference <;> omega
      have kept : ¬result &&& 0xff0 = 0xff0 := by
        intro wrapped
        have quotient := wrapped_toNat wrapped
        split at difference <;> omega
      simp [above, kept]
    case isFalse enough =>
      rw [if_neg enough] at difference
      have within : result ≤ c.ac.toUInt16 := by
        rw [UInt16.le_iff_toNat_le, UInt8.toNat_toUInt16]
        split at difference <;> omega
      simp [within]
  simp only [Subtracts, bcd, IsBcd, borrowed, written]
  clear borrowed written carry left
  split
  case isTrue below =>
    rw [if_pos below] at difference
    split at difference <;> omega
  case isFalse enough =>
    rw [if_neg enough] at difference
    split at difference <;> omega

theorem subDecimal_decimal : testBit (subDecimal c value) flagD = testBit c flagD := by
  simp only [subDecimal]
  exact (testBit_setOrClearBit_ne _ (by decide) _).trans ((testBit_setNZ _ (by decide) _).trans
    (testBit_setOrClearBit_ne _ (by decide) _))

end Decimal

def base (decimal : Bool) : Nat := if decimal then 100 else 256

def digit (decimal : Bool) (byte : UInt8) : Nat := if decimal then bcd byte else byte.toNat

def IsDigit (decimal : Bool) (byte : UInt8) : Prop := decimal = true → IsBcd byte

instance (decimal : Bool) (byte : UInt8) : Decidable (IsDigit decimal byte) :=
  inferInstanceAs (Decidable (decimal = true → _ ∧ _))

section Chains

variable {σ : Type} (d : Bus.Device σ UInt16 UInt8)

/-- The operand's byte as the processor would read it now. -/
def fetched (mode : AddrMode) (x : σ × Cpu) : UInt8 := ((operand mode x.2).run d x.1).2.2

/-- A calculation place by place, with anything in between that leaves `C` and `D` alone. -/
inductive Chained (calculate : AddrMode → Cpu → Action Cpu) :
    σ × Cpu → List (Place UInt8) → σ × Cpu → Prop
  | done (x : σ × Cpu) : Chained calculate x [] x
  | between {x y z : σ × Cpu} {places : List (Place UInt8)} :
      testBit y.2 flagC = testBit x.2 flagC → testBit y.2 flagD = testBit x.2 flagD →
      Chained calculate y places z → Chained calculate x places z
  | place {x z : σ × Cpu} {rest : List (Place UInt8)} (mode : AddrMode) :
      Chained calculate ((calculate mode x.2).run d x.1) rest z →
      Chained calculate x (⟨x.2.ac, fetched d mode x, ((calculate mode x.2).run d x.1).2.ac⟩ :: rest) z

variable {d}

theorem run_operand (mode : AddrMode) (x : σ × Cpu) (f : Cpu → UInt8 → Cpu) :
    ∃ c, Addressed mode.slack x.2 c ∧
      ((operand mode x.2 >>= fun r => pure (f r.1 r.2) : Action Cpu).run d x.1).2 =
        f c (fetched d mode x) := by
  refine ⟨((operand mode x.2).run d x.1).2.1, (operand_addressed mode x.2).run d x.1, ?_⟩
  rw [Bus.run_bind]
  rfl

theorem adc_place (mode : AddrMode) (x : σ × Cpu) :
    testBit ((adc mode x.2).run d x.1).2 flagD = testBit x.2 flagD ∧
      (IsDigit (testBit x.2 flagD) x.2.ac → IsDigit (testBit x.2 flagD) (fetched d mode x) →
        Adds (digit (testBit x.2 flagD)) (base (testBit x.2 flagD)) (testBit x.2 flagC)
            ⟨x.2.ac, fetched d mode x, ((adc mode x.2).run d x.1).2.ac⟩
            (testBit ((adc mode x.2).run d x.1).2 flagC) ∧
          IsDigit (testBit x.2 flagD) ((adc mode x.2).run d x.1).2.ac) := by
  cases decimal : testBit x.2 flagD with
  | true =>
    obtain ⟨c, addressed, ran⟩ := run_operand (d := d) mode x addDecimal
    rw [adc, decimal, if_pos rfl, adcd, ran, addDecimal_decimal, addressed.testBit, decimal]
    refine ⟨rfl, fun first second => ?_⟩
    rw [← addressed.ac, ← addressed.testBit]
    obtain ⟨adds, result⟩ := addDecimal_adds c (fetched d mode x)
      (addressed.ac ▸ first rfl) (second rfl)
    exact ⟨adds, fun _ => result⟩
  | false =>
    obtain ⟨c, addressed, ran⟩ := run_operand (d := d) mode x addTo
    rw [adc, decimal, if_neg (by decide), ran, addTo_decimal, addressed.testBit, decimal]
    refine ⟨rfl, fun _ _ => ?_⟩
    rw [← addressed.ac, ← addressed.testBit]
    exact ⟨addTo_adds c (fetched d mode x), nofun⟩

theorem sbc_place (mode : AddrMode) (x : σ × Cpu) :
    testBit ((sbc mode x.2).run d x.1).2 flagD = testBit x.2 flagD ∧
      (IsDigit (testBit x.2 flagD) x.2.ac → IsDigit (testBit x.2 flagD) (fetched d mode x) →
        Subtracts (digit (testBit x.2 flagD)) (base (testBit x.2 flagD)) (!testBit x.2 flagC)
            ⟨x.2.ac, fetched d mode x, ((sbc mode x.2).run d x.1).2.ac⟩
            (!testBit ((sbc mode x.2).run d x.1).2 flagC) ∧
          IsDigit (testBit x.2 flagD) ((sbc mode x.2).run d x.1).2.ac) := by
  cases decimal : testBit x.2 flagD with
  | true =>
    obtain ⟨c, addressed, ran⟩ := run_operand (d := d) mode x subDecimal
    rw [sbc, decimal, if_pos rfl, sbcd, ran, subDecimal_decimal, addressed.testBit, decimal]
    refine ⟨rfl, fun first second => ?_⟩
    rw [← addressed.ac, ← addressed.testBit]
    obtain ⟨subtracts, result⟩ := subDecimal_subtracts c (fetched d mode x)
      (addressed.ac ▸ first rfl) (second rfl)
    exact ⟨subtracts, fun _ => result⟩
  | false =>
    obtain ⟨c, addressed, ran⟩ := run_operand (d := d) mode x fun c opr => addTo c (~~~opr)
    rw [sbc, decimal, if_neg (by decide), ran, addTo_decimal, addressed.testBit, decimal]
    refine ⟨rfl, fun _ _ => ?_⟩
    rw [← addressed.ac, ← addressed.testBit]
    exact ⟨addTo_subtracts c (fetched d mode x), nofun⟩

/-- Every place goes in as digits, in the mode that the processor is in. -/
def Digits (decimal : Bool) (places : List (Place UInt8)) : Prop :=
  ∀ place ∈ places, IsDigit decimal place.first ∧ IsDigit decimal place.second

instance (decimal : Bool) (places : List (Place UInt8)) : Decidable (Digits decimal places) :=
  inferInstanceAs (Decidable (∀ place ∈ places, _ ∧ _))

variable {x z : σ × Cpu} {places : List (Place UInt8)}

/-- One place of each kind makes a chain of them. -/
theorem Chained.chain {calculate : AddrMode → Cpu → Action Cpu}
    (rule : Bool → Bool → Place UInt8 → Bool → Prop) (carryOf : Cpu → Bool)
    (same : ∀ c c' : Cpu, testBit c' flagC = testBit c flagC → carryOf c' = carryOf c)
    (one : ∀ mode (x : σ × Cpu), testBit ((calculate mode x.2).run d x.1).2 flagD = testBit x.2 flagD ∧
      (IsDigit (testBit x.2 flagD) x.2.ac → IsDigit (testBit x.2 flagD) (fetched d mode x) →
        rule (testBit x.2 flagD) (carryOf x.2)
            ⟨x.2.ac, fetched d mode x, ((calculate mode x.2).run d x.1).2.ac⟩
            (carryOf ((calculate mode x.2).run d x.1).2) ∧
          IsDigit (testBit x.2 flagD) ((calculate mode x.2).run d x.1).2.ac))
    (chained : Chained d calculate x places z) (digits : Digits (testBit x.2 flagD) places) :
    Chain (rule (testBit x.2 flagD)) (carryOf x.2) places (carryOf z.2) ∧
      ∀ place ∈ places, IsDigit (testBit x.2 flagD) place.result := by
  induction chained with
  | done x => exact ⟨.done _, fun place gone => absurd gone List.not_mem_nil⟩
  | between carry decimal _ ih =>
    rw [← same _ _ carry, ← decimal]
    exact ih (decimal ▸ digits)
  | @place x z rest mode _ ih =>
    obtain ⟨decimal, here⟩ := one mode x
    obtain ⟨first, second⟩ := digits _ List.mem_cons_self
    obtain ⟨adds, result⟩ := here first second
    obtain ⟨later, results⟩ := ih (decimal.symm ▸ fun place member =>
      digits place (List.mem_cons_of_mem _ member))
    rw [decimal] at later results
    refine ⟨.place adds later, fun place member => ?_⟩
    cases List.mem_cons.mp member with
    | inl same => exact same ▸ result
    | inr member => exact results place member

/-- `ADC` from the lowest place up adds numbers of any length: bytes in binary mode, two decimal
digits to the byte in decimal mode, whose results are decimal digits again. -/
theorem adc_adds_numbers (chained : Chained d adc x places z)
    (digits : Digits (testBit x.2 flagD) places) :
    let value := digit (testBit x.2 flagD)
    let radix := base (testBit x.2 flagD)
    number value radix Place.result places + radix ^ places.length * (testBit z.2 flagC).toNat =
        number value radix Place.first places + number value radix Place.second places +
          (testBit x.2 flagC).toNat ∧
      ∀ place ∈ places, IsDigit (testBit x.2 flagD) place.result := by
  obtain ⟨chain, results⟩ := chained.chain (fun decimal => Adds (digit decimal) (base decimal))
    (testBit · flagC) (fun _ _ same => same) adc_place digits
  exact ⟨chain.adds, results⟩

/-- Two operands in memory, for a processor in decimal mode with no carry. -/
def decimalCase : (UInt16 → UInt8) × Cpu :=
  (fun addr => if addr = 0 then 0x47 else 0x31, ⟨0, 0, false, false, 0, 0x65, 0, 0, 0xff, 0x38⟩)

def decimalSum : List (Place UInt8) := [⟨0x65, 0x47, 0x12⟩, ⟨0x12, 0x31, 0x44⟩]

/-- 1265 + 3147 = 4412. -/
theorem adc_adds_numbers_decimal : ∃ z, Chained .cells adc decimalCase decimalSum z ∧
    number (digit true) 100 Place.result decimalSum + 100 ^ 2 * (testBit z.2 flagC).toNat =
      number (digit true) 100 Place.first decimalSum +
        number (digit true) 100 Place.second decimalSum + (testBit decimalCase.2 flagC).toNat := by
  let next := (adc .imm decimalCase.2).run .cells decimalCase.1
  let loaded : (UInt16 → UInt8) × Cpu := (next.1, { next.2 with ac := 0x12 })
  have chained := @Chained.place _ .cells adc decimalCase _ _ .imm
    (.between (y := loaded) rfl rfl (.place .imm (.done _)))
  rw [show _ :: [_] = decimalSum by decide +kernel] at chained
  exact ⟨_, chained, (adc_adds_numbers chained (by decide)).1⟩

/-- `SBC` likewise subtracts them, with the borrow in `C` complemented. -/
theorem sbc_subtracts_numbers (chained : Chained d sbc x places z)
    (digits : Digits (testBit x.2 flagD) places) :
    let value := digit (testBit x.2 flagD)
    let radix := base (testBit x.2 flagD)
    number value radix Place.result places + number value radix Place.second places +
          (!testBit x.2 flagC).toNat =
        number value radix Place.first places + radix ^ places.length * (!testBit z.2 flagC).toNat ∧
      ∀ place ∈ places, IsDigit (testBit x.2 flagD) place.result := by
  obtain ⟨chain, results⟩ := chained.chain
    (fun decimal => Subtracts (digit decimal) (base decimal)) (fun c => !testBit c flagC)
    (fun _ _ same => congrArg _ same) sbc_place digits
  exact ⟨chain.subtracts, results⟩

/-- 4412 - 3147 = 1265, from a carry that is set. -/
def decimalBack : (UInt16 → UInt8) × Cpu :=
  (decimalCase.1, ⟨0, 0, false, false, 0, 0x12, 0, 0, 0xff, 0x39⟩)

def decimalDifference : List (Place UInt8) := [⟨0x12, 0x47, 0x65⟩, ⟨0x44, 0x31, 0x12⟩]

theorem sbc_subtracts_numbers_decimal : ∃ z, Chained .cells sbc decimalBack decimalDifference z ∧
    number (digit true) 100 Place.result decimalDifference +
          number (digit true) 100 Place.second decimalDifference +
          (!testBit decimalBack.2 flagC).toNat =
        number (digit true) 100 Place.first decimalDifference +
          100 ^ 2 * (!testBit z.2 flagC).toNat := by
  let next := (sbc .imm decimalBack.2).run .cells decimalBack.1
  let loaded : (UInt16 → UInt8) × Cpu := (next.1, { next.2 with ac := 0x44 })
  have chained := @Chained.place _ .cells sbc decimalBack _ _ .imm
    (.between (y := loaded) rfl rfl (.place .imm (.done _)))
  rw [show _ :: [_] = decimalDifference by decide +kernel] at chained
  exact ⟨_, chained, (sbc_subtracts_numbers chained (by decide)).1⟩

end Chains

end Pi1MHz.VrEmu6502
