import Mathlib.Data.Nat.Digits.Defs
import Mathlib.Tactic.Ring

/-! Sums and differences of numbers written digit by digit, lowest first, with a carry or a borrow
from each place to the next. -/
namespace Carry

/-- A place of a calculation: the two digits that go in and the one that comes out. -/
structure Place (α : Type) where
  first : α
  second : α
  result : α
deriving DecidableEq

variable {α : Type} (value : α → Nat) (base : Nat)

/-- The number that one row of the places writes. -/
def number (row : Place α → α) (places : List (Place α)) : Nat :=
  Nat.ofDigits base (places.map fun place => value (row place))

theorem number_cons (row : Place α → α) (place : Place α) (rest : List (Place α)) :
    number value base row (place :: rest) =
      value (row place) + base * number value base row rest := by
  rw [number, List.map_cons, Nat.ofDigits_cons, number]

def Adds (carry : Bool) (place : Place α) (next : Bool) : Prop :=
  value place.result + base * next.toNat =
    value place.first + value place.second + carry.toNat

def Subtracts (borrow : Bool) (place : Place α) (next : Bool) : Prop :=
  value place.result + value place.second + borrow.toNat =
    value place.first + base * next.toNat

/-- Each place hands its carry to the next. -/
inductive Chain (rule : Bool → Place α → Bool → Prop) : Bool → List (Place α) → Bool → Prop
  | done (carry : Bool) : Chain rule carry [] carry
  | place {carry next last : Bool} {place : Place α} {rest : List (Place α)} :
      rule carry place next → Chain rule next rest last → Chain rule carry (place :: rest) last

variable {value base} {carry last : Bool} {places : List (Place α)}

theorem Chain.adds (chain : Chain (Adds value base) carry places last) :
    number value base Place.result places + base ^ places.length * last.toNat =
      number value base Place.first places + number value base Place.second places +
        carry.toNat := by
  induction chain with
  | done carry => simp [number]
  | @place carry next last place rest here _ ih =>
    rw [Adds] at here
    rw [number_cons, number_cons, number_cons, List.length_cons, Nat.pow_succ]
    calc value place.result + base * number value base Place.result rest +
          base ^ rest.length * base * last.toNat
        = value place.result + base * (number value base Place.result rest +
            base ^ rest.length * last.toNat) := by ring
      _ = value place.result + base * next.toNat + base * (number value base Place.first rest +
            number value base Place.second rest) := by rw [ih]; ring
      _ = _ := by rw [here]; ring

theorem Chain.subtracts (chain : Chain (Subtracts value base) carry places last) :
    number value base Place.result places + number value base Place.second places +
        carry.toNat =
      number value base Place.first places + base ^ places.length * last.toNat := by
  induction chain with
  | done carry => simp [number]
  | @place carry next last place rest here _ ih =>
    rw [Subtracts] at here
    rw [number_cons, number_cons, number_cons, List.length_cons, Nat.pow_succ]
    calc value place.result + base * number value base Place.result rest +
          (value place.second + base * number value base Place.second rest) + carry.toNat
        = value place.result + value place.second + carry.toNat +
            base * (number value base Place.result rest +
              number value base Place.second rest) := by ring
      _ = value place.first + base * (number value base Place.result rest +
            number value base Place.second rest + next.toNat) := by rw [here]; ring
      _ = _ := by rw [ih]; ring

end Carry
