import Mathlib.Data.List.Basic

/-! The base64 alphabet of RFC 4648 with padding, and that no two byte strings share a coding. -/
namespace Base64

/-- The character of a value below 64. -/
def sextet (value : Nat) : UInt8 :=
  if value < 26 then (65 + value).toUInt8
  else if value < 52 then (71 + value).toUInt8
  else if value < 62 then (value - 4).toUInt8
  else if value = 62 then 43
  else 47

def padding : UInt8 := 61

def encode : List UInt8 → List UInt8
  | a :: b :: c :: rest =>
    sextet (a.toNat / 4) :: sextet (a.toNat % 4 * 16 + b.toNat / 16) ::
      sextet (b.toNat % 16 * 4 + c.toNat / 64) :: sextet (c.toNat % 64) :: encode rest
  | [a, b] =>
    [sextet (a.toNat / 4), sextet (a.toNat % 4 * 16 + b.toNat / 16), sextet (b.toNat % 16 * 4),
      padding]
  | [a] => [sextet (a.toNat / 4), sextet (a.toNat % 4 * 16), padding, padding]
  | [] => []

/-- The value of a character of the alphabet. -/
def unsextet (character : UInt8) : Nat :=
  if 97 ≤ character then character.toNat - 71
  else if 65 ≤ character then character.toNat - 65
  else if 48 ≤ character then character.toNat + 4
  else if character = 43 then 62
  else 63

theorem unsextet_sextet : ∀ value < 64, unsextet (sextet value) = value := by decide

theorem sextet_visible : ∀ value < 64, 43 ≤ sextet value ∧ sextet value ≠ padding := by decide

theorem sextet_inj {m n : Nat} (left : m < 64) (right : n < 64) (same : sextet m = sextet n) :
    m = n := by
  rw [← unsextet_sextet m left, same, unsextet_sextet n right]

theorem visible_of_mem_encode (input : List UInt8) : ∀ character ∈ encode input, 43 ≤ character := by
  induction input using encode.induct with
  | case1 a b c rest ih =>
    have := a.toNat_lt
    have := b.toNat_lt
    have := c.toNat_lt
    intro character member
    simp only [encode, List.mem_cons] at member
    rcases member with rfl | rfl | rfl | rfl | later
    · exact (sextet_visible _ (by omega)).1
    · exact (sextet_visible _ (by omega)).1
    · exact (sextet_visible _ (by omega)).1
    · exact (sextet_visible _ (by omega)).1
    · exact ih character later
  | case2 a b =>
    have := a.toNat_lt
    have := b.toNat_lt
    intro character member
    simp only [encode, List.mem_cons, List.not_mem_nil, or_false] at member
    rcases member with rfl | rfl | rfl | rfl
    · exact (sextet_visible _ (by omega)).1
    · exact (sextet_visible _ (by omega)).1
    · exact (sextet_visible _ (by omega)).1
    · decide
  | case3 a =>
    have := a.toNat_lt
    intro character member
    simp only [encode, List.mem_cons, List.not_mem_nil, or_false] at member
    rcases member with rfl | rfl | rfl | rfl
    · exact (sextet_visible _ (by omega)).1
    · exact (sextet_visible _ (by omega)).1
    · decide
    · decide
  | case4 =>
    intro character member
    cases member

theorem encode_ne_nil {input : List UInt8} (nonempty : input ≠ []) : encode input ≠ [] := by
  match input with
  | [] => exact absurd rfl nonempty
  | [_] => simp [encode]
  | [_, _] => simp [encode]
  | _ :: _ :: _ :: _ => simp [encode]

/-- The bytes behind one, two and three characters of a quantum. -/
theorem byte_eq {a a' : UInt8} (high : a.toNat / 4 = a'.toNat / 4) (low : a.toNat % 4 = a'.toNat % 4) :
    a = a' := by
  apply UInt8.toNat_inj.mp
  omega

theorem encode_injective : Function.Injective encode := by
  intro input other same
  induction input using encode.induct generalizing other with
  | case1 a b c rest ih =>
    have := a.toNat_lt
    have := b.toNat_lt
    have := c.toNat_lt
    match other with
    | a' :: b' :: c' :: rest' =>
      have := a'.toNat_lt
      have := b'.toNat_lt
      have := c'.toNat_lt
      simp only [encode, List.cons.injEq] at same
      obtain ⟨first, second, third, fourth, tail⟩ := same
      have first := sextet_inj (by omega) (by omega) first
      have second := sextet_inj (by omega) (by omega) second
      have third := sextet_inj (by omega) (by omega) third
      have fourth := sextet_inj (by omega) (by omega) fourth
      rw [ih tail, byte_eq first (by omega), UInt8.toNat_inj.mp (show b.toNat = b'.toNat by omega),
        UInt8.toNat_inj.mp (show c.toNat = c'.toNat by omega)]
    | [_, b'] =>
      simp only [encode, List.cons.injEq] at same
      exact absurd same.2.2.2.1 (sextet_visible _ (by omega)).2
    | [_] =>
      simp only [encode, List.cons.injEq] at same
      exact absurd same.2.2.2.1 (sextet_visible _ (by omega)).2
    | [] => simp [encode] at same
  | case2 a b =>
    have := a.toNat_lt
    have := b.toNat_lt
    match other with
    | _ :: _ :: c' :: _ =>
      have := c'.toNat_lt
      simp only [encode, List.cons.injEq] at same
      exact absurd same.2.2.2.1.symm (sextet_visible _ (by omega)).2
    | [a', b'] =>
      have := a'.toNat_lt
      have := b'.toNat_lt
      simp only [encode, List.cons.injEq, and_true] at same
      obtain ⟨first, second, third⟩ := same
      have first := sextet_inj (by omega) (by omega) first
      have second := sextet_inj (by omega) (by omega) second
      have third := sextet_inj (by omega) (by omega) third
      rw [byte_eq first (by omega), UInt8.toNat_inj.mp (show b.toNat = b'.toNat by omega)]
    | [_] =>
      simp only [encode, List.cons.injEq] at same
      exact absurd same.2.2.1 (sextet_visible _ (by omega)).2
    | [] => simp [encode] at same
  | case3 a =>
    have := a.toNat_lt
    match other with
    | _ :: _ :: c' :: _ =>
      have := c'.toNat_lt
      simp only [encode, List.cons.injEq] at same
      exact absurd same.2.2.2.1.symm (sextet_visible _ (by omega)).2
    | [_, b'] =>
      have := b'.toNat_lt
      simp only [encode, List.cons.injEq] at same
      exact absurd same.2.2.1.symm (sextet_visible _ (by omega)).2
    | [a'] =>
      have := a'.toNat_lt
      simp only [encode, List.cons.injEq, and_true] at same
      have first := sextet_inj (by omega) (by omega) same.1
      have second := sextet_inj (by omega) (by omega) same.2
      rw [byte_eq first (by omega)]
    | [] => simp [encode] at same
  | case4 =>
    match other with
    | [] => rfl
    | [_] => simp [encode] at same
    | [_, _] => simp [encode] at same
    | _ :: _ :: _ :: _ => simp [encode] at same

end Base64
