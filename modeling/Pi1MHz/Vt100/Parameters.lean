import Pi1MHz.Vt100.Termination

/-! The parameters of a control sequence. Two of them are kept, and the selector between them
never moves past the second. -/
namespace Pi1MHz.Vt100

section Decimal

/-- A decimal parameter, most significant digit first. -/
abbrev Parameter := List (Fin 10)

def Parameter.bytes (param : Parameter) : List UInt8 := param.map fun digit => 48 + digit.val.toUInt8

/-- The number written by `param` after the digits of `start`. -/
def valueFrom (start : Nat) (param : Parameter) : Nat :=
  param.foldl (fun value digit => 10 * value + digit.val) start

def Parameter.value (param : Parameter) : Nat := valueFrom 0 param

/-- A number in a byte, 255 for what does not fit. -/
def saturated (value : Nat) : UInt8 := (min value 255).toUInt8

theorem saturated_toNat (value : Nat) : (saturated value).toNat = min value 255 := by
  rw [saturated, Nat.toUInt8_eq, UInt8.toNat_ofNat']
  omega

theorem saturated_inj {a b : Nat} : saturated a = saturated b ↔ min a 255 = min b 255 := by
  rw [← UInt8.toNat_inj, saturated_toNat, saturated_toNat]

theorem add_toNat {a b : UInt8} (fits : ¬256 ≤ a.toNat + b.toNat) :
    (a + b).toNat = a.toNat + b.toNat := by
  rw [UInt8.toNat_add]
  omega

theorem timesTen_toNat (a : UInt8) : (timesTen a).toNat = min (10 * a.toNat) 255 := by
  have top : (255 : UInt8).toNat = 255 := rfl
  simp only [timesTen, carries, decide_eq_true_eq]
  split
  · omega
  rename_i fits
  have two := add_toNat fits
  split
  · omega
  rename_i fits
  have four := add_toNat fits
  split
  · omega
  rename_i fits
  have five := add_toNat fits
  split
  · omega
  rename_i fits
  have ten := add_toNat fits
  omega

/-- The four overflow tests and the last carry saturate exactly. -/
theorem appendDigit_saturated (value : Nat) (digit : Fin 10) :
    appendDigit (saturated value) digit.val.toUInt8 = saturated (10 * value + digit.val) := by
  have ten := timesTen_toNat (saturated value)
  have size := digit.isLt
  have digitNat : digit.val.toUInt8.toNat = digit.val := by
    rw [Nat.toUInt8_eq, UInt8.toNat_ofNat']
    omega
  rw [saturated_toNat] at ten
  rw [← UInt8.toNat_inj, saturated_toNat, appendDigit]
  simp only [carries, decide_eq_true_eq, digitNat, ten]
  split
  · rw [show (255 : UInt8).toNat = 255 from rfl]
    omega
  · rw [UInt8.toNat_add, digitNat, ten]
    omega

theorem valueFrom_append (start : Nat) (first second : Parameter) :
    valueFrom start (first ++ second) = valueFrom (valueFrom start first) second :=
  List.foldl_append

theorem valueFrom_zero (param : Parameter) : valueFrom 0 param = 0 ↔ ∀ digit ∈ param, digit = 0 := by
  suffices general : ∀ start, valueFrom start param = 0 ↔ start = 0 ∧ ∀ digit ∈ param, digit = 0 by
    simpa using general 0
  induction param with
  | nil => simp [valueFrom]
  | cons digit rest ih =>
    intro start
    have here : 10 * start + digit.val = 0 ↔ start = 0 ∧ digit = 0 := by
      rw [Fin.ext_iff, Fin.val_zero]
      omega
    change valueFrom (10 * start + digit.val) rest = 0 ↔ _
    rw [ih, here, List.forall_mem_cons, and_assoc]

theorem le_valueFrom (start : Nat) (param : Parameter) : start ≤ valueFrom start param := by
  induction param generalizing start with
  | nil => exact Nat.le_refl start
  | cons digit rest ih =>
    have more := ih (10 * start + digit.val)
    change start ≤ valueFrom (10 * start + digit.val) rest
    omega

/-- More digits leave a saturated number as it is only when it is full or they are zeros on zero. -/
theorem saturated_valueFrom (start : Nat) (param : Parameter) :
    saturated (valueFrom start param) = saturated start ↔
      param = [] ∨ 255 ≤ start ∨ (start = 0 ∧ ∀ digit ∈ param, digit = 0) := by
  rw [saturated_inj]
  cases param with
  | nil => simp [valueFrom]
  | cons digit rest =>
    have more := le_valueFrom (10 * start + digit.val) rest
    have grown : valueFrom start (digit :: rest) = valueFrom (10 * start + digit.val) rest := rfl
    rcases Nat.eq_zero_or_pos start with zero | positive
    · subst zero
      rw [← valueFrom_zero]
      simp only [reduceCtorEq, false_or, true_and]
      omega
    · simp only [reduceCtorEq, false_or, grown]
      omega

end Decimal

section Sequence

variable (fuel : Nat) (mos : Mos)

/-- The bytes of a stream in turn. -/
def feed (s : Terminal) : List UInt8 → Option Terminal
  | [] => some s
  | byte :: rest => (process fuel mos s byte).bind fun s => feed s rest

/-- ESC [ and the parameters with `;` between them. -/
def csiSequence (params : List Parameter) : List UInt8 :=
  27 :: 91 :: List.intercalate [59] (params.map Parameter.bytes)

/-- The first two parameters, 0 where there is none. -/
structure Parsed (params : List Parameter) (s : Terminal) : Prop where
  param1 : s.param1 = saturated (params.getD 0 []).value
  param2 : s.param2 = saturated (params.getD 1 []).value

/-- What follows the second parameter cannot be seen in it: no digits follow, or it is full, or it
is zero and only zeros follow. -/
def SecondStands (params : List Parameter) : Prop :=
  (params.drop 2).flatten = [] ∨ 255 ≤ (params.getD 1 []).value ∨
    ((params.getD 1 []).value = 0 ∧ ∀ digit ∈ (params.drop 2).flatten, digit = 0)

variable {fuel : Nat} {mos : Mos} {s : Terminal}

theorem feed_append (first second : List UInt8) :
    feed fuel mos s (first ++ second) = (feed fuel mos s first).bind fun s => feed fuel mos s second := by
  induction first generalizing s with
  | nil => rfl
  | cons byte rest ih =>
    rw [List.cons_append, feed, feed]
    cases process fuel mos s byte with
    | none => rfl
    | some after => exact ih

theorem process_digit (inside : s.state = .csi) (digit : Fin 10) :
    process fuel mos s (48 + digit.val.toUInt8) = some (csiDigit s digit.val.toUInt8) := by
  have size := digit.isLt
  have byte : (48 + digit.val.toUInt8).toNat = 48 + digit.val := by
    rw [UInt8.toNat_add, Nat.toUInt8_eq, UInt8.toNat_ofNat', show (48 : UInt8).toNat = 48 from rfl]
    omega
  simp only [process, inside, csi, UInt8.le_iff_toNat_le, UInt8.lt_iff_toNat_lt, ← UInt8.toNat_inj, byte,
    UInt8.toNat_ofNat]
  rw [if_neg (by omega), if_neg (by omega), if_neg (by omega), if_pos (by omega), UInt8.add_comm, UInt8.add_sub_cancel]

theorem process_separator (inside : s.state = .csi) :
    process fuel mos s 59 = some { s with paramSelect := 1 } := by
  simp only [process, inside, csi]
  rfl

/-- The digits of the first parameter. -/
theorem feed_first {value : Nat} (inside : s.state = .csi) (first : s.paramSelect = 0)
    (param1 : s.param1 = saturated value) (param : Parameter) :
    feed fuel mos s param.bytes = some { s with param1 := saturated (valueFrom value param) } := by
  induction param generalizing s value with
  | nil =>
    change some s = some { s with param1 := saturated value }
    rw [← param1]
  | cons digit rest ih =>
    have next : csiDigit s digit.val.toUInt8 =
        { s with param1 := saturated (10 * value + digit.val) } := by
      rw [csiDigit, if_pos first, param1, appendDigit_saturated]
    change feed fuel mos s ((48 + digit.val.toUInt8) :: Parameter.bytes rest) = _
    rw [feed, process_digit inside, next, Option.bind_some]
    exact ih inside first rfl

/-- The digits of every later one go to the second. -/
theorem feed_later {value : Nat} (inside : s.state = .csi) (later : s.paramSelect ≠ 0)
    (param2 : s.param2 = saturated value) (param : Parameter) :
    feed fuel mos s param.bytes = some { s with param2 := saturated (valueFrom value param) } := by
  induction param generalizing s value with
  | nil =>
    change some s = some { s with param2 := saturated value }
    rw [← param2]
  | cons digit rest ih =>
    have next : csiDigit s digit.val.toUInt8 =
        { s with param2 := saturated (10 * value + digit.val) } := by
      rw [csiDigit, if_neg later, param2, appendDigit_saturated]
    change feed fuel mos s ((48 + digit.val.toUInt8) :: Parameter.bytes rest) = _
    rw [feed, process_digit inside, next, Option.bind_some]
    exact ih inside later rfl

theorem feed_separated {value : Nat} (inside : s.state = .csi) (param2 : s.param2 = saturated value)
    (params : List Parameter) :
    feed fuel mos s (params.flatMap fun param => 59 :: param.bytes) =
      some { s with
        paramSelect := if params = [] then s.paramSelect else 1
        param2 := saturated (valueFrom value params.flatten) } := by
  induction params generalizing s value with
  | nil =>
    change some s = some { s with paramSelect := s.paramSelect, param2 := saturated value }
    rw [← param2]
  | cons param rest ih =>
    have digits := @feed_later fuel mos { s with paramSelect := 1 } value inside (by simp) param2 param
    have others := @ih { s with
      paramSelect := 1, param2 := saturated (valueFrom value param) } (valueFrom value param) inside rfl
    rw [List.flatMap_cons, List.cons_append, feed, process_separator inside, Option.bind_some, feed_append,
      digits, Option.bind_some, others, List.flatten_cons, valueFrom_append,
      if_neg (List.cons_ne_nil _ _), ite_self]

theorem intercalate_cons (param : List UInt8) (rest : List (List UInt8)) :
    List.intercalate [59] (param :: rest) = param ++ rest.flatMap fun param => 59 :: param := by
  induction rest generalizing param with
  | nil => simp [List.intercalate]
  | cons next rest ih =>
    have joined : List.intercalate [59] (param :: next :: rest) =
        param ++ [59] ++ List.intercalate [59] (next :: rest) := by
      simp [List.intercalate]
    rw [joined, ih, List.flatMap_cons]
    simp

/-- The digits of all parameters but the first make one number. -/
theorem feed_csiSequence (ground : s.state = .ground) (params : List Parameter) :
    feed fuel mos s (csiSequence params) = some { s with
      state := .csi, privateMarker := 0
      param1 := saturated (params.getD 0 []).value
      param2 := saturated (valueFrom 0 (params.drop 1).flatten)
      paramSelect := if params.drop 1 = [] then 0 else 1 } := by
  have entered : feed fuel mos s (csiSequence params) =
      feed fuel mos (enterCsi s) (List.intercalate [59] (params.map Parameter.bytes)) := by
    simp only [csiSequence, feed, process, ground]
    rfl
  rw [entered]
  cases params with
  | nil => rfl
  | cons first rest =>
    have digits := @feed_first fuel mos (enterCsi s) 0 rfl rfl rfl first
    have others := @feed_separated fuel mos { enterCsi s with param1 := saturated (valueFrom 0 first) } 0
      rfl rfl rest
    rw [List.map_cons, intercalate_cons, List.flatMap_map, feed_append, digits, Option.bind_some]
    exact others

end Sequence

/-- Every sequence is dispatched with its first parameter, and with its second exactly when
nothing that follows shows in it. -/
theorem csiSequence_parsed_iff {s : Terminal} {final : UInt8} (fuel : Nat) (mos : Mos)
    (params : List Parameter) (ground : s.state = .ground) (high : 64 ≤ final) :
    ∃ parsed, feed fuel mos s (csiSequence params) = some parsed ∧
      process fuel mos parsed final = csiFinal fuel mos parsed final ∧
      parsed.param1 = saturated (params.getD 0 []).value ∧
      (Parsed params parsed ↔ SecondStands params) := by
  refine ⟨_, feed_csiSequence ground params, ?_, rfl, ?_⟩
  · have large := UInt8.le_iff_toNat_le.mp high
    have bytes : (60 : UInt8).toNat = 60 ∧ (64 : UInt8).toNat = 64 ∧ (32 : UInt8).toNat = 32 ∧
        (48 : UInt8).toNat = 48 ∧ (59 : UInt8).toNat = 59 ∧ (58 : UInt8).toNat = 58 := by decide
    simp only [process, csi, UInt8.le_iff_toNat_le, UInt8.lt_iff_toNat_lt, ← UInt8.toNat_inj]
    rw [if_neg (by omega), if_neg (by omega), if_neg (by omega), if_neg (by omega)]
  · have split : (params.drop 1).flatten = params.getD 1 [] ++ (params.drop 2).flatten := by
      match params with
      | [] => rfl
      | [_] => rfl
      | _ :: second :: rest => rfl
    have shown := saturated_valueFrom (params.getD 1 []).value (params.drop 2).flatten
    have joined : valueFrom (params.getD 1 []).value (params.drop 2).flatten =
        valueFrom 0 (params.drop 1).flatten := by
      rw [split, valueFrom_append]
      rfl
    rw [SecondStands, ← shown, joined]
    exact ⟨fun parsed => parsed.param2, fun second => ⟨rfl, second⟩⟩

/-- A reset, inverse video and bold. -/
def attributes : List Parameter := [[0], [7], [1]]

/-- Bold makes a 71 of the 7. -/
theorem attributes_not_parsed :
    ¬ ∀ (fuel : Nat) (mos : Mos) (s : Terminal) (params : List Parameter) (final : UInt8),
      s.state = .ground → 64 ≤ final →
      ∃ parsed, feed fuel mos s (csiSequence params) = some parsed ∧
        process fuel mos parsed final = csiFinal fuel mos parsed final ∧ Parsed params parsed := by
  intro independent
  obtain ⟨parsed, fed, -, -, param2⟩ :=
    independent 0 homed (init mode4 loaded) attributes 109 rfl (by decide)
  rw [feed_csiSequence rfl] at fed
  cases fed
  exact absurd param2 (by decide)

/-- A second parameter that is full, with a third behind it. -/
theorem colour_parsed :
    ∃ parsed, feed 0 homed (init mode4 loaded) (csiSequence [[3, 1], [2, 5, 6], [7]]) = some parsed ∧
      process 0 homed parsed 109 = csiFinal 0 homed parsed 109 ∧
      Parsed [[3, 1], [2, 5, 6], [7]] parsed := by
  obtain ⟨parsed, fed, dispatched, -, stands⟩ :=
    @csiSequence_parsed_iff (init mode4 loaded) 109 0 homed [[3, 1], [2, 5, 6], [7]] rfl (by decide)
  exact ⟨parsed, fed, dispatched, stands.mpr (.inr (.inl (by decide)))⟩

end Pi1MHz.Vt100
