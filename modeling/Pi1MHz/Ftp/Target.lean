import Mathlib.Data.List.Induction
import Pi1MHz.Ftp.Passive

/-! Targets of `OPEN`, as the two clients read them. They split a target alike; the text of its
port is read by a digit loop here and by `strtoul` there. -/
namespace Pi1MHz.FtpService
open Http (decimal sizeMax)
open Wolfssh (isSpace)
open FtpEmulator (parseTarget strtoul)

section Split
variable {url : List UInt8} {capacity : Nat}

/-- A target behind its scheme. -/
def targetStart (url : List UInt8) : List UInt8 :=
  if (url.take 6).map lower = ascii "ftp://" then url.drop 6 else url

def targetAuthority (url : List UInt8) : List UInt8 := (targetStart url).takeWhile (· ≠ 47)

def targetPath (url : List UInt8) : List UInt8 := (targetStart url).dropWhile (· ≠ 47)

def portText (authority : List UInt8) : List UInt8 := (authority.reverse.takeWhile (· ≠ 58)).reverse

def hostText (authority : List UInt8) : List UInt8 :=
  authority.take (authority.length - (portText authority).length - 1)

/-- A target split by a reader of ports, which is given the port and what follows it. -/
def splitTarget (url : List UInt8) (capacity : Nat)
    (readPort : List UInt8 → List UInt8 → Option Nat) : Option (List UInt8 × Nat) :=
  let authority := targetAuthority url
  if authority.any (fun byte => byte < 0x21 || byte == 64) then none
  else
    let target :=
      if 58 ∈ authority then
        (readPort (portText authority) (targetPath url)).map fun port => (hostText authority, port)
      else some (authority, 21)
    target.filter fun found => 0 < found.1.length && found.1.length < capacity

/-- The authority names a port, and everything before the port is in order. -/
structure HostInOrder (authority : List UInt8) (capacity : Nat) : Prop where
  visible : authority.any (fun byte => byte < 0x21 || byte == 64) = false
  colon : 58 ∈ authority
  fits : 0 < (hostText authority).length ∧ (hostText authority).length < capacity

/-- The digit loop of `ftp_parse_url`. -/
def digitPort (number : List UInt8) : Option Nat :=
  if number = [] ∨ number.any (fun byte => !isDigit byte) then none
  else (scanNumber 65535 0 number).map Prod.fst

/-- The use of `strtoul` in `parse_target`. -/
def strtoulPort (number path : List UInt8) : Option Nat :=
  let read := strtoul (number ++ path)
  if read.range ∨ read.tail.length ≠ path.length ∨ read.value = 0 ∨ 65535 < read.value then none
  else some read.value

theorem ftpParseUrl_split :
    ftpParseUrl url capacity = splitTarget url capacity fun number _ => digitPort number := by
  have host : ∀ number (host : List UInt8),
      (digitPort number).map (fun port => (host, port)) =
        if number = [] ∨ number.any (fun byte => !isDigit byte) then none
        else (scanNumber 65535 0 number).map fun read => (host, read.1) := by
    intro number host
    rw [digitPort, apply_ite (Option.map _), Option.map_map]
    rfl
  simp only [splitTarget, host]
  rfl

theorem parseTarget_split : parseTarget url capacity = splitTarget url capacity strtoulPort := by
  simp only [splitTarget, strtoulPort, apply_ite (Option.map _)]
  rfl

theorem splitTarget_inOrder (ready : HostInOrder (targetAuthority url) capacity)
    (readPort : List UInt8 → List UInt8 → Option Nat) :
    splitTarget url capacity readPort =
      (readPort (portText (targetAuthority url)) (targetPath url)).map
        fun port => (hostText (targetAuthority url), port) := by
  simp only [splitTarget, ready.visible, Bool.false_eq_true, if_false, if_pos ready.colon]
  cases readPort (portText (targetAuthority url)) (targetPath url) with
  | none => rfl
  | some port => simp [ready.fits]

/-- A target that is not in order is refused without its port, or has none. -/
theorem splitTarget_other (other : ¬HostInOrder (targetAuthority url) capacity)
    (readPort : List UInt8 → List UInt8 → Option Nat) :
    splitTarget url capacity readPort =
      if 58 ∈ targetAuthority url then none else splitTarget url capacity fun _ _ => none := by
  by_cases colon : 58 ∈ targetAuthority url
  · rw [if_pos colon]
    by_contra accepted
    obtain ⟨⟨host, port⟩, found⟩ := Option.ne_none_iff_exists'.mp accepted
    simp only [splitTarget, if_pos colon] at found
    split at found
    · cases found
    next visible =>
      obtain ⟨read, fits⟩ := Option.filter_eq_some_iff.mp found
      obtain ⟨port, -, same⟩ := Option.map_eq_some_iff.mp read
      cases same
      exact other ⟨by simpa using visible, colon, by simpa using fits⟩
  · simp only [if_neg colon, splitTarget]

end Split

section Ports
variable {number path : List UInt8} {port : Nat}

theorem digitPort_eq_some_iff :
    digitPort number = some port ↔
      number ≠ [] ∧ (∀ byte ∈ number, isDigit byte = true) ∧ decimal number = port ∧ port ≤ 65535 := by
  rw [digitPort]
  split
  next refused =>
    constructor
    · intro found
      cases found
    · rintro ⟨nonempty, all, -⟩
      rcases refused with empty | other
      · exact absurd empty nonempty
      · obtain ⟨byte, member, odd⟩ := List.any_eq_true.mp other
        rw [all byte member] at odd
        cases odd
  next accepted =>
    simp only [not_or, Bool.not_eq_true, List.any_eq_false, Bool.not_eq_true', Bool.not_eq_false] at accepted
    obtain ⟨nonempty, all⟩ := accepted
    constructor
    · intro found
      obtain ⟨⟨value, rest⟩, read, rfl⟩ := Option.map_eq_some_iff.mp found
      obtain ⟨digits, split, -, ended, value, within⟩ := scanNumber_some read
      have whole : rest = [] := by
        cases rest with
        | nil => rfl
        | cons byte rest =>
          have digit := all byte (by rw [split]; simp)
          simp [Ended, digit] at ended
      rw [whole, List.append_nil] at split
      rw [split]
      exact ⟨split ▸ nonempty, split ▸ all, value.symm, within (Nat.zero_le _)⟩
    · rintro ⟨-, -, rfl, small⟩
      have read := @scanNumber_digits 65535 0 number [] all rfl small
      rw [List.append_nil] at read
      rw [read]
      rfl

/-- Digits end where the word does, or before. -/
theorem takeWhile_word (ended : Ended path) (word : List UInt8) :
    (word ++ path).takeWhile isDigit = word.takeWhile isDigit ∧
      (word ++ path).dropWhile isDigit = word.dropWhile isDigit ++ path := by
  induction word with
  | nil =>
    cases path with
    | nil => exact ⟨rfl, rfl⟩
    | cons byte path =>
      have other : isDigit byte = false := ended
      simp [other]
  | cons byte word ih =>
    cases digit : isDigit byte <;> simp [digit, ih]

/-- What `strtoul` makes of a word behind its sign. -/
def signedValue (negative : Bool) (value : Nat) : Nat :=
  if negative then (2 ^ 64 - value) % 2 ^ 64 else value

/-- A word behind the sign is read as a port when it is all digits and its value is one. -/
theorem strtoulPort_word {negative : Bool} {word : List UInt8} (ended : Ended path)
    (visible : (number ++ path).dropWhile isSpace = number ++ path)
    (minus : (number ++ path).head? = some 45 ↔ negative = true)
    (behind : (if negative = true ∨ (number ++ path).head? = some 43 then (number ++ path).tail
      else number ++ path) = word ++ path) :
    strtoulPort number path = some port ↔
      word ≠ [] ∧ (∀ byte ∈ word, isDigit byte = true) ∧ decimal word ≤ sizeMax ∧
        signedValue negative (decimal word) = port ∧ 1 ≤ port ∧ port ≤ 65535 := by
  obtain ⟨taken, dropped⟩ := takeWhile_word ended word
  have read : strtoul (number ++ path) =
      if word.takeWhile isDigit = [] then ⟨0, number ++ path, false⟩
      else if sizeMax < decimal (word.takeWhile isDigit) then ⟨sizeMax, word.dropWhile isDigit ++ path, true⟩
      else ⟨signedValue negative (decimal (word.takeWhile isDigit)), word.dropWhile isDigit ++ path, false⟩ := by
    rw [strtoul]
    simp only [visible, minus, behind, taken, dropped, signedValue]
  rw [strtoulPort, read]
  by_cases all : ∀ byte ∈ word, isDigit byte = true
  · have own : word.takeWhile isDigit = word := List.takeWhile_eq_self_iff.mpr all
    have rest : word.dropWhile isDigit = [] := List.dropWhile_eq_nil_iff.mpr all
    rw [own, rest]
    by_cases empty : word = []
    · simp [empty]
    by_cases large : sizeMax < decimal word
    · simp [empty, large, Nat.not_le.mpr large]
    simp only [if_neg empty, if_neg large, List.nil_append, Bool.false_eq_true, ne_eq, not_true_eq_false,
      false_or]
    constructor
    · intro found
      split at found
      · cases found
      · cases found
        exact ⟨empty, all, by omega, rfl, by omega, by omega⟩
    · rintro ⟨-, -, -, same, low, high⟩
      rw [if_neg (by omega), same]
  · have tail : word.dropWhile isDigit ≠ [] := fun nothing => all (List.dropWhile_eq_nil_iff.mp nothing)
    have longer : 0 < (word.dropWhile isDigit).length := List.length_pos_of_ne_nil tail
    constructor
    · intro found
      exfalso
      by_cases nothing : word.takeWhile isDigit = []
      · simp [nothing] at found
      by_cases large : sizeMax < decimal (word.takeWhile isDigit)
      · simp [nothing, large] at found
      · simp [nothing, large, tail] at found
    · rintro ⟨-, digits, -⟩
      exact absurd digits all

/-- What stands behind the authority: nothing, or a slash. -/
theorem ended_path (slash : path = [] ∨ path.head? = some 47) : Ended path := by
  rcases slash with rfl | first
  · rfl
  · rw [Ended, first]
    rfl

theorem dropWhile_visible (visible : ∀ byte ∈ number, isSpace byte = false)
    (slash : path = [] ∨ path.head? = some 47) :
    (number ++ path).dropWhile isSpace = number ++ path := by
  cases number with
  | nil =>
    rcases slash with rfl | first
    · rfl
    · obtain ⟨rest, rfl⟩ := List.head?_eq_some_iff.mp first
      rfl
  | cons byte more => exact List.dropWhile_cons_of_neg (by simp [visible byte (by simp)])

section Signs
variable {word : List UInt8}

theorem strtoulPort_minus (visible : ∀ byte ∈ 45 :: word, isSpace byte = false)
    (slash : path = [] ∨ path.head? = some 47) :
    strtoulPort (45 :: word) path = some port ↔ 1 ≤ port ∧ port ≤ 65535 ∧
      (∀ byte ∈ word, isDigit byte = true) ∧ decimal word + port = 2 ^ 64 := by
  have zero : decimal [] = 0 := rfl
  have max : sizeMax = 2 ^ 64 - 1 := rfl
  rw [@strtoulPort_word _ _ port true word (ended_path slash) (dropWhile_visible visible slash)
    (by simp) (by simp)]
  simp only [signedValue, if_true]
  constructor
  · rintro ⟨nonempty, all, small, same, low, high⟩
    exact ⟨low, high, all, by omega⟩
  · rintro ⟨low, high, all, value⟩
    refine ⟨?_, all, by omega, by omega, low, high⟩
    rintro rfl
    omega

/-- Without a minus sign the digits are the port, and they are there when it is not zero. -/
theorem positive_iff : (word ≠ [] ∧ (∀ byte ∈ word, isDigit byte = true) ∧ decimal word ≤ sizeMax ∧
      signedValue false (decimal word) = port ∧ 1 ≤ port ∧ port ≤ 65535) ↔
    1 ≤ port ∧ port ≤ 65535 ∧ (∀ byte ∈ word, isDigit byte = true) ∧ decimal word = port := by
  have zero : decimal [] = 0 := rfl
  have max : sizeMax = 2 ^ 64 - 1 := rfl
  constructor
  · rintro ⟨nonempty, all, small, same, low, high⟩
    exact ⟨low, high, all, same⟩
  · rintro ⟨low, high, all, value⟩
    refine ⟨?_, all, by omega, value, low, high⟩
    rintro rfl
    omega

theorem strtoulPort_plus (visible : ∀ byte ∈ 43 :: word, isSpace byte = false)
    (slash : path = [] ∨ path.head? = some 47) :
    strtoulPort (43 :: word) path = some port ↔ 1 ≤ port ∧ port ≤ 65535 ∧
      (∀ byte ∈ word, isDigit byte = true) ∧ decimal word = port := by
  rw [@strtoulPort_word _ _ port false word (ended_path slash) (dropWhile_visible visible slash)
    (by simp) (by simp), positive_iff]

theorem strtoulPort_unsigned (visible : ∀ byte ∈ number, isSpace byte = false)
    (slash : path = [] ∨ path.head? = some 47) (noMinus : number.head? ≠ some 45)
    (noPlus : number.head? ≠ some 43) :
    strtoulPort number path = some port ↔ 1 ≤ port ∧ port ≤ 65535 ∧
      (∀ byte ∈ number, isDigit byte = true) ∧ decimal number = port := by
  have unsigned : ∀ sign : UInt8, sign ≠ 47 → number.head? ≠ some sign →
      (number ++ path).head? ≠ some sign := by
    intro sign other apart
    cases number with
    | nil =>
      rcases slash with rfl | first
      · exact apart
      · rw [List.nil_append, first]
        simpa using other.symm
    | cons byte more => exact apart
  have minus := unsigned 45 (by decide) noMinus
  have plus := unsigned 43 (by decide) noPlus
  rw [@strtoulPort_word _ _ port false number (ended_path slash) (dropWhile_visible visible slash)
    (iff_of_false minus (by decide)) (if_neg (not_or.mpr ⟨by decide, plus⟩)), positive_iff]

end Signs

/-- `strtoul` reads a sign too, and a negative number modulo `2 ^ 64`. -/
theorem strtoulPort_eq_some_iff (visible : ∀ byte ∈ number, isSpace byte = false)
    (slash : path = [] ∨ path.head? = some 47) :
    strtoulPort number path = some port ↔ 1 ≤ port ∧ port ≤ 65535 ∧
      ∃ digits, (∀ byte ∈ digits, isDigit byte = true) ∧
        (number = digits ∧ decimal digits = port ∨ number = 43 :: digits ∧ decimal digits = port ∨
          number = 45 :: digits ∧ decimal digits + port = 2 ^ 64) := by
  -- A sign is the first byte, and it is not a digit.
  by_cases minus : number.head? = some 45
  · obtain ⟨word, rfl⟩ := List.head?_eq_some_iff.mp minus
    rw [strtoulPort_minus visible slash]
    constructor
    · rintro ⟨low, high, all, value⟩
      exact ⟨low, high, word, all, .inr (.inr ⟨rfl, value⟩)⟩
    · rintro ⟨low, high, digits, all, ⟨rfl, value⟩ | ⟨other, value⟩ | ⟨same, value⟩⟩
      · exact absurd (all 45 (by simp)) (by decide)
      · exact absurd (List.cons.inj other).1 (by decide)
      · obtain rfl := (List.cons.inj same).2
        exact ⟨low, high, all, value⟩
  by_cases plus : number.head? = some 43
  · obtain ⟨word, rfl⟩ := List.head?_eq_some_iff.mp plus
    rw [strtoulPort_plus visible slash]
    constructor
    · rintro ⟨low, high, all, value⟩
      exact ⟨low, high, word, all, .inr (.inl ⟨rfl, value⟩)⟩
    · rintro ⟨low, high, digits, all, ⟨rfl, value⟩ | ⟨same, value⟩ | ⟨other, value⟩⟩
      · exact absurd (all 43 (by simp)) (by decide)
      · obtain rfl := (List.cons.inj same).2
        exact ⟨low, high, all, value⟩
      · exact absurd (List.cons.inj other).1 (by decide)
  · rw [strtoulPort_unsigned visible slash minus plus]
    constructor
    · rintro ⟨low, high, all, value⟩
      exact ⟨low, high, number, all, .inl ⟨rfl, value⟩⟩
    · rintro ⟨low, high, digits, all, ⟨rfl, value⟩ | ⟨rfl, value⟩ | ⟨rfl, value⟩⟩
      · exact ⟨low, high, all, value⟩
      · exact absurd rfl plus
      · exact absurd rfl minus

/-- One zero or more. -/
def ZeroPort (number : List UInt8) : Prop := number ≠ [] ∧ ∀ byte ∈ number, byte = 48

/-- A sign and digits that are a port together, a negative number modulo `2 ^ 64`. -/
def SignedPort (number : List UInt8) : Prop :=
  ∃ digits, (∀ byte ∈ digits, isDigit byte = true) ∧
    (number = 43 :: digits ∧ 1 ≤ decimal digits ∧ decimal digits ≤ 65535 ∨
      number = 45 :: digits ∧ 2 ^ 64 - 65535 ≤ decimal digits ∧ decimal digits < 2 ^ 64)

theorem decimal_eq_zero_iff (all : ∀ byte ∈ number, isDigit byte = true) :
    decimal number = 0 ↔ ∀ byte ∈ number, byte = 48 := by
  induction number using List.reverseRecOn with
  | nil => simp [decimal]
  | append_singleton front last ih =>
    have digit := all last (by simp)
    have value : decimal (front ++ [last]) = decimal front * 10 + digitValue last := by
      simp [decimal, List.foldl_append]
    have zero : digitValue last = 0 ↔ last = 48 := by
      simp only [isDigit, Bool.and_eq_true, decide_eq_true_eq, UInt8.le_iff_toNat_le] at digit
      rw [← UInt8.toNat_inj, digitValue]
      have low : 48 ≤ last.toNat := digit.1
      have own : (48 : UInt8).toNat = 48 := rfl
      omega
    rw [value, List.forall_mem_append, ← ih fun byte member => all byte (by simp [member])]
    simp only [List.mem_singleton, forall_eq, ← zero]
    omega

/-- The two readers of ports agree on all but zeros and signed numbers. -/
theorem ports_agree_iff (visible : ∀ byte ∈ number, isSpace byte = false)
    (slash : path = [] ∨ path.head? = some 47) :
    (digitPort number = strtoulPort number path ∧
      ∀ port, digitPort number = some port → 1 ≤ port ∧ port ≤ 65535) ↔
    ¬ZeroPort number ∧ ¬SignedPort number := by
  constructor
  · rintro ⟨same, range⟩
    refine ⟨?_, ?_⟩
    · rintro ⟨nonempty, zeros⟩
      have all : ∀ byte ∈ number, isDigit byte = true := by
        intro byte member
        rw [zeros byte member]
        rfl
      have read : digitPort number = .some 0 :=
        digitPort_eq_some_iff.mpr ⟨nonempty, all, (decimal_eq_zero_iff all).mpr zeros, by decide⟩
      exact absurd (range 0 read).1 (by decide)
    · rintro ⟨digits, all, signed⟩
      obtain ⟨port, read⟩ : ∃ port, strtoulPort number path = some port := by
        rcases signed with ⟨split, low, high⟩ | ⟨split, low, high⟩
        · exact ⟨decimal digits, (strtoulPort_eq_some_iff visible slash).mpr
            ⟨low, high, digits, all, .inr (.inl ⟨split, rfl⟩)⟩⟩
        · exact ⟨2 ^ 64 - decimal digits, (strtoulPort_eq_some_iff visible slash).mpr
            ⟨by omega, by omega, digits, all, .inr (.inr ⟨split, by omega⟩)⟩⟩
      obtain ⟨-, digit, -⟩ := digitPort_eq_some_iff.mp (same.trans read)
      rcases signed with ⟨rfl, -⟩ | ⟨rfl, -⟩
      · exact absurd (digit 43 (by simp)) (by decide)
      · exact absurd (digit 45 (by simp)) (by decide)
  · rintro ⟨zero, signed⟩
    have range : ∀ port, digitPort number = some port → 1 ≤ port ∧ port ≤ 65535 := by
      intro port read
      obtain ⟨nonempty, all, rfl, high⟩ := digitPort_eq_some_iff.mp read
      refine ⟨Nat.one_le_iff_ne_zero.mpr fun nothing => ?_, high⟩
      exact zero ⟨nonempty, (decimal_eq_zero_iff all).mp nothing⟩
    refine ⟨Option.ext fun port => ?_, range⟩
    constructor
    · intro read
      obtain ⟨nonempty, all, value, high⟩ := digitPort_eq_some_iff.mp read
      exact (strtoulPort_eq_some_iff visible slash).mpr
        ⟨(range port read).1, high, number, all, .inl ⟨rfl, value⟩⟩
    · intro read
      obtain ⟨low, high, digits, all, ⟨rfl, value⟩ | ⟨split, value⟩ | ⟨split, value⟩⟩ :=
        (strtoulPort_eq_some_iff visible slash).mp read
      · refine digitPort_eq_some_iff.mpr ⟨?_, all, value, high⟩
        rintro rfl
        exact absurd (show port = 0 from value.symm) (by omega)
      · exact absurd ⟨digits, all, .inl ⟨split, by omega, by omega⟩⟩ signed
      · exact absurd ⟨digits, all, .inr ⟨split, by omega, by omega⟩⟩ signed

end Ports

section Agreement
variable {url : List UInt8} {capacity : Nat}

/-- Both clients accept the target with one host and port, and the port exists, or both refuse. -/
def TargetsAgree (url : List UInt8) (capacity : Nat) : Prop :=
  ftpParseUrl url capacity = parseTarget url capacity ∧
    ∀ host port, ftpParseUrl url capacity = some (host, port) → 1 ≤ port ∧ port ≤ 65535

theorem portText_subset (authority : List UInt8) : ∀ byte ∈ portText authority, byte ∈ authority := by
  intro byte member
  exact List.mem_reverse.mp ((List.takeWhile_sublist _).mem (List.mem_reverse.mp member))

theorem targetPath_head : targetPath url = [] ∨ (targetPath url).head? = some 47 := by
  cases path : targetPath url with
  | nil => exact .inl rfl
  | cons byte rest =>
    refine .inr ?_
    rw [targetPath] at path
    have first := @List.head_dropWhile_not _ (· ≠ (47 : UInt8)) (targetStart url) (by rw [path]; simp)
    simp only [path, List.head_cons, decide_eq_false_iff_not, not_not] at first
    rw [first]
    rfl

/-- The clients agree on a target unless its port is written as zeros or with a sign that only
`strtoul` takes. -/
theorem targets_agree_iff (url : List UInt8) (capacity : Nat) :
    TargetsAgree url capacity ↔
      (HostInOrder (targetAuthority url) capacity →
        ¬ZeroPort (portText (targetAuthority url)) ∧ ¬SignedPort (portText (targetAuthority url))) := by
  by_cases ready : HostInOrder (targetAuthority url) capacity
  · have visible : ∀ byte ∈ portText (targetAuthority url), isSpace byte = false := by
      intro byte member
      have seen := List.any_eq_false.mp ready.visible byte (portText_subset _ byte member)
      simp only [isSpace, Bool.or_eq_true, decide_eq_true_eq, not_or, Bool.or_eq_false_iff,
        Bool.and_eq_false_iff, decide_eq_false_iff_not, UInt8.lt_iff_toNat_lt, UInt8.le_iff_toNat_le,
        ← UInt8.toNat_inj] at seen ⊢
      have sizes : (0x21 : UInt8).toNat = 33 ∧ (32 : UInt8).toNat = 32 ∧ (13 : UInt8).toNat = 13 := by
        decide
      omega
    rw [TargetsAgree, ftpParseUrl_split, parseTarget_split, splitTarget_inOrder ready,
      splitTarget_inOrder ready, forall_prop_of_true ready,
      ← ports_agree_iff visible (@targetPath_head url)]
    constructor
    · rintro ⟨same, range⟩
      refine ⟨?_, ?_⟩
      · have inj : Function.Injective fun port : Nat => (hostText (targetAuthority url), port) := by
          intro a b equal
          exact (Prod.mk.inj equal).2
        exact Option.map_injective inj same
      · intro port read
        exact range _ port (by rw [read]; rfl)
    · rintro ⟨same, range⟩
      refine ⟨by rw [same], ?_⟩
      intro host port read
      obtain ⟨port, number, equal⟩ := Option.map_eq_some_iff.mp read
      cases equal
      exact range port number
  · refine iff_of_true ⟨?_, ?_⟩ fun other => absurd other ready
    · rw [ftpParseUrl_split, parseTarget_split, splitTarget_other ready, splitTarget_other ready strtoulPort]
    · intro host port read
      rw [ftpParseUrl_split, splitTarget_other ready] at read
      split at read
      · cases read
      next colon =>
        simp only [splitTarget, if_neg colon] at read
        split at read
        · cases read
        · obtain ⟨same, -⟩ := Option.filter_eq_some_iff.mp read
          cases same
          decide

/-- Port zero is accepted here and refused there. -/
theorem port_zero_disagrees : ¬∀ url capacity, TargetsAgree url capacity := by
  intro agree
  have zero := (agree (ascii "ftp://host:0/") hostSize).2 (ascii "host") 0 (by decide +kernel)
  exact absurd zero.1 (by decide)

end Agreement

end Pi1MHz.FtpService
