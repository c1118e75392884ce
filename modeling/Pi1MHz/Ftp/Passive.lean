import Pi1MHz.Ftp.Emulator

/-! Passive replies, from a server that writes a port to the two parsers that read it. -/
namespace Pi1MHz.FtpService
open Http (decimal)

section Numbers
variable {limit value : Nat} {digits rest text : List UInt8}

/-- The digits of a number without leading zeros. -/
def numeral (n : Nat) : List UInt8 := ascii (toString n)

/-- What follows a number that has been read whole. -/
def Ended (rest : List UInt8) : Prop := rest.head?.any isDigit = false

theorem digitValue_of_char {c : Char} (digit : c.isDigit = true) :
    isDigit c.toNat.toUInt8 = true ∧ digitValue c.toNat.toUInt8 = c.toNat - 48 := by
  have bounds : 48 ≤ c.toNat ∧ c.toNat ≤ 57 := by
    simpa [Char.isDigit, UInt32.le_iff_toNat_le] using digit
  have byte : c.toNat.toUInt8.toNat = c.toNat := by
    simp only [Nat.toUInt8_eq, UInt8.toNat_ofNat']
    omega
  refine ⟨?_, by rw [digitValue, byte]⟩
  simp only [isDigit, Bool.and_eq_true, decide_eq_true_eq, UInt8.le_iff_toNat_le, byte]
  exact bounds

theorem numeral_eq (n : Nat) :
    numeral n = (Nat.toDigits 10 n).map fun c => c.toNat.toUInt8 := by
  rw [numeral, ascii, Nat.toString_eq_ofList_toDigits, String.toList_ofList]

theorem isDigit_numeral (n : Nat) : ∀ byte ∈ numeral n, isDigit byte = true := by
  intro byte member
  rw [numeral_eq] at member
  obtain ⟨c, inside, rfl⟩ := List.mem_map.mp member
  exact (digitValue_of_char (Nat.isDigit_of_mem_toDigits (by decide) (by decide) inside)).1

theorem numeral_ne_nil (n : Nat) : numeral n ≠ [] := by
  rw [numeral_eq]
  simp [Nat.toDigits_ne_nil]

theorem decimal_numeral (n : Nat) : decimal (numeral n) = n := by
  have read : ∀ (chars : List Char) (start : Nat), (∀ c ∈ chars, c.isDigit = true) →
      (chars.map fun c => c.toNat.toUInt8).foldl
        (fun value digit => value * 10 + digitValue digit) start = Nat.ofDigitChars 10 chars start := by
    intro chars
    induction chars with
    | nil => intros; rfl
    | cons c chars ih =>
      intro start all
      rw [List.map_cons, List.foldl_cons, (digitValue_of_char (all c (by simp))).2,
        ih _ fun d member => all d (by simp [member]), Nat.ofDigitChars_cons, Nat.mul_comm start]
      rfl
  rw [decimal, numeral_eq, read _ _ fun c => Nat.isDigit_of_mem_toDigits (by decide) (by decide)]
  exact Nat.ofDigitChars_ten_toDigits

/-- Reading on only makes a number larger. -/
theorem le_foldl_digits (digits : List UInt8) (value : Nat) :
    value ≤ digits.foldl (fun value digit => value * 10 + digitValue digit) value := by
  induction digits generalizing value with
  | nil => exact Nat.le_refl _
  | cons digit digits ih =>
    have later := ih (value * 10 + digitValue digit)
    rw [List.foldl_cons]
    omega

/-- A number within the limit is read up to its end. -/
theorem scanNumber_digits (all : ∀ byte ∈ digits, isDigit byte = true) (ended : Ended rest)
    (within : digits.foldl (fun value digit => value * 10 + digitValue digit) value ≤ limit) :
    scanNumber limit value (digits ++ rest) =
      some (digits.foldl (fun value digit => value * 10 + digitValue digit) value, rest) := by
  induction digits generalizing value with
  | nil =>
    cases rest with
    | nil => rfl
    | cons byte rest =>
      have other : isDigit byte = false := ended
      simp [scanNumber, other]
  | cons digit digits ih =>
    rw [List.foldl_cons] at within ⊢
    have here := (le_foldl_digits digits (value * 10 + digitValue digit)).trans within
    rw [List.cons_append, scanNumber, if_pos (all digit (by simp))]
    simp only [if_neg (Nat.not_lt.mpr here)]
    exact ih (fun byte member => all byte (by simp [member])) within

/-- What is read is the value of the digits in front of the rest. -/
theorem scanNumber_some {n : Nat} (read : scanNumber limit value text = some (n, rest)) :
    ∃ digits, text = digits ++ rest ∧ (∀ byte ∈ digits, isDigit byte = true) ∧ Ended rest ∧
      n = digits.foldl (fun value digit => value * 10 + digitValue digit) value ∧
      (value ≤ limit → n ≤ limit) := by
  induction text generalizing value with
  | nil =>
    cases read
    exact ⟨[], rfl, by simp, rfl, rfl, id⟩
  | cons byte text ih =>
    rw [scanNumber] at read
    split at read
    next digit =>
      simp only at read
      split at read
      · cases read
      next small =>
        obtain ⟨digits, split, all, ended, value, within⟩ := ih read
        refine ⟨byte :: digits, by rw [split]; rfl, ?_, ended, value, ?_⟩
        · simp only [List.mem_cons, forall_eq_or_imp]
          exact ⟨digit, all⟩
        · intro _
          exact within (by omega)
    next other =>
      cases read
      exact ⟨[], rfl, by simp, by simpa [Ended] using other, rfl, id⟩

theorem head_any_isDigit (all : ∀ byte ∈ digits, isDigit byte = true) (nonempty : digits ≠ []) :
    (digits ++ rest).head?.any isDigit = true := by
  obtain ⟨digit, more, rfl⟩ := List.exists_cons_of_ne_nil nonempty
  simpa using all digit (by simp)

theorem scanNumber_numeral {n : Nat} (within : n ≤ limit) (ended : Ended rest) :
    scanNumber limit 0 (numeral n ++ rest) = some (n, rest) := by
  have value : (numeral n).foldl (fun value digit => value * 10 + digitValue digit) 0 = n :=
    decimal_numeral n
  rw [scanNumber_digits (isDigit_numeral n) ended (by rw [value]; exact within), value]

end Numbers

section Octets
variable {text rest : List UInt8}

theorem scanOctet_numeral {n : Nat} (octet : n ≤ 255) (ended : Ended rest) :
    scanOctet (numeral n ++ rest) = some (n, rest) := by
  rw [scanOctet, if_pos (head_any_isDigit (isDigit_numeral n) (numeral_ne_nil n)),
    scanNumber_numeral octet ended]

theorem scanOctets_last {n : Nat} (octet : n ≤ 255) (ended : Ended rest) :
    scanOctets 1 (numeral n ++ rest) = some [n] := by
  rw [scanOctets, scanOctet_numeral octet ended]
  rfl

theorem scanOctets_numeral {n remaining : Nat} (octet : n ≤ 255) (more : remaining ≠ 0) :
    scanOctets (remaining + 1) (numeral n ++ 44 :: rest) =
      (scanOctets remaining rest).map (n :: ·) := by
  have ended : Ended (44 :: rest) := by simp [Ended, isDigit]
  rw [scanOctets, scanOctet_numeral octet ended]
  simp only [if_neg more]

/-- The text of numbers in the range of an octet, separated by commas, with what follows. -/
structure Tuple (words : List (List UInt8)) (text rest : List UInt8) : Prop where
  split : text = [44].intercalate words ++ rest
  digits : ∀ word ∈ words, word ≠ [] ∧ ∀ byte ∈ word, isDigit byte = true
  octets : ∀ word ∈ words, decimal word ≤ 255
  ended : Ended rest

theorem scanOctet_some {n : Nat} (read : scanOctet text = some (n, rest)) :
    ∃ word, Tuple [word] text rest ∧ n = decimal word := by
  rw [scanOctet] at read
  split at read
  swap
  · cases read
  next first =>
    obtain ⟨word, split, all, ended, value, within⟩ := scanNumber_some read
    have nonempty : word ≠ [] := by
      rintro rfl
      rw [List.nil_append] at split
      rw [split, ended] at first
      cases first
    refine ⟨word, ⟨by simpa [List.intercalate] using split, ?_, ?_, ended⟩, value⟩
    · simpa using ⟨nonempty, all⟩
    · have octet := within (Nat.zero_le _)
      rw [value] at octet
      simpa [decimal] using octet

/-- Only numbers in the range of an octet are read. -/
theorem scanOctets_some {remaining : Nat} (positive : remaining ≠ 0) {numbers : List Nat}
    (read : scanOctets remaining text = some numbers) :
    ∃ words rest, Tuple words text rest ∧ words.length = remaining ∧
      numbers = words.map decimal := by
  induction remaining generalizing text numbers with
  | zero => exact absurd rfl positive
  | succ remaining ih =>
    rw [scanOctets] at read
    split at read
    · cases read
    next n rest first =>
      obtain ⟨word, tuple, value⟩ := scanOctet_some first
      split at read
      next last =>
        cases read
        exact ⟨[word], rest, tuple, by rw [last]; rfl, by rw [value]; rfl⟩
      next more =>
        split at read
        swap
        · cases read
        next _ after =>
          obtain ⟨others, later, rfl⟩ := Option.map_eq_some_iff.mp read
          obtain ⟨words, tail, following, count, rfl⟩ := ih more later
          obtain ⟨next, words, rfl⟩ := List.exists_cons_of_length_pos (by omega : 0 < words.length)
          refine ⟨word :: next :: words, tail, ⟨?_, ?_, ?_, following.ended⟩, by simp [count], ?_⟩
          · have own : text = word ++ 44 :: after := by simpa [List.intercalate] using tuple.split
            rw [own, following.split]
            simp [List.intercalate]
          · exact List.forall_mem_cons.mpr ⟨tuple.digits word (by simp), following.digits⟩
          · exact List.forall_mem_cons.mpr ⟨tuple.octets word (by simp), following.octets⟩
          · rw [value]
            rfl

end Octets

section Replies

/-- What a server puts into its two passive replies: a port, the texts around it, the delimiter
of the one and the host of the other. The text in front has no parenthesis, and nothing in it or
behind looks like the code of the extended reply. -/
structure Passive where
  port : Nat
  range : 1 ≤ port ∧ port ≤ 65535
  text : List UInt8
  plain : 40 ∉ text
  clean : ¬ascii "229 " <:+: text
  delimiter : UInt8
  apart : isDigit delimiter = false ∧ delimiter ≠ 41 ∧ delimiter ≠ 0
  host : UInt8 × UInt8 × UInt8 × UInt8
  rest : List UInt8
  ends : ¬ascii "229 " <:+: rest

namespace Passive
variable (p : Passive)

/-- `229 text(<d><d><d>port<d>)`. -/
def extended : List UInt8 :=
  ascii "229 " ++ p.text ++ 40 :: p.delimiter :: p.delimiter :: p.delimiter ::
    (numeral p.port ++ p.delimiter :: 41 :: p.rest)

/-- The six numbers between the parentheses. -/
def numbers : List Nat :=
  [p.host.1.toNat, p.host.2.1.toNat, p.host.2.2.1.toNat, p.host.2.2.2.toNat, p.port / 256, p.port % 256]

def tuple : List UInt8 := [44].intercalate (p.numbers.map numeral)

/-- `227 text(h1,h2,h3,h4,p1,p2)`. -/
def basic : List UInt8 := ascii "227 " ++ p.text ++ 40 :: (p.tuple ++ 41 :: p.rest)

theorem opens {code : List UInt8} (free : 40 ∉ code) (body : List UInt8) :
    (code ++ p.text ++ 40 :: body).dropWhile (· ≠ 40) = 40 :: body := by
  rw [List.dropWhile_append_of_pos]
  · simp
  · intro byte member
    rcases List.mem_append.mp member with inCode | inText
    · simpa using fun same : byte = 40 => free (same ▸ inCode)
    · simpa using fun same : byte = 40 => p.plain (same ▸ inText)

theorem scanNumber_port :
    scanNumber 65535 0 (numeral p.port ++ p.delimiter :: 41 :: p.rest) =
      some (p.port, p.delimiter :: 41 :: p.rest) :=
  scanNumber_numeral p.range.2 (by simpa [Ended] using p.apart.1)

theorem tuple_append (rest : List UInt8) : p.tuple ++ rest =
    numeral p.host.1.toNat ++ 44 :: (numeral p.host.2.1.toNat ++ 44 ::
      (numeral p.host.2.2.1.toNat ++ 44 :: (numeral p.host.2.2.2.toNat ++ 44 ::
        (numeral (p.port / 256) ++ 44 :: (numeral (p.port % 256) ++ rest))))) := by
  simp [tuple, numbers, List.intercalate]

theorem scanOctets_tuple : scanOctets 6 (p.tuple ++ 41 :: p.rest) = some p.numbers := by
  have octet : ∀ byte : UInt8, byte.toNat ≤ 255 := fun byte => Nat.le_of_lt_succ byte.toNat_lt
  have high : p.port / 256 ≤ 255 := by have := p.range; omega
  have low : p.port % 256 ≤ 255 := by omega
  have ended : Ended (41 :: p.rest) := by simp [Ended, isDigit]
  rw [tuple_append, scanOctets_numeral (octet _) (by decide), scanOctets_numeral (octet _) (by decide),
    scanOctets_numeral (octet _) (by decide), scanOctets_numeral (octet _) (by decide),
    scanOctets_numeral high (by decide), scanOctets_last low ended]
  rfl

theorem halves : p.port / 256 * 256 + p.port % 256 = p.port ∧ p.port ≠ 0 := by
  have := p.range
  omega

theorem isDigit_tuple : ∀ byte ∈ p.tuple, isDigit byte = true ∨ byte = 44 := by
  intro byte member
  rw [← List.append_nil p.tuple, tuple_append] at member
  simp only [List.mem_append, List.mem_cons, List.not_mem_nil, or_false] at member
  rcases member with inside | rfl | inside | rfl | inside | rfl | inside | rfl | inside | rfl | inside
  all_goals first | exact .inr rfl | exact .inl (isDigit_numeral _ byte inside)

/-- The basic reply is not taken for the extended one. -/
theorem basic_clean : ¬ascii "229 " <:+: p.basic := by
  have needle : ascii "229 " = [50, 50, 57, 32] := by decide
  have inCode : ascii "227 " ++ p.text = [50, 50] ++ 55 :: (32 :: p.text) := rfl
  rw [basic, needle, Search.infix_append_cons_iff (by decide), Search.infix_append_cons_iff (by decide)]
  rintro (inFront | inTuple | inRest)
  · rw [inCode, Search.infix_append_cons_iff (by decide)] at inFront
    rcases inFront with short | later
    · exact absurd short.length_le (by decide)
    · rw [List.infix_cons_iff] at later
      rcases later with starts | inText
      · exact absurd (List.cons_prefix_cons.mp starts).1 (by decide)
      · exact p.clean (needle ▸ inText)
  · rcases p.isDigit_tuple 32 (inTuple.subset (by decide)) with digit | comma
    · exact absurd digit (by decide)
    · exact absurd comma (by decide)
  · exact p.ends (needle ▸ inRest)

theorem ftpParsePasv_basic : ftpParsePasv p.basic = some p.port := by
  rw [ftpParsePasv, basic, p.opens (by decide)]
  simp only [p.scanOctets_tuple, numbers, p.halves.1]
  simp [p.halves.2]

theorem passivePort_basic : FtpEmulator.passivePort p.basic = some p.port := by
  have notFound : Search.firstAt (ascii "229 ") p.basic = none :=
    Search.firstAt_eq_none_iff.mpr p.basic_clean
  rw [FtpEmulator.passivePort, notFound, basic, p.opens (by decide)]
  simp only [p.scanOctets_tuple, numbers, p.halves.1]
  simp [p.halves.2]

theorem passivePort_extended : FtpEmulator.passivePort p.extended = some p.port := by
  have found : (Search.firstAt (ascii "229 ") p.extended).isSome = true := by
    rw [extended, List.append_assoc, Search.firstAt_of_prefix (List.prefix_append _ _)]
    rfl
  rw [FtpEmulator.passivePort, found, extended, p.opens (by decide)]
  simp [p.scanNumber_port, p.halves.2]

theorem ftpParseEpsv_extended : ftpParseEpsv p.extended = some p.port := by
  have others : ∀ byte ∈ numeral p.port, byte ≠ 41 := by
    rintro byte member rfl
    exact absurd (isDigit_numeral p.port 41 member) (by decide)
  have inside : (p.delimiter :: p.delimiter :: p.delimiter ::
      (numeral p.port ++ p.delimiter :: 41 :: p.rest)).takeWhile (· ≠ 41) =
      p.delimiter :: p.delimiter :: p.delimiter :: (numeral p.port ++ [p.delimiter]) := by
    have far : (numeral p.port ++ p.delimiter :: 41 :: p.rest).takeWhile (· ≠ 41) =
        numeral p.port ++ [p.delimiter] := by
      rw [List.takeWhile_append_of_pos (by simpa using others)]
      simp [p.apart.2.1]
    simp only [List.takeWhile_cons, p.apart.2.1, ne_eq, not_false_eq_true, decide_true, if_true]
    rw [far]
  have read : scanNumber 65535 0 (numeral p.port ++ [p.delimiter]) = some (p.port, [p.delimiter]) :=
    scanNumber_numeral p.range.2 (by simpa [Ended] using p.apart.1)
  have first : (numeral p.port ++ [p.delimiter]).head?.any isDigit = true :=
    head_any_isDigit (isDigit_numeral p.port) (numeral_ne_nil p.port)
  have size : 0 < (numeral p.port).length := List.length_pos_of_ne_nil (numeral_ne_nil p.port)
  rw [ftpParseEpsv, extended, p.opens (by decide)]
  simp only [inside, first, read]
  rw [if_neg]
  · simp [p.halves.2]
  · simp
    omega

end Passive

/-- Only a port is ever read from an extended reply. -/
theorem ftpParseEpsv_range {reply : List UInt8} {port : Nat}
    (parsed : ftpParseEpsv reply = some port) : 1 ≤ port ∧ port ≤ 65535 := by
  unfold ftpParseEpsv at parsed
  split at parsed
  · cases parsed
  simp only at parsed
  split at parsed
  · cases parsed
  split at parsed
  swap
  · cases parsed
  split at parsed
  · cases parsed
  split at parsed
  swap
  · cases parsed
  next value close rest read =>
    split at parsed
    · cases parsed
    next accepted =>
      cases parsed
      obtain ⟨digits, -, -, -, -, within⟩ := scanNumber_some read
      simp only [not_or] at accepted
      have := within (Nat.zero_le _)
      omega

/-- Only a tuple of octets is ever read from a basic reply, and a port other than zero. -/
theorem ftpParsePasv_sound {reply : List UInt8} {port : Nat}
    (parsed : ftpParsePasv reply = some port) :
    1 ≤ port ∧ port ≤ 65535 ∧ ∃ before words text rest, reply = before ++ 40 :: text ∧ 40 ∉ before ∧
      Tuple words text rest ∧ ∃ h₁ h₂ h₃ h₄ high low,
        words.map decimal = [h₁, h₂, h₃, h₄, high, low] ∧ port = high * 256 + low := by
  unfold ftpParsePasv at parsed
  split at parsed
  · cases parsed
  next opened body found =>
    split at parsed
    swap
    · cases parsed
    next h₁ h₂ h₃ h₄ high low read =>
      obtain ⟨words, rest, tuple, count, values⟩ := scanOctets_some (by decide) read
      obtain ⟨same, positive⟩ := Option.filter_eq_some_iff.mp parsed
      cases same
      have octet : ∀ n ∈ words.map decimal, n ≤ 255 := by
        simpa using tuple.octets
      rw [← values] at octet
      have top := octet high (by simp)
      have bottom := octet low (by simp)
      have opening : opened = 40 := by
        have head := @List.head_dropWhile_not _ (· ≠ (40 : UInt8)) reply (by rw [found]; simp)
        simpa only [found, List.head_cons, decide_eq_false_iff_not, not_not] using head
      have split := List.takeWhile_append_dropWhile (p := (· ≠ (40 : UInt8))) (l := reply)
      rw [found, opening] at split
      refine ⟨?_, by omega, reply.takeWhile (· ≠ 40), words, body, rest, split.symm, ?_, tuple,
        h₁, h₂, h₃, h₄, high, low, values.symm, rfl⟩
      · have nonzero : high * 256 + low ≠ 0 := of_decide_eq_true positive
        omega
      · intro member
        simpa using List.mem_takeWhile_imp member

/-- Both clients read a passive reply back, and on no reply does this one read a port that is
none or octets that are none. -/
theorem passive_replies (p : Passive) (reply : List UInt8) (port : Nat) :
    (ftpParseEpsv p.extended = some p.port ∧ FtpEmulator.passivePort p.extended = some p.port ∧
      ftpParsePasv p.basic = some p.port ∧ FtpEmulator.passivePort p.basic = some p.port) ∧
    (ftpParseEpsv reply = some port → 1 ≤ port ∧ port ≤ 65535) ∧
    (ftpParsePasv reply = some port → 1 ≤ port ∧ port ≤ 65535 ∧
      ∃ before words text rest, reply = before ++ 40 :: text ∧ 40 ∉ before ∧
        Tuple words text rest ∧ ∃ h₁ h₂ h₃ h₄ high low,
          words.map decimal = [h₁, h₂, h₃, h₄, high, low] ∧ port = high * 256 + low) :=
  ⟨⟨p.ftpParseEpsv_extended, p.passivePort_extended, p.ftpParsePasv_basic, p.passivePort_basic⟩,
    ftpParseEpsv_range, ftpParsePasv_sound⟩

/-- The two replies of a server on port 50001. -/
def sampleReplies : Passive where
  port := 50001
  range := by decide
  text := ascii "Entering Passive Mode "
  plain := by decide
  clean := by decide +kernel
  delimiter := 124
  apart := by decide
  host := (10, 0, 0, 1)
  rest := crlf
  ends := by decide +kernel

theorem passive_replies_sample :
    ftpParseEpsv sampleReplies.extended = some 50001 ∧
      FtpEmulator.passivePort sampleReplies.basic = some 50001 ∧
      ∃ words text rest, Tuple words text rest ∧ ∃ h₁ h₂ h₃ h₄ high low,
        words.map decimal = [h₁, h₂, h₃, h₄, high, low] ∧ 50001 = high * 256 + low := by
  obtain ⟨read, -, accepted⟩ :=
    passive_replies sampleReplies (ascii "227 Ready (10,0,0,1,195,81)") 50001
  obtain ⟨-, -, before, words, text, rest, -, -, tuple, numbers⟩ := accepted (by decide +kernel)
  exact ⟨read.1, read.2.2.2, words, text, rest, tuple, numbers⟩

end Replies

end Pi1MHz.FtpService
