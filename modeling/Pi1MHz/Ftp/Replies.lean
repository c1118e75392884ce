import Pi1MHz.Ftp.Text

/-! Replies as RFC 959 lays them out, and the search for them in a stream. -/
namespace Pi1MHz.FtpService

/-- A line with no control characters, in particular no end of line. -/
def Printable (line : List UInt8) : Prop := ∀ byte ∈ line, 32 ≤ byte

def codeDigits (code : Nat) : List UInt8 :=
  [(48 + code / 100).toUInt8, (48 + code / 10 % 10).toUInt8, (48 + code % 10).toUInt8]

/-- A reply: its code, the text of its last line and, if it has several, the text of the first
and the lines between. No line between may look like the last one. -/
structure Reply where
  code : Nat
  text : List UInt8
  opening : Option (List UInt8 × List (List UInt8))
  range : 100 ≤ code ∧ code < 600
  printable : Printable text
  opening_printable : ∀ first inner, opening = some (first, inner) →
    Printable first ∧ ∀ line ∈ inner, Printable line ∧ ¬(codeDigits code ++ [32]) <+: line

namespace Reply

def lastLine (r : Reply) : List UInt8 := codeDigits r.code ++ 32 :: r.text

def encode (r : Reply) : List UInt8 :=
  match r.opening with
  | none => r.lastLine ++ crlf
  | some (first, inner) =>
    codeDigits r.code ++ 45 :: first ++ crlf ++ (inner.flatMap (· ++ crlf) ++ (r.lastLine ++ crlf))

/-- A reply of one line. -/
def single (code : Nat) (text : List UInt8) (range : 100 ≤ code ∧ code < 600)
    (printable : Printable text) : Reply :=
  ⟨code, text, none, range, printable, fun _ _ same => by cases same⟩

end Reply

instance (line : List UInt8) : Decidable (Printable line) :=
  inferInstanceAs (Decidable (∀ byte ∈ line, 32 ≤ byte))

theorem toNat_digit {value : Nat} (small : value < 10) : ((48 + value).toUInt8).toNat = 48 + value := by
  simp only [Nat.toUInt8_eq, UInt8.toNat_ofNat']
  omega

theorem digitValue_digit {value : Nat} (small : value < 10) :
    digitValue (48 + value).toUInt8 = value := by
  rw [digitValue, toNat_digit small]
  omega

theorem isDigit_digit {value : Nat} (small : value < 10) : isDigit (48 + value).toUInt8 = true := by
  have byte := toNat_digit small
  simp only [isDigit, Bool.and_eq_true, decide_eq_true_eq, UInt8.le_iff_toNat_le, byte]
  constructor
  · simp
  · show 48 + value ≤ 57
    omega

/-- The first line of a reply shows its code. -/
theorem lineCode_codeDigits {code : Nat} (range : 100 ≤ code ∧ code < 600) (separator : UInt8)
    (text : List UInt8) :
    lineCode (codeDigits code ++ separator :: text) = some (code, separator) := by
  have hundreds : code / 100 < 10 := by omega
  have tens : code / 10 % 10 < 10 := by omega
  have ones : code % 10 < 10 := by omega
  have first : 49 ≤ (48 + code / 100).toUInt8 && (48 + code / 100).toUInt8 ≤ 53 := by
    have byte := toNat_digit hundreds
    simp only [Bool.and_eq_true, decide_eq_true_eq, UInt8.le_iff_toNat_le, byte]
    constructor
    · show 49 ≤ 48 + code / 100
      omega
    · show 48 + code / 100 ≤ 53
      omega
  simp only [codeDigits, List.cons_append, List.nil_append, lineCode, first, isDigit_digit tens,
    isDigit_digit ones, Bool.and_self, if_true, digitValue_digit hundreds, digitValue_digit tens,
    digitValue_digit ones]
  congr 2
  omega

/-- A byte is the digit of its value. -/
theorem digit_digitValue {byte : UInt8} (low : 48 ≤ byte.toNat) :
    (48 + digitValue byte).toUInt8 = byte := by
  apply UInt8.toNat_inj.mp
  have := byte.toNat_lt
  simp only [digitValue, Nat.toUInt8_eq, UInt8.toNat_ofNat']
  omega

/-- Three digits are those of the code they show. -/
theorem codeDigits_digits {first second third : UInt8} (hundreds : isDigit first = true)
    (tens : isDigit second = true) (ones : isDigit third = true) :
    codeDigits (digitValue first * 100 + digitValue second * 10 + digitValue third) =
      [first, second, third] := by
  have bounds : ∀ {byte : UInt8}, isDigit byte = true → 48 ≤ byte.toNat ∧ digitValue byte < 10 := by
    intro byte digit
    simp only [isDigit, Bool.and_eq_true, decide_eq_true_eq, UInt8.le_iff_toNat_le] at digit
    have range : 48 ≤ byte.toNat ∧ byte.toNat ≤ 57 := digit
    rw [digitValue]
    omega
  have b1 := bounds hundreds
  have b2 := bounds tens
  have b3 := bounds ones
  have d1 : (digitValue first * 100 + digitValue second * 10 + digitValue third) / 100 =
      digitValue first := by omega
  have d2 : (digitValue first * 100 + digitValue second * 10 + digitValue third) / 10 % 10 =
      digitValue second := by omega
  have d3 : (digitValue first * 100 + digitValue second * 10 + digitValue third) % 10 =
      digitValue third := by omega
  rw [codeDigits, d1, d2, d3, digit_digitValue b1.1, digit_digitValue b2.1, digit_digitValue b3.1]

/-- A line shows a code only if it starts with it. -/
theorem lineCode_starts {line : List UInt8} {code : Nat} {separator : UInt8}
    (found : lineCode line = some (code, separator)) :
    (codeDigits code ++ [separator]) <+: line ∧ 100 ≤ code ∧ code < 600 := by
  match line with
  | [] => cases found
  | [_] => cases found
  | [_, _] => cases found
  | [_, _, _] => cases found
  | first :: second :: third :: fourth :: rest =>
    simp only [lineCode] at found
    split at found
    swap
    · cases found
    next valid =>
      simp only [Bool.and_eq_true, decide_eq_true_eq, UInt8.le_iff_toNat_le] at valid
      obtain ⟨⟨⟨low, high⟩, tens⟩, ones⟩ := valid
      have hundreds : isDigit first = true := by
        simp only [isDigit, Bool.and_eq_true, decide_eq_true_eq, UInt8.le_iff_toNat_le]
        exact ⟨Nat.le_of_succ_le low, Nat.le_trans high (by decide)⟩
      obtain ⟨rfl, rfl⟩ : _ = code ∧ fourth = separator := by simpa using found
      refine ⟨?_, ?_⟩
      · rw [codeDigits_digits hundreds tens ones]
        exact ⟨rest, rfl⟩
      · simp only [isDigit, Bool.and_eq_true, decide_eq_true_eq, UInt8.le_iff_toNat_le] at tens ones
        have b1 : 49 ≤ first.toNat ∧ first.toNat ≤ 53 := ⟨low, high⟩
        have b2 : second.toNat ≤ 57 := tens.2
        have b3 : third.toNat ≤ 57 := ones.2
        simp only [digitValue]
        omega

section Scan
variable (before rest : List UInt8) (multiline : Nat) {line : List UInt8}

theorem Printable.ne_cr (printable : Printable line) {k : Nat} (bound : k < line.length) :
    (line)[k] ≠ 13 := by
  intro same
  have low := printable _ (List.getElem_mem bound)
  rw [same] at low
  exact absurd low (by decide)

/-- The search passes over the bytes of a line. -/
theorem scanReply_skip (printable : Printable line) (k : Nat) (within : k ≤ line.length) :
    scanReply (before ++ line ++ crlf ++ rest) before.length multiline (before.length + k) =
      scanReply (before ++ line ++ crlf ++ rest) before.length multiline
        (before.length + line.length) := by
  induction h : line.length - k generalizing k with
  | zero =>
    obtain rfl : k = line.length := by omega
    rfl
  | succ n ih =>
    have inside : k < line.length := by omega
    have byte : (before ++ line ++ crlf ++ rest)[before.length + k]? = some (line)[k] := by
      rw [List.append_assoc, List.append_assoc, List.getElem?_append_right (by omega),
        List.getElem?_append_left (by omega)]
      simp
    have other : (before ++ line ++ crlf ++ rest)[before.length + k]? ≠ some 13 := by
      rw [byte]
      simpa using printable.ne_cr inside
    rw [scanReply, if_pos (by simp [crlf]; omega), if_pos (.inl other), Nat.add_assoc]
    exact ih (k + 1) (by omega) (by omega)

/-- The decision at the end of a line. -/
theorem scanReply_line (printable : Printable line) :
    scanReply (before ++ line ++ crlf ++ rest) before.length multiline before.length =
      match lineCode line with
      | none => scanReply (before ++ line ++ crlf ++ rest) (before.length + line.length + 2) multiline
          (before.length + line.length + 2)
      | some (code, separator) =>
        let multiline := if before.length = 0 ∧ separator = 45 then code else multiline
        if separator ≠ 32 ∨ (multiline ≠ 0 ∧ code ≠ multiline) then
          scanReply (before ++ line ++ crlf ++ rest) (before.length + line.length + 2) multiline
            (before.length + line.length + 2)
        else some (code, before.length + line.length + 2) := by
  have skipped := scanReply_skip before rest multiline printable 0 (Nat.zero_le _)
  rw [Nat.add_zero] at skipped
  rw [skipped]
  have cr : (before ++ line ++ crlf ++ rest)[before.length + line.length]? = some 13 := by
    rw [List.append_assoc (before ++ line), List.getElem?_append_right (by simp)]
    simp [crlf]
  have lf : (before ++ line ++ crlf ++ rest)[before.length + line.length + 1]? = some 10 := by
    rw [List.append_assoc (before ++ line), List.getElem?_append_right (by simp)]
    simp [crlf]
  have own : ((before ++ line ++ crlf ++ rest).take (before.length + line.length)).drop
      before.length = line := by
    have front : (before ++ line ++ crlf ++ rest).take (before.length + line.length) = before ++ line := by
      rw [List.append_assoc, ← List.length_append, List.take_left]
    rw [front, List.drop_left]
  have unfolded := scanReply.eq_def (before ++ line ++ crlf ++ rest) before.length multiline
    (before.length + line.length)
  rw [if_pos (by simp [crlf]; omega), if_neg (by rintro (h | h); exacts [h cr, h lf]), own] at unfolded
  exact unfolded

theorem printable_coded {code : Nat} (range : 100 ≤ code ∧ code < 600) {separator : UInt8}
    (visible : 32 ≤ separator) {text : List UInt8} (printable : Printable text) :
    Printable (codeDigits code ++ separator :: text) := by
  intro byte member
  simp only [List.mem_append, List.mem_cons] at member
  rcases member with digit | rfl | inText
  · simp only [codeDigits, List.mem_cons, List.not_mem_nil, or_false] at digit
    rcases digit with rfl | rfl | rfl
    all_goals
      rw [UInt8.le_iff_toNat_le, toNat_digit (by omega)]
      show 32 ≤ 48 + _
      omega
  · exact visible
  · exact printable byte inText

/-- The last line of a reply completes it. -/
theorem scanReply_lastLine (r : Reply) (settled : multiline = 0 ∨ multiline = r.code) :
    scanReply (before ++ r.lastLine ++ crlf ++ rest) before.length multiline before.length =
      some (r.code, before.length + r.lastLine.length + 2) := by
  have printable : Printable r.lastLine := printable_coded r.range (by decide) r.printable
  rw [scanReply_line before rest multiline printable, Reply.lastLine, lineCode_codeDigits r.range]
  simp only [show ¬(32 : UInt8) = 45 by decide, and_false, if_false]
  rw [if_neg]
  rintro (other | ⟨open_, other⟩)
  · exact other rfl
  · rcases settled with closed | same
    · exact open_ closed
    · exact other same.symm

/-- The lines between the first and the last are passed over. -/
theorem scanReply_inner {code : Nat} (later : before ≠ []) (opened : code ≠ 0)
    {inner : List (List UInt8)}
    (lines : ∀ line ∈ inner, Printable line ∧ ¬(codeDigits code ++ [32]) <+: line) :
    scanReply (before ++ inner.flatMap (· ++ crlf) ++ rest) before.length code before.length =
      scanReply (before ++ inner.flatMap (· ++ crlf) ++ rest)
        (before ++ inner.flatMap (· ++ crlf)).length code
        (before ++ inner.flatMap (· ++ crlf)).length := by
  induction inner generalizing before with
  | nil => simp
  | cons line inner ih =>
    obtain ⟨printable, other⟩ := lines line (by simp)
    have split : before ++ (line :: inner).flatMap (· ++ crlf) ++ rest =
        before ++ line ++ crlf ++ (inner.flatMap (· ++ crlf) ++ rest) := by simp
    have following := ih (before ++ line ++ crlf) (by simp [crlf])
      fun line member => lines line (by simp [member])
    have length : (before ++ line ++ crlf).length = before.length + line.length + 2 := by
      simp [crlf, Nat.add_assoc]
    have goes : scanReply (before ++ line ++ crlf ++ (inner.flatMap (· ++ crlf) ++ rest))
        before.length code before.length =
        scanReply (before ++ line ++ crlf ++ (inner.flatMap (· ++ crlf) ++ rest))
          (before.length + line.length + 2) code (before.length + line.length + 2) := by
      have started : before.length ≠ 0 := by simpa using later
      rw [scanReply_line before (inner.flatMap (· ++ crlf) ++ rest) code printable]
      split
      · rfl
      next found separator shown =>
        simp only [started, false_and, if_false]
        rw [if_pos]
        by_contra last
        simp only [not_or, not_not, not_and] at last
        obtain ⟨rfl, same⟩ := last
        have equal := same opened
        subst equal
        exact other (lineCode_starts shown).1
    rw [split, goes, ← length, ← List.append_assoc, following]
    simp [crlf]

/-- The search finds a reply at the front of a stream whole. -/
theorem scanReply_encode (r : Reply) :
    scanReply (r.encode ++ rest) 0 0 0 = some (r.code, r.encode.length) := by
  rw [Reply.encode]
  split
  next single =>
    have last := scanReply_lastLine [] rest 0 r (.inl rfl)
    simpa [crlf] using last
  next first inner several =>
    obtain ⟨printable, lines⟩ := r.opening_printable first inner several
    have opened : r.code ≠ 0 := by
      have := r.range
      omega
    generalize opening : codeDigits r.code ++ 45 :: first = line
    generalize between : inner.flatMap (· ++ crlf) = middle
    have visible : Printable line := by
      rw [← opening]
      exact printable_coded r.range (by decide) printable
    have begins : scanReply ([] ++ line ++ crlf ++ (middle ++ (r.lastLine ++ crlf) ++ rest)) 0 0 0 =
        scanReply ([] ++ line ++ crlf ++ (middle ++ (r.lastLine ++ crlf) ++ rest)) (line.length + 2)
          r.code (line.length + 2) := by
      have decided := scanReply_line [] (middle ++ (r.lastLine ++ crlf) ++ rest) 0 visible
      rw [← opening, lineCode_codeDigits r.range, opening] at decided
      simpa using decided
    have inside := scanReply_inner (line ++ crlf) (r.lastLine ++ crlf ++ rest) (by simp [crlf]) opened
      lines
    have ends := scanReply_lastLine (line ++ crlf ++ middle) rest r.code r (.inr rfl)
    rw [between] at inside
    have length : (line ++ crlf).length = line.length + 2 := by simp [crlf]
    rw [length] at inside
    have whole : line ++ crlf ++ (middle ++ (r.lastLine ++ crlf)) ++ rest =
        [] ++ line ++ crlf ++ (middle ++ (r.lastLine ++ crlf) ++ rest) := by simp
    rw [whole, begins]
    simp only [List.nil_append, ← List.append_assoc] at inside ends ⊢
    rw [inside, ends]
    simp [crlf]
    omega

/-- What the search does at a byte does not depend on what follows the next one. -/
theorem scanReply_extend {text : List UInt8} {lineStart multiline i : Nat}
    (inside : i + 1 < text.length) (ending : ¬(text[i]? ≠ some 13 ∨ text[i + 1]? ≠ some 10)) :
    scanReply (text ++ rest) lineStart multiline i =
      match lineCode ((text.take i).drop lineStart) with
      | none => scanReply (text ++ rest) (i + 2) multiline (i + 2)
      | some (code, separator) =>
        let multiline := if lineStart = 0 ∧ separator = 45 then code else multiline
        if separator ≠ 32 ∨ (multiline ≠ 0 ∧ code ≠ multiline) then
          scanReply (text ++ rest) (i + 2) multiline (i + 2)
        else some (code, i + 2) := by
  have unfolded := scanReply.eq_def (text ++ rest) lineStart multiline i
  rw [if_pos (by simp; omega), List.getElem?_append_left (by omega),
    List.getElem?_append_left (by omega), if_neg ending,
    List.take_append_of_le_length (by omega)] at unfolded
  exact unfolded

/-- A reply found is not changed by what arrives after it. -/
theorem scanReply_append {text : List UInt8} {lineStart multiline i code length : Nat}
    (found : scanReply text lineStart multiline i = some (code, length)) :
    scanReply (text ++ rest) lineStart multiline i = some (code, length) ∧ length ≤ text.length := by
  fun_induction scanReply text lineStart multiline i with
  | case1 lineStart multiline i inside other ih =>
    rw [scanReply, if_pos (by simp; omega), List.getElem?_append_left (by omega),
      List.getElem?_append_left (by omega), if_pos other]
    exact ih found
  | case2 lineStart multiline i inside ending shown ih =>
    rw [scanReply_extend rest inside ending, shown]
    exact ih found
  | case3 lineStart multiline i inside ending code' separator shown opened other ih =>
    rw [scanReply_extend rest inside ending, shown]
    have same : (if lineStart = 0 ∧ separator = 45 then code' else multiline) = opened := rfl
    simp only [same]
    rw [if_pos other]
    exact ih found
  | case4 lineStart multiline i inside ending code' separator shown opened last =>
    rw [scanReply_extend rest inside ending, shown]
    have same : (if lineStart = 0 ∧ separator = 45 then code' else multiline) = opened := rfl
    simp only [same]
    rw [if_neg last]
    obtain ⟨rfl, rfl⟩ : code' = code ∧ i + 2 = length := by simpa using found
    exact ⟨rfl, by omega⟩
  | case5 => cases found

/-- The bytes of replies in turn. -/
def encodeAll (replies : List Reply) : List UInt8 := replies.flatMap Reply.encode

/-- What the search takes from the front of a stream of replies is the first of them. -/
theorem scanReply_stream {text wire : List UInt8} {replies : List Reply} {code length : Nat}
    (stream : text ++ wire = encodeAll replies)
    (found : scanReply text 0 0 0 = some (code, length)) :
    ∃ first others, replies = first :: others ∧ code = first.code ∧
      text.take length = first.encode ∧ text.drop length ++ wire = encodeAll others := by
  obtain ⟨extended, within⟩ := scanReply_append wire found
  cases replies with
  | nil =>
    obtain ⟨rfl, -⟩ : text = [] ∧ wire = [] := by simpa [encodeAll] using stream
    rw [scanReply] at found
    simp at found
  | cons first others =>
    have split : encodeAll (first :: others) = first.encode ++ encodeAll others := by
      simp [encodeAll]
    rw [stream, split, scanReply_encode] at extended
    obtain ⟨rfl, rfl⟩ : first.code = code ∧ first.encode.length = length := by simpa using extended
    rw [split] at stream
    refine ⟨first, others, rfl, rfl, ?_, ?_⟩
    · have taken := congrArg (List.take first.encode.length) stream
      rwa [List.take_append_of_le_length within, List.take_left] at taken
    · have dropped := congrArg (List.drop first.encode.length) stream
      rwa [List.drop_append_of_le_length within, List.drop_left] at dropped

end Scan

theorem Printable.ne_zero {line : List UInt8} (printable : Printable line) :
    ∀ byte ∈ line, byte ≠ 0 := by
  rintro byte member rfl
  exact absurd (printable 0 member) (by decide)

theorem crlf_ne_zero : ∀ byte ∈ crlf, byte ≠ 0 := by
  simp [crlf]

/-- A reply has no terminator inside. -/
theorem Reply.encode_ne_zero (r : Reply) : ∀ byte ∈ r.encode, byte ≠ 0 := by
  have last : ∀ byte ∈ r.lastLine, byte ≠ 0 :=
    (printable_coded r.range (by decide) r.printable).ne_zero
  intro byte member
  simp only [Reply.encode] at member
  split at member
  · rcases List.mem_append.mp member with inLast | ending
    · exact last byte inLast
    · exact crlf_ne_zero byte ending
  next first inner several =>
    obtain ⟨printable, lines⟩ := r.opening_printable first inner several
    have opening : ∀ byte ∈ codeDigits r.code ++ 45 :: first, byte ≠ 0 :=
      (printable_coded r.range (by decide) printable).ne_zero
    simp only [List.mem_append, List.mem_flatMap] at member opening
    rcases member with (inFirst | ending) | ⟨line, inInner, inLine | ending⟩ | inLast | ending
    · exact opening byte inFirst
    · exact crlf_ne_zero byte ending
    · exact (lines line inInner).1.ne_zero byte inLine
    · exact crlf_ne_zero byte ending
    · exact last byte inLast
    · exact crlf_ne_zero byte ending

end Pi1MHz.FtpService
