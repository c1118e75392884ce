import Pi1MHz.Http.Reader

/-! Well-formed HTTP responses with a 2xx status, and what the reader finds in their header
blocks. -/
namespace Pi1MHz.Http
open FtpService (ascii crlf isDigit digitValue lower)
open Wolfssh (isSpace)

/-- A byte that neither ends a line nor the string. -/
def plain (byte : UInt8) : Bool := byte ≠ 13 && byte ≠ 10 && byte ≠ 0

structure Field where
  name : List UInt8
  value : List UInt8
  name_plain : ∀ byte ∈ name, plain byte ∧ byte ≠ 58
  value_plain : ∀ byte ∈ value, plain byte

def Field.line (f : Field) : List UInt8 := f.name ++ 58 :: f.value

/-- A field name compared without regard to case. -/
def Field.isLength (f : Field) : Bool := f.name.map lower = ascii "content-length"

/-- A field name as the reader wants it. -/
def Field.isSpelled (f : Field) : Bool := f.name = ascii "Content-Length"

def blank (byte : UInt8) : Bool := byte = 32 || byte = 9

/-- The number in a field value: digits with optional blanks around them. -/
def Field.number (f : Field) : Option Nat :=
  let start := f.value.dropWhile blank
  let digits := start.takeWhile isDigit
  if digits ≠ [] ∧ (start.dropWhile isDigit).all blank then some (decimal digits) else none

def statusLine (minor tens ones : UInt8) (reason : List UInt8) : List UInt8 :=
  ascii "HTTP/1." ++ [minor] ++ ascii " 2" ++ [tens, ones] ++ reason

def headerBlock (lines : List (List UInt8)) : List UInt8 := lines.flatMap (· ++ crlf) ++ crlf

structure Response where
  minor : UInt8
  tens : UInt8
  ones : UInt8
  reason : List UInt8
  fields : List Field
  body : List UInt8
  digits : isDigit minor ∧ isDigit tens ∧ isDigit ones
  reason_plain : ∀ byte ∈ reason, plain byte
  /-- Every length field holds a number, and the same one. -/
  numbers : ∀ f ∈ fields, f.isLength → f.number.isSome
  agree : ∀ f ∈ fields, ∀ g ∈ fields, f.isLength → g.isLength → f.number = g.number
  short : (headerBlock (statusLine minor tens ones reason :: fields.map Field.line)).length < 8191

namespace Response

def status (r : Response) : List UInt8 := statusLine r.minor r.tens r.ones r.reason

/-- The header block, its blank line included. -/
def header (r : Response) : List UInt8 := headerBlock (r.status :: r.fields.map Field.line)

def text (r : Response) : List UInt8 := r.header ++ r.body

/-- The value of the Content-Length field, if there is one. -/
def contentLength (r : Response) : Option Nat := (r.fields.find? Field.isLength).bind Field.number

/-- Some Content-Length field is spelled so. -/
def spelled (r : Response) : Bool := r.fields.any Field.isSpelled

end Response

section Lines

variable {line : List UInt8} {lines : List (List UInt8)} {rest : List UInt8}

theorem headerBlock_cons :
    headerBlock (line :: lines) ++ rest = line ++ 13 :: 10 :: (headerBlock lines ++ rest) := by
  simp [headerBlock, crlf]

theorem headerBlock_length_cons :
    (headerBlock (line :: lines)).length = line.length + 2 + (headerBlock lines).length := by
  simp [headerBlock, crlf]
  omega

theorem two_le_headerBlock_length : 2 ≤ (headerBlock lines).length := by
  simp [headerBlock, crlf]

/-- The first blank line is the one that ends the block. -/
theorem firstAt_blankLine (first : 13 ∉ line) (breaks : ∀ l ∈ lines, 13 ∉ l)
    (nonempty : ∀ l ∈ lines, l ≠ []) :
    Search.firstAt blankLine (headerBlock (line :: lines) ++ rest) =
      some ((headerBlock (line :: lines)).length - 4) := by
  induction lines generalizing line with
  | nil =>
    rw [headerBlock_cons, blankLine, crlf, List.cons_append, Search.firstAt_append_of_notMem first,
      Search.firstAt_of_prefix (by simp [headerBlock, crlf])]
    simp [headerBlock, crlf]
  | cons next lines ih =>
    have later := ih (breaks next (by simp)) (fun l member => breaks l (by simp [member]))
      (fun l member => nonempty l (by simp [member]))
    obtain ⟨byte, others, rfl⟩ := List.exists_cons_of_ne_nil (nonempty next (by simp))
    have other : byte ≠ 13 := fun same => breaks (byte :: others) (by simp) (by simp [same])
    have nextSize := @headerBlock_length_cons (byte :: others) lines
    have size := @two_le_headerBlock_length lines
    rw [headerBlock_cons]
    rw [blankLine, crlf, List.cons_append] at later ⊢
    rw [Search.firstAt_append_of_notMem first, Search.firstAt_cons_of_not_prefix,
      Search.firstAt_cons_of_not_prefix, later]
    · simp only [Option.map_some, headerBlock_length_cons, List.length_cons] at nextSize ⊢
      congr 1
      omega
    · simp [List.cons_prefix_cons]
    · rw [headerBlock_cons]
      simp [List.cons_prefix_cons, other.symm]

end Lines

section Numbers

theorem isSpace_of_blank {byte : UInt8} (found : blank byte = true) : isSpace byte = true := by
  simp only [blank, Bool.or_eq_true, decide_eq_true_eq] at found
  rcases found with rfl | rfl <;> decide

theorem not_isSpace_of_isDigit {byte : UInt8} (digit : isDigit byte = true) :
    isSpace byte = false := by
  simp only [isDigit, isSpace, Bool.and_eq_true, decide_eq_true_eq, Bool.or_eq_false_iff,
    Bool.and_eq_false_iff, decide_eq_false_iff_not, UInt8.le_iff_toNat_le, ← UInt8.toNat_inj] at *
  have spaces : (32 : UInt8).toNat = 32 ∧ (13 : UInt8).toNat = 13 ∧ (48 : UInt8).toNat = 48 := by decide
  omega

/-- The digits that follow the blanks are read up to where they end. -/
theorem strtoul_digits {blanks digits after : List UInt8} (leading : ∀ byte ∈ blanks, isSpace byte)
    (all : ∀ byte ∈ digits, isDigit byte) (nonempty : digits ≠ [])
    (ends : after.takeWhile isDigit = []) :
    strtoul (blanks ++ (digits ++ after)) = Option.some (min (decimal digits) sizeMax) := by
  have start : (blanks ++ (digits ++ after)).dropWhile isSpace = digits ++ after := by
    rw [List.dropWhile_append_of_pos leading]
    obtain ⟨digit, more, rfl⟩ := List.exists_cons_of_ne_nil nonempty
    exact List.dropWhile_cons_of_neg (by simp [not_isSpace_of_isDigit (all digit (by simp))])
  have unsigned : ∀ sign : UInt8, isDigit sign = false → (digits ++ after).head? ≠ Option.some sign := by
    intro sign other same
    obtain ⟨digit, more, rfl⟩ := List.exists_cons_of_ne_nil nonempty
    rw [List.cons_append, List.head?_cons, Option.some.injEq] at same
    have digits := all digit (by simp)
    rw [same, other] at digits
    cases digits
  have read : (digits ++ after).takeWhile isDigit = digits := by
    rw [List.takeWhile_append_of_pos all, ends, List.append_nil]
  rw [strtoul, start]
  simp only [unsigned 45 rfl, unsigned 43 rfl, or_self, if_false, read, nonempty]
  split
  · rw [Nat.min_eq_right (by omega)]
  · rw [Nat.min_eq_left (by omega)]

theorem Field.strtoul_value (f : Field) (rest : List UInt8) {n : Nat} (number : f.number = some n) :
    strtoul (f.value ++ 13 :: rest) = some (min n sizeMax) := by
  rw [Field.number] at number
  split at number
  · rename_i found
    obtain ⟨digits, trailing⟩ := found
    rw [List.all_eq_true] at trailing
    have parts : f.value ++ 13 :: rest = f.value.takeWhile blank ++
        ((f.value.dropWhile blank).takeWhile isDigit ++
          ((f.value.dropWhile blank).dropWhile isDigit ++ 13 :: rest)) := by
      rw [← List.append_assoc ((f.value.dropWhile blank).takeWhile isDigit),
        List.takeWhile_append_dropWhile, ← List.append_assoc, List.takeWhile_append_dropWhile]
    rw [parts, strtoul_digits _ _ digits, Option.some.inj number]
    · cases tail : (f.value.dropWhile blank).dropWhile isDigit with
      | nil => rfl
      | cons byte more =>
        have other : isDigit byte = false := by
          have first := @List.head_dropWhile_not _ isDigit (f.value.dropWhile blank) (by rw [tail]; simp)
          simpa only [tail, List.head_cons] using first
        rw [List.cons_append, List.takeWhile_cons_of_neg (by simp [other])]
    · intro byte member
      exact isSpace_of_blank (List.mem_takeWhile_imp member)
    · intro byte member
      exact List.mem_takeWhile_imp member
  · cases number

end Numbers

section Declared

theorem headerLength_append {front back : List UInt8} (separator : Nat)
    (passes : Search.firstAt lengthKey (front ++ back) =
      (Search.firstAt lengthKey back).map (· + front.length)) :
    headerLength (front ++ back) (front.length + separator) = headerLength back separator := by
  rw [headerLength, headerLength, passes, Option.bind_map]
  congr 1
  funext field
  have same : (front ++ back).drop (field + front.length + 17) = back.drop (field + 17) := by
    rw [Nat.add_right_comm, Nat.add_comm, ← List.drop_drop, List.drop_left]
  have order : field + front.length < front.length + separator ↔ field < separator := by omega
  simp only [Function.comp_apply, same, order]

theorem Field.key_isPrefix_iff (f : Field) (rest : List UInt8) :
    ascii "Content-Length:" <+: f.line ++ rest ↔ f.isSpelled = true := by
  have free : 58 ∉ f.name := fun member => (f.name_plain 58 member).2 rfl
  have absent : 58 ∉ ascii "Content-Length" := by decide
  have marked : ascii "Content-Length:" = ascii "Content-Length" ++ [58] := by decide
  rw [marked, Field.line, List.append_assoc, List.cons_append, Search.marked_isPrefix_iff absent free,
    Field.isSpelled, decide_eq_true_eq]
  exact eq_comm

theorem Field.break_notMem (f : Field) : 13 ∉ f.line := by
  intro member
  rw [Field.line, List.mem_append, List.mem_cons] at member
  rcases member with name | colon | value
  · exact absurd (f.name_plain 13 name).1 (by decide)
  · exact absurd colon (by decide)
  · exact absurd (f.value_plain 13 value) (by decide)

theorem Field.isLength_of_isSpelled {f : Field} (spelled : f.isSpelled = true) : f.isLength = true := by
  rw [Field.isSpelled, decide_eq_true_eq] at spelled
  rw [Field.isLength, spelled]
  decide

/-- Behind the status line, the reader takes the first field that is spelled as it wants it. -/
theorem headerLength_fields (fields : List Field) (rest : List UInt8)
    (numbers : ∀ f ∈ fields, f.isLength → f.number.isSome) :
    headerLength (13 :: 10 :: (headerBlock (fields.map Field.line) ++ rest))
        ((headerBlock (fields.map Field.line)).length - 2) =
      (fields.find? Field.isSpelled).bind fun f => f.number.map (min · sizeMax) := by
  induction fields with
  | nil =>
    rw [headerLength, Option.bind_eq_none_iff.mpr]
    · rfl
    · intro field _
      rw [if_neg (by simp [headerBlock, crlf])]
  | cons f fields ih =>
    have later := ih fun g member => numbers g (by simp [member])
    have size := @headerBlock_length_cons f.line (fields.map Field.line)
    have enough := @two_le_headerBlock_length (fields.map Field.line)
    rw [List.map_cons, headerBlock_cons, List.find?_cons]
    cases spelled : f.isSpelled with
    | true =>
      have here : lengthKey <+: 13 :: 10 ::
          (f.line ++ 13 :: 10 :: (headerBlock (fields.map Field.line) ++ rest)) := by
        rw [lengthKey, crlf, List.cons_append, List.cons_append, List.nil_append,
          List.cons_prefix_cons, List.cons_prefix_cons]
        exact ⟨rfl, rfl, (f.key_isPrefix_iff _).mpr spelled⟩
      have value : (13 :: 10 :: (f.line ++ 13 :: 10 :: (headerBlock (fields.map Field.line) ++ rest))).drop
          17 = f.value ++ 13 :: 10 :: (headerBlock (fields.map Field.line) ++ rest) := by
        rw [Field.isSpelled, decide_eq_true_eq] at spelled
        rw [Field.line, spelled]
        rfl
      obtain ⟨n, number⟩ := Option.isSome_iff_exists.mp
        (numbers f (by simp) (Field.isLength_of_isSpelled spelled))
      rw [headerLength, Search.firstAt_of_prefix here, Option.bind_some, if_pos (by omega), Nat.zero_add,
        value, f.strtoul_value _ number, Option.bind_some, number, Option.map_some]
    | false =>
      have elsewhere : ¬ lengthKey <+: 13 :: 10 ::
          (f.line ++ 13 :: 10 :: (headerBlock (fields.map Field.line) ++ rest)) := by
        rw [lengthKey, crlf, List.cons_append, List.cons_append, List.nil_append,
          List.cons_prefix_cons, List.cons_prefix_cons, f.key_isPrefix_iff, spelled]
        simp
      have passes : Search.firstAt lengthKey ((13 :: 10 :: f.line) ++
          13 :: 10 :: (headerBlock (fields.map Field.line) ++ rest)) =
          (Search.firstAt lengthKey (13 :: 10 :: (headerBlock (fields.map Field.line) ++ rest))).map
            (· + (13 :: 10 :: f.line).length) := by
        rw [List.cons_append, List.cons_append, Search.firstAt_cons_of_not_prefix elsewhere,
          Search.firstAt_cons_of_not_prefix (by simp [lengthKey, crlf, List.cons_prefix_cons])]
        rw [lengthKey, crlf, List.cons_append, Search.firstAt_append_of_notMem f.break_notMem,
          Option.map_map, Option.map_map]
        rfl
      have shifted : (headerBlock (f.line :: fields.map Field.line)).length - 2 =
          (13 :: 10 :: f.line).length + ((headerBlock (fields.map Field.line)).length - 2) := by
        rw [size, List.length_cons, List.length_cons]
        omega
      rw [shifted]
      exact (headerLength_append _ passes).trans later

end Declared

namespace Response

variable (r : Response) (rest : List UInt8)

theorem status_plain : ∀ byte ∈ r.status, plain byte := by
  have digit : ∀ byte : UInt8, isDigit byte → plain byte := by
    intro byte found
    simp only [plain, Bool.and_eq_true, decide_eq_true_eq]
    refine ⟨⟨?_, ?_⟩, ?_⟩ <;> rintro rfl <;> exact absurd found (by decide)
  intro byte member
  simp only [status, statusLine, List.mem_append, List.mem_cons, List.not_mem_nil, or_false] at member
  rcases member with (((version | rfl) | space) | rfl | rfl) | reason
  · exact (by decide +kernel : ∀ b ∈ ascii "HTTP/1.", plain b) byte version
  · exact digit _ r.digits.1
  · exact (by decide +kernel : ∀ b ∈ ascii " 2", plain b) byte space
  · exact digit _ r.digits.2.1
  · exact digit _ r.digits.2.2
  · exact r.reason_plain byte reason

theorem status_break : 13 ∉ r.status := fun member => absurd (r.status_plain 13 member) (by decide)

theorem header_ne_zero : ∀ byte ∈ r.header, byte ≠ 0 := by
  rintro _ member rfl
  have inLine : ∀ line : List UInt8, (0 : UInt8) ∈ line ++ crlf → (0 : UInt8) ∈ line := by
    intro line found
    rcases List.mem_append.mp found with inside | outside
    · exact inside
    · exact absurd outside (by decide)
  rw [header, headerBlock, List.mem_append, List.mem_flatMap] at member
  rcases member with ⟨line, source, found⟩ | last
  · rcases List.mem_cons.mp source with rfl | field
    · exact absurd (r.status_plain 0 (inLine _ found)) (by decide)
    · obtain ⟨f, _, rfl⟩ := List.mem_map.mp field
      have byte := inLine _ found
      rw [Field.line, List.mem_append, List.mem_cons] at byte
      rcases byte with name | colon | value
      · exact absurd (f.name_plain 0 name).1 (by decide)
      · exact absurd colon (by decide)
      · exact absurd (f.value_plain 0 value) (by decide)
  · exact absurd last (by decide)

theorem cString_header : cString (r.header ++ rest) = r.header ++ cString rest :=
  List.takeWhile_append_of_pos fun byte member => by simpa using r.header_ne_zero byte member

theorem cString_header_take (k : Nat) : cString (r.header.take k) = r.header.take k := by
  rw [cString, List.takeWhile_eq_self_iff]
  intro byte member
  simpa using r.header_ne_zero byte (List.mem_of_mem_take member)

theorem firstAt_header :
    Search.firstAt blankLine (r.header ++ rest) = some (r.header.length - 4) := by
  apply firstAt_blankLine r.status_break
  · intro line member
    obtain ⟨f, _, rfl⟩ := List.mem_map.mp member
    exact f.break_notMem
  · intro line member
    obtain ⟨f, _, rfl⟩ := List.mem_map.mp member
    simp [Field.line]

theorem header_length : 16 ≤ r.header.length := by
  rw [header, headerBlock_length_cons]
  have size := @two_le_headerBlock_length (r.fields.map Field.line)
  have version : (ascii "HTTP/1.").length = 7 ∧ (ascii " 2").length = 2 := by decide
  simp only [status, statusLine, List.length_append, version, List.length_cons, List.length_nil]
  omega

/-- The checks on the status line. -/
theorem status_accepted : (r.header ++ rest).take 7 = ascii "HTTP/1." ∧
    (r.header ++ rest).getD 9 0 = 50 :=
  ⟨rfl, rfl⟩

theorem contentLength_of_mem {f : Field} (member : f ∈ r.fields) (named : f.isLength = true) :
    r.contentLength = f.number := by
  cases found : r.fields.find? Field.isLength with
  | none => exact absurd named (List.find?_eq_none.mp found f member)
  | some g =>
    rw [contentLength, found, Option.bind_some]
    exact r.agree g (List.mem_of_find?_eq_some found) f member (List.find?_some found) named

/-- What the reader makes of the header block: the declared length, if it is spelled so. -/
theorem headerLength_header : headerLength (r.header ++ rest) (r.header.length - 4) =
    if r.spelled then r.contentLength.map (min · sizeMax) else none := by
  have size := @headerBlock_length_cons r.status (r.fields.map Field.line)
  have enough := @two_le_headerBlock_length (r.fields.map Field.line)
  have passes : r.header.length - 4 =
      r.status.length + ((headerBlock (r.fields.map Field.line)).length - 2) := by
    rw [header, size]
    omega
  rw [passes, header, headerBlock_cons, headerLength_append _ (Search.firstAt_append_of_notMem r.status_break),
    headerLength_fields _ _ r.numbers]
  cases found : r.fields.find? Field.isSpelled with
  | none =>
    have absent : r.spelled = false := by
      rw [spelled, List.any_eq_false]
      exact List.find?_eq_none.mp found
    rw [absent]
    rfl
  | some f =>
    have member := List.mem_of_find?_eq_some found
    have present : r.spelled = true := List.any_eq_true.mpr ⟨f, member, List.find?_some found⟩
    rw [present, if_pos rfl, Option.bind_some,
      r.contentLength_of_mem member (Field.isLength_of_isSpelled (List.find?_some found))]

theorem contentLength_isSome_of_spelled (present : r.spelled = true) : r.contentLength.isSome := by
  obtain ⟨f, member, named⟩ := List.any_eq_true.mp present
  have length := Field.isLength_of_isSpelled named
  rw [r.contentLength_of_mem member length]
  exact r.numbers f member length

end Response

end Pi1MHz.Http
