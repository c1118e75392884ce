import Pi1MHz.Foundation.Conduit
import Pi1MHz.Ftp.Emulator
import Pi1MHz.Ftp.Replies
import Pi1MHz.Ftp.Service

/-! Replies that arrive in pieces. However the control stream is cut and whenever `ftp_reply` is
called, its successful calls return the replies one by one, as the emulator's blocking reader does. -/
namespace Pi1MHz.FtpService

section Turns

/-- A segment arrives, or `ftp_reply` is called. -/
inductive Turn
  | receive (bytes : List UInt8)
  | call
deriving DecidableEq, Repr

def Ftp.turn (ftp : Ftp) : Turn → Ftp
  | .receive bytes => ftpControlReceive ftp (.payload bytes)
  | .call => ((ftpReply ftp).map Prod.snd).getD ftp

/-- What a turn answers: a call, the code and the text it left, or nothing. -/
def Ftp.answers (ftp : Ftp) : Turn → List (Option (Nat × List UInt8))
  | .receive _ => []
  | .call => [(ftpReply ftp).map fun found => (found.1, found.2.lastReply)]

/-- The unread text stays below the capacity of its buffer. -/
def Ftp.Room (ftp : Ftp) : Turn → Prop
  | .receive bytes => ftp.controlText.length + bytes.length < ftpControlCapacity
  | .call => True

def Turn.bytes : Turn → List UInt8
  | .receive bytes => bytes
  | .call => []

/-- The stream that a run has received. -/
def arrived (turns : List Turn) : List UInt8 := turns.flatMap Turn.bytes

/-- A reply as it is returned. -/
def Reply.summary (r : Reply) : Nat × List UInt8 := (r.code, r.encode.take ftpTextMax)

/-- The answers of a client that takes a reply at a call as soon as it is whole; `unread` bytes
have arrived and are not taken. -/
def expected : List Reply → Nat → List Turn → List (Option (Nat × List UInt8))
  | _, _, [] => []
  | replies, unread, .receive bytes :: turns => expected replies (unread + bytes.length) turns
  | [], unread, .call :: turns => none :: expected [] unread turns
  | r :: replies, unread, .call :: turns =>
    if r.encode.length ≤ unread then
      some r.summary :: expected replies (unread - r.encode.length) turns
    else none :: expected (r :: replies) unread turns

end Turns

section Search
variable {text wire : List UInt8} {replies : List Reply}

theorem encodeAll_cons (r : Reply) (replies : List Reply) :
    encodeAll (r :: replies) = r.encode ++ encodeAll replies := rfl

/-- A reply is found at the front of a stream exactly when it is whole. -/
theorem scanReply_whole {r : Reply} (stream : text ++ wire = encodeAll (r :: replies)) :
    scanReply text 0 0 0 =
      if r.encode.length ≤ text.length then some (r.code, r.encode.length) else none := by
  split
  next whole =>
    have front : r.encode <+: text := by
      rw [encodeAll_cons] at stream
      exact List.prefix_of_prefix_length_le (stream ▸ List.prefix_append _ _)
        (List.prefix_append text wire) whole
    obtain ⟨rest, rfl⟩ := front
    exact scanReply_encode rest r
  next short =>
    by_contra complete
    obtain ⟨⟨code, length⟩, found⟩ := Option.ne_none_iff_exists'.mp complete
    obtain ⟨first, others, same, -, taken, -⟩ := scanReply_stream stream found
    cases same
    have size := congrArg List.length taken
    rw [List.length_take] at size
    omega

end Search

section Runs
variable {ftp : Ftp} {wire : List UInt8} {replies : List Reply}

theorem ftpReply_none_of_short {r : Reply}
    (stream : ftp.controlText ++ wire = encodeAll (r :: replies))
    (short : ¬r.encode.length ≤ ftp.controlText.length) : ftpReply ftp = none := by
  rw [ftpReply, scanReply_whole stream, if_neg short]
  rfl

/-- The call that finds a whole reply takes it and leaves what follows. -/
theorem ftpReply_of_whole {r : Reply}
    (stream : ftp.controlText ++ wire = encodeAll (r :: replies))
    (whole : r.encode.length ≤ ftp.controlText.length) :
    ∃ rest, ftp.controlText = r.encode ++ rest ∧ rest ++ wire = encodeAll replies ∧
      ftpReply ftp = some (r.code, { ftp with lastReply := r.encode.take ftpTextMax, controlText := rest }) := by
  have found := scanReply_whole stream
  rw [if_pos whole] at found
  obtain ⟨first, others, same, -, taken, left⟩ := scanReply_stream stream found
  cases same
  refine ⟨ftp.controlText.drop r.encode.length, ?_, left, ?_⟩
  · rw [← taken, List.length_take, Nat.min_eq_left whole, List.take_append_drop]
  · rw [ftpReply, found]
    simp [taken]

theorem arrived_receive (bytes : List UInt8) (turns : List Turn) :
    arrived (.receive bytes :: turns) = bytes ++ arrived turns := rfl

theorem arrived_call (turns : List Turn) : arrived (.call :: turns) = arrived turns := rfl

/-- The answers of a run are the expected ones, and its successful calls have taken replies from
the front of the stream, the text behind them being left. -/
structure Answered (ftp : Ftp) (replies : List Reply) (turns : List Turn) : Prop where
  answers : Conduit.traffic Ftp.turn Ftp.answers ftp turns =
    expected replies ftp.controlText.length turns
  taken : ∃ taken left, replies = taken ++ left ∧
    (Conduit.traffic Ftp.turn Ftp.answers ftp turns).filterMap id = taken.map Reply.summary ∧
    ftp.controlText ++ arrived turns =
      encodeAll taken ++ (Conduit.run Ftp.turn ftp turns).controlText

theorem Answered.nil : Answered ftp replies [] where
  answers := by rw [expected]; rfl
  taken := ⟨[], replies, rfl, rfl, by simp [arrived, encodeAll, Conduit.run]⟩

theorem turn_receive {bytes : List UInt8} (fits : ftp.Room (.receive bytes)) :
    (ftp.turn (.receive bytes)).controlText = ftp.controlText ++ bytes := by
  rw [Ftp.turn, ftpControlReceive, if_neg (Nat.not_le.mpr fits)]

theorem Answered.receive {bytes : List UInt8} {turns : List Turn}
    (fits : ftp.Room (.receive bytes))
    (later : Answered (ftp.turn (.receive bytes)) replies turns) :
    Answered ftp replies (.receive bytes :: turns) := by
  obtain ⟨answers, taken, left, split, successes, text⟩ := later
  rw [turn_receive fits, List.length_append] at answers
  rw [turn_receive fits, List.append_assoc] at text
  exact ⟨answers, taken, left, split, successes, text⟩

/-- A call that finds nothing leaves everything as it is. -/
theorem turn_missing (missing : ftpReply ftp = none) :
    ftp.turn .call = ftp ∧ ftp.answers .call = [none] := by
  rw [Ftp.turn, Ftp.answers, missing]
  exact ⟨rfl, rfl⟩

theorem Answered.missed {turns : List Turn} (missing : ftpReply ftp = none)
    (waits : expected replies ftp.controlText.length (.call :: turns) =
      none :: expected replies ftp.controlText.length turns)
    (later : Answered (ftp.turn .call) replies turns) : Answered ftp replies (.call :: turns) := by
  obtain ⟨same, first⟩ := turn_missing missing
  rw [same] at later
  obtain ⟨answers, taken, left, split, successes, text⟩ := later
  constructor
  · rw [Conduit.traffic, first, same, answers, waits]
    rfl
  · refine ⟨taken, left, split, ?_, ?_⟩
    · rw [Conduit.traffic, first, same]
      exact successes
    · rw [arrived_call, text]
      simp only [Conduit.run, List.foldl_cons, same]

theorem Answered.found {r : Reply} {turns : List Turn} {rest : List UInt8}
    (own : ftp.controlText = r.encode ++ rest)
    (found : ftpReply ftp =
      some (r.code, { ftp with lastReply := r.encode.take ftpTextMax, controlText := rest }))
    (later : Answered (ftp.turn .call) replies turns) :
    Answered ftp (r :: replies) (.call :: turns) := by
  have kept : (ftp.turn .call).controlText = rest := by
    rw [Ftp.turn, found]
    rfl
  have first : ftp.answers .call = [some r.summary] := by
    rw [Ftp.answers, found]
    rfl
  have whole : r.encode.length ≤ ftp.controlText.length := by
    rw [own, List.length_append]
    omega
  have size : ftp.controlText.length - r.encode.length = rest.length := by
    rw [own, List.length_append]
    omega
  obtain ⟨answers, taken, left, split, successes, text⟩ := later
  rw [kept] at answers text
  constructor
  · rw [Conduit.traffic, first, expected, if_pos whole, size, ← answers]
    rfl
  · refine ⟨r :: taken, left, by rw [split]; rfl, ?_, ?_⟩
    · rw [Conduit.traffic, first, List.singleton_append, List.map_cons, ← successes]
      rfl
    · rw [own, arrived_call, List.append_assoc, text, encodeAll_cons, List.append_assoc]
      rfl

theorem run_answers {turns : List Turn} (room : Conduit.Follows Ftp.turn Ftp.Room ftp turns)
    (stream : ftp.controlText ++ arrived turns ++ wire = encodeAll replies) :
    Answered ftp replies turns := by
  induction turns generalizing ftp replies with
  | nil => exact .nil
  | cons turn turns ih =>
    obtain ⟨fits, room⟩ := room
    cases turn with
    | receive bytes =>
      rw [arrived_receive, ← List.append_assoc] at stream
      exact .receive fits (ih room (by rw [turn_receive fits]; exact stream))
    | call =>
      rw [arrived_call] at stream
      cases replies with
      | nil =>
        obtain ⟨empty, -⟩ : ftp.controlText = [] ∧ arrived turns = [] ∧ wire = [] := by
          simpa [encodeAll] using stream
        have missing : ftpReply ftp = none := by
          rw [ftpReply, empty, scanReply]
          rfl
        exact .missed missing rfl (ih room (by rw [(turn_missing missing).1]; exact stream))
      | cons r replies =>
        rw [List.append_assoc] at stream
        by_cases whole : r.encode.length ≤ ftp.controlText.length
        · obtain ⟨rest, own, later, found⟩ := ftpReply_of_whole stream whole
          refine .found own found (ih room ?_)
          rw [Ftp.turn, found, List.append_assoc]
          exact later
        · have missing := ftpReply_none_of_short stream whole
          rw [← List.append_assoc] at stream
          refine .missed missing ?_ (ih room (by rw [(turn_missing missing).1]; exact stream))
          rw [expected, if_neg whole]

end Runs

end Pi1MHz.FtpService

namespace Pi1MHz.FtpEmulator
open FtpService (Reply Printable codeDigits crlf isDigit digitValue encodeAll)

section Lines
variable {line bytes wire : List UInt8} {multiline : Nat}

theorem keep_take (limit : Nat) (seen : List UInt8) (byte : UInt8) :
    keep limit (seen.take limit) byte = (seen ++ [byte]).take limit := by
  rw [keep, List.length_take]
  split
  next room =>
    rw [List.take_of_length_le (by omega), List.take_of_length_le (by simp; omega)]
  next full => rw [List.take_append_of_le_length (by omega)]

/-- The bytes of a line are collected. -/
theorem readLoop_collect (inside : ∀ byte ∈ bytes, byte ≠ 10) (seen text : List UInt8) :
    readLoop ⟨seen.take (lineSize - 1), text.take ftpText, multiline⟩ (bytes ++ wire) =
      readLoop ⟨(seen ++ bytes).take (lineSize - 1), (text ++ bytes).take ftpText, multiline⟩ wire := by
  induction bytes generalizing seen text with
  | nil => simp
  | cons byte bytes ih =>
    have later := ih (fun other member => inside other (by simp [member])) (seen ++ [byte])
      (text ++ [byte])
    rw [List.cons_append, readLoop, if_pos (inside byte (by simp))]
    simp only [keep_take, later, List.append_assoc, List.singleton_append]

/-- The line feed at the end of a line. -/
theorem readLoop_line (printable : Printable line) (text : List UInt8) :
    readLoop ⟨[], text.take ftpText, multiline⟩ (line ++ crlf ++ wire) =
      match endLine ((line ++ crlf).take (lineSize - 1)) multiline with
      | .inl code => some (code, (text ++ (line ++ crlf)).take ftpText, wire)
      | .inr multiline => readLoop ⟨[], (text ++ (line ++ crlf)).take ftpText, multiline⟩ wire := by
  have inside : ∀ byte ∈ line ++ [13], byte ≠ 10 := by
    intro byte member same
    rcases List.mem_append.mp member with inLine | last
    · exact absurd (printable byte inLine) (by rw [same]; decide)
    · rw [List.mem_singleton.mp last] at same
      cases same
  have split : line ++ crlf ++ wire = (line ++ [13]) ++ 10 :: wire := by simp [crlf]
  have collected := @readLoop_collect (line ++ [13]) (10 :: wire) multiline inside [] text
  rw [List.take_nil] at collected
  rw [split, collected, readLoop, if_neg (by decide)]
  simp only [keep_take, List.nil_append, List.append_assoc, List.singleton_append]
  rfl

theorem lineCode_take (limit : Nat) (long : 4 ≤ limit) (line : List UInt8) :
    lineCode (line.take limit) = lineCode line := by
  obtain ⟨more, rfl⟩ := Nat.exists_eq_add_of_le' long
  match line with
  | [] => rfl
  | [_] => rfl
  | [_, _] => rfl
  | [_, _, _] => rfl
  | _ :: _ :: _ :: _ :: _ => rfl

/-- The first line of a reply shows its code, whatever ends the line. -/
theorem lineCode_codeDigits {code : Nat} (range : 100 ≤ code ∧ code < 600) (separator : UInt8)
    (text : List UInt8) :
    lineCode (codeDigits code ++ separator :: text) = some (code, separator) := by
  have hundreds : code / 100 < 10 := by omega
  have tens : code / 10 % 10 < 10 := by omega
  have ones : code % 10 < 10 := by omega
  simp only [codeDigits, List.cons_append, List.nil_append, lineCode, FtpService.isDigit_digit hundreds,
    FtpService.isDigit_digit tens, FtpService.isDigit_digit ones, Bool.and_self, if_true,
    FtpService.digitValue_digit hundreds, FtpService.digitValue_digit tens,
    FtpService.digitValue_digit ones]
  congr 2
  omega

/-- A code with a space behind it stands in the line itself, not across its end. -/
theorem lineCode_crlf {code : Nat} (shown : lineCode (line ++ crlf) = some (code, 32)) :
    lineCode line = some (code, 32) := by
  have noDigit : isDigit 13 = false := by decide
  match line with
  | [] => cases shown
  | [_] => cases shown
  | [first, second] => simp [lineCode, crlf, noDigit] at shown
  | [first, second, third] => simp [lineCode, crlf] at shown
  | _ :: _ :: _ :: _ :: _ => exact shown

theorem lineCode_starts {code : Nat} {separator : UInt8}
    (shown : lineCode line = some (code, separator)) : (codeDigits code ++ [separator]) <+: line := by
  match line with
  | [] => cases shown
  | [_] => cases shown
  | [_, _] => cases shown
  | [_, _, _] => cases shown
  | first :: second :: third :: fourth :: rest =>
    simp only [lineCode] at shown
    split at shown
    swap
    · cases shown
    next digits =>
      simp only [Bool.and_eq_true] at digits
      obtain ⟨rfl, rfl⟩ : _ = code ∧ fourth = separator := by simpa using shown
      rw [FtpService.codeDigits_digits digits.1.1 digits.1.2 digits.2]
      exact ⟨rest, rfl⟩

/-- A line that does not start with the code and a space does not end the reply. -/
theorem endLine_inner {code : Nat} (opened : code ≠ 0) (other : ¬(codeDigits code ++ [32]) <+: line) :
    endLine (line ++ crlf) code = .inr code := by
  rw [endLine]
  split
  · rfl
  next found separator shown =>
    rw [if_neg (fun first => opened first.1), if_neg]
    rintro ⟨rfl, closed | rfl⟩
    · exact opened closed
    · exact other (lineCode_starts (lineCode_crlf shown))

theorem endLine_lastLine (r : Reply) (settled : multiline = 0 ∨ multiline = r.code) :
    endLine (r.lastLine ++ crlf) multiline = .inl r.code := by
  have shown : lineCode (r.lastLine ++ crlf) = some (r.code, 32) := by
    rw [Reply.lastLine, List.append_assoc, List.cons_append, lineCode_codeDigits r.range]
  rw [endLine, shown]
  simp only [show ¬(32 : UInt8) = 45 by decide, and_false, if_false, true_and]
  rw [if_pos (settled.imp id Eq.symm)]

theorem endLine_take (limit : Nat) (long : 4 ≤ limit) (line : List UInt8) (multiline : Nat) :
    endLine (line.take limit) multiline = endLine line multiline := by
  rw [endLine, endLine, lineCode_take limit long]

theorem readLoop_inner {code : Nat} (opened : code ≠ 0) {inner : List (List UInt8)}
    (lines : ∀ line ∈ inner, Printable line ∧ ¬(codeDigits code ++ [32]) <+: line)
    (text : List UInt8) :
    readLoop ⟨[], text.take ftpText, code⟩ (inner.flatMap (· ++ crlf) ++ wire) =
      readLoop ⟨[], (text ++ inner.flatMap (· ++ crlf)).take ftpText, code⟩ wire := by
  induction inner generalizing text with
  | nil => simp
  | cons line inner ih =>
    obtain ⟨printable, other⟩ := lines line (by simp)
    have later := ih (fun line member => lines line (by simp [member])) (text ++ (line ++ crlf))
    rw [List.flatMap_cons, List.append_assoc, readLoop_line printable,
      endLine_take _ (by decide), endLine_inner opened other]
    simp only [later, List.append_assoc]

/-- The blocking reader returns a reply whole and nothing behind it. -/
theorem readReply_encode (r : Reply) (wire : List UInt8) :
    readReply (r.encode ++ wire) = some (r.code, r.encode.take ftpText, wire) := by
  have last : ∀ (text : List UInt8) (multiline : Nat), multiline = 0 ∨ multiline = r.code →
      readLoop ⟨[], text.take ftpText, multiline⟩ (r.lastLine ++ crlf ++ wire) =
        some (r.code, (text ++ (r.lastLine ++ crlf)).take ftpText, wire) := by
    intro text multiline settled
    have printable : Printable r.lastLine :=
      FtpService.printable_coded r.range (by decide) r.printable
    rw [readLoop_line printable, endLine_take _ (by decide), endLine_lastLine r settled]
  rw [readReply, Reply.encode]
  split
  next single => exact last [] 0 (.inl rfl)
  next first inner several =>
    obtain ⟨printable, lines⟩ := r.opening_printable first inner several
    have opened : r.code ≠ 0 := by
      have := r.range
      omega
    have visible : Printable (codeDigits r.code ++ 45 :: first) :=
      FtpService.printable_coded r.range (by decide) printable
    have opens : endLine (codeDigits r.code ++ 45 :: first ++ crlf) 0 = .inr r.code := by
      rw [endLine, List.append_assoc, List.cons_append, lineCode_codeDigits r.range]
      rfl
    have begins := @readLoop_line _ (inner.flatMap (· ++ crlf) ++ (r.lastLine ++ crlf ++ wire)) 0 visible []
    rw [endLine_take _ (by decide), opens, List.take_nil] at begins
    have whole : codeDigits r.code ++ 45 :: first ++ crlf ++
        (inner.flatMap (· ++ crlf) ++ (r.lastLine ++ crlf)) ++ wire =
        codeDigits r.code ++ 45 :: first ++ crlf ++
          (inner.flatMap (· ++ crlf) ++ (r.lastLine ++ crlf ++ wire)) := by simp
    rw [whole, begins]
    simp only
    rw [readLoop_inner opened lines, last _ r.code (.inr rfl)]
    simp only [List.nil_append, List.append_assoc]

/-- Successive replies from a stream, with what is left of it. -/
def readReplies : Nat → List UInt8 → Option (List (Nat × List UInt8) × List UInt8)
  | 0, wire => some ([], wire)
  | count + 1, wire =>
    (readReply wire).bind fun first =>
      (readReplies count first.2.2).map fun later => ((first.1, first.2.1) :: later.1, later.2)

theorem readReplies_encodeAll (replies : List Reply) (wire : List UInt8) :
    readReplies replies.length (encodeAll replies ++ wire) =
      some (replies.map Reply.summary, wire) := by
  induction replies with
  | nil => rfl
  | cons r replies ih =>
    rw [FtpService.encodeAll_cons, List.append_assoc, List.length_cons, readReplies, readReply_encode]
    simp only [Option.bind_some, ih, Option.map_some]
    rfl

end Lines

end Pi1MHz.FtpEmulator

namespace Pi1MHz.FtpService

/-- Replies cut into any segments, with calls at any points: every call answers as if it took a
reply once it is whole, the successful ones return the replies in order and leave the text behind
them, and the blocking reader returns the same from the same bytes. -/
theorem replies_segmented {ftp : Ftp} (fresh : ftp.controlText = []) {turns : List Turn}
    (room : Conduit.Follows Ftp.turn Ftp.Room ftp turns) {replies : List Reply} {wire : List UInt8}
    (stream : arrived turns ++ wire = encodeAll replies) :
    let answers := Conduit.traffic Ftp.turn Ftp.answers ftp turns
    let unread := (Conduit.run Ftp.turn ftp turns).controlText
    answers = expected replies 0 turns ∧
      ∃ taken left, replies = taken ++ left ∧ answers.filterMap id = taken.map Reply.summary ∧
        arrived turns = encodeAll taken ++ unread ∧
        FtpEmulator.readReplies taken.length (arrived turns) = some (answers.filterMap id, unread) := by
  intro answers unread
  obtain ⟨exact, taken, left, split, successes, text⟩ :=
    run_answers room (by rw [fresh]; exact stream)
  rw [fresh] at exact text
  refine ⟨exact, taken, left, split, successes, text, ?_⟩
  have same : arrived turns = encodeAll taken ++ unread := text
  rw [same, FtpEmulator.readReplies_encodeAll, successes]

/-- A greeting of three lines and an answer, cut inside a code and inside the ends of two lines. -/
def sampleStream : List Reply :=
  [⟨230, ascii "welcome", some (ascii "hello", [ascii "231 no"]), by decide +kernel,
      by decide +kernel, by
      rintro first inner ⟨⟩
      decide +kernel⟩,
    .single 229 (ascii "ok") (by decide +kernel) (by decide +kernel)]

def sampleTurns : List Turn :=
  [.receive (ascii "230-hello\r"), .call, .receive (ascii "\n231 no\r\n23"), .call,
    .receive (ascii "0 welcome\r\n229 ok\r"), .call, .call, .receive (ascii "\n"), .call]

theorem replies_segmented_sample :
    let answers := Conduit.traffic Ftp.turn Ftp.answers ftpReset sampleTurns
    answers = expected sampleStream 0 sampleTurns ∧
      expected sampleStream 0 sampleTurns =
        [none, none, some (230, ascii "230-hello\r\n231 no\r\n230 welcome\r\n"), none,
          some (229, ascii "229 ok\r\n")] := by
  have room : Conduit.Follows Ftp.turn Ftp.Room ftpReset sampleTurns := by
    simp only [sampleTurns, Conduit.Follows, Ftp.Room, and_true, true_and]
    decide +kernel
  exact ⟨(@replies_segmented ftpReset rfl sampleTurns room sampleStream [] (by decide +kernel)).1,
    by decide +kernel⟩

end Pi1MHz.FtpService
