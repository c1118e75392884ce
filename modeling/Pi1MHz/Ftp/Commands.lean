import Pi1MHz.Ftp.Emulator
import Pi1MHz.Ftp.Polls

/-! Requests made into command lines. The service looks for its words in the upper-cased request,
the emulator compares the first word whatever its case; both are compared with one table. -/
namespace Pi1MHz.FtpService

section Words

/-- The upper-casing of `ftp_upper_word`, of one byte. -/
def upper (byte : UInt8) : UInt8 := if 97 ≤ byte && byte ≤ 122 then byte - 32 else byte

theorem lower_upper (byte : UInt8) : lower (upper byte) = lower byte := by
  simp only [lower, upper, Bool.and_eq_true, decide_eq_true_eq]
  grind

theorem upper_lower (byte : UInt8) : upper (lower byte) = upper byte := by
  simp only [lower, upper, Bool.and_eq_true, decide_eq_true_eq]
  grind

theorem upper_eq_space {byte : UInt8} : upper byte = 32 ↔ byte = 32 := by
  simp only [upper, Bool.and_eq_true, decide_eq_true_eq]
  grind

theorem lower_eq_space {byte : UInt8} : lower byte = 32 ↔ byte = 32 := by
  simp only [lower, Bool.and_eq_true, decide_eq_true_eq]
  grind

/-- A word in upper case is compared as one whatever its case. -/
theorem map_upper_eq_iff {word name : List UInt8} (capitals : name.map upper = name) :
    word.map upper = name ↔ word.map lower = name.map lower := by
  constructor
  · rintro rfl
    rw [List.map_map]
    exact List.map_congr_left fun byte _ => (lower_upper byte).symm
  · intro same
    have again := congrArg (List.map upper) same
    rw [List.map_map, List.map_map] at again
    have plain : ∀ text : List UInt8, text.map (upper ∘ lower) = text.map upper := fun text =>
      List.map_congr_left fun byte _ => upper_lower byte
    rw [plain, plain, capitals] at again
    exact again

def wordOf (request : List UInt8) : List UInt8 := request.takeWhile (· ≠ 32)

theorem ftpUpperWord_eq (request : List UInt8) :
    ftpUpperWord request = (wordOf request).map upper ++ argumentOf request := by
  induction request with
  | nil => rfl
  | cons byte rest ih =>
    by_cases space : byte = 32
    · simp [ftpUpperWord, wordOf, argumentOf, space]
    · rw [ftpUpperWord, if_neg space, ih]
      simp [wordOf, argumentOf, space, upper]

/-- A text taken apart at its first space. -/
structure Splits (text word argument : List UInt8) : Prop where
  whole : text = word ++ argument
  plain : ∀ byte ∈ word, byte ≠ 32
  space : argument = [] ∨ argument.head? = some 32

variable {text word argument name : List UInt8}

theorem Splits.word_argument (splits : Splits text word argument) :
    wordOf text = word ∧ argumentOf text = argument := by
  obtain ⟨rfl, plain, space⟩ := splits
  have all : ∀ byte ∈ word, (byte ≠ 32 : Bool) = true := by simpa using plain
  have stop : argument.takeWhile (· ≠ 32) = [] ∧ argument.dropWhile (· ≠ 32) = argument := by
    rcases space with rfl | first
    · exact ⟨rfl, rfl⟩
    · obtain ⟨rest, rfl⟩ := List.head?_eq_some_iff.mp first
      exact ⟨rfl, rfl⟩
  constructor
  · rw [wordOf, List.takeWhile_append_of_pos all, stop.1, List.append_nil]
  · rw [argumentOf, List.dropWhile_append_of_pos all, stop.2]

theorem splits_request (request : List UInt8) :
    Splits request (wordOf request) (argumentOf request) where
  whole := List.takeWhile_append_dropWhile.symm
  plain byte member := by simpa using List.mem_takeWhile_imp member
  space := by
    cases argument : argumentOf request with
    | nil => exact .inl rfl
    | cons byte rest =>
      have stop := List.head?_dropWhile_not (· ≠ (32 : UInt8)) request
      simp only [argumentOf] at argument
      rw [argument] at stop
      refine .inr ?_
      simpa using stop

theorem splits_upper (request : List UInt8) :
    Splits (ftpUpperWord request) ((wordOf request).map upper) (argumentOf request) where
  whole := ftpUpperWord_eq request
  plain byte member := by
    obtain ⟨other, inside, rfl⟩ := List.mem_map.mp member
    exact fun space => (splits_request request).plain other inside (upper_eq_space.mp space)
  space := (splits_request request).space

theorem splits_lower (request : List UInt8) :
    Splits (request.map lower) ((wordOf request).map lower) ((argumentOf request).map lower) where
  whole := by rw [← List.map_append, ← (splits_request request).whole]
  plain byte member := by
    obtain ⟨other, inside, rfl⟩ := List.mem_map.mp member
    exact fun space => (splits_request request).plain other inside (lower_eq_space.mp space)
  space := by
    rcases (splits_request request).space with unspaced | first
    · exact .inl (List.map_eq_nil_iff.mpr unspaced)
    · rw [List.head?_map, first]
      exact .inr rfl

/-- Text without a space joins what comes last. -/
theorem Splits.append {tail : List UInt8} (splits : Splits text word argument)
    (plain : ∀ byte ∈ tail, byte ≠ 32) :
    Splits (text ++ tail) (if argument = [] then word ++ tail else word)
      (if argument = [] then [] else argument ++ tail) := by
  obtain ⟨rfl, own, space⟩ := splits
  rcases space with rfl | first
  · refine ⟨by simp, fun byte member => ?_, .inl rfl⟩
    rcases List.mem_append.mp member with inside | inside
    · exact own byte inside
    · exact plain byte inside
  · obtain ⟨rest, rfl⟩ := List.head?_eq_some_iff.mp first
    exact ⟨by simp, own, .inr rfl⟩

/-- The two tests for a word of `ftp_is_transfer`: the word alone, and the word and a space. -/
theorem Splits.alone_iff (splits : Splits text word argument) (plain : ∀ byte ∈ name, byte ≠ 32) :
    text = name ↔ word = name ∧ argument = [] := by
  constructor
  · rintro rfl
    have alone : Splits text text [] := ⟨(List.append_nil text).symm, plain, .inl rfl⟩
    obtain ⟨own, wordless⟩ := splits.word_argument
    obtain ⟨whole, empty⟩ := alone.word_argument
    exact ⟨own.symm.trans whole, wordless.symm.trans empty⟩
  · rintro ⟨rfl, rfl⟩
    rw [splits.whole, List.append_nil]

theorem Splits.followed_iff {front : List UInt8} {count : Nat}
    (splits : Splits text word argument) (plain : ∀ byte ∈ name, byte ≠ 32)
    (whole : front = name ++ [32]) (size : count = name.length + 1) :
    text.take count = front ↔ word = name ∧ argument ≠ [] := by
  subst whole size
  constructor
  · intro front
    have split : Splits text name (32 :: text.drop (name.length + 1)) := by
      refine ⟨?_, plain, .inr rfl⟩
      have whole := List.take_append_drop (name.length + 1) text
      rw [front, List.append_assoc] at whole
      exact whole.symm
    obtain ⟨own, rest⟩ := splits.word_argument
    obtain ⟨other, more⟩ := split.word_argument
    refine ⟨own.symm.trans other, ?_⟩
    rw [rest.symm.trans more]
    exact List.cons_ne_nil _ _
  · rintro ⟨rfl, nonempty⟩
    obtain ⟨rest, rfl⟩ := List.head?_eq_some_iff.mp (splits.space.resolve_left nonempty)
    rw [splits.whole, List.take_length_add_append]
    rfl

theorem Splits.either_iff {front : List UInt8} {count : Nat}
    (splits : Splits text word argument) (plain : ∀ byte ∈ name, byte ≠ 32)
    (whole : front = name ++ [32]) (size : count = name.length + 1) :
    text = name ∨ text.take count = front ↔ word = name := by
  rw [splits.alone_iff plain, splits.followed_iff plain whole size, ← and_or_left]
  exact and_iff_left (em _)

end Words

section Aliases

/-- What a word stands for: a transfer, the verb sent for it and the argument sent in place of
the request's own. -/
structure Alias where
  transfer : Transfer
  verb : List UInt8
  argument : Option (List UInt8)
deriving DecidableEq

def aliases : List (List UInt8 × Alias) :=
  [(ascii "get", ⟨.read, ascii "RETR", none⟩),
    (ascii "put", ⟨.write, ascii "STOR", none⟩),
    (ascii "dir", ⟨.list, ascii "LIST", none⟩),
    (ascii "ls", ⟨.list, ascii "NLST", none⟩),
    (ascii "cd", ⟨.none, ascii "CWD", none⟩),
    (ascii "delete", ⟨.none, ascii "DELE", none⟩),
    (ascii "mkdir", ⟨.none, ascii "MKD", none⟩),
    (ascii "rmdir", ⟨.none, ascii "RMD", none⟩),
    (ascii "binary", ⟨.none, ascii "TYPE", some (ascii " I")⟩),
    (ascii "ascii", ⟨.none, ascii "TYPE", some (ascii " A")⟩)]

/-- The alias of a request, by its first word in lower case. -/
def requestAlias (request : List UInt8) : Option Alias :=
  aliases.lookup ((wordOf request).map lower)

def Alias.moves (a : Alias) : Prop := a.transfer = .read ∨ a.transfer = .write

instance (a : Alias) : Decidable a.moves := inferInstanceAs (Decidable (_ ∨ _))

/-- The line of an alias. -/
def Alias.line (a : Alias) (argument : List UInt8) : List UInt8 :=
  a.verb ++ a.argument.getD argument ++ crlf

theorem lookup_member {word : List UInt8} {a : Alias} (found : aliases.lookup word = some a) :
    (word, a) ∈ aliases := by
  obtain ⟨before, after, split, -⟩ := List.lookup_eq_some_iff.mp found
  rw [split]
  simp

theorem line_length {word : List UInt8} {a : Alias} (member : (word, a) ∈ aliases)
    (argument : List UInt8) : (a.line argument).length ≤ word.length + argument.length + 4 := by
  have sizes : ∀ pair ∈ aliases, pair.2.verb.length ≤ 4 ∧ 2 ≤ pair.1.length ∧
      ∀ own, pair.2.argument = some own → own.length ≤ pair.1.length - 2 := by decide +kernel
  obtain ⟨verb, two, own⟩ := sizes _ member
  dsimp only at verb two own
  simp only [Alias.line, crlf, List.length_append, List.length_cons, List.length_nil]
  cases kept : a.argument with
  | none =>
    rw [Option.getD_none]
    omega
  | some text =>
    have short := own text kept
    rw [Option.getD_some]
    omega

/-- A word that is no alias is none of the words of the table. -/
theorem lookup_none {word : List UInt8} (missing : aliases.lookup word = none) :
    ∀ pair ∈ aliases, word ≠ pair.1 := by
  intro pair member same
  have other := List.lookup_eq_none_iff.mp missing pair member
  rw [same] at other
  simp at other

/-- A refused request has no line; any other has one and the kind of its transfer. -/
theorem makeCommand_eq {input : List UInt8} (short : input.length ≤ ftpTextMax) :
    FtpEmulator.makeCommand input FtpEmulator.wireSize =
      match requestAlias input with
      | none => some (0, input ++ crlf)
      | some a =>
        if a.moves ∧ (argumentOf input).length ≤ 1 then none
        else some (a.transfer.byte.toNat, a.line (argumentOf input)) := by
  have whole := congrArg List.length (splits_request input).whole
  rw [List.length_append] at whole
  have word : (input.takeWhile (· ≠ 32)).map lower = (wordOf input).map lower := rfl
  have argument : input.dropWhile (· ≠ 32) = argumentOf input := rfl
  rw [FtpEmulator.makeCommand, word, argument]
  cases found : requestAlias input with
  | none =>
    have fits : ¬FtpEmulator.wireSize ≤ (input ++ crlf).length := by
      simp only [FtpEmulator.wireSize, ftpTextMax, crlf, List.length_append, List.length_cons,
        List.length_nil] at short ⊢
      omega
    have others := lookup_none found
    simp only [aliases, List.forall_mem_cons] at others
    obtain ⟨h₁, h₂, h₃, h₄, h₅, h₆, h₇, h₈, h₉, h₁₀, -⟩ := others
    simp only [h₁, h₂, h₃, h₄, h₅, h₆, h₇, h₈, h₉, h₁₀, fits, if_false, or_self]
    simp
  | some a =>
    have member := lookup_member found
    have length := line_length member (argumentOf input)
    rw [List.length_map] at length
    have fits : ¬FtpEmulator.wireSize ≤ (a.line (argumentOf input)).length := by
      simp only [FtpEmulator.wireSize, ftpTextMax] at short ⊢
      omega
    simp only [aliases, List.mem_cons, List.not_mem_nil, or_false, Prod.mk.injEq] at member
    rcases member with ⟨same, rfl⟩ | ⟨same, rfl⟩ | ⟨same, rfl⟩ | ⟨same, rfl⟩ | ⟨same, rfl⟩ |
      ⟨same, rfl⟩ | ⟨same, rfl⟩ | ⟨same, rfl⟩ | ⟨same, rfl⟩ | ⟨same, rfl⟩
    all_goals
      rw [same]
      simp [Alias.line, Alias.moves, Transfer.byte, ascii] at fits ⊢
      first | exact fits | rw [if_neg (Nat.not_le.mpr fits)]

end Aliases

section Prepared

variable {text word argument : List UInt8}

/-- No space is in a word that is looked for, or in a line end. -/
theorem words_plain {name : List UInt8}
    (one : name ∈ [ascii "GET", ascii "PUT", ascii "DIR", ascii "LS", ascii "get", ascii "put", crlf]) :
    ∀ byte ∈ name, byte ≠ 32 := by
  have absent : ∀ name ∈ [ascii "GET", ascii "PUT", ascii "DIR", ascii "LS", ascii "get", ascii "put", crlf],
      (32 : UInt8) ∉ name := by decide +kernel
  rintro byte member rfl
  exact absent name one member

/-- `ftp_is_transfer`, by the word and the argument. -/
theorem ftpIsTransfer_eq (splits : Splits text word argument) :
    ftpIsTransfer text =
      if word = ascii "GET" ∧ argument ≠ [] then some (.read, ascii "RETR")
      else if word = ascii "PUT" ∧ argument ≠ [] then some (.write, ascii "STOR")
      else if word = ascii "DIR" then some (.list, ascii "LIST")
      else if word = ascii "LS" then some (.list, ascii "NLST")
      else none := by
  have get : text.take 4 = ascii "GET " ↔ word = ascii "GET" ∧ argument ≠ [] :=
    splits.followed_iff (words_plain (by simp)) rfl rfl
  have put : text.take 4 = ascii "PUT " ↔ word = ascii "PUT" ∧ argument ≠ [] :=
    splits.followed_iff (words_plain (by simp)) rfl rfl
  have dir : text = ascii "DIR" ∨ text.take 4 = ascii "DIR " ↔ word = ascii "DIR" :=
    splits.either_iff (words_plain (by simp)) rfl rfl
  have ls : text = ascii "LS" ∨ text.take 3 = ascii "LS " ↔ word = ascii "LS" :=
    splits.either_iff (words_plain (by simp)) rfl rfl
  simp only [ftpIsTransfer, get, put, dir, ls]

/-- The transfer and line that the service makes of a request, if it takes it. -/
def prepared (ftp : Ftp) : Option (Transfer × List UInt8) :=
  if (ftpPrepare ftp).1 then
    some ((ftpPrepare ftp).2.transfer, (ftpPrepare ftp).2.transferCommand)
  else none

theorem storeLine_fits {ftp : Ftp} {line : List UInt8} {next : Operation}
    (fits : line.length < transferCommandSize) :
    storeLine ftp line next = (true, { ftp with transferCommand := line, operation := next }) := by
  have whole : line.take (transferCommandSize - 1) = line := List.take_of_length_le (by omega)
  rw [storeLine, if_neg (by omega), whole]

theorem prepared_transfer {ftp : Ftp} {transfer : Transfer} {verb : List UInt8}
    (known : ftpIsTransfer (ftpUpperWord ftp.request) = some (transfer, verb))
    (fits : (verb ++ argumentOf ftp.request ++ crlf).length < transferCommandSize) :
    prepared ftp =
      if (transfer = .read ∨ transfer = .write) ∧ (argumentOf ftp.request).length ≤ 1 then none
      else some (transfer, verb ++ argumentOf ftp.request ++ crlf) := by
  obtain ⟨-, same⟩ := (splits_upper ftp.request).word_argument
  by_cases missing :
      (transfer = .read ∨ transfer = .write) ∧ (argumentOf ftp.request).length ≤ 1
  · simp [prepared, ftpPrepare, known, same, missing]
  · simp only [prepared, ftpPrepare, known, same, missing, if_false, storeLine_fits fits, if_true]

theorem prepared_simple {ftp : Ftp} (simple : ftpIsTransfer (ftpUpperWord ftp.request) = none)
    (fits : (ftpMakeCommand (ftpUpperWord ftp.request)).length < transferCommandSize) :
    prepared ftp = some (.none, ftpMakeCommand (ftpUpperWord ftp.request)) := by
  simp only [prepared, ftpPrepare, simple, storeLine_fits fits, if_true]

/-- A request that no alias stands for. -/
theorem prepared_unknown {ftp : Ftp} (short : ftp.request.length ≤ ftpTextMax)
    (found : requestAlias ftp.request = none) :
    prepared ftp = some (.none, (wordOf ftp.request).map upper ++ argumentOf ftp.request ++ crlf) := by
  have splits := splits_upper ftp.request
  have own : (ftpUpperWord ftp.request).takeWhile (· ≠ 32) = (wordOf ftp.request).map upper :=
    splits.word_argument.1
  have transfer := ftpIsTransfer_eq splits
  have whole := congrArg List.length (splits_request ftp.request).whole
  rw [List.length_append] at whole
  have room : transferCommandSize = ftpTextMax + 8 := rfl
  have capitals : ∀ pair ∈ aliases, (pair.1.map upper).map upper = pair.1.map upper ∧
      (pair.1.map upper).map lower = pair.1 := by decide +kernel
  have others : ∀ name ∈ aliases.map fun pair => pair.1.map upper,
      (wordOf ftp.request).map upper ≠ name := by
    intro name member
    obtain ⟨pair, listed, rfl⟩ := List.mem_map.mp member
    obtain ⟨capital, small⟩ := capitals pair listed
    rw [ne_eq, map_upper_eq_iff capital, small]
    exact lookup_none found pair listed
  have names : aliases.map (fun pair => pair.1.map upper) =
      [ascii "GET", ascii "PUT", ascii "DIR", ascii "LS", ascii "CD", ascii "DELETE",
        ascii "MKDIR", ascii "RMDIR", ascii "BINARY", ascii "ASCII"] := by decide +kernel
  rw [names] at others
  simp only [List.forall_mem_cons] at others
  obtain ⟨get, put, dir, ls, cd, delete, mkdir, rmdir, binary, ascii, -⟩ := others
  simp only [get, put, dir, ls, false_and, if_false] at transfer
  have line : ftpMakeCommand (ftpUpperWord ftp.request) =
      (wordOf ftp.request).map upper ++ argumentOf ftp.request ++ crlf := by
    simp only [ftpMakeCommand, own, cd, delete, mkdir, rmdir, binary, ascii, if_false]
    rw [splits.whole]
  rw [prepared_simple transfer, line]
  rw [line]
  simp only [crlf, List.length_append, List.length_map, List.length_cons, List.length_nil]
  omega

/-- A request that an alias stands for. -/
theorem prepared_alias {ftp : Ftp} {a : Alias} (short : ftp.request.length ≤ ftpTextMax)
    (found : requestAlias ftp.request = some a) :
    prepared ftp =
      if a.moves ∧ (argumentOf ftp.request).length ≤ 1 then
        if argumentOf ftp.request = [] then some (.none, (wordOf ftp.request).map upper ++ crlf) else none
      else some (a.transfer, a.line (argumentOf ftp.request)) := by
  have splits := splits_upper ftp.request
  obtain ⟨own, rest⟩ := splits.word_argument
  have own : (ftpUpperWord ftp.request).takeWhile (· ≠ 32) = (wordOf ftp.request).map upper := own
  have transfer := ftpIsTransfer_eq splits
  have whole := congrArg List.length (splits_request ftp.request).whole
  rw [List.length_append] at whole
  have room : transferCommandSize = ftpTextMax + 8 := rfl
  have member := lookup_member found
  have capital : ∀ name, (wordOf ftp.request).map lower = name →
      (wordOf ftp.request).map upper = name.map upper := by
    rintro _ rfl
    rw [List.map_map]
    exact List.map_congr_left fun byte _ => (upper_lower byte).symm
  have length := line_length member (argumentOf ftp.request)
  rw [List.length_map] at length
  have fits : (a.line (argumentOf ftp.request)).length < transferCommandSize := by omega
  simp only [aliases, List.mem_cons, List.not_mem_nil, or_false, Prod.mk.injEq] at member
  rcases member with ⟨same, rfl⟩ | ⟨same, rfl⟩ | ⟨same, rfl⟩ | ⟨same, rfl⟩ | ⟨same, kind⟩ |
    ⟨same, kind⟩ | ⟨same, kind⟩ | ⟨same, kind⟩ | ⟨same, kind⟩ | ⟨same, kind⟩
  -- `GET` and `PUT`: bare, the word is sent on as a line of its own
  case inl | inr.inl =>
    have word := capital _ same
    by_cases bare : argumentOf ftp.request = []
    · simp [word, ascii, upper, bare] at transfer
      have line : ftpMakeCommand (ftpUpperWord ftp.request) = (wordOf ftp.request).map upper ++ crlf := by
        simp [ftpMakeCommand, word, ascii, upper, splits.whole, bare]
      rw [prepared_simple transfer, line]
      · simp [Alias.moves, bare]
      · rw [line]
        simp [word, ascii, crlf, room, ftpTextMax]
    · simp [word, ascii, upper, bare] at transfer
      rw [prepared_transfer transfer fits]
      simp [Alias.moves, Alias.line, bare, ascii]
  -- `DIR` and `LS`
  case inr.inr.inl | inr.inr.inr.inl =>
    have word := capital _ same
    simp [word, ascii, upper] at transfer
    rw [prepared_transfer transfer fits]
    simp [Alias.moves, Alias.line, ascii]
  all_goals
    have word := capital _ same
    simp [word, ascii, upper] at transfer
    have line : ftpMakeCommand (ftpUpperWord ftp.request) = a.line (argumentOf ftp.request) := by
      simp only [ftpMakeCommand, own, rest, word, kind]
      simp [ascii, upper, Alias.line]
    rw [prepared_simple transfer, line]
    · simp [kind, Alias.moves]
    · rw [line]
      exact fits

/-- With a short request no line overflows its buffer, so the argument check alone refuses. -/
theorem prepared_eq {ftp : Ftp} (short : ftp.request.length ≤ ftpTextMax) :
    prepared ftp =
      match requestAlias ftp.request with
      | none => some (.none, (wordOf ftp.request).map upper ++ argumentOf ftp.request ++ crlf)
      | some a =>
        if a.moves ∧ (argumentOf ftp.request).length ≤ 1 then
          if argumentOf ftp.request = [] then
            some (.none, (wordOf ftp.request).map upper ++ crlf)
          else none
        else some (a.transfer, a.line (argumentOf ftp.request)) := by
  cases found : requestAlias ftp.request with
  | none => exact prepared_unknown short found
  | some a => exact prepared_alias short found

/-- Sending changes neither the transfer nor the line, and never refuses. -/
theorem sendLine_command (env : Env) (ftp : Ftp) (line : List UInt8) (next : Operation) :
    (sendLine env ftp line next).result ≠ .param ∧
      (sendLine env ftp line next).ftp.transfer = ftp.transfer ∧
      (sendLine env ftp line next).ftp.transferCommand = ftp.transferCommand := by
  obtain ⟨-, blocked⟩ | ⟨-, deadline, sent⟩ := sendLine_cases env ftp line next
  · rw [blocked]
    refine ⟨?_, rfl, rfl⟩
    unfold waiting
    split
    · nofun
    · nofun
  · rw [sent]
    exact ⟨nofun, rfl, rfl⟩

/-- The first poll of a request refuses exactly what is not prepared. -/
theorem ftpExecPoll_prepared {env : Env} {ftp : Ftp} (ready : ftp.state = .ready)
    (fresh : ftp.operation = .none) :
    match prepared ftp with
    | none => (ftpExecPoll env ftp).result = .param
    | some (transfer, line) => (ftpExecPoll env ftp).result ≠ .param ∧
        (ftpExecPoll env ftp).ftp.transfer = transfer ∧
        (ftpExecPoll env ftp).ftp.transferCommand = line := by
  by_cases taken : (ftpPrepare ftp).1
  · simpa [prepared, ftpExecPoll, ready, fresh, taken] using
      sendLine_command env (ftpPrepare ftp).2 (ftpPrepare ftp).2.transferCommand .simpleReply
  · simp [prepared, ftpExecPoll, ready, fresh, taken]

end Prepared

section Agreement

/-- Two lines that differ at most in the case of their first word. -/
def SameLine (line other : List UInt8) : Prop :=
  (wordOf line).map lower = (wordOf other).map lower ∧ argumentOf line = argumentOf other

instance (line other : List UInt8) : Decidable (SameLine line other) :=
  inferInstanceAs (Decidable (_ ∧ _))

/-- The first poll of a request and the emulator's `make_command` come to the same. -/
def Agree (env : Env) (ftp : Ftp) : Prop :=
  match FtpEmulator.makeCommand ftp.request FtpEmulator.wireSize with
  | none => (ftpExecPoll env ftp).result = .param
  | some (transfer, line) => (ftpExecPoll env ftp).result ≠ .param ∧
      (ftpExecPoll env ftp).ftp.transfer.byte.toNat = transfer ∧
      SameLine (ftpExecPoll env ftp).ftp.transferCommand line

variable {env : Env} {ftp : Ftp}

theorem agree_iff_prepared (ready : ftp.state = .ready) (fresh : ftp.operation = .none) :
    Agree env ftp ↔
      match FtpEmulator.makeCommand ftp.request FtpEmulator.wireSize, prepared ftp with
      | none, none => True
      | some (kind, other), some (transfer, line) => transfer.byte.toNat = kind ∧ SameLine line other
      | _, _ => False := by
  have poll := @ftpExecPoll_prepared env ftp ready fresh
  unfold Agree
  cases emulated : FtpEmulator.makeCommand ftp.request FtpEmulator.wireSize with
  | none =>
    cases own : prepared ftp with
    | none => simpa [own] using poll
    | some command =>
      rw [own] at poll
      simpa using poll.1
  | some other =>
    cases own : prepared ftp with
    | none =>
      rw [own] at poll
      simp [poll]
    | some command =>
      rw [own] at poll
      obtain ⟨taken, transfer, line⟩ := poll
      simp [taken, transfer, line]

/-- A request whose first word stands for itself: the two lines differ in its case only. -/
theorem sameLine_upper (request : List UInt8) :
    SameLine ((wordOf request).map upper ++ argumentOf request ++ crlf) (request ++ crlf) := by
  have plain : ∀ byte ∈ crlf, byte ≠ 32 := words_plain (by simp)
  have raised := (splits_upper request).append plain
  rw [ftpUpperWord_eq] at raised
  obtain ⟨word, argument⟩ := raised.word_argument
  obtain ⟨other, same⟩ := ((splits_request request).append plain).word_argument
  refine ⟨?_, argument.trans same.symm⟩
  have lowered : ((wordOf request).map upper).map lower = (wordOf request).map lower := by
    rw [List.map_map]
    exact List.map_congr_left fun byte _ => lower_upper byte
  rw [word, other]
  split_ifs with bare
  · rw [List.map_append, List.map_append, lowered]
  · exact lowered

theorem sameLine_refl (line : List UInt8) : SameLine line line := ⟨rfl, rfl⟩

/-- A request that is one word, whatever its case. -/
theorem bare_iff {request name : List UInt8} (plain : ∀ byte ∈ name, byte ≠ 32) :
    request.map lower = name ↔ (wordOf request).map lower = name ∧ argumentOf request = [] := by
  rw [(splits_lower request).alone_iff plain, List.map_eq_nil_iff]

/-- The two agree on every request but a bare `GET` or `PUT`: the service sends these on as they
stand, since `ftp_is_transfer` knows the words by the space after them, and its own check for a
missing argument is never reached; the emulator refuses them. -/
theorem commands_agree_iff (ready : ftp.state = .ready) (fresh : ftp.operation = .none)
    (short : ftp.request.length ≤ ftpTextMax) :
    Agree env ftp ↔
      ¬(ftp.request.map lower = ascii "get" ∨ ftp.request.map lower = ascii "put") := by
  have moves : ∀ pair ∈ aliases, pair.2.moves ↔ pair.1 = ascii "get" ∨ pair.1 = ascii "put" := by
    decide +kernel
  have bare : ftp.request.map lower = ascii "get" ∨ ftp.request.map lower = ascii "put" ↔
      ((wordOf ftp.request).map lower = ascii "get" ∨
        (wordOf ftp.request).map lower = ascii "put") ∧ argumentOf ftp.request = [] := by
    rw [@bare_iff _ (ascii "get") (words_plain (by simp)), @bare_iff _ (ascii "put") (words_plain (by simp)),
      or_and_right]
  rw [agree_iff_prepared ready fresh, makeCommand_eq short, prepared_eq short, bare]
  cases found : requestAlias ftp.request with
  | none =>
    have get := lookup_none found (ascii "get", ⟨.read, ascii "RETR", none⟩) (by simp [aliases])
    have put := lookup_none found (ascii "put", ⟨.write, ascii "STOR", none⟩) (by simp [aliases])
    have other := sameLine_upper ftp.request
    simp only [get, put, other, Transfer.byte]
    simp
  | some a =>
    rw [← moves _ (lookup_member found)]
    by_cases moved : a.moves
    · by_cases bare : argumentOf ftp.request = []
      · simp [moved, bare]
      · by_cases one : (argumentOf ftp.request).length ≤ 1
        · simp [moved, bare, one]
        · simp [moved, bare, one, sameLine_refl]
    · simp [moved, sameLine_refl]

/-- A session that is ready for a request. -/
def readyFor (request : List UInt8) : Ftp := { ftpReset with state := .ready, request }

/-- A poll while nothing is being resolved. -/
def idleEnv : Env := ⟨0, true, .failed, true, true, true, 1460, true⟩

theorem commands_agree_iff_delete :
    (readyFor (ascii "Delete old.ssd")).state = .ready ∧
      (Agree idleEnv (readyFor (ascii "Delete old.ssd")) ↔
        ¬((ascii "Delete old.ssd").map lower = ascii "get" ∨
          (ascii "Delete old.ssd").map lower = ascii "put")) :=
  ⟨rfl, commands_agree_iff rfl rfl (by decide +kernel)⟩

/-- `GET` without a name: the service sends it, the emulator refuses it. -/
theorem commands_disagree : ¬∀ (env : Env) (ftp : Ftp), ftp.state = .ready →
    ftp.operation = .none → 1 ≤ ftp.request.length → ftp.request.length ≤ ftpTextMax →
    Agree env ftp := by
  intro agree
  have bare := agree idleEnv (readyFor (ascii "GET")) rfl rfl (by decide) (by decide)
  have service : prepared (readyFor (ascii "GET")) = some (.none, ascii "GET\r\n") := by
    decide +kernel
  have emulator :
      FtpEmulator.makeCommand (readyFor (ascii "GET")).request FtpEmulator.wireSize = none := by
    decide +kernel
  rw [agree_iff_prepared rfl rfl, service, emulator] at bare
  exact bare

end Agreement

end Pi1MHz.FtpService
