import Mathlib.Data.List.Induction
import Pi1MHz.Foundation.Base64
import Pi1MHz.Ssh.KnownHosts

/-! When the file of known hosts pins the keys it records. The reader finds an entry again exactly
if its host and its type are single words within the reader's widths. -/
namespace Pi1MHz.Wolfssh

/-- One word that a conversion of the given width reads whole. -/
structure Word (width : Nat) (word : List UInt8) : Prop where
  nonempty : word ≠ []
  solid : ∀ byte ∈ word, isSpace byte = false
  fits : word.length ≤ width

section Scan
variable {width : Nat} {word : List UInt8}

theorem scanWord_word (whole : Word width word) (blanks : List UInt8)
    (blank : ∀ byte ∈ blanks, isSpace byte = true) (next : UInt8) (stop : isSpace next = true)
    (rest : List UInt8) :
    scanWord width (blanks ++ word ++ next :: rest) = some (word, next :: rest) := by
  have start : (blanks ++ word ++ next :: rest).dropWhile isSpace = word ++ next :: rest := by
    rw [List.append_assoc, List.dropWhile_append_of_pos blank]
    cases word with
    | nil => exact absurd rfl whole.nonempty
    | cons byte word => simp [whole.solid byte (by simp)]
  have taken : (word ++ next :: rest).takeWhile (fun byte => !isSpace byte) = word := by
    rw [List.takeWhile_append_of_pos (by simpa using whole.solid)]
    simp [stop]
  simp only [scanWord, start, taken, List.take_of_length_le whole.fits, if_neg whole.nonempty,
    List.drop_left]

/-- What a conversion reads is a word. -/
theorem word_of_scanWord {input rest : List UInt8} (read : scanWord width input = some (word, rest)) :
    Word width word := by
  simp only [scanWord] at read
  split at read
  · cases read
  next nonempty =>
    obtain ⟨rfl, -⟩ := Prod.mk.inj (Option.some.inj read)
    refine ⟨nonempty, ?_, List.length_take_le _ _⟩
    intro byte member
    have solid := List.mem_takeWhile_imp (List.mem_of_mem_take member)
    simpa using solid

/-- An entry read consists of words. -/
theorem words_of_scanEntry {line host type key : List UInt8}
    (read : scanEntry line = some (host, type, key)) : Word 191 host ∧ Word 63 type := by
  simp only [scanEntry] at read
  split at read
  · cases read
  next first =>
    split at read
    · cases read
    next second =>
      split at read
      · cases read
      next third =>
        obtain ⟨rfl, rest⟩ := Prod.mk.inj (Option.some.inj read)
        obtain ⟨rfl, rfl⟩ := Prod.mk.inj rest
        exact ⟨word_of_scanWord first, word_of_scanWord second⟩

end Scan

/-- An entry that the reader finds again. -/
structure Entry where
  hostId : List UInt8
  type : List UInt8
  key : List UInt8
  host_word : Word 191 hostId
  type_word : Word 63 type
  key_word : Word 2047 key
  text : ∀ byte ∈ hostId ++ type ++ key, byte ≠ 0

namespace Entry

def line (e : Entry) : List UInt8 := entryLine e.hostId e.type e.key

theorem solid_ne_newline {word : List UInt8} {width : Nat} (whole : Word width word) :
    ∀ byte ∈ word, byte ≠ 10 := by
  rintro byte member rfl
  exact absurd (whole.solid 10 member) (by decide)

theorem takeLine_body {body : List UInt8} (solid : ∀ byte ∈ body, byte ≠ 10) {limit : Nat}
    (fits : body.length < limit) (rest : List UInt8) :
    takeLine limit (body ++ 10 :: rest) = body ++ [10] := by
  induction body generalizing limit with
  | nil =>
    cases limit with
    | zero => cases fits
    | succ limit => simp [takeLine]
  | cons byte body ih =>
    cases limit with
    | zero => cases fits
    | succ limit =>
      have other : byte ≠ 10 := solid byte (by simp)
      simp only [List.cons_append, takeLine, if_neg other]
      rw [ih (fun byte member => solid byte (by simp [member])) (by simpa using fits)]

/-- The reader takes the line of an entry from the front of a file. -/
theorem takeLine_line (e : Entry) (rest : List UInt8) :
    takeLine (readLineSize - 1) (e.line ++ rest) = e.line := by
  have body : e.line = (e.hostId ++ 32 :: (e.type ++ 32 :: e.key)) ++ [10] := by
    simp [line, entryLine]
  have host := e.host_word.fits
  have type := e.type_word.fits
  have key := e.key_word.fits
  rw [body, List.append_assoc, List.singleton_append]
  apply takeLine_body
  · intro byte member
    simp only [List.mem_append, List.mem_cons] at member
    rcases member with inHost | rfl | inType | rfl | inKey
    · exact solid_ne_newline e.host_word byte inHost
    · decide
    · exact solid_ne_newline e.type_word byte inType
    · decide
    · exact solid_ne_newline e.key_word byte inKey
  · simp [readLineSize]
    omega

theorem scanEntry_line (e : Entry) : scanEntry e.line = some (e.hostId, e.type, e.key) := by
  have printed : e.line.takeWhile (· ≠ 0) = e.line := by
    rw [List.takeWhile_eq_self_iff]
    intro byte member
    simp only [line, entryLine, List.mem_append, List.mem_cons, List.not_mem_nil, or_false] at member
    rcases member with inHost | rfl | inType | rfl | inKey | rfl
    · simpa using e.text byte (by simp [inHost])
    · decide
    · simpa using e.text byte (by simp [inType])
    · decide
    · simpa using e.text byte (by simp [inKey])
    · decide
  have first := scanWord_word e.host_word [] (by simp) 32 (by decide)
    (e.type ++ 32 :: (e.key ++ [10]))
  have blank : ∀ byte ∈ [(32 : UInt8)], isSpace byte = true := by
    intro byte member
    rw [List.mem_singleton.mp member]
    decide
  have second := scanWord_word e.type_word [32] blank 32 (by decide) (e.key ++ [10])
  have third := scanWord_word e.key_word [32] blank 10 (by decide) []
  simp only [List.nil_append, List.cons_append] at first second third
  rw [scanEntry, printed, line, entryLine]
  simp only [first, second, third]

end Entry

section Lookup
variable (hostId type key : List UInt8)

theorem checkKnownHost_line (e : Entry) (rest : List UInt8) :
    checkKnownHost hostId type key (e.line ++ rest) =
      if e.hostId = hostId then if e.type = type ∧ e.key = key then .same else .changed
      else checkKnownHost hostId type key rest := by
  have taken := e.takeLine_line rest
  cases front : e.line ++ rest with
  | nil =>
    have length := congrArg List.length front
    simp [Entry.line, entryLine] at length
  | cons byte tail =>
    rw [front] at taken
    have later : (byte :: tail).drop e.line.length = rest := by rw [← front, List.drop_left]
    rw [checkKnownHost]
    simp only [taken, e.scanEntry_line, later]

/-- The file of a list of entries. -/
def fileOf (entries : List Entry) : List UInt8 := entries.flatMap Entry.line

/-- On a file of entries the check is a search for the first entry of the host. -/
theorem checkKnownHost_fileOf (entries : List Entry) :
    checkKnownHost hostId type key (fileOf entries) =
      match entries.find? (·.hostId = hostId) with
      | none => .unknown
      | some e => if e.type = type ∧ e.key = key then .same else .changed := by
  induction entries with
  | nil => rw [fileOf, List.flatMap_nil, checkKnownHost]; rfl
  | cons e entries ih =>
    rw [fileOf, List.flatMap_cons, checkKnownHost_line]
    by_cases same : e.hostId = hostId
    · simp [same]
    · rw [if_neg same, List.find?_cons_of_neg (by simpa using same)]
      exact ih

/-- Whatever the file holds, an entry read for a host has a host and a type that are words. -/
theorem words_of_same {hostId type key file : List UInt8}
    (found : checkKnownHost hostId type key file = .same) :
    Word 191 hostId ∧ Word 63 type := by
  fun_induction checkKnownHost hostId type key file with
  | case1 => cases found
  | case2 byte rest line storedType storedKey equal read =>
    obtain ⟨hostWord, typeWord⟩ := words_of_scanEntry read
    rw [← equal.1]
    exact ⟨hostWord, typeWord⟩
  | case3 => cases found
  | case4 byte rest line later host storedType storedKey read other ih => exact ih found
  | case5 byte rest line later unread ih => exact ih found

end Lookup

section Fields

theorem parseUrl_fields {url host port : List UInt8} (parsed : parseUrl url = some (host, port)) :
    host ≠ [] ∧ (∀ byte ∈ host ++ port, byte ∈ url) := by
  simp only [parseUrl] at parsed
  split at parsed
  · cases parsed
  · split at parsed
    · cases parsed
    · split at parsed
      · cases parsed
      next accepted =>
        obtain ⟨rfl, rfl⟩ := Prod.mk.inj (Option.some.inj parsed)
        simp only [not_or] at accepted
        refine ⟨accepted.1, ?_⟩
        have inUrl : ∀ byte ∈ (url.drop 6).takeWhile (· ≠ 47), byte ∈ url := fun byte member =>
          List.mem_of_mem_drop ((List.takeWhile_sublist _).subset member)
        intro byte member
        apply inUrl
        rcases List.mem_append.mp member with inHost | inPort
        · exact List.mem_of_mem_take inHost
        · rw [List.mem_reverse] at inPort
          exact List.mem_reverse.mp ((List.takeWhile_sublist _).subset inPort)

/-- What `begin_tcp` promises of an identifier. -/
theorem Callback.hostId_fields (c : Callback) :
    c.hostId ≠ [] ∧ c.hostId.length < hostIdSize ∧ ∀ byte ∈ c.hostId, byte ≠ 0 := by
  obtain ⟨url, text, found⟩ := c.supplied
  simp only [hostIdOf] at found
  split at found
  · cases found
  next host port parsed =>
    obtain ⟨nonempty, inUrl⟩ := parseUrl_fields parsed
    have clean : ∀ byte ∈ host ++ port, byte ≠ 0 := by
      rintro byte member rfl
      exact text (inUrl 0 member)
    split at found
    · split at found
      · cases found
      next fits =>
        obtain rfl := Option.some.inj found
        exact ⟨nonempty, by omega, fun byte member => clean byte (by simp [member])⟩
    · split at found
      · cases found
      next fits =>
        rw [← Option.some.inj found]
        refine ⟨by simp, by omega, ?_⟩
        intro byte member
        simp only [List.cons_append, List.mem_cons, List.mem_append] at member
        rcases member with rfl | inHost | rfl | rfl | inPort
        · decide
        · exact clean byte (by simp [inHost])
        · decide
        · decide
        · exact clean byte (by simp [inPort])

variable {encoding : KeyEncoding} {publicKey type key : List UInt8}

theorem hostKey_fields (coded : hostKey encoding publicKey = some (type, key)) :
    hostKeyType publicKey = some type ∧ key = encoding.encode publicKey ∧ publicKey ≠ [] ∧
      type.length ≤ 63 ∧ (∀ byte ∈ type, byte ≠ 0) ∧ key.length ≤ 2047 := by
  simp only [hostKey] at coded
  split at coded
  · cases coded
  next name named =>
    split at coded
    · cases coded
    next fits =>
      obtain ⟨rfl, rfl⟩ := Prod.mk.inj (Option.some.inj coded)
      have size : (encoding.encode publicKey).length ≤ 2047 := by
        simp only [hostKeySize] at fits
        omega
      refine ⟨named, rfl, ?_, ?_, ?_, size⟩
      · rintro rfl
        simp [hostKeyType, nameSize] at named
      · simp only [hostKeyType] at named
        split at named
        · cases named
        next accepted =>
          rw [← Option.some.inj named]
          refine (List.takeWhile_sublist _).length_le.trans ((List.length_take_le _ _).trans ?_)
          simp only [hostKeyTypeSize, not_or] at accepted
          omega
      · simp only [hostKeyType] at named
        split at named
        · cases named
        · rw [← Option.some.inj named]
          intro byte member
          simpa using List.mem_takeWhile_imp member

theorem encode_word (coded : hostKey encoding publicKey = some (type, key)) : Word 2047 key := by
  obtain ⟨-, rfl, nonempty, -, -, fits⟩ := hostKey_fields coded
  refine ⟨encoding.nonempty publicKey nonempty, ?_, fits⟩
  intro byte member
  have visible := encoding.visible publicKey byte member
  have high := UInt8.le_iff_toNat_le.mp visible
  have bound : 33 ≤ byte.toNat := high
  have notBlank : byte ≠ 32 := by
    rintro rfl
    exact absurd bound (by decide)
  have notControl : ¬byte ≤ 13 := by
    intro low
    have : byte.toNat ≤ 13 := UInt8.le_iff_toNat_le.mp low
    omega
  simp [isSpace, notBlank, notControl]

end Fields

/-- The entry written for the callback can be read back: the reader's widths hold its host, and
neither its host nor its type has white space in it. -/
structure Callback.Legible (c : Callback) : Prop where
  fits : c.hostId.length ≤ 191
  host : ∀ byte ∈ c.hostId, isSpace byte = false
  type : ∀ type, hostKeyType c.publicKey = some type →
    type ≠ [] ∧ ∀ byte ∈ type, isSpace byte = false

/-- The callback meets an unknown host, with a key that is well formed and the leave to trust it. -/
def Records (encoding : KeyEncoding) (file : List UInt8) (c : Callback) : Prop :=
  ∃ type key, hostKey encoding c.publicKey = some (type, key) ∧
    checkKnownHost c.hostId type key file = .unknown ∧ c.trustUnknown = true

section Run
variable {encoding : KeyEncoding} {file : List UInt8} {c : Callback}

theorem fileAfter_append (run : List Callback) (c : Callback) :
    fileAfter encoding (run ++ [c]) = (hostkeyCallback encoding (fileAfter encoding run) c).2 := by
  simp [fileAfter]

/-- A line to write always fits its buffer. -/
theorem entryLine_length (c : Callback) {type key : List UInt8}
    (coded : hostKey encoding c.publicKey = some (type, key)) :
    (entryLine c.hostId type key).length < writtenLineSize := by
  obtain ⟨-, -, -, name, -, size⟩ := hostKey_fields coded
  have host := c.hostId_fields.2.1
  simp only [entryLine, List.length_append, List.length_cons, List.length_nil, writtenLineSize,
    hostIdSize] at host ⊢
  omega

theorem callback_records {type key : List UInt8}
    (coded : hostKey encoding c.publicKey = some (type, key))
    (fresh : checkKnownHost c.hostId type key file = .unknown) (trusted : c.trustUnknown = true) :
    hostkeyCallback encoding file c = (.accepted, file ++ entryLine c.hostId type key) := by
  have fits : ¬writtenLineSize ≤ (entryLine c.hostId type key).length := by
    have := entryLine_length c coded
    omega
  simp [hostkeyCallback, hostkey, coded, fresh, trusted, writeKnownHost, fits]

theorem callback_keeps (unrecorded : ¬Records encoding file c) :
    (hostkeyCallback encoding file c).2 = file := by
  simp only [hostkeyCallback, hostkey]
  split
  · rfl
  next type key coded =>
    split
    · rfl
    · rfl
    next fresh =>
      split
      · rfl
      next trusted => exact absurd ⟨type, key, coded, fresh, by simpa using trusted⟩ unrecorded

/-- The entry that a legible callback writes. -/
theorem Callback.Legible.entry (legible : c.Legible) {type key : List UInt8}
    (coded : hostKey encoding c.publicKey = some (type, key)) :
    ∃ e : Entry, e.hostId = c.hostId ∧ e.type = type ∧ e.key = key := by
  obtain ⟨nonempty, -, hostText⟩ := c.hostId_fields
  obtain ⟨named, -, -, size, typeText, -⟩ := hostKey_fields coded
  obtain ⟨typeNonempty, solid⟩ := legible.type type named
  have keyWord := encode_word coded
  refine ⟨⟨c.hostId, type, key, ⟨nonempty, legible.host, legible.fits⟩,
    ⟨typeNonempty, solid, size⟩, keyWord, ?_⟩, rfl, rfl, rfl⟩
  intro byte member
  simp only [List.mem_append] at member
  rcases member with (inHost | inType) | inKey
  · exact hostText byte inHost
  · exact typeText byte inType
  · obtain ⟨-, rfl, -⟩ := hostKey_fields coded
    rintro rfl
    exact absurd (encoding.visible c.publicKey 0 inKey) (by decide)

/-- Callbacks that record legible entries only ever add entries to a file of entries. -/
theorem fileAfter_entries (run later : List Callback) (entries : List Entry)
    (stored : fileAfter encoding run = fileOf entries)
    (legible : ∀ before c after, run ++ later = before ++ c :: after →
      Records encoding (fileAfter encoding before) c → c.Legible) :
    ∃ more, fileAfter encoding (run ++ later) = fileOf (entries ++ more) := by
  induction later using List.reverseRecOn with
  | nil => exact ⟨[], by simpa using stored⟩
  | append_singleton later c ih =>
    obtain ⟨more, reached⟩ := ih fun before c' after split => legible before c' (after ++ [c]) (by
      rw [← List.append_assoc, split]
      simp)
    rw [← List.append_assoc, fileAfter_append, reached]
    by_cases records : Records encoding (fileOf (entries ++ more)) c
    · obtain ⟨type, key, coded, fresh, trusted⟩ := records
      obtain ⟨e, host, name, coding⟩ := (legible (run ++ later) c [] (by simp) (by
        rw [reached]
        exact ⟨type, key, coded, fresh, trusted⟩)).entry coded
      refine ⟨more ++ [e], ?_⟩
      rw [callback_records coded fresh trusted, ← host, ← name, ← coding]
      simp [fileOf, Entry.line]
    · exact ⟨more, callback_keeps records⟩

/-- The verdict on a file of entries depends on the first entry of the host. -/
theorem verdict_fileOf (entries : List Entry) {type key : List UInt8}
    (coded : hostKey encoding c.publicKey = some (type, key)) :
    (hostkeyCallback encoding (fileOf entries) c).1 =
      match entries.find? (·.hostId = c.hostId) with
      | none => if c.trustUnknown then .accepted else .unknown
      | some e => if e.type = type ∧ e.key = key then .accepted else .changed := by
  have check := checkKnownHost_fileOf c.hostId type key entries
  cases found : entries.find? (·.hostId = c.hostId) with
  | none =>
    rw [found] at check
    cases trusted : c.trustUnknown with
    | true => rw [callback_records coded check trusted]; rfl
    | false => simp [hostkeyCallback, hostkey, coded, check, trusted]
  | some e =>
    rw [found] at check
    by_cases same : e.type = type ∧ e.key = key
    · simp [hostkeyCallback, hostkey, coded, check, same]
    · simp [hostkeyCallback, hostkey, coded, check, same]

/-- A pinned host: the next callback for it is accepted exactly if it brings the key. -/
theorem pinned_verdict {entries : List Entry} {e : Entry} {c' : Callback}
    (found : entries.find? (·.hostId = c'.hostId) = some e)
    (coded : hostKey encoding c.publicKey = some (e.type, e.key)) :
    (hostkeyCallback encoding (fileOf entries) c').1 = .accepted ↔ c'.publicKey = c.publicKey := by
  cases coded' : hostKey encoding c'.publicKey with
  | none =>
    have refused : (hostkeyCallback encoding (fileOf entries) c').1 = .refused := by
      simp [hostkeyCallback, hostkey, coded']
    rw [refused]
    constructor
    · intro same
      cases same
    · intro same
      rw [same, coded] at coded'
      cases coded'
  | some pair =>
    obtain ⟨type, key⟩ := pair
    rw [verdict_fileOf entries coded', found]
    simp only
    constructor
    · intro accepted
      split at accepted
      next same =>
        obtain ⟨-, keyEq, -⟩ := hostKey_fields coded
        obtain ⟨-, keyEq', -⟩ := hostKey_fields coded'
        apply encoding.injective
        rw [← keyEq, ← keyEq', same.2]
      next => cases accepted
    · intro same
      rw [same, coded] at coded'
      obtain ⟨rfl, rfl⟩ := Prod.mk.inj (Option.some.inj coded')
      simp

end Run

/-- Once a run has recorded a key, its host is accepted with that key and no other, whatever the
trust flags, and the record changes no verdict on another host. -/
def Pinned (encoding : KeyEncoding) (run : List Callback) : Prop :=
  ∀ before c after, run = before ++ c :: after →
    Records encoding (fileAfter encoding before) c →
    (∀ later rest, after = later ++ rest → ∀ c' : Callback, c'.hostId = c.hostId →
      ((hostkeyCallback encoding (fileAfter encoding (before ++ c :: later)) c').1 = .accepted ↔
        c'.publicKey = c.publicKey)) ∧
    ∀ c' : Callback, c'.hostId ≠ c.hostId →
      (hostkeyCallback encoding (fileAfter encoding (before ++ [c])) c').1 =
        (hostkeyCallback encoding (fileAfter encoding before) c').1

section Pinned
variable {encoding : KeyEncoding} {run : List Callback}

/-- A recorded key that is accepted without trust is legible. -/
theorem Pinned.legible (pinned : Pinned encoding run) {before : List Callback} {c : Callback}
    {after : List Callback} (split : run = before ++ c :: after)
    (records : Records encoding (fileAfter encoding before) c) : c.Legible := by
  obtain ⟨own, -⟩ := pinned before c after split records
  have accepted := (own [] after rfl { c with trustUnknown := false } rfl).mpr rfl
  obtain ⟨type, key, coded, -, -⟩ := records
  have found : checkKnownHost c.hostId type key (fileAfter encoding (before ++ [c])) = .same := by
    simp only [hostkeyCallback, hostkey, coded] at accepted
    split at accepted
    next same => exact same
    next => cases accepted
    next => cases accepted
  obtain ⟨host, name⟩ := words_of_same found
  obtain ⟨named, -⟩ := hostKey_fields coded
  refine ⟨host.fits, host.solid, fun other same => ?_⟩
  rw [named] at same
  cases same
  exact ⟨name.nonempty, name.solid⟩

theorem pinned_of_legible (legible : ∀ before c after, run = before ++ c :: after →
    Records encoding (fileAfter encoding before) c → c.Legible) : Pinned encoding run := by
  rintro before c after rfl records
  have legibleNow := legible before c after rfl records
  obtain ⟨type, key, coded, fresh, trusted⟩ := records
  obtain ⟨entries, stored⟩ : ∃ entries, fileAfter encoding before = fileOf entries := by
    obtain ⟨entries, stored⟩ := fileAfter_entries [] before [] rfl
      fun before' c' after' split records => legible before' c' (after' ++ c :: after) (by
        rw [List.nil_append] at split
        rw [split]
        simp) records
    exact ⟨entries, by simpa using stored⟩
  obtain ⟨e, host, rfl, rfl⟩ := legibleNow.entry coded
  have recorded : fileAfter encoding (before ++ [c]) = fileOf (entries ++ [e]) := by
    rw [stored] at fresh
    rw [fileAfter_append, stored, callback_records coded fresh trusted, ← host]
    simp [fileOf, Entry.line]
  have absent : entries.find? (·.hostId = c.hostId) = none := by
    rw [stored, checkKnownHost_fileOf] at fresh
    split at fresh
    next missing => exact missing
    next => split at fresh <;> cases fresh
  constructor
  · rintro later rest rfl c' same
    obtain ⟨more, reached⟩ := fileAfter_entries (before ++ [c]) later _ recorded
      fun before' c' after' split records => legible before' c' (after' ++ rest) (by
        have whole : before ++ c :: (later ++ rest) = (before ++ [c] ++ later) ++ rest := by simp
        rw [whole, split]
        simp) records
    have whole : before ++ c :: later = before ++ [c] ++ later := by simp
    rw [whole, reached]
    refine pinned_verdict (e := e) ?_ coded
    rw [same, List.append_assoc, List.find?_append, absent]
    simp [host]
  · intro c' other
    have elsewhere : (entries ++ [e]).find? (·.hostId = c'.hostId) =
        entries.find? (·.hostId = c'.hostId) := by
      rw [List.find?_append, List.find?_singleton, if_neg]
      · simp
      · simpa [host] using other.symm
    rw [recorded, stored]
    cases coded' : hostKey encoding c'.publicKey with
    | none => simp [hostkeyCallback, hostkey, coded']
    | some pair => rw [verdict_fileOf _ coded', verdict_fileOf _ coded', elsewhere]

/-- A run pins the keys it records exactly if every entry it writes can be read back. -/
theorem pinned_iff_legible (encoding : KeyEncoding) (run : List Callback) :
    Pinned encoding run ↔ ∀ before c after, run = before ++ c :: after →
      Records encoding (fileAfter encoding before) c → c.Legible :=
  ⟨fun pinned _ _ _ split records => pinned.legible split records, pinned_of_legible⟩

end Pinned

section Example

/-- The coding of wolfCrypt is that of RFC 4648. -/
def rfc4648 : KeyEncoding where
  encode := Base64.encode
  injective := Base64.encode_injective
  nonempty := fun _ => Base64.encode_ne_nil
  visible := fun input byte member => by
    have high := UInt8.le_iff_toNat_le.mp (Base64.visible_of_mem_encode input byte member)
    have bound : 43 ≤ byte.toNat := high
    exact UInt8.le_iff_toNat_le.mpr (show 33 ≤ byte.toNat by omega)

/-- A host name of three labels, 188 characters long. -/
def longHost : List UInt8 :=
  List.replicate 62 97 ++ 46 :: (List.replicate 62 97 ++ 46 :: List.replicate 62 97)

def longUrl : List UInt8 := tcpScheme ++ longHost ++ [58, 50, 50, 50, 50]

/-- An `ssh-ed25519` blob whose 32 key bytes are all `byte`. -/
def ed25519Blob (byte : UInt8) : List UInt8 :=
  [0, 0, 0, 11, 115, 115, 104, 45, 101, 100, 50, 53, 53, 49, 57, 0, 0, 0, 32] ++
    List.replicate 32 byte

/-- A callback for that host on port 2222. -/
def longCallback (byte : UInt8) : Callback where
  hostId := 91 :: longHost ++ [93, 58, 50, 50, 50, 50]
  publicKey := ed25519Blob byte
  trustUnknown := true
  supplied := ⟨longUrl, by decide +kernel, by decide +kernel⟩

/-- After the key of 1s has been recorded, the key of 2s is accepted for the same host. -/
theorem longHost_not_pinned : ¬Pinned rfc4648 [longCallback 1] ∧
    (hostkeyCallback rfc4648 (fileAfter rfc4648 [longCallback 1]) (longCallback 2)).1 = .accepted := by
  have accepted : (hostkeyCallback rfc4648 (fileAfter rfc4648 [longCallback 1]) (longCallback 2)).1 =
      .accepted := by decide +kernel
  refine ⟨fun pinned => ?_, accepted⟩
  have records : Records rfc4648 (fileAfter rfc4648 []) (longCallback 1) :=
    ⟨_, _, rfl, by decide +kernel, rfl⟩
  have own := (pinned [] (longCallback 1) [] rfl records).1 [] [] rfl (longCallback 2) rfl
  have same := own.mp accepted
  exact absurd same (by decide +kernel)

/-- A callback for the host `pi` or the host `pa`, on the usual port. -/
def shortCallback (letter : Fin 2) (byte : UInt8) : Callback where
  hostId := [112, if letter = 0 then 105 else 97]
  publicKey := ed25519Blob byte
  trustUnknown := true
  supplied := ⟨tcpScheme ++ [112, if letter = 0 then 105 else 97, 58, 50, 50],
    by revert letter; decide +kernel, by revert letter; decide +kernel⟩

theorem shortCallback_legible (letter : Fin 2) (byte : UInt8) : (shortCallback letter byte).Legible where
  fits := show 2 ≤ 191 by decide
  host := by
    change ∀ visible ∈ [112, if letter = 0 then 105 else 97], isSpace visible = false
    revert letter
    decide +kernel
  type type found := by
    have ed25519 : type = [115, 115, 104, 45, 101, 100, 50, 53, 53, 49, 57] :=
      (Option.some.inj found).symm
    subst ed25519
    decide +kernel

/-- Two hosts recorded, the first again and then with another key. -/
def shortRun : List Callback :=
  [shortCallback 0 1, shortCallback 1 2, shortCallback 0 1, shortCallback 0 3]

theorem shortRun_pinned : Pinned rfc4648 shortRun ∧
    (hostkeyCallback rfc4648 (fileAfter rfc4648 shortRun) (shortCallback 0 3)).1 ≠ .accepted ∧
      (hostkeyCallback rfc4648 (fileAfter rfc4648 shortRun) (shortCallback 1 2)).1 = .accepted := by
  refine ⟨(pinned_iff_legible rfc4648 shortRun).mpr fun before c after split _ => ?_,
    by decide +kernel⟩
  have member : c ∈ shortRun := by
    rw [split]
    exact List.mem_append_right _ List.mem_cons_self
  simp only [shortRun, List.mem_cons, List.not_mem_nil, or_false] at member
  rcases member with rfl | rfl | rfl | rfl <;> exact shortCallback_legible _ _

end Example

end Pi1MHz.Wolfssh
