import Mathlib.Data.List.TakeWhile

/-! The host keys an SSH client remembers (`pi1mhz_wolfssh.c`): the identifier made from a URL,
the text file of known hosts, and the callback that consults and extends it. A C string is the
list of its bytes before the terminator. -/
namespace Pi1MHz.Wolfssh

def hostSize : Nat := 192
def hostIdSize : Nat := 224
def portSize : Nat := 16
def hostKeyTypeSize : Nat := 64
def hostKeySize : Nat := 2048
def writtenLineSize : Nat := 2400
def readLineSize : Nat := 2600

/-- The encoder of wolfCrypt, as far as the callback relies on it. -/
structure KeyEncoding where
  encode : List UInt8 → List UInt8
  injective : Function.Injective encode
  nonempty : ∀ input, input ≠ [] → encode input ≠ []
  visible : ∀ input, ∀ byte ∈ encode input, 33 ≤ byte

section Target

def tcpScheme : List UInt8 := [84, 67, 80, 58, 47, 47]

/-- Host and port of `TCP://host:port[/...]`; the last colon separates the port. -/
def parseUrl (url : List UInt8) : Option (List UInt8 × List UInt8) :=
  if url.take 6 ≠ tcpScheme then none
  else
    let authority := (url.drop 6).takeWhile (· ≠ 47)
    if 58 ∉ authority then none
    else
      let port := (authority.reverse.takeWhile (· ≠ 58)).reverse
      let host := authority.take (authority.length - port.length - 1)
      if host = [] ∨ hostSize ≤ host.length ∨ portSize ≤ port.length then none
      else some (host, port)

/-- The identifier `begin_tcp` keeps: the host alone for port 22. -/
def hostIdOf (url : List UInt8) : Option (List UInt8) :=
  match parseUrl url with
  | none => none
  | some (host, port) =>
    if port = [50, 50] then if hostIdSize ≤ host.length then none else some host
    else
      let hostId := 91 :: host ++ 93 :: 58 :: port
      if hostIdSize ≤ hostId.length then none else some hostId

end Target

section Reader

def isSpace (byte : UInt8) : Bool := byte = 32 || (9 ≤ byte && byte ≤ 13)

/-- The conversion `%<width>s`. -/
def scanWord (width : Nat) (input : List UInt8) : Option (List UInt8 × List UInt8) :=
  let start := input.dropWhile isSpace
  let word := (start.takeWhile fun byte => !isSpace byte).take width
  if word = [] then none else some (word, start.drop word.length)

/-- `sscanf` with `%191s %63s %2047s`, all three fields read. A blank of the format skips what
the conversion after it skips anyway. -/
def scanEntry (line : List UInt8) : Option (List UInt8 × List UInt8 × List UInt8) :=
  match scanWord 191 (line.takeWhile (· ≠ 0)) with
  | none => none
  | some (host, rest) =>
    match scanWord 63 rest with
    | none => none
    | some (type, rest) =>
      match scanWord 2047 rest with
      | none => none
      | some (key, _) => some (host, type, key)

/-- The bytes up to the first end of line, at most `limit`. -/
def takeLine : Nat → List UInt8 → List UInt8
  | 0, _ => []
  | _, [] => []
  | limit + 1, byte :: rest => if byte = 10 then [byte] else byte :: takeLine limit rest

theorem takeLine_positive {limit : Nat} (positive : 0 < limit) (byte : UInt8) (rest : List UInt8) :
    0 < (takeLine limit (byte :: rest)).length := by
  cases limit with
  | zero => cases positive
  | succ limit =>
    simp only [takeLine]
    split <;> simp

inductive Known
  | unknown
  | same
  | changed
deriving DecidableEq, Repr

/-- Compare with the first entry of the host. -/
def checkKnownHost (hostId type key : List UInt8) (file : List UInt8) : Known :=
  match file with
  | [] => .unknown
  | byte :: rest =>
    let line := takeLine (readLineSize - 1) (byte :: rest)
    let later := (byte :: rest).drop line.length
    match scanEntry line with
    | some (host, storedType, storedKey) =>
      if host = hostId then if storedType = type ∧ storedKey = key then .same else .changed
      else checkKnownHost hostId type key later
    | none => checkKnownHost hostId type key later
termination_by file.length
decreasing_by
  all_goals
    have := takeLine_positive (show 0 < readLineSize - 1 by decide) byte rest
    simp only [List.length_drop, List.length_cons]
    omega

end Reader

/-- The length of the name at the front of a key blob, 0 if the blob is too short. -/
def nameSize : List UInt8 → Nat
  | a :: b :: c :: d :: _ => ((a.toNat * 256 + b.toNat) * 256 + c.toNat) * 256 + d.toNat
  | _ => 0

/-- The name itself, as a C string. -/
def hostKeyType (publicKey : List UInt8) : Option (List UInt8) :=
  let size := nameSize publicKey
  if size = 0 ∨ hostKeyTypeSize ≤ size ∨ publicKey.length - 4 < size then none
  else some (((publicKey.drop 4).take size).takeWhile (· ≠ 0))

/-- The type and the coded key that a blob stands for, if both fit their buffers. -/
def hostKey (encoding : KeyEncoding) (publicKey : List UInt8) : Option (List UInt8 × List UInt8) :=
  match hostKeyType publicKey with
  | none => none
  | some type =>
    let key := encoding.encode publicKey
    if hostKeySize - 1 < key.length then none else some (type, key)

/-- A call of the callback: the connection it belongs to and the key that the server sent. -/
structure Callback where
  hostId : List UInt8
  publicKey : List UInt8
  trustUnknown : Bool
  supplied : ∃ url, 0 ∉ url ∧ hostIdOf url = some hostId

inductive Verdict
  | accepted
  | changed
  | unknown
  | refused
deriving DecidableEq, Repr

def entryLine (hostId type key : List UInt8) : List UInt8 :=
  hostId ++ 32 :: (type ++ 32 :: (key ++ [10]))

def writeKnownHost (hostId type key file : List UInt8) : Option (List UInt8) :=
  if writtenLineSize ≤ (entryLine hostId type key).length then none
  else some (file ++ entryLine hostId type key)

/-- `hostkey_callback`, for the host and the trust of the connection under way. -/
def hostkey (encoding : KeyEncoding) (hostId : List UInt8) (trustUnknown : Bool)
    (publicKey file : List UInt8) : Verdict × List UInt8 :=
  match hostKey encoding publicKey with
  | none => (.refused, file)
  | some (type, key) =>
    match checkKnownHost hostId type key file with
    | .same => (.accepted, file)
    | .changed => (.changed, file)
    | .unknown =>
      if !trustUnknown then (.unknown, file)
      else
        match writeKnownHost hostId type key file with
        | none => (.refused, file)
        | some file => (.accepted, file)

def hostkeyCallback (encoding : KeyEncoding) (file : List UInt8) (c : Callback) :
    Verdict × List UInt8 :=
  hostkey encoding c.hostId c.trustUnknown c.publicKey file

/-- The file after a run of callbacks that started without one. -/
def fileAfter (encoding : KeyEncoding) (run : List Callback) : List UInt8 :=
  run.foldl (fun file c => (hostkeyCallback encoding file c).2) []

end Pi1MHz.Wolfssh
