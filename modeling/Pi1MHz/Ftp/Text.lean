import Mathlib.Data.List.Basic

/-! The texts of the FTP client (`ftp_service.c`): requests made into command lines, the
search for a complete reply, and the two passive replies. A C string is the list of its bytes
before the terminator. -/
namespace Pi1MHz.FtpService

def ascii (text : String) : List UInt8 := text.toList.map fun c => c.toNat.toUInt8

def crlf : List UInt8 := [13, 10]

def ftpTextMax : Nat := 237
def hostSize : Nat := 192
def transferCommandSize : Nat := ftpTextMax + 8

inductive Transfer
  | none
  | read
  | write
  | list
deriving DecidableEq, Repr

def Transfer.byte : Transfer → UInt8
  | .none => 0
  | .read => 1
  | .write => 2
  | .list => 3

def isDigit (byte : UInt8) : Bool := 48 ≤ byte && byte ≤ 57

def digitValue (byte : UInt8) : Nat := byte.toNat - 48

/-- Read decimal digits onto `value`, refusing one that takes it over `limit`. -/
def scanNumber (limit value : Nat) : List UInt8 → Option (Nat × List UInt8)
  | [] => some (value, [])
  | byte :: rest =>
    if isDigit byte then
      let value := value * 10 + digitValue byte
      if limit < value then none else scanNumber limit value rest
    else some (value, byte :: rest)

def lower (byte : UInt8) : UInt8 := if 65 ≤ byte && byte ≤ 90 then byte + 32 else byte

/-- Host and port of `[ftp://]host[:port][/...]`; the last colon separates the port. -/
def ftpParseUrl (url : List UInt8) (capacity : Nat := hostSize) : Option (List UInt8 × Nat) :=
  let start := if (url.take 6).map lower = ascii "ftp://" then url.drop 6 else url
  let authority := start.takeWhile (· ≠ 47)
  if authority.any (fun byte => byte < 0x21 || byte == 64) then none
  else
    let target :=
      if 58 ∈ authority then
        let digits := (authority.reverse.takeWhile (· ≠ 58)).reverse
        let host := authority.take (authority.length - digits.length - 1)
        if digits = [] ∨ digits.any (fun byte => !isDigit byte) then none
        else (scanNumber 65535 0 digits).map fun read => (host, read.1)
      else some (authority, 21)
    target.filter fun found => 0 < found.1.length && found.1.length < capacity

/-- Upper-case the first word. -/
def ftpUpperWord : List UInt8 → List UInt8
  | [] => []
  | byte :: rest =>
    if byte = 32 then byte :: rest
    else (if 97 ≤ byte && byte ≤ 122 then byte - 32 else byte) :: ftpUpperWord rest

/-- What follows the first word, its space included. -/
def argumentOf (request : List UInt8) : List UInt8 := request.dropWhile (· ≠ 32)

def ftpIsTransfer (command : List UInt8) : Option (Transfer × List UInt8) :=
  if command.take 4 = ascii "GET " then some (.read, ascii "RETR")
  else if command.take 4 = ascii "PUT " then some (.write, ascii "STOR")
  else if command = ascii "DIR" ∨ command.take 4 = ascii "DIR " then some (.list, ascii "LIST")
  else if command = ascii "LS" ∨ command.take 3 = ascii "LS " then some (.list, ascii "NLST")
  else none

/-- The line for a request that is not a transfer, before it is fitted into its buffer. -/
def ftpMakeCommand (input : List UInt8) : List UInt8 :=
  let word := input.takeWhile (· ≠ 32)
  let argument := argumentOf input
  if word = ascii "CD" then ascii "CWD" ++ argument ++ crlf
  else if word = ascii "DELETE" then ascii "DELE" ++ argument ++ crlf
  else if word = ascii "MKDIR" then ascii "MKD" ++ argument ++ crlf
  else if word = ascii "RMDIR" then ascii "RMD" ++ argument ++ crlf
  else if word = ascii "BINARY" then ascii "TYPE I" ++ crlf
  else if word = ascii "ASCII" then ascii "TYPE A" ++ crlf
  else input ++ crlf

/-- The line built from a `GET`, `PUT`, `DIR` or `LS` request, if it is one. -/
def transferLine (request : List UInt8) : Option (List UInt8) :=
  let command := ftpUpperWord request
  (ftpIsTransfer command).map fun found => found.2 ++ argumentOf command ++ crlf

/-- Port of an extended passive reply, `(<d><d><d>port<d>)`. -/
def ftpParseEpsv (reply : List UInt8) : Option Nat :=
  match reply.dropWhile (· ≠ 40) with
  | [] => none
  | _ :: body =>
    let inside := body.takeWhile (· ≠ 41)
    if 41 ∉ body ∨ inside.length < 5 then none
    else
      match inside with
      | delimiter :: second :: third :: number =>
        if second ≠ delimiter ∨ third ≠ delimiter ∨ !(number.head?.any isDigit) then none
        else
          match scanNumber 65535 0 number with
          | some (value, close :: _) => if close ≠ delimiter ∨ value = 0 then none else some value
          | _ => none
      | _ => none

/-- The next of six comma separated octets. -/
def scanOctet (text : List UInt8) : Option (Nat × List UInt8) :=
  if text.head?.any isDigit then scanNumber 255 0 text else none

/-- `remaining` octets with a comma after all but the last. -/
def scanOctets : Nat → List UInt8 → Option (List Nat)
  | 0, _ => some []
  | remaining + 1, text =>
    match scanOctet text with
    | none => none
    | some (value, rest) =>
      if remaining = 0 then some [value]
      else
        match rest with
        | 44 :: rest => (scanOctets remaining rest).map (value :: ·)
        | _ => none

/-- Port of a passive reply, `(h1,h2,h3,h4,p1,p2`. -/
def ftpParsePasv (reply : List UInt8) : Option Nat :=
  match reply.dropWhile (· ≠ 40) with
  | [] => none
  | _ :: body =>
    match scanOctets 6 body with
    | some [_, _, _, _, high, low] => some (high * 256 + low) |>.filter (· ≠ 0)
    | _ => none

/-- A line of at least four bytes that opens with a reply code, with the byte after it. -/
def lineCode (line : List UInt8) : Option (Nat × UInt8) :=
  match line with
  | first :: second :: third :: separator :: _ =>
    if 49 ≤ first && first ≤ 53 && isDigit second && isDigit third then
      some (digitValue first * 100 + digitValue second * 10 + digitValue third, separator)
    else none
  | _ => none

/-- The loop of `ftp_reply` from byte `i` of the line that starts at `lineStart`: code and
length of the first complete reply. `multiline` is the code of an opening `ddd-` line, or 0. -/
def scanReply (text : List UInt8) (lineStart multiline i : Nat) : Option (Nat × Nat) :=
  if i + 1 < text.length then
    if text[i]? ≠ some 13 ∨ text[i + 1]? ≠ some 10 then scanReply text lineStart multiline (i + 1)
    else
      match lineCode ((text.take i).drop lineStart) with
      | none => scanReply text (i + 2) multiline (i + 2)
      | some (code, separator) =>
        let multiline := if lineStart = 0 ∧ separator = 45 then code else multiline
        if separator ≠ 32 ∨ (multiline ≠ 0 ∧ code ≠ multiline) then
          scanReply text (i + 2) multiline (i + 2)
        else some (code, i + 2)
  else none
termination_by text.length - i

end Pi1MHz.FtpService
