import Pi1MHz.Http.Reader

/-! The emulator's FTP client (`pi1mhz_ftp.c`), on a blocking socket: the reader of replies, the
parser of targets and the one of passive replies, and the commands that requests become. -/
namespace Pi1MHz.FtpEmulator
open FtpService (ascii isDigit digitValue lower scanNumber scanOctets)
open Http (decimal sizeMax)
open Wolfssh (isSpace)

/-- `FTP_TEXT`. -/
def ftpText : Nat := 237

/-- `sizeof line`, in `read_reply`. -/
def lineSize : Nat := 256

/-- `read_reply` between two bytes: the line so far, the text kept of the reply, and the code of
an opening `ddd-` line, or 0. -/
structure Reading where
  line : List UInt8
  reply : List UInt8
  multiline : Nat

def keep (limit : Nat) (kept : List UInt8) (byte : UInt8) : List UInt8 :=
  if kept.length < limit then kept ++ [byte] else kept

/-- The digits a line opens with and the byte after them. -/
def lineCode : List UInt8 → Option (Nat × UInt8)
  | first :: second :: third :: fourth :: _ =>
    if isDigit first && isDigit second && isDigit third then
      some (digitValue first * 100 + digitValue second * 10 + digitValue third, fourth)
    else none
  | _ => none

/-- What the end of a line decides: a code when it ends the reply, or else `multiline`. -/
def endLine (line : List UInt8) (multiline : Nat) : Nat ⊕ Nat :=
  match lineCode line with
  | none => .inr multiline
  | some (code, separator) =>
    if multiline = 0 ∧ separator = 45 then .inr code
    else if separator = 32 ∧ (multiline = 0 ∨ code = multiline) then .inl code
    else .inr multiline

/-- The loop of `read_reply`: code and text of the reply with the bytes left, or nothing when the
connection ends first. -/
def readLoop (r : Reading) : List UInt8 → Option (Nat × List UInt8 × List UInt8)
  | [] => none
  | byte :: wire =>
    let reply := keep ftpText r.reply byte
    let line := keep (lineSize - 1) r.line byte
    if byte ≠ 10 then readLoop { r with line, reply } wire
    else
      match endLine line r.multiline with
      | .inl code => some (code, reply, wire)
      | .inr multiline => readLoop ⟨[], reply, multiline⟩ wire

def readReply (wire : List UInt8) : Option (Nat × List UInt8 × List UInt8) :=
  readLoop ⟨[], [], 0⟩ wire

/-- What `strtoul` gives: the value, the text from `*endptr`, and whether `errno` was set. -/
structure Conversion where
  value : Nat
  tail : List UInt8
  range : Bool

/-- `strtoul` in base 10. -/
def strtoul (text : List UInt8) : Conversion :=
  let start := text.dropWhile isSpace
  let negative := start.head? = some 45
  let body := if negative ∨ start.head? = some 43 then start.tail else start
  let value := decimal (body.takeWhile isDigit)
  if body.takeWhile isDigit = [] then ⟨0, text, false⟩
  else if sizeMax < value then ⟨sizeMax, body.dropWhile isDigit, true⟩
  else ⟨if negative then (2 ^ 64 - value) % 2 ^ 64 else value, body.dropWhile isDigit, false⟩

/-- Host and port of `[ftp://]host[:port][/...]`; the last colon separates the port. -/
def parseTarget (url : List UInt8) (capacity : Nat) : Option (List UInt8 × Nat) :=
  let start := if (url.take 6).map lower = ascii "ftp://" then url.drop 6 else url
  let authority := start.takeWhile (· ≠ 47)
  let rest := start.dropWhile (· ≠ 47)
  if authority.any (fun byte => byte < 0x21 || byte == 64) then none
  else
    let target :=
      if 58 ∈ authority then
        let number := (authority.reverse.takeWhile (· ≠ 58)).reverse
        let host := authority.take (authority.length - number.length - 1)
        let read := strtoul (number ++ rest)
        -- `tail` and `end` point into one string.
        if read.range ∨ read.tail.length ≠ rest.length ∨ read.value = 0 ∨ 65535 < read.value then none
        else some (host, read.value)
      else some (authority, 21)
    target.filter fun found => 0 < found.1.length && found.1.length < capacity

/-- Port of a passive reply; a reply with `229 ` anywhere in it is read as an extended one. -/
def passivePort (reply : List UInt8) : Option Nat :=
  match reply.dropWhile (· ≠ 40) with
  | [] => none
  | _ :: body =>
    if (Search.firstAt (ascii "229 ") reply).isSome then
      match body with
      | delimiter :: second :: third :: number =>
        if second ≠ delimiter ∨ third ≠ delimiter then none
        else
          match scanNumber 65535 0 number with
          | some (value, close :: _) => if close ≠ delimiter ∨ value = 0 then none else some value
          | _ => none
      -- The code reads on past a terminator right after the parenthesis.
      | _ => none
    else
      match scanOctets 6 body with
      | some [_, _, _, _, high, low] => some (high * 256 + low) |>.filter (· ≠ 0)
      | _ => none

/-- `sizeof wire`, in the dispatchers. -/
def wireSize : Nat := 256

/-- The transfer and the line of a request; the words are compared by `strncasecmp`. -/
def makeCommand (input : List UInt8) (capacity : Nat) : Option (Nat × List UInt8) :=
  let argument := input.dropWhile (· ≠ 32)
  let word := (input.takeWhile (· ≠ 32)).map lower
  let transfer :=
    if word = ascii "get" then 1
    else if word = ascii "put" then 2
    else if word = ascii "dir" ∨ word = ascii "ls" then 3
    else 0
  if (transfer = 1 ∨ transfer = 2) ∧ argument.length ≤ 1 then none
  else
    let line :=
      if word = ascii "get" then ascii "RETR" ++ argument
      else if word = ascii "put" then ascii "STOR" ++ argument
      else if word = ascii "dir" then ascii "LIST" ++ argument
      else if word = ascii "ls" then ascii "NLST" ++ argument
      else if word = ascii "cd" then ascii "CWD" ++ argument
      else if word = ascii "delete" then ascii "DELE" ++ argument
      else if word = ascii "mkdir" then ascii "MKD" ++ argument
      else if word = ascii "rmdir" then ascii "RMD" ++ argument
      else if word = ascii "binary" then ascii "TYPE I"
      else if word = ascii "ascii" then ascii "TYPE A"
      else input
    if capacity ≤ (line ++ FtpService.crlf).length then none
    else some (transfer, line ++ FtpService.crlf)

end Pi1MHz.FtpEmulator
