import Mathlib.Algebra.Ring.Nat
import Pi1MHz.Foundation.Memory
import Pi1MHz.Foundation.Search
import Pi1MHz.Ftp.Text
import Pi1MHz.Ssh.KnownHosts

/-! READ on a live handle (`do_read` of `pi1mhz_net_backend.c`): the header of an HTTP response
is collected in the handle's buffer, and the body is served from what is left there and then from
the socket. -/
namespace Pi1MHz.Http
open FtpService (ascii crlf isDigit digitValue lower)
open Wolfssh (isSpace)

inductive Code
  | ok
  | eof
  | notOpen
  | param
  | conn
  | tcpClosed
deriving DecidableEq, Repr

/-- `sizeof(handle->response)`. -/
def responseSize : Nat := 8192

/-- `SIZE_MAX`, and `ULONG_MAX`. -/
def sizeMax : Nat := 2 ^ 64 - 1

structure NetHandle where
  opened : Bool
  http : Bool
  /-- The first `response_size` bytes of the buffer. -/
  response : List UInt8
  responsePos : Nat
  headersDone : Bool
  httpHasLength : Bool
  httpContentLength : Nat
  httpBodyRead : Nat

/-- What a `recv` meets: nothing yet, an error, or `more + 1` bytes of those on the way. -/
inductive Poll
  | empty
  | failed
  | ready (more : Nat)
deriving DecidableEq, Repr

inductive Received
  | wouldBlock
  | error
  | bytes (data : List UInt8)

/-- `recv` of at most `limit` bytes; the peer has closed behind the last byte of the wire, and a
`recv` there returns no bytes. -/
def recv (poll : Poll) (limit : Nat) (wire : List UInt8) : Received × List UInt8 :=
  match poll with
  | .empty => (.wouldBlock, wire)
  | .failed => (.error, wire)
  | .ready more => (.bytes (wire.take (min (more + 1) limit)), wire.drop (min (more + 1) limit))

def cString (bytes : List UInt8) : List UInt8 := bytes.takeWhile (· ≠ 0)

def decimal (digits : List UInt8) : Nat :=
  digits.foldl (fun value digit => value * 10 + digitValue digit) 0

/-- `strtoul` in base 10; nothing when it converts no digits. -/
def strtoul (text : List UInt8) : Option Nat :=
  let start := text.dropWhile isSpace
  let negative := start.head? = some 45
  let digits := (if negative ∨ start.head? = some 43 then start.tail else start).takeWhile isDigit
  if digits = [] then none
  else if sizeMax < decimal digits then some sizeMax
  else if negative then some ((2 ^ 64 - decimal digits) % 2 ^ 64)
  else some (decimal digits)

def blankLine : List UInt8 := crlf ++ crlf
def lengthKey : List UInt8 := crlf ++ ascii "Content-Length:"

/-- The length that the header block declares, read from the response as a string. -/
def headerLength (text : List UInt8) (separator : Nat) : Option Nat :=
  (Search.firstAt lengthKey text).bind fun field =>
    if field < separator then strtoul (text.drop (field + 17)) else none

structure Read where
  maximum : Nat
  destination : Nat
  /-- What the `recv` for the header meets, and the one for the body. -/
  first : Poll
  second : Poll
  positive : 1 ≤ maximum
  fits : maximum < 2 ^ 24

/-- The result code, the length left in the command, and whether the last `recv` of the READ
returned nothing: the peer has closed. -/
structure Reply where
  code : Code
  length : Nat
  closed : Bool
deriving DecidableEq, Repr

structure Live where
  handle : NetHandle
  wire : List UInt8
  jim : Memory UInt8

/-- What `do_read` does with a response in which the blank line stands at `separator`. -/
def finishHeader (handle : NetHandle) (separator : Nat) : Option NetHandle :=
  if handle.response.length < 12 ∨ handle.response.take 7 ≠ ascii "HTTP/1." ∨
      handle.response.getD 9 0 ≠ 50 then none
  else
    let declared := headerLength (cString handle.response) separator
    some { handle with
      httpHasLength := handle.httpHasLength || declared.isSome
      httpContentLength := declared.getD handle.httpContentLength
      response := handle.response.drop (separator + 4)
      headersDone := true }

/-- The header part of `do_read`; a reply ends the READ. -/
def readHeader (s : Live) (r : Read) : Live × Option Reply :=
  if responseSize - 1 ≤ s.handle.response.length then (s, some ⟨.conn, r.maximum, false⟩)
  else match recv r.first (responseSize - 1 - s.handle.response.length) s.wire with
    | (.wouldBlock, _) => (s, some ⟨.ok, 0, false⟩)
    | (.error, _) => (s, some ⟨.conn, 0, false⟩)
    | (.bytes data, wire) =>
      if data = [] then (s, some ⟨.conn, r.maximum, true⟩)
      else
        let handle := { s.handle with response := s.handle.response ++ data }
        let next := { s with handle := handle, wire := wire }
        match Search.firstAt blankLine (cString handle.response) with
        | none => (next, some ⟨.ok, 0, false⟩)
        | some separator =>
          match finishHeader handle separator with
          | none => (next, some ⟨.conn, r.maximum, false⟩)
          | some handle => ({ next with handle := handle }, none)

/-- `http_body_read`, kept for an HTTP handle only. -/
def countBody (handle : NetHandle) (count : Nat) : NetHandle :=
  if handle.http then { handle with httpBodyRead := (handle.httpBodyRead + count) % 2 ^ 64 }
  else handle

/-- The verdict on a stream that the peer has closed. -/
def closedCode (handle : NetHandle) : Code :=
  if handle.httpHasLength && handle.httpBodyRead < handle.httpContentLength then .tcpClosed
  else .eof

/-- The body part of `do_read`. -/
def readBody (s : Live) (r : Read) : Live × Reply :=
  if s.handle.http && s.handle.responsePos < s.handle.response.length then
    let copied := (s.handle.response.drop s.handle.responsePos).take r.maximum
    let handle := { s.handle with responsePos := s.handle.responsePos + copied.length }
    ({ s with handle := countBody handle copied.length, jim := s.jim.write r.destination copied },
      ⟨.ok, copied.length, false⟩)
  else match recv r.second r.maximum s.wire with
    | (.wouldBlock, _) => (s, ⟨.ok, 0, false⟩)
    | (.error, _) => (s, ⟨.conn, 0, false⟩)
    | (.bytes data, wire) =>
      if data = [] then (s, ⟨closedCode s.handle, 0, true⟩)
      else
        ({ handle := countBody s.handle data.length, wire := wire,
            jim := s.jim.write r.destination data }, ⟨.ok, data.length, false⟩)

def doRead (jimSize : Nat) (s : Live) (r : Read) : Live × Reply :=
  if !s.handle.opened then (s, ⟨.notOpen, r.maximum, false⟩)
  else if jimSize ≤ r.destination ∨ jimSize - r.destination < r.maximum then
    (s, ⟨.param, r.maximum, false⟩)
  else if s.handle.http && !s.handle.headersDone then
    match readHeader s r with
    | (next, some reply) => (next, reply)
    | (next, none) => readBody next r
  else readBody s r

/-- One READ of a run, and the bytes that its reply says are in JIM. -/
def step (jimSize : Nat) (s : Live) (r : Read) : Live := (doRead jimSize s r).1

def delivered (jimSize : Nat) (s : Live) (r : Read) : List UInt8 :=
  let (next, reply) := doRead jimSize s r
  if reply.code = .ok then next.jim.read r.destination reply.length else []

end Pi1MHz.Http
