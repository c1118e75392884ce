import Pi1MHz.Uef.Finalize
import Pi1MHz.Uef.Layout

/-! Delivery of a tape by the incremental commands, seen from a host that repeats requests
as often as it likes. The host knows only what the replies told it. -/
namespace Pi1MHz.NetBackend
open UefRepair

/-- What the host has done: the bytes it uploaded with the last sequence number and block,
then the generation its last REFILL carried. -/
inductive Stage
  | uploading (content : List UInt8) (last : Option (UInt32 × List UInt8))
  | downloading (content : List UInt8) (last : Option UInt32)

structure Host where
  token : UInt32
  generation : UInt32
  stage : Stage

inductive Action
  | append
  | appendAgain
  | finalize
  | refill
  | refillAgain
  | republish
  | probe
deriving DecidableEq, Repr

def Action.repeats : Action → Bool
  | .appendAgain | .refillAgain | .republish | .probe => true
  | .append | .finalize | .refill => false

/-- The request lies in JIM at `command`. -/
structure Sent (jim : Jim) (command : Nat) (request : Request) : Prop where
  placed : inService Mailbox.jimSize command = true
  code : jim command = elkwifiCmdUefNormalize
  form : isIncremental jim command = true
  parsed : Request.parse jim command = request

/-- An APPEND of `bytes` as block `value`. The token, the length and the checksum may each
be left to the Pi. -/
structure Carries (z : Zlib) (host : Host) (jim : Jim) (request : Request) (value : UInt32)
    (bytes : List UInt8) : Prop where
  operation : request.operation = 2
  token : request.token = 0 ∨ request.token = host.token
  value : request.value = value
  length : request.length.toNat = bytes.length ∨ request.length = 0 ∧ trailer jim = bytes.length
  crc : request.crc = 0 ∨ request.crc = z.crc32 bytes
  bytes : jim.read 0 bytes.length = bytes

/-- What the host may ask next, and where it stands then. -/
inductive Asks (z : Zlib) (host : Host) (jim : Jim) (request : Request) : Action → Stage → Prop
  | append {content last bytes} (stage : host.stage = .uploading content last)
      (nonempty : 1 ≤ bytes.length) (most : bytes.length ≤ uefUploadMax)
      (room : content.length + bytes.length ≤ uefStreamCapacity)
      (carries : Carries z host jim request host.generation bytes) :
      Asks z host jim request .append
        (.uploading (content ++ bytes) (some (host.generation, bytes)))
  | appendAgain {content value bytes} (stage : host.stage = .uploading content (some (value, bytes)))
      (carries : Carries z host jim request value bytes) :
      Asks z host jim request .appendAgain host.stage
  | finalize {content last} (stage : host.stage = .uploading content last)
      (raw : isRawUef content = true) (operation : request.operation = 3)
      (token : request.token = 0 ∨ request.token = host.token) :
      Asks z host jim request .finalize (.downloading content none)
  | refill {content last} (stage : host.stage = .downloading content last)
      (operation : request.operation = 5) (token : request.token = host.token)
      (value : request.value = host.generation) (limited : request.value ≠ 0xffffffff) :
      Asks z host jim request .refill (.downloading content (some host.generation))
  | refillAgain {content value} (stage : host.stage = .downloading content (some value))
      (operation : request.operation = 5) (token : request.token = host.token)
      (same : request.value = value) (limited : request.value ≠ 0xffffffff) :
      Asks z host jim request .refillAgain host.stage
  | republish (operation : request.operation = 7) : Asks z host jim request .republish host.stage
  | probe (operation : request.operation = 0) : Asks z host jim request .probe host.stage

/-- One request and its reply. -/
structure Exchange where
  action : Action
  before : UefState
  status : UInt8
  after : UefState
  jim : Jim
  command : Nat

def Host.next (host : Host) (stage : Stage) (status : UInt8) (jim : Jim) (command : Nat) : Host where
  token := host.token
  generation := if status = netOk then replyGeneration jim command else host.generation
  stage

/-- A host session from BEGIN on. JIM may hold anything between two requests. -/
inductive Session (z : Zlib) (start : UefState) : Host → UefState → List Exchange → Prop
  | begin {jim jim' : Jim} {command : Nat} {request : Request} {status : UInt8} {s : UefState}
      (sent : Sent jim command request) (operation : request.operation = 1)
      (result : dispatch z Mailbox.jimSize start 0xff command jim = some (status, s, jim')) :
      Session z start
        ⟨replyToken jim' command, replyGeneration jim' command, .uploading [] none⟩ s []
  | step {host : Host} {s next : UefState} {trace : List Exchange} {jim jim' : Jim} {command : Nat}
      {request : Request} {action : Action} {stage : Stage} {status : UInt8}
      (session : Session z start host s trace) (sent : Sent jim command request)
      (asks : Asks z host jim request action stage)
      (result : dispatch z Mailbox.jimSize s 0xff command jim = some (status, next, jim')) :
      Session z start (host.next stage status jim' command) next
        (trace ++ [⟨action, s, status, next, jim', command⟩])

/-- The windows delivered by FINALIZE and by fresh REFILLs, with their final flags. -/
def delivered (guarded : Bool) (trace : List Exchange) : List (List UInt8 × Bool) :=
  trace.filterMap fun exchange =>
    match exchange.action with
    | .finalize | .refill =>
      some (windowIn guarded exchange.jim (replyLength exchange.jim exchange.command),
        replyFinal exchange.jim exchange.command)
    | _ => none

/-- The windows put together up to the first final one. -/
def upToFinal : List (List UInt8 × Bool) → List UInt8
  | [] => []
  | (window, final) :: rest => if final then window else window ++ upToFinal rest

def currentWindow (s : UefState) : List UInt8 := s.stream.read s.publishedOffset s.publishedLength.toNat

/-- What a single exchange of a session does. -/
structure Exact (guarded : Bool) (exchange : Exchange) : Prop where
  repeated : exchange.action.repeats = true → exchange.after = exchange.before
  answered : exchange.action ≠ .republish → exchange.status = netOk
  reported : exchange.status = netOk → Reports exchange.after exchange.jim exchange.command
  shown : exchange.action ∈ [Action.finalize, .refill, .refillAgain] →
    windowIn guarded exchange.jim (replyLength exchange.jim exchange.command) =
      currentWindow exchange.after

theorem upToFinal_append (windows : List (List UInt8 × Bool)) (window : List UInt8) (final : Bool) :
    upToFinal (windows ++ [(window, final)]) =
      if windows.any Prod.snd then upToFinal windows else upToFinal windows ++ window := by
  induction windows with
  | nil => simp [upToFinal]
  | cons first rest ih =>
    obtain ⟨front, last⟩ := first
    cases last with
    | true => simp [upToFinal]
    | false =>
      simp only [List.cons_append, upToFinal, ih, List.any_cons, Bool.false_or, Bool.false_eq_true,
        if_false]
      split
      · rfl
      · rw [List.append_assoc]

theorem delivered_append (guarded : Bool) (trace : List Exchange) (exchange : Exchange) :
    delivered guarded (trace ++ [exchange]) =
      delivered guarded trace ++ delivered guarded [exchange] := by
  simp [delivered]

theorem dispatch_sent {z : Zlib} {jim : Jim} {command : Nat} {request : Request}
    (sent : Sent jim command request) (s : UefState) :
    dispatch z Mailbox.jimSize s 0xff command jim =
      some (respond command (incrementalUefControl z s jim request)) := by
  simp only [dispatch, sent.placed, sent.code, sent.form, sent.parsed, Bool.not_true,
    Bool.false_eq_true, if_false, true_and, if_true]
  rw [if_neg (by decide), if_neg (by decide)]

/-- The host's knowledge of a session is the state's. -/
structure Known (start : UefState) (host : Host) (s : UefState) : Prop where
  token : host.token = s.streamToken
  nonzero : s.streamToken ≠ 0
  generation : host.generation = s.windowGeneration
  repair : s.filevRepair = start.filevRepair
  guarded : s.guardImageValid = start.guardImageValid

structure Uploading (z : Zlib) (content : List UInt8) (last : Option (UInt32 × List UInt8))
    (s : UefState) : Prop where
  active : s.uploadActive = true
  held : upload s = content
  size : s.streamLength ≤ uefStreamCapacity
  last : ∀ value bytes, last = some (value, bytes) → value + 1 = s.windowGeneration ∧
    s.lastAppendSequence = value ∧ s.lastAppendLength.toNat = bytes.length ∧
    s.lastAppendCrc = z.crc32 bytes ∧ 1 ≤ bytes.length ∧ bytes.length ≤ uefUploadMax

structure Downloading (image : List UInt8) (last : Option UInt32) (s : UefState)
    (windows : List (List UInt8 × Bool)) : Prop where
  ready : s.streamReady = true
  held : upload s = image
  size : s.streamLength ≤ uefStreamCapacity
  inside : s.streamCursor ≤ s.streamLength
  window : s.publishedOffset + s.publishedLength.toNat = s.streamCursor
  fits : s.publishedLength.toNat ≤ windowLimit s
  last : ∀ value, last = some value → value + 1 = s.windowGeneration
  sofar : upToFinal windows = image.take s.streamCursor
  flagged : windows.any Prod.snd = decide (s.streamCursor = s.streamLength)
  full : ∀ window ∈ windows, window.2 = false → window.1.length = windowLimit s

def Follows (z : Zlib) (start : UefState) (host : Host) (s : UefState) (trace : List Exchange) : Prop :=
  Known start host s ∧
    match host.stage with
    | .uploading content last =>
      Uploading z content last s ∧ delivered start.guardImageValid trace = []
    | .downloading content last =>
      Downloading (retained start.filevRepair content) last s (delivered start.guardImageValid trace)

theorem lengthIn_carried {z : Zlib} {host : Host} {jim : Jim} {request : Request} {value : UInt32}
    {bytes : List UInt8} (carries : Carries z host jim request value bytes)
    (nonempty : 1 ≤ bytes.length) (most : bytes.length ≤ uefUploadMax) :
    (request.lengthIn jim).toNat = bytes.length := by
  have small : uefUploadMax = 0xff00 := rfl
  simp only [Request.lengthIn]
  rcases carries.length with explicit | ⟨zero, left⟩
  · rw [if_neg ?_]
    · exact explicit
    · intro zero
      rw [zero] at explicit
      exact absurd explicit.symm (by change bytes.length ≠ 0; omega)
  · rw [if_pos zero, left]
    exact UInt16.toNat_ofNat_of_lt' (show bytes.length < 0x10000 by omega)

theorem tokenFor_known {start : UefState} {host : Host} {s : UefState} {request : Request}
    (known : Known start host s) (token : request.token = 0 ∨ request.token = host.token) :
    request.tokenFor s = s.streamToken := by
  simp only [Request.tokenFor]
  rcases token with zero | same
  · rw [if_pos zero]
  · rw [same, known.token]
    split <;> rfl

theorem tokenFor_refill {start : UefState} {host : Host} {s : UefState} {request : Request}
    (known : Known start host s) (ready : s.streamReady = true)
    (token : request.token = host.token) :
    ¬((!s.streamReady) = true ∨ request.token ≠ 0 ∧ request.token ≠ s.streamToken) := by
  simp [ready, token, known.token]

theorem successor_ne (value : UInt32) : value ≠ value + 1 := by
  intro same
  have small := value.toNat_lt
  have number := congrArg UInt32.toNat same
  rw [UInt32.toNat_add, UInt32.toNat_one] at number
  omega

theorem carried_admitted {z : Zlib} {start : UefState} {host : Host} {s : UefState} {jim : Jim}
    {request : Request} {value : UInt32} {bytes : List UInt8} (known : Known start host s)
    (active : s.uploadActive = true) (carries : Carries z host jim request value bytes)
    (nonempty : 1 ≤ bytes.length) (most : bytes.length ≤ uefUploadMax) :
    ¬((!s.uploadActive) = true ∨ request.tokenFor s ≠ s.streamToken ∨
      request.lengthIn jim = 0 ∨ uefUploadMax < (request.lengthIn jim).toNat) := by
  have length := lengthIn_carried carries nonempty most
  rintro (inactive | token | zero | long)
  · simp [active] at inactive
  · exact token (tokenFor_known known carries.token)
  · rw [zero] at length
    exact absurd length.symm (by change bytes.length ≠ 0; omega)
  · omega

theorem carried_append {z : Zlib} {host : Host} {jim : Jim} {request : Request} {value : UInt32}
    {bytes : List UInt8} (carries : Carries z host jim request value bytes) :
    Operation.ofByte request.operation = some .append := by
  rw [carries.operation]
  rfl

theorem carried_crc {z : Zlib} {host : Host} {jim : Jim} {request : Request} {value : UInt32}
    {bytes : List UInt8} (carries : Carries z host jim request value bytes) :
    ¬(request.crc ≠ 0 ∧ request.crc ≠ z.crc32 bytes) := by
  rintro ⟨given, wrong⟩
  rcases carries.crc with zero | same
  · exact given zero
  · exact wrong same

theorem append_outcome {z : Zlib} {start : UefState} {host : Host} {s : UefState} {jim : Jim}
    {request : Request} {content bytes : List UInt8} {last : Option (UInt32 × List UInt8)}
    (known : Known start host s) (uploading : Uploading z content last s)
    (nonempty : 1 ≤ bytes.length) (most : bytes.length ≤ uefUploadMax)
    (room : content.length + bytes.length ≤ uefStreamCapacity)
    (carries : Carries z host jim request host.generation bytes) :
    incrementalUefControl z s jim request = (.stream,
      { s with
        stream := s.stream.write s.streamLength bytes
        streamLength := s.streamLength + bytes.length
        lastAppendSequence := request.value
        lastAppendLength := request.lengthIn jim
        lastAppendCrc := z.crc32 bytes
        windowGeneration := s.windowGeneration + 1 }, jim) := by
  have length := lengthIn_carried carries nonempty most
  have held : s.streamLength = content.length := by
    rw [← uploading.held, upload, Memory.read_length]
  simp only [incrementalUefControl, carried_append carries, uefAppend]
  rw [if_neg (carried_admitted known uploading.active carries nonempty most),
    if_pos (by rw [carries.value, known.generation])]
  simp only [length, carries.bytes]
  rw [if_neg (by omega), if_neg (carried_crc carries)]

theorem appendAgain_outcome {z : Zlib} {start : UefState} {host : Host} {s : UefState} {jim : Jim}
    {request : Request} {content bytes : List UInt8} {value : UInt32}
    (known : Known start host s) (uploading : Uploading z content (some (value, bytes)) s)
    (carries : Carries z host jim request value bytes) :
    incrementalUefControl z s jim request = (.stream, s, jim) := by
  obtain ⟨generation, sequence, last, crc, nonempty, most⟩ := uploading.last value bytes rfl
  have length := lengthIn_carried carries nonempty most
  have past : request.value ≠ s.windowGeneration := by
    rw [carries.value, ← generation]
    exact successor_ne value
  simp only [incrementalUefControl, carried_append carries, uefAppend]
  rw [if_neg (carried_admitted known uploading.active carries nonempty most), if_neg past]
  simp only [length, carries.bytes]
  rw [if_neg]
  rintro (late | other | size | sum | given)
  · exact late (by rw [carries.value, generation])
  · exact other (by rw [carries.value, sequence])
  · exact size (UInt16.toNat.inj (by rw [length, last]))
  · exact sum crc.symm
  · exact carried_crc carries given

theorem repairStream_generation (s : UefState) :
    (repairStream s).windowGeneration = s.windowGeneration := by
  rw [repairStream_eq]

theorem finalize_outcome {z : Zlib} {start : UefState} {host : Host} {s : UefState} {jim : Jim}
    {request : Request} {content : List UInt8} {last : Option (UInt32 × List UInt8)}
    (known : Known start host s) (uploading : Uploading z content last s)
    (raw : isRawUef content = true) (operation : request.operation = 3)
    (token : request.token = 0 ∨ request.token = host.token) :
    incrementalUefControl z s jim request =
      let next := { repairStream { s with streamFormat := Verdict.raw.format } with
        streamCursor := 0
        streamReady := true
        uploadActive := false
        windowGeneration := s.windowGeneration + 1 }
      (.stream, (uefStreamPublish next jim).1, (uefStreamPublish next jim).2) := by
  have started : begun s request = true := by
    have positive := raw_positive raw
    rw [← uploading.held, upload, Memory.read_length] at positive
    simp only [begun, uploading.active, tokenFor_known known token, beq_self_eq_true, Bool.true_and,
      bne_iff_ne]
    omega
  have held : s.stream.read 0 s.streamLength = content := uploading.held
  have length : content.length = s.streamLength := by rw [← held, Memory.read_length]
  have decoded : finalizeUef z uefStreamCapacity content = ⟨.raw, [], content⟩ := by
    rw [finalizeUef, if_pos raw]
  have named : Operation.ofByte request.operation = some .finalize := by
    rw [operation]
    rfl
  simp only [incrementalUefControl, named, uefFinalize]
  rw [if_neg (begun_not_refused started)]
  simp only [held, decoded, Verdict.accepted, if_true, overlay, List.foldl_nil, length,
    repairStream_generation]

theorem refill_outcome {z : Zlib} {start : UefState} {host : Host} {s : UefState} {jim : Jim}
    {request : Request} (known : Known start host s) (ready : s.streamReady = true)
    (operation : request.operation = 5) (token : request.token = host.token)
    (value : request.value = host.generation) :
    incrementalUefControl z s jim request =
      let next := { s with windowGeneration := s.windowGeneration + 1 }
      (.stream, (uefStreamPublish next jim).1, (uefStreamPublish next jim).2) := by
  have named : Operation.ofByte request.operation = some .refill := by
    rw [operation]
    rfl
  simp only [incrementalUefControl, named, uefRefill]
  rw [if_neg (tokenFor_refill known ready token),
    if_pos (Or.inr (Or.inr (by rw [value, known.generation])))]

theorem refillAgain_outcome {z : Zlib} {start : UefState} {host : Host} {s : UefState} {jim : Jim}
    {request : Request} (known : Known start host s) (ready : s.streamReady = true)
    (operation : request.operation = 5) (token : request.token = host.token)
    (past : request.value + 1 = s.windowGeneration) (limited : request.value ≠ 0xffffffff) :
    incrementalUefControl z s jim request = (.stream, s, uefStreamRepublish s jim) := by
  have named : Operation.ofByte request.operation = some .refill := by
    rw [operation]
    rfl
  have stale : ¬((request.token = 0 ∧ request.value = 0) ∨ request.value = 0xffffffff ∨
      request.value = s.windowGeneration) := by
    rintro (⟨zero, _⟩ | wild | fresh)
    · exact known.nonzero (by rw [← known.token, ← token, zero])
    · exact limited wild
    · exact successor_ne request.value (by rw [past, fresh])
  simp only [incrementalUefControl, named, uefRefill]
  rw [if_neg (tokenFor_refill known ready token), if_neg stale, if_pos past]

theorem currentWindow_publish (s : UefState) (jim : Jim) :
    currentWindow (uefStreamPublish s jim).1 = s.stream.read s.streamCursor (publishCount s) := by
  simp only [currentWindow, uefStreamPublish, publishCount_toUInt16]

/-- A publication adds the next window of the image to those delivered so far. -/
theorem publish_downloading {image : List UInt8} {last : Option UInt32} {s : UefState}
    {windows : List (List UInt8 × Bool)} (jim : Jim) (ready : s.streamReady = true)
    (held : upload s = image) (size : s.streamLength ≤ uefStreamCapacity)
    (inside : s.streamCursor ≤ s.streamLength)
    (acknowledged : ∀ value, last = some value → value + 1 = s.windowGeneration)
    (sofar : upToFinal windows = image.take s.streamCursor)
    (flagged : windows.any Prod.snd = decide (s.streamCursor = s.streamLength))
    (full : ∀ window ∈ windows, window.2 = false → window.1.length = windowLimit s) :
    Downloading image last (uefStreamPublish s jim).1
      (windows ++ [(currentWindow (uefStreamPublish s jim).1,
        (uefStreamPublish s jim).1.publishedFinal)]) := by
  have count := publishCount_inside size inside
  have next : currentWindow (uefStreamPublish s jim).1 =
      (image.drop s.streamCursor).take (publishCount s) := by
    rw [currentWindow_publish, ← held, upload, Memory.read_drop, Memory.read_take,
      Nat.min_eq_left (by omega), Nat.zero_add]
  have final : (uefStreamPublish s jim).1.publishedFinal =
      decide (s.streamCursor + publishCount s = s.streamLength) := by
    simp only [uefStreamPublish]
    exact Bool.eq_iff_iff.mpr (by simp)
  refine ⟨ready, held, size, count, ?_, ?_, acknowledged, ?_, ?_, ?_⟩
  · simp only [uefStreamPublish, publishCount_toUInt16]
  · simp only [uefStreamPublish, publishCount_toUInt16]
    exact publishCount_le_limit s
  · rw [upToFinal_append, flagged, sofar, next]
    change _ = image.take (s.streamCursor + publishCount s)
    by_cases ended : s.streamCursor = s.streamLength
    · have nothing : publishCount s = 0 := by omega
      simp [ended, nothing]
    · simp only [ended, decide_false, Bool.false_eq_true, if_false]
      exact List.take_add.symm
  · rw [List.any_append, flagged, final]
    change _ = decide (s.streamCursor + publishCount s = s.streamLength)
    by_cases ended : s.streamCursor = s.streamLength
    · have nothing : publishCount s = 0 := by omega
      simp [ended, nothing]
    · simp [ended]
  · intro window member unfinished
    rcases List.mem_append.mp member with earlier | now
    · exact full window earlier unfinished
    · simp only [List.mem_singleton] at now
      subst now
      rw [final] at unfinished
      simp only [decide_eq_false_iff_not] at unfinished
      rw [currentWindow_publish, Memory.read_length]
      change publishCount s = windowLimit s
      have all := available_eq size inside
      simp only [publishCount] at unfinished count ⊢
      split
      · rename_i short
        rw [if_pos short] at unfinished
        omega
      · rfl

theorem stream_exchange {z : Zlib} {jim jim' laid : Jim} {command : Nat} {request : Request}
    {s next reached : UefState} {status : UInt8} (sent : Sent jim command request)
    (outcome : incrementalUefControl z s jim request = (.stream, reached, laid))
    (result : dispatch z Mailbox.jimSize s 0xff command jim = some (status, next, jim')) :
    status = netOk ∧ next = reached ∧ jim' = laid.write (command + 1) (uefStreamReply reached) := by
  rw [dispatch_sent sent, outcome] at result
  cases result
  exact ⟨rfl, rfl, rfl⟩

/-- The reply is written above the window. -/
theorem windowIn_reply {jim : Jim} {command : Nat} {request : Request} {s : UefState} {count : Nat}
    (sent : Sent jim command request) (laid : Jim) (reply : List UInt8)
    (small : count ≤ windowLimit s) :
    windowIn s.guardImageValid (laid.write (command + 1) reply) count =
      windowIn s.guardImageValid laid count := by
  refine windowIn_write _ _ _ small ?_
  have placed := sent.placed
  have area : Mailbox.jimSize - Mailbox.serviceSize = 0x1000000 := by decide
  simp only [inService, Bool.and_eq_true, decide_eq_true_eq, area] at placed
  omega

theorem next_generation (host : Host) (stage : Stage) (s : UefState) (laid : Jim) (command : Nat) :
    (host.next stage netOk (laid.write (command + 1) (uefStreamReply s)) command).generation =
      s.windowGeneration := by
  simp only [Host.next, if_true]
  exact (reply_reports s laid command).generation

/-- An exchange that delivers nothing and leaves the state alone keeps the host where it
was, whether it was answered or refused. -/
theorem follows_unchanged {z : Zlib} {start : UefState} {host : Host} {s : UefState}
    {trace : List Exchange} (exchange : Exchange) (status : UInt8) (jim : Jim) (command : Nat)
    (follows : Follows z start host s trace)
    (generation : (host.next host.stage status jim command).generation = s.windowGeneration)
    (quiet : delivered start.guardImageValid [exchange] = []) :
    Follows z start (host.next host.stage status jim command) s (trace ++ [exchange]) := by
  obtain ⟨known, progress⟩ := follows
  refine ⟨⟨known.token, known.nonzero, generation, known.repair, known.guarded⟩, ?_⟩
  rw [delivered_append, quiet, List.append_nil]
  exact progress

/-- What a repeated request that is answered does. -/
theorem repeat_step {z : Zlib} {start : UefState} {host : Host} {s next : UefState}
    {trace : List Exchange} {jim jim' laid : Jim} {command : Nat} {request : Request}
    {action : Action} {status : UInt8} (follows : Follows z start host s trace)
    (sent : Sent jim command request) (repeats : action.repeats = true)
    (outcome : incrementalUefControl z s jim request = (.stream, s, laid))
    (shown : action = .refillAgain →
      windowIn s.guardImageValid laid s.publishedLength.toNat = currentWindow s ∧
        s.publishedLength.toNat ≤ windowLimit s)
    (result : dispatch z Mailbox.jimSize s 0xff command jim = some (status, next, jim')) :
    Exact start.guardImageValid ⟨action, s, status, next, jim', command⟩ ∧
      Follows z start (host.next host.stage status jim' command) next
        (trace ++ [⟨action, s, status, next, jim', command⟩]) := by
  obtain ⟨rfl, rfl, rfl⟩ := stream_exchange sent outcome result
  have reports := reply_reports next laid command
  constructor
  · refine ⟨fun _ => rfl, fun _ => rfl, fun _ => reports, fun member => ?_⟩
    have again : action = .refillAgain := by
      cases action <;> simp_all [Action.repeats]
    obtain ⟨window, small⟩ := shown again
    rw [← follows.1.guarded, reports.length, windowIn_reply sent laid _ small]
    exact window
  · refine follows_unchanged _ _ _ _ follows (next_generation host _ next laid command) ?_
    cases action <;> simp_all [Action.repeats, delivered]

theorem append_step {z : Zlib} {start : UefState} {host : Host} {s next : UefState}
    {trace : List Exchange} {jim jim' : Jim} {command : Nat} {request : Request} {status : UInt8}
    {content bytes : List UInt8} {last : Option (UInt32 × List UInt8)}
    (follows : Follows z start host s trace) (sent : Sent jim command request)
    (stage : host.stage = .uploading content last) (nonempty : 1 ≤ bytes.length)
    (most : bytes.length ≤ uefUploadMax) (room : content.length + bytes.length ≤ uefStreamCapacity)
    (carries : Carries z host jim request host.generation bytes)
    (result : dispatch z Mailbox.jimSize s 0xff command jim = some (status, next, jim')) :
    Exact start.guardImageValid ⟨.append, s, status, next, jim', command⟩ ∧
      Follows z start
        (host.next (.uploading (content ++ bytes) (some (host.generation, bytes))) status jim' command)
        next (trace ++ [⟨.append, s, status, next, jim', command⟩]) := by
  obtain ⟨known, progress⟩ := follows
  rw [stage] at progress
  obtain ⟨uploading, undelivered⟩ := progress
  have length := lengthIn_carried carries nonempty most
  have held : s.stream.read 0 s.streamLength = content := uploading.held
  have size : s.streamLength = content.length := by rw [← held, Memory.read_length]
  obtain ⟨rfl, rfl, rfl⟩ :=
    stream_exchange sent (append_outcome known uploading nonempty most room carries) result
  constructor
  · exact ⟨by simp [Action.repeats], fun _ => rfl, fun _ => reply_reports _ _ _, by simp⟩
  · refine ⟨⟨known.token, known.nonzero, next_generation _ _ _ _ _, known.repair, known.guarded⟩, ?_⟩
    refine ⟨⟨uploading.active, ?_, ?_, ?_⟩, ?_⟩
    · simp only [upload]
      rw [Memory.read_add, Memory.read_write_disjoint _ (by omega), held, Nat.zero_add,
        Memory.read_write]
    · simp only
      omega
    · intro value block same
      cases same
      exact ⟨by rw [known.generation], carries.value, length, rfl, nonempty, most⟩
    · rw [delivered_append, undelivered]
      simp [delivered]

/-- What an exchange that publishes the next window does. -/
theorem publish_step {z : Zlib} {start : UefState} {host : Host} {s next : UefState}
    {trace : List Exchange} {jim jim' : Jim} {command : Nat} {request : Request} {action : Action}
    {status : UInt8} {content : List UInt8} {last : Option UInt32} (ready : UefState)
    (sent : Sent jim command request) (fresh : action = .finalize ∨ action = .refill)
    (known : Known start { host with generation := ready.windowGeneration } ready)
    (outcome : incrementalUefControl z s jim request =
      (.stream, (uefStreamPublish ready jim).1, (uefStreamPublish ready jim).2))
    (downloading : Downloading (retained start.filevRepair content) last (uefStreamPublish ready jim).1
      (delivered start.guardImageValid trace ++ [(currentWindow (uefStreamPublish ready jim).1,
        (uefStreamPublish ready jim).1.publishedFinal)]))
    (result : dispatch z Mailbox.jimSize s 0xff command jim = some (status, next, jim')) :
    Exact start.guardImageValid ⟨action, s, status, next, jim', command⟩ ∧
      Follows z start (host.next (.downloading content last) status jim' command) next
        (trace ++ [⟨action, s, status, next, jim', command⟩]) := by
  obtain ⟨rfl, rfl, rfl⟩ := stream_exchange sent outcome result
  have reports := reply_reports (uefStreamPublish ready jim).1 (uefStreamPublish ready jim).2 command
  have shown : windowIn start.guardImageValid
      ((uefStreamPublish ready jim).2.write (command + 1)
        (uefStreamReply (uefStreamPublish ready jim).1))
      (replyLength ((uefStreamPublish ready jim).2.write (command + 1)
        (uefStreamReply (uefStreamPublish ready jim).1)) command) =
      currentWindow (uefStreamPublish ready jim).1 := by
    have length : (uefStreamPublish ready jim).1.publishedLength.toNat = publishCount ready :=
      publishCount_toUInt16 ready
    rw [reports.length, length, ← known.guarded,
      windowIn_reply sent _ _ (publishCount_le_limit ready), publish_window, currentWindow_publish]
  constructor
  · refine ⟨?_, fun _ => rfl, fun _ => reports, fun _ => shown⟩
    rcases fresh with rfl | rfl <;> simp [Action.repeats]
  · refine ⟨⟨known.token, known.nonzero, next_generation _ _ _ _ _, known.repair, known.guarded⟩, ?_⟩
    rw [delivered_append]
    have now : delivered start.guardImageValid [⟨action, s, netOk, (uefStreamPublish ready jim).1,
        (uefStreamPublish ready jim).2.write (command + 1)
          (uefStreamReply (uefStreamPublish ready jim).1), command⟩] =
        [(currentWindow (uefStreamPublish ready jim).1,
          (uefStreamPublish ready jim).1.publishedFinal)] := by
      rcases fresh with rfl | rfl <;>
        simp only [delivered, List.filterMap_cons, List.filterMap_nil, shown, reports.final]
    rw [now]
    exact downloading

theorem refill_step {z : Zlib} {start : UefState} {host : Host} {s next : UefState}
    {trace : List Exchange} {jim jim' : Jim} {command : Nat} {request : Request} {status : UInt8}
    {content : List UInt8} {last : Option UInt32} (follows : Follows z start host s trace)
    (sent : Sent jim command request) (stage : host.stage = .downloading content last)
    (operation : request.operation = 5) (token : request.token = host.token)
    (value : request.value = host.generation)
    (result : dispatch z Mailbox.jimSize s 0xff command jim = some (status, next, jim')) :
    Exact start.guardImageValid ⟨.refill, s, status, next, jim', command⟩ ∧
      Follows z start (host.next (.downloading content (some host.generation)) status jim' command)
        next (trace ++ [⟨.refill, s, status, next, jim', command⟩]) := by
  obtain ⟨known, progress⟩ := follows
  rw [stage] at progress
  refine publish_step { s with windowGeneration := s.windowGeneration + 1 } sent (Or.inr rfl)
    ⟨known.token, known.nonzero, rfl, known.repair, known.guarded⟩
    (refill_outcome known progress.ready operation token value) ?_ result
  refine publish_downloading jim progress.ready progress.held progress.size progress.inside ?_
    progress.sofar progress.flagged progress.full
  intro value same
  cases same
  rw [known.generation]

theorem finalize_step {z : Zlib} {start : UefState} {host : Host} {s next : UefState}
    {trace : List Exchange} {jim jim' : Jim} {command : Nat} {request : Request} {status : UInt8}
    {content : List UInt8} {last : Option (UInt32 × List UInt8)}
    (follows : Follows z start host s trace) (sent : Sent jim command request)
    (stage : host.stage = .uploading content last) (raw : isRawUef content = true)
    (operation : request.operation = 3) (token : request.token = 0 ∨ request.token = host.token)
    (result : dispatch z Mailbox.jimSize s 0xff command jim = some (status, next, jim')) :
    Exact start.guardImageValid ⟨.finalize, s, status, next, jim', command⟩ ∧
      Follows z start (host.next (.downloading content none) status jim' command) next
        (trace ++ [⟨.finalize, s, status, next, jim', command⟩]) := by
  obtain ⟨known, progress⟩ := follows
  rw [stage] at progress
  obtain ⟨uploading, undelivered⟩ := progress
  have positive := raw_positive raw
  rw [← uploading.held, upload, Memory.read_length] at positive
  have repaired := repairStream_upload { s with streamFormat := Verdict.raw.format }
  have fields := repairStream_eq { s with streamFormat := Verdict.raw.format }
  refine publish_step _ sent (Or.inl rfl) ?_ (finalize_outcome known uploading raw operation token) ?_
    result
  · rw [fields]
    exact ⟨known.token, known.nonzero, rfl, known.repair, known.guarded⟩
  · rw [undelivered]
    refine publish_downloading jim rfl ?_ ?_ (Nat.zero_le _) (by simp) rfl ?_ (by simp)
    · rw [← known.repair, ← uploading.held]
      exact repaired
    · rw [fields]
      exact uploading.size
    · rw [fields]
      exact (decide_eq_false (Nat.ne_of_lt positive)).symm

/-- Every exchange of a session is exact and keeps the host in step. -/
theorem follows_step {z : Zlib} {start : UefState} {host : Host} {s next : UefState}
    {trace : List Exchange} {jim jim' : Jim} {command : Nat} {request : Request} {action : Action}
    {stage : Stage} {status : UInt8} (follows : Follows z start host s trace)
    (sent : Sent jim command request) (asks : Asks z host jim request action stage)
    (result : dispatch z Mailbox.jimSize s 0xff command jim = some (status, next, jim')) :
    Exact start.guardImageValid ⟨action, s, status, next, jim', command⟩ ∧
      Follows z start (host.next stage status jim' command) next
        (trace ++ [⟨action, s, status, next, jim', command⟩]) := by
  cases asks with
  | append stage nonempty most room carries =>
    exact append_step follows sent stage nonempty most room carries result
  | appendAgain stage carries =>
    have progress := follows.2
    rw [stage] at progress
    exact repeat_step follows sent rfl (appendAgain_outcome follows.1 progress.1 carries) (by simp) result
  | finalize stage raw operation token =>
    exact finalize_step follows sent stage raw operation token result
  | refill stage operation token value limited =>
    exact refill_step follows sent stage operation token value result
  | refillAgain stage operation token same limited =>
    have progress := follows.2
    rw [stage] at progress
    have past := progress.last _ rfl
    refine repeat_step follows sent rfl
      (refillAgain_outcome follows.1 progress.ready operation token (by rw [same, past]) limited)
      (fun _ => ⟨republish_window s jim progress.fits, progress.fits⟩) result
  | republish operation =>
    have named : Operation.ofByte request.operation = some .republish := by
      rw [operation]
      rfl
    by_cases refused : (!s.streamReady) = true ∨ request.token ≠ 0 ∧ request.token ≠ s.streamToken
    · have outcome : incrementalUefControl z s jim request = (.refused, s, jim) := by
        simp only [incrementalUefControl, named, uefRepublish]
        rw [if_pos refused]
      rw [dispatch_sent sent, outcome] at result
      cases result
      refine ⟨⟨fun _ => rfl, fun other => absurd rfl other, ?_, by simp⟩, ?_⟩
      · intro accepted
        have distinct : netErrParam ≠ netOk := by decide
        exact absurd accepted distinct
      · exact follows_unchanged _ _ _ _ follows follows.1.generation (by simp [delivered])
    · have outcome : incrementalUefControl z s jim request = (.stream, s, uefStreamRepublish s jim) := by
        simp only [incrementalUefControl, named, uefRepublish]
        rw [if_neg refused]
      exact repeat_step follows sent rfl outcome (by simp) result
  | probe operation =>
    have outcome : incrementalUefControl z s jim request = (.stream, s, jim) := by
      rw [incrementalUefControl, operation]
      rfl
    exact repeat_step follows sent rfl outcome (by simp) result

theorem begin_follows {z : Zlib} {start s : UefState} {jim jim' : Jim} {command : Nat}
    {request : Request} {status : UInt8} (sent : Sent jim command request)
    (operation : request.operation = 1)
    (result : dispatch z Mailbox.jimSize start 0xff command jim = some (status, s, jim')) :
    Follows z start
      ⟨replyToken jim' command, replyGeneration jim' command, .uploading [] none⟩ s [] := by
  have outcome : incrementalUefControl z start jim request = uefBegin start jim := by
    rw [incrementalUefControl, operation]
    rfl
  obtain ⟨rfl, rfl, rfl⟩ := stream_exchange sent outcome result
  have reports := reply_reports (uefBegin start jim).2.1 (uefBegin start jim).2.2 command
  refine ⟨⟨reports.token, ?_, reports.generation, rfl, rfl⟩, ⟨rfl, rfl, Nat.zero_le _, by simp⟩, rfl⟩
  simp only [nextToken]
  split
  · decide
  · assumption

theorem session_follows {z : Zlib} {start : UefState} {host : Host} {s : UefState}
    {trace : List Exchange} (session : Session z start host s trace) :
    (∀ exchange ∈ trace, Exact start.guardImageValid exchange) ∧ Follows z start host s trace := by
  induction session with
  | begin sent operation result => exact ⟨by simp, begin_follows sent operation result⟩
  | step session sent asks result ih =>
    obtain ⟨exact_, follows⟩ := ih
    obtain ⟨now, after⟩ := follows_step follows sent asks result
    refine ⟨fun exchange member => ?_, after⟩
    rcases List.mem_append.mp member with earlier | last
    · exact exact_ exchange earlier
    · rw [List.mem_singleton.mp last]
      exact now

/-- Whatever the host repeats, the windows of FINALIZE and of fresh REFILLs up to the first
final one are the image, once a final one has come, and a proper front of it before. -/
theorem delivery_exactly_once {z : Zlib} {start : UefState} {host : Host} {s : UefState}
    {trace : List Exchange} (session : Session z start host s trace) :
    (∀ exchange ∈ trace, Exact start.guardImageValid exchange) ∧
      match host.stage with
      | .uploading content _ => s.streamLength = content.length ∧ upload s = content
      | .downloading content _ =>
        let image := retained start.filevRepair content
        let windows := delivered start.guardImageValid trace
        (windows.any Prod.snd = true → upToFinal windows = image) ∧
          (windows.any Prod.snd = false → ∃ rest, rest ≠ [] ∧ image = upToFinal windows ++ rest) ∧
          ∀ window ∈ windows, window.2 = false → window.1.length = windowLimit start := by
  obtain ⟨all, known, progress⟩ := session_follows session
  refine ⟨all, ?_⟩
  cases stage : host.stage with
  | uploading content last =>
    rw [stage] at progress
    refine ⟨?_, progress.1.held⟩
    rw [← progress.1.held, upload, Memory.read_length]
  | downloading content last =>
    rw [stage] at progress
    have length : (retained start.filevRepair content).length = s.streamLength := by
      rw [← progress.held, upload, Memory.read_length]
    have inside := progress.inside
    refine ⟨fun final => ?_, fun unfinished => ?_, fun window member more => ?_⟩
    · rw [progress.flagged, decide_eq_true_eq] at final
      rw [progress.sofar, final, List.take_of_length_le (by omega)]
    · rw [progress.flagged, decide_eq_false_iff_not] at unfinished
      refine ⟨(retained start.filevRepair content).drop s.streamCursor, ?_, ?_⟩
      · exact List.ne_nil_of_length_pos (by rw [List.length_drop]; omega)
      · rw [progress.sofar, List.take_append_drop]
    · rw [progress.full window member more, windowLimit, windowLimit, known.guarded]

/-- Every request the host may send is taken. -/
theorem Session.send {z : Zlib} {start : UefState} {host : Host} {s : UefState}
    {trace : List Exchange} {jim : Jim} {command : Nat} {request : Request} {action : Action}
    {stage : Stage} (session : Session z start host s trace) (sent : Sent jim command request)
    (asks : Asks z host jim request action stage) :
    let outcome := respond command (incrementalUefControl z s jim request)
    Session z start (host.next stage outcome.1 outcome.2.2 command) outcome.2.1
      (trace ++ [⟨action, s, outcome.1, outcome.2.1, outcome.2.2, command⟩]) :=
  .step session sent asks (dispatch_sent sent s)

section Moves

/-- The block of a request. -/
def requestBlock (operation : UInt8) (token value : UInt32) (length : Nat) : List UInt8 :=
  [elkwifiCmdUefNormalize] ++ text ['I', 'U', 'E', 'F'] ++ [uefStreamVersion, operation] ++
    le32 token ++ le32 value ++ le16 length ++ le32 0

/-- JIM with a request, the bytes it uploads and their number. -/
def asked (operation : UInt8) (token value : UInt32) (bytes : List UInt8) : Jim :=
  (prepared (requestBlock operation token value bytes.length) bytes bytes.length).jim

theorem asked_read (operation : UInt8) (token value : UInt32) {bytes : List UInt8}
    (short : bytes.length ≤ uefUploadMax) (offset count : Nat) (inside : offset + count ≤ 21) :
    (asked operation token value bytes).read (0x1000000 + offset) count =
      ((requestBlock operation token value bytes.length).drop offset).take count := by
  have most : uefUploadMax = 0xff00 := rfl
  rw [asked, prepared]
  dsimp only
  rw [Memory.read_write_disjoint _ (.inr (by simp [uefCapacity, le16]; omega)),
    Memory.read_write_disjoint _ (.inr (by omega))]
  exact Memory.read_write_inside _ _ _ _ _ inside

theorem asked_sent (operation : UInt8) (token value : UInt32) {bytes : List UInt8}
    (short : bytes.length ≤ uefUploadMax) :
    Sent (asked operation token value bytes) 0x1000000
      ⟨operation, token, value, bytes.length.toUInt16, 0⟩ := by
  have most : uefUploadMax = 0xff00 := rfl
  have part := asked_read operation token value short
  have cell (offset : Nat) (inside : offset + 1 ≤ 21) :
      [asked operation token value bytes (0x1000000 + offset)] =
        ((requestBlock operation token value bytes.length).drop offset).take 1 := part offset 1 inside
  refine ⟨by decide, List.head_eq_of_cons_eq (cell 0 (by decide)), ?_, ?_⟩
  · rw [isIncremental, part 1 5 (by decide)]
    rfl
  · have number := rd16_le16 (show bytes.length < 0x10000 by omega) []
    rw [List.append_nil] at number
    rw [Request.parse, rd32At, rd32At, rd32At, part 7 4 (by decide), part 11 4 (by decide),
      part 15 2 (by decide), part 17 4 (by decide)]
    rw [Request.mk.injEq]
    exact ⟨List.head_eq_of_cons_eq (cell 6 (by decide)), rd32_le32 token, rd32_le32 value,
      congrArg Nat.toUInt16 number, rd32_le32 0⟩

theorem asked_carries {z : Zlib} {host : Host} (value : UInt32) {bytes : List UInt8}
    (short : bytes.length ≤ uefUploadMax) :
    Carries z host (asked 2 0 value bytes) ⟨2, 0, value, bytes.length.toUInt16, 0⟩ value bytes := by
  have most : uefUploadMax = 0xff00 := rfl
  refine ⟨rfl, .inl rfl, rfl, .inl ?_, .inl rfl, ?_⟩
  · exact UInt16.toNat_ofNat_of_lt' (show bytes.length < 0x10000 by omega)
  · rw [asked, prepared]
    dsimp only
    rw [Memory.read_write_disjoint _ (.inl (by simp only [uefCapacity]; omega))]
    exact Memory.read_write _ _ _

/-- A session can come to a point: the actions so far, what the host then knows, and how much of
the stream is there and published. -/
def Comes (z : Zlib) (start : UefState) (actions : List Action) (token generation : UInt32)
    (length cursor : Nat) (stage : Stage) : Prop :=
  ∃ host s trace, Session z start host s trace ∧ trace.map Exchange.action = actions ∧
    host.token = token ∧ host.generation = generation ∧ host.stage = stage ∧
    s.streamLength = length ∧ s.streamCursor = cursor

variable {z : Zlib} {start : UefState} {actions : List Action} {token generation : UInt32}
  {length cursor : Nat} {content : List UInt8}

theorem comes_begin : Comes z start [] (nextToken start.streamToken) 0 0 0 (.uploading [] none) := by
  have sent := @asked_sent 1 0 0 [] (Nat.zero_le _)
  have session := Session.begin sent rfl (dispatch_sent (z := z) sent start)
  obtain ⟨known, -⟩ := (session_follows session).2
  exact ⟨_, _, _, session, rfl, known.token, known.generation, rfl, rfl, rfl⟩

/-- A request that the host may send next brings the session to the point after it. -/
theorem Session.comes {host : Host} {s next : UefState} {trace : List Exchange} {jim after : Jim}
    {command : Nat} {request : Request} {action : Action} {stage : Stage}
    (session : Session z start host s trace) (sent : Sent jim command request)
    (asks : Asks z host jim request action stage)
    (outcome : incrementalUefControl z s jim request = (.stream, next, after))
    (numbered : next.windowGeneration = generation) (filled : next.streamLength = length)
    (published : next.streamCursor = cursor) :
    Comes z start (trace.map Exchange.action ++ [action]) host.token generation length cursor
      stage := by
  have more := session.send sent asks
  rw [outcome] at more
  refine ⟨_, _, _, more, List.map_append, rfl, ?_, rfl, filled, published⟩
  rw [← numbered]
  exact next_generation _ _ _ _ _

theorem Comes.append {last : Option (UInt32 × List UInt8)}
    (comes : Comes z start actions token generation length cursor (.uploading content last))
    (bytes : List UInt8) (nonempty : 1 ≤ bytes.length) (most : bytes.length ≤ uefUploadMax)
    (room : content.length + bytes.length ≤ uefStreamCapacity) :
    Comes z start (actions ++ [.append]) token (generation + 1) (length + bytes.length) cursor
      (.uploading (content ++ bytes) (some (generation, bytes))) := by
  obtain ⟨host, s, trace, session, rfl, rfl, rfl, stage, rfl, rfl⟩ := comes
  obtain ⟨known, progress⟩ := (session_follows session).2
  rw [stage] at progress
  have sent := asked_sent 2 0 host.generation most
  have carries := @asked_carries z host host.generation bytes most
  refine session.comes sent (.append stage nonempty most room carries)
    (append_outcome known progress.1 nonempty most room carries) ?_ rfl rfl
  rw [known.generation]

theorem Comes.appendAgain {value : UInt32} {bytes : List UInt8}
    (comes : Comes z start actions token generation length cursor
      (.uploading content (some (value, bytes)))) (most : bytes.length ≤ uefUploadMax) :
    Comes z start (actions ++ [.appendAgain]) token generation length cursor
      (.uploading content (some (value, bytes))) := by
  obtain ⟨host, s, trace, session, rfl, rfl, rfl, stage, rfl, rfl⟩ := comes
  obtain ⟨known, progress⟩ := (session_follows session).2
  rw [stage] at progress
  have sent := asked_sent 2 0 value most
  have carries := @asked_carries z host value bytes most
  rw [← stage]
  exact session.comes sent (.appendAgain stage carries)
    (appendAgain_outcome known progress.1 carries) known.generation.symm rfl rfl

theorem publishCount_min (s : UefState) (size : s.streamLength ≤ uefStreamCapacity)
    (inside : s.streamCursor ≤ s.streamLength) :
    publishCount s = min (s.streamLength - s.streamCursor) (windowLimit s) := by
  have most : uefStreamCapacity = 0x01000000 := rfl
  have left : available s = s.streamLength - s.streamCursor := by
    rw [available]
    omega
  rw [publishCount, left]
  split <;> omega

theorem Comes.finalize {last : Option (UInt32 × List UInt8)}
    (comes : Comes z start actions token generation length cursor (.uploading content last))
    (raw : isRawUef content = true) :
    Comes z start (actions ++ [.finalize]) token (generation + 1) length
      (min length (windowLimit start)) (.downloading content none) := by
  obtain ⟨host, s, trace, session, rfl, rfl, rfl, stage, rfl, rfl⟩ := comes
  obtain ⟨known, progress⟩ := (session_follows session).2
  rw [stage] at progress
  have sent := @asked_sent 3 0 0 [] (Nat.zero_le _)
  have fields := repairStream_eq { s with streamFormat := Verdict.raw.format }
  refine session.comes sent (.finalize stage raw rfl (.inl rfl))
    (finalize_outcome known progress.1 raw rfl (.inl rfl)) ?_ ?_ ?_
  · rw [known.generation]
    rfl
  · exact repairStream_length _
  · rw [windowLimit, ← known.guarded, fields]
    exact (Nat.zero_add _).trans (publishCount_min _ progress.1.size (Nat.zero_le _))

theorem Comes.republish {last : Option UInt32}
    (comes : Comes z start actions token generation length cursor (.downloading content last)) :
    Comes z start (actions ++ [.republish]) token generation length cursor
      (.downloading content last) := by
  obtain ⟨host, s, trace, session, rfl, rfl, rfl, stage, rfl, rfl⟩ := comes
  obtain ⟨known, progress⟩ := (session_follows session).2
  rw [stage] at progress
  have sent := @asked_sent 7 0 0 [] (Nat.zero_le _)
  have outcome (jim : Jim) : incrementalUefControl z s jim ⟨7, 0, 0, 0, 0⟩ =
      (.stream, s, uefStreamRepublish s jim) := by
    simp only [incrementalUefControl, show Operation.ofByte 7 = some .republish from rfl, uefRepublish]
    rw [if_neg (by simp [progress.ready])]
  rw [← stage]
  exact session.comes sent (.republish rfl) (outcome _) known.generation.symm rfl rfl

theorem Comes.refill {last : Option UInt32}
    (comes : Comes z start actions token generation length cursor (.downloading content last))
    (limited : generation ≠ 0xffffffff) :
    Comes z start (actions ++ [.refill]) token (generation + 1) length
      (cursor + min (length - cursor) (windowLimit start))
      (.downloading content (some generation)) := by
  obtain ⟨host, s, trace, session, rfl, rfl, rfl, stage, rfl, rfl⟩ := comes
  obtain ⟨known, progress⟩ := (session_follows session).2
  rw [stage] at progress
  have sent := @asked_sent 5 host.token host.generation [] (Nat.zero_le _)
  refine session.comes sent (.refill stage rfl rfl rfl limited)
    (refill_outcome known progress.ready rfl rfl rfl) ?_ rfl ?_
  · rw [known.generation]
    rfl
  · rw [windowLimit, ← known.guarded]
    exact congrArg (s.streamCursor + ·)
      (publishCount_min { s with windowGeneration := s.windowGeneration + 1 } progress.size
        progress.inside)

end Moves

/-- A chunk of 40000 bytes of text. -/
@[irreducible]
def wideChunk : List UInt8 := [0, 0] ++ le32 40000 ++ List.replicate 40000 0x20

/-- A backend with the repair and a guard, under which a window has 38354 bytes. -/
def guarded : UefState :=
  { create false true with guardImage := .replicate uefGuardLength 0x55, guardImageValid := true }

/-- A tape of two windows: its header sent twice, its chunk, FINALIZE, REPUBLISH and REFILL. -/
theorem delivery_exactly_once_windows :
    ∃ host s trace, Session storedZlib guarded host s trace ∧
      trace.map Exchange.action =
        [.append, .appendAgain, .append, .finalize, .republish, .refill] ∧
      host.stage = .downloading (emptyTape ++ wideChunk) (some 3) ∧
      upToFinal (delivered true trace) = retained true (emptyTape ++ wideChunk) := by
  have size : wideChunk.length = 40006 := by
    rw [wideChunk, List.length_append, List.length_replicate]
    rfl
  have whole : (emptyTape ++ wideChunk).length = 40018 := by
    rw [List.length_append, size]
    rfl
  have raw : isRawUef (emptyTape ++ wideChunk) = true := by
    rw [isRawUef, List.take_append_of_le_length (by decide), whole]
    decide
  have header := @comes_begin storedZlib guarded
    |>.append emptyTape (by decide) (by decide) (by decide)
    |>.appendAgain (by decide)
  have chunk := header.append wideChunk (by rw [size]; decide) (by rw [size]; decide)
    (by rw [size]; decide)
  have first := chunk.finalize raw |>.republish
  obtain ⟨host, s, trace, session, actions, -, -, stage, length, cursor⟩ := first.refill (by decide)
  obtain ⟨known, progress⟩ := (session_follows session).2
  rw [stage] at progress
  have final : (delivered guarded.guardImageValid trace).any Prod.snd = true := by
    rw [progress.flagged, length, cursor, size]
    decide
  have delivers := (delivery_exactly_once session).2
  rw [stage] at delivers
  exact ⟨host, s, trace, session, actions, stage, delivers.1 final⟩

end Pi1MHz.NetBackend
