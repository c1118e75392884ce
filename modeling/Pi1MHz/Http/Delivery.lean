import Pi1MHz.Foundation.Conduit
import Pi1MHz.Http.Response

/-! The body of an HTTP response reaches the client in order, however the stream is cut into
segments, and what the READ that finds the stream closed says of it. -/
namespace Pi1MHz.Http
open FtpService (ascii)

/-- A handle whose request has been sent. -/
def requested : NetHandle where
  opened := true
  http := true
  response := []
  responsePos := 0
  headersDone := false
  httpHasLength := false
  httpContentLength := 0
  httpBodyRead := 0

def start (r : Response) (jim : Memory UInt8) : Live := ⟨requested, r.text, jim⟩

/-- The part of the body that `recv` has returned so far. -/
def received (r : Response) (s : Live) : List UInt8 :=
  (r.text.take (r.text.length - s.wire.length)).drop r.header.length

/-- Body bytes that came with the header and have not been read. -/
def waiting (s : Live) : List UInt8 :=
  if s.handle.headersDone then s.handle.response.drop s.handle.responsePos else []

/-- The body has all the bytes that the header declares. -/
def Complete (r : Response) (count : Nat) : Prop := ∀ n, r.contentLength = some n → n ≤ count

/-- What the READs from the start on deliver, and the verdict of the one that finds the stream
closed. -/
structure Served (jimSize : Nat) (jim : Memory UInt8) (r : Response) : Prop where
  body : ∀ reads, Conduit.traffic (step jimSize) (delivered jimSize) (start r jim) reads ++
      waiting (Conduit.run (step jimSize) (start r jim) reads) =
    received r (Conduit.run (step jimSize) (start r jim) reads)
  verdict : ∀ reads last,
    let reply := (doRead jimSize (Conduit.run (step jimSize) (start r jim) reads) last).2
    let count := (Conduit.traffic (step jimSize) (delivered jimSize) (start r jim) reads).length
    reply.closed = true →
      (reply.code = .eof ↔ Complete r count) ∧ (reply.code = .tcpClosed ↔ ¬Complete r count)

/-- The field of a truncated response is spelled as the reader wants it, and counting in 64 bits
does not change how the declared length and the body compare. -/
def Recognised (r : Response) : Prop := ∀ n, r.contentLength = some n →
  (r.body.length < n → r.spelled = true) ∧
  (r.spelled = true → (min n sizeMax ≤ r.body.length % 2 ^ 64 ↔ n ≤ r.body.length))

section Stages

variable {r : Response} {s : Live} {q : Read}

/-- The header is still being collected. -/
structure InHeader (r : Response) (s : Live) : Prop where
  text : s.handle.response ++ s.wire = r.text
  short : s.handle.response.length < r.header.length
  fresh : s.handle = { requested with response := s.handle.response }

/-- What is left of the response once the header is done. -/
def rest (s : Live) : List UInt8 := s.handle.response.drop s.handle.responsePos ++ s.wire

/-- The length the reader works with. -/
def recognised (r : Response) : Option Nat :=
  if r.spelled then r.contentLength.map (min · sizeMax) else none

structure InBody (r : Response) (s : Live) : Prop where
  opened : s.handle.opened = true
  http : s.handle.http = true
  done : s.handle.headersDone = true
  hasLength : s.handle.httpHasLength = (recognised r).isSome
  length : s.handle.httpContentLength = (recognised r).getD 0
  count : (s.handle.httpBodyRead + (rest s).length) % 2 ^ 64 = r.body.length % 2 ^ 64
  small : s.handle.httpBodyRead < 2 ^ 64

/-- What a READ gives to the client. -/
def given (q : Read) (out : Live × Reply) : List UInt8 :=
  if out.2.code = .ok then out.1.jim.read q.destination out.2.length else []

/-- A READ of the body finds nothing, finds the stream closed, or moves bytes. -/
inductive BodyRead (s : Live) (q : Read) : Live × Reply → Prop
  | nothing (code : Code) (poll : ∀ more, q.second ≠ .ready more) : BodyRead s q (s, ⟨code, 0, false⟩)
  | closed (drained : rest s = []) : BodyRead s q (s, ⟨closedCode s.handle, 0, true⟩)
  | moved (data : List UInt8) (pos : Nat) (wire : List UInt8) (content : data ≠ [])
      (taken : rest s = data ++ (s.handle.response.drop pos ++ wire)) :
      BodyRead s q
        (⟨{ s.handle with
              responsePos := pos
              httpBodyRead := (s.handle.httpBodyRead + data.length) % 2 ^ 64 },
            wire, s.jim.write q.destination data⟩, ⟨.ok, data.length, false⟩)

theorem countBody_of_http {handle : NetHandle} (http : handle.http = true) (count : Nat) :
    countBody handle count = { handle with httpBodyRead := (handle.httpBodyRead + count) % 2 ^ 64 } :=
  if_pos http

theorem readBody_cases (http : s.handle.http = true) : BodyRead s q (readBody s q) := by
  have positive := q.positive
  rw [readBody]
  split
  · rename_i held
    rw [Bool.and_eq_true, decide_eq_true_eq] at held
    dsimp only
    rw [countBody_of_http (by exact http)]
    refine .moved _ _ s.wire ?_ ?_
    · rw [Ne, List.take_eq_nil_iff, List.drop_eq_nil_iff]
      omega
    · rw [rest, ← List.append_assoc, ← List.drop_drop]
      congr 1
      rw [List.length_take, ← List.drop_eq_drop_min, List.take_append_drop]
  · rename_i empty
    have unheld : s.handle.response.drop s.handle.responsePos = [] := by
      rw [List.drop_eq_nil_iff]
      simpa [http] using empty
    cases poll : q.second with
    | empty => exact .nothing _ (by simp [poll])
    | failed => exact .nothing _ (by simp [poll])
    | ready more =>
      simp only [recv]
      split
      · rename_i drained
        rw [List.take_eq_nil_iff] at drained
        refine .closed ?_
        rw [rest, unheld, List.nil_append]
        exact drained.resolve_left (by omega)
      · rename_i content
        rw [countBody_of_http http]
        refine .moved _ s.handle.responsePos _ content ?_
        rw [rest, unheld, List.nil_append, List.nil_append, List.take_append_drop]

theorem BodyRead.inBody {out : Live × Reply} (read : BodyRead s q out) (body : InBody r s) :
    InBody r out.1 ∧ rest s = given q out ++ rest out.1 := by
  cases read with
  | nothing code poll => exact ⟨body, by simp [given]⟩
  | closed drained =>
    have verdict : closedCode s.handle ≠ .ok := by
      rw [closedCode]
      split <;> simp
    exact ⟨body, by simp [given, verdict]⟩
  | moved data pos wire content taken =>
    have same : given q (⟨{ s.handle with
              responsePos := pos
              httpBodyRead := (s.handle.httpBodyRead + data.length) % 2 ^ 64 },
            wire, s.jim.write q.destination data⟩, ⟨.ok, data.length, false⟩) = data := by
      rw [given, if_pos rfl]
      exact Memory.read_write _ _ _
    refine ⟨⟨body.opened, body.http, body.done, body.hasLength, body.length, ?_, ?_⟩, ?_⟩
    · have count := body.count
      rw [taken, List.length_append] at count
      simp only [rest]
      omega
    · exact Nat.mod_lt _ (by decide)
    · rw [same, taken]
      rfl

/-- A READ of the header leaves it unfinished, or leaves the whole body to be served. -/
inductive HeaderRead (r : Response) (s : Live) (q : Read) : Live × Option Reply → Prop
  | collecting (next : Live) (code : Code) (header : InHeader r next)
      (grows : ∀ more, q.first = .ready more →
        s.handle.response.length < next.handle.response.length) :
      HeaderRead r s q (next, some ⟨code, 0, false⟩)
  | finished (next : Live) (body : InBody r next) (whole : rest next = r.body) :
      HeaderRead r s q (next, none)

/-- A proper part of the header block shows no blank line. -/
theorem firstAt_header_take {k : Nat} (short : k < r.header.length) :
    Search.firstAt blankLine (cString (r.header.take k)) = none := by
  rw [r.cString_header_take]
  have found := r.firstAt_header []
  have size := r.header_length
  have four : blankLine.length = 4 := rfl
  rw [List.append_nil] at found
  exact Search.firstAt_take_eq_none found (by omega) (by omega)

/-- The whole header block, with what came behind it. -/
theorem finishHeader_eq (extra : List UInt8) :
    finishHeader { requested with response := r.header ++ extra } (r.header.length - 4) =
      some { requested with
        httpHasLength := (recognised r).isSome
        httpContentLength := (recognised r).getD 0
        response := extra
        headersDone := true } := by
  have size := r.header_length
  have accepted := r.status_accepted extra
  have declared : headerLength (cString (r.header ++ extra)) (r.header.length - 4) = recognised r := by
    rw [r.cString_header, r.headerLength_header]
    rfl
  have left : (r.header ++ extra).drop (r.header.length - 4 + 4) = extra := by
    rw [Nat.sub_add_cancel (by omega), List.drop_left]
  rw [finishHeader, if_neg]
  · simp only [declared, left]
    rfl
  · simp only [accepted, ne_eq, not_true_eq_false, or_false, List.length_append]
    omega

section Cut

variable {collected rest : List UInt8}

theorem header_part (text : collected ++ rest = r.header ++ r.body)
    (short : collected.length < r.header.length) : collected = r.header.take collected.length := by
  have same := congrArg (List.take collected.length) text
  rwa [List.take_left, List.take_append_of_le_length (by omega)] at same

theorem header_reached (text : collected ++ rest = r.header ++ r.body)
    (reached : r.header.length ≤ collected.length) :
    ∃ extra, collected = r.header ++ extra ∧ extra ++ rest = r.body := by
  refine ⟨collected.drop r.header.length, ?_, ?_⟩
  · have same := congrArg (List.take r.header.length) text
    rw [List.take_left, List.take_append_of_le_length reached] at same
    conv => rhs; lhs; rw [← same]
    exact (List.take_append_drop _ _).symm
  · have same := congrArg (List.drop r.header.length) text
    rwa [List.drop_left, List.drop_append_of_le_length reached] at same

end Cut

theorem readHeader_cases (header : InHeader r s) : HeaderRead r s q (readHeader s q) := by
  have size : r.header.length < 8191 := r.short
  have short := header.short
  have waits : s.wire ≠ [] := by
    intro drained
    have whole := congrArg List.length header.text
    rw [drained, Response.text, List.length_append, List.length_append, List.length_nil] at whole
    omega
  rw [readHeader, if_neg (by rw [responseSize]; omega)]
  cases poll : q.first with
  | empty => exact .collecting s _ header (by simp [poll])
  | failed => exact .collecting s _ header (by simp [poll])
  | ready more =>
    simp only [recv]
    generalize limit : min (more + 1) (responseSize - 1 - s.handle.response.length) = count
    have positive : 0 < count := by
      rw [responseSize] at limit
      omega
    have content : s.wire.take count ≠ [] := by
      rw [Ne, List.take_eq_nil_iff]
      rintro (zero | drained)
      · omega
      · exact waits drained
    have longer := List.length_pos_iff.mpr content
    have text : (s.handle.response ++ s.wire.take count) ++ s.wire.drop count = r.header ++ r.body := by
      rw [List.append_assoc, List.take_append_drop]
      exact header.text
    rw [if_neg content]
    by_cases collecting : (s.handle.response ++ s.wire.take count).length < r.header.length
    · -- the response is still a part of the header block
      have missing : Search.firstAt blankLine (cString (s.handle.response ++ s.wire.take count)) =
          none := by
        rw [header_part text collecting]
        exact firstAt_header_take collecting
      simp only [missing]
      refine .collecting _ _ ⟨text, collecting, ?_⟩ ?_
      · simp only
        rw [header.fresh]
      · intro _ _
        simp only [List.length_append]
        omega
    · -- the response holds the header block and some of the body
      obtain ⟨extra, whole, behind⟩ := header_reached text (Nat.le_of_not_lt collecting)
      have found : Search.firstAt blankLine (cString (r.header ++ extra)) =
          some (r.header.length - 4) := by
        rw [r.cString_header, r.firstAt_header]
      have handle : { s.handle with response := r.header ++ extra } =
          { requested with response := r.header ++ extra } := by
        rw [header.fresh]
      simp only [whole, found, handle, finishHeader_eq]
      refine .finished _ ⟨rfl, rfl, rfl, rfl, rfl, ?_, Nat.two_pow_pos 64⟩ ?_
      · simp only [rest, requested, List.drop_zero, behind, Nat.zero_add]
      · simp only [rest, requested, List.drop_zero, behind]

end Stages

section Runs

variable {jimSize : Nat} {r : Response} {s : Live} {q : Read}

def Tracked (r : Response) (s : Live) : Prop := InHeader r s ∨ InBody r s

/-- The part of the body that the client has not been given. -/
def left (r : Response) (s : Live) : List UInt8 := if s.handle.headersDone then rest s else r.body

theorem InHeader.left_eq (header : InHeader r s) : left r s = r.body := by
  rw [left, header.fresh]
  rfl

theorem InBody.left_eq (body : InBody r s) : left r s = rest s := by
  rw [left, body.done, if_pos rfl]

theorem tracked_start (jim : Memory UInt8) : Tracked r (start r jim) := by
  refine .inl ⟨rfl, ?_, rfl⟩
  have size := r.header_length
  simp only [start, requested, List.length_nil]
  omega

/-- What a READ does: it keeps track of the response, and a READ that finds the stream closed
has nothing left. -/
structure ReadSpec (r : Response) (s : Live) (q : Read) (out : Live × Reply) : Prop where
  tracked : Tracked r out.1
  gives : left r s = given q out ++ left r out.1
  closed : out.2.closed = true →
    InBody r out.1 ∧ rest out.1 = [] ∧ out.2.code = closedCode out.1.handle

theorem BodyRead.spec {out : Live × Reply} (read : BodyRead s q out) (body : InBody r s) :
    ReadSpec r s q out := by
  obtain ⟨after, gives⟩ := read.inBody body
  refine ⟨.inr after, by rw [body.left_eq, after.left_eq, gives], ?_⟩
  intro closed
  cases read with
  | nothing code poll => cases closed
  | closed drained => exact ⟨body, drained, rfl⟩
  | moved data pos wire content taken => cases closed

theorem doRead_refused (refused : jimSize ≤ q.destination ∨ jimSize - q.destination < q.maximum)
    (tracked : Tracked r s) : doRead jimSize s q = (s, ⟨.param, q.maximum, false⟩) := by
  have opened : s.handle.opened = true := by
    rcases tracked with header | body
    · rw [header.fresh]
      rfl
    · exact body.opened
  rw [doRead, opened, if_neg (by simp), if_pos refused]

theorem doRead_inBody (fits : ¬(jimSize ≤ q.destination ∨ jimSize - q.destination < q.maximum))
    (body : InBody r s) : doRead jimSize s q = readBody s q := by
  simp [doRead, body.opened, body.done, fits]

theorem doRead_inHeader (fits : ¬(jimSize ≤ q.destination ∨ jimSize - q.destination < q.maximum))
    (header : InHeader r s) : doRead jimSize s q =
      match readHeader s q with
      | (next, some reply) => (next, reply)
      | (next, none) => readBody next q := by
  have opened : s.handle.opened = true := by rw [header.fresh]; rfl
  have http : s.handle.http = true := by rw [header.fresh]; rfl
  have headers : s.handle.headersDone = false := by rw [header.fresh]; rfl
  rw [doRead, opened, http, headers, if_neg (by simp), if_neg fits]
  exact if_pos (by simp)

theorem doRead_spec (tracked : Tracked r s) : ReadSpec r s q (doRead jimSize s q) := by
  by_cases fits : jimSize ≤ q.destination ∨ jimSize - q.destination < q.maximum
  · rw [doRead_refused fits tracked]
    exact ⟨tracked, by simp [given], by simp⟩
  rcases tracked with header | body
  · rw [doRead_inHeader fits header]
    have read := @readHeader_cases r s q header
    cases out : readHeader s q with
    | mk next reply =>
      rw [out] at read
      cases read with
      | collecting next code after grows =>
        refine ⟨.inl after, ?_, by simp⟩
        rw [header.left_eq, after.left_eq]
        simp [given]
      | finished next body whole =>
        have spec := (@readBody_cases next q body.http).spec body
        refine ⟨spec.tracked, ?_, spec.closed⟩
        rw [header.left_eq, ← whole, ← body.left_eq]
        exact spec.gives
  · rw [doRead_inBody fits body]
    exact (readBody_cases body.http).spec body

theorem run_tracked (jim : Memory UInt8) (reads : List Read) :
    Tracked r (Conduit.run (step jimSize) (start r jim) reads) :=
  @Conduit.run_invariant _ _ _ (fun _ _ => True) (Tracked r)
    (fun _ _ tracked _ => (doRead_spec tracked).tracked) _ (tracked_start jim) _
    (Conduit.follows_true _ _ _)

/-- What the client has been given and what is left make up the body. -/
theorem traffic_append_left (jim : Memory UInt8) (reads : List Read) :
    Conduit.traffic (step jimSize) (delivered jimSize) (start r jim) reads ++
      left r (Conduit.run (step jimSize) (start r jim) reads) = r.body := by
  have conserved := @Conduit.run_conserves _ _ _ (step jimSize) (fun _ _ => True) (Tracked r) (left r)
    (fun _ _ => []) (delivered jimSize) (fun _ _ tracked _ => (doRead_spec tracked).tracked)
    (fun s q tracked _ => by rw [List.append_nil]; exact (doRead_spec tracked).gives) _ (tracked_start jim)
    reads (Conduit.follows_true _ _ _)
  rw [Conduit.traffic_nil, List.append_nil] at conserved
  exact conserved.symm

theorem body_received (jim : Memory UInt8) (reads : List Read) :
    Conduit.traffic (step jimSize) (delivered jimSize) (start r jim) reads ++
        waiting (Conduit.run (step jimSize) (start r jim) reads) =
      received r (Conduit.run (step jimSize) (start r jim) reads) := by
  have whole := @traffic_append_left jimSize r jim reads
  rcases @run_tracked jimSize r jim reads with header | body
  · rw [header.left_eq] at whole
    have nothing : Conduit.traffic (step jimSize) (delivered jimSize) (start r jim) reads = [] :=
      List.append_left_eq_self.mp whole
    have unread : waiting (Conduit.run (step jimSize) (start r jim) reads) = [] := by
      rw [waiting, header.fresh]
      rfl
    have size := congrArg List.length header.text
    rw [List.length_append] at size
    rw [nothing, unread, received, List.drop_eq_nil_of_le]
    · rfl
    · have short := header.short
      rw [List.length_take]
      omega
  · rw [body.left_eq, rest, ← List.append_assoc] at whole
    have unread : waiting (Conduit.run (step jimSize) (start r jim) reads) =
        (Conduit.run (step jimSize) (start r jim) reads).handle.response.drop
          (Conduit.run (step jimSize) (start r jim) reads).handle.responsePos := by
      rw [waiting, body.done, if_pos rfl]
    rw [received, Response.text, unread]
    conv => rhs; rw [← whole]
    rw [← List.append_assoc, List.length_append, Nat.add_sub_cancel, List.take_left, List.drop_left]

/-- The reader's verdict on the whole body. -/
def verdict (r : Response) : Code :=
  if (recognised r).isSome && r.body.length % 2 ^ 64 < (recognised r).getD 0 then .tcpClosed else .eof

theorem InBody.closedCode_eq (body : InBody r s) (drained : rest s = []) :
    closedCode s.handle = verdict r := by
  have count := body.count
  rw [drained, List.length_nil, Nat.add_zero, Nat.mod_eq_of_lt body.small] at count
  rw [closedCode, body.hasLength, body.length, count, verdict]

/-- The READ that finds the stream closed comes when all of the body has been given. -/
theorem closed_reply {jim : Memory UInt8} {reads : List Read} {last : Read}
    (closed : (doRead jimSize (Conduit.run (step jimSize) (start r jim) reads) last).2.closed = true) :
    (doRead jimSize (Conduit.run (step jimSize) (start r jim) reads) last).2.code = verdict r ∧
      Conduit.traffic (step jimSize) (delivered jimSize) (start r jim) reads = r.body := by
  have spec := @doRead_spec jimSize r _ last (@run_tracked jimSize r jim reads)
  obtain ⟨body, drained, code⟩ := spec.closed closed
  have same := body.closedCode_eq drained
  refine ⟨code.trans same, ?_⟩
  have gives := spec.gives
  have refused : verdict r ≠ .ok := by
    rw [verdict]
    split <;> simp
  rw [body.left_eq, drained, List.append_nil, given, code, same, if_neg refused] at gives
  have whole := @traffic_append_left jimSize r jim reads
  rwa [gives, List.append_nil] at whole

/-- The verdict is the right one exactly for the responses that the reader recognises. -/
theorem verdict_iff_recognised :
    (verdict r = .eof ↔ Complete r r.body.length) ∧ (verdict r = .tcpClosed ↔ ¬Complete r r.body.length) ↔
      Recognised r := by
  cases declared : r.contentLength with
  | none =>
    have absent : r.spelled = false := by
      by_contra present
      have nonempty := r.contentLength_isSome_of_spelled (by simpa using present)
      rw [declared] at nonempty
      cases nonempty
    simp [verdict, recognised, Complete, Recognised, declared, absent]
  | some n =>
    have complete : Complete r r.body.length ↔ n ≤ r.body.length := by
      simp [Complete, declared]
    cases spelled : r.spelled with
    | false => simp [verdict, recognised, complete, Recognised, declared, spelled]
    | true =>
      have code : verdict r = if r.body.length % 2 ^ 64 < min n sizeMax then .tcpClosed else .eof := by
        simp [verdict, recognised, declared, spelled]
      have condition : Recognised r ↔ (min n sizeMax ≤ r.body.length % 2 ^ 64 ↔ n ≤ r.body.length) := by
        simp [Recognised, declared, spelled]
      rw [condition, complete, code]
      generalize r.body.length % 2 ^ 64 = counted
      generalize min n sizeMax = limit
      by_cases truncated : counted < limit
      · rw [if_pos truncated]
        simp [Nat.not_le.mpr truncated]
      · rw [if_neg truncated]
        simp [Nat.not_lt.mp truncated]

end Runs

section Progress

variable {jimSize : Nat} {r : Response} {s : Live}

/-- A READ of one byte that has something to receive. -/
def probe : Read := ⟨1, 0, .ready 0, .ready 0, by decide, by decide⟩

theorem probe_fits (room : 0 < jimSize) :
    ¬(jimSize ≤ probe.destination ∨ jimSize - probe.destination < probe.maximum) := by
  simp only [probe]
  omega

theorem header_ends (room : 0 < jimSize) (header : InHeader r s) :
    ∃ reads, InBody r (Conduit.run (step jimSize) s reads) := by
  generalize missing : r.header.length - s.handle.response.length = n
  induction n using Nat.strongRecOn generalizing s with
  | ind n ih =>
    have after := doRead_inHeader (probe_fits room) header
    have read := @readHeader_cases r s probe header
    cases out : readHeader s probe with
    | mk next reply =>
      rw [out] at read after
      cases read with
      | collecting next code collecting grows =>
        have longer := grows 0 rfl
        have short := collecting.short
        obtain ⟨reads, body⟩ := ih _ (by omega) collecting rfl
        refine ⟨probe :: reads, ?_⟩
        rw [Conduit.run, List.foldl_cons, step, after]
        exact body
      | finished next body whole =>
        refine ⟨[probe], ?_⟩
        rw [Conduit.run, List.foldl_cons, List.foldl_nil, step, after]
        exact ((readBody_cases body.http).inBody body).1

theorem body_ends (room : 0 < jimSize) (body : InBody r s) :
    ∃ reads, InBody r (Conduit.run (step jimSize) s reads) ∧ rest (Conduit.run (step jimSize) s reads) = [] := by
  generalize missing : (rest s).length = n
  induction n using Nat.strongRecOn generalizing s with
  | ind n ih =>
    have after := doRead_inBody (probe_fits room) body
    have read := @readBody_cases s probe body.http
    have next := (read.inBody body).1
    cases out : readBody s probe with
    | mk later reply =>
      rw [out] at read after next
      cases read with
      | nothing code poll => exact absurd rfl (poll 0)
      | closed drained => exact ⟨[], body, drained⟩
      | moved data pos wire content taken =>
        have size := congrArg List.length taken
        have nonempty := List.length_pos_iff.mpr content
        rw [List.length_append] at size
        obtain ⟨reads, ended⟩ := ih _ (by simp only [rest]; omega) next rfl
        refine ⟨probe :: reads, ?_⟩
        rw [Conduit.run, List.foldl_cons, step, after]
        exact ended

/-- Some run of READs finds the stream closed. -/
theorem closes (room : 0 < jimSize) (r : Response) (jim : Memory UInt8) : ∃ reads,
    (doRead jimSize (Conduit.run (step jimSize) (start r jim) reads) probe).2.closed = true := by
  obtain ⟨first, body⟩ : ∃ reads, InBody r (Conduit.run (step jimSize) (start r jim) reads) := by
    rcases @tracked_start r jim with header | body
    · exact header_ends room header
    · exact ⟨[], body⟩
  obtain ⟨second, ended, drained⟩ := body_ends room body
  refine ⟨first ++ second, ?_⟩
  have same : Conduit.run (step jimSize) (start r jim) (first ++ second) =
      Conduit.run (step jimSize) (Conduit.run (step jimSize) (start r jim) first) second :=
    List.foldl_append
  rw [same, doRead_inBody (probe_fits room) ended]
  have read := @readBody_cases _ probe ended.http
  cases out : readBody (Conduit.run (step jimSize) (Conduit.run (step jimSize) (start r jim) first) second)
      probe with
  | mk later reply =>
    rw [out] at read
    cases read with
    | nothing code poll => exact absurd rfl (poll 0)
    | closed drained => rfl
    | moved data pos wire content taken =>
      rw [drained] at taken
      exact absurd (List.append_eq_nil_iff.mp taken.symm).1 content

end Progress

/-- For every response with a 2xx status and a header block that the buffer holds, whatever the
segments and the READs: the body is delivered in order, and the verdict on a closed stream is
right exactly when the reader recognises the declared length. -/
theorem served_iff_recognised {jimSize : Nat} (room : 0 < jimSize) (jim : Memory UInt8) (r : Response) :
    Served jimSize jim r ↔ Recognised r := by
  constructor
  · intro served
    obtain ⟨reads, closed⟩ := closes room r jim
    obtain ⟨code, whole⟩ := closed_reply closed
    have right := served.verdict reads probe closed
    rw [code, whole] at right
    exact verdict_iff_recognised.mp right
  · intro recognised
    refine ⟨body_received jim, ?_⟩
    intro reads last reply count closed
    obtain ⟨code, whole⟩ := closed_reply closed
    have right := verdict_iff_recognised.mpr recognised
    rw [← code] at right
    rw [show count = r.body.length from congrArg List.length whole]
    exact right

/-- One byte of a body that is said to have five. -/
def truncated (f : Field) (number : f.number = some 5)
    (short : (headerBlock [statusLine 49 48 48 (ascii " OK"), f.line]).length < 8191) : Response where
  minor := 49
  tens := 48
  ones := 48
  reason := ascii " OK"
  fields := [f]
  body := [65]
  digits := by decide
  reason_plain := by decide +kernel
  numbers := by simp [number]
  agree := by simp
  short := short

def spelledField : Field := ⟨ascii "Content-Length", ascii " 5", by decide +kernel, by decide +kernel⟩

def lowerCaseField : Field := ⟨ascii "content-length", ascii " 5", by decide +kernel, by decide +kernel⟩

theorem spelled_truncation_served :
    Served 1 (fun _ => 0) (truncated spelledField (by decide +kernel) (by decide +kernel)) := by
  refine (served_iff_recognised (by decide) _ _).mpr ?_
  intro n declared
  have five : (truncated spelledField (by decide +kernel) (by decide +kernel)).contentLength = some 5 := by
    decide +kernel
  cases declared.symm.trans five
  exact ⟨fun _ => by decide +kernel, fun _ => by decide +kernel⟩

/-- With the field in lower case the client is told that the truncated body is complete. -/
theorem lower_case_truncation_reported_complete :
    ¬Served 1 (fun _ => 0) (truncated lowerCaseField (by decide +kernel) (by decide +kernel)) := by
  intro served
  have right := served.verdict [⟨1, 0, .ready 100, .empty, by decide, by decide⟩] probe (by decide +kernel)
  have five : (truncated lowerCaseField (by decide +kernel) (by decide +kernel)).contentLength = some 5 := by
    decide +kernel
  have complete := right.1.mp (by decide +kernel) 5 five
  exact absurd complete (by decide +kernel)

end Pi1MHz.Http
