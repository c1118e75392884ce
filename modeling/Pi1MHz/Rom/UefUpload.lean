import Pi1MHz.Rom.UefImport

/-! The upload of `*UEF LOAD` to a Pi with a stream: the windows that are appended make up the
file. -/
namespace Pi1MHz.UefImport
open Loop

section Trace

/-- The length at the end of the public window. -/
def trailer (jim : Jim) : Nat := (jim.memory 0xfffe).toNat + 0x100 * (jim.memory 0xffff).toNat

/-- What an APPEND takes: as many bytes of the public window as its trailer says. -/
def Event.window (event : Event) : List UInt8 := event.jim.memory.read 0 (trailer event.jim)

def uploadMax : Nat := 0xff00

def appends (trace : List Event) : List Event := trace.filter (·.call = .append)

def Call.reads : Call → Bool
  | .osbget _ => true
  | _ => false

/-- How many bytes of the source were asked for. -/
def reads (trace : List Event) : Nat := trace.countP (·.call.reads)

/-- The calls of the service driver. -/
def Call.service : Call → Bool
  | .probe | .begin | .append | .finalize | .streamClose | .normalize => true
  | _ => false

def services (trace : List Event) : List Call := (trace.map (·.call)).filter Call.service

/-- A Pi that streams and a file that is read to its end, without an Escape. Neither OSBGET nor the
Escape test alters the public window; where they leave the selectors is open. -/
structure Supplies (env : Environment) (file : List UInt8) : Prop where
  stream : ∀ before call, call = .probe ∨ call = .begin ∨ call = .append →
    (env.answer before call).carry = false
  calm : ∀ before, (env.answer before .escape).carry = false
  byte : ∀ before handle (inside : reads before < file.length),
    (env.answer before (.osbget handle)).carry = false ∧
      (env.answer before (.osbget handle)).a = file[reads before]
  ended : ∀ before handle, file.length ≤ reads before →
    (env.answer before (.osbget handle)).carry = true ∧ (env.answer before (.osbget handle)).a = 0xfe
  window : ∀ before call jim i, call.reads = true ∨ call = .escape → i < 0x10000 →
    ((env.answer before call).effect jim).memory i = jim.memory i

/-- The file was uploaded: full windows and a last one, no empty one, and the FINALIZE right after
the last. -/
structure Uploaded (file : List UInt8) (done : State) : Prop where
  windows : ∀ event ∈ appends done.trace, 1 ≤ trailer event.jim ∧ trailer event.jim ≤ uploadMax
  whole : (appends done.trace).flatMap Event.window = file
  count : (appends done.trace).length = (file.length + (uploadMax - 1)) / uploadMax
  calls : ∃ after, services done.trace =
    [.probe, .begin] ++ List.replicate (appends done.trace).length .append ++ [.finalize] ++ after ∧
      .append ∉ after
  room : done.exit ≠ some .full

theorem appends_append (trace : List Event) (event : Event) :
    appends (trace ++ [event]) = appends trace ++ if event.call = .append then [event] else [] := by
  rw [appends, List.filter_append]
  by_cases append : event.call = .append <;> simp [append, appends]

theorem services_append (trace : List Event) (event : Event) :
    services (trace ++ [event]) =
      services trace ++ if event.call.service then [event.call] else [] := by
  rw [services, List.map_append, List.filter_append]
  by_cases service : event.call.service = true <;> simp [service, services]

theorem reads_append (trace : List Event) (event : Event) :
    reads (trace ++ [event]) = reads trace + if event.call.reads then 1 else 0 := by
  rw [reads, List.countP_append]
  by_cases read : event.call.reads = true <;> simp [read, reads]

end Trace

section Uploading

variable {env : Environment} {file : List UInt8} {handle : UInt8} {base : List UInt8} {s : State}
  {flushed held : Nat}

/-- The low and the high byte of a length. -/
def lo (length : Nat) : UInt8 := UInt8.ofNat length

def hi (length : Nat) : UInt8 := UInt8.ofNat (length / 0x100)

/-- With `flushed` full windows appended and `held` bytes in the next. -/
structure Holding (file : List UInt8) (handle : UInt8) (base : List UInt8) (flushed held : Nat) (s : State) :
    Prop where
  active : s.uploadActive ≠ 0
  stack : s.stack = lo held :: hi held :: handle :: base
  window : s.jim.memory.read 0 held = (file.drop (uploadMax * flushed)).take held
  trailers : ∀ event ∈ appends s.trace, trailer event.jim = uploadMax
  sent : (appends s.trace).flatMap Event.window = file.take (uploadMax * flushed)
  count : (appends s.trace).length = flushed
  calls : services s.trace = [.probe, .begin] ++ List.replicate flushed .append

/-- Between two bytes. -/
structure Uploading (file : List UInt8) (handle : UInt8) (base : List UInt8) (flushed held : Nat)
    (s : State) : Prop extends Holding file handle base flushed held s where
  place : reads s.trace = uploadMax * flushed + held
  inside : reads s.trace ≤ file.length

theorem lo_succ (length : Nat) : lo length + 1 = lo (length + 1) := by
  rw [lo, lo, UInt8.ofNat_add]
  rfl

theorem hi_succ (length : Nat) :
    (if lo (length + 1) = 0 then hi length + 1 else hi length) = hi (length + 1) := by
  have low : lo (length + 1) = 0 ↔ (length + 1) % 0x100 = 0 := by
    rw [← UInt8.toNat_inj, lo, UInt8.toNat_ofNat', UInt8.toNat_zero]
  split
  · rename_i wraps
    have next : (length + 1) / 0x100 = length / 0x100 + 1 := by
      have rem := low.mp wraps
      omega
    rw [hi, hi, next, UInt8.ofNat_add]
    rfl
  · rename_i same
    have next : (length + 1) / 0x100 = length / 0x100 := by
      have rem := mt low.mpr same
      omega
    rw [hi, hi, next]

/-- Where a byte of the window is. -/
theorem window_address {length : Nat} (small : length < 0x10000) :
    (hi length).toNat * 0x100 + (lo length).toNat = length := by
  rw [hi, lo, UInt8.toNat_ofNat', UInt8.toNat_ofNat']
  omega

theorem trailer_commit (ap5 : Bool) (jim : Jim) {length : Nat} (small : length < 0x10000) :
    trailer (commitLength ap5 jim (lo length) (hi length)) = length := by
  rw [trailer, commitLength_memory]
  have low : ((jim.memory.write 0xfffe [lo length]).write 0xffff [hi length]) 0xfffe = lo length := by
    simp [Memory.write]
  have high : ((jim.memory.write 0xfffe [lo length]).write 0xffff [hi length]) 0xffff = hi length := by
    simp [Memory.write]
  rw [low, high]
  have whole := window_address small
  omega

theorem commit_window (ap5 : Bool) (jim : Jim) (a y : UInt8) {length : Nat} (small : length ≤ uploadMax) :
    (commitLength ap5 jim a y).memory.read 0 length = jim.memory.read 0 length := by
  have most : uploadMax = 0xff00 := rfl
  rw [commitLength_memory, Memory.read_write_disjoint _ (by omega), Memory.read_write_disjoint _ (by omega)]

/-- What a call that leaves the window alone keeps of it. -/
theorem Supplies.keeps (supplies : Supplies env file) (before : List Event) {call : Call}
    (harmless : call.reads = true ∨ call = .escape) (jim : Jim) {length : Nat} (small : length ≤ uploadMax) :
    ((env.answer before call).effect jim).memory.read 0 length = jim.memory.read 0 length := by
  have most : uploadMax = 0xff00 := rfl
  refine Memory.read_ext fun i inside => ?_
  exact supplies.window before call jim _ harmless (by omega)

/-- A call that is not one of the service driver. -/
theorem State.call_quiet (s : State) (env : Environment) {call : Call} (service : call.service = false) :
    appends (s.call env call).trace = appends s.trace ∧ services (s.call env call).trace = services s.trace := by
  have append : call ≠ .append := by
    rintro rfl
    cases service
  rw [State.call_trace]
  constructor
  · rw [appends_append, State.event, if_neg append, List.append_nil]
  · rw [services_append, State.event, service]
    exact List.append_nil _

theorem Holding.after (holding : Holding file handle base flushed held s) {next : State}
    (active : next.uploadActive = s.uploadActive) (stack : next.stack = s.stack)
    (window : next.jim.memory.read 0 held = s.jim.memory.read 0 held)
    (append : appends next.trace = appends s.trace) (service : services next.trace = services s.trace) :
    Holding file handle base flushed held next where
  active := active ▸ holding.active
  stack := stack.trans holding.stack
  window := window.trans holding.window
  trailers := append ▸ holding.trailers
  sent := append ▸ holding.sent
  count := append ▸ holding.count
  calls := service.trans holding.calls

/-- Neither an OSBGET nor the Escape test disturbs what is held. -/
theorem Holding.quiet (holding : Holding file handle base flushed held s) (supplies : Supplies env file)
    {call : Call} (harmless : call.reads = true ∨ call = .escape) (small : held ≤ uploadMax) :
    Holding file handle base flushed held (s.call env call) := by
  have service : call.service = false := by
    rcases harmless with read | rfl
    · cases call with
      | osbget => rfl
      | _ => cases read
    · rfl
  obtain ⟨append, service⟩ := s.call_quiet env service
  exact holding.after rfl rfl (supplies.keeps s.trace harmless s.jim small) append service

/-- The end of a page: the length is published, and no Escape. -/
theorem Uploading.checkpoint (supplies : Supplies env file)
    (uploading : Uploading file handle base flushed held s) (small : held ≤ uploadMax) :
    ∃ next, uefCheckpoint env s = .again next ∧ Uploading file handle base flushed held next ∧
      reads next.trace = reads s.trace := by
  rw [uefCheckpoint]
  split
  · exact ⟨s, rfl, uploading, rfl⟩
  · rw [commit_eq]
    let published : State := { s with jim := commitLength env.ap5 s.jim (s.frame 1) (s.frame 2) }
    have holding : Holding file handle base flushed held published :=
      uploading.toHolding.after rfl rfl (commit_window _ _ _ _ small) rfl rfl
    have read : reads (published.call env .escape).trace = reads s.trace := reads_append _ _
    refine ⟨published.call env .escape, ?_, ⟨holding.quiet supplies (.inr rfl) small, ?_, ?_⟩, read⟩
    · change (if (env.answer published.trace .escape).carry then _ else _) = _
      rw [if_neg (by simp [supplies.calm])]
    · exact read.trans uploading.place
    · exact read.trans_le uploading.inside

/-- The next byte of the file behind those that are held. -/
theorem Holding.grown (holding : Holding file handle base flushed held s) (small : held < uploadMax)
    {value : UInt8} (next : file[uploadMax * flushed + held]? = some value) :
    (({ selectPublicZero env.ap5 s.jim with page := hi held } : Jim).poke env.ap5 (lo held) value).memory.read 0
      (held + 1) = (file.drop (uploadMax * flushed)).take (held + 1) := by
  have most : uploadMax = 0xff00 := rfl
  obtain ⟨inside, -⟩ := List.getElem?_eq_some_iff.mp next
  have address : ({ selectPublicZero env.ap5 s.jim with page := hi held } : Jim).address env.ap5 (lo held) =
      held := by
    rw [address_public, window_address (by omega)]
  have memory : ({ selectPublicZero env.ap5 s.jim with page := hi held } : Jim).memory = s.jim.memory := by
    cases env.ap5 <;> rfl
  have length : ((file.drop (uploadMax * flushed)).take held).length = held := by
    rw [List.length_take, List.length_drop]
    omega
  have snoc := s.jim.memory.read_write_snoc ((file.drop (uploadMax * flushed)).take held) value (by
    rw [length]
    exact holding.window)
  rw [List.length_append, length, List.length_singleton] at snoc
  rw [Jim.poke, address, memory, snoc, List.take_add_one, List.getElem?_drop, next]
  rfl

/-- A byte is in the window and in the count. -/
theorem Uploading.stored (uploading : Uploading file handle base flushed held s) (supplies : Supplies env file)
    (small : held < uploadMax) (more : reads s.trace < file.length) :
    let answer := env.answer s.trace (.osbget handle)
    Uploading file handle base flushed (held + 1)
      (storeByte env { s.call env (.osbget handle) with temp := answer.a }) := by
  intro answer
  have place := uploading.place
  have counted : reads (s.call env (.osbget handle)).trace = reads s.trace + 1 := reads_append _ _
  have holding : Holding file handle base flushed held (s.call env (.osbget handle)) :=
    uploading.toHolding.quiet supplies (.inl rfl) (Nat.le_of_lt small)
  have next : file[uploadMax * flushed + held]? = some answer.a := by
    rw [← place, List.getElem?_eq_getElem more, (supplies.byte s.trace handle more).2]
  have got : ({ s.call env (.osbget handle) with temp := answer.a } : State).stack =
      lo held :: hi held :: handle :: base := holding.stack
  rw [storeByte_eq got, lo_succ, hi_succ]
  refine ⟨⟨holding.active, rfl, holding.grown small next, holding.trailers, holding.sent, holding.count,
    holding.calls⟩, ?_, ?_⟩
  · exact counted.trans (by rw [place, Nat.add_assoc])
  · exact counted.trans_le more

/-- An APPEND once the length is published. -/
theorem Holding.append (holding : Holding file handle base flushed held s) (published : trailer s.jim = held) :
    (∀ event ∈ appends (s.call env .append).trace,
        trailer event.jim = uploadMax ∨ trailer event.jim = held) ∧
      (appends (s.call env .append).trace).flatMap Event.window = file.take (uploadMax * flushed + held) ∧
      (appends (s.call env .append).trace).length = flushed + 1 ∧
      services (s.call env .append).trace = [.probe, .begin] ++ List.replicate (flushed + 1) .append := by
  let event : Event := s.event env .append
  have appended : appends (s.call env .append).trace = appends s.trace ++ [event] := appends_append _ _
  have called : services (s.call env .append).trace = services s.trace ++ [.append] := services_append _ _
  have length : trailer event.jim = held := published
  have window : event.window = (file.drop (uploadMax * flushed)).take held := by
    rw [Event.window, length]
    exact holding.window
  rw [appended, called]
  refine ⟨fun other member => ?_, ?_, ?_, ?_⟩
  · rcases List.mem_append.mp member with old | new
    · exact .inl (holding.trailers other old)
    · rw [List.mem_singleton.mp new]
      exact .inr length
  · rw [List.flatMap_append, holding.sent, List.flatMap_singleton, window, List.take_add]
  · rw [List.length_append, holding.count]
    rfl
  · rw [holding.calls, List.replicate_succ', List.append_assoc]

/-- A full window is appended and the next begun. -/
theorem Uploading.flush (uploading : Uploading file handle base flushed uploadMax s) :
    Uploading file handle base (flushed + 1) 0
        ((((commit env s 0 0xff).call env .append).setFrame 1 0).setFrame 2 0) ∧
      reads ((((commit env s 0 0xff).call env .append).setFrame 1 0).setFrame 2 0).trace =
        reads s.trace := by
  have holding : Holding file handle base flushed uploadMax (commit env s 0 0xff) :=
    uploading.toHolding.after rfl rfl (commit_window _ _ _ _ (Nat.le_refl _)) rfl rfl
  have small : uploadMax < 0x10000 := by decide
  have bytes : lo uploadMax = 0 ∧ hi uploadMax = 0xff := ⟨rfl, rfl⟩
  have published : trailer (commit env s 0 0xff).jim = uploadMax := by
    rw [commit_eq, ← bytes.1, ← bytes.2]
    exact trailer_commit env.ap5 s.jim small
  obtain ⟨trailers, sent, count, calls⟩ := @Holding.append env file handle base _ flushed uploadMax
    holding published
  have counted : reads ((commit env s 0 0xff).call env .append).trace = reads s.trace := reads_append _ _
  refine ⟨⟨⟨uploading.active, ?_, ?_, ?_, sent, count, calls⟩, ?_, ?_⟩, counted⟩
  · simp only [State.setFrame, State.call, commit_eq, uploading.stack]
    rfl
  · rw [Memory.read_zero, List.take_zero]
  · exact fun event member => (trailers event member).elim id id
  · exact counted.trans uploading.place
  · exact counted.trans_le uploading.inside

/-- A byte that is read leads to the next. -/
theorem Uploading.turn (supplies : Supplies env file)
    (uploading : Uploading file handle base flushed held s) (small : held < uploadMax)
    (more : reads s.trace < file.length) :
    ∃ next flushed held, uefRead env s = .again next ∧ Uploading file handle base flushed held next ∧
      held < uploadMax ∧ reads next.trace = reads s.trace + 1 := by
  have most : uploadMax = 0xff00 := rfl
  have file_ : s.frame 3 = handle := by simp [State.frame, uploading.stack]
  have high : s.frame 2 ≠ 0xff := by
    have size := window_address (show held < 0x10000 by omega)
    simp only [State.frame, uploading.stack]
    intro top
    have top : hi held = 0xff := top
    rw [top] at size
    have value : (0xff : UInt8).toNat = 0xff := rfl
    omega
  obtain ⟨carry, -⟩ := supplies.byte s.trace handle more
  have stored := uploading.stored supplies small more
  dsimp only at stored
  have counted : reads (s.call env (.osbget handle)).trace = reads s.trace + 1 := reads_append _ _
  let st : State := storeByte env { s.call env (.osbget handle) with
    temp := (env.answer s.trace (.osbget handle)).a }
  have stFrame : st.frame 1 = lo (held + 1) ∧ st.frame 2 = hi (held + 1) := by
    simp only [State.frame, st, stored.stack]
    exact ⟨rfl, rfl⟩
  have stReads : reads st.trace = reads s.trace + 1 := by
    rw [stored.place, uploading.place]
    omega
  have step : uefRead env s =
      if st.uploadActive ≠ 0 ∧ st.frame 1 = 0 ∧ st.frame 2 = 0xff then
        if (env.answer (commit env st 0 0xff).trace .append).carry then
          .leave (uefStreamReadFailed env ((commit env st 0 0xff).call env .append))
        else
          uefCheckpoint env ((((commit env st 0 0xff).call env .append).setFrame 1 0).setFrame 2 0)
      else uefCheckpoint env st := by
    rw [uefRead, file_, if_neg (by simp [carry])]
    exact if_neg fun full => high full.1
  rw [step]
  by_cases full : held + 1 = uploadMax
  · have flushes : st.uploadActive ≠ 0 ∧ st.frame 1 = 0 ∧ st.frame 2 = 0xff := by
      rw [stFrame.1, stFrame.2, full]
      exact ⟨stored.active, rfl, rfl⟩
    have accepted := supplies.stream (commit env st 0 0xff).trace .append (.inr (.inr rfl))
    rw [if_pos flushes, if_neg (by simp [accepted])]
    rw [full] at stored
    obtain ⟨flushed_, same⟩ := @Uploading.flush env file handle base st flushed stored
    obtain ⟨next, again, uploading, count⟩ := flushed_.checkpoint supplies (Nat.zero_le _)
    exact ⟨next, _, _, again, uploading, by omega, count.trans (same.trans stReads)⟩
  · have partial_ : ¬ (st.uploadActive ≠ 0 ∧ st.frame 1 = 0 ∧ st.frame 2 = 0xff) := by
      rintro ⟨-, low, top⟩
      rw [stFrame.1] at low
      rw [stFrame.2] at top
      have size := window_address (show held + 1 < 0x10000 by omega)
      rw [low, top] at size
      have value : (0xff : UInt8).toNat = 0xff ∧ (0 : UInt8).toNat = 0 := ⟨rfl, rfl⟩
      omega
    rw [if_neg partial_]
    obtain ⟨next, again, uploading, count⟩ := stored.checkpoint supplies (by omega)
    exact ⟨next, _, _, again, uploading, by omega, count.trans stReads⟩

/-- After FINALIZE nothing is appended, and the way out is not a full buffer. -/
theorem uefNormalized_after {low high : UInt8} (stack : s.stack = low :: high :: handle :: base) (format : UInt8) :
    appends (uefNormalized env s format).trace = appends s.trace ∧
      services (uefNormalized env s format).trace = services s.trace ∧
      (uefNormalized env s format).exit ≠ some .full := by
  obtain ⟨low', high', temp, shown⟩ := @readLength_normalized env s low high handle base stack format
  rw [uefNormalized, shown]
  let found : State :=
    { s with stack := low' :: high' :: handle :: base, temp := format, jim := selectLength env.ap5 s.jim }
  obtain ⟨append, service⟩ := @State.call_quiet found env .selectTape rfl
  split
  · exact ⟨append, service, by simp [State.leave]⟩
  · exact ⟨append, service, by simp [State.leave]⟩

theorem uefStreamFailed_after (active : s.uploadActive ≠ 0) :
    appends (uefStreamFailed env s).trace = appends s.trace ∧
      services (uefStreamFailed env s).trace = services s.trace ++ [.streamClose] ∧
      (uefStreamFailed env s).exit ≠ some .full := by
  rw [uefStreamFailed, if_neg active]
  refine ⟨?_, ?_, by simp [State.leave]⟩
  · exact (appends_append _ _).trans (List.append_nil _)
  · exact services_append _ _

/-- The source is closed and the upload finalized. -/
theorem uefStreamFinalize_after {low high : UInt8} (stack : s.stack = low :: high :: handle :: base)
    (active : s.uploadActive ≠ 0) :
    appends (uefStreamFinalize env s).trace = appends s.trace ∧
      (∃ after, services (uefStreamFinalize env s).trace = services s.trace ++ [.finalize] ++ after ∧
        Call.append ∉ after) ∧
      (uefStreamFinalize env s).exit ≠ some .full := by
  let closed_ : State := s.call env (.close handle)
  let ended : State := closed_.call env .finalize
  obtain ⟨append, service⟩ := @State.call_quiet s env (.close handle) rfl
  have appended : appends ended.trace = appends s.trace := by
    refine (appends_append _ _).trans ?_
    rw [if_neg (by simp), List.append_nil]
    exact append
  have called : services ended.trace = services s.trace ++ [.finalize] := by
    refine (services_append _ _).trans ?_
    rw [show services closed_.trace = services s.trace from service]
    rfl
  rw [uefStreamFinalize, uefClose_eq stack]
  change (appends (if (env.answer closed_.trace .finalize).carry then uefStreamFailed env ended
    else uefNormalized env ended (env.answer closed_.trace .finalize).a).trace = _) ∧ _
  split
  · obtain ⟨same, after, exit⟩ := @uefStreamFailed_after env ended active
    exact ⟨same.trans appended, ⟨[.streamClose], by rw [after, called], by decide⟩, exit⟩
  · obtain ⟨same, after, exit⟩ := @uefNormalized_after env handle base ended low high stack
      (env.answer closed_.trace .finalize).a
    exact ⟨same.trans appended, ⟨[], by rw [after, called, List.append_nil], by simp⟩, exit⟩

/-- The bytes that are left after the full windows, if there are any, make one more. -/
theorem windows_count (flushed : Nat) (small : held < uploadMax) :
    (uploadMax * flushed + held + (uploadMax - 1)) / uploadMax =
      flushed + if held = 0 then 0 else 1 := by
  have most : uploadMax = 0xff00 := rfl
  rw [most] at small ⊢
  split <;> omega

/-- What FINALIZE finds is what was uploaded. -/
theorem Uploaded.of_finalize {low high : UInt8} (stack : s.stack = low :: high :: handle :: base)
    (active : s.uploadActive ≠ 0)
    (windows : ∀ event ∈ appends s.trace, 1 ≤ trailer event.jim ∧ trailer event.jim ≤ uploadMax)
    (whole : (appends s.trace).flatMap Event.window = file)
    (count : (appends s.trace).length = (file.length + (uploadMax - 1)) / uploadMax)
    (calls : services s.trace = [.probe, .begin] ++ List.replicate (appends s.trace).length .append) :
    Uploaded file (uefStreamFinalize env s) := by
  obtain ⟨same, ⟨after, last, nothing⟩, room⟩ := @uefStreamFinalize_after env handle base s low high stack active
  refine ⟨?_, ?_, ?_, ⟨after, ?_, nothing⟩, room⟩
  · rw [same]
    exact windows
  · rw [same]
    exact whole
  · rw [same]
    exact count
  · rw [last, calls, same]

theorem length_bytes {length : Nat} (small : length < 0x10000) : hi length ||| lo length = 0 ↔ length = 0 := by
  have size := window_address small
  rw [UInt8.or_eq_zero_iff]
  constructor
  · rintro ⟨high, low⟩
    rw [high, low] at size
    exact size.symm
  · rintro rfl
    exact ⟨rfl, rfl⟩

/-- The length that is settled at the end is the one that is held. -/
theorem Holding.settle (holding : Holding file handle base flushed held s) (small : held ≤ uploadMax) :
    Holding file handle base flushed held (settleLength env s) ∧
      trailer (settleLength env s).jim = held := by
  have most : uploadMax = 0xff00 := rfl
  rw [settleLength_eq holding.stack]
  have memory : (selectLength env.ap5 (commitLength env.ap5 s.jim (lo held) (hi held))).memory =
      (commitLength env.ap5 s.jim (lo held) (hi held)).memory := by
    cases env.ap5 <;> rfl
  refine ⟨holding.after rfl rfl ?_ rfl rfl, ?_⟩
  · exact (congrArg (Memory.read · 0 held) memory).trans (commit_window _ _ _ _ small)
  · rw [trailer, memory]
    exact trailer_commit env.ap5 s.jim (by omega)

/-- The end of the file: what is held is appended unless it is empty. -/
theorem uefComplete_eq (holding : Holding file handle base flushed held s) (small : held ≤ uploadMax)
    (accepted : ∀ before, (env.answer before .append).carry = false) :
    uefComplete env s =
      uefStreamFinalize env
        (if held = 0 then settleLength env s else (settleLength env s).call env .append) := by
  have most : uploadMax = 0xff00 := rfl
  have settled := (@Holding.settle env file handle base s flushed held holding small).1
  have length : (settleLength env s).frame 2 ||| (settleLength env s).frame 1 = 0 ↔ held = 0 := by
    rw [← length_bytes (show held < 0x10000 by omega), State.frame, State.frame, settled.stack]
    rfl
  rw [uefComplete]
  by_cases nothing : held = 0
  · rw [if_pos (length.mpr nothing), if_pos settled.active, if_pos nothing]
  · rw [if_neg (mt length.mp nothing), if_neg settled.active, if_neg nothing, if_neg (by simp [accepted])]

/-- With the length settled: the last window, and FINALIZE. -/
theorem Holding.finalized (holding : Holding file handle base flushed held s) (published : trailer s.jim = held)
    (small : held < uploadMax) (total : file.length = uploadMax * flushed + held) :
    Uploaded file (uefStreamFinalize env (if held = 0 then s else s.call env .append)) := by
  have most : uploadMax = 0xff00 := rfl
  have counted : (file.length + (uploadMax - 1)) / uploadMax = flushed + if held = 0 then 0 else 1 := by
    rw [total]
    exact windows_count flushed small
  by_cases nothing : held = 0
  · rw [if_pos nothing]
    have length : file.length = uploadMax * flushed := by rw [total, nothing, Nat.add_zero]
    refine Uploaded.of_finalize holding.stack holding.active ?_ ?_ ?_ ?_
    · intro event member
      rw [holding.trailers event member, most]
      decide
    · rw [holding.sent, ← length, List.take_length]
    · rw [counted, if_pos nothing]
      exact holding.count
    · rw [holding.count]
      exact holding.calls
  · rw [if_neg nothing]
    obtain ⟨trailers, sent, count, calls⟩ := @Holding.append env file handle base s flushed held
      holding published
    refine Uploaded.of_finalize holding.stack holding.active ?_ ?_ ?_ ?_
    · intro event member
      rcases trailers event member with full | last
      · rw [full, most]
        decide
      · rw [last]
        omega
    · rw [sent, ← total, List.take_length]
    · rw [count, counted, if_neg nothing]
    · rw [count]
      exact calls

/-- The end of the file. -/
theorem Uploading.finish (supplies : Supplies env file)
    (uploading : Uploading file handle base flushed held s) (small : held < uploadMax)
    (over_ : reads s.trace = file.length) :
    ∃ done, uefRead env s = .leave done ∧ Uploaded file done := by
  have file_ : s.frame 3 = handle := by simp [State.frame, uploading.stack]
  obtain ⟨carry, eof⟩ := supplies.ended s.trace handle (Nat.le_of_eq over_.symm)
  let asked : State := s.call env (.osbget handle)
  have step : uefRead env s = .leave (uefComplete env asked) := by
    rw [uefRead, file_, if_pos carry, uefReadEnd, if_pos eof]
  have holding : Holding file handle base flushed held asked :=
    uploading.toHolding.quiet supplies (.inl rfl) (Nat.le_of_lt small)
  obtain ⟨settled, published⟩ := @Holding.settle env file handle base asked flushed held holding
    (Nat.le_of_lt small)
  refine ⟨_, step, ?_⟩
  rw [uefComplete_eq holding (Nat.le_of_lt small)
    fun before => supplies.stream before .append (.inr (.inr rfl))]
  exact settled.finalized published small (over_.symm.trans uploading.place)

/-- With the file open and the stream begun nothing is uploaded yet. -/
theorem uefOpened_uploading (supplies : Supplies env file) (stack : List UInt8) (temp uploadActive : UInt8)
    (jim : Jim) :
    Uploading file handle stack 0 0 (uefOpened env handle ⟨stack, temp, uploadActive, jim, [], none⟩) := by
  let start : State := ⟨0 :: 0 :: handle :: stack, temp, 0, commitLength env.ap5 jim 0 0, [], none⟩
  let probed : State := start.call env .probe
  let begun : State := { probed.call env .begin with uploadActive := 0xff }
  have answers := And.intro (supplies.stream start.trace .probe (.inl rfl))
    (supplies.stream probed.trace .begin (.inr (.inl rfl)))
  have shown : uefOpened env handle ⟨stack, temp, uploadActive, jim, [], none⟩ = begun := by
    change (if (env.answer start.trace .probe).carry then probed
      else if (env.answer probed.trace .begin).carry then probed.call env .begin else begun) = begun
    rw [if_neg (by simp [answers.1]), if_neg (by simp [answers.2])]
  rw [shown]
  exact {
    active := show (0xff : UInt8) ≠ 0 by decide
    stack := rfl
    window := rfl
    trailers := fun event member => by cases member
    sent := rfl
    count := rfl
    calls := rfl
    place := rfl
    inside := Nat.zero_le _ }

end Uploading

/-- A file that is read to its end goes to the Pi in windows of one to `&FF00` bytes, each with its
size in the trailer and no more of them than it takes, and FINALIZE follows the last. -/
theorem uefCmd_uploads {env : Environment} {file : List UInt8} (supplies : Supplies env file)
    {fuel : Nat} (enough : file.length < fuel) (handle : UInt8) (stack : List UInt8)
    (temp uploadActive : UInt8) (jim : Jim) :
    ∃ done, uefCmd env fuel handle ⟨stack, temp, uploadActive, jim, [], none⟩ = some done ∧
      Uploaded file done := by
  have start := @uefOpened_uploading env file handle supplies stack temp uploadActive jim
  refine repeatPass_settles
    (fun s => ∃ flushed held, Uploading file handle stack flushed held s ∧ held < uploadMax)
    (fun s => file.length - reads s.trace) ?_ ⟨0, 0, start, by decide⟩
    (Nat.lt_of_le_of_lt (Nat.sub_le _ _) enough)
  rintro s ⟨flushed, held, uploading, small⟩
  rcases Nat.lt_or_ge (reads s.trace) file.length with more | over_
  · obtain ⟨next, flushed, held, again, after, small, count⟩ := uploading.turn supplies small more
    rw [again]
    exact settles_some ⟨⟨flushed, held, after, small⟩, by omega⟩
  · obtain ⟨done, left, uploaded⟩ := uploading.finish supplies small
      (Nat.le_antisymm uploading.inside over_)
    rw [left]
    exact settles_some uploaded

/-- A Pi that has a stream, and the file on a disc. -/
def servedFile (file : List UInt8) : Environment where
  ap5 := false
  answer before call :=
    match call with
    | .osbget _ =>
      match file[reads before]? with
      | some byte => ⟨false, byte, id⟩
      | none => ⟨true, 0xfe, id⟩
    | _ => ⟨false, 0, id⟩

theorem servedFile_supplies (file : List UInt8) : Supplies (servedFile file) file where
  stream := by
    rintro before call (rfl | rfl | rfl) <;> rfl
  calm _ := rfl
  byte before handle inside := by
    simp [servedFile, List.getElem?_eq_getElem inside]
  ended before handle over_ := by
    simp [servedFile, List.getElem?_eq_none over_]
  window before call jim i kind _ := by
    cases call with
    | osbget => cases found : file[reads before]? <;> simp [servedFile, found]
    | escape => rfl
    | _ => simp [Call.reads] at kind

/-- Two whole windows and five bytes. -/
def longFile : List UInt8 := (List.range 0x1fe05).map UInt8.ofNat

theorem longFile_length : longFile.length = 0x1fe05 := by
  rw [longFile, List.length_map, List.length_range]

theorem longFile_uploads :
    ∃ done, uefCmd (servedFile longFile) 0x1fe06 0x80
        ⟨[0x34, 0x12], 0, 0, ⟨0, 0, 0, fun _ => 0⟩, [], none⟩ = some done ∧
      Uploaded longFile done := by
  have enough : longFile.length < 0x1fe06 := by
    rw [longFile_length]
    decide
  exact uefCmd_uploads (servedFile_supplies longFile) enough 0x80 [0x34, 0x12] 0 0 _

end Pi1MHz.UefImport
