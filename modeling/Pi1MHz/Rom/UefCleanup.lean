import Pi1MHz.Rom.UefImport

/-! What `*UEF LOAD` leaves behind: the source file, the three bytes on the stack and the upload
session of the Pi, on every way out. -/
namespace Pi1MHz.UefImport
open Loop

section Accounts

/-- The session is active after an event if it was begun and neither finalized nor closed. -/
def Event.active (event : Event) (before : Bool) : Bool :=
  match event.call with
  | .begin => if event.carry then before else true
  | .finalize => if event.carry then before else false
  | .streamClose => false
  | _ => before

def session (trace : List Event) : Bool := trace.foldl (fun before event => event.active before) false

def Event.closes (event : Event) : Option UInt8 :=
  match event.call with
  | .close handle => some handle
  | _ => none

/-- The handles that were closed, in order. -/
def closed (trace : List Event) : List UInt8 := trace.filterMap Event.closes

/-- An OSBGET that ended with something else than the end of the file. -/
def Event.failed (event : Event) : Prop :=
  (∃ handle, event.call = .osbget handle) ∧ event.carry = true ∧ event.a ≠ 0xfe

/-- A read of the source failed while an upload was active. -/
def ReadFailed (trace : List Event) : Prop :=
  ∃ before event after, trace = before ++ event :: after ∧ session before = true ∧ event.failed

/-- The source closed once, the stack as it was before the handle, and no session left. -/
structure Clean (handle : UInt8) (base : List UInt8) (done : State) : Prop where
  source : closed done.trace = [handle]
  stack : done.stack = base
  session : session done.trace = false

/-- The command as the file is opened. -/
def opened (stack : List UInt8) (temp uploadActive : UInt8) (jim : Jim) : State :=
  ⟨stack, temp, uploadActive, jim, [], none⟩

end Accounts

section Frames

variable {env : Environment} {handle : UInt8} {base : List UInt8} {files : List UInt8} {s : State}
  {made : Call}

/-- The length and the handle lie on the stack, `files` were closed, and no read failed. -/
structure Framed (handle : UInt8) (base files : List UInt8) (s : State) : Prop where
  stack : ∃ low high, s.stack = low :: high :: handle :: base
  closed : closed s.trace = files
  reads : ¬ ReadFailed s.trace

/-- `drv_uef_upload_active` says whether there is a session. -/
def Tracked (s : State) : Prop := session s.trace = true ↔ s.uploadActive ≠ 0

/-- What a way out leaves, a failed read included. -/
structure Left (handle : UInt8) (base : List UInt8) (done : State) : Prop where
  source : closed done.trace = [handle]
  stack : done.stack = base
  session : session done.trace = true ↔ ReadFailed done.trace

theorem session_append (trace : List Event) (event : Event) :
    session (trace ++ [event]) = event.active (session trace) := by
  rw [session, List.foldl_append]
  rfl

theorem closed_append (trace : List Event) (event : Event) :
    closed (trace ++ [event]) = closed trace ++ event.closes.toList := by
  rw [closed, List.filterMap_append]
  cases found : event.closes <;> simp [closed, found]

theorem readFailed_append (trace : List Event) (event : Event) :
    ReadFailed (trace ++ [event]) ↔
      ReadFailed trace ∨ (session trace = true ∧ event.failed) := by
  constructor
  · rintro ⟨before, other, after, split, active, failed⟩
    rcases List.eq_nil_or_concat after with rfl | ⟨others, last, rfl⟩
    · obtain ⟨rfl, same⟩ := List.append_inj' split rfl
      cases same
      exact .inr ⟨active, failed⟩
    · have joined : trace ++ [event] = (before ++ other :: others) ++ [last] := by
        rw [split, List.append_assoc]
        simp
      exact .inl ⟨before, other, others, (List.append_inj' joined rfl).1, active, failed⟩
  · rintro (⟨before, other, after, rfl, active, failed⟩ | ⟨active, failed⟩)
    · exact ⟨before, other, after ++ [event], by simp, active, failed⟩
    · exact ⟨trace, event, [], rfl, active, failed⟩

/-- A call that is no OSBGET keeps the frame, and closes what it closes. -/
theorem Framed.called (framed : Framed handle base files s) (call : Call)
    (other : ∀ handle, call ≠ .osbget handle) :
    Framed handle base (files ++ (s.event env call).closes.toList) (s.call env call) where
  stack := framed.stack
  closed := by rw [State.call_trace, closed_append, framed.closed]
  reads := by
    rw [State.call_trace, readFailed_append, not_or]
    exact ⟨framed.reads, fun failed => failed.2.1.elim fun handle is => other handle is⟩

/-- A call about neither the session nor the source. -/
def Call.aside : Call → Bool
  | .probe | .append | .normalize | .escape | .selectTape => true
  | _ => false

theorem Framed.aside (framed : Framed handle base files s) (aside : made.aside = true) :
    Framed handle base files (s.call env made) := by
  have other : ∀ handle, made ≠ .osbget handle := by
    rintro handle rfl
    cases aside
  have nothing : (s.event env made).closes = none := by
    cases made <;> first | rfl | cases aside
  have next := @Framed.called env handle base files s framed made other
  rw [nothing, Option.toList_none, List.append_nil] at next
  exact next

theorem session_aside (aside : made.aside = true) :
    session (s.call env made).trace = session s.trace := by
  rw [State.call_trace, session_append]
  cases made <;> first | rfl | cases aside

theorem Tracked.aside (tracked : Tracked s) (aside : made.aside = true) : Tracked (s.call env made) := by
  rw [Tracked, session_aside aside]
  exact tracked

theorem Framed.close (framed : Framed handle base [] s) :
    Framed handle base [handle] (uefClose env s) ∧ session (uefClose env s).trace = session s.trace ∧
      (uefClose env s).uploadActive = s.uploadActive := by
  obtain ⟨low, high, stack⟩ := framed.stack
  rw [uefClose_eq stack]
  refine ⟨framed.called (.close handle) (by intro _ same; cases same), ?_, rfl⟩
  rw [State.call_trace, session_append]
  rfl

theorem Framed.leave (framed : Framed handle base [handle] s) (over_ : session s.trace = false)
    (exit : Exit) : Left handle base (s.leave exit) := by
  obtain ⟨low, high, stack⟩ := framed.stack
  refine ⟨framed.closed, ?_, ?_⟩
  · simp [State.leave, State.pull, stack]
  · exact ⟨fun active => absurd (over_.symm.trans active) (by decide),
      fun failed => absurd failed framed.reads⟩

/-- The upload flag is part of no account. -/
theorem Left.flag {done : State} (left : Left handle base done) (flag : UInt8) :
    Left handle base { done with uploadActive := flag } := ⟨left.source, left.stack, left.session⟩

theorem Tracked.inactive (tracked : Tracked s) (inactive : s.uploadActive = 0) :
    session s.trace = false := by
  rw [← Bool.not_eq_true]
  exact fun active => tracked.mp active inactive

/-- The session is closed where there is one. -/
theorem Framed.dropped (framed : Framed handle base [handle] s) (tracked : Tracked s) :
    Framed handle base [handle] (if s.uploadActive = 0 then s else s.call env .streamClose) ∧
      session (if s.uploadActive = 0 then s else s.call env .streamClose).trace = false := by
  split
  · rename_i inactive
    exact ⟨framed, tracked.inactive inactive⟩
  · refine ⟨framed.called .streamClose (by intro _ same; cases same), ?_⟩
    rw [State.call_trace, session_append]
    rfl

theorem uefStreamFailed_left (framed : Framed handle base [handle] s) (tracked : Tracked s) :
    Left handle base (uefStreamFailed env s) := by
  obtain ⟨kept, over_⟩ := @Framed.dropped env handle base s framed tracked
  exact (kept.leave over_ .streamFailed).flag 0

theorem Tracked.close (tracked : Tracked s) (framed : Framed handle base [] s) :
    Tracked (uefClose env s) := by
  obtain ⟨-, same, flag⟩ := @Framed.close env handle base s framed
  rw [Tracked, same, flag]
  exact tracked

theorem uefStreamReadFailed_left (framed : Framed handle base [] s) (tracked : Tracked s) :
    Left handle base (uefStreamReadFailed env s) :=
  uefStreamFailed_left framed.close.1 (tracked.close framed)

theorem uefEscape_left (framed : Framed handle base [] s) (tracked : Tracked s) :
    Left handle base (uefEscape env s) := by
  obtain ⟨kept, over_⟩ := @Framed.dropped env handle base _ framed.close.1 (tracked.close framed)
  rw [uefEscape]
  dsimp only
  split
  · rename_i inactive
    rw [if_pos inactive] at kept over_
    exact kept.leave over_ .escaped
  · rename_i active
    rw [if_neg active] at kept over_
    exact (kept.leave over_ .escaped).flag 0

/-- The buffer is full: only without a session. -/
theorem uefFull_left (framed : Framed handle base [] s) (over_ : session s.trace = false) :
    Left handle base (uefFull env s) := by
  obtain ⟨kept, same, -⟩ := @Framed.close env handle base s framed
  exact kept.leave (same.trans over_) .full

theorem uefNormalized_left (framed : Framed handle base [handle] s) (over_ : session s.trace = false)
    (format : UInt8) : Left handle base (uefNormalized env s format) := by
  obtain ⟨low, high, stack⟩ := framed.stack
  obtain ⟨low', high', temp, shown⟩ := @readLength_normalized env s low high handle base stack format
  rw [uefNormalized, shown]
  let found : State :=
    { s with stack := low' :: high' :: handle :: base, temp := format, jim := selectLength env.ap5 s.jim }
  have kept : Framed handle base [handle] found := ⟨⟨low', high', rfl⟩, framed.closed, framed.reads⟩
  have tape := @Framed.aside env handle base [handle] found .selectTape kept rfl
  have still : session (found.call env .selectTape).trace = false := by
    rw [session_aside rfl]
    exact over_
  change Left handle base (if (env.answer found.trace .selectTape).carry then
    (found.call env .selectTape).leave .tapeFailed else (found.call env .selectTape).leave (.loaded format))
  split
  · exact tape.leave still .tapeFailed
  · exact tape.leave still (.loaded format)

theorem uefStreamFinalize_left (framed : Framed handle base [] s) (tracked : Tracked s) :
    Left handle base (uefStreamFinalize env s) := by
  have before := @Tracked.close env handle base s tracked framed
  have kept := (@Framed.close env handle base s framed).1
  have called := @Framed.called env handle base [handle] _ kept .finalize (by intro _ same; cases same)
  have ended := session_append (uefClose env s).trace ((uefClose env s).event env .finalize)
  rw [uefStreamFinalize]
  split
  · rename_i carry
    refine uefStreamFailed_left called ?_
    rw [Tracked, State.call_trace, ended]
    simp only [Event.active, State.event, carry, if_true]
    exact before
  · rename_i ok
    refine uefNormalized_left called ?_ _
    rw [State.call_trace, ended]
    simp only [Event.active, State.event, ok]
    rfl

theorem uefLegacyNormalize_left (framed : Framed handle base [handle] s) (over_ : session s.trace = false) :
    Left handle base (uefLegacyNormalize env s) := by
  have kept := @Framed.aside env handle base [handle] s .normalize framed rfl
  have still : session (s.call env .normalize).trace = false := by
    rw [session_aside rfl]
    exact over_
  rw [uefLegacyNormalize]
  split
  · exact kept.leave still .invalid
  split
  · exact kept.leave still .tooLarge
  · exact uefNormalized_left kept still _

theorem uefComplete_left (framed : Framed handle base [] s) (tracked : Tracked s) :
    Left handle base (uefComplete env s) := by
  obtain ⟨low, high, stack⟩ := framed.stack
  rw [uefComplete, settleLength_eq stack]
  let found : State :=
    { s with temp := low, jim := selectLength env.ap5 (commitLength env.ap5 s.jim low high) }
  have kept : Framed handle base [] found := ⟨framed.stack, framed.closed, framed.reads⟩
  have still : Tracked found := tracked
  obtain ⟨closed_, same, -⟩ := @Framed.close env handle base found kept
  change Left handle base (if found.frame 2 ||| found.frame 1 = 0 then
      if found.uploadActive ≠ 0 then uefStreamFinalize env found else (uefClose env found).leave .empty
    else if found.uploadActive = 0 then uefLegacyNormalize env (uefClose env found)
    else if (env.answer found.trace .append).carry then
      uefStreamReadFailed env (found.call env .append)
    else uefStreamFinalize env (found.call env .append))
  split
  · split
    · exact uefStreamFinalize_left kept still
    · rename_i inactive
      exact closed_.leave (same.trans (still.inactive (not_not.mp inactive))) .empty
  split
  · rename_i inactive
    exact uefLegacyNormalize_left closed_ (same.trans (still.inactive inactive))
  split
  · exact uefStreamReadFailed_left (kept.aside rfl) (still.aside rfl)
  · exact uefStreamFinalize_left (kept.aside rfl) (still.aside rfl)

end Frames

section Runs

variable {env : Environment} {handle : UInt8} {base : List UInt8} {s : State}

/-- At the head of `uef_read`: with a session the length is below a full window. -/
structure Reading (handle : UInt8) (base : List UInt8) (s : State) : Prop where
  framed : Framed handle base [] s
  tracked : Tracked s
  window : s.uploadActive ≠ 0 → s.frame 2 ≠ 0xff

theorem uefCheckpoint_left (framed : Framed handle base [] s) (tracked : Tracked s)
    (window : s.uploadActive ≠ 0 → s.frame 2 ≠ 0xff) :
    (uefCheckpoint env s).Holds (Reading handle base) (Left handle base) := by
  rw [uefCheckpoint]
  split
  · exact ⟨framed, tracked, window⟩
  · rw [commit_eq]
    let published : State := { s with jim := commitLength env.ap5 s.jim (s.frame 1) (s.frame 2) }
    have kept : Framed handle base [] published := ⟨framed.stack, framed.closed, framed.reads⟩
    have still : Tracked published := tracked
    change Pass.Holds _ _ (if (env.answer published.trace .escape).carry then
      .leave (uefEscape env (published.call env .escape)) else .again (published.call env .escape))
    split
    · exact uefEscape_left (kept.aside rfl) (still.aside rfl)
    · exact ⟨kept.aside rfl, still.aside rfl, window⟩

/-- An OSBGET keeps the frame; only one that fails during an upload counts. -/
theorem Framed.read (framed : Framed handle base [] s) (tracked : Tracked s) (file : UInt8)
    (good : ¬ ((s.event env (.osbget file)).failed ∧ session s.trace = true)) :
    Framed handle base [] (s.call env (.osbget file)) ∧ Tracked (s.call env (.osbget file)) := by
  refine ⟨⟨framed.stack, ?_, ?_⟩, ?_⟩
  · rw [State.call_trace, closed_append, framed.closed]
    rfl
  · rw [State.call_trace, readFailed_append, not_or]
    exact ⟨framed.reads, fun failed => good ⟨failed.2, failed.1⟩⟩
  · rw [Tracked, State.call_trace, session_append]
    exact tracked

/-- A read that failed leaves what session there was. -/
theorem readError_left (framed : Framed handle base [] s) (file : UInt8)
    (failed : (s.event env (.osbget file)).failed) (a : UInt8) :
    Left handle base ((uefClose env { s.call env (.osbget file) with temp := a }).leave (.readError a)) := by
  obtain ⟨low, high, stack⟩ := framed.stack
  have read : session (s.trace ++ [s.event env (.osbget file)]) = session s.trace := by
    rw [session_append]
    rfl
  let after : State := { s.call env (.osbget file) with temp := a }
  have shown : uefClose env after = after.call env (.close handle) := uefClose_eq stack
  change Left handle base ((uefClose env after).leave (.readError a))
  rw [shown]
  have same : session (after.call env (.close handle)).trace = session s.trace := by
    rw [State.call_trace, session_append]
    exact read
  refine ⟨?_, ?_, ?_⟩
  · change closed (after.call env (.close handle)).trace = [handle]
    rw [State.call_trace, closed_append]
    change closed (s.trace ++ [s.event env (.osbget file)]) ++ [handle] = [handle]
    rw [closed_append, framed.closed]
    rfl
  · simp [State.leave, State.pull, State.call, after, stack]
  · change session (after.call env (.close handle)).trace = true ↔
      ReadFailed (after.call env (.close handle)).trace
    have quiet : ¬ (after.event env (.close handle)).failed := by
      rintro ⟨⟨_, is⟩, -⟩
      cases is
    rw [same, State.call_trace, readFailed_append]
    change _ ↔ ReadFailed (s.trace ++ [s.event env (.osbget file)]) ∨ _
    rw [readFailed_append]
    have reads := framed.reads
    constructor
    · exact fun active => .inl (.inr ⟨active, failed⟩)
    · rintro ((old | new) | last)
      · exact absurd old reads
      · exact new.1
      · exact absurd last.2 quiet

/-- The rest of a turn, with the byte in the window. -/
theorem stored_turn (framed : Framed handle base [] s) (tracked : Tracked s)
    (window : s.uploadActive ≠ 0 → s.frame 1 ≠ 0 → s.frame 2 ≠ 0xff) :
    Pass.Holds (Reading handle base) (Left handle base)
      (if s.uploadActive ≠ 0 ∧ s.frame 1 = 0 ∧ s.frame 2 = 0xff then
        if (env.answer (commit env s 0 0xff).trace .append).carry then
          .leave (uefStreamReadFailed env ((commit env s 0 0xff).call env .append))
        else
          uefCheckpoint env ((((commit env s 0 0xff).call env .append).setFrame 1 0).setFrame 2 0)
      else uefCheckpoint env s) := by
  obtain ⟨low, high, stack⟩ := framed.stack
  split
  · rw [commit_eq]
    let published : State := { s with jim := commitLength env.ap5 s.jim 0 0xff }
    have kept : Framed handle base [] published := ⟨framed.stack, framed.closed, framed.reads⟩
    have still : Tracked published := tracked
    split
    · exact uefStreamReadFailed_left (kept.aside rfl) (still.aside rfl)
    · have flushed : Framed handle base [] (published.call env .append) := kept.aside rfl
      refine uefCheckpoint_left ⟨⟨0, 0, ?_⟩, flushed.closed, flushed.reads⟩ (still.aside rfl) fun _ => ?_
      · simp [State.setFrame, State.call, stack]
      · simp [State.setFrame, State.frame, State.call, stack]
  · rename_i partial_
    refine uefCheckpoint_left framed tracked fun active => ?_
    by_cases low_ : s.frame 1 = 0
    · exact fun top => partial_ ⟨active, low_, top⟩
    · exact window active low_

/-- One turn of the loop over the source. -/
theorem Reading.turn (reading : Reading handle base s) :
    (uefRead env s).Holds (Reading handle base) (Left handle base) := by
  obtain ⟨framed, tracked, window⟩ := reading
  obtain ⟨low, high, stack⟩ := framed.stack
  have atHigh : s.frame 2 = high := by simp [State.frame, stack]
  rw [uefRead]
  generalize s.frame 3 = file
  by_cases carry : (env.answer s.trace (.osbget file)).carry = true
  · rw [if_pos carry, uefReadEnd]
    by_cases ended : (env.answer s.trace (.osbget file)).a = 0xfe
    · obtain ⟨kept, still⟩ := @Framed.read env handle base s framed tracked file
        (by rintro ⟨⟨-, -, other⟩, -⟩; exact other ended)
      rw [if_pos ended]
      exact uefComplete_left kept still
    · rw [if_neg ended]
      exact readError_left framed file ⟨⟨file, rfl⟩, carry, ended⟩ _
  · obtain ⟨kept, still⟩ := @Framed.read env handle base s framed tracked file
      (by rintro ⟨⟨-, yes, -⟩, -⟩; exact carry yes)
    rw [if_neg carry]
    let got : State := { s.call env (.osbget file) with temp := (env.answer s.trace (.osbget file)).a }
    have gotStack : got.stack = low :: high :: handle :: base := stack
    have gotKept : Framed handle base [] got := ⟨kept.stack, kept.closed, kept.reads⟩
    have gotStill : Tracked got := still
    have gotHigh : got.frame 2 = high := atHigh
    change Pass.Holds _ _ (if got.frame 2 = 0xff ∧ 0xfe ≤ got.frame 1 then .leave (uefFull env got) else _)
    by_cases full : got.frame 2 = 0xff ∧ 0xfe ≤ got.frame 1
    · rw [if_pos full]
      have inactive : s.uploadActive = 0 := by
        by_contra active
        exact window active (atHigh.trans (gotHigh.symm.trans full.1))
      exact uefFull_left gotKept (gotStill.inactive inactive)
    · rw [if_neg full, storeByte_eq gotStack]
      refine stored_turn ⟨⟨_, _, rfl⟩, gotKept.closed, gotKept.reads⟩ gotStill fun active => ?_
      intro wrapped top
      have here : high ≠ 0xff := fun is => window active (atHigh.trans is)
      change (if low + 1 = 0 then high + 1 else high) = 0xff at top
      rw [if_neg (show ¬ low + 1 = 0 from wrapped)] at top
      exact here top

theorem uefOpened_reading (stack : List UInt8) (temp uploadActive : UInt8) (jim : Jim) :
    Reading handle stack (uefOpened env handle (opened stack temp uploadActive jim)) := by
  let start : State := ⟨0 :: 0 :: handle :: stack, temp, 0, commitLength env.ap5 jim 0 0, [], none⟩
  have framed : Framed handle stack [] start := by
    refine ⟨⟨0, 0, rfl⟩, rfl, ?_⟩
    rintro ⟨before, event, after, split, -⟩
    cases before <;> cases split
  have tracked : Tracked start := ⟨fun active => absurd active Bool.false_ne_true, fun active => absurd rfl active⟩
  have probed := @Framed.aside env handle stack [] start .probe framed rfl
  have still := @Tracked.aside env start .probe tracked rfl
  have empty : (start.call env .probe).frame 2 ≠ 0xff := show (0 : UInt8) ≠ 0xff by decide
  change Reading handle stack (if (env.answer start.trace .probe).carry then start.call env .probe
    else if (env.answer (start.call env .probe).trace .begin).carry then
      (start.call env .probe).call env .begin
    else { (start.call env .probe).call env .begin with uploadActive := 0xff })
  split
  · exact ⟨probed, still, fun _ => empty⟩
  · have begun := @Framed.called env handle stack [] _ probed .begin (by intro _ same; cases same)
    have begins := session_append (start.call env .probe).trace ((start.call env .probe).event env .begin)
    split
    · rename_i carry
      refine ⟨begun, ?_, fun _ => empty⟩
      rw [Tracked, State.call_trace, begins]
      simp only [Event.active, State.event, carry, if_true]
      exact still
    · rename_i ok
      refine ⟨⟨begun.stack, begun.closed, begun.reads⟩, ?_, fun _ => empty⟩
      change session ((start.call env .probe).call env .begin).trace = true ↔ (0xff : UInt8) ≠ 0
      rw [State.call_trace, begins]
      simp [Event.active, State.event, ok]

/-- Every way out of the command leaves the source closed once and the stack as it was, and a
session exactly when a read failed during the upload. -/
theorem uefCmd_left {fuel : Nat} {stack : List UInt8} {temp uploadActive : UInt8} {jim : Jim} :
    Yields (uefCmd env fuel handle (opened stack temp uploadActive jim)) (Left handle stack) := by
  refine repeatPass_yields (Reading handle stack) (Left handle stack) (fun s reading => ?_)
    (uefOpened_reading stack temp uploadActive jim)
  exact yields_some reading.turn

end Runs

/-- Whatever the calls answer, a run that comes to an exit is clean exactly when no read of the
source failed while an upload was active. A `CLOSE` ends the session with whatever carry it
returns, which the command does not look at. -/
theorem uefCmd_clean_iff {env : Environment} {fuel : Nat} {handle : UInt8} {stack : List UInt8}
    {temp uploadActive : UInt8} {jim : Jim} {done : State}
    (returned : uefCmd env fuel handle (opened stack temp uploadActive jim) = some done) :
    Clean handle stack done ↔ ¬ ReadFailed done.trace := by
  obtain ⟨source, base, active⟩ := uefCmd_left done returned
  constructor
  · intro clean failed
    exact absurd (clean.session.symm.trans (active.mpr failed)) (by decide)
  · intro reads
    exact ⟨source, base, Bool.eq_false_iff.mpr fun open_ => reads (active.mp open_)⟩

def blankJim : Jim := ⟨0, 0, 0, fun _ => 0⟩

/-- A Pi that has a stream, and a disc whose first read fails. -/
def badDisc : Environment where
  ap5 := false
  answer _ call :=
    match call with
    | .osbget _ => ⟨true, 0xc7, id⟩
    | _ => ⟨false, 0, id⟩

/-- The session begun before the read stays active. -/
theorem badDisc_not_clean :
    ¬ ∀ (env : Environment) (fuel : Nat) (handle : UInt8) (stack : List UInt8)
      (temp uploadActive : UInt8) (jim : Jim) (done : State),
      uefCmd env fuel handle (opened stack temp uploadActive jim) = some done →
      Clean handle stack done := by
  intro clean
  have left := clean badDisc 1 0x80 [0x34, 0x12] 0 0 blankJim _ rfl
  exact absurd left.session (by decide +kernel)

/-- An empty file: its end at the first read. -/
def emptyDisc : Environment where
  ap5 := true
  answer _ call :=
    match call with
    | .osbget _ => ⟨true, 0xfe, id⟩
    | .finalize => ⟨true, 0, id⟩
    | _ => ⟨false, 0, id⟩

theorem emptyDisc_clean_iff :
    ∃ done, uefCmd emptyDisc 1 0x80 (opened [0x34, 0x12] 0 0 blankJim) = some done ∧
      done.exit = some .streamFailed ∧
      (Clean 0x80 [0x34, 0x12] done ↔ ¬ ReadFailed done.trace) :=
  ⟨_, rfl, by decide +kernel, @uefCmd_clean_iff emptyDisc 1 0x80 [0x34, 0x12] 0 0 blankJim _ rfl⟩

end Pi1MHz.UefImport
