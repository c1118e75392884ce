import Mathlib.Data.List.Basic

/-! The PUT command of the SFTP client (`sftp.asm`, `pi1mhz_secure.asm`, `pi1mhz_net.asm`). The
service answers each dispatch with a result code and, for PUT_WRITE, with how many bytes of the
TX window it took. A dispatch whose busy wait runs out is one that is answered with
`NET_LOCAL_TIMEOUT`. -/
namespace Pi1MHz.Sftp

def netOk : UInt8 := 0x00
def netPending : UInt8 := 0x01
def netLocalTimeout : UInt8 := 0x2a
def netIoMax : Nat := 240

/-- Re-dispatches of a pending command, `net_wait_hi` and `net_wait_lo` together. -/
def netWait : Nat := 0x0bb8

structure Answer where
  code : UInt8
  count : Nat
deriving DecidableEq, Repr

inductive Command
  | putOpen
  | putWrite (window : List UInt8)
  | transferClose

/-- The service: its answers by number of the dispatch, and the bytes of the upload it took. -/
structure Service where
  answers : Nat → Answer
  dispatched : Nat
  taken : List UInt8

/-- What the answer says was taken of the TX window: never more than was asked for. -/
def Command.takes : Command → Answer → List UInt8
  | .putWrite window, answer => if answer.code = netOk then window.take answer.count else []
  | _, _ => []

/-- `net_dispatch`. -/
def netDispatch (s : Service) (command : Command) : Service × Answer :=
  let answer := s.answers s.dispatched
  ({ s with dispatched := s.dispatched + 1, taken := s.taken ++ command.takes answer }, answer)

/-- `net_dispatch_wait`: dispatch again while the answer is `NET_PENDING`. -/
def netDispatchWait (command : Command) : Nat → Service → Service × Answer
  | waits, s =>
    let (next, answer) := netDispatch s command
    if answer.code ≠ netPending then (next, answer)
    else match waits with
      | 0 => (next, ⟨netLocalTimeout, answer.count⟩)
      | waits + 1 => netDispatchWait command waits next

/-- `secure_sftp_put_write`; the third result is `net_length`. -/
def secureSftpPutWrite (s : Service) (chunk : List UInt8) : Service × UInt8 × Nat :=
  let (next, answer) := netDispatchWait (.putWrite chunk) netWait s
  (next, answer.code, min answer.count chunk.length)

inductive Report
  | success
  | failed (code : UInt8)
  | localFileError
deriving DecidableEq, Repr

/-- `put_read`: OSBGET into the transfer buffer until the file ends or the buffer is full. -/
def putRead : Nat → List UInt8 → List UInt8 × List UInt8
  | room + 1, byte :: file =>
    let (chunk, rest) := putRead room file
    (byte :: chunk, rest)
  | _, file => ([], file)

theorem putRead_eq (room : Nat) (file : List UInt8) :
    putRead room file = (file.take room, file.drop room) := by
  induction room generalizing file with
  | zero => cases file <;> simp [putRead]
  | succ room ih =>
    cases file with
    | nil => simp [putRead]
    | cons byte file => simp [putRead, ih]

/-- `transfer_done`. -/
def transferDone (s : Service) : Service × Report :=
  let (next, answer) := netDispatchWait .transferClose netWait s
  (next, if answer.code = netOk then .success else .failed answer.code)

/-- `transfer_error_close_remote`. -/
def transferErrorCloseRemote (s : Service) (code : UInt8) : Service × Report :=
  ((netDispatchWait .transferClose netWait s).1, .failed code)

/-- `put_loop`: the buffer is filled anew after each write, whatever `net_length` says. -/
def putLoop (s : Service) (file : List UInt8) : Service × Report :=
  if _ended : (putRead netIoMax file).1 = [] then transferDone s
  else
    let (next, code, _) := secureSftpPutWrite s (putRead netIoMax file).1
    if code = netOk then putLoop next (putRead netIoMax file).2
    else transferErrorCloseRemote next code
termination_by file.length
decreasing_by
  rw [putRead_eq, List.take_eq_nil_iff, not_or] at _ended
  have := List.length_pos_iff.mpr _ended.2
  simp only [putRead_eq, List.length_drop, netIoMax]
  omega

/-- `sftp_put`, from the OSFIND that opens the local file. -/
def sftpPut (s : Service) (localFile : Option (List UInt8)) : Service × Report :=
  match localFile with
  | none => (s, .localFileError)
  | some file =>
    let (next, answer) := netDispatchWait .putOpen netWait s
    if answer.code = netOk then putLoop next file else (next, .failed answer.code)

section Waiting

/-- The answer that a command started with dispatch `i` comes to, and the next dispatch. -/
def settleFrom (answers : Nat → Answer) : Nat → Nat → Answer × Nat
  | waits, i =>
    if (answers i).code ≠ netPending then (answers i, i + 1)
    else match waits with
      | 0 => (⟨netLocalTimeout, (answers i).count⟩, i + 1)
      | waits + 1 => settleFrom answers waits (i + 1)

/-- The answer to the `k`-th command from dispatch `i` on. -/
def settled (answers : Nat → Answer) : Nat → Nat → Answer
  | i, 0 => (settleFrom answers netWait i).1
  | i, k + 1 => settled answers (settleFrom answers netWait i).2 k

theorem takes_of_ne {command : Command} {answer : Answer} (failed : answer.code ≠ netOk) :
    command.takes answer = [] := by
  cases command with
  | putWrite window => exact if_neg failed
  | _ => rfl

/-- Waiting ends with the settled answer, and only that answer takes anything. -/
theorem netDispatchWait_eq (command : Command) (waits : Nat) (s : Service) :
    netDispatchWait command waits s =
      (let last := settleFrom s.answers waits s.dispatched
      ({ s with dispatched := last.2, taken := s.taken ++ command.takes last.1 }, last.1)) := by
  induction waits generalizing s with
  | zero =>
    by_cases pending : (s.answers s.dispatched).code = netPending
    · have nothing : command.takes (s.answers s.dispatched) = [] := takes_of_ne (by rw [pending]; decide)
      have neither : command.takes ⟨netLocalTimeout, (s.answers s.dispatched).count⟩ = [] :=
        takes_of_ne (show netLocalTimeout ≠ netOk by decide)
      simp [netDispatchWait, settleFrom, netDispatch, pending, nothing, neither]
    · simp [netDispatchWait, settleFrom, netDispatch, pending]
  | succ waits ih =>
    by_cases pending : (s.answers s.dispatched).code = netPending
    · have nothing : command.takes (s.answers s.dispatched) = [] := takes_of_ne (by rw [pending]; decide)
      rw [netDispatchWait, settleFrom]
      simp [netDispatch, pending, nothing, ih]
    · simp [netDispatchWait, settleFrom, netDispatch, pending]

end Waiting

section Loop

/-- How many PUT_WRITE commands a file of this length needs. -/
def pieces (length : Nat) : Nat := (length + (netIoMax - 1)) / netIoMax

/-- Every PUT_WRITE from dispatch `i` on is taken in full. -/
def TakenInFull (answers : Nat → Answer) (i length : Nat) : Prop :=
  ∀ k, netIoMax * k < length → min netIoMax (length - netIoMax * k) ≤ (settled answers i k).count

theorem putLoop_nil (s : Service) : putLoop s [] = transferDone s := by
  rw [putLoop, dif_pos (by rw [putRead_eq]; rfl)]

theorem putLoop_step (s : Service) {file : List UInt8} (nonempty : file ≠ []) :
    putLoop s file =
      (let last := settleFrom s.answers netWait s.dispatched
      let next : Service := { s with
        dispatched := last.2
        taken := s.taken ++ (Command.putWrite (file.take netIoMax)).takes last.1 }
      if last.1.code = netOk then putLoop next (file.drop netIoMax)
      else transferErrorCloseRemote next last.1.code) := by
  have more : ¬(putRead netIoMax file).1 = [] := by
    rw [putRead_eq, List.take_eq_nil_iff, not_or]
    exact ⟨by decide, nonempty⟩
  rw [putLoop, dif_neg more, secureSftpPutWrite, netDispatchWait_eq, putRead_eq]

theorem transferDone_eq (s : Service) :
    (transferDone s).1.taken = s.taken ∧
      ((transferDone s).2 = .success ↔ (settled s.answers s.dispatched 0).code = netOk) := by
  rw [transferDone, netDispatchWait_eq]
  refine ⟨by simp [Command.takes], ?_⟩
  dsimp only
  rw [settled]
  split
  · simp_all
  · simp_all

theorem pieces_of_pos {length : Nat} (nonempty : 0 < length) :
    pieces length = pieces (length - netIoMax) + 1 := by
  simp only [pieces, netIoMax]
  omega

/-- Induction on the pieces of a file. -/
theorem piecewise {motive : List UInt8 → Prop} (nil : motive [])
    (piece : ∀ file, file ≠ [] → motive (file.drop netIoMax) → motive file) (file : List UInt8) :
    motive file := by
  induction length : file.length using Nat.strongRecOn generalizing file with
  | ind n ih =>
    by_cases empty : file = []
    · rw [empty]
      exact nil
    · have nonempty := List.length_pos_iff.mpr empty
      apply piece file empty
      exact ih _ (by simp only [List.length_drop, netIoMax]; omega) _ rfl

theorem forall_le_succ {holds : Nat → Prop} {last : Nat} :
    (∀ k ≤ last + 1, holds k) ↔ holds 0 ∧ ∀ k ≤ last, holds (k + 1) := by
  simp only [← Nat.lt_succ_iff]
  exact Nat.forall_lt_succ_left

/-- Success is a matter of the result codes of the writes and of the close. -/
theorem putLoop_success (s : Service) (file : List UInt8) :
    (putLoop s file).2 = .success ↔
      ∀ k ≤ pieces file.length, (settled s.answers s.dispatched k).code = netOk := by
  induction file using piecewise generalizing s with
  | nil =>
    rw [putLoop_nil, (transferDone_eq s).2]
    simp [pieces, netIoMax]
  | piece file some ih =>
    rw [putLoop_step s some, pieces_of_pos (List.length_pos_iff.mpr some), ← List.length_drop]
    dsimp only
    by_cases good : (settleFrom s.answers netWait s.dispatched).1.code = netOk
    · rw [if_pos good, ih, forall_le_succ]
      exact (and_iff_right good).symm
    · rw [if_neg good]
      constructor
      · nofun
      · intro all
        exact absurd (all 0 (by omega)) good

/-- The service never takes more than the file. -/
theorem putLoop_taken_le (s : Service) (file : List UInt8) :
    (putLoop s file).1.taken.length ≤ s.taken.length + file.length := by
  induction file using piecewise generalizing s with
  | nil => simp [putLoop_nil, (transferDone_eq s).1]
  | piece file some ih =>
    have offered : ((Command.putWrite (file.take netIoMax)).takes
        (settleFrom s.answers netWait s.dispatched).1).length ≤ (file.take netIoMax).length := by
      simp only [Command.takes]
      split
      · exact List.length_take_le' _ _
      · simp
    have split := congrArg List.length (List.take_append_drop netIoMax file)
    rw [List.length_append] at split
    rw [putLoop_step s some]
    dsimp only
    split
    · refine Nat.le_trans (ih _) ?_
      simp only [List.length_append]
      omega
    · rw [transferErrorCloseRemote, netDispatchWait_eq]
      simp only [List.length_append, Command.takes, List.append_nil]
      simp only [Command.takes] at offered
      omega

/-- A successful loop has handed over the whole file exactly when no write was taken in part. -/
theorem putLoop_taken_iff (s : Service) (file : List UInt8) (success : (putLoop s file).2 = .success) :
    (putLoop s file).1.taken = s.taken ++ file ↔ TakenInFull s.answers s.dispatched file.length := by
  induction file using piecewise generalizing s with
  | nil => simp [putLoop_nil, (transferDone_eq s).1, TakenInFull]
  | piece file some ih =>
    have pos := List.length_pos_iff.mpr some
    rw [putLoop_step s some] at success ⊢
    dsimp only at success ⊢
    by_cases good : (settleFrom s.answers netWait s.dispatched).1.code = netOk
    · rw [if_pos good] at success ⊢
      have takes : (Command.putWrite (file.take netIoMax)).takes
          (settleFrom s.answers netWait s.dispatched).1 =
          (file.take netIoMax).take (settled s.answers s.dispatched 0).count := if_pos good
      rw [takes] at success ⊢
      by_cases full : min netIoMax file.length ≤ (settled s.answers s.dispatched 0).count
      · have whole : (file.take netIoMax).take (settled s.answers s.dispatched 0).count =
            file.take netIoMax := List.take_of_length_le (by simpa using full)
        rw [whole] at success ⊢
        have rest := ih _ success
        dsimp only at rest
        rw [List.append_assoc, List.take_append_drop, List.length_drop] at rest
        rw [rest]
        constructor
        · intro later k bound
          cases k with
          | zero => simpa using full
          | succ k =>
            have here := later k (by rw [Nat.mul_succ] at bound; omega)
            rw [Nat.mul_succ, Nat.add_comm _ netIoMax, ← Nat.sub_sub]
            exact here
        · intro all k bound
          have here := all (k + 1) (by rw [Nat.mul_succ]; omega)
          rw [Nat.mul_succ, Nat.add_comm _ netIoMax, ← Nat.sub_sub] at here
          exact here
      · constructor
        · intro same
          have bound := putLoop_taken_le { s with
            dispatched := (settleFrom s.answers netWait s.dispatched).2
            taken := s.taken ++ (file.take netIoMax).take (settled s.answers s.dispatched 0).count }
            (file.drop netIoMax)
          rw [same] at bound
          simp only [List.length_append, List.length_take, List.length_drop] at bound
          omega
        · intro all
          exact absurd (by simpa using all 0 (by omega)) full
    · rw [if_neg good, transferErrorCloseRemote] at success
      cases success

end Loop

/-- PUT reports success when the open, every PUT_WRITE and the close are answered with NET_OK. -/
def AllAnswered (answers : Nat → Answer) (length : Nat) : Prop :=
  ∀ k ≤ pieces length + 1, (settled answers 0 k).code = netOk

/-- A PUT that reports success has handed over the file, unless the service took only part of
some chunk: the rest of that chunk is never sent. -/
theorem put_faithful_iff (answers : Nat → Answer) (file : List UInt8) :
    let done := sftpPut ⟨answers, 0, []⟩ (some file)
    (done.2 = .success → done.1.taken = file) ↔
      (AllAnswered answers file.length →
        TakenInFull answers (settleFrom answers netWait 0).2 file.length) := by
  intro done
  have opened : done = if (settleFrom answers netWait 0).1.code = netOk then
      putLoop ⟨answers, (settleFrom answers netWait 0).2, []⟩ file
      else (⟨answers, (settleFrom answers netWait 0).2, []⟩, .failed (settleFrom answers netWait 0).1.code) := by
    simp only [done, sftpPut, netDispatchWait_eq]
    rfl
  by_cases good : (settleFrom answers netWait 0).1.code = netOk
  · rw [if_pos good] at opened
    have success := putLoop_success ⟨answers, (settleFrom answers netWait 0).2, []⟩ file
    have taken := putLoop_taken_iff ⟨answers, (settleFrom answers netWait 0).2, []⟩ file
    rw [← opened] at success taken
    have answered : done.2 = .success ↔ AllAnswered answers file.length := by
      rw [success, AllAnswered, forall_le_succ]
      exact (and_iff_right good).symm
    rw [← answered]
    constructor
    · intro faithful reported
      exact (taken reported).mp (faithful reported)
    · intro full reported
      exact (taken reported).mpr (full reported)
  · rw [if_neg good] at opened
    constructor
    · intro _ all
      exact absurd (all 0 (by omega)) good
    · intro _ reported
      rw [opened] at reported
      cases reported

/-- A service that takes one byte of every write. -/
def sparing : Nat → Answer := fun _ => ⟨netOk, 1⟩

theorem settleFrom_sparing (waits i : Nat) : settleFrom sparing waits i = (⟨netOk, 1⟩, i + 1) := by
  cases waits <;> simp [settleFrom, sparing, netOk, netPending]

/-- Two bytes go up as one, and PUT reports success. -/
theorem short_write_drops_byte :
    let done := sftpPut ⟨sparing, 0, []⟩ (some [0x41, 0x42])
    (done.2 = .success ∧ done.1.taken = [0x41]) ∧
      ¬(done.2 = .success → done.1.taken = [0x41, 0x42]) := by
  have closed := transferDone_eq ⟨sparing, 2, [0x41]⟩
  rw [settled, settleFrom_sparing] at closed
  have looped : sftpPut ⟨sparing, 0, []⟩ (some [0x41, 0x42]) = transferDone ⟨sparing, 2, [0x41]⟩ := by
    rw [← putLoop_nil]
    simp [sftpPut, netDispatchWait_eq, putLoop_step, settleFrom_sparing, Command.takes, netIoMax]
  rw [looped]
  refine ⟨⟨closed.2.mpr rfl, closed.1⟩, fun faithful => ?_⟩
  have same := closed.1.symm.trans (faithful (closed.2.mpr rfl))
  simp at same

end Pi1MHz.Sftp
