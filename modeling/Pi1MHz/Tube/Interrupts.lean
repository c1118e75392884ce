import Pi1MHz.Foundation.PageStack
import Pi1MHz.Tube.Timing

/-! Subroutines and interrupts nest: whatever the calls, returns, pushes and pulls of a run, each
finds again what it left on the stack. -/
namespace Pi1MHz.VrEmu6502
open PageStack

variable {σ : Type}

/-- A board whose stack page is plain memory. -/
structure Paged (b : Board σ) where
  cells : σ → UInt8 → UInt8
  reads : ∀ s sp, (b.read s (stackAddress sp)).2 = cells s sp
  readKeeps : ∀ s addr, cells (b.read s addr).1 = cells s
  writes : ∀ s sp val, cells (b.write s (stackAddress sp) val) = Function.update (cells s) sp val
  clearKeeps : ∀ s, cells (b.clearNmi s) = cells s

section Tube
open Ap5Tube

theorem stackAddress_toNat (sp : UInt8) : (stackAddress sp).toNat = 256 + sp.toNat := by
  have small := sp.toNat_lt
  have joined : 0x100 ||| sp.toNat = (1 <<< 8) + sp.toNat :=
    (Nat.shiftLeft_add_eq_or_of_lt small 1).symm
  rw [stackAddress, UInt16.toNat_or, UInt8.toNat_toUInt16]
  exact joined

theorem stackAddress_memory (sp : UInt8) : ¬isUlaAddress (stackAddress sp) = true := by
  intro mapped
  have same : stackAddress sp &&& 0xfff8 = 0xfef8 := by simpa [isUlaAddress] using mapped
  have read := congrArg UInt16.toNat same
  have below : (stackAddress sp &&& 0xfff8).toNat ≤ (stackAddress sp).toNat := by
    rw [UInt16.toNat_and]
    exact Nat.and_le_left
  have small := sp.toNat_lt
  rw [stackAddress_toNat, read] at below
  simp only [UInt16.reduceToNat] at below
  omega

/-- The parasite's stack page is RAM, whatever is mapped elsewhere. -/
def tubePaged : Paged tubeBoard where
  cells := fun t sp => t.parasiteRam (stackAddress sp).toNat
  reads := by
    intro t sp
    have small := sp.toNat_lt
    have low : ¬(t.parasiteRomMapped = true ∧ 0xf000 ≤ stackAddress sp) := by
      rintro ⟨-, high⟩
      rw [UInt16.le_iff_toNat_le, stackAddress_toNat] at high
      simp only [UInt16.reduceToNat] at high
      omega
    change (parasiteRead t (stackAddress sp)).2 = _
    rw [parasiteRead, if_neg (stackAddress_memory sp), if_neg low]
  readKeeps := by
    intro t addr
    change (fun sp => (parasiteRead t addr).1.parasiteRam (stackAddress sp).toNat) = _
    rw [parasiteRead]
    split
    · rfl
    · split <;> rfl
  writes := by
    intro t sp val
    funext place
    change (parasiteWrite t (stackAddress sp) val).parasiteRam (stackAddress place).toNat = _
    rw [parasiteWrite, if_neg (stackAddress_memory sp)]
    simp only [Function.update_apply, stackAddress_toNat, Nat.add_left_cancel_iff, UInt8.toNat_inj]
  clearKeeps := fun _ => rfl

end Tube

variable {b : Board σ} (p : Paged b)

/-- What the stack holds, the last pushed first. -/
def Stacked (x : σ × Cpu) (values : List UInt8) : Prop := Holds (p.cells x.1) x.2.sp values

theorem Stacked.nil (x : σ × Cpu) : Stacked p x [] := trivial

/-- The next instruction of the program. -/
def instruct (b : Board σ) (x : σ × Cpu) : σ × Cpu := (execute x.2).run b.toDevice x.1

section Stack

variable {p} {s : σ} {c : Cpu} {values : List UInt8}

theorem Stacked.reads {after : σ} (stacked : Stacked p (s, c) values) {c' : Cpu} (sp : c'.sp = c.sp)
    (same : p.cells after = p.cells s) : Stacked p (after, c') values := by
  rw [Stacked, same, sp]
  exact stacked

end Stack

section Ticks

def tick (b : Board σ) (x : σ × Cpu) : σ × Cpu := vrEmu6502Tick b x.2 x.1

/-- The next tick fetches this opcode: the processor is between instructions and takes no
interrupt. -/
structure Fetches (b : Board σ) (x : σ × Cpu) (opcode : UInt8) : Prop where
  running : x.2.stp = false ∧ x.2.wai = false
  between : x.2.step = 0
  noNmi : ¬(heeds x.2 = true ∧ b.nmiPin x.1 = true)
  noIrq : heeds x.2 = true → b.intPin x.1 = true → testBit x.2 flagI = true
  opcode : next b x = opcode

section CountDown

variable (c : Cpu)

@[simp] theorem countDown_sp : (countDown c).sp = c.sp := by rw [countDown]; split <;> rfl
@[simp] theorem countDown_pc : (countDown c).pc = c.pc := by rw [countDown]; split <;> rfl
@[simp] theorem countDown_ac : (countDown c).ac = c.ac := by rw [countDown]; split <;> rfl
@[simp] theorem countDown_ix : (countDown c).ix = c.ix := by rw [countDown]; split <;> rfl
@[simp] theorem countDown_iy : (countDown c).iy = c.iy := by rw [countDown]; split <;> rfl
@[simp] theorem countDown_flags : (countDown c).flags = c.flags := by rw [countDown]; split <;> rfl

end CountDown

instance (b : Board σ) (x : σ × Cpu) (opcode : UInt8) : Decidable (Fetches b x opcode) :=
  decidable_of_iff ((x.2.stp = false ∧ x.2.wai = false) ∧ x.2.step = 0 ∧
      ¬(heeds x.2 = true ∧ b.nmiPin x.1 = true) ∧
      (heeds x.2 = true → b.intPin x.1 = true → testBit x.2 flagI = true) ∧ next b x = opcode)
    ⟨fun ⟨running, between, noNmi, noIrq, opcode⟩ => ⟨running, between, noNmi, noIrq, opcode⟩,
      fun ⟨running, between, noNmi, noIrq, opcode⟩ => ⟨running, between, noNmi, noIrq, opcode⟩⟩

/-- The instruction that a tick performs, and one tick of it gone. -/
theorem Fetches.tick_eq {x : σ × Cpu} {opcode : UInt8} (fetches : Fetches b x opcode) :
    tick b x = ((instruct b x).1, countDown (instruct b x).2) := by
  obtain ⟨s, c⟩ := x
  obtain ⟨⟨running, awake⟩, between, noNmi, noIrq, -⟩ := fetches
  dsimp only at running awake between noNmi noIrq
  have fetched : fetch b c s = ((instruct b (s, c)).1, countDown (instruct b (s, c)).2) := by
    rw [fetch, if_neg (by simp_all)]
    rfl
  have awakened : { c with wai := false } = c := by rw [← awake]
  rw [VrEmu6502.tick, vrEmu6502Tick, if_neg (by simp [running]), if_neg (by simp [between]),
    if_neg noNmi]
  split
  case isTrue requested =>
    dsimp only
    rw [awakened, if_pos (noIrq requested.1 requested.2), fetched]
  case isFalse => exact fetched

/-- An interrupt goes through one of the vectors, with the stack page as it was. -/
theorem Interrupted.tick_eq {x : σ × Cpu} (interrupted : Interrupted b x) :
    ∃ s vec, p.cells s = p.cells x.1 ∧
      tick b x = (beginInterrupt { x.2 with wai := false } vec).run b.toDevice s := by
  obtain ⟨s, c⟩ := x
  obtain ⟨running, between, heeded, requested⟩ := interrupted
  dsimp only at running between heeded requested
  rw [VrEmu6502.tick, vrEmu6502Tick, if_neg (by simp [running]), if_neg (by simp [between])]
  by_cases nmi : b.nmiPin s = true
  · rw [if_pos ⟨heeded, nmi⟩]
    exact ⟨b.clearNmi s, nmiVec, p.clearKeeps s, rfl⟩
  · obtain ⟨irq, enabled⟩ := requested.resolve_left nmi
    rw [if_neg (fun both => nmi both.2), if_pos ⟨heeded, irq⟩]
    have open_ : ¬testBit { c with wai := false } flagI = true := by
      simpa [testBit] using enabled
    dsimp only
    rw [if_neg open_]
    exact ⟨s, intVec, rfl, rfl⟩

end Ticks

section Instructions

variable {p} {x : σ × Cpu} {values : List UInt8}

/-- The processor when it has fetched the opcode. -/
def fetchedOpcode (c : Cpu) (opcode : UInt8) : Cpu :=
  { c with pc := c.pc + 1, currentOpcode := opcode, step := (opcodes opcode).cycles }

theorem instruct_next (b : Board σ) (x : σ × Cpu) :
    instruct b x = ((opcodes (next b x)).instruction.perform (opcodes (next b x)).addrMode
      (fetchedOpcode x.2 (next b x))).run b.toDevice (b.read x.1 x.2.pc).1 := rfl

/-- What an instruction leaves as it is, besides memory. -/
structure SameRegisters (c c' : Cpu) : Prop where
  ac : c'.ac = c.ac
  ix : c'.ix = c.ix
  iy : c'.iy = c.iy

theorem jsr_run (b : Board σ) (s : σ) (c : Cpu) : ∃ addr,
    let operand := (b.read (b.read s c.pc).1 (c.pc + 1)).1
    let first := b.write operand (stackAddress c.sp) ((c.pc + 2 - 1) >>> 8).toUInt8
    (jsr .ab c).run b.toDevice s =
      (b.write first (stackAddress (c.sp - 1)) ((c.pc + 2 - 1) &&& 0xff).toUInt8,
        { c with pc := addr, sp := c.sp - 1 - 1 }) :=
  ⟨_, rfl⟩

/-- What is pushed to come back to a place, the low byte on top. -/
def returnBytes (pc : UInt16) : List UInt8 := [(pc &&& 0xff).toUInt8, (pc >>> 8).toUInt8]

theorem jsr_spec (call : next b x = 0x20) (stacked : Stacked p x values)
    (room : values.length + 2 ≤ 256) :
    Stacked p (instruct b x) (returnBytes (x.2.pc + 2) ++ values) ∧
      (instruct b x).2.sp = x.2.sp - 1 - 1 := by
  obtain ⟨addr, ran⟩ := jsr_run b (b.read x.1 x.2.pc).1 (fetchedOpcode x.2 0x20)
  rw [instruct_next, call, show opcodes 0x20 = ⟨.jsr, .ab, 6⟩ by decide]
  dsimp only [Instruction.perform]
  rw [ran]
  have back : x.2.pc + 1 + 2 - 1 = x.2.pc + 2 := by
    rw [UInt16.add_assoc, UInt16.add_comm 1, ← UInt16.add_assoc, UInt16.add_sub_cancel]
  refine ⟨?_, rfl⟩
  rw [Stacked, p.writes, p.writes, p.readKeeps, p.readKeeps, p.readKeeps, fetchedOpcode, back]
  have first := Holds.push stacked (by omega) ((x.2.pc + 2) >>> 8).toUInt8
  exact first.push (by simp; omega) _

theorem rts_run (b : Board σ) (s : σ) (c : Cpu) :
    let low := b.read s (stackAddress (c.sp + 1))
    let high := b.read low.1 (stackAddress (c.sp + 1 + 1))
    (rts c).run b.toDevice s =
      (high.1, { c with pc := word low.2 high.2 + 1, sp := c.sp + 1 + 1 }) := rfl

theorem rts_spec {low high : UInt8} (returns : next b x = 0x60)
    (stacked : Stacked p x (low :: high :: values)) :
    Stacked p (instruct b x) values ∧ (instruct b x).2.sp = x.2.sp + 1 + 1 ∧
      (instruct b x).2.pc = word low high + 1 ∧ SameRegisters x.2 (instruct b x).2 ∧
      (instruct b x).2.flags = x.2.flags := by
  obtain ⟨lowHeld, highHeld, below⟩ := stacked
  rw [instruct_next, returns, show opcodes 0x60 = ⟨.rts, .null, 6⟩ by decide]
  dsimp only [Instruction.perform]
  rw [rts_run]
  refine ⟨?_, rfl, ?_, ⟨rfl, rfl, rfl⟩, rfl⟩
  · rw [Stacked, p.readKeeps, p.readKeeps, p.readKeeps]
    exact below
  · dsimp only [fetchedOpcode]
    simp only [p.reads, p.readKeeps, lowHeld, highHeld]

theorem rti_run (b : Board σ) (s : σ) (c : Cpu) :
    let flags := b.read s (stackAddress (c.sp + 1))
    let low := b.read flags.1 (stackAddress (c.sp + 1 + 1))
    let high := b.read low.1 (stackAddress (c.sp + 1 + 1 + 1))
    (rti c).run b.toDevice s =
      (high.1, { c with
        pc := word low.2 high.2, sp := c.sp + 1 + 1 + 1, flags := flags.2 ||| flagU ||| flagB }) :=
  rfl

theorem rti_spec {flags low high : UInt8} (returns : next b x = 0x40)
    (stacked : Stacked p x (flags :: low :: high :: values)) :
    Stacked p (instruct b x) values ∧ (instruct b x).2.sp = x.2.sp + 1 + 1 + 1 ∧
      (instruct b x).2.pc = word low high ∧ SameRegisters x.2 (instruct b x).2 ∧
      (instruct b x).2.flags = flags ||| flagU ||| flagB := by
  obtain ⟨flagsHeld, lowHeld, highHeld, below⟩ := stacked
  rw [instruct_next, returns, show opcodes 0x40 = ⟨.rti, .null, 6⟩ by decide]
  dsimp only [Instruction.perform]
  rw [rti_run]
  refine ⟨?_, rfl, ?_, ⟨rfl, rfl, rfl⟩, ?_⟩
  · rw [Stacked, p.readKeeps, p.readKeeps, p.readKeeps, p.readKeeps]
    exact below
  · dsimp only [fetchedOpcode]
    simp only [p.reads, p.readKeeps, lowHeld, highHeld]
  · dsimp only [fetchedOpcode]
    rw [p.reads, p.readKeeps, flagsHeld]

theorem beginInterrupt_run (b : Board σ) (s : σ) (c : Cpu) (vec : UInt16) : ∃ pc,
    let high := b.write s (stackAddress c.sp) (c.pc >>> 8).toUInt8
    let low := b.write high (stackAddress (c.sp - 1)) (c.pc &&& 0xff).toUInt8
    let pushed := b.write low (stackAddress (c.sp - 1 - 1)) ((c.flags ||| flagU) &&& ~~~flagB)
    (beginInterrupt c vec).run b.toDevice s =
      ((b.read (b.read pushed vec).1 (vec + 1)).1,
        { c with pc, sp := c.sp - 1 - 1 - 1, flags := c.flags ||| flagI, wai := false }) :=
  ⟨_, rfl⟩

theorem begin_spec {s : σ} {c : Cpu} (stacked : Stacked p (s, c) values)
    (room : values.length + 3 ≤ 256) (vec : UInt16) :
    let begun := (beginInterrupt c vec).run b.toDevice s
    Stacked p begun (((c.flags ||| flagU) &&& ~~~flagB) :: (returnBytes c.pc ++ values)) ∧
      begun.2.sp = c.sp - 1 - 1 - 1 ∧ SameRegisters c begun.2 := by
  obtain ⟨pc, ran⟩ := beginInterrupt_run b s c vec
  have low := Holds.push stacked (by omega) (c.pc >>> 8).toUInt8
  have high := low.push (by simp; omega) (c.pc &&& 0xff).toUInt8
  have flags := high.push (by simp; omega) ((c.flags ||| flagU) &&& ~~~flagB)
  rw [ran]
  refine ⟨?_, rfl, ⟨rfl, rfl, rfl⟩⟩
  rw [Stacked, p.readKeeps, p.readKeeps, p.writes, p.writes, p.writes]
  exact flags

theorem brk_run (b : Board σ) (s : σ) (c : Cpu) : ∃ pc,
    let high := b.write s (stackAddress c.sp) ((c.pc + 1) >>> 8).toUInt8
    let low := b.write high (stackAddress (c.sp - 1)) ((c.pc + 1) &&& 0xff).toUInt8
    let pushed := b.write low (stackAddress (c.sp - 1 - 1)) (c.flags ||| flagU ||| flagB)
    (brk c).run b.toDevice s =
      ((b.read (b.read pushed 0xfffe).1 (0xfffe + 1)).1,
        { c with pc, sp := c.sp - 1 - 1 - 1, flags := (c.flags ||| flagI) &&& ~~~flagD }) :=
  ⟨_, rfl⟩

theorem brk_spec (software : next b x = 0x00) (stacked : Stacked p x values)
    (room : values.length + 3 ≤ 256) :
    Stacked p (instruct b x)
        ((x.2.flags ||| flagU ||| flagB) :: (returnBytes (x.2.pc + 2) ++ values)) ∧
      (instruct b x).2.sp = x.2.sp - 1 - 1 - 1 ∧ SameRegisters x.2 (instruct b x).2 := by
  obtain ⟨pc, ran⟩ := brk_run b (b.read x.1 x.2.pc).1 (fetchedOpcode x.2 0x00)
  rw [instruct_next, software, show opcodes 0x00 = ⟨.brk, .null, 7⟩ by decide]
  dsimp only [Instruction.perform]
  rw [ran]
  have back : x.2.pc + 1 + 1 = x.2.pc + 2 := by rw [UInt16.add_assoc]; rfl
  have low := Holds.push stacked (by omega) ((x.2.pc + 2) >>> 8).toUInt8
  have high := low.push (by simp; omega) ((x.2.pc + 2) &&& 0xff).toUInt8
  have flags := high.push (by simp; omega) (x.2.flags ||| flagU ||| flagB)
  refine ⟨?_, rfl, ⟨rfl, rfl, rfl⟩⟩
  rw [Stacked, p.readKeeps, p.readKeeps, p.writes, p.writes, p.writes, p.readKeeps, fetchedOpcode,
    back]
  exact flags

/-- What can be pushed and pulled by an instruction of its own. -/
inductive Register
  | ac | ix | iy | flags
deriving DecidableEq, Repr

namespace Register

def push : Register → UInt8
  | ac => 0x48
  | ix => 0xda
  | iy => 0x5a
  | flags => 0x08

def pull : Register → UInt8
  | ac => 0x68
  | ix => 0xfa
  | iy => 0x7a
  | flags => 0x28

/-- What goes on the stack. -/
def pushed (c : Cpu) : Register → UInt8
  | ac => c.ac
  | ix => c.ix
  | iy => c.iy
  | flags => c.flags ||| flagB ||| flagU

/-- The register has taken the value from the stack. -/
def Pulled (c : Cpu) (value : UInt8) : Register → Prop
  | ac => c.ac = value
  | ix => c.ix = value
  | iy => c.iy = value
  | flags => c.flags = value ||| flagU ||| flagB

end Register

theorem push_spec (register : Register) (pushes : next b x = register.push)
    (stacked : Stacked p x values) (room : values.length + 1 ≤ 256) :
    Stacked p (instruct b x) (register.pushed x.2 :: values) ∧
      (instruct b x).2.sp = x.2.sp - 1 := by
  have grown := Holds.push stacked (by omega) (register.pushed x.2)
  have ran : instruct b x = (b.write (b.read x.1 x.2.pc).1 (stackAddress x.2.sp)
      (register.pushed x.2), { fetchedOpcode x.2 (next b x) with sp := x.2.sp - 1 }) := by
    rw [instruct_next, pushes]
    cases register with
    | ac => rw [Register.push, show opcodes 0x48 = ⟨.pha, .null, 3⟩ by decide]; rfl
    | ix => rw [Register.push, show opcodes 0xda = ⟨.phx, .null, 3⟩ by decide]; rfl
    | iy => rw [Register.push, show opcodes 0x5a = ⟨.phy, .null, 3⟩ by decide]; rfl
    | flags => rw [Register.push, show opcodes 0x08 = ⟨.php, .null, 3⟩ by decide]; rfl
  rw [ran]
  refine ⟨?_, rfl⟩
  rw [Stacked, p.writes, p.readKeeps]
  exact grown

theorem pull_spec (register : Register) (pulls : next b x = register.pull) {value : UInt8}
    (stacked : Stacked p x (value :: values)) :
    Stacked p (instruct b x) values ∧ (instruct b x).2.sp = x.2.sp + 1 ∧
      register.Pulled (instruct b x).2 value := by
  obtain ⟨held, below⟩ := stacked
  have top := b.read (b.read x.1 x.2.pc).1 (stackAddress (x.2.sp + 1))
  have ran : ∃ c, instruct b x = ((b.read (b.read x.1 x.2.pc).1 (stackAddress (x.2.sp + 1))).1, c) ∧
      c.sp = x.2.sp + 1 ∧
      register.Pulled c (b.read (b.read x.1 x.2.pc).1 (stackAddress (x.2.sp + 1))).2 := by
    rw [instruct_next, pulls]
    cases register with
    | ac =>
      rw [Register.pull, show opcodes 0x68 = ⟨.pla, .null, 4⟩ by decide]
      exact ⟨_, rfl, rfl, rfl⟩
    | ix =>
      rw [Register.pull, show opcodes 0xfa = ⟨.plx, .null, 4⟩ by decide]
      exact ⟨_, rfl, rfl, rfl⟩
    | iy =>
      rw [Register.pull, show opcodes 0x7a = ⟨.ply, .null, 4⟩ by decide]
      exact ⟨_, rfl, rfl, rfl⟩
    | flags =>
      rw [Register.pull, show opcodes 0x28 = ⟨.plp, .null, 4⟩ by decide]
      exact ⟨_, rfl, rfl, rfl⟩
  obtain ⟨c, same, sp, pulled⟩ := ran
  rw [p.reads, p.readKeeps, held] at pulled
  rw [same]
  refine ⟨?_, sp, pulled⟩
  rw [Stacked, p.readKeeps, p.readKeeps, sp]
  exact below

end Instructions

section Nesting

/-- A run of ticks that leaves the stack as it found it, taking up no more than `depth` bytes of
it on the way. -/
inductive Nested (p : Paged b) : Nat → σ × Cpu → σ × Cpu → Prop
  | quiet {depth : Nat} {x y : σ × Cpu} : y.2.sp = x.2.sp → p.cells y.1 = p.cells x.1 →
      Nested p depth x y
  | andThen {depth : Nat} {x y z : σ × Cpu} : Nested p depth x y → Nested p depth y z →
      Nested p depth x z
  | saved {depth : Nat} {x y : σ × Cpu} (push pull : Register) : Fetches b x push.push →
      Nested p depth (tick b x) y → Fetches b y pull.pull → Nested p (depth + 1) x (tick b y)
  | call {depth : Nat} {x y : σ × Cpu} : Fetches b x 0x20 → Nested p depth (tick b x) y →
      Fetches b y 0x60 → Nested p (depth + 2) x (tick b y)
  | interrupt {depth : Nat} {x y : σ × Cpu} : Interrupted b x → Nested p depth (tick b x) y →
      Fetches b y 0x40 → Nested p (depth + 3) x (tick b y)
  | software {depth : Nat} {x y : σ × Cpu} : Fetches b x 0x00 → Nested p depth (tick b x) y →
      Fetches b y 0x40 → Nested p (depth + 3) x (tick b y)

variable {p} {x y : σ × Cpu} {depth : Nat} {values : List UInt8}

theorem Fetches.stacked {opcode : UInt8} (fetches : Fetches b x opcode)
    (stacked : Stacked p (instruct b x) values) : Stacked p (tick b x) values := by
  rw [fetches.tick_eq, Stacked, countDown_sp]
  exact stacked

theorem Fetches.sp {opcode : UInt8} (fetches : Fetches b x opcode) :
    (tick b x).2.sp = (instruct b x).2.sp := by
  rw [fetches.tick_eq]
  exact countDown_sp _

theorem Interrupted.pushes (interrupted : Interrupted b x) (stacked : Stacked p x values)
    (room : values.length + 3 ≤ 256) :
    Stacked p (tick b x)
        (((x.2.flags ||| flagU) &&& ~~~flagB) :: (returnBytes x.2.pc ++ values)) ∧
      (tick b x).2.sp = x.2.sp - 1 - 1 - 1 := by
  obtain ⟨s, vec, same, ticked⟩ := interrupted.tick_eq p
  have here : Stacked p (s, { x.2 with wai := false }) values :=
    Stacked.reads (s := x.1) (c := x.2) stacked rfl same
  rw [ticked]
  obtain ⟨begun, sp, -⟩ := begin_spec here room vec
  exact ⟨begun, sp⟩

/-- The run finds the stack again, however much was on it. -/
theorem Nested.keeps (nested : Nested p depth x y) (room : values.length + depth ≤ 256)
    (stacked : Stacked p x values) : Stacked p y values ∧ y.2.sp = x.2.sp := by
  induction nested generalizing values with
  | @quiet _ x y sp cells => exact ⟨stacked.reads sp cells, sp⟩
  | andThen _ _ first second =>
    obtain ⟨between, sp⟩ := first room stacked
    obtain ⟨last, sp'⟩ := second room between
    exact ⟨last, sp'.trans sp⟩
  | saved push pull pushes _ pulls ih =>
    obtain ⟨grown, down⟩ := push_spec push pushes.opcode stacked (by omega)
    obtain ⟨kept, same⟩ := ih (by simp; omega) (pushes.stacked grown)
    obtain ⟨last, up, -⟩ := pull_spec pull pulls.opcode kept
    refine ⟨pulls.stacked last, ?_⟩
    rw [pulls.sp, up, same, pushes.sp, down, UInt8.sub_add_cancel]
  | call calls _ returns ih =>
    obtain ⟨grown, down⟩ := jsr_spec calls.opcode stacked (by omega)
    obtain ⟨kept, same⟩ := ih (by simp [returnBytes]; omega) (calls.stacked grown)
    obtain ⟨last, up, -⟩ := rts_spec returns.opcode kept
    refine ⟨returns.stacked last, ?_⟩
    rw [returns.sp, up, same, calls.sp, down, UInt8.sub_add_cancel, UInt8.sub_add_cancel]
  | interrupt interrupted _ returns ih =>
    obtain ⟨grown, down⟩ := interrupted.pushes stacked (by omega)
    obtain ⟨kept, same⟩ := ih (by simp [returnBytes]; omega) grown
    obtain ⟨last, up, -⟩ := rti_spec returns.opcode kept
    refine ⟨returns.stacked last, ?_⟩
    rw [returns.sp, up, same, down, UInt8.sub_add_cancel, UInt8.sub_add_cancel,
      UInt8.sub_add_cancel]
  | software breaks _ returns ih =>
    obtain ⟨grown, down, -⟩ := brk_spec breaks.opcode stacked (by omega)
    obtain ⟨kept, same⟩ := ih (by simp [returnBytes]; omega) (breaks.stacked grown)
    obtain ⟨last, up, -⟩ := rti_spec returns.opcode kept
    refine ⟨returns.stacked last, ?_⟩
    rw [returns.sp, up, same, breaks.sp, down, UInt8.sub_add_cancel, UInt8.sub_add_cancel,
      UInt8.sub_add_cancel]

theorem word_returnBytes (pc : UInt16) :
    word (pc &&& 0xff).toUInt8 (pc >>> 8).toUInt8 = pc := by
  have low : (pc &&& 0xff).toUInt8.toNat = pc.toNat % 256 := by
    rw [UInt16.toNat_toUInt8, UInt16.toNat_and]
    have cut := Nat.and_two_pow_sub_one_eq_mod pc.toNat 8
    rw [show (0xff : UInt16).toNat = 2 ^ 8 - 1 from rfl, cut]
    omega
  have high : (pc >>> 8).toUInt8.toNat = pc.toNat / 256 := by
    have small := pc.toNat_lt
    rw [UInt16.toNat_toUInt8, UInt16.toNat_shiftRight]
    have cut : pc.toNat >>> 8 = pc.toNat / 256 := Nat.shiftRight_eq_div_pow _ 8
    rw [show (8 : UInt16).toNat % 16 = 8 from rfl, cut]
    omega
  have small := pc.toNat_lt
  have shifted : ((pc >>> 8).toUInt8.toUInt16 <<< 8).toNat = (pc.toNat / 256) <<< 8 := by
    rw [UInt16.toNat_shiftLeft, UInt8.toNat_toUInt16, high, Nat.shiftLeft_eq, Nat.shiftLeft_eq]
    have bound : pc.toNat / 256 * 2 ^ 8 < 2 ^ 16 := by omega
    exact Nat.mod_eq_of_lt bound
  rw [← UInt16.toNat_inj, word, UInt16.toNat_or, UInt8.toNat_toUInt16, low, shifted, Nat.or_comm,
    ← Nat.shiftLeft_add_eq_or_of_lt (Nat.mod_lt _ (by decide)), Nat.shiftLeft_eq]
  omega

theorem interrupted_flags (flags : UInt8) :
    ((flags ||| flagU) &&& ~~~flagB) ||| flagU ||| flagB = flags ||| flagU ||| flagB := by
  have bits : ∀ y : BitVec 8, ((y ||| 0x20#8) &&& ~~~0x10#8) ||| 0x20#8 ||| 0x10#8 =
      y ||| 0x20#8 ||| 0x10#8 := by decide +kernel
  exact UInt8.eq_of_toBitVec_eq (bits flags.toBitVec)

/-- What a return brings back: the stack and the program counter, with the registers as they were
just before it. -/
structure Returned (p : Paged b) (x y z : σ × Cpu) (depth : Nat) (pc : UInt16) (flags : UInt8) :
    Prop where
  pc : z.2.pc = pc
  flags : z.2.flags = flags
  sp : z.2.sp = x.2.sp
  registers : SameRegisters y.2 z.2
  stacked : ∀ values : List UInt8, values.length + depth ≤ 256 → Stacked p x values →
    Stacked p z values

theorem SameRegisters.countDown {c c' : Cpu} (same : SameRegisters c c') :
    SameRegisters c (countDown c') :=
  ⟨(countDown_ac c').trans same.ac, (countDown_ix c').trans same.ix, (countDown_iy c').trans same.iy⟩

/-- A subroutine, whatever it calls, pushes, pulls and is interrupted by, comes back behind the
`JSR`. -/
theorem call_returns (calls : Fetches b x 0x20) (nested : Nested p depth (tick b x) y)
    (returns : Fetches b y 0x60) (room : depth + 2 ≤ 256) :
    Returned p x y (tick b y) (depth + 2) (x.2.pc + 3) y.2.flags := by
  obtain ⟨grown, -⟩ := jsr_spec calls.opcode (Stacked.nil p x) (by simp)
  obtain ⟨kept, -⟩ := nested.keeps (by simp [returnBytes]; omega) (calls.stacked grown)
  obtain ⟨-, -, pc, same, flags⟩ := rts_spec returns.opcode kept
  have whole : Nested p (depth + 2) x (tick b y) := .call calls nested returns
  constructor
  · rw [returns.tick_eq, countDown_pc, pc, word_returnBytes, UInt16.add_assoc]
    rfl
  · rw [returns.tick_eq, countDown_flags, flags]
  · exact (whole.keeps (by simpa using room) (Stacked.nil p x)).2
  · rw [returns.tick_eq]
    exact same.countDown
  · exact fun values room stacked => (whole.keeps room stacked).1

/-- An interrupt, whatever its handler does likewise, resumes the program where it was, with its
flags. -/
theorem interrupt_returns (interrupted : Interrupted b x) (nested : Nested p depth (tick b x) y)
    (returns : Fetches b y 0x40) (room : depth + 3 ≤ 256) :
    Returned p x y (tick b y) (depth + 3) x.2.pc (x.2.flags ||| flagU ||| flagB) := by
  obtain ⟨grown, -⟩ := interrupted.pushes (Stacked.nil p x) (by simp)
  obtain ⟨kept, -⟩ := nested.keeps (by simp [returnBytes]; omega) grown
  obtain ⟨-, -, pc, same, flags⟩ := rti_spec returns.opcode kept
  have whole : Nested p (depth + 3) x (tick b y) := .interrupt interrupted nested returns
  constructor
  · rw [returns.tick_eq, countDown_pc, pc, word_returnBytes]
  · rw [returns.tick_eq, countDown_flags, flags, interrupted_flags]
  · exact (whole.keeps (by simpa using room) (Stacked.nil p x)).2
  · rw [returns.tick_eq]
    exact same.countDown
  · exact fun values room stacked => (whole.keeps room stacked).1

/-- The ticks that are left of the instruction under way. -/
def finish (b : Board σ) (x : σ × Cpu) : σ × Cpu := ticks b x.2.step.toNat x

theorem finish_nested (running : x.2.stp = false) : Nested p depth x (finish b x) := by
  rw [finish, ticks_count running le_rfl]
  exact .quiet rfl rfl

/-- Whole instructions, or an interrupt taken for one. -/
def instructions (b : Board σ) : Nat → σ × Cpu → σ × Cpu
  | 0, x => x
  | n + 1, x => finish b (tick b (instructions b n x))

theorem Nested.next (nested : Nested p depth x (tick b y)) (running : (tick b y).2.stp = false) :
    Nested p depth x (finish b (tick b y)) :=
  nested.andThen (finish_nested running)

section Example
open Ap5Tube

/-- `JSR &3000`, which keeps A over a `JSR` to an `RTS` at `&3100`. The NMI goes to `&4000`, which
keeps A over a `JSR &4100` up to an `RTI`; there is a `BRK` before the `RTS`, and it goes to the same
`RTI`. -/
def routine : List (Nat × List UInt8) :=
  [(0x2000, [0x20, 0x00, 0x30]), (0x3000, [0x48, 0x20, 0x00, 0x31, 0x68, 0x60]), (0x3100, [0x60]),
    (0x4000, [0x48, 0x20, 0x00, 0x41, 0x68, 0x40]), (0x4100, [0x00, 0x00, 0x60]),
    (0xfffa, [0x00, 0x40, 0x00, 0x00, 0x05, 0x40])]

def assembled (address : Nat) : UInt8 :=
  (routine.findSome? fun (place, bytes) =>
    if place ≤ address then bytes[address - place]? else none).getD 0

def calling : Tube × Cpu :=
  ({ inMemory with parasiteRam := assembled }, { poweredOn with pc := 0x2000, ac := 7 })

/-- The routine up to the `RTS` at `&3100`. -/
def called (n : Nat) : Tube × Cpu := instructions tubeBoard n calling

/-- The NMI before that, and what follows. -/
def interrupted (n : Nat) : Tube × Cpu :=
  instructions tubeBoard n ({ (called 3).1 with parasiteNmi := true }, (called 3).2)

/-- The handler of the NMI, up to its `RTI`. -/
theorem handler_nested : Nested tubePaged 6 (tick tubeBoard (interrupted 0)) (interrupted 7) := by
  have software : Nested tubePaged 3 (interrupted 3) (tick tubeBoard (interrupted 4)) :=
    .software (by decide +kernel) (finish_nested (by decide +kernel)) (by decide +kernel)
  have inner : Nested tubePaged 3 (tick tubeBoard (interrupted 2)) (interrupted 5) :=
    (finish_nested (by decide +kernel)).andThen (software.next (by decide +kernel))
  have call : Nested tubePaged 5 (interrupted 2) (tick tubeBoard (interrupted 5)) :=
    .call (by decide +kernel) inner (by decide +kernel)
  have kept : Nested tubePaged 5 (tick tubeBoard (interrupted 1)) (interrupted 6) :=
    (finish_nested (by decide +kernel)).andThen (call.next (by decide +kernel))
  have saved : Nested tubePaged 6 (interrupted 1) (tick tubeBoard (interrupted 6)) :=
    .saved .ac .ac (by decide +kernel) kept (by decide +kernel)
  exact (finish_nested (by decide +kernel)).andThen (saved.next (by decide +kernel))

theorem nmi_taken : Interrupted tubeBoard (interrupted 0) :=
  ⟨by decide +kernel, by decide +kernel, by decide +kernel, .inl rfl⟩

theorem interrupt_returns_at :
    Returned tubePaged (interrupted 0) (interrupted 7) (tick tubeBoard (interrupted 7)) 9 0x3100
      0x30 :=
  interrupt_returns nmi_taken handler_nested (by decide +kernel) (by decide)

/-- The routine, up to its `RTS`. -/
theorem routine_nested : Nested tubePaged 12 (tick tubeBoard calling) (interrupted 10) := by
  have raised : Nested tubePaged 9 (called 3) (interrupted 0) := .quiet rfl rfl
  have nmi : Nested tubePaged 9 (interrupted 0) (tick tubeBoard (interrupted 7)) :=
    .interrupt nmi_taken handler_nested (by decide +kernel)
  have inner : Nested tubePaged 9 (tick tubeBoard (called 2)) (interrupted 8) :=
    (finish_nested (by decide +kernel)).andThen (raised.andThen (nmi.next (by decide +kernel)))
  have call : Nested tubePaged 11 (called 2) (tick tubeBoard (interrupted 8)) :=
    .call (by decide +kernel) inner (by decide +kernel)
  have kept : Nested tubePaged 11 (tick tubeBoard (called 1)) (interrupted 9) :=
    (finish_nested (by decide +kernel)).andThen (call.next (by decide +kernel))
  have saved : Nested tubePaged 12 (called 1) (tick tubeBoard (interrupted 9)) :=
    .saved .ac .ac (by decide +kernel) kept (by decide +kernel)
  exact (finish_nested (by decide +kernel)).andThen (saved.next (by decide +kernel))

theorem call_returns_behind :
    Returned tubePaged calling (interrupted 10) (tick tubeBoard (interrupted 10)) 14 0x2003
      (interrupted 10).2.flags :=
  call_returns (by decide +kernel) routine_nested (by decide +kernel) (by decide)

end Example

end Nesting

end Pi1MHz.VrEmu6502
