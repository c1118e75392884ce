import Pi1MHz.Tube.Parasite

/-! How long the processor's instructions take, and that it never stops. -/
namespace Pi1MHz.VrEmu6502

/-- `B` and `U` do not exist and read as ones. -/
def Marked (c : Cpu) : Prop := c.flags &&& 0x30 = 0x30

/-- The processor with other registers and flags, but where it was in its instruction. -/
structure Still (c c' : Cpu) : Prop where
  stp : c'.stp = c.stp
  wai : c'.wai = c.wai
  currentOpcode : c'.currentOpcode = c.currentOpcode
  step : c'.step = c.step
  marked : Marked c → Marked c'

/-- What performing an instruction leaves, besides that: at most `slack` cycles more. -/
structure Performed (slack : Nat) (c c' : Cpu) : Prop where
  stp : c'.stp = c.stp
  wai : c'.wai = c.wai
  currentOpcode : c'.currentOpcode = c.currentOpcode
  step : ∃ extra ≤ slack, c'.step = c.step + UInt8.ofNat extra
  marked : Marked c → Marked c'

section Still

variable {c c' : Cpu}

theorem marked_or {flags : UInt8} (marked : flags &&& 0x30 = 0x30) (other : UInt8) :
    (flags ||| other) &&& 0x30 = 0x30 := by
  rw [or_and, marked, UInt8.or_comm]
  have bits : ∀ y : BitVec 8, y &&& 0x30#8 ||| 0x30#8 = 0x30#8 := by decide +kernel
  exact UInt8.eq_of_toBitVec_eq (bits other.toBitVec)

theorem marked_and {flags mask : UInt8} (marked : flags &&& 0x30 = 0x30)
    (inside : mask &&& 0x30 = 0x30) : (flags &&& mask) &&& 0x30 = 0x30 := by
  rw [UInt8.and_assoc, inside, marked]

theorem marked_bits (flags : UInt8) : (flags ||| flagU ||| flagB) &&& 0x30 = 0x30 := by
  rw [UInt8.or_assoc, UInt8.or_comm]
  exact marked_or rfl flags

theorem Still.refl (c : Cpu) : Still c c := ⟨rfl, rfl, rfl, rfl, id⟩

/-- Registers are no part of it. -/
theorem Still.put (still : Still c c') (pc : UInt16) (ac ix iy sp : UInt8) :
    Still c { c' with pc, ac, ix, iy, sp } := { still with }

theorem Still.reflag (still : Still c c') {flags : UInt8}
    (marked : c'.flags &&& 0x30 = 0x30 → flags &&& 0x30 = 0x30) : Still c { c' with flags } :=
  { still with marked := fun before => marked (still.marked before) }

theorem Still.setOrClearBit (still : Still c c') {flag : UInt8} (real : ~~~flag &&& 0x30 = 0x30)
    (set : Bool) : Still c (setOrClearBit c' flag set) :=
  still.reflag fun marked => marked_or (marked_and marked real) _

theorem Still.clearBit (still : Still c c') {flag : UInt8} (real : ~~~flag &&& 0x30 = 0x30) :
    Still c (clearBit c' flag) :=
  still.reflag fun marked => marked_and marked real

theorem Still.setBit (still : Still c c') (flag : UInt8) : Still c (setBit c' flag) :=
  still.reflag fun marked => marked_or marked flag

theorem Still.setNZ (still : Still c c') (val : UInt8) : Still c (setNZ c' val) :=
  still.reflag fun marked => marked_or (marked_or (marked_and marked rfl) _) _

end Still

section Performed

variable {slack more : Nat} {c c' c'' : Cpu}

theorem Still.performed (still : Still c c') : Performed 0 c c' :=
  ⟨still.stp, still.wai, still.currentOpcode,
    ⟨0, Nat.le_refl 0, still.step.trans (UInt8.add_zero _).symm⟩, still.marked⟩

theorem Addressed.performed (addressed : Addressed slack c c') : Performed slack c c' := by
  obtain ⟨pc, extra, small, rfl⟩ := addressed.moved
  exact ⟨rfl, rfl, rfl, ⟨extra, small, rfl⟩, id⟩

theorem Performed.trans (first : Performed slack c c') (second : Performed more c' c'') :
    Performed (slack + more) c c'' := by
  obtain ⟨extra, small, step⟩ := first.step
  obtain ⟨again, less, step'⟩ := second.step
  refine ⟨second.stp.trans first.stp, second.wai.trans first.wai,
    second.currentOpcode.trans first.currentOpcode, ⟨extra + again, Nat.add_le_add small less, ?_⟩,
    second.marked ∘ first.marked⟩
  rw [step', step, UInt8.ofNat_add, UInt8.add_assoc]

theorem Performed.still (performed : Performed slack c c') (still : Still c' c'') :
    Performed slack c c'' := performed.trans still.performed

/-- One cycle more, as a branch taken and the decimal mode have it. -/
theorem Performed.later (c : Cpu) : Performed 1 c { c with step := c.step + 1 } :=
  ⟨rfl, rfl, rfl, ⟨1, Nat.le_refl 1, rfl⟩, id⟩

theorem Performed.crossed (c : Cpu) (addr1 addr2 : UInt16) :
    Performed 1 c (pageBoundary c addr1 addr2) := by
  refine ⟨rfl, rfl, rfl, ⟨if (addr1 ^^^ addr2) &&& 0xff00 ≠ 0 then 1 else 0, ?_, ?_⟩, id⟩
  · split <;> decide
  · rw [pageBoundary]
    split <;> rfl

theorem Performed.mono (performed : Performed slack c c') (wider : slack ≤ more) :
    Performed more c c' := by
  obtain ⟨extra, small, step⟩ := performed.step
  exact { performed with step := ⟨extra, Nat.le_trans small wider, step⟩ }

end Performed

section Instructions

/-- The cycles that an instruction may take besides its opcode's and its addressing mode's. -/
def Instruction.slack : Instruction → Nat
  | adc | sbc => 1
  | bcc | bcs | beq | bmi | bne | bpl | bra | bvc | bvs => 2
  | _ => 0

variable {n : Nat} {mode : AddrMode} {c : Cpu}

theorem through_addr {rest : Cpu × UInt16 → Action Cpu}
    (each : ∀ c' addr, (rest (c', addr)).Always (Performed n c')) :
    (mode.addr c >>= rest).Always (Performed (mode.slack + n) c) :=
  (addr_addressed mode c).bind fun r addressed =>
    (each r.1 r.2).imp fun _ later => addressed.performed.trans later

theorem through_operand {rest : Cpu × UInt8 → Action Cpu}
    (each : ∀ c' value, (rest (c', value)).Always (Performed n c')) :
    (operand mode c >>= rest).Always (Performed (mode.slack + n) c) :=
  (operand_addressed mode c).bind fun r addressed =>
    (each r.1 r.2).imp fun _ later => addressed.performed.trans later

theorem addTo_still (opr : UInt8) : Still c (addTo c opr) :=
  .setNZ (.put (.setOrClearBit (.setOrClearBit (.refl c) rfl _) rfl _) _ _ _ _ _) _

theorem addDecimal_performed (value : UInt8) : Performed 1 c (addDecimal c value) :=
  (Performed.later c).still
    (.setOrClearBit (.setNZ (.put (.setOrClearBit (.refl _) rfl _) _ _ _ _ _) _) rfl _)

theorem subDecimal_performed (value : UInt8) : Performed 1 c (subDecimal c value) :=
  (Performed.later c).still
    (.put (.setOrClearBit (.setNZ (.setOrClearBit (.refl _) rfl _) _) rfl _) _ _ _ _ _)

theorem adc_performed : (adc mode c).Always (Performed (mode.slack + 1) c) := by
  rw [adc]
  split
  · exact through_operand fun c' value => addDecimal_performed value
  · exact through_operand fun c' value => (addTo_still value).performed.mono (Nat.zero_le 1)

theorem sbc_performed : (sbc mode c).Always (Performed (mode.slack + 1) c) := by
  rw [sbc]
  split
  · exact through_operand fun c' value => subDecimal_performed value
  · exact through_operand fun c' value => (addTo_still _).performed.mono (Nat.zero_le 1)

theorem combine_performed (f : UInt8 → UInt8 → UInt8) :
    (combine mode c f).Always (Performed mode.slack c) :=
  through_operand (n := 0) fun c' _ =>
    (Still.setNZ (.put (.refl c') _ _ _ _ _) _).performed

theorem modify_performed {f : Cpu → UInt8 → Cpu × UInt8} (still : ∀ c value, Still c (f c value).1) :
    (modify mode c f).Always (Performed mode.slack c) := by
  rw [modify]
  split
  case isTrue null =>
    have done : Performed 0 c (setNZ { (f c c.ac).1 with ac := (f c c.ac).2 } (f c c.ac).2) :=
      (Still.setNZ (.put (still c c.ac) _ _ _ _ _) _).performed
    rw [null]
    exact done
  case isFalse =>
    exact through_addr (n := 0) fun c' _ value => (Still.setNZ (still c' value) _).performed

theorem shifted_still (mask : UInt8) (f : Bool → UInt8 → UInt8) (c : Cpu) (value : UInt8) :
    Still c (shifted mask f c value).1 := .setOrClearBit (.refl c) rfl _

theorem bra_performed : (bra mode c).Always (Performed (mode.slack + 2) c) := by
  have crossed : (bra mode c).Always (Performed (mode.slack + 1) { c with step := c.step + 1 }) :=
    through_addr fun c' addr =>
      (Performed.crossed c' c'.pc addr).still (.put (.refl _) _ _ _ _ _)
  exact crossed.imp fun _ done => ((Performed.later c).trans done).mono (by omega)

theorem branchIf_performed (taken : Bool) :
    (branchIf mode c taken).Always (Performed (mode.slack + 2) c) := by
  rw [branchIf]
  split
  · exact bra_performed
  · exact through_addr fun c' _ => (Still.refl c').performed.mono (Nat.zero_le 2)

theorem bit_performed : (bit mode c).Always (Performed mode.slack c) := by
  refine through_operand (n := 0) fun c' value => Still.performed ?_
  refine .setOrClearBit ?_ rfl _
  split
  · exact .refl c'
  · exact .setOrClearBit (.setOrClearBit (.refl c') rfl _) rfl _

theorem compareWith_performed (register : Cpu → UInt8) :
    (compareWith mode c register).Always (Performed mode.slack c) :=
  through_operand (n := 0) fun c' _ =>
    (Still.setNZ (.setOrClearBit (.refl c') rfl _) _).performed

theorem load_performed {put : Cpu → UInt8 → Cpu} (still : ∀ c value, Still c (put c value)) :
    (load mode c put).Always (Performed mode.slack c) :=
  through_operand (n := 0) fun c' value => (Still.setNZ (still c' value) _).performed

theorem store_performed (value : UInt8) : (store mode c value).Always (Performed mode.slack c) :=
  through_addr (n := 0) fun c' _ => (Still.refl c').performed

theorem testAnd_performed (f : UInt8 → UInt8 → UInt8) :
    (testAnd mode c f).Always (Performed mode.slack c) :=
  through_addr (n := 0) fun c' _ _ => (Still.setOrClearBit (.refl c') rfl _).performed

theorem jmp_performed : (jmp mode c).Always (Performed mode.slack c) :=
  through_addr (n := 0) fun c' _ => (Still.put (.refl c') _ _ _ _ _).performed

theorem jsr_performed : (jsr mode c).Always (Performed mode.slack c) :=
  through_addr (n := 0) fun c' _ => (Still.put (.refl c') _ _ _ _ _).performed

theorem nop_performed : (nop mode c).Always (Performed mode.slack c) := by
  rw [nop]
  split
  case isTrue null =>
    rw [null]
    exact (Still.refl c).performed
  case isFalse => exact through_addr (n := 0) fun c' _ => (Still.refl c').performed

theorem ldd_performed : (ldd mode c).Always (Performed mode.slack c) := by
  rw [ldd]
  split
  case isTrue null =>
    rw [null]
    exact (Still.refl c).performed
  case isFalse => exact through_operand (n := 0) fun c' _ => (Still.refl c').performed

theorem pull_performed {put : Cpu → UInt8 → Cpu}
    (still : ∀ value, Still c (put { c with sp := c.sp + 1 } value)) :
    (pull c put).Always (Performed 0 c) :=
  fun value => (Still.setNZ (still value) value).performed

theorem push_performed (val : UInt8) : (push c val).Always (Performed 0 c) :=
  (Still.put (.refl c) _ _ _ _ _).performed

theorem plp_performed : (plp c).Always (Performed 0 c) :=
  fun flags => (Still.reflag (.put (.refl c) _ _ _ _ _) fun _ => marked_bits flags).performed

theorem rti_performed : (rti c).Always (Performed 0 c) :=
  fun flags _ _ => (Still.put (.reflag (.put (.refl c) _ _ _ _ _) fun _ => marked_bits flags)
    _ _ _ _ _).performed

theorem rts_performed : (rts c).Always (Performed 0 c) :=
  fun _ _ => (Still.put (.refl c) _ _ _ _ _).performed

theorem brk_performed : (brk c).Always (Performed 0 c) :=
  fun _ _ => (Still.put (.clearBit (.setBit (.put (.refl c) _ _ _ _ _) flagI) rfl)
    _ _ _ _ _).performed

/-- Any instruction, whatever it reads. -/
theorem perform_performed (instruction : Instruction) (mode : AddrMode) (c : Cpu) :
    (instruction.perform mode c).Always (Performed (mode.slack + instruction.slack) c) := by
  have implied : ∀ {p : Action Cpu}, p.Always (Performed 0 c) → p.Always (Performed (mode.slack + 0) c) :=
    fun always => always.imp fun _ done => done.mono (Nat.zero_le _)
  have registers : ∀ (pc : UInt16) (ac ix iy sp val : UInt8),
      Performed 0 c (setNZ { c with pc, ac, ix, iy, sp } val) :=
    fun pc ac ix iy sp val => (Still.setNZ (.put (.refl c) pc ac ix iy sp) val).performed
  cases instruction with
  | adc => exact adc_performed
  | sbc => exact sbc_performed
  | and | eor | ora => exact combine_performed _
  | asl | lsr | rol | ror =>
    simp only [Instruction.perform, VrEmu6502.asl, VrEmu6502.lsr, VrEmu6502.rol, VrEmu6502.ror]
    exact modify_performed (shifted_still _ _)
  | inc | dec =>
    simp only [Instruction.perform, VrEmu6502.inc, VrEmu6502.dec]
    exact modify_performed fun c _ => .refl c
  | bcc | bcs | beq | bmi | bne | bpl | bvc | bvs => exact branchIf_performed _
  | bra => exact bra_performed
  | bit => exact bit_performed
  | brk => exact implied brk_performed
  | clc | cld | cli | clv => exact implied (Still.clearBit (.refl c) rfl).performed
  | sec | sed | sei => exact implied (Still.setBit (.refl c) _).performed
  | cmp | cpx | cpy => exact compareWith_performed _
  | dex | dey | inx | iny | tax | tay | tsx | txa | tya => exact implied (registers _ _ _ _ _ _)
  | txs => exact implied (Still.put (.refl c) _ _ _ _ _).performed
  | jmp => exact jmp_performed
  | jsr => exact jsr_performed
  | lda | ldx | ldy =>
    simp only [Instruction.perform, VrEmu6502.lda, VrEmu6502.ldx, VrEmu6502.ldy]
    exact load_performed fun c _ => .put (.refl c) _ _ _ _ _
  | ldd => exact ldd_performed
  | nop => exact nop_performed
  | pha | php | phx | phy => exact implied (push_performed _)
  | pla | plx | ply =>
    simp only [Instruction.perform, VrEmu6502.pla, VrEmu6502.plx, VrEmu6502.ply]
    exact implied (pull_performed fun _ => .put (.refl c) _ _ _ _ _)
  | plp => exact implied plp_performed
  | rti => exact implied rti_performed
  | rts => exact implied rts_performed
  | sta | stx | sty | stz => exact store_performed _
  | trb | tsb =>
    simp only [Instruction.perform, VrEmu6502.trb, VrEmu6502.tsb]
    exact testAnd_performed _

end Instructions

section Table

/-- The fewest ticks that an opcode takes. -/
def fewest (opcode : UInt8) : Nat := (opcodes opcode).cycles.toNat

/-- The most. -/
def most (opcode : UInt8) : Nat :=
  fewest opcode + ((opcodes opcode).addrMode.slack + (opcodes opcode).instruction.slack)

theorem opcodes_mem (opcode : UInt8) : opcodes opcode ∈ std65c02 := List.get_mem _ _

theorem std65c02_cycles : ∀ entry ∈ std65c02, 1 ≤ entry.cycles.toNat ∧
    entry.cycles.toNat + (entry.addrMode.slack + entry.instruction.slack) ≤ 8 := by
  decide +kernel

theorem fewest_pos (opcode : UInt8) : 1 ≤ fewest opcode := (std65c02_cycles _ (opcodes_mem opcode)).1

theorem most_le (opcode : UInt8) : most opcode ≤ 8 := (std65c02_cycles _ (opcodes_mem opcode)).2

end Table

section Ticks

/-- What every processor that was once reset is: not stopped, not waiting, and with fewer than
eight ticks to go. -/
structure Sound (c : Cpu) : Prop where
  stp : c.stp = false
  wai : c.wai = false
  step : c.step.toNat ≤ 7
  marked : Marked c

/-- A fetched instruction, before its first tick is counted. -/
structure Fetched (c : Cpu) : Prop where
  stp : c.stp = false
  wai : c.wai = false
  atLeast : fewest c.currentOpcode ≤ c.step.toNat
  atMost : c.step.toNat ≤ most c.currentOpcode
  marked : Marked c

theorem begin_sound {c : Cpu} (sound : Sound c) (vec : UInt16) :
    (beginInterrupt { c with wai := false } vec).Always fun c' => Sound c' ∧ c'.step = c.step :=
  fun _ _ => ⟨⟨sound.stp, rfl, sound.step, marked_or sound.marked flagI⟩, rfl⟩

variable {σ : Type} (b : Board σ)

/-- The processor after the opcode that comes next, before a tick of it is counted. -/
theorem execute_fetched {c : Cpu} (sound : Sound c) (s : σ) :
    Fetched ((execute c).run b.toDevice s).2 ∧
      ((execute c).run b.toDevice s).2.currentOpcode = next b (s, c) := by
  obtain ⟨stp, wai, -, marked⟩ := sound
  have performed := (perform_performed (opcodes (next b (s, c))).instruction
    (opcodes (next b (s, c))).addrMode
    { c with pc := c.pc + 1, currentOpcode := next b (s, c)
             step := (opcodes (next b (s, c))).cycles }).run b.toDevice (b.read s c.pc).1
  change Performed _ _ ((execute c).run b.toDevice s).2 at performed
  generalize ((execute c).run b.toDevice s).2 = c' at performed ⊢
  obtain ⟨extra, small, step⟩ := performed.step
  have bound := most_le (next b (s, c))
  rw [most] at bound
  have total : c'.step.toNat = fewest (next b (s, c)) + extra := by
    rw [step, UInt8.toNat_add, UInt8.toNat_ofNat']
    dsimp only
    rw [← fewest]
    omega
  have current : c'.currentOpcode = next b (s, c) := performed.currentOpcode
  refine ⟨⟨performed.stp.trans stp, performed.wai.trans wai, ?_, ?_, performed.marked marked⟩,
    current⟩
  · rw [current, total]
    omega
  · rw [current, total, most]
    omega

theorem fetch_fetched {c : Cpu} (sound : Sound c) (s : σ) :
    ∃ c', Fetched c' ∧ c'.currentOpcode = next b (s, c) ∧
      (fetch b c s).2 = { c' with step := c'.step - 1 } := by
  obtain ⟨fetched, current⟩ := execute_fetched b sound s
  have going : ((execute c).run b.toDevice s).2.step ≠ 0 := by
    intro zero
    have least := fetched.atLeast
    rw [zero] at least
    have positive := fewest_pos ((execute c).run b.toDevice s).2.currentOpcode
    simp only [UInt8.toNat_zero] at least
    omega
  refine ⟨_, fetched, current, ?_⟩
  rw [fetch, if_neg (by simp [sound.wai])]
  simp only [countDown, if_pos going]

/-- What a tick can be: one of an instruction's, an interrupt taken, or an opcode fetched. -/
theorem tick_cases {c : Cpu} (sound : Sound c) (s : σ) :
    (c.step ≠ 0 ∧ vrEmu6502Tick b c s = (s, { c with step := c.step - 1 })) ∨
      (Interrupted b (s, c) ∧ (vrEmu6502Tick b c s).2.step = 0 ∧
        Sound (vrEmu6502Tick b c s).2) ∨
      (c.step = 0 ∧ ¬Interrupted b (s, c) ∧ ∃ c', Fetched c' ∧
        c'.currentOpcode = next b (s, c) ∧
        (vrEmu6502Tick b c s).2 = { c' with step := c'.step - 1 }) := by
  by_cases between : c.step = 0
  case neg =>
    refine .inl ⟨between, ?_⟩
    rw [vrEmu6502Tick, if_neg (by simp [sound.stp]), if_pos between, countDown, if_pos between]
  case pos =>
    have begun : ∀ vec s, Sound ((beginInterrupt { c with wai := false } vec).run b.toDevice s).2 ∧
        ((beginInterrupt { c with wai := false } vec).run b.toDevice s).2.step = 0 := by
      intro vec s
      obtain ⟨sound', step⟩ := (begin_sound sound vec).run b.toDevice s
      exact ⟨sound', step.trans between⟩
    right
    rw [vrEmu6502Tick, if_neg (by simp [sound.stp]), if_neg (by simp [between])]
    split
    case isTrue nmi =>
      have taken : Interrupted b (s, c) := ⟨sound.stp, between, nmi.1, .inl nmi.2⟩
      exact .inl ⟨taken, (begun _ _).2, (begun _ _).1⟩
    case isFalse noNmi =>
      split
      case isTrue irq =>
        dsimp only
        split
        case isTrue masked =>
          have awake : Sound { c with wai := false } :=
            ⟨sound.stp, rfl, sound.step, sound.marked⟩
          refine .inr ⟨between, fun taken => ?_, fetch_fetched b awake s⟩
          rcases taken.requested with nmi | ⟨-, allowed⟩
          · exact noNmi ⟨taken.heeded, nmi⟩
          · exact Bool.false_ne_true (allowed.symm.trans masked)
        case isFalse unmasked =>
          have taken : Interrupted b (s, c) :=
            ⟨sound.stp, between, irq.1, .inr ⟨irq.2, Bool.eq_false_of_not_eq_true unmasked⟩⟩
          exact .inl ⟨taken, (begun _ _).2, (begun _ _).1⟩
      case isFalse noIrq =>
        refine .inr ⟨between, fun taken => ?_, fetch_fetched b sound s⟩
        rcases taken.requested with nmi | ⟨irq, -⟩
        · exact noNmi ⟨taken.heeded, nmi⟩
        · exact noIrq ⟨taken.heeded, irq⟩

theorem Fetched.sound {c : Cpu} (fetched : Fetched c) : Sound { c with step := c.step - 1 } := by
  have least := fetched.atLeast
  have most := fetched.atMost
  have positive := fewest_pos c.currentOpcode
  have bound := most_le c.currentOpcode
  refine ⟨fetched.stp, fetched.wai, ?_, fetched.marked⟩
  dsimp only
  rw [UInt8.toNat_sub]
  simp only [UInt8.toNat_one]
  omega

theorem tick_sound {c : Cpu} (sound : Sound c) (s : σ) : Sound (vrEmu6502Tick b c s).2 := by
  rcases tick_cases b sound s with ⟨going, ticked⟩ | ⟨-, -, sound'⟩ |
    ⟨-, -, c', fetched, -, ticked⟩
  · rw [ticked]
    refine ⟨sound.stp, sound.wai, ?_, sound.marked⟩
    have bound := sound.step
    have positive : c.step.toNat ≠ 0 := fun zero => going (UInt8.toNat_inj.mp zero)
    dsimp only
    rw [UInt8.toNat_sub]
    simp only [UInt8.toNat_one]
    omega
  · exact sound'
  · rw [ticked]
    exact fetched.sound

theorem restart_sound (c : Cpu) : (restart c).Always Sound :=
  fun _ _ => ⟨rfl, rfl, Nat.zero_le 7, marked_bits _⟩

/-- A processor that was reset and has been ticked since, on a board where anything else may
happen in between. -/
inductive Running (b : Board σ) : Cpu → Prop
  | reset (c : Cpu) (s : σ) : Running b (vrEmu6502Reset b c s).2
  | tick {c : Cpu} (s : σ) : Running b c → Running b (vrEmu6502Tick b c s).2

variable {b}

theorem Running.sound {c : Cpu} (running : Running b c) : Sound c := by
  induction running with
  | reset c s => exact (restart_sound c).run _ _
  | tick s _ sound => exact tick_sound b sound s

/-- The machine's clock ticks. -/
def ticks (b : Board σ) : Nat → σ × Cpu → σ × Cpu
  | 0, x => x
  | n + 1, x => ticks b n (vrEmu6502Tick b x.2 x.1)

theorem ticks_count {s : σ} {c : Cpu} (stp : c.stp = false) {n : Nat} (enough : n ≤ c.step.toNat) :
    ticks b n (s, c) = (s, { c with step := c.step - UInt8.ofNat n }) := by
  induction n generalizing c with
  | zero => rw [ticks, show UInt8.ofNat 0 = 0 from rfl, UInt8.sub_zero]
  | succ n ih =>
    have going : c.step ≠ 0 := by
      intro zero
      rw [zero, UInt8.toNat_zero] at enough
      omega
    have less : n ≤ (c.step - 1).toNat := by
      have small := c.step.toNat_lt
      rw [UInt8.toNat_sub]
      simp only [UInt8.toNat_one]
      omega
    rw [ticks, vrEmu6502Tick, if_neg (by simp [stp]), if_pos going, countDown, if_pos going,
      ih (c := { c with step := c.step - 1 }) stp less]
    have together : c.step - 1 - UInt8.ofNat n = c.step - UInt8.ofNat (n + 1) := by
      rw [UInt8.ofNat_add]
      grind
    dsimp only
    rw [together]

/-- From between two instructions, one call of `vrEmu6502InstCycle` does what the ticks it counts
do: it takes an interrupt in one, or else the next instruction in as many as its opcode allows and
never more than eight, with every bus access in the first. -/
theorem instCycle_ticks {c : Cpu} (running : Running b c) (between : c.step = 0) (s : σ) :
    let cycle := vrEmu6502InstCycle b c s
    let count := cycle.2.toNat
    ticks b count (s, c) = cycle.1 ∧ cycle.1.2.step = 0 ∧ 1 ≤ count ∧ count ≤ 8 ∧
      (Interrupted b (s, c) ∧ count = 1 ∨
        ¬Interrupted b (s, c) ∧ cycle.1.2.currentOpcode = next b (s, c) ∧
          fewest (next b (s, c)) ≤ count ∧ count ≤ most (next b (s, c))) ∧
      ∀ n, 1 ≤ n → n ≤ count → (ticks b n (s, c)).1 = (vrEmu6502Tick b c s).1 := by
  intro cycle count
  have first := tick_sound b running.sound s
  have left := first.step
  have total : count = (vrEmu6502Tick b c s).2.step.toNat + 1 := by
    have counted : count = ((vrEmu6502Tick b c s).2.step + 1).toNat := rfl
    rw [counted, UInt8.toNat_add]
    simp only [UInt8.toNat_one]
    omega
  have after : ∀ n, n ≤ (vrEmu6502Tick b c s).2.step.toNat → ticks b (n + 1) (s, c) =
      ((vrEmu6502Tick b c s).1, { (vrEmu6502Tick b c s).2 with
        step := (vrEmu6502Tick b c s).2.step - UInt8.ofNat n }) := by
    intro n enough
    exact ticks_count (b := b) (s := (vrEmu6502Tick b c s).1) (c := (vrEmu6502Tick b c s).2)
      first.stp enough
  refine ⟨?_, rfl, by omega, by omega, ?_, ?_⟩
  · rw [total, after _ (Nat.le_refl _), UInt8.ofNat_toNat, UInt8.sub_self]
    rfl
  · rcases tick_cases b running.sound s with ⟨going, -⟩ | ⟨taken, done, -⟩ |
      ⟨-, untaken, c', fetched, current, ticked⟩
    · exact absurd between going
    · refine .inl ⟨taken, ?_⟩
      rw [total, done]
      rfl
    · have least := fetched.atLeast
      have most := fetched.atMost
      have positive := fewest_pos c'.currentOpcode
      have opcode : cycle.1.2.currentOpcode = c'.currentOpcode := by
        have same := congrArg Cpu.currentOpcode ticked
        exact same
      have step : (vrEmu6502Tick b c s).2.step.toNat + 1 = c'.step.toNat := by
        have small := c'.step.toNat_lt
        rw [ticked]
        dsimp only
        rw [UInt8.toNat_sub]
        simp only [UInt8.toNat_one]
        omega
      rw [current] at least most
      refine .inr ⟨untaken, opcode.trans current, ?_⟩
      rw [total, step]
      exact ⟨least, most⟩
  · intro n positive enough
    obtain ⟨n, rfl⟩ := Nat.exists_eq_add_of_le' positive
    rw [after n (by omega)]

/-- In memory full of zeros the first instruction is a `BRK`. -/
theorem instCycle_ticks_brk :
    let started := vrEmu6502Reset tubeBoard poweredOn (Ap5Tube.resetUlaChannels inMemory)
    let cycle := vrEmu6502InstCycle tubeBoard started.2 started.1
    ticks tubeBoard cycle.2.toNat started = cycle.1 ∧ cycle.2 = 7 :=
  ⟨(instCycle_ticks (.reset poweredOn (Ap5Tube.resetUlaChannels inMemory)) rfl _).1, by decide⟩

end Ticks

end Pi1MHz.VrEmu6502
