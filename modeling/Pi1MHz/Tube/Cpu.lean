import Pi1MHz.Foundation.Bus

/-! The parasite's processor (`vrEmu6502.c`), as the 65C02 that the Tube creates it to be. -/
namespace Pi1MHz.VrEmu6502

abbrev Action := Bus.Program UInt16 UInt8

def readFn (addr : UInt16) : Action UInt8 := .read addr .done
def writeFn (addr : UInt16) (value : UInt8) : Action Unit := .write addr value (.done ())

def flagC : UInt8 := 0x01
def flagZ : UInt8 := 0x02
def flagI : UInt8 := 0x04
def flagD : UInt8 := 0x08
def flagB : UInt8 := 0x10
def flagU : UInt8 := 0x20
def flagV : UInt8 := 0x40
def flagN : UInt8 := 0x80
def nmiVec : UInt16 := 0xfffa
def resetVec : UInt16 := 0xfffc
def intVec : UInt16 := 0xfffe

/-- The registers and where the processor is in its instruction. The interrupt pins belong to
whatever the processor is wired to. -/
structure Cpu where
  step : UInt8
  currentOpcode : UInt8
  wai : Bool
  stp : Bool
  pc : UInt16
  ac : UInt8
  ix : UInt8
  iy : UInt8
  sp : UInt8
  flags : UInt8
deriving DecidableEq, Repr

def stackAddress (sp : UInt8) : UInt16 := 0x100 ||| sp.toUInt16

def word (low high : UInt8) : UInt16 := low.toUInt16 ||| high.toUInt16 <<< 8

def push (c : Cpu) (val : UInt8) : Action Cpu := do
  writeFn (stackAddress c.sp) val
  pure { c with sp := c.sp - 1 }

def pop (c : Cpu) : Action (Cpu × UInt8) := do
  let val ← readFn (stackAddress (c.sp + 1))
  pure ({ c with sp := c.sp + 1 }, val)

def read16 (addr : UInt16) : Action UInt16 := do
  let low ← readFn addr
  let high ← readFn (addr + 1)
  pure (word low high)

/-- `read16` with the second byte in the zero page. -/
def read16Wrapped (addr : UInt16) : Action UInt16 := do
  let low ← readFn addr
  let high ← readFn ((addr + 1) &&& 0xff)
  pure (word low high)

def pageBoundary (c : Cpu) (addr1 addr2 : UInt16) : Cpu :=
  { c with step := c.step + if (addr1 ^^^ addr2) &&& 0xff00 ≠ 0 then 1 else 0 }

def setBit (c : Cpu) (flag : UInt8) : Cpu := { c with flags := c.flags ||| flag }

def clearBit (c : Cpu) (flag : UInt8) : Cpu := { c with flags := c.flags &&& ~~~flag }

def setOrClearBit (c : Cpu) (flag : UInt8) (set : Bool) : Cpu :=
  { c with flags := (c.flags &&& ~~~flag) ||| if set then flag else 0 }

def testBit (c : Cpu) (flag : UInt8) : Bool := c.flags &&& flag != 0

def setNZ (c : Cpu) (val : UInt8) : Cpu :=
  { c with flags := (c.flags &&& ~~~(flagN ||| flagZ)) ||| (val &&& flagN) |||
      if val = 0 then flagZ else 0 }

section AddressModes

variable (c : Cpu)

/-- The two bytes after the opcode, and past them. -/
def ab : Action (Cpu × UInt16) := do
  let addr ← read16 c.pc
  pure ({ c with pc := c.pc + 2 }, addr)

def abx : Action (Cpu × UInt16) := do
  let base ← read16 c.pc
  pure ({ c with pc := c.pc + 2 }, base + c.ix.toUInt16)

def aby : Action (Cpu × UInt16) := do
  let base ← read16 c.pc
  pure ({ c with pc := c.pc + 2 }, base + c.iy.toUInt16)

def axp : Action (Cpu × UInt16) := do
  let base ← read16 c.pc
  let addr := base + c.ix.toUInt16
  pure (pageBoundary { c with pc := c.pc + 2 } addr base, addr)

def ayp : Action (Cpu × UInt16) := do
  let base ← read16 c.pc
  let addr := base + c.iy.toUInt16
  pure (pageBoundary { c with pc := c.pc + 2 } addr base, addr)

def imm : Action (Cpu × UInt16) := pure ({ c with pc := c.pc + 1 }, c.pc)

def ind : Action (Cpu × UInt16) := do
  let addr ← read16 c.pc
  let target ← read16 addr
  pure ({ c with pc := c.pc + 1 }, target)

def indx : Action (Cpu × UInt16) := do
  let addr ← read16 c.pc
  let target ← read16 (addr + c.ix.toUInt16)
  pure ({ c with pc := c.pc + 1 }, target)

def signExtend (offset : UInt8) : UInt16 := offset.toInt8.toInt16.toUInt16

def rel : Action (Cpu × UInt16) := do
  let offset ← readFn c.pc
  pure ({ c with pc := c.pc + 1 }, c.pc + signExtend offset + 1)

def xin : Action (Cpu × UInt16) := do
  let pointer ← readFn c.pc
  let addr ← read16Wrapped ((pointer.toUInt16 + c.ix.toUInt16) &&& 0xff)
  pure ({ c with pc := c.pc + 1 }, addr)

def yin : Action (Cpu × UInt16) := do
  let pointer ← readFn c.pc
  let base ← read16Wrapped pointer.toUInt16
  pure ({ c with pc := c.pc + 1 }, base + c.iy.toUInt16)

def yip : Action (Cpu × UInt16) := do
  let pointer ← readFn c.pc
  let base ← read16Wrapped pointer.toUInt16
  let addr := base + c.iy.toUInt16
  pure (pageBoundary { c with pc := c.pc + 1 } base addr, addr)

def zp : Action (Cpu × UInt16) := do
  let addr ← readFn c.pc
  pure ({ c with pc := c.pc + 1 }, addr.toUInt16)

def zpi : Action (Cpu × UInt16) := do
  let pointer ← readFn c.pc
  let addr ← read16Wrapped pointer.toUInt16
  pure ({ c with pc := c.pc + 1 }, addr)

def zpx : Action (Cpu × UInt16) := do
  let base ← readFn c.pc
  pure ({ c with pc := c.pc + 1 }, (base.toUInt16 + c.ix.toUInt16) &&& 0xff)

def zpy : Action (Cpu × UInt16) := do
  let base ← readFn c.pc
  pure ({ c with pc := c.pc + 1 }, (base.toUInt16 + c.iy.toUInt16) &&& 0xff)

end AddressModes

/-- `null` is the pointer that `acc` and `imp` stand for. -/
inductive AddrMode
  | null | ab | abx | aby | axp | ayp | imm | ind | indx | rel
  | xin | yin | yip | zp | zpi | zpx | zpy
deriving DecidableEq, Repr

/-- The addressing function called. The table calls none through `null`. -/
def AddrMode.addr : AddrMode → Cpu → Action (Cpu × UInt16)
  | null => fun c => pure (c, 0)
  | ab => VrEmu6502.ab
  | abx => VrEmu6502.abx
  | aby => VrEmu6502.aby
  | axp => VrEmu6502.axp
  | ayp => VrEmu6502.ayp
  | imm => VrEmu6502.imm
  | ind => VrEmu6502.ind
  | indx => VrEmu6502.indx
  | rel => VrEmu6502.rel
  | xin => VrEmu6502.xin
  | yin => VrEmu6502.yin
  | yip => VrEmu6502.yip
  | zp => VrEmu6502.zp
  | zpi => VrEmu6502.zpi
  | zpx => VrEmu6502.zpx
  | zpy => VrEmu6502.zpy

/-- The byte at the operand's address. -/
def operand (mode : AddrMode) (c : Cpu) : Action (Cpu × UInt8) := do
  let (c, addr) ← mode.addr c
  let value ← readFn addr
  pure (c, value)

/-- The flags that two bytes and their sum leave: `C` from the ninth bit, `V` from the signs. -/
def addFlags (c : Cpu) (opr : UInt8) (result : UInt16) : Cpu :=
  setOrClearBit (setOrClearBit c flagC (result > 0xff)) flagV
    ((c.ac.toUInt16 ^^^ result) &&& (opr.toUInt16 ^^^ result) &&& 0x80 != 0)

/-- The one bit that `testBit` adds to a sum. -/
def bitOf (set : Bool) : UInt8 := if set then 1 else 0

/-- What `adc` does with the operand's byte in binary mode, and `sbc` with its complement. -/
def addTo (c : Cpu) (opr : UInt8) : Cpu :=
  let result := c.ac.toUInt16 + opr.toUInt16 + (bitOf (testBit c flagC)).toUInt16
  let c := addFlags c opr result
  setNZ { c with ac := result.toUInt8 } result.toUInt8

/-- What `adcd` does with the operand's byte. -/
def addDecimal (c : Cpu) (value : UInt8) : Cpu :=
  let vu := value &&& 0x0f
  let vt := (value &&& 0xf0) >>> 4
  let au := c.ac &&& 0x0f
  let at' := (c.ac &&& 0xf0) >>> 4
  let units := vu + au + bitOf (testBit c flagC)
  let tens := vt + at'
  let (tc, tens, units) :=
    if units > 0x09 then ((1 : UInt8), tens + 0x01, units + 0x06) else (0, tens, units)
  let tens := if tens > 0x09 then tens + 0x06 else tens
  let c := { c with step := c.step + 1 }
  let at' := if at' &&& 0x08 != 0 then at' ||| 0xf0 else at'
  let vt := if vt &&& 0x08 != 0 then vt ||| 0xf0 else vt
  let res := (at' + vt + tc).toInt8
  let c := setOrClearBit c flagV (res < -8 || res > 7)
  let ac := tens <<< 4 ||| units &&& 0x0f
  let c := setNZ { c with ac } ac
  setOrClearBit c flagC (tens &&& 0xf0 != 0)

/-- What `sbcd` does with the operand's byte. -/
def subDecimal (c : Cpu) (value : UInt8) : Cpu :=
  let carry := testBit c flagC
  let binResult := c.ac.toUInt16 + ~~~value.toUInt16 + (bitOf carry).toUInt16
  let tmp := (c.ac &&& 0x0f).toUInt16 - (value &&& 0x0f).toUInt16 - (bitOf !carry).toUInt16
  let result := c.ac.toUInt16 - value.toUInt16 - (bitOf !carry).toUInt16
  let result := if result &&& 0x8000 != 0 then result - 0x60 else result
  let result := if tmp &&& 0x8000 != 0 then result - 0x06 else result
  let c := { c with step := c.step + 1 }
  let c := setOrClearBit c flagV
    ((c.ac.toUInt16 ^^^ binResult) &&& (~~~value.toUInt16 ^^^ binResult) &&& 0x80 != 0)
  let c := setNZ c result.toUInt8
  let c := setOrClearBit c flagC (result ≤ c.ac.toUInt16 || result &&& 0xff0 == 0xff0)
  { c with ac := (result &&& 0xff).toUInt8 }

section Instructions

variable (mode : AddrMode) (c : Cpu)

def adcd : Action Cpu := do
  let (c, value) ← operand mode c
  pure (addDecimal c value)

def adc : Action Cpu :=
  if testBit c flagD then adcd mode c
  else do
    let (c, opr) ← operand mode c
    pure (addTo c opr)

def sbcd : Action Cpu := do
  let (c, value) ← operand mode c
  pure (subDecimal c value)

def sbc : Action Cpu :=
  if testBit c flagD then sbcd mode c
  else do
    let (c, value) ← operand mode c
    pure (addTo c (~~~value))

/-- `and`, `eor` and `ora`. -/
def combine (f : UInt8 → UInt8 → UInt8) : Action Cpu := do
  let (c, value) ← operand mode c
  let ac := f c.ac value
  pure (setNZ { c with ac } ac)

def and : Action Cpu := combine mode c (· &&& ·)
def eor : Action Cpu := combine mode c (· ^^^ ·)
def ora : Action Cpu := combine mode c (· ||| ·)

/-- `asl`, `lsr`, `rol`, `ror`, `inc` and `dec`: of the accumulator, or of the byte in memory. -/
def modify (f : Cpu → UInt8 → Cpu × UInt8) : Action Cpu :=
  if mode = .null then
    let (c, ac) := f c c.ac
    pure (setNZ { c with ac } ac)
  else do
    let (c, addr) ← mode.addr c
    let value ← readFn addr
    let (c, result) := f c value
    writeFn addr result
    pure (setNZ c result)

/-- The bit that falls out goes to `C`. -/
def shifted (mask : UInt8) (f : Bool → UInt8 → UInt8) (c : Cpu) (value : UInt8) : Cpu × UInt8 :=
  (setOrClearBit c flagC (value &&& mask != 0), f (testBit c flagC) value)

def asl : Action Cpu := modify mode c (shifted 0x80 fun _ value => value <<< 1)
def lsr : Action Cpu := modify mode c (shifted 0x01 fun _ value => value >>> 1)
def rol : Action Cpu :=
  modify mode c (shifted 0x80 fun carry value => value <<< 1 ||| bitOf carry)
def ror : Action Cpu :=
  modify mode c (shifted 0x01 fun carry value => value >>> 1 ||| bitOf carry * 0x80)
def inc : Action Cpu := modify mode c fun c value => (c, value + 1)
def dec : Action Cpu := modify mode c fun c value => (c, value - 1)

def bra : Action Cpu := do
  let (c, addr) ← mode.addr { c with step := c.step + 1 }
  pure { pageBoundary c c.pc addr with pc := addr }

/-- The conditional branches. -/
def branchIf (taken : Bool) : Action Cpu :=
  if taken then bra mode c
  else do
    let (c, _) ← mode.addr c
    pure c

def bcc : Action Cpu := branchIf mode c !testBit c flagC
def bcs : Action Cpu := branchIf mode c (testBit c flagC)
def beq : Action Cpu := branchIf mode c (testBit c flagZ)
def bmi : Action Cpu := branchIf mode c (testBit c flagN)
def bne : Action Cpu := branchIf mode c !testBit c flagZ
def bpl : Action Cpu := branchIf mode c !testBit c flagN
def bvc : Action Cpu := branchIf mode c !testBit c flagV
def bvs : Action Cpu := branchIf mode c (testBit c flagV)

def bit : Action Cpu := do
  let (c, val) ← operand mode c
  let c := if mode = .imm then c
    else setOrClearBit (setOrClearBit c flagV (val &&& 0x40 != 0)) flagN (val &&& 0x80 != 0)
  pure (setOrClearBit c flagZ (val &&& c.ac == 0))

def brk : Action Cpu := do
  let c := { c with pc := c.pc + 1 }
  let c ← push c (c.pc >>> 8).toUInt8
  let c ← push c (c.pc &&& 0xff).toUInt8
  let c ← push c (c.flags ||| flagU ||| flagB)
  let c := clearBit (setBit c flagI) flagD
  let pc ← read16 0xfffe
  pure { c with pc }

/-- `cmp`, `cpx` and `cpy`. -/
def compareWith (register : Cpu → UInt8) : Action Cpu := do
  let (c, value) ← operand mode c
  let result := (register c).toUInt16 + (~~~value).toUInt16 + 1
  pure (setNZ (setOrClearBit c flagC (result > 0xff)) result.toUInt8)

def cmp : Action Cpu := compareWith mode c Cpu.ac
def cpx : Action Cpu := compareWith mode c Cpu.ix
def cpy : Action Cpu := compareWith mode c Cpu.iy

/-- `clc`, `cld`, `cli` and `clv`. -/
def clearing (flag : UInt8) : Action Cpu := pure (clearBit c flag)

def clc : Action Cpu := clearing c flagC
def cld : Action Cpu := clearing c flagD
def cli : Action Cpu := clearing c flagI
def clv : Action Cpu := clearing c flagV

/-- `sec`, `sed` and `sei`. -/
def setting (flag : UInt8) : Action Cpu := pure (setBit c flag)

def sec : Action Cpu := setting c flagC
def sed : Action Cpu := setting c flagD
def sei : Action Cpu := setting c flagI

def dex : Action Cpu := pure (setNZ { c with ix := c.ix - 1 } (c.ix - 1))
def dey : Action Cpu := pure (setNZ { c with iy := c.iy - 1 } (c.iy - 1))
def inx : Action Cpu := pure (setNZ { c with ix := c.ix + 1 } (c.ix + 1))
def iny : Action Cpu := pure (setNZ { c with iy := c.iy + 1 } (c.iy + 1))

def jmp : Action Cpu := do
  let (c, pc) ← mode.addr c
  pure { c with pc }

def jsr : Action Cpu := do
  let (c, addr) ← mode.addr c
  let c := { c with pc := c.pc - 1 }
  let c ← push c (c.pc >>> 8).toUInt8
  let c ← push c (c.pc &&& 0xff).toUInt8
  pure { c with pc := addr }

/-- `lda`, `ldx` and `ldy`. -/
def load (put : Cpu → UInt8 → Cpu) : Action Cpu := do
  let (c, value) ← operand mode c
  pure (setNZ (put c value) value)

def lda : Action Cpu := load mode c fun c ac => { c with ac }
def ldx : Action Cpu := load mode c fun c ix => { c with ix }
def ldy : Action Cpu := load mode c fun c iy => { c with iy }

def nop : Action Cpu :=
  if mode = .null then pure c
  else do
    let (c, _) ← mode.addr c
    pure c

def ldd : Action Cpu :=
  if mode = .null then pure c
  else do
    let (c, _) ← operand mode c
    pure c

def pha : Action Cpu := push c c.ac
def php : Action Cpu := push c (c.flags ||| flagB ||| flagU)
def phx : Action Cpu := push c c.ix
def phy : Action Cpu := push c c.iy

/-- `pla`, `plx` and `ply`. -/
def pull (put : Cpu → UInt8 → Cpu) : Action Cpu := do
  let (c, value) ← pop c
  pure (setNZ (put c value) value)

def pla : Action Cpu := pull c fun c ac => { c with ac }
def plx : Action Cpu := pull c fun c ix => { c with ix }
def ply : Action Cpu := pull c fun c iy => { c with iy }

def plp : Action Cpu := do
  let (c, flags) ← pop c
  pure { c with flags := flags ||| flagU ||| flagB }

def rti : Action Cpu := do
  let (c, flags) ← pop c
  let (c, low) ← pop { c with flags := flags ||| flagU ||| flagB }
  let (c, high) ← pop c
  pure { c with pc := word low high }

def rts : Action Cpu := do
  let (c, low) ← pop c
  let (c, high) ← pop c
  pure { c with pc := word low high + 1 }

/-- `sta`, `stx`, `sty` and `stz`. -/
def store (value : UInt8) : Action Cpu := do
  let (c, addr) ← mode.addr c
  writeFn addr value
  pure c

def sta : Action Cpu := store mode c c.ac
def stx : Action Cpu := store mode c c.ix
def sty : Action Cpu := store mode c c.iy
def stz : Action Cpu := store mode c 0

def tax : Action Cpu := pure (setNZ { c with ix := c.ac } c.ac)
def tay : Action Cpu := pure (setNZ { c with iy := c.ac } c.ac)
def tsx : Action Cpu := pure (setNZ { c with ix := c.sp } c.sp)
def txa : Action Cpu := pure (setNZ { c with ac := c.ix } c.ix)
def txs : Action Cpu := pure { c with sp := c.ix }
def tya : Action Cpu := pure (setNZ { c with ac := c.iy } c.iy)

/-- `trb` and `tsb`. -/
def testAnd (f : UInt8 → UInt8 → UInt8) : Action Cpu := do
  let (c, addr) ← mode.addr c
  let temp ← readFn addr
  writeFn addr (f temp c.ac)
  pure (setOrClearBit c flagZ (temp &&& c.ac == 0))

def trb : Action Cpu := testAnd mode c fun temp ac => temp &&& ~~~ac
def tsb : Action Cpu := testAnd mode c fun temp ac => temp ||| ac

end Instructions

/-- The instructions of the table. -/
inductive Instruction
  | adc | and | asl | bcc | bcs | beq | bit | bmi | bne | bpl | bra | brk | bvc | bvs
  | clc | cld | cli | clv | cmp | cpx | cpy | dec | dex | dey | eor | inc | inx | iny
  | jmp | jsr | lda | ldd | ldx | ldy | lsr | nop | ora | pha | php | phx | phy
  | pla | plp | plx | ply | rol | ror | rti | rts | sbc | sec | sed | sei
  | sta | stx | sty | stz | tax | tay | trb | tsb | tsx | txa | txs | tya
deriving DecidableEq, Repr

def Instruction.perform : Instruction → AddrMode → Cpu → Action Cpu
  | adc => VrEmu6502.adc
  | and => VrEmu6502.and
  | asl => VrEmu6502.asl
  | bcc => VrEmu6502.bcc
  | bcs => VrEmu6502.bcs
  | beq => VrEmu6502.beq
  | bit => VrEmu6502.bit
  | bmi => VrEmu6502.bmi
  | bne => VrEmu6502.bne
  | bpl => VrEmu6502.bpl
  | bra => VrEmu6502.bra
  | brk => fun _ => VrEmu6502.brk
  | bvc => VrEmu6502.bvc
  | bvs => VrEmu6502.bvs
  | clc => fun _ => VrEmu6502.clc
  | cld => fun _ => VrEmu6502.cld
  | cli => fun _ => VrEmu6502.cli
  | clv => fun _ => VrEmu6502.clv
  | cmp => VrEmu6502.cmp
  | cpx => VrEmu6502.cpx
  | cpy => VrEmu6502.cpy
  | dec => VrEmu6502.dec
  | dex => fun _ => VrEmu6502.dex
  | dey => fun _ => VrEmu6502.dey
  | eor => VrEmu6502.eor
  | inc => VrEmu6502.inc
  | inx => fun _ => VrEmu6502.inx
  | iny => fun _ => VrEmu6502.iny
  | jmp => VrEmu6502.jmp
  | jsr => VrEmu6502.jsr
  | lda => VrEmu6502.lda
  | ldd => VrEmu6502.ldd
  | ldx => VrEmu6502.ldx
  | ldy => VrEmu6502.ldy
  | lsr => VrEmu6502.lsr
  | nop => VrEmu6502.nop
  | ora => VrEmu6502.ora
  | pha => fun _ => VrEmu6502.pha
  | php => fun _ => VrEmu6502.php
  | phx => fun _ => VrEmu6502.phx
  | phy => fun _ => VrEmu6502.phy
  | pla => fun _ => VrEmu6502.pla
  | plp => fun _ => VrEmu6502.plp
  | plx => fun _ => VrEmu6502.plx
  | ply => fun _ => VrEmu6502.ply
  | rol => VrEmu6502.rol
  | ror => VrEmu6502.ror
  | rti => fun _ => VrEmu6502.rti
  | rts => fun _ => VrEmu6502.rts
  | sbc => VrEmu6502.sbc
  | sec => fun _ => VrEmu6502.sec
  | sed => fun _ => VrEmu6502.sed
  | sei => fun _ => VrEmu6502.sei
  | sta => VrEmu6502.sta
  | stx => VrEmu6502.stx
  | sty => VrEmu6502.sty
  | stz => VrEmu6502.stz
  | tax => fun _ => VrEmu6502.tax
  | tay => fun _ => VrEmu6502.tay
  | trb => VrEmu6502.trb
  | tsb => VrEmu6502.tsb
  | tsx => fun _ => VrEmu6502.tsx
  | txa => fun _ => VrEmu6502.txa
  | txs => fun _ => VrEmu6502.txs
  | tya => fun _ => VrEmu6502.tya

structure Opcode where
  instruction : Instruction
  addrMode : AddrMode
  cycles : UInt8
deriving DecidableEq, Repr

def lddImm : Opcode := ⟨.ldd, .imm, 2⟩
def unnop11 : Opcode := ⟨.nop, .null, 1⟩

/-- One comment a row of the table, by the opcode's high digit. -/
def std65c02 : List Opcode := [
  -- 0_
  ⟨.brk, .null, 7⟩, ⟨.ora, .xin, 6⟩, lddImm, unnop11, ⟨.tsb, .zp, 5⟩, ⟨.ora, .zp, 3⟩,
  ⟨.asl, .zp, 5⟩, unnop11, ⟨.php, .null, 3⟩, ⟨.ora, .imm, 2⟩, ⟨.asl, .null, 2⟩, unnop11,
  ⟨.tsb, .ab, 6⟩, ⟨.ora, .ab, 4⟩, ⟨.asl, .ab, 6⟩, unnop11,
  -- 1_
  ⟨.bpl, .rel, 2⟩, ⟨.ora, .yip, 5⟩, ⟨.ora, .zpi, 5⟩, unnop11, ⟨.trb, .zp, 5⟩, ⟨.ora, .zpx, 4⟩,
  ⟨.asl, .zpx, 6⟩, unnop11, ⟨.clc, .null, 2⟩, ⟨.ora, .ayp, 4⟩, ⟨.inc, .null, 2⟩, unnop11,
  ⟨.trb, .ab, 6⟩, ⟨.ora, .axp, 4⟩, ⟨.asl, .axp, 6⟩, unnop11,
  -- 2_
  ⟨.jsr, .ab, 6⟩, ⟨.and, .xin, 6⟩, lddImm, unnop11, ⟨.bit, .zp, 3⟩, ⟨.and, .zp, 3⟩,
  ⟨.rol, .zp, 5⟩, unnop11, ⟨.plp, .null, 4⟩, ⟨.and, .imm, 2⟩, ⟨.rol, .null, 2⟩, unnop11,
  ⟨.bit, .ab, 4⟩, ⟨.and, .ab, 4⟩, ⟨.rol, .ab, 6⟩, unnop11,
  -- 3_
  ⟨.bmi, .rel, 2⟩, ⟨.and, .yip, 5⟩, ⟨.and, .zpi, 5⟩, unnop11, ⟨.bit, .zpx, 4⟩, ⟨.and, .zpx, 4⟩,
  ⟨.rol, .zpx, 6⟩, unnop11, ⟨.sec, .null, 2⟩, ⟨.and, .ayp, 4⟩, ⟨.dec, .null, 2⟩, unnop11,
  ⟨.bit, .abx, 4⟩, ⟨.and, .axp, 4⟩, ⟨.rol, .axp, 6⟩, unnop11,
  -- 4_
  ⟨.rti, .null, 6⟩, ⟨.eor, .xin, 6⟩, lddImm, unnop11, ⟨.ldd, .zp, 3⟩, ⟨.eor, .zp, 3⟩,
  ⟨.lsr, .zp, 5⟩, unnop11, ⟨.pha, .null, 3⟩, ⟨.eor, .imm, 2⟩, ⟨.lsr, .null, 2⟩, unnop11,
  ⟨.jmp, .ab, 3⟩, ⟨.eor, .ab, 4⟩, ⟨.lsr, .ab, 6⟩, unnop11,
  -- 5_
  ⟨.bvc, .rel, 2⟩, ⟨.eor, .yip, 5⟩, ⟨.eor, .zpi, 5⟩, unnop11, ⟨.ldd, .zpx, 4⟩, ⟨.eor, .zpx, 4⟩,
  ⟨.lsr, .zpx, 6⟩, unnop11, ⟨.cli, .null, 2⟩, ⟨.eor, .ayp, 4⟩, ⟨.phy, .null, 3⟩, unnop11,
  ⟨.ldd, .ab, 8⟩, ⟨.eor, .axp, 4⟩, ⟨.lsr, .axp, 6⟩, unnop11,
  -- 6_
  ⟨.rts, .null, 6⟩, ⟨.adc, .xin, 6⟩, lddImm, unnop11, ⟨.stz, .zp, 3⟩, ⟨.adc, .zp, 3⟩,
  ⟨.ror, .zp, 5⟩, unnop11, ⟨.pla, .null, 4⟩, ⟨.adc, .imm, 2⟩, ⟨.ror, .null, 2⟩, unnop11,
  ⟨.jmp, .ind, 6⟩, ⟨.adc, .ab, 4⟩, ⟨.ror, .ab, 6⟩, unnop11,
  -- 7_
  ⟨.bvs, .rel, 2⟩, ⟨.adc, .yip, 5⟩, ⟨.adc, .zpi, 5⟩, unnop11, ⟨.stz, .zpx, 4⟩, ⟨.adc, .zpx, 4⟩,
  ⟨.ror, .zpx, 6⟩, unnop11, ⟨.sei, .null, 2⟩, ⟨.adc, .ayp, 4⟩, ⟨.ply, .null, 4⟩, unnop11,
  ⟨.jmp, .indx, 6⟩, ⟨.adc, .axp, 4⟩, ⟨.ror, .axp, 6⟩, unnop11,
  -- 8_
  ⟨.bra, .rel, 2⟩, ⟨.sta, .xin, 6⟩, lddImm, unnop11, ⟨.sty, .zp, 3⟩, ⟨.sta, .zp, 3⟩,
  ⟨.stx, .zp, 3⟩, unnop11, ⟨.dey, .null, 2⟩, ⟨.bit, .imm, 2⟩, ⟨.txa, .null, 2⟩, unnop11,
  ⟨.sty, .ab, 4⟩, ⟨.sta, .ab, 4⟩, ⟨.stx, .ab, 4⟩, unnop11,
  -- 9_
  ⟨.bcc, .rel, 2⟩, ⟨.sta, .yin, 6⟩, ⟨.sta, .zpi, 5⟩, unnop11, ⟨.sty, .zpx, 4⟩, ⟨.sta, .zpx, 4⟩,
  ⟨.stx, .zpy, 4⟩, unnop11, ⟨.tya, .null, 2⟩, ⟨.sta, .aby, 5⟩, ⟨.txs, .null, 2⟩, unnop11,
  ⟨.stz, .ab, 4⟩, ⟨.sta, .abx, 5⟩, ⟨.stz, .abx, 5⟩, unnop11,
  -- A_
  ⟨.ldy, .imm, 2⟩, ⟨.lda, .xin, 6⟩, ⟨.ldx, .imm, 2⟩, unnop11, ⟨.ldy, .zp, 3⟩, ⟨.lda, .zp, 3⟩,
  ⟨.ldx, .zp, 3⟩, unnop11, ⟨.tay, .null, 2⟩, ⟨.lda, .imm, 2⟩, ⟨.tax, .null, 2⟩, unnop11,
  ⟨.ldy, .ab, 4⟩, ⟨.lda, .ab, 4⟩, ⟨.ldx, .ab, 4⟩, unnop11,
  -- B_
  ⟨.bcs, .rel, 2⟩, ⟨.lda, .yip, 5⟩, ⟨.lda, .zpi, 5⟩, unnop11, ⟨.ldy, .zpx, 4⟩, ⟨.lda, .zpx, 4⟩,
  ⟨.ldx, .zpy, 4⟩, unnop11, ⟨.clv, .null, 2⟩, ⟨.lda, .ayp, 4⟩, ⟨.tsx, .null, 2⟩, unnop11,
  ⟨.ldy, .axp, 4⟩, ⟨.lda, .axp, 4⟩, ⟨.ldx, .ayp, 4⟩, unnop11,
  -- C_
  ⟨.cpy, .imm, 2⟩, ⟨.cmp, .xin, 6⟩, lddImm, unnop11, ⟨.cpy, .zp, 3⟩, ⟨.cmp, .zp, 3⟩,
  ⟨.dec, .zp, 5⟩, unnop11, ⟨.iny, .null, 2⟩, ⟨.cmp, .imm, 2⟩, ⟨.dex, .null, 2⟩, unnop11,
  ⟨.cpy, .ab, 4⟩, ⟨.cmp, .ab, 4⟩, ⟨.dec, .ab, 6⟩, unnop11,
  -- D_
  ⟨.bne, .rel, 2⟩, ⟨.cmp, .yip, 5⟩, ⟨.cmp, .zpi, 5⟩, unnop11, ⟨.ldd, .zpx, 4⟩, ⟨.cmp, .zpx, 4⟩,
  ⟨.dec, .zpx, 6⟩, unnop11, ⟨.cld, .null, 2⟩, ⟨.cmp, .ayp, 4⟩, ⟨.phx, .null, 3⟩, unnop11,
  ⟨.ldd, .ab, 4⟩, ⟨.cmp, .axp, 4⟩, ⟨.dec, .abx, 7⟩, unnop11,
  -- E_
  ⟨.cpx, .imm, 2⟩, ⟨.sbc, .xin, 6⟩, lddImm, unnop11, ⟨.cpx, .zp, 3⟩, ⟨.sbc, .zp, 3⟩,
  ⟨.inc, .zp, 5⟩, unnop11, ⟨.inx, .null, 2⟩, ⟨.sbc, .imm, 2⟩, ⟨.nop, .null, 2⟩, unnop11,
  ⟨.cpx, .ab, 4⟩, ⟨.sbc, .ab, 4⟩, ⟨.inc, .ab, 6⟩, unnop11,
  -- F_
  ⟨.beq, .rel, 2⟩, ⟨.sbc, .yip, 5⟩, ⟨.sbc, .zpi, 5⟩, unnop11, ⟨.ldd, .zpx, 4⟩, ⟨.sbc, .zpx, 4⟩,
  ⟨.inc, .zpx, 6⟩, unnop11, ⟨.sed, .null, 2⟩, ⟨.sbc, .ayp, 4⟩, ⟨.plx, .null, 4⟩, unnop11,
  ⟨.ldd, .ab, 4⟩, ⟨.sbc, .axp, 4⟩, ⟨.inc, .abx, 7⟩, unnop11]

theorem std65c02_length : std65c02.length = 256 := by decide +kernel

def opcodes (opcode : UInt8) : Opcode :=
  std65c02.get ⟨opcode.toNat, std65c02_length ▸ opcode.toNat_lt⟩

/-- Pushes where it is and goes where the vector points. -/
def beginInterrupt (c : Cpu) (addr : UInt16) : Action Cpu := do
  let c ← push c (c.pc >>> 8).toUInt8
  let c ← push c (c.pc &&& 0xff).toUInt8
  let c ← push c ((c.flags ||| flagU) &&& ~~~flagB)
  let c := { setBit c flagI with wai := false }
  let pc ← read16 addr
  pure { c with pc }

/-- The next opcode fetched and performed. The addressing modes may add to its cycles. -/
def execute (c : Cpu) : Action Cpu := do
  let opcode ← readFn c.pc
  let found := opcodes opcode
  found.instruction.perform found.addrMode
    { c with pc := c.pc + 1, currentOpcode := opcode, step := found.cycles }

/-- What `vrEmu6502Reset` does besides clearing the pins. -/
def restart (c : Cpu) : Action Cpu := do
  let pc ← read16 resetVec
  let flags := (c.flags &&& ~~~flagD) ||| flagI
  pure { c with
    pc, step := 0, wai := false, stp := false, currentOpcode := 0
    flags := flags ||| flagU ||| flagB }

/-- What the processor is wired to: its memory and its two interrupt pins. -/
structure Board (σ : Type) extends Bus.Device σ UInt16 UInt8 where
  intPin : σ → Bool
  nmiPin : σ → Bool
  clearNmi : σ → σ
  clearPins : σ → σ

variable {σ : Type} (b : Board σ)

def vrEmu6502Reset (c : Cpu) (s : σ) : σ × Cpu := (restart c).run b.toDevice (b.clearPins s)

/-- Interrupts are ignored during the one-cycle `nop`s. -/
def heeds (c : Cpu) : Bool := (opcodes c.currentOpcode).cycles != 1

def countDown (c : Cpu) : Cpu := if c.step ≠ 0 then { c with step := c.step - 1 } else c

/-- The part of a tick that fetches, unless the processor waits. -/
def fetch (c : Cpu) (s : σ) : σ × Cpu :=
  if c.wai then (s, countDown c)
  else
    let (s, c) := (execute c).run b.toDevice s
    (s, countDown c)

def vrEmu6502Tick (c : Cpu) (s : σ) : σ × Cpu :=
  if c.stp then (s, c)
  else if c.step ≠ 0 then (s, countDown c)
  else if heeds c ∧ b.nmiPin s then
    (beginInterrupt { c with wai := false } nmiVec).run b.toDevice (b.clearNmi s)
  else if heeds c ∧ b.intPin s then
    let c := { c with wai := false }
    if testBit c flagI then fetch b c s
    else (beginInterrupt c intVec).run b.toDevice s
  else fetch b c s

/-- `vrEmu6502InstCycle`, with the ticks it says it took. -/
def vrEmu6502InstCycle (c : Cpu) (s : σ) : (σ × Cpu) × UInt8 :=
  let (s, c) := vrEmu6502Tick b c s
  ((s, { c with step := 0 }), c.step + 1)

/-- The opcode that comes next. -/
def next (x : σ × Cpu) : UInt8 := (b.read x.1 x.2.pc).2

/-- The next tick takes an interrupt. -/
structure Interrupted (x : σ × Cpu) : Prop where
  running : x.2.stp = false
  between : x.2.step = 0
  heeded : heeds x.2 = true
  requested : b.nmiPin x.1 = true ∨ b.intPin x.1 = true ∧ testBit x.2 flagI = false

theorem or_and (x y g : UInt8) : (x ||| y) &&& g = x &&& g ||| y &&& g := by
  rw [← UInt8.toNat_inj]
  simp only [UInt8.toNat_and, UInt8.toNat_or, Nat.and_or_distrib_right]

section Operands

/-- The cycles that an addressing mode may take besides its opcode's. -/
def AddrMode.slack : AddrMode → Nat
  | axp | ayp | yip => 1
  | _ => 0

/-- What an addressing mode does to the processor: it moves the program counter. -/
structure Addressed (slack : Nat) (c c' : Cpu) : Prop where
  moved : ∃ pc, ∃ extra ≤ slack, c' = { c with pc, step := c.step + UInt8.ofNat extra }

variable {slack : Nat} {c c' : Cpu}

theorem Addressed.pc (c : Cpu) (pc : UInt16) : Addressed 0 c { c with pc } :=
  ⟨pc, 0, Nat.le_refl 0, by rw [show UInt8.ofNat 0 = 0 from rfl, UInt8.add_zero]⟩

theorem Addressed.crossed (c : Cpu) (pc addr1 addr2 : UInt16) :
    Addressed 1 c (pageBoundary { c with pc } addr1 addr2) := by
  refine ⟨pc, if (addr1 ^^^ addr2) &&& 0xff00 ≠ 0 then 1 else 0, ?_, ?_⟩
  · split <;> decide
  · rw [pageBoundary]
    split <;> rfl

theorem Addressed.flags (addressed : Addressed slack c c') : c'.flags = c.flags := by
  obtain ⟨pc, extra, -, rfl⟩ := addressed.moved
  rfl

theorem Addressed.ac (addressed : Addressed slack c c') : c'.ac = c.ac := by
  obtain ⟨pc, extra, -, rfl⟩ := addressed.moved
  rfl

theorem Addressed.testBit (addressed : Addressed slack c c') (flag : UInt8) :
    testBit c' flag = testBit c flag := by
  rw [VrEmu6502.testBit, addressed.flags]
  rfl

theorem addr_addressed (mode : AddrMode) (c : Cpu) :
    (mode.addr c).Always fun result => Addressed mode.slack c result.1 := by
  cases mode with
  | null => exact Addressed.pc c c.pc
  | ab => exact fun _ _ => .pc c _
  | abx => exact fun _ _ => .pc c _
  | aby => exact fun _ _ => .pc c _
  | axp => exact fun _ _ => .crossed c _ _ _
  | ayp => exact fun _ _ => .crossed c _ _ _
  | imm => exact Addressed.pc c _
  | ind => exact fun _ _ _ _ => .pc c _
  | indx => exact fun _ _ _ _ => .pc c _
  | rel => exact fun _ => .pc c _
  | xin => exact fun _ _ _ => .pc c _
  | yin => exact fun _ _ _ => .pc c _
  | yip => exact fun _ _ _ => .crossed c _ _ _
  | zp => exact fun _ => .pc c _
  | zpi => exact fun _ _ _ => .pc c _
  | zpx => exact fun _ => .pc c _
  | zpy => exact fun _ => .pc c _

theorem operand_addressed (mode : AddrMode) (c : Cpu) :
    (operand mode c).Always fun result => Addressed mode.slack c result.1 :=
  (addr_addressed mode c).bind fun _ addressed _ => addressed

end Operands

end Pi1MHz.VrEmu6502
