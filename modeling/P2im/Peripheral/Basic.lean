import P2im.Shared.Halt
import Mathlib.Tactic.SplitIfs
import Mathlib.Logic.Function.Basic

set_option autoImplicit false

/-!
# The peripheral model of the emulator

`include/peri-mod/peri-mod.h` and the level-1 functions of `hw/arm/peri-mod.c`: the list of
peripherals the firmware touched, each a file of registers of one size, with the SR-read events
loaded from a model file. C `int` fields are `Int`; `unsigned` and `target_ulong` fields are
`UInt32`; text buffers are lists of characters; a fixed array that is always allocated in full
is a function on its index type, and one of which only a prefix is used is a list of that prefix.
-/

namespace P2im

def pmPeriAddrRange : Nat := 512
def pmMaxRegNum : Nat := 128
def pmMaxEvtNum : Nat := 64
def pmMaxCrValByte : Nat := 256
def pmMaxSatisfyNum : Nat := 16
def pmMaxBitCombSz : Nat := 3
def pmSetBits : Nat := 3
def maxSrNum : Nat := 12
def consecNonSrRThreshold : Int := 100
def pmRandArrSize : Nat := 128
def pmRandMinSize : Nat := 1
def pmUncatReg : Int := 0x40
def pmUnmodSrrs : Int := 0x41
def srRThreshHold : Int := 4

/-- `pm_reg_type_t`. A model file can store any `int` in a register's type, so values outside
the enumeration are kept as they are. -/
inductive PmRegType where
  | uc | cr | sr | dr | crSr
  | other (code : Int) (outside : code < 0 ∨ 4 < code)
deriving DecidableEq, Repr

def PmRegType.toInt : PmRegType → Int
  | .uc => 0
  | .cr => 1
  | .sr => 2
  | .dr => 3
  | .crSr => 4
  | .other code _ => code

def PmRegType.ofInt (code : Int) : PmRegType :=
  if h : code < 0 ∨ 4 < code then .other code h
  else if code = 0 then .uc
  else if code = 1 then .cr
  else if code = 2 then .sr
  else if code = 3 then .dr
  else .crSr

@[simp] theorem PmRegType.ofInt_toInt (type : PmRegType) : PmRegType.ofInt type.toInt = type := by
  cases type with
  | other code outside => simp [ofInt, toInt, outside]
  | _ => decide

@[simp] theorem PmRegType.toInt_ofInt (code : Int) : (PmRegType.ofInt code).toInt = code := by
  unfold ofInt
  split_ifs <;> simp [toInt] <;> omega

/-- `pm_reg_pa_t`: what the previous register access was. -/
inductive PmRegPa where
  | regNever | regR | regW
deriving DecidableEq, Repr

/-- `pm_stage_t`. -/
inductive PmStage where
  | invalid | srRId | srRExplore | fuzzing
deriving DecidableEq, Repr

structure PmMMIORegister where
  type : PmRegType
  valB : Fin 4 → UInt8
  crVal : UInt32
  srLocked : Int
  rIdxInBbl : Int
  lastRBblCnt : UInt32
  read : Int
  write : Int

/-- A register as `memset` leaves it. -/
def PmMMIORegister.zero : PmMMIORegister := ⟨.uc, fun _ => 0, 0, 0, 0, 0, 0, 0⟩

/-- `pm_Event`: the SR values that satisfy one SR read site. -/
structure PmEvent where
  crVal : List Char
  bblE : UInt32
  srNum : Int
  setBits : Int
  satisfy : Fin pmMaxSatisfyNum → Fin pmMaxBitCombSz → Fin pmSetBits → Int
  satisfyNum : Int
  rIdx : Int
  curSatisfy : Int
  curSr : Int

def PmEvent.zero : PmEvent := ⟨[], 0, 0, 0, fun _ _ _ => 0, 0, 0, 0, 0⟩

/-- `pm_Peripheral`; `events` holds `events[0 .. evt_num)`. -/
structure PmPeripheral where
  baseAddr : UInt32
  regs : Fin pmMaxRegNum → PmMMIORegister
  maxRegIdx : Int
  drBytesNum : Int
  regSize : UInt32
  events : List PmEvent

/-- The base address of the peripheral range holding `regAddr`. The source masks with
`~(PM_PERI_ADDR_RANGE - 1)`, the same as this division for a range of `2^9` bytes. -/
def periBase (regAddr : UInt32) : UInt32 := regAddr / 512 * 512

/-- `create_peri`: a zeroed peripheral at the head of the list, with `DR_bytes_num` 2. -/
def createPeri (peris : List PmPeripheral) (regAddr : UInt32) : List PmPeripheral :=
  ⟨periBase regAddr, fun _ => .zero, 0, 2, 0, []⟩ :: peris

/-- The register at index `i` of the register file; past the array, C's behaviour is undefined. -/
def PmPeripheral.regAt (peri : PmPeripheral) (i : Nat) : Except Halt PmMMIORegister :=
  if h : i < pmMaxRegNum then .ok (peri.regs ⟨i, h⟩) else .error .undefined

def PmPeripheral.setReg (peri : PmPeripheral) (i : Fin pmMaxRegNum) (reg : PmMMIORegister) :
    PmPeripheral :=
  { peri with regs := Function.update peri.regs i reg }

def valBAt (reg : PmMMIORegister) (k : Nat) : Except Halt UInt8 :=
  if h : k < 4 then .ok (reg.valB ⟨k, h⟩) else .error .undefined

/-- The bytes of `val_b` from `off`, little-endian, as `ret_val |= val_b[off + i] << (i * 8)`
assembles them for `i < size`. -/
def readValB (reg : PmMMIORegister) (off : Nat) : Nat → Except Halt UInt32
  | 0 => .ok 0
  | i + 1 => do
    let low ← readValB reg off i
    let byte ← valBAt reg (off + i)
    pure (low ||| (byte.toUInt32 <<< (i.toUInt32 * 8)))

/-- `val_b[off + i] = (unsigned char)(wri_val >> (i * 8))` for `i < size`. -/
def writeValB (reg : PmMMIORegister) (off : Nat) (wriVal : UInt32) : Nat → Except Halt PmMMIORegister
  | 0 => .ok reg
  | i + 1 => do
    let reg ← writeValB reg off wriVal i
    if h : off + i < 4 then
      pure { reg with valB := Function.update reg.valB ⟨off + i, h⟩ (wriVal >>> (i.toUInt32 * 8)).toUInt8 }
    else .error .undefined

/-- The whole `val_b` as the 32-bit value `cr_val |= val_b[i_b] << (i_b * 8)` adds up. -/
def PmMMIORegister.valBWord (reg : PmMMIORegister) : UInt32 :=
  (reg.valB 0).toUInt32 ||| (reg.valB 1).toUInt32 <<< 8 ||| (reg.valB 2).toUInt32 <<< 16 |||
    (reg.valB 3).toUInt32 <<< 24

/-- `get_peri`: the position of the first peripheral whose base address is `regAddr`'s. -/
def getPeri (peris : List PmPeripheral) (regAddr : UInt32) : Option Nat :=
  peris.findIdx? fun peri => peri.baseAddr == periBase regAddr

/-- The part of `unassigned_mem_read/write` that finds the accessed peripheral, creating it with
the size of this first access when it is new. -/
def lookupPeri (peris : List PmPeripheral) (addr32 size : UInt32) : List PmPeripheral × Nat :=
  match getPeri peris addr32 with
  | some i => (peris, i)
  | none => ((createPeri peris addr32).modifyHead fun peri => { peri with regSize := size }, 0)

end P2im
