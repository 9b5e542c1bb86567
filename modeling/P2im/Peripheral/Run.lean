import P2im.Peripheral.Mmio
import P2im.Interrupt.Table

set_option autoImplicit false

/-!
# Runs of the emulator

What the emulator does that concerns the peripheral model, as the steps of one machine: the start
and the end of each translated block (`cpu_exec` and `cpu_tb_exec` of `cpu-exec.c`), the register
accesses of `memory.c`, and the interrupts the interrupt controller enables and disables. A run
is any sequence of these steps; the firmware decides which, so every sequence is one. It ends
when the steps run out or one of them stops the process.
-/

namespace P2im

open Interrupt

/-- What the block steps read besides the access handlers' configuration: the return addresses
of the function that reads the SR, from the model file, and which addresses of the board's
memory map hold code (`0xfffffff0` and above always do). -/
structure BlockConfig where
  srFuncRetAddr : List UInt32
  legalPc : UInt32 → Bool

def fuzzingIntFreq : UInt32 := 1000
def srRWorkerBblCntCap : UInt32 := 20000
def meTermThreshold : UInt32 := 30000
def intRound : Int := 1

/-- The emulator's state: the access handlers' globals, the interrupt table with `int_round`, and
`bbl_cnt_last_me`. -/
structure Machine where
  emu : Emu
  ints : IntState
  bblCntLastMe : UInt32

def Machine.init (peris : List PmPeripheral) : Machine := ⟨Emu.init peris, IntState.init, 0⟩

inductive EmuEvent where
  | blockStart (pc size : UInt32)
  | blockEnd
  | read (addr size : Nat)
  | write (addr val size : Nat)
  | enable (excpNum : Int)
  | disable (excpNum : Int)

/-- `is_sr_func_ret_addr`: the array ends at its first 0. -/
def isSrFuncRetAddr (addrs : List UInt32) (pc : UInt32) : Bool :=
  (addrs.takeWhile fun addr => addr != 0).contains pc

/-- `stage_termination` dumps the model before the process exits with `status`. -/
def stageExit {α : Type} (m : Machine) (status : Int) : Except Stop α :=
  .error (.exit status true m.emu)

/-- `pm_fire_interrupt`. -/
def fire (m : Machine) : Except Stop Machine := do
  let (ints, _) ← liftHalt m.emu (intStep m.ints .fire)
  pure { m with ints }

/-- Before a block runs: an exploring worker ends when the SR-reading function returns, and code
outside the memory map ends the process. -/
def blockStart (cfg : RunConfig) (bc : BlockConfig) (m : Machine) (pc size : UInt32) :
    Except Stop Machine :=
  if cfg.pmStage = .srRExplore ∧ m.emu.explStarted ≠ 0 ∧
      (isSrFuncRetAddr bc.srFuncRetAddr pc ∨ 0xfffffff0 < pc) then stageExit m 0x21
  else
    let m := { m with emu := { m.emu with curBblS := pc, curBblE := pc + size } }
    if !bc.legalPc pc then .error (.exit (-1) false m.emu) else pure m

/-- An SR_R_ID run ends after the block that read an SR, with 0x19 when polling made that SR. -/
def srRIdEnd (cfg : RunConfig) (m : Machine) : Except Stop Machine :=
  if cfg.pmStage = .srRId ∧ m.emu.curBblSRRNum ≠ 0 then
    stageExit m (if m.emu.srCatByFixup ≠ 0 then 0x19 else 0x20)
  else pure m

/-- The end of a block while fuzzing or replaying the fuzzer's input: an interrupt every
`FUZZING_INT_FREQ` blocks once the fork server runs. -/
def replayBlockEnd (cfg : RunConfig) (m : Machine) : Except Stop Machine :=
  (if cfg.aflStartfsInvoked ∧ m.emu.bblCnt % fuzzingIntFreq = 0 then fire m else pure m) >>=
    srRIdEnd cfg

/-- An SR_R_EXPLORE worker starts exploring at the block of the SR read, and stops after
`SR_R_WORKER_BBL_CNT_CAP` more blocks as if the function had returned. -/
def exploreBlockEnd (cfg : RunConfig) (m : Machine) : Except Stop Machine :=
  if cfg.pmStage = .srRExplore then
    let started := decide (cfg.targetBblCnt ≤ m.emu.bblCnt)
    let m := { m with emu := { m.emu with explStarted := if started then 1 else 0 } }
    if started ∧ srRWorkerBblCntCap < m.emu.bblCnt - cfg.targetBblCnt then stageExit m 0x21
    else pure m
  else pure m

/-- During model extraction an interrupt fires every `ME_TERM_THRESHOLD` blocks, until each
fired `INT_ROUND` times, when an SR_R_ID run ends. -/
def meBlockEnd (cfg : RunConfig) (m : Machine) : Except Stop Machine :=
  if (cfg.pmStage = .srRId ∨ cfg.pmStage = .srRExplore) ∧
      meTermThreshold ≤ m.emu.bblCnt - m.bblCntLastMe then
    if m.ints.intRound < intRound then do
      let m ← fire m
      pure { m with bblCntLastMe := m.emu.bblCnt }
    else if cfg.pmStage = .srRId then stageExit m 0x30
    else pure m
  else pure m

def blockEnd (cfg : RunConfig) (m : Machine) : Except Stop Machine :=
  let m := { m with emu := { m.emu with bblCnt := m.emu.bblCnt + 1 } }
  if cfg.pmStage = .fuzzing ∨ (cfg.pmStage = .srRId ∨ cfg.pmStage = .srRExplore) ∧
      cfg.aflFile.isSome ∧ m.emu.bblCnt ≤ cfg.replayBblCnt then replayBlockEnd cfg m
  else srRIdEnd cfg m >>= exploreBlockEnd cfg >>= meBlockEnd cfg

def emuStep (cfg : RunConfig) (bc : BlockConfig) (m : Machine) : EmuEvent → Except Stop Machine
  | .blockStart pc size => blockStart cfg bc m pc size
  | .blockEnd => blockEnd cfg m
  | .read addr size => do
    let (emu, _) ← unassignedMemRead cfg m.emu addr size
    pure { m with emu }
  | .write addr val size => do
    let emu ← unassignedMemWrite cfg m.emu addr val size
    pure { m with emu }
  | .enable excpNum => do
    let (ints, _) ← liftHalt m.emu (intStep m.ints (.enable excpNum))
    pure { m with ints }
  | .disable excpNum => do
    let (ints, _) ← liftHalt m.emu (intStep m.ints (.disable excpNum))
    pure { m with ints }

def emuRun (cfg : RunConfig) (bc : BlockConfig) (m : Machine) : List EmuEvent → Except Stop Machine
  | [] => pure m
  | ev :: evs => do
    let m ← emuStep cfg bc m ev
    emuRun cfg bc m evs

end P2im
