import P2im.Peripheral.Category
import P2im.Peripheral.Run
import P2im.Peripheral.Load

set_option autoImplicit false

/-!
# Locks over whole runs

A model file gives the emulator registers whose locks stand on status registers, and every step
of a run keeps them so: the block steps and the interrupt controller touch no register, and the
access handlers keep the locks by `unassignedMemRead_lockSafe` and `unassignedMemWrite_lockSafe`.
-/

namespace P2im

open Interrupt

theorem fire_lockSafe (m : Machine) : LockSafe m.emu Machine.emu (fire m) := by
  unfold fire
  apply lockSafe_bind (lockSafe_liftHalt m.emu _)
  intro _ _
  exact lockSafe_same rfl

theorem srRIdEnd_lockSafe (cfg : RunConfig) (m : Machine) :
    LockSafe m.emu Machine.emu (srRIdEnd cfg m) := by
  unfold srRIdEnd stageExit
  split
  · exact lockSafe_exit rfl
  · exact lockSafe_same rfl

theorem blockStart_lockSafe (cfg : RunConfig) (bc : BlockConfig) (m : Machine) (pc size : UInt32) :
    LockSafe m.emu Machine.emu (blockStart cfg bc m pc size) := by
  unfold blockStart stageExit
  split
  · exact lockSafe_exit rfl
  · split
    · exact lockSafe_exit rfl
    · exact lockSafe_same rfl

theorem replayBlockEnd_lockSafe (cfg : RunConfig) (m : Machine) :
    LockSafe m.emu Machine.emu (replayBlockEnd cfg m) := by
  have fired : LockSafe m.emu Machine.emu
      (if cfg.aflStartfsInvoked ∧ m.emu.bblCnt % fuzzingIntFreq = 0 then fire m else pure m) := by
    split
    · exact fire_lockSafe m
    · exact lockSafe_same rfl
  exact lockSafe_bind fired fun m' _ => srRIdEnd_lockSafe cfg m'

theorem exploreBlockEnd_lockSafe (cfg : RunConfig) (m : Machine) :
    LockSafe m.emu Machine.emu (exploreBlockEnd cfg m) := by
  unfold exploreBlockEnd stageExit
  dsimp only
  split
  · split
    · exact lockSafe_exit rfl
    · exact lockSafe_same rfl
  · exact lockSafe_same rfl

theorem meBlockEnd_lockSafe (cfg : RunConfig) (m : Machine) :
    LockSafe m.emu Machine.emu (meBlockEnd cfg m) := by
  unfold meBlockEnd stageExit
  split
  · split
    · exact lockSafe_bind (fire_lockSafe m) fun _ _ => lockSafe_same rfl
    · split
      · exact lockSafe_exit rfl
      · exact lockSafe_same rfl
  · exact lockSafe_same rfl

theorem blockEnd_lockSafe (cfg : RunConfig) (m : Machine) :
    LockSafe m.emu Machine.emu (blockEnd cfg m) := by
  unfold blockEnd
  -- counting the block changes no register
  dsimp only
  split
  · exact replayBlockEnd_lockSafe cfg _
  · apply lockSafe_bind (lockSafe_bind (srRIdEnd_lockSafe cfg _) fun m' _ =>
      exploreBlockEnd_lockSafe cfg m')
    intro m' _
    exact meBlockEnd_lockSafe cfg m'

theorem emuStep_lockSafe (cfg : RunConfig) (bc : BlockConfig) (m : Machine) (ev : EmuEvent) :
    LockSafe m.emu Machine.emu (emuStep cfg bc m ev) := by
  cases ev with
  | blockStart pc size => exact blockStart_lockSafe cfg bc m pc size
  | blockEnd => exact blockEnd_lockSafe cfg m
  | read addr size =>
    apply lockSafe_bind (unassignedMemRead_lockSafe cfg m.emu addr size)
    intro _ _
    exact lockSafe_same rfl
  | write addr val size =>
    apply lockSafe_bind (unassignedMemWrite_lockSafe cfg m.emu addr val size)
    intro _ _
    exact lockSafe_same rfl
  | enable excpNum =>
    apply lockSafe_bind (lockSafe_liftHalt m.emu _)
    intro _ _
    exact lockSafe_same rfl
  | disable excpNum =>
    apply lockSafe_bind (lockSafe_liftHalt m.emu _)
    intro _ _
    exact lockSafe_same rfl

theorem emuRun_lockSafe (cfg : RunConfig) (bc : BlockConfig) (m : Machine) (evs : List EmuEvent) :
    LockSafe m.emu Machine.emu (emuRun cfg bc m evs) := by
  induction evs generalizing m with
  | nil => exact lockSafe_same rfl
  | cons ev evs ih =>
    apply lockSafe_bind (emuStep_lockSafe cfg bc m ev)
    intro m' _
    exact ih m'

section Load

variable {lib : Jansson}

theorem loadSrLocked_lockOk {type : PmRegType} {jreg : Json} {srLocked : Int}
    (loaded : loadSrLocked lib type jreg = .ok srLocked) : srLocked ≠ 0 → type = .sr ∨ type = .crSr := by
  unfold loadSrLocked at loaded
  intro nonzero
  split at loaded
  · assumption
  · cases loaded
    exact absurd rfl nonzero

theorem loadReg_lockOk {jreg : Json} {reg : PmMMIORegister} (loaded : loadReg lib jreg = .ok reg) :
    LockOk reg := by
  unfold loadReg at loaded
  obtain ⟨type, -, rest⟩ := Except.bind_eq_ok.mp loaded
  obtain ⟨read, -, rest⟩ := Except.bind_eq_ok.mp rest
  obtain ⟨write, -, rest⟩ := Except.bind_eq_ok.mp rest
  obtain ⟨srLocked, locked, built⟩ := Except.bind_eq_ok.mp rest
  cases built
  exact loadSrLocked_lockOk locked

theorem loadRegs_lockOk {j : Nat} {jregs : List Json} {regs : List PmMMIORegister}
    (loaded : loadRegs lib j jregs = .ok regs) : ∀ reg ∈ regs, LockOk reg := by
  induction jregs generalizing j regs with
  | nil =>
    cases loaded
    simp
  | cons jreg rest ih =>
    obtain ⟨_, -, after⟩ := Except.bind_eq_ok.mp loaded
    obtain ⟨reg, first, after⟩ := Except.bind_eq_ok.mp after
    obtain ⟨regs', others, built⟩ := Except.bind_eq_ok.mp after
    cases built
    intro reg' mem
    rcases List.mem_cons.mp mem with same | later
    · exact same ▸ loadReg_lockOk first
    · exact ih others reg' later

theorem lockOk_zero : LockOk PmMMIORegister.zero := fun unlocked => absurd rfl unlocked

theorem regsOf_lockOk {regs : List PmMMIORegister} (all : ∀ reg ∈ regs, LockOk reg)
    (r : Fin pmMaxRegNum) : LockOk (regsOf regs r) := by
  unfold regsOf
  rw [List.getD_eq_getElem?_getD]
  cases found : regs[r.val]? with
  | none => exact lockOk_zero
  | some reg => exact all reg (List.mem_of_getElem? found)

theorem loadPeri_regs {errno : Int} {baseAddr : String} {jperi : Json}
    {loaded : PmPeripheral × Int} (ok : loadPeri lib errno baseAddr jperi = .ok loaded) :
    ∃ jregs regs, loadRegs lib 0 jregs = .ok regs ∧ loaded.1.regs = regsOf regs := by
  unfold loadPeri at ok
  obtain ⟨drBytesNum, -, rest⟩ := Except.bind_eq_ok.mp ok
  obtain ⟨regSize, -, rest⟩ := Except.bind_eq_ok.mp rest
  obtain ⟨jregs, -, rest⟩ := Except.bind_eq_ok.mp rest
  obtain ⟨jevents, -, rest⟩ := Except.bind_eq_ok.mp rest
  obtain ⟨_, -, rest⟩ := Except.bind_eq_ok.mp rest
  obtain ⟨regs, regsLoaded, rest⟩ := Except.bind_eq_ok.mp rest
  obtain ⟨_, -, rest⟩ := Except.bind_eq_ok.mp rest
  obtain ⟨st, -, built⟩ := Except.bind_eq_ok.mp rest
  cases built
  exact ⟨_, regs, regsLoaded, rfl⟩

theorem locksSound_cons {peri : PmPeripheral} {plist : List PmPeripheral}
    (ok : ∀ r, LockOk (peri.regs r)) (sound : LocksSound plist) : LocksSound (peri :: plist) := by
  intro i r
  cases i with
  | zero => exact ok r
  | succ i => exact sound i r

theorem locksSound_nil : LocksSound [] := fun _ _ => lockOk_zero

theorem loadPeris_locksSound {plist peris : List PmPeripheral} {errno : Int}
    {members : List (String × Json)} (sound : LocksSound plist)
    (loaded : loadPeris lib plist errno members = .ok peris) : LocksSound peris := by
  induction members generalizing plist errno with
  | nil =>
    cases loaded
    exact sound
  | cons member rest ih =>
    obtain ⟨peri, first, after⟩ := Except.bind_eq_ok.mp loaded
    obtain ⟨jregs, regs, regsLoaded, same⟩ := loadPeri_regs first
    have ok : ∀ r, LockOk (peri.1.regs r) := by
      rw [same]
      exact regsOf_lockOk (loadRegs_lockOk regsLoaded)
    exact ih (locksSound_cons ok sound) after

theorem pmLoadModel_locksSound {pmStage : PmStage} {aflFile : Bool} {errno : Int}
    {g g' : LoadGlobals} {root : Option Json} {peris : List PmPeripheral}
    (loaded : pmLoadModel lib pmStage aflFile errno g root = .ok (peris, g')) : LocksSound peris := by
  unfold pmLoadModel at loaded
  obtain ⟨_, -, rest⟩ := Except.bind_eq_ok.mp loaded
  obtain ⟨_, -, rest⟩ := Except.bind_eq_ok.mp rest
  obtain ⟨_, -, rest⟩ := Except.bind_eq_ok.mp rest
  obtain ⟨_, -, rest⟩ := Except.bind_eq_ok.mp rest
  obtain ⟨plist, periLoaded, rest⟩ := Except.bind_eq_ok.mp rest
  obtain ⟨_, -, rest⟩ := Except.bind_eq_ok.mp rest
  obtain ⟨_, -, built⟩ := Except.bind_eq_ok.mp rest
  cases built
  exact loadPeris_locksSound locksSound_nil periLoaded

end Load

end P2im
