import P2im.Extraction.RegLocks
import P2im.Peripheral.Dump
import P2im.Peripheral.Locks

set_option autoImplicit false

/-!
# The lock discipline across the pipeline

A register locked as a status register stays one, with its lock, through every part of model
extraction that handles registers: the loader, every run of the emulator, the dump the scripts
read, `stage2_2` and the adjustment of an SR to a DR.
-/

namespace P2im

/-- The dictionary `json.load` makes of a dumped register. -/
def RegDict.ofReg (reg : PmMMIORegister) : RegDict :=
  if reg.type = .uc then RegDict.uc
  else ⟨reg.type.toInt, some reg.read, some reg.write,
    if reg.type = .sr ∨ reg.type = .crSr then some reg.srLocked else none,
    if reg.type = .cr ∨ reg.type = .crSr then some (hexKey reg.crVal) else none⟩

theorem ofJson_dumpReg (reg : PmMMIORegister) :
    RegDict.ofJson? (dumpReg reg) = some (RegDict.ofReg reg) := by
  unfold dumpReg RegDict.ofReg
  cases reg.type <;>
    simp [List.lookup, RegDict.ofJson?, Json.intMember?, Json.optIntMember?, Json.int?,
      RegDict.uc, PmRegType.toInt]

theorem ofReg_lock {reg : PmMMIORegister} (ok : LockOk reg) :
    (RegDict.ofReg reg).type = reg.type.toInt ∧ (RegDict.ofReg reg).lock = reg.srLocked := by
  unfold RegDict.ofReg
  by_cases srType : reg.type = .sr ∨ reg.type = .crSr
  · have notUc : reg.type ≠ .uc := by rcases srType with same | same <;> simp [same]
    simp [notUc, srType, RegDict.lock]
  · -- only a status register holds a lock
    have unlocked : reg.srLocked = 0 := by
      by_contra locked
      exact srType (ok locked)
    by_cases uc : reg.type = .uc
    · simp [uc, unlocked, RegDict.lock, RegDict.uc, PmRegType.toInt]
    · simp [uc, srType, unlocked, RegDict.lock]

theorem ofReg_lockOk {reg : PmMMIORegister} (ok : LockOk reg) : (RegDict.ofReg reg).LockOk := by
  obtain ⟨type, lock⟩ := ofReg_lock ok
  intro locked
  rw [lock] at locked
  rw [type]
  rcases ok locked with sr | crSr
  · simp [sr, PmRegType.toInt]
  · simp [crSr, PmRegType.toInt]

structure LockDiscipline : Prop where
  /-- A model file gives locks only to status registers, whatever the JSON library does. -/
  loaded : ∀ lib pmStage aflFile errno g g' root peris,
    pmLoadModel lib pmStage aflFile errno g root = .ok (peris, g') → LocksSound peris
  /-- Every state a run of the emulator ends or exits in keeps each lock, with its register's
  category, and the locks stay on status registers. -/
  run : ∀ cfg bc m evs, LockSafe m.emu Machine.emu (emuRun cfg bc m evs)
  /-- The dump gives the scripts each sound register's category and lock. -/
  dumped : ∀ reg, LockOk reg → ∃ d, RegDict.ofJson? (dumpReg reg) = some d ∧
    d.type = reg.type.toInt ∧ d.lock = reg.srLocked ∧ d.LockOk
  /-- `stage2_2` keeps each lock that every exploration run kept. -/
  merged : ∀ regs runs merged, RegsSound regs → (∀ new ∈ runs, RunKeeps regs new) →
    stage22Regs regs runs = .ok merged → RegsKeep regs merged ∧ RegsSound merged
  /-- The adjustment to a DR changes no locked register. -/
  adjusted : ∀ regs regs' srIdx, adjustSrToDr regs srIdx = .ok (some regs') →
    RegsKeep regs regs' ∧ (RegsSound regs → RegsSound regs')

theorem locked_status_registers_stay_locked : LockDiscipline where
  loaded _ _ _ _ _ _ _ _ loaded := pmLoadModel_locksSound loaded
  run cfg bc m evs := emuRun_lockSafe cfg bc m evs
  dumped reg ok :=
    ⟨RegDict.ofReg reg, ofJson_dumpReg reg, (ofReg_lock ok).1, (ofReg_lock ok).2, ofReg_lockOk ok⟩
  merged _ _ _ sound keeps updated := stage22Regs_keeps sound keeps updated
  adjusted _ _ _ adjusted := adjustSrToDr_keeps adjusted

def lockedSrPeri : PmPeripheral :=
  ⟨0x40000000, fun r => if r.val = 0 then { PmMMIORegister.zero with type := .sr, srLocked := 1 }
    else if r.val = 1 then { PmMMIORegister.zero with type := .cr } else .zero, 1, 2, 4, []⟩

theorem lockedSrPeri_sound : LocksSound [lockedSrPeri] := by
  intro i r
  cases i with
  | zero =>
    by_cases first : r.val = 0 <;> by_cases second : r.val = 1 <;>
      simp [periOf, lockedSrPeri, first, second, LockOk, PmMMIORegister.zero]
  | succ i => simp [periOf, LockOk, PmMMIORegister.zero, default]

def lockedSrBlock : List EmuEvent := [.blockStart 0x7ff0 0x10, .read 0x40000000 4, .write 0x40000000 5 4]

theorem locked_sr_survives_read_modify_write :
    ∃ m, emuRun ⟨.srRId, none, false, 0, 0, 0, none⟩ ⟨[], fun _ => true⟩ (Machine.init [lockedSrPeri])
        lockedSrBlock = .ok m ∧
      (m.emu.regAt 0 ⟨0, by decide⟩).type = .sr ∧ (m.emu.regAt 0 ⟨0, by decide⟩).srLocked = 1 := by
  obtain ⟨m, ran⟩ : ∃ m, emuRun ⟨.srRId, none, false, 0, 0, 0, none⟩ ⟨[], fun _ => true⟩
      (Machine.init [lockedSrPeri]) lockedSrBlock = .ok m := ⟨_, rfl⟩
  -- the run keeps the one peripheral where it was
  have one : m.emu.peris.length = 1 := by
    have counted := congrArg (fun r : Except Stop Machine =>
      (r.toOption.map fun m => m.emu.peris.length).getD 0) ran
    exact counted.symm.trans rfl
  have safe := locked_status_registers_stay_locked.run ⟨.srRId, none, false, 0, 0, 0, none⟩
    ⟨[], fun _ => true⟩ (Machine.init [lockedSrPeri]) lockedSrBlock
  rw [ran] at safe
  obtain ⟨-, k, length, -, keeps⟩ := safe lockedSrPeri_sound
  have noneBefore : k = 0 := by
    rw [one] at length
    simpa [Machine.init, Emu.init] using length
  subst noneBefore
  -- register 0 was a locked SR, so it stays one with its lock
  obtain ⟨type, lock⟩ := keeps 0 ⟨0, by decide⟩ (by decide)
  rw [Nat.zero_add] at type lock
  refine ⟨m, ran, ?_, ?_⟩
  · rw [Emu.regAt_eq, type]
    rfl
  · rw [Emu.regAt_eq, lock]
    rfl

end P2im
