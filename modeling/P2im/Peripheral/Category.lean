import P2im.Peripheral.Access
import P2im.Shared.Outcome

set_option autoImplicit false

/-!
# Register categories and their locks

`reg_cat` in `unassigned_mem_read` and `unassigned_mem_write` changes the category of the
register an access reaches, and locks a register that polling turns into a status register.
This module states the change each handler makes as a function of the register (`readCat`,
`writeType`), and shows that no access unlocks a register or changes the category of a locked
one, from any state whose locks stand on status registers.
-/

namespace P2im

/-- `sr_locked != 0` only on an SR or a CR_SR. -/
def LockOk (reg : PmMMIORegister) : Prop := reg.srLocked ≠ 0 → reg.type = .sr ∨ reg.type = .crSr

def KeepsLock (reg reg' : PmMMIORegister) : Prop :=
  reg.srLocked ≠ 0 → reg'.type = reg.type ∧ reg'.srLocked = reg.srLocked

def LocksSound (peris : List PmPeripheral) : Prop := ∀ i r, LockOk ((periOf peris i).regs r)

def KeepsLocks (peris peris' : List PmPeripheral) : Prop :=
  ∃ k, peris'.length = k + peris.length ∧
    (∀ i, i < peris.length → (periOf peris' (k + i)).baseAddr = (periOf peris i).baseAddr) ∧
    ∀ i r, KeepsLock ((periOf peris i).regs r) ((periOf peris' (k + i)).regs r)

def LockStep (peris peris' : List PmPeripheral) : Prop :=
  LocksSound peris → LocksSound peris' ∧ KeepsLocks peris peris'

theorem keepsLock_refl (reg : PmMMIORegister) : KeepsLock reg reg := fun _ => ⟨rfl, rfl⟩

theorem keepsLock_trans {reg reg' reg'' : PmMMIORegister} (first : KeepsLock reg reg')
    (second : KeepsLock reg' reg'') : KeepsLock reg reg'' := by
  intro locked
  obtain ⟨type, lock⟩ := first locked
  obtain ⟨type', lock'⟩ := second (lock ▸ locked)
  exact ⟨type'.trans type, lock'.trans lock⟩

theorem keepsLocks_refl (peris : List PmPeripheral) : KeepsLocks peris peris :=
  ⟨0, by simp, fun i _ => by simp, fun i r => by simpa using keepsLock_refl _⟩

theorem keepsLocks_trans {peris peris' peris'' : List PmPeripheral} (first : KeepsLocks peris peris')
    (second : KeepsLocks peris' peris'') : KeepsLocks peris peris'' := by
  obtain ⟨k, length, base, keeps⟩ := first
  obtain ⟨k', length', base', keeps'⟩ := second
  refine ⟨k' + k, by omega, fun i inside => ?_, fun i r => ?_⟩
  · rw [Nat.add_assoc, base' (k + i) (by omega), base i inside]
  · rw [Nat.add_assoc]
    exact keepsLock_trans (keeps i r) (keeps' (k + i) r)

theorem lockStep_refl (peris : List PmPeripheral) : LockStep peris peris :=
  fun sound => ⟨sound, keepsLocks_refl peris⟩

theorem lockStep_trans {peris peris' peris'' : List PmPeripheral} (first : LockStep peris peris')
    (second : LockStep peris' peris'') : LockStep peris peris'' := by
  intro sound
  obtain ⟨sound', keeps⟩ := first sound
  obtain ⟨sound'', keeps'⟩ := second sound'
  exact ⟨sound'', keepsLocks_trans keeps keeps'⟩

theorem lockStep_of_regs {peris peris' : List PmPeripheral} (length : peris'.length = peris.length)
    (base : ∀ i, (periOf peris' i).baseAddr = (periOf peris i).baseAddr)
    (regs : LocksSound peris → ∀ i r,
      LockOk ((periOf peris' i).regs r) ∧ KeepsLock ((periOf peris i).regs r) ((periOf peris' i).regs r)) :
    LockStep peris peris' := by
  intro sound
  refine ⟨fun i r => (regs sound i r).1, 0, by omega, fun i _ => by simpa using base i, ?_⟩
  intro i r
  simpa using (regs sound i r).2

theorem keeps_of_sameCat {reg reg' : PmMMIORegister} (type : reg'.type = reg.type)
    (lock : reg'.srLocked = reg.srLocked) : LockOk reg → LockOk reg' ∧ KeepsLock reg reg' := by
  intro ok
  refine ⟨?_, fun _ => ⟨type, lock⟩⟩
  rw [LockOk, type, lock]
  exact ok

theorem lockStep_modifyRegs (peris : List PmPeripheral) (i : Nat) (r : Fin pmMaxRegNum)
    (f : PmMMIORegister → PmMMIORegister)
    (step : LockOk ((periOf peris i).regs r) →
      LockOk (f ((periOf peris i).regs r)) ∧ KeepsLock ((periOf peris i).regs r) (f ((periOf peris i).regs r))) :
    LockStep peris (modifyRegs peris i r f) := by
  refine lockStep_of_regs (by simp) (by simp) fun sound j r' => ?_
  rw [regs_modifyRegs]
  split
  next target =>
    obtain ⟨rfl, -, rfl⟩ := target
    exact step (sound i r)
  next => exact ⟨sound j r', keepsLock_refl _⟩

theorem lookupPeri_lockStep (peris : List PmPeripheral) (addr32 size : UInt32) :
    LockStep peris (lookupPeri peris addr32 size).1 := by
  unfold lookupPeri
  split
  · exact lockStep_refl peris
  · intro sound
    refine ⟨fun i r => ?_, 1, by simp [createPeri]; omega, fun i _ => ?_, fun i r => ?_⟩
    · cases i with
      | zero => simp [LockOk, createPeri, periOf, PmMMIORegister.zero]
      | succ i => simpa [createPeri, periOf] using sound i r
    · simp [createPeri, periOf, Nat.add_comm 1 i]
    · simpa [createPeri, periOf, Nat.add_comm 1 i] using keepsLock_refl _

theorem lockStep_modify_of_regs (peris : List PmPeripheral) (i : Nat)
    (f : PmPeripheral → PmPeripheral) (regs : ∀ peri, (f peri).regs = peri.regs)
    (base : ∀ peri, (f peri).baseAddr = peri.baseAddr) : LockStep peris (peris.modify i f) := by
  refine lockStep_of_regs (by simp) (fun j => ?_) fun sound j r => ?_
  · rw [periOf_modify]
    split
    · exact base _
    · rfl
  · rw [periOf_modify]
    split
    · rw [regs]
      exact ⟨sound j r, keepsLock_refl _⟩
    · exact ⟨sound j r, keepsLock_refl _⟩

def LockSafe (s : Emu) {α : Type} (st : α → Emu) (x : Except Stop α) : Prop :=
  Outcome.Ends Stop.state? (fun s s' => LockStep s.peris s'.peris) s st x

theorem emuLockStep_trans (a b c : Emu) (first : LockStep a.peris b.peris)
    (second : LockStep b.peris c.peris) : LockStep a.peris c.peris :=
  lockStep_trans first second

theorem lockSafe_bind {s : Emu} {α β : Type} {st₁ : α → Emu} {st₂ : β → Emu} {x : Except Stop α}
    {f : α → Except Stop β} (first : LockSafe s st₁ x)
    (rest : ∀ a, x = .ok a → LockSafe (st₁ a) st₂ (f a)) : LockSafe s st₂ (x >>= f) :=
  Outcome.ends_bind emuLockStep_trans first rest

theorem lockSafe_of_step {s s₁ : Emu} {α : Type} {st : α → Emu} {x : Except Stop α}
    (step : LockStep s.peris s₁.peris) (safe : LockSafe s₁ st x) : LockSafe s st x :=
  Outcome.ends_of_step emuLockStep_trans step safe

theorem lockSafe_liftHalt (s : Emu) {α : Type} (x : Except Halt α) :
    LockSafe s (fun _ => s) (liftHalt s x) := by
  apply Outcome.ends_mapError (fun s => lockStep_refl s.peris) (fun _ _ => rfl)
  intro h s' carried
  cases h <;> simp [Stop.ofHalt, Stop.state?] at carried
  subst carried
  exact lockStep_refl _

theorem locate_lockSafe (s : Emu) (addr size : Nat) : LockSafe s Prod.fst (locate s addr size) := by
  have found := lookupPeri_lockStep s.peris addr.toUInt32 size.toUInt32
  rcases lookup : lookupPeri s.peris addr.toUInt32 size.toUInt32 with ⟨peris, i⟩
  rw [lookup] at found
  unfold locate
  simp only [lookup, Emu.periAt_eq]
  by_cases zero : (periOf peris i).regSize.toNat = 0
  · rw [if_pos zero]
    simp [LockSafe, Stop.state?]
  · rw [if_neg zero]
    split
    · simp only [LockSafe, Outcome.ends_ok]
      split
      · exact lockStep_trans found (lockStep_modify_of_regs peris i _ (fun _ => rfl) (fun _ => rfl))
      · exact found
    · simp [LockSafe, Stop.state?]

theorem lockOk_unlocked {reg : PmMMIORegister} (ok : LockOk reg) (sr : reg.type ≠ .sr)
    (crSr : reg.type ≠ .crSr) : reg.srLocked = 0 := by
  by_contra locked
  rcases ok locked with type | type
  · exact sr type
  · exact crSr type

theorem keeps_of_unlocked {reg reg' : PmMMIORegister} (unlocked : reg.srLocked = 0)
    (ok : LockOk reg') : LockOk reg' ∧ KeepsLock reg reg' :=
  ⟨ok, fun locked => absurd unlocked locked⟩

theorem lockSafe_modifyReg (s : Emu) (i : Nat) (r : Fin pmMaxRegNum)
    (f : PmMMIORegister → PmMMIORegister)
    (step : LockOk ((periOf s.peris i).regs r) →
      LockOk (f ((periOf s.peris i).regs r)) ∧ KeepsLock ((periOf s.peris i).regs r) (f ((periOf s.peris i).regs r))) :
    LockStep s.peris (s.modifyReg i r f).peris :=
  lockStep_modifyRegs s.peris i r f step

theorem pollFixup_lockSafe (s : Emu) (t : Target) : LockSafe s id (pollFixup s t) := by
  unfold pollFixup
  split
  next cr =>
    simp only [LockSafe, Outcome.ends_pure, id]
    apply lockSafe_modifyReg
    intro ok
    exact keeps_of_unlocked (lockOk_unlocked ok (by simp_all) (by simp_all)) (fun _ => Or.inr rfl)
  next => simp [LockSafe, Stop.state?, lockStep_refl]
  next dr =>
    simp only [LockSafe, Outcome.ends_pure, id]
    apply lockSafe_modifyReg
    intro ok
    exact keeps_of_unlocked (lockOk_unlocked ok (by simp_all) (by simp_all)) (fun _ => Or.inl rfl)
  next => exact lockStep_refl s.peris
  next => exact lockStep_refl s.peris

theorem readCatStep_lockSafe (cfg : RunConfig) (s : Emu) (t : Target) (repeated : Bool) :
    LockSafe s id (readCatStep cfg s t repeated) := by
  unfold readCatStep
  split
  next uc =>
    simp only [LockSafe, Outcome.ends_pure, id]
    apply lockSafe_modifyReg
    intro ok
    have unlocked := lockOk_unlocked ok (by simp_all) (by simp_all)
    exact keeps_of_unlocked unlocked (fun locked => absurd unlocked locked)
  next =>
    split
    · dsimp only
      split
      · exact pollFixup_lockSafe _ t
      · exact lockStep_refl s.peris
    · exact lockStep_refl s.peris

theorem regCatRead_lockSafe (cfg : RunConfig) (s : Emu) (t : Target) :
    LockSafe s id (regCatRead cfg s t) := by
  unfold regCatRead
  apply lockSafe_of_step
    (lockSafe_modifyReg s t.periIdx t.regIdx (fun reg => { reg with read := 1 }) (keeps_of_sameCat rfl rfl))
  apply lockSafe_bind (readCatStep_lockSafe cfg _ t _)
  intro s' _
  split <;> exact lockStep_refl s'.peris

theorem regCatWrite_peris (cfg : RunConfig) (s : Emu) (t : Target) :
    (regCatWrite cfg s t).peris = modifyRegs s.peris t.periIdx t.regIdx fun reg =>
      { reg with
        write := 1
        type := writeType cfg.pmStage (s.paddr == t.addr32 && s.pa == .regR) reg } := by
  unfold regCatWrite
  dsimp only
  split <;> rfl

theorem writeType_keeps (stage : PmStage) (afterRead : Bool) (reg : PmMMIORegister) :
    LockOk reg → LockOk { reg with write := 1, type := writeType stage afterRead reg } ∧
      KeepsLock reg { reg with write := 1, type := writeType stage afterRead reg } := by
  intro ok
  unfold writeType
  split
  next uc =>
    have unlocked := lockOk_unlocked ok (by simp_all) (by simp_all)
    exact keeps_of_unlocked unlocked (fun locked => absurd unlocked locked)
  next =>
    split
    next toCr =>
      have unlocked : reg.srLocked = 0 := by
        by_contra locked
        rcases ok locked with type | type <;> simp_all
      exact keeps_of_unlocked unlocked (fun locked => absurd unlocked locked)
    next => exact keeps_of_sameCat rfl rfl ok

theorem regCatWrite_lockStep (cfg : RunConfig) (s : Emu) (t : Target) :
    LockStep s.peris (regCatWrite cfg s t).peris := by
  rw [regCatWrite_peris]
  exact lockStep_modifyRegs _ _ _ _ (writeType_keeps _ _ _)

theorem lockSafe_same {s : Emu} {α : Type} {st : α → Emu} {a : α} (same : (st a).peris = s.peris) :
    LockSafe s st (.ok a) := by
  show LockStep s.peris (st a).peris
  rw [same]
  exact lockStep_refl _

theorem lockSafe_of_peris_eq {s s₁ : Emu} {α : Type} {st : α → Emu} {x : Except Stop α}
    (same : s₁.peris = s.peris) (safe : LockSafe s₁ st x) : LockSafe s st x :=
  lockSafe_of_step (same ▸ lockStep_refl s.peris) safe

theorem lockSafe_exit {s s' : Emu} {α : Type} {st : α → Emu} {status : Int} {dumped : Bool}
    (same : s'.peris = s.peris) : LockSafe s st (.error (.exit status dumped s')) := by
  intro s'' carried
  cases carried
  rw [same]
  exact lockStep_refl _

theorem lockSafe_undefined {s : Emu} {α : Type} {st : α → Emu} :
    LockSafe s st (.error .undefined) := by
  intro s' carried
  cases carried

theorem pmRandLoop_lockSafe (s : Emu) (retVal : UInt32) (doneWorkP : Int) (k : Nat) :
    LockSafe s Prod.fst (pmRandLoop s retVal doneWorkP k) := by
  induction k generalizing s retVal doneWorkP with
  | zero => exact lockSafe_same rfl
  | succ k ih =>
    unfold pmRandLoop
    split
    · exact lockSafe_of_step (lockStep_refl s.peris) (ih _ _ _)
    · exact lockSafe_undefined

theorem loadPmRand_lockSafe (cfg : RunConfig) (s : Emu) :
    LockSafe s Prod.fst (loadPmRand cfg s) := by
  unfold loadPmRand
  split
  · exact lockSafe_same rfl
  · split
    · exact lockSafe_same rfl
    · exact lockSafe_same rfl
    · exact lockSafe_undefined
    · exact lockSafe_undefined

theorem pmRandRead_lockSafe (cfg : RunConfig) (s : Emu) (t : Target) :
    LockSafe s Prod.fst (pmRandRead cfg s t) := by
  unfold pmRandRead
  apply lockSafe_bind (loadPmRand_lockSafe cfg s)
  intro loaded _
  exact pmRandLoop_lockSafe _ _ _ _

theorem workerDrRead_lockSafe (cfg : RunConfig) (s : Emu) (t : Target) :
    LockSafe s Prod.fst (workerDrRead cfg s t) := by
  unfold workerDrRead
  split
  · exact lockSafe_same rfl
  · exact pmRandRead_lockSafe cfg s t

theorem drRead_lockSafe (cfg : RunConfig) (s : Emu) (t : Target) :
    LockSafe s Prod.fst (drRead cfg s t) := by
  unfold drRead
  split
  · split
    · exact lockSafe_same rfl
    · exact workerDrRead_lockSafe cfg s t
  · split
    · exact lockSafe_same rfl
    · exact workerDrRead_lockSafe cfg s t
  · exact workerDrRead_lockSafe cfg s t
  · exact lockSafe_same rfl

theorem modelRead_lockSafe (s : Emu) (t : Target) (ei : Nat) :
    LockSafe s Prod.fst (modelRead s t ei) := by
  unfold modelRead
  dsimp only
  split
  · apply lockSafe_bind (lockSafe_liftHalt s _)
    intro served _
    exact lockStep_modify_of_regs _ _ _ (fun _ => rfl) (fun _ => rfl)
  · exact lockSafe_undefined

theorem recordCrVals_lockSafe (s : Emu) (periIdx i k : Nat) :
    LockSafe s id (recordCrVals s periIdx i k) := by
  induction k generalizing s i with
  | zero => exact lockSafe_same rfl
  | succ k ih =>
    unfold recordCrVals
    split
    · exact lockSafe_of_step (lockSafe_modifyReg s _ _ _ (keeps_of_sameCat rfl rfl)) (ih _ _)
    · exact lockSafe_undefined

theorem recordSrRead_lockSafe (s : Emu) (t : Target) : LockSafe s id (recordSrRead s t) := by
  unfold recordSrRead
  split
  · exact lockSafe_exit rfl
  · split
    · apply lockSafe_of_step (lockStep_refl s.peris)
      apply lockSafe_bind (recordCrVals_lockSafe _ _ _ _)
      intro recorded _
      split <;> exact lockSafe_same rfl
    · exact lockSafe_undefined

theorem srRFileLoop_lockSafe (cfg : RunConfig) (s : Emu) (map : SrRMap) (retVal : UInt32)
    (k : Nat) : LockSafe s Prod.fst (srRFileLoop cfg s map retVal k) := by
  induction k generalizing map retVal with
  | zero => exact lockSafe_same rfl
  | succ k ih =>
    unfold srRFileLoop
    split
    · exact ih _ _
    · split
      · exact lockSafe_exit rfl
      · exact lockSafe_same rfl

theorem openSrRFile_lockSafe (cfg : RunConfig) (s : Emu) :
    LockSafe s (fun _ => s) (openSrRFile cfg s) := by
  unfold openSrRFile
  split
  · exact lockSafe_same rfl
  · exact lockSafe_same rfl
  · exact lockSafe_exit rfl

theorem srRFileRead_lockSafe (cfg : RunConfig) (s : Emu) :
    LockSafe s Prod.fst (srRFileRead cfg s) := by
  unfold srRFileRead
  apply lockSafe_bind (openSrRFile_lockSafe cfg s)
  intro map _
  apply lockSafe_bind (srRFileLoop_lockSafe cfg s map 0 4)
  intro read _
  exact lockSafe_same rfl

theorem valBRead_lockSafe (s : Emu) (t : Target) (size : Nat) :
    LockSafe s (fun _ => s) (valBRead s t size) :=
  lockSafe_liftHalt s _

theorem valBServe_lockSafe (s : Emu) (t : Target) (size : Nat) (doneWorkP : Int) :
    LockSafe s Prod.fst (do let retVal ← valBRead s t size; pure (s, retVal, doneWorkP)) :=
  lockSafe_bind (valBRead_lockSafe s t size) fun _ _ => lockSafe_same rfl

theorem srRead_lockSafe (cfg : RunConfig) (s : Emu) (t : Target) (size : Nat) :
    LockSafe s Prod.fst (srRead cfg s t size) := by
  unfold srRead
  dsimp only
  split
  · apply lockSafe_bind (lockSafe_liftHalt s _)
    intro found _
    split
    · exact lockSafe_bind (modelRead_lockSafe s t _) fun _ _ => lockSafe_same rfl
    · split
      · exact valBServe_lockSafe s t size 0
      · refine lockSafe_of_peris_eq ?_
          (lockSafe_bind (recordSrRead_lockSafe _ t) fun _ _ => lockSafe_same rfl)
        split <;> rfl
  · split
    · apply lockSafe_bind (lockSafe_liftHalt s _)
      intro found _
      split
      · exact lockSafe_bind (modelRead_lockSafe s t _) fun _ _ => lockSafe_same rfl
      · split
        · exact valBServe_lockSafe s t size 0
        · exact lockSafe_exit rfl
    · split
      · exact valBServe_lockSafe s t size 0
      · exact lockSafe_bind (srRFileRead_lockSafe cfg s) fun _ _ => lockSafe_same rfl
  · apply lockSafe_bind (lockSafe_liftHalt s _)
    intro found _
    split
    · exact lockSafe_bind (modelRead_lockSafe s t _) fun _ _ => lockSafe_same rfl
    · split
      · exact valBServe_lockSafe s t size 0
      · exact lockSafe_same (by split <;> rfl)
  · exact lockSafe_same rfl

theorem doneWork_lockSafe (cfg : RunConfig) (s : Emu) (val : Int) :
    LockSafe s id (doneWork cfg s val) := by
  unfold doneWork
  split
  · exact lockSafe_exit rfl
  · exact lockSafe_same rfl

theorem bumpRIdx_keeps (bblCnt : UInt32) (reg : PmMMIORegister) :
    LockOk reg → LockOk (bumpRIdx bblCnt reg) ∧ KeepsLock reg (bumpRIdx bblCnt reg) := by
  unfold bumpRIdx
  split <;> exact keeps_of_sameCat rfl rfl

theorem catRead_lockSafe (cfg : RunConfig) (s : Emu) (t : Target) :
    LockSafe s id (catRead cfg s t) := by
  unfold catRead
  split
  · exact regCatRead_lockSafe cfg s t
  · exact lockSafe_same rfl

theorem serveRead_lockSafe (cfg : RunConfig) (s : Emu) (t : Target) (size : Nat) :
    LockSafe s Prod.fst (serveRead cfg s t size) := by
  unfold serveRead
  split
  · exact lockSafe_same rfl
  · exact lockSafe_of_step (lockSafe_modifyReg s _ _ _ (bumpRIdx_keeps _ _))
      (valBServe_lockSafe _ t size 0)
  · exact lockSafe_of_step (lockSafe_modifyReg s _ _ _ (bumpRIdx_keeps _ _))
      (srRead_lockSafe cfg _ t size)
  · exact srRead_lockSafe cfg s t size
  · exact drRead_lockSafe cfg s t
  · exact lockSafe_same rfl

theorem finishRead_lockSafe (cfg : RunConfig) (s : Emu) (retVal : UInt32) (doneWorkP : Int) :
    LockSafe s Prod.fst (finishRead cfg s retVal doneWorkP) := by
  unfold finishRead
  split
  · exact lockSafe_bind (doneWork_lockSafe cfg s doneWorkP) fun _ _ => lockSafe_same rfl
  · exact lockSafe_same rfl

theorem unassignedMemRead_lockSafe (cfg : RunConfig) (s : Emu) (addr size : Nat) :
    LockSafe s Prod.fst (unassignedMemRead cfg s addr size) := by
  unfold unassignedMemRead
  split
  · apply lockSafe_bind (locate_lockSafe s addr size)
    rintro ⟨s1, t⟩ _
    apply lockSafe_bind (catRead_lockSafe cfg s1 t)
    intro s2 _
    apply lockSafe_bind (serveRead_lockSafe cfg s2 t size)
    rintro ⟨s3, retVal, doneWorkP⟩ _
    exact finishRead_lockSafe cfg s3 retVal doneWorkP
  · exact lockSafe_same rfl

theorem writeValB_keeps {s : Emu} {reg reg' : PmMMIORegister} {off : Nat} {wriVal : UInt32}
    {n : Nat} (written : liftHalt s (writeValB reg off wriVal n) = .ok reg') :
    LockOk reg → LockOk reg' ∧ KeepsLock reg reg' := by
  have kept := writeValB_frame (Except.mapError_eq_ok.mp written)
  rw [kept]
  exact keeps_of_sameCat rfl rfl

theorem catWrite_lockStep (cfg : RunConfig) (s : Emu) (t : Target) :
    LockStep s.peris (catWrite cfg s t).peris := by
  unfold catWrite
  split
  · exact regCatWrite_lockStep cfg s t
  · exact lockStep_refl _

theorem storeWrite_lockSafe (s : Emu) (t : Target) (wriVal : UInt32) (size : Nat) :
    LockSafe s id (liftHalt s (writeValB (s.regAt t.periIdx t.regIdx) t.off wriVal size) >>=
      fun reg => pure (s.modifyReg t.periIdx t.regIdx fun _ => reg)) := by
  apply lockSafe_bind (lockSafe_liftHalt _ _)
  intro reg written
  exact lockSafe_modifyReg s _ _ _ (writeValB_keeps written)

theorem serveWrite_lockSafe (cfg : RunConfig) (s : Emu) (t : Target) (wriVal : UInt32)
    (size : Nat) : LockSafe s id (serveWrite cfg s t wriVal size) := by
  unfold serveWrite
  split
  · exact lockSafe_of_peris_eq rfl (doneWork_lockSafe cfg _ _)
  · exact storeWrite_lockSafe s t wriVal size
  · exact storeWrite_lockSafe s t wriVal size
  · exact lockSafe_same rfl
  · exact lockSafe_same rfl
  · exact doneWork_lockSafe cfg s _

theorem unassignedMemWrite_lockSafe (cfg : RunConfig) (s : Emu) (addr val size : Nat) :
    LockSafe s id (unassignedMemWrite cfg s addr val size) := by
  unfold unassignedMemWrite
  split
  · apply lockSafe_bind (locate_lockSafe s addr size)
    rintro ⟨s1, t⟩ _
    exact lockSafe_of_step (catWrite_lockStep cfg s1 t) (serveWrite_lockSafe cfg _ t _ size)
  · exact lockSafe_same rfl

end P2im
