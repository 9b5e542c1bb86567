import P2im.Peripheral.Run
import P2im.Peripheral.Category

set_option autoImplicit false

/-!
# The SR reads of a block

In stage SR_R_ID an SR read that no event serves is recorded in `stage_term_reg_idx`, and the
block that made such a record ends the run. A write right after a read of the same SR that
turns it into a CR takes the last record off again. A CR_SR read that no event serves is an SR
read only while `handle_hybrid_SR_way` is set, which the polling fix-up of any register sets.
The same write after a read makes a DR a CR while a model is extracted, and a FUZZING worker,
which does not categorise, keeps it a DR: a replay of the worker's run then reads back the value
written where the worker read its input.
-/

namespace P2im

/-! ## What the model lookup reads -/

structure SameKey (peri peri' : PmPeripheral) : Prop where
  events : peri'.events = peri.events
  maxRegIdx : peri'.maxRegIdx = peri.maxRegIdx
  type : ∀ r, (peri'.regs r).type = (peri.regs r).type
  valBWord : ∀ r, (peri'.regs r).valBWord = (peri.regs r).valBWord

theorem crValLoop_congr {peri peri' : PmPeripheral} (same : SameKey peri peri') :
    ∀ (i : Nat) (printed : List Char) (k : Nat),
      crValLoop peri' i printed k = crValLoop peri i printed k
  | _, _, 0 => rfl
  | i, printed, k + 1 => by
    by_cases inside : i < pmMaxRegNum
    · have reg : ∀ p : PmPeripheral, p.regAt i = .ok (p.regs ⟨i, inside⟩) := fun p => by
        simp [PmPeripheral.regAt, inside]
      simp only [crValLoop, reg, Except.ok_bind, same.type, same.valBWord]
      split
      · split
        · rfl
        · exact crValLoop_congr same _ _ k
      · exact crValLoop_congr same _ _ k
    · have reg : ∀ p : PmPeripheral, p.regAt i = .error .undefined := fun p => by
        simp [PmPeripheral.regAt, inside]
      simp only [crValLoop, reg]
      rfl

theorem pmSRFindModel_congr {peri peri' : PmPeripheral} {reg reg' : PmMMIORegister} (bblE : UInt32)
    (same : SameKey peri peri') (type : reg'.type = reg.type) (rIdx : reg'.rIdxInBbl = reg.rIdxInBbl) :
    pmSRFindModel bblE peri' reg' = pmSRFindModel bblE peri reg := by
  simp only [pmSRFindModel, crValKey, same.maxRegIdx, crValLoop_congr same, same.events, type, rIdx]

theorem sameKey_modifyRegs (peris : List PmPeripheral) (i j : Nat) (r : Fin pmMaxRegNum)
    (f : PmMMIORegister → PmMMIORegister) (keeps : ∀ reg, (f reg).type = reg.type ∧ (f reg).valB = reg.valB) :
    SameKey (periOf peris j) (periOf (modifyRegs peris i r f) j) := by
  refine ⟨events_modifyRegs .., maxRegIdx_modifyRegs .., fun r' => ?_, fun r' => ?_⟩ <;>
    rw [regs_modifyRegs] <;> split
  · exact (keeps _).1
  · rfl
  · simp only [PmMMIORegister.valBWord, (keeps _).2]
  · rfl

theorem SameKey.trans {peri peri' peri'' : PmPeripheral} (first : SameKey peri peri')
    (second : SameKey peri' peri'') : SameKey peri peri'' :=
  ⟨second.events.trans first.events, second.maxRegIdx.trans first.maxRegIdx,
    fun r => (second.type r).trans (first.type r), fun r => (second.valBWord r).trans (first.valBWord r)⟩

/-! ## Where an access lands -/

def layout (peris : List PmPeripheral) : List (UInt32 × UInt32 × Int) :=
  peris.map fun peri => (peri.baseAddr, peri.regSize, peri.maxRegIdx)

theorem layout_modify (peris : List PmPeripheral) (i : Nat) (f : PmPeripheral → PmPeripheral)
    (keeps : ∀ peri, (f peri).baseAddr = peri.baseAddr ∧ (f peri).regSize = peri.regSize ∧
      (f peri).maxRegIdx = peri.maxRegIdx) :
    layout (peris.modify i f) = layout peris := by
  apply List.ext_getElem (by simp [layout])
  intro j _ within
  have inside : j < peris.length := by simpa [layout] using within
  simp only [layout, List.getElem_map, List.getElem_modify]
  split
  · obtain ⟨base, size, top⟩ := keeps peris[j]
    rw [base, size, top]
  · rfl

theorem layout_modifyRegs (peris : List PmPeripheral) (i : Nat) (r : Fin pmMaxRegNum)
    (f : PmMMIORegister → PmMMIORegister) : layout (modifyRegs peris i r f) = layout peris :=
  layout_modify peris i _ fun _ => ⟨rfl, rfl, rfl⟩

theorem getPeri_layout {peris peris' : List PmPeripheral} (same : layout peris' = layout peris)
    (regAddr : UInt32) : getPeri peris' regAddr = getPeri peris regAddr := by
  have through : ∀ ps : List PmPeripheral,
      getPeri ps regAddr = (layout ps).findIdx? fun x => x.1 == periBase regAddr := by
    intro ps
    simp only [getPeri, layout, List.findIdx?_map]
    rfl
  rw [through, through, same]

theorem periOf_layout {peris peris' : List PmPeripheral} (same : layout peris' = layout peris)
    (i : Nat) : (periOf peris' i).regSize = (periOf peris i).regSize ∧
      (periOf peris' i).maxRegIdx = (periOf peris i).maxRegIdx := by
  have entry := congrArg (fun l => l[i]?) same
  simp only [layout, List.getElem?_map] at entry
  unfold periOf
  rw [List.getD_eq_getElem?_getD, List.getD_eq_getElem?_getD]
  cases here : peris[i]? <;> cases there : peris'[i]? <;> simp_all

theorem regIndex_lt (addr : UInt32) (regSize : Nat) :
    addr.toNat % pmPeriAddrRange / regSize < 4294967296 :=
  Nat.lt_of_le_of_lt (Nat.div_le_self _ _) (Nat.lt_of_lt_of_le (Nat.mod_lt _ (by decide)) (by decide))

theorem locate_layout {s s' : Emu} {addr size : Nat} {t : Target}
    (located : locate s addr size = .ok (s, t)) (same : layout s'.peris = layout s.peris) :
    locate s' addr size = .ok (s', t) := by
  unfold locate at located ⊢
  cases found : getPeri s.peris addr.toUInt32 with
  | none =>
    -- a new peripheral would make the list longer
    simp only [lookupPeri, found, Emu.periAt_eq, Emu.modifyPeri_eq] at located
    split at located
    · cases located
    · split at located
      · simp only [Except.ok.injEq, Prod.mk.injEq] at located
        have longer := congrArg (fun s : Emu => s.peris.length) located.1
        split at longer <;> simp [createPeri] at longer
      · cases located
  | some i =>
    have found' := getPeri_layout same addr.toUInt32
    rw [found] at found'
    obtain ⟨size', top'⟩ := periOf_layout same i
    have inside : i < s.peris.length := (List.findIdx?_eq_some_iff_findIdx_eq.mp found).1
    simp only [lookupPeri, found, found', Emu.periAt_eq, Emu.modifyPeri_eq, size', top'] at located ⊢
    split at located
    · cases located
    · rename_i nonzero
      rw [if_neg nonzero]
      split at located
      · rename_i below
        split at located
        · -- raising the highest index would change the peripheral
          rename_i raised
          simp only [Except.ok.injEq, Prod.mk.injEq] at located
          have top := congrArg (fun s : Emu => (periOf s.peris i).maxRegIdx) located.1
          simp only [periOf_modify_self _ _ _ inside] at top
          have small := regIndex_lt addr.toUInt32 (periOf s.peris i).regSize.toNat
          rw [← top] at raised
          unfold toUnsigned at raised
          omega
        · rename_i low
          simp only [Except.ok.injEq, Prod.mk.injEq] at located
          rw [dif_pos below, if_neg low, ← located.2]
      · cases located

/-! ## The categorisation and the SR case of a read -/

/-- What the categorisation of a read leaves when the access before it was not a read of the
same address: the register marked read, and the access recorded. -/
def Emu.readMarked (s : Emu) (t : Target) : Emu :=
  { s.modifyReg t.periIdx t.regIdx (fun reg => { reg with read := 1 }) with
    consecSameRegR := 0, paddr := t.addr32, pa := .regR
    pregType := (s.regAt t.periIdx t.regIdx).type, pbblE := s.curBblE }

section ReadMarked

variable {s : Emu} {t : Target}

@[simp] theorem readMarked_globals :
    (s.readMarked t).curBblE = s.curBblE ∧ (s.readMarked t).curBblSRRNum = s.curBblSRRNum ∧
      (s.readMarked t).stageTermRegIdx = s.stageTermRegIdx ∧
      (s.readMarked t).handleHybridSRWay = s.handleHybridSRWay ∧ (s.readMarked t).bblCnt = s.bblCnt ∧
      (s.readMarked t).paddr = t.addr32 ∧ (s.readMarked t).pa = .regR :=
  ⟨rfl, rfl, rfl, rfl, rfl, rfl, rfl⟩

theorem readMarked_regAt (inside : t.periIdx < s.peris.length) :
    (s.readMarked t).regAt t.periIdx t.regIdx = { s.regAt t.periIdx t.regIdx with read := 1 } := by
  simp [Emu.readMarked, inside]

theorem readMarked_sameKey (i : Nat) : SameKey (s.periAt i) ((s.readMarked t).periAt i) :=
  sameKey_modifyRegs s.peris t.periIdx i t.regIdx (fun reg => { reg with read := 1 })
    fun _ => ⟨rfl, rfl⟩

theorem readMarked_layout : layout (s.readMarked t).peris = layout s.peris :=
  layout_modifyRegs s.peris t.periIdx t.regIdx fun reg => { reg with read := 1 }

end ReadMarked

theorem regCatRead_unpolled (cfg : RunConfig) {s : Emu} {t : Target}
    (inside : t.periIdx < s.peris.length) (categorised : (s.regAt t.periIdx t.regIdx).type ≠ .uc)
    (unpolled : ¬ (s.paddr = t.addr32 ∧ s.pa = .regR)) :
    regCatRead cfg s t = .ok (s.readMarked t) := by
  have fresh : (s.paddr == t.addr32 && s.pa == .regR) = false := by
    by_cases same : s.paddr = t.addr32
    · simpa [same] using unpolled
    · simp [same]
  simp only [Emu.regAt_eq] at categorised
  simp [regCatRead, readCatStep, fresh, categorised, inside, Emu.readMarked]

theorem unassignedMemRead_unpolled {cfg : RunConfig} (meEna : cfg.pmMeEna = true) {s : Emu}
    {addr size : Nat} {t : Target} (inRange : 0x40000000 ≤ addr ∧ addr < 0x60000000)
    (located : locate s addr size = .ok (s, t))
    (categorised : (s.regAt t.periIdx t.regIdx).type ≠ .uc)
    (unpolled : ¬ (s.paddr = t.addr32 ∧ s.pa = .regR)) :
    unassignedMemRead cfg s addr size = serveRead cfg (s.readMarked t) t size >>=
      fun (s, retVal, doneWorkP) => finishRead cfg s retVal doneWorkP := by
  have inside := (locate_frame located).2.2
  simp only [unassignedMemRead, if_pos inRange, located, Except.ok_bind, catRead, meEna, if_true,
    regCatRead_unpolled cfg inside categorised unpolled]

theorem srRead_modelled {cfg : RunConfig} (srRId : cfg.pmStage = .srRId) {s s' : Emu} {t : Target}
    {size ei : Nat} {v : UInt32} {doneWorkP : Int}
    (found : pmSRFindModel s.curBblE (s.periAt t.periIdx) (s.regAt t.periIdx t.regIdx) = .ok (some ei))
    (served : srRead cfg s t size = .ok (s', v, doneWorkP)) :
    doneWorkP = 0 ∧ ∃ e, s' = s.modifyPeri t.periIdx fun peri => { peri with events := peri.events.set ei e } := by
  simp only [srRead, srRId, liftHalt, found, Except.mapError, Except.ok_bind] at served
  obtain ⟨⟨s₁, v₁⟩, read, rest⟩ := Except.bind_eq_ok.mp served
  simp only [Except.pure_eq_ok, Except.ok.injEq, Prod.mk.injEq] at rest
  obtain ⟨rfl, -, rfl⟩ := rest
  simp only [modelRead] at read
  split at read
  · obtain ⟨⟨e, v₂⟩, -, done⟩ := Except.bind_eq_ok.mp read
    simp only [Except.pure_eq_ok, Except.ok.injEq, Prod.mk.injEq] at done
    exact ⟨rfl, e, done.1.symm⟩
  · cases read

theorem recordCrVals_frame {s s' : Emu} {periIdx i k : Nat} (ok : recordCrVals s periIdx i k = .ok s') :
    s' = { s with peris := s'.peris } := by
  induction k generalizing s i with
  | zero =>
    cases ok
    rfl
  | succ k ih =>
    unfold recordCrVals at ok
    split at ok
    · simp only at ok
      rw [ih ok]
      rfl
    · cases ok

theorem recordSrRead_slot {s s' : Emu} {t : Target} (ok : recordSrRead s t = .ok s') :
    s'.curBblSRRNum = s.curBblSRRNum + 1 ∧ 0 ≤ s.curBblSRRNum ∧
      ∀ slot : Fin maxSrNum, s'.stageTermRegIdx slot =
        if (slot : Int) = s.curBblSRRNum then (t.regIdx : Int) else s.stageTermRegIdx slot := by
  unfold recordSrRead at ok
  split at ok
  · cases ok
  · split at ok
    · rename_i range
      obtain ⟨s₁, crVals, rest⟩ := Except.bind_eq_ok.mp ok
      have frame := recordCrVals_frame crVals
      simp only [Except.pure_eq_ok, Except.ok.injEq] at rest
      have keep : s'.curBblSRRNum = s₁.curBblSRRNum ∧ s'.stageTermRegIdx = s₁.stageTermRegIdx := by
        rw [← rest]
        split <;> exact ⟨rfl, rfl⟩
      rw [keep.1, keep.2, frame]
      refine ⟨rfl, range.1, fun slot => ?_⟩
      simp only [Function.update_apply, Fin.ext_iff]
      congr 1
      apply propext
      omega
    · cases ok

theorem type_bumpRIdx (bblCnt : UInt32) (reg : PmMMIORegister) :
    (bumpRIdx bblCnt reg).type = reg.type := by
  unfold bumpRIdx
  split <;> rfl

theorem valB_bumpRIdx (bblCnt : UInt32) (reg : PmMMIORegister) :
    (bumpRIdx bblCnt reg).valB = reg.valB := by
  unfold bumpRIdx
  split <;> rfl

theorem rIdxInBbl_bumpRIdx_read (bblCnt : UInt32) (reg : PmMMIORegister) :
    (bumpRIdx bblCnt { reg with read := 1 }).rIdxInBbl = (bumpRIdx bblCnt reg).rIdxInBbl := by
  unfold bumpRIdx
  by_cases same : bblCnt = reg.lastRBblCnt <;> simp [same]

theorem unassignedMemRead_cr {cfg : RunConfig} (meEna : cfg.pmMeEna = true) {s : Emu}
    {addr size : Nat} {t : Target} {v : UInt32} (inRange : 0x40000000 ≤ addr ∧ addr < 0x60000000)
    (located : locate s addr size = .ok (s, t)) (cr : (s.regAt t.periIdx t.regIdx).type = .cr)
    (unpolled : ¬ (s.paddr = t.addr32 ∧ s.pa = .regR))
    (stored : readValB (s.regAt t.periIdx t.regIdx) t.off size = .ok v) :
    ∃ s', unassignedMemRead cfg s addr size = .ok (s', v) := by
  have inside := (locate_frame located).2.2
  have marked := readMarked_regAt (s := s) inside
  have length : (s.readMarked t).peris.length = s.peris.length := by simp [Emu.readMarked]
  -- the read moves the register's read index and leaves its bytes
  have moved : ((s.readMarked t).modifyReg t.periIdx t.regIdx (bumpRIdx (s.readMarked t).bblCnt)).regAt
      t.periIdx t.regIdx = bumpRIdx (s.readMarked t).bblCnt ((s.readMarked t).regAt t.periIdx t.regIdx) := by
    simp [length ▸ inside]
  have bytes : readValB (((s.readMarked t).modifyReg t.periIdx t.regIdx
      (bumpRIdx (s.readMarked t).bblCnt)).regAt t.periIdx t.regIdx) t.off size = .ok v := by
    rw [← stored, moved]
    exact readValB_congr (by rw [valB_bumpRIdx, marked]) t.off size
  have served : serveRead cfg (s.readMarked t) t size =
      .ok ((s.readMarked t).modifyReg t.periIdx t.regIdx (bumpRIdx (s.readMarked t).bblCnt), v, 0) := by
    simp only [serveRead, marked, cr, valBRead, liftHalt, bytes, Except.mapError, Except.ok_bind,
      Except.pure_eq_ok]
  rw [unassignedMemRead_unpolled meEna inRange located (by rw [cr]; decide) unpolled, served]
  exact ⟨_, rfl⟩

theorem srRead_hybrid_way {cfg : RunConfig} (srRId : cfg.pmStage = .srRId) {s s' : Emu} {t : Target}
    {size : Nat} {v : UInt32} {doneWorkP : Int} (hybrid : (s.regAt t.periIdx t.regIdx).type = .crSr)
    (flag : s.handleHybridSRWay ≠ 0)
    (unmatched : pmSRFindModel s.curBblE (s.periAt t.periIdx) (s.regAt t.periIdx t.regIdx) = .ok none)
    (served : srRead cfg s t size = .ok (s', v, doneWorkP)) :
    v = 0 ∧ doneWorkP = 0 ∧ recordSrRead { s with bblCnt := s.bblCnt - 1 } t = .ok s' := by
  simp only [srRead, srRId, liftHalt, unmatched, Except.mapError, Except.ok_bind, hybrid] at served
  simp only [beq_self_eq_true, Bool.true_and, flag, beq_iff_eq, if_false, if_true] at served
  obtain ⟨s₁, recorded, rest⟩ := Except.bind_eq_ok.mp served
  simp only [Except.pure_eq_ok, Except.ok.injEq, Prod.mk.injEq] at rest
  obtain ⟨rfl, rfl, rfl⟩ := rest
  exact ⟨rfl, rfl, recorded⟩

theorem serveWrite_cr {cfg : RunConfig} {s s' : Emu} {t : Target} {wriVal : UInt32} {size : Nat}
    (cr : (s.regAt t.periIdx t.regIdx).type = .cr) (ok : serveWrite cfg s t wriVal size = .ok s') :
    s'.curBblSRRNum = s.curBblSRRNum ∧ s'.stageTermRegIdx = s.stageTermRegIdx := by
  simp only [serveWrite, cr] at ok
  obtain ⟨reg, -, stored⟩ := Except.bind_eq_ok.mp ok
  cases stored
  exact ⟨rfl, rfl⟩

/-! ## Reads and writes of stage SR_R_ID -/

section SrRId

variable {cfg : RunConfig} (srRId : cfg.pmStage = .srRId)
include srRId

theorem meEna_of_srRId : cfg.pmMeEna = true := by simp [RunConfig.pmMeEna, srRId]

theorem unassignedMemRead_modelled {s s₁ : Emu} {addr size : Nat} {t : Target} {v : UInt32}
    (inRange : 0x40000000 ≤ addr ∧ addr < 0x60000000) (located : locate s addr size = .ok (s, t))
    (sr : (s.regAt t.periIdx t.regIdx).type = .sr) (unpolled : ¬ (s.paddr = t.addr32 ∧ s.pa = .regR))
    (modelled : ∃ ei, pmSRFindModel s.curBblE (s.periAt t.periIdx) (s.regAt t.periIdx t.regIdx) = .ok (some ei))
    (read : unassignedMemRead cfg s addr size = .ok (s₁, v)) :
    s₁.curBblSRRNum = s.curBblSRRNum ∧ s₁.stageTermRegIdx = s.stageTermRegIdx ∧
      s₁.paddr = t.addr32 ∧ s₁.pa = .regR ∧ layout s₁.peris = layout s.peris ∧
      s₁.regAt t.periIdx t.regIdx = { s.regAt t.periIdx t.regIdx with read := 1 } := by
  obtain ⟨ei, found⟩ := modelled
  have inside := (locate_frame located).2.2
  rw [unassignedMemRead_unpolled (meEna_of_srRId srRId) inRange located (by rw [sr]; decide)
    unpolled] at read
  obtain ⟨⟨s₂, v₂, doneWorkP⟩, served, finished⟩ := Except.bind_eq_ok.mp read
  have marked := readMarked_regAt (s := s) inside
  simp only [serveRead, marked, sr] at served
  -- the lookup sees the marked register as the unmarked one
  have found' : pmSRFindModel (s.readMarked t).curBblE ((s.readMarked t).periAt t.periIdx)
      ((s.readMarked t).regAt t.periIdx t.regIdx) = .ok (some ei) := by
    rw [marked, pmSRFindModel_congr _ (readMarked_sameKey t.periIdx) rfl rfl, readMarked_globals.1]
    exact found
  obtain ⟨rfl, e, rfl⟩ := srRead_modelled srRId found' served
  simp only [finishRead, bne_self_eq_false, Bool.false_eq_true, if_false, Except.pure_eq_ok,
    Except.ok.injEq, Prod.mk.injEq] at finished
  obtain ⟨rfl, -⟩ := finished
  have length : (s.readMarked t).peris.length = s.peris.length := by simp [Emu.readMarked]
  refine ⟨rfl, rfl, rfl, rfl, ?_, ?_⟩
  · simp only [Emu.modifyPeri_eq]
    rw [layout_modify _ _ (fun peri => { peri with events := peri.events.set ei e })
      fun _ => ⟨rfl, rfl, rfl⟩, readMarked_layout]
  · rw [← marked]
    simp [length ▸ inside]

theorem regCatWrite_after_read {s : Emu} {t : Target} (inside : t.periIdx < s.peris.length)
    (afterRead : s.paddr = t.addr32 ∧ s.pa = .regR) (sr : (s.regAt t.periIdx t.regIdx).type = .sr)
    (unlocked : (s.regAt t.periIdx t.regIdx).srLocked = 0) (pending : 0 < s.curBblSRRNum) :
    (regCatWrite cfg s t).curBblSRRNum = s.curBblSRRNum - 1 ∧
      (regCatWrite cfg s t).stageTermRegIdx = s.stageTermRegIdx ∧
      ((regCatWrite cfg s t).regAt t.periIdx t.regIdx).type = .cr := by
  simp only [Emu.regAt_eq] at sr unlocked
  have toCr : writeType .srRId true ((periOf s.peris t.periIdx).regs t.regIdx) = .cr := by
    simp [writeType, sr, unlocked]
  simp [regCatWrite, afterRead, sr, toCr, srRId, pending, inside]

theorem unassignedMemWrite_after_read {s s' : Emu} {addr val size : Nat} {t : Target}
    (inRange : 0x40000000 ≤ addr ∧ addr < 0x60000000) (located : locate s addr size = .ok (s, t))
    (afterRead : s.paddr = t.addr32 ∧ s.pa = .regR) (sr : (s.regAt t.periIdx t.regIdx).type = .sr)
    (unlocked : (s.regAt t.periIdx t.regIdx).srLocked = 0) (pending : 0 < s.curBblSRRNum)
    (write : unassignedMemWrite cfg s addr val size = .ok s') :
    s'.curBblSRRNum = s.curBblSRRNum - 1 ∧ s'.stageTermRegIdx = s.stageTermRegIdx := by
  have inside := (locate_frame located).2.2
  simp only [unassignedMemWrite, if_pos inRange, located, Except.ok_bind, catWrite,
    meEna_of_srRId srRId, if_true] at write
  obtain ⟨num, entries, cr⟩ := regCatWrite_after_read srRId inside afterRead sr unlocked pending
  obtain ⟨num', entries'⟩ := serveWrite_cr cr write
  exact ⟨num'.trans num, entries'.trans entries⟩

theorem unassignedMemWrite_dr_after_read {s : Emu} {addr size : Nat} {t : Target} (val : Nat)
    (inRange : 0x40000000 ≤ addr ∧ addr < 0x60000000) (located : locate s addr size = .ok (s, t))
    (afterRead : s.paddr = t.addr32 ∧ s.pa = .regR) (dr : (s.regAt t.periIdx t.regIdx).type = .dr)
    (fits : t.off + size ≤ 4) :
    ∃ s', unassignedMemWrite cfg s addr val size = .ok s' ∧ layout s'.peris = layout s.peris ∧
      s'.pa = .regW ∧ (s'.regAt t.periIdx t.regIdx).type = .cr ∧
      readValB (s'.regAt t.periIdx t.regIdx) t.off size = .ok (val.toUInt32.toNat % 2 ^ (8 * size)).toUInt32 := by
  have inside := (locate_frame located).2.2
  simp only [Emu.regAt_eq] at dr ⊢
  have repeated : (s.paddr == t.addr32 && s.pa == .regR) = true := by simp [afterRead]
  have cr : (periOf (regCatWrite cfg s t).peris t.periIdx).regs t.regIdx =
      { (periOf s.peris t.periIdx).regs t.regIdx with write := 1, type := .cr } := by
    rw [regCatWrite_peris, regs_modifyRegs_self _ _ _ _ inside, repeated]
    simp [writeType, dr, srRId]
  obtain ⟨reg', written⟩ := writeValB_fits
    ((periOf (regCatWrite cfg s t).peris t.periIdx).regs t.regIdx) t.off val.toUInt32 size fits
  have kept := writeValB_frame written
  rw [cr] at written kept
  have length : (regCatWrite cfg s t).peris.length = s.peris.length := by
    simp [regCatWrite_peris]
  refine ⟨(regCatWrite cfg s t).modifyReg t.periIdx t.regIdx fun _ => reg', ?_, ?_, rfl, ?_, ?_⟩
  · simp only [unassignedMemWrite, if_pos inRange, located, Except.ok_bind, catWrite,
      meEna_of_srRId srRId, if_true, serveWrite, Emu.regAt_eq, cr, liftHalt, written, Except.mapError]
    rfl
  · simp only [Emu.modifyReg_eq]
    rw [layout_modifyRegs, regCatWrite_peris, layout_modifyRegs]
  · simp only [Emu.modifyReg_eq]
    rw [regs_modifyRegs_self _ _ _ _ (length ▸ inside), kept]
  · simp only [Emu.modifyReg_eq]
    rw [regs_modifyRegs_self _ _ _ _ (length ▸ inside)]
    exact readValB_writeValB written fits

end SrRId

/-! ## Two blocks of stage SR_R_ID -/

def idStage : RunConfig := ⟨.srRId, none, false, 0, 0, 0, none⟩

def anyCode : BlockConfig := ⟨[], fun _ => true⟩

/-- In stage SR_R_ID, a read of an unlocked SR that an event serves adds nothing to the record of
unserved SR reads, yet the write to it right after takes the last entry off, which another read
made. -/
theorem served_read_write_drops_record (cfg : RunConfig) (srRId : cfg.pmStage = .srRId)
    (s s₁ s₂ : Emu) (addr val size : Nat) (t : Target) (v : UInt32)
    (inRange : 0x40000000 ≤ addr ∧ addr < 0x60000000) (located : locate s addr size = .ok (s, t))
    (sr : (s.regAt t.periIdx t.regIdx).type = .sr) (unlocked : (s.regAt t.periIdx t.regIdx).srLocked = 0)
    (unpolled : ¬ (s.paddr = t.addr32 ∧ s.pa = .regR))
    (modelled : ∃ ei, pmSRFindModel s.curBblE (s.periAt t.periIdx) (s.regAt t.periIdx t.regIdx) = .ok (some ei))
    (pending : 0 < s.curBblSRRNum)
    (read : unassignedMemRead cfg s addr size = .ok (s₁, v))
    (write : unassignedMemWrite cfg s₁ addr val size = .ok s₂) :
    s₁.curBblSRRNum = s.curBblSRRNum ∧ s₂.curBblSRRNum = s.curBblSRRNum - 1 ∧
      s₂.stageTermRegIdx = s.stageTermRegIdx := by
  obtain ⟨num, entries, paddr, pa, same, marked⟩ :=
    unassignedMemRead_modelled srRId inRange located sr unpolled modelled read
  have relocated := locate_layout located same
  obtain ⟨num', entries'⟩ := unassignedMemWrite_after_read srRId inRange relocated ⟨paddr, pa⟩
    (by rw [marked]; exact sr) (by rw [marked]; exact unlocked) (by omega) write
  exact ⟨num, by rw [num', num], entries'.trans entries⟩

def servedPeri : PmPeripheral :=
  ⟨0x40000000, fun r => if r.val = 0 then { PmMMIORegister.zero with type := .cr }
    else if r.val ≤ 2 then { PmMMIORegister.zero with type := .sr } else .zero, 2, 2, 4,
    [⟨"0:0x5".toList, 0x8000, 1, 1,
      fun k j b => if k.val = 0 ∧ j.val = 0 then (if b.val = 0 then 1 else if b.val = 1 then 3 else 0)
        else 0, 1, 0, 0, 0⟩]⟩

def servedBlockHead : List EmuEvent := [.blockStart 0x7ff0 0x10, .read 0x40000004 4, .write 0x40000000 5 4]

theorem served_read_drops_sr_one_record :
    ∃ m s₁ s₂ v m', emuRun idStage anyCode (Machine.init [servedPeri]) servedBlockHead = .ok m ∧
      m.emu.curBblSRRNum = 1 ∧ m.emu.stageTermRegIdx ⟨0, by decide⟩ = 1 ∧
      (∃ e, blockEnd idStage m = .error (.exit 0x20 true e)) ∧
      unassignedMemRead idStage m.emu 0x40000008 4 = .ok (s₁, v) ∧
      unassignedMemWrite idStage s₁ 0x40000008 0 4 = .ok s₂ ∧
      (s₁.curBblSRRNum = m.emu.curBblSRRNum ∧ s₂.curBblSRRNum = m.emu.curBblSRRNum - 1 ∧
        s₂.stageTermRegIdx = m.emu.stageTermRegIdx) ∧
      blockEnd idStage { m with emu := s₂ } = .ok m' := by
  refine ⟨_, _, _, _, _, rfl, rfl, rfl, ⟨_, rfl⟩, rfl, rfl, ?_, rfl⟩
  exact served_read_write_drops_record idStage rfl _ _ _ 0x40000008 0 4
    ⟨0x40000008, 0, ⟨2, by decide⟩, 0⟩ _ (by decide) rfl rfl rfl (by decide) ⟨0, rfl⟩ (by decide)
    rfl rfl

/-- In stage SR_R_ID, once `handle_hybrid_SR_way` is set, a CR_SR read that no event serves is an
SR read even when it does not poll: recorded among the unserved SR reads, returning 0 instead of
the register's bytes. -/
theorem hybrid_flag_takes_sr_way (cfg : RunConfig) (srRId : cfg.pmStage = .srRId)
    (s s₁ : Emu) (addr size : Nat) (t : Target) (v : UInt32)
    (inRange : 0x40000000 ≤ addr ∧ addr < 0x60000000) (located : locate s addr size = .ok (s, t))
    (hybrid : (s.regAt t.periIdx t.regIdx).type = .crSr) (flag : s.handleHybridSRWay ≠ 0)
    (unpolled : ¬ (s.paddr = t.addr32 ∧ s.pa = .regR))
    (unmatched : pmSRFindModel s.curBblE (s.periAt t.periIdx)
      (bumpRIdx s.bblCnt (s.regAt t.periIdx t.regIdx)) = .ok none)
    (read : unassignedMemRead cfg s addr size = .ok (s₁, v)) :
    v = 0 ∧ s₁.curBblSRRNum = s.curBblSRRNum + 1 ∧
      ∀ slot : Fin maxSrNum, (slot : Int) = s.curBblSRRNum → s₁.stageTermRegIdx slot = t.regIdx := by
  have inside := (locate_frame located).2.2
  rw [unassignedMemRead_unpolled (meEna_of_srRId srRId) inRange located (by rw [hybrid]; decide)
    unpolled] at read
  obtain ⟨⟨s₂, v₂, doneWorkP⟩, served, finished⟩ := Except.bind_eq_ok.mp read
  have marked := readMarked_regAt (s := s) inside
  simp only [serveRead, marked, hybrid] at served
  -- the CR_SR case bumps the read index before the SR case looks the read up
  have length : (s.readMarked t).peris.length = s.peris.length := by simp [Emu.readMarked]
  have bumped : ((s.readMarked t).modifyReg t.periIdx t.regIdx (bumpRIdx s.bblCnt)).regAt
      t.periIdx t.regIdx = bumpRIdx s.bblCnt { s.regAt t.periIdx t.regIdx with read := 1 } := by
    rw [← marked]
    simp [length ▸ inside]
  -- the lookup sees the peripheral through the categories and values, which neither step changes
  have key : SameKey (s.periAt t.periIdx)
      (((s.readMarked t).modifyReg t.periIdx t.regIdx (bumpRIdx s.bblCnt)).periAt t.periIdx) :=
    (readMarked_sameKey t.periIdx).trans (sameKey_modifyRegs _ t.periIdx t.periIdx t.regIdx _
      fun reg => ⟨type_bumpRIdx _ reg, valB_bumpRIdx _ reg⟩)
  have unmatched' : pmSRFindModel s.curBblE
      (((s.readMarked t).modifyReg t.periIdx t.regIdx (bumpRIdx s.bblCnt)).periAt t.periIdx)
      (((s.readMarked t).modifyReg t.periIdx t.regIdx (bumpRIdx s.bblCnt)).regAt t.periIdx t.regIdx) =
      .ok none := by
    rw [bumped, pmSRFindModel_congr s.curBblE key (by simp only [type_bumpRIdx])
      (rIdxInBbl_bumpRIdx_read _ _)]
    exact unmatched
  obtain ⟨rfl, rfl, recorded⟩ := srRead_hybrid_way srRId
    (s := (s.readMarked t).modifyReg t.periIdx t.regIdx (bumpRIdx s.bblCnt))
    (by rw [bumped, type_bumpRIdx]; exact hybrid) flag unmatched' served
  simp only [finishRead, bne_self_eq_false, Bool.false_eq_true, if_false, Except.pure_eq_ok,
    Except.ok.injEq, Prod.mk.injEq] at finished
  obtain ⟨rfl, rfl⟩ := finished
  obtain ⟨num, -, slots⟩ := recordSrRead_slot recorded
  refine ⟨rfl, num, fun slot at_ => ?_⟩
  rw [slots]
  exact if_pos at_

def hybridPeri : PmPeripheral :=
  ⟨0x40000000, fun r =>
    if r.val = 0 then { PmMMIORegister.zero with type := .cr, valB := fun i => if i.val = 0 then 5 else 0 }
    else if r.val = 1 then
      { PmMMIORegister.zero with type := .crSr, valB := fun i => if i.val = 0 then 7 else 0 }
    else .zero, 1, 2, 4, []⟩

def pollingBlockHead : List EmuEvent :=
  .blockStart 0x7ff0 0x10 :: List.replicate 102 (.read 0x40000000 4)

def afterPolling : Emu :=
  match emuRun idStage anyCode (Machine.init [hybridPeri]) pollingBlockHead with
  | .ok m => m.emu
  | .error _ => Emu.init []

set_option maxRecDepth 20000 in
theorem hybrid_read_after_polling_cr :
    (∃ m, emuRun idStage anyCode (Machine.init [hybridPeri]) pollingBlockHead = .ok m ∧
      m.emu = afterPolling) ∧
    afterPolling.handleHybridSRWay = 1 ∧ afterPolling.curBblSRRNum = 1 ∧
    valBRead afterPolling ⟨0x40000004, 0, ⟨1, by decide⟩, 0⟩ 4 = .ok 7 ∧
    ∃ s₁ v, unassignedMemRead idStage afterPolling 0x40000004 4 = .ok (s₁, v) ∧
      (v = 0 ∧ s₁.curBblSRRNum = afterPolling.curBblSRRNum + 1 ∧
        ∀ slot : Fin maxSrNum, (slot : Int) = afterPolling.curBblSRRNum → s₁.stageTermRegIdx slot = 1) := by
  refine ⟨⟨_, rfl, rfl⟩, by decide, by decide, rfl, _, _, rfl, ?_⟩
  -- the polling changed registers only, so the access lands as it does at the start
  have located := locate_layout
    (rfl : locate (Emu.init [hybridPeri]) 0x40000004 4 =
      .ok (Emu.init [hybridPeri], ⟨0x40000004, 0, ⟨1, by decide⟩, 0⟩))
    (by decide : layout afterPolling.peris = layout (Emu.init [hybridPeri]).peris)
  exact hybrid_flag_takes_sr_way idStage rfl _ _ 0x40000004 4 ⟨0x40000004, 0, ⟨1, by decide⟩, 0⟩ _
    (by decide) located rfl (by decide) (by decide) rfl rfl

/-! ## A write after a DR read, in a worker and in its replay -/

/-- A read, a write and a read again of a DR: the FUZZING worker keeps it a DR and reads the next
input bytes again, while the SR_R_ID replay of the same accesses makes it a CR and reads back the
value written, so the replay no longer sees the worker's value. -/
theorem replay_write_after_read_turns_dr_into_cr (fuzz replay : RunConfig) (s : Emu) (t : Target)
    (addr val size : Nat) (fuzzing : fuzz.pmStage = .fuzzing) (worker : fuzz.aflStartfsInvoked = true)
    (replaying : replay.pmStage = .srRId) (inRange : 0x40000000 ≤ addr ∧ addr < 0x60000000)
    (located : locate s addr size = .ok (s, t)) (dr : (s.regAt t.periIdx t.regIdx).type = .dr)
    (fits : t.off + size ≤ 4) (afterRead : s.paddr = addr.toUInt32 ∧ s.pa = .regR)
    (loaded : s.pmRandSz ≠ 0) (start : 0 ≤ s.pmRandI)
    (enough : s.pmRandI + (s.periAt t.periIdx).drBytesNum.toNat ≤ s.pmRandSz)
    (inArray : s.pmRandSz ≤ pmRandArrSize) :
    (∃ s₁, unassignedMemWrite fuzz s addr val size = .ok s₁ ∧ (s₁.regAt t.periIdx t.regIdx).type = .dr ∧
      ∃ s₂, unassignedMemRead fuzz s₁ addr size =
        .ok (s₂, bigEndian 0 ((List.range' s.pmRandI.toNat (s.periAt t.periIdx).drBytesNum.toNat).map s.pmRandAt))) ∧
    (∃ s₁, unassignedMemWrite replay s addr val size = .ok s₁ ∧ (s₁.regAt t.periIdx t.regIdx).type = .cr ∧
      ∃ s₂, unassignedMemRead replay s₁ addr size = .ok (s₂, (val % 2 ^ (8 * size)).toUInt32)) := by
  have target := (locate_frame located).2.1
  constructor
  · -- the worker does not categorise: the write leaves the DR, and the read takes input bytes
    have unmodelled : fuzz.pmMeEna = false := by simp [RunConfig.pmMeEna, fuzzing]
    exact ⟨s, unassignedMemWrite_dr unmodelled inRange located dr, dr, _,
      unassignedMemRead_worker_dr fuzzing worker inRange located dr loaded start enough inArray⟩
  · obtain ⟨s₁, write, same, written, cr, bytes⟩ := unassignedMemWrite_dr_after_read replaying val
      inRange located (target ▸ afterRead) dr fits
    -- the written value is cut to 32 bits first, which a width of at most four bytes never sees
    have cut : val.toUInt32.toNat % 2 ^ (8 * size) = val % 2 ^ (8 * size) := by
      rw [Nat.toUInt32_eq, UInt32.toNat_ofNat']
      exact Nat.mod_mod_of_dvd val (Nat.pow_dvd_pow 2 (by omega))
    rw [cut] at bytes
    have unpolled : ¬ (s₁.paddr = t.addr32 ∧ s₁.pa = .regR) := by simp [written]
    exact ⟨s₁, write, cr, unassignedMemRead_cr (meEna_of_srRId replaying) inRange
      (locate_layout located same) cr unpolled bytes⟩

def inputWorker : RunConfig := ⟨.fuzzing, some (.bytes [1, 2, 3, 4]), true, 0, 0, 0, none⟩

def replayRun : RunConfig := ⟨.srRId, some (.bytes [1, 2, 3, 4]), true, 1, 0, 0, none⟩

def afterDrRead : Emu :=
  { Emu.init [drPeri] with
    paddr := 0x40000000, pa := .regR, pmRandSz := 4, pmRandI := 2
    pmRand := fun j => (([1, 2, 3, 4] : List UInt8)[j.val]?).getD 0 }

theorem replay_write_after_dr_read :
    locate afterDrRead 0x40000000 4 = .ok (afterDrRead, ⟨0x40000000, 0, ⟨0, by decide⟩, 0⟩) ∧
      bigEndian 0 ((List.range' 2 2).map afterDrRead.pmRandAt) = 0x0304 ∧
      (∃ s₁, unassignedMemWrite inputWorker afterDrRead 0x40000000 0x55 4 = .ok s₁ ∧
        (s₁.regAt 0 ⟨0, by decide⟩).type = .dr ∧
        ∃ s₂, unassignedMemRead inputWorker s₁ 0x40000000 4 =
          .ok (s₂, bigEndian 0 ((List.range' 2 2).map afterDrRead.pmRandAt))) ∧
      (∃ s₁, unassignedMemWrite replayRun afterDrRead 0x40000000 0x55 4 = .ok s₁ ∧
        (s₁.regAt 0 ⟨0, by decide⟩).type = .cr ∧
        ∃ s₂, unassignedMemRead replayRun s₁ 0x40000000 4 = .ok (s₂, 0x55)) :=
  ⟨rfl, by decide, replay_write_after_read_turns_dr_into_cr inputWorker replayRun afterDrRead _
    0x40000000 0x55 4 rfl rfl rfl (by decide) rfl rfl (by decide) ⟨rfl, rfl⟩ (by decide) (by decide)
    (by decide) (by decide)⟩

end P2im
