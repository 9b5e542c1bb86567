import P2im.Peripheral.LoadSafety
import P2im.Shared.Python

set_option autoImplicit false

/-!
# Dumping the model and loading it again

`pm_dump_model` writes each peripheral as a member of `"model"` named by its base address, with
`regs[0 .. max_reg_idx]`, and the next run's `pm_load_model` reads the members back, each new
peripheral at the head of its list. For peripherals whose registers lie in the register file, a
load of the dump gives each one back with its base address, `DR_bytes_num`, `reg_size` and
`max_reg_idx`, and each register up to `max_reg_idx` with its category, its counts of reads and
writes (but for a UC register) and its lock (for an SR or a CR_SR). `val_b`, `cr_val` and the
bookkeeping of reads come back zeroed, and the list comes back reversed.
-/

namespace P2im

/-- What a register keeps through a dump and a load. -/
def PmMMIORegister.reloaded (reg : PmMMIORegister) : PmMMIORegister :=
  { PmMMIORegister.zero with
    type := reg.type
    read := if reg.type = .uc then 0 else reg.read
    write := if reg.type = .uc then 0 else reg.write
    srLocked := if reg.type = .sr ∨ reg.type = .crSr then reg.srLocked else 0 }

def PmPeripheral.regD (peri : PmPeripheral) (i : Nat) : PmMMIORegister :=
  if h : i < pmMaxRegNum then peri.regs ⟨i, h⟩ else .zero

def PmPeripheral.reloadedRegs (peri : PmPeripheral) (r : Fin pmMaxRegNum) : PmMMIORegister :=
  if (r : Int) ≤ peri.maxRegIdx then (peri.regs r).reloaded else .zero

def PmMMIORegister.fitsInts (reg : PmMMIORegister) : Bool :=
  CConv.fitsInt reg.type.toInt && CConv.fitsInt reg.read && CConv.fitsInt reg.write &&
    CConv.fitsInt reg.srLocked

/-- A peripheral `pm_dump_model` writes in full: its registers up to `max_reg_idx` lie in the
register file, and its `int` fields hold `int` values, as a C `int` does. -/
structure Dumpable (peri : PmPeripheral) : Prop where
  indices : -1 ≤ peri.maxRegIdx ∧ peri.maxRegIdx < pmMaxRegNum
  drBytesNum : CConv.fitsInt peri.drBytesNum = true
  regs : ∀ i < (peri.maxRegIdx + 1).toNat, (peri.regD i).fitsInts = true

/-- A peripheral as the load of its dump gives it back; its events are those the loader makes of
the events the dump copied from the model file the run loaded. -/
structure Reloaded (lib : Jansson) (modelIf : Option Json) (errno : Int) (peri peri' : PmPeripheral) :
    Prop where
  baseAddr : peri'.baseAddr = peri.baseAddr
  regs : peri'.regs = peri.reloadedRegs
  maxRegIdx : peri'.maxRegIdx = peri.maxRegIdx
  drBytesNum : peri'.drBytesNum = peri.drBytesNum
  regSize : peri'.regSize = peri.regSize
  events : ∃ st, loadCrVals lib ⟨[], none, errno⟩ (copiedEvents modelIf (hexKey peri.baseAddr)) = .ok st ∧
    peri'.events = st.events

/-- The member `pm_dump_model` writes for a peripheral whose registers lie in the register file. -/
def dumpedPeri (modelIf : Option Json) (peri : PmPeripheral) : String × Json :=
  (hexKey peri.baseAddr, .obj [("DR_bytes_num", .int peri.drBytesNum),
    ("reg_size", .int (CConv.toInt peri.regSize.toNat)),
    ("regs", .arr ((List.range (peri.maxRegIdx + 1).toNat).map fun i => dumpReg (peri.regD i))),
    ("events", .obj (copiedEvents modelIf (hexKey peri.baseAddr)))])

/-! ## Registers -/

section Load

variable {lib : Jansson}

theorem loadReg_dumpReg (doc : lib.Documented) (reg : PmMMIORegister) (fits : reg.fitsInts = true) :
    loadReg lib (dumpReg reg) = .ok reg.reloaded := by
  simp only [PmMMIORegister.fitsInts, Bool.and_eq_true] at fits
  obtain ⟨⟨⟨type, read⟩, write⟩, srLocked⟩ := fits
  have sameType : PmRegType.ofInt (CConv.toInt reg.type.toInt) = reg.type := by
    rw [CConv.toInt_of_fitsInt type, PmRegType.ofInt_toInt]
  by_cases uc : reg.type = .uc
  · -- a UC register is dumped as its category alone
    have zero : CConv.toInt 0 = 0 := rfl
    simp [dumpReg, uc, loadReg, gotoError, doc.intMember?_eq, doc.optIntMember?_eq,
      Json.intMember?, Json.optIntMember?, List.lookup,
      Json.int?, loadSrLocked, PmRegType.toInt, zero, PmMMIORegister.reloaded]
    rfl
  · by_cases locks : reg.type = .sr ∨ reg.type = .crSr <;>
      by_cases cr : reg.type = .cr ∨ reg.type = .crSr <;>
      simp [dumpReg, uc, locks, cr, loadReg, gotoError, doc.intMember?_eq, doc.optIntMember?_eq,
        Json.intMember?, Json.optIntMember?,
        List.lookup, Json.int?, loadSrLocked, sameType, CConv.toInt_of_fitsInt read,
        CConv.toInt_of_fitsInt write, CConv.toInt_of_fitsInt srLocked, PmMMIORegister.reloaded]

theorem loadRegs_dumped (doc : lib.Documented) (j : Nat) (regs : List PmMMIORegister) (room : j + regs.length ≤ pmMaxRegNum)
    (fits : ∀ reg ∈ regs, reg.fitsInts = true) :
    loadRegs lib j (regs.map dumpReg) = .ok (regs.map PmMMIORegister.reloaded) := by
  induction regs generalizing j with
  | nil => rfl
  | cons reg rest ih =>
    have inside : ¬ pmMaxRegNum ≤ j := by simp at room; omega
    simp only [List.map_cons, loadRegs, failWhen, if_neg inside,
      loadReg_dumpReg doc reg (fits reg List.mem_cons_self),
      ih (j + 1) (by simp at room; omega) fun r mem => fits r (List.mem_cons_of_mem reg mem)]
    rfl

theorem regsOf_reloaded (peri : PmPeripheral) (low : -1 ≤ peri.maxRegIdx) :
    regsOf ((List.range (peri.maxRegIdx + 1).toNat).map fun i => (peri.regD i).reloaded) =
      peri.reloadedRegs := by
  funext r
  simp only [regsOf, PmPeripheral.reloadedRegs, List.getD_eq_getElem?_getD, List.getElem?_map]
  by_cases below : (r : Int) ≤ peri.maxRegIdx
  · have inside : r.val < (peri.maxRegIdx + 1).toNat := by omega
    simp [inside, below, PmPeripheral.regD]
  · have outside : ¬ r.val < (peri.maxRegIdx + 1).toNat := by omega
    simp [outside, below]

/-! ## One peripheral -/

theorem dumpPeri_eq (modelIf : Option Json) (peri : PmPeripheral) (inside : peri.maxRegIdx < pmMaxRegNum) :
    dumpPeri modelIf peri = .ok (dumpedPeri modelIf peri) := by
  have regs : dumpRegs peri =
      .ok ((List.range (peri.maxRegIdx + 1).toNat).map fun i => dumpReg (peri.regD i)) :=
    Python.mapM_ok _ fun i mem => by
      have small : i < pmMaxRegNum := by simp at mem; omega
      simp [PmPeripheral.regAt, small, PmPeripheral.regD]
  simp only [dumpPeri, regs]
  rfl

theorem loadPeri_dumpedPeri (doc : lib.Documented) (modelIf : Option Json) (errno : Int) (peri : PmPeripheral)
    (dumpable : Dumpable peri) {st : EventsLoad}
    (events : loadCrVals lib ⟨[], none, errno⟩ (copiedEvents modelIf (hexKey peri.baseAddr)) = .ok st) :
    loadPeri lib errno (hexKey peri.baseAddr) (dumpedPeri modelIf peri).2 =
      .ok (⟨peri.baseAddr, peri.reloadedRegs, peri.maxRegIdx, peri.drBytesNum, peri.regSize, st.events⟩,
        st.errno) := by
  obtain ⟨⟨low, inside⟩, drFits, regsFit⟩ := dumpable
  -- the registers are read back in order, and as many as were written
  have regs := loadRegs_dumped doc 0 ((List.range (peri.maxRegIdx + 1).toNat).map peri.regD)
    (by simp; omega) (by simpa using regsFit)
  have count : (((List.range (peri.maxRegIdx + 1).toNat).map fun i => dumpReg (peri.regD i)).length : Int) - 1 =
      peri.maxRegIdx := by
    simp; omega
  simp only [List.map_map, Function.comp_def] at regs
  simp [loadPeri, dumpedPeri, gotoError, doc.intMember?_eq, Json.intMember?, List.lookup, Json.int?,
    failWhen, Json.isArray, Json.items, Json.isObject, doc.objectForeach_obj, regs, CConv.errnoAfter, strtol_hexKey,
    events, CConv.ofInt_toNat, CConv.toInt_of_fitsInt drFits, CConv.ofInt_toInt_toNat,
    regsOf_reloaded peri low]
  omega

/-! ## The peripheral list -/

theorem hexKey_injective : Function.Injective hexKey := by
  intro a b same
  have read := congrArg (fun key : String => UInt32.ofInt (CConv.strtol key.toList).1) same
  simpa [strtol_hexKey, CConv.ofInt_toNat] using read

theorem dumpPeris_eq (modelIf : Option Json) (peris : List PmPeripheral) (acc : List (String × Json))
    (inside : ∀ peri ∈ peris, peri.maxRegIdx < pmMaxRegNum)
    (distinct : (acc.map Prod.fst ++ peris.map fun peri => hexKey peri.baseAddr).Nodup) :
    dumpPeris modelIf peris acc = .ok (acc ++ peris.map (dumpedPeri modelIf)) := by
  induction peris generalizing acc with
  | nil => simp [dumpPeris]
  | cons peri rest ih =>
    have fresh : hexKey peri.baseAddr ∉ acc.map Prod.fst := fun mem =>
      List.disjoint_of_nodup_append distinct mem (by simp)
    have later : ((acc ++ [dumpedPeri modelIf peri]).map Prod.fst ++
        rest.map fun peri => hexKey peri.baseAddr).Nodup := by
      simpa [dumpedPeri] using distinct
    simp only [dumpPeris, dumpPeri_eq modelIf peri (inside peri List.mem_cons_self)]
    show dumpPeris modelIf rest (Json.setMember (hexKey peri.baseAddr) (dumpedPeri modelIf peri).2 acc) = _
    have member : (hexKey peri.baseAddr, (dumpedPeri modelIf peri).2) = dumpedPeri modelIf peri := rfl
    rw [Json.setMember_of_not_mem _ fresh, member,
      ih _ (fun p mem => inside p (List.mem_cons_of_mem peri mem)) later]
    simp [dumpedPeri]

theorem loadPeris_dumped (doc : lib.Documented) (modelIf : Option Json) (errno : Int) (peris plist : List PmPeripheral)
    (dumpable : ∀ peri ∈ peris, Dumpable peri)
    (eventsLoad : ∀ peri ∈ peris, ∃ st : EventsLoad,
      loadCrVals lib ⟨[], none, errno⟩ (copiedEvents modelIf (hexKey peri.baseAddr)) = .ok st ∧
        st.errno = errno) :
    ∃ loaded, loadPeris lib plist errno (peris.map (dumpedPeri modelIf)) = .ok (loaded ++ plist) ∧
      List.Forall₂ (Reloaded lib modelIf errno) peris.reverse loaded := by
  induction peris generalizing plist with
  | nil => exact ⟨[], by simp [loadPeris], .nil⟩
  | cons peri rest ih =>
    obtain ⟨st, events, sameErrno⟩ := eventsLoad peri List.mem_cons_self
    let peri' : PmPeripheral :=
      ⟨peri.baseAddr, peri.reloadedRegs, peri.maxRegIdx, peri.drBytesNum, peri.regSize, st.events⟩
    obtain ⟨loaded, more, related⟩ := ih (peri' :: plist)
      (fun p mem => dumpable p (List.mem_cons_of_mem peri mem))
      (fun p mem => eventsLoad p (List.mem_cons_of_mem peri mem))
    have first : loadPeris lib plist errno (dumpedPeri modelIf peri :: rest.map (dumpedPeri modelIf)) =
        loadPeri lib errno (hexKey peri.baseAddr) (dumpedPeri modelIf peri).2 >>= fun loaded =>
          loadPeris lib (loaded.1 :: plist) loaded.2 (rest.map (dumpedPeri modelIf)) := rfl
    refine ⟨loaded ++ [peri'], ?_, ?_⟩
    · rw [List.map_cons, first, loadPeri_dumpedPeri doc modelIf errno peri
        (dumpable peri List.mem_cons_self) events, sameErrno]
      simpa using more
    · rw [List.reverse_cons]
      exact List.rel_append related (.cons ⟨rfl, rfl, rfl, rfl, rfl, st, events, rfl⟩ .nil)

end Load

/-- A model file that `pm_dump_model` writes, loaded again by a run that does not explore an SR
read, gives back each peripheral as `Reloaded` says, the list reversed, and leaves the globals as
they were. -/
theorem dump_then_load_restores_peripherals (lib : Jansson) (doc : lib.Documented) (pmStage : PmStage)
    (notExplore : pmStage ≠ .srRExplore) (errno : Int) (g : LoadGlobals) (modelIf : Option Json) (peris : List PmPeripheral)
    (others : List (String × Json)) (distinct : (peris.map PmPeripheral.baseAddr).Nodup)
    (dumpable : ∀ peri ∈ peris, Dumpable peri)
    (eventsLoad : ∀ peri ∈ peris, ∃ st : EventsLoad,
      loadCrVals lib ⟨[], none, errno⟩ (copiedEvents modelIf (hexKey peri.baseAddr)) = .ok st ∧
        st.errno = errno) :
    ∃ members plist, dumpPeris modelIf peris [] = .ok members ∧
      pmLoadModel lib pmStage false errno g (some (.obj (("model", .obj members) :: others))) =
        .ok (plist, g) ∧
      List.Forall₂ (Reloaded lib modelIf errno) peris.reverse plist := by
  -- distinct base addresses give distinct member names
  have keys : (([] : List (String × Json)).map Prod.fst ++
      peris.map fun peri => hexKey peri.baseAddr).Nodup := by
    simpa [List.map_map, Function.comp_def] using distinct.map hexKey_injective
  obtain ⟨loaded, read, related⟩ := loadPeris_dumped doc modelIf errno peris [] dumpable eventsLoad
  refine ⟨_, loaded, dumpPeris_eq modelIf peris [] (fun peri mem => (dumpable peri mem).indices.2)
    keys, ?_, related⟩
  simp only [List.append_nil] at read
  simp [pmLoadModel, gotoError, loadJsrr, notExplore, failWhen, Json.isObject, doc.objectForeach_obj,
    List.lookup, read, loadReplay]

def usartPeri : PmPeripheral :=
  ⟨0x40013800, fun r => if r.val = 0 then ⟨.sr, fun _ => 0, 0, 1, 0, 0, 3, 0⟩
    else if r.val = 1 then ⟨.dr, fun _ => 0, 0, 0, 0, 0, 1, 1⟩ else .zero, 1, 1, 4, []⟩

theorem usart_dump_reloads :
    Dumpable usartPeri ∧ ∃ members plist, dumpPeris none [usartPeri] [] = .ok members ∧
      pmLoadModel Jansson.manual .srRId false 0 ⟨0, 0, 0, [], 0⟩ (some (.obj [("model", .obj members)])) =
        .ok (plist, ⟨0, 0, 0, [], 0⟩) ∧
      List.Forall₂ (Reloaded Jansson.manual none 0) [usartPeri] plist := by
  have dumpable : Dumpable usartPeri := ⟨by decide, by decide, by decide⟩
  exact ⟨dumpable, dump_then_load_restores_peripherals Jansson.manual Jansson.manual_documented .srRId
    (by decide) 0 ⟨0, 0, 0, [], 0⟩ none
    [usartPeri] [] (by decide) (by simpa using dumpable) (by simpa using ⟨_, rfl, rfl⟩)⟩

end P2im
