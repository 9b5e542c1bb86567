import P2im.Peripheral.Access
import P2im.Peripheral.Load
import P2im.Peripheral.Dump

set_option autoImplicit false

/-!
# What the loader lets through

`pm_load_model` checks the shape of a model file and a few counts, but not the values the
emulator divides by or indexes with. A peripheral whose `"reg_size"` is 0 is loaded as it is,
and the first access to it divides by zero.
-/

namespace P2im

theorem strtol_hexKey (ba : UInt32) :
    CConv.strtol (hexKey ba).toList = ((ba.toNat : Int), false) := by
  unfold hexKey
  rw [String.toList_ofList]
  exact CConv.strtol_hex ba.toNat (by have := ba.toNat_lt; omega)

theorem locate_zero_size (s : Emu) (addr size : Nat)
    (zero : regSizeFor s.peris addr.toUInt32 size.toUInt32 = 0) :
    locate s addr size = .error .undefined := by
  have sized := regSize_lookupPeri s.peris addr.toUInt32 size.toUInt32
  rcases lookup : lookupPeri s.peris addr.toUInt32 size.toUInt32 with ⟨peris, i⟩
  rw [lookup, zero] at sized
  unfold locate
  simp [lookup, Emu.periAt, sized]

def bareModel (ba : UInt32) (drBytesNum regSize : Int) : Json :=
  .obj [("model", .obj [(hexKey ba, .obj [("DR_bytes_num", .int drBytesNum),
    ("reg_size", .int regSize), ("regs", .arr []), ("events", .obj [])])])]

theorem load_bareModel {lib : Jansson} (doc : lib.Documented) (pmStage : PmStage)
    (notExplore : pmStage ≠ .srRExplore) (errno : Int) (g : LoadGlobals) (ba : UInt32)
    (drBytesNum regSize : Int) :
    pmLoadModel lib pmStage false errno g (some (bareModel ba drBytesNum regSize)) =
      .ok ([⟨ba, regsOf [], -1, CConv.toInt drBytesNum, UInt32.ofInt regSize, []⟩], g) := by
  simp [pmLoadModel, bareModel, gotoError, loadJsrr, notExplore, failWhen, Json.isObject,
    doc.objectForeach_obj, loadPeris, loadPeri, doc.intMember?_eq, Json.intMember?, Json.int?, List.lookup, Json.isArray,
    Json.items, loadRegs, loadCrVals, CConv.errnoAfter, strtol_hexKey, CConv.ofInt_toNat,
    loadReplay]

theorem load_model_accepts_zero_reg_size (lib : Jansson) (doc : lib.Documented) (pmStage : PmStage)
    (notExplore : pmStage ≠ .srRExplore) (errno : Int) (g : LoadGlobals) (ba : UInt32) (drBytesNum : Int) :
    ∃ peri, pmLoadModel lib pmStage false errno g (some (bareModel ba drBytesNum 0)) = .ok ([peri], g) ∧
      peri.regSize = 0 ∧
      ∀ cfg addr val size, 0x40000000 ≤ addr ∧ addr < 0x60000000 → periBase addr.toUInt32 = ba →
        unassignedMemRead cfg (Emu.init [peri]) addr size = .error .undefined ∧
        unassignedMemWrite cfg (Emu.init [peri]) addr val size = .error .undefined := by
  refine ⟨_, load_bareModel doc pmStage notExplore errno g ba drBytesNum 0, rfl, ?_⟩
  intro cfg addr val size inRange base
  -- the access finds the loaded peripheral, whose register size is 0
  have zero : regSizeFor (Emu.init [⟨ba, regsOf [], -1, CConv.toInt drBytesNum, UInt32.ofInt 0, []⟩]).peris
      addr.toUInt32 size.toUInt32 = 0 := by
    simp [regSizeFor, getPeri, Emu.init, base, List.findIdx?_cons, periOf]
    rfl
  have undefined := locate_zero_size _ addr size zero
  exact ⟨by simp [unassignedMemRead, inRange, undefined],
    by simp [unassignedMemWrite, inRange, undefined]⟩

theorem load_model_zero_reg_size_first_read :
    Jansson.manual.Documented ∧ PmStage.fuzzing ≠ .srRExplore ∧
      ∃ peri, pmLoadModel Jansson.manual .fuzzing false 0 ⟨0, 0, 0, [], 0⟩ (some (bareModel 0x40000000 2 0)) =
          .ok ([peri], ⟨0, 0, 0, [], 0⟩) ∧ peri.regSize = 0 ∧
        ∀ cfg addr val size, 0x40000000 ≤ addr ∧ addr < 0x60000000 →
          periBase addr.toUInt32 = 0x40000000 →
          unassignedMemRead cfg (Emu.init [peri]) addr size = .error .undefined ∧
          unassignedMemWrite cfg (Emu.init [peri]) addr val size = .error .undefined :=
  ⟨Jansson.manual_documented, by decide,
    load_model_accepts_zero_reg_size Jansson.manual Jansson.manual_documented .fuzzing (by decide) 0
      ⟨0, 0, 0, [], 0⟩ 0x40000000 2⟩

end P2im
