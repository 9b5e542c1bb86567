import P2im.Peripheral.LoadSafety
import P2im.Peripheral.SrRecord

set_option autoImplicit false

/-!
# Dumping and loading again

`pm_dump_model` writes `regs[0 .. max_reg_idx]` of each peripheral, and `pm_load_model` sets
`max_reg_idx` to the length of `"regs"` less one. An empty `"regs"` gives -1, which `locate`
compares with the register index as an unsigned value: it is never raised, so no register of the
peripheral is ever dumped.
-/

namespace P2im

/-- An access to a peripheral whose `max_reg_idx` is -1 leaves the state as it is: as an unsigned
value, -1 is above every register index. -/
theorem locate_unraised {s s' : Emu} {addr size i : Nat} {t : Target}
    (found : getPeri s.peris addr.toUInt32 = some i) (negative : (periOf s.peris i).maxRegIdx = -1)
    (located : locate s addr size = .ok (s', t)) : s' = s := by
  have top : toUnsigned (-1) = 4294967295 := by decide
  unfold locate at located
  simp only [lookupPeri, found, Emu.periAt_eq, negative, top] at located
  split at located
  · cases located
  · split at located
    · rename_i below
      have low : ¬ 4294967295 < addr.toUInt32.toNat % pmPeriAddrRange / (periOf s.peris i).regSize.toNat :=
        Nat.not_lt.mpr (Nat.le_of_lt_succ (regIndex_lt _ _))
      simp only [if_neg low, Except.ok.injEq, Prod.mk.injEq] at located
      exact located.1.symm
    · cases located

theorem dumpPeris_unraised (modelIf : Option Json) (peri : PmPeripheral)
    (negative : peri.maxRegIdx = -1) (noEvents : copiedEvents modelIf (hexKey peri.baseAddr) = []) :
    dumpPeris modelIf [peri] [] =
      .ok [(hexKey peri.baseAddr, .obj [("DR_bytes_num", .int peri.drBytesNum),
        ("reg_size", .int (CConv.toInt peri.regSize.toNat)), ("regs", .arr []), ("events", .obj [])])] := by
  have empty : dumpRegs peri = .ok [] := by simp [dumpRegs, negative]
  simp [dumpPeris, dumpPeri, empty, noEvents, Json.setMember]

/-- A peripheral whose `max_reg_idx` is -1, as the loader makes it of an empty `"regs"`, keeps it
through every access; its dump lists no register, so loading the dump zeroes every register the
run categorised. -/
theorem unraised_max_reg_idx_loses_registers (lib : Jansson) (doc : lib.Documented)
    (pmStage : PmStage) (notExplore : pmStage ≠ .srRExplore) (errno : Int) (g : LoadGlobals)
    (modelIf : Option Json) :
    (∀ (s s' : Emu) (addr size i : Nat) (t : Target), getPeri s.peris addr.toUInt32 = some i →
      (periOf s.peris i).maxRegIdx = -1 → locate s addr size = .ok (s', t) → s' = s) ∧
    ∀ peri : PmPeripheral, peri.maxRegIdx = -1 → copiedEvents modelIf (hexKey peri.baseAddr) = [] →
      ∃ members, dumpPeris modelIf [peri] [] = .ok members ∧
        pmLoadModel lib pmStage false errno g (some (.obj [("model", .obj members)])) =
          .ok ([⟨peri.baseAddr, regsOf [], -1, CConv.toInt peri.drBytesNum,
            UInt32.ofInt (CConv.toInt peri.regSize.toNat), []⟩], g) := by
  refine ⟨fun s s' addr size i t found negative located => locate_unraised found negative located,
    fun peri negative noEvents => ⟨_, dumpPeris_unraised modelIf peri negative noEvents, ?_⟩⟩
  -- the dump is the bare model file of the peripheral
  exact load_bareModel doc pmStage notExplore errno g peri.baseAddr peri.drBytesNum
    (CConv.toInt peri.regSize.toNat)

def noGlobals : LoadGlobals := ⟨0, 0, 0, [], 0⟩

def bareLoaded : PmPeripheral := ⟨0x40000000, regsOf [], -1, 2, 4, []⟩

def afterBareWrite : Emu :=
  match unassignedMemWrite idStage (Emu.init [bareLoaded]) 0x40000000 5 4 with
  | .ok s => s
  | .error _ => Emu.init []

theorem empty_regs_write_lost_on_reload :
    pmLoadModel Jansson.manual .srRId false 0 noGlobals (some (bareModel 0x40000000 2 4)) =
      .ok ([bareLoaded], noGlobals) ∧
    unassignedMemWrite idStage (Emu.init [bareLoaded]) 0x40000000 5 4 = .ok afterBareWrite ∧
    (afterBareWrite.regAt 0 ⟨0, by decide⟩).type = .dr ∧
    (afterBareWrite.regAt 0 ⟨0, by decide⟩).write = 1 ∧
    ∃ members peri',
      dumpPeris ((bareModel 0x40000000 2 4).member? "model") afterBareWrite.peris [] = .ok members ∧
      pmLoadModel Jansson.manual .srRId false 0 noGlobals (some (.obj [("model", .obj members)])) =
        .ok ([peri'], noGlobals) ∧
      (peri'.regs ⟨0, by decide⟩).type = .uc ∧ (peri'.regs ⟨0, by decide⟩).write = 0 := by
  obtain ⟨-, reload⟩ := unraised_max_reg_idx_loses_registers Jansson.manual Jansson.manual_documented
    .srRId (by decide) 0 noGlobals ((bareModel 0x40000000 2 4).member? "model")
  obtain ⟨members, dumped, loaded⟩ := reload (periOf afterBareWrite.peris 0) rfl rfl
  exact ⟨load_bareModel Jansson.manual_documented .srRId (by decide) 0 noGlobals 0x40000000 2 4, rfl, rfl, rfl, members, _,
    dumped, loaded, rfl, rfl⟩

end P2im
