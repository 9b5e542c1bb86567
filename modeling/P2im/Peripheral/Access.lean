import P2im.Peripheral.Mmio

set_option autoImplicit false

/-!
# What one access does

Spec lemmas for the pieces of `unassigned_mem_read` and `unassigned_mem_write`: where an
access lands in the register file, and what the DR and SR cases return.
-/

namespace P2im

/-- The register size an access at `addr32` of width `size` is split by: that of the
peripheral holding the address, or the width of this access for a new peripheral. -/
def regSizeFor (peris : List PmPeripheral) (addr32 size : UInt32) : UInt32 :=
  match getPeri peris addr32 with
  | some i => (periOf peris i).regSize
  | none => size

theorem regSize_lookupPeri (peris : List PmPeripheral) (addr32 size : UInt32) :
    (periOf (lookupPeri peris addr32 size).1 (lookupPeri peris addr32 size).2).regSize =
      regSizeFor peris addr32 size := by
  unfold lookupPeri regSizeFor
  cases found : getPeri peris addr32 <;> simp [createPeri, periOf]

theorem lookupPeri_idx_lt (peris : List PmPeripheral) (addr32 size : UInt32) :
    (lookupPeri peris addr32 size).2 < (lookupPeri peris addr32 size).1.length := by
  unfold lookupPeri
  cases found : getPeri peris addr32 with
  | none => simp [createPeri]
  | some i =>
    unfold getPeri at found
    exact (List.findIdx?_eq_some_iff_findIdx_eq.mp found).1

theorem locate_frame {s s1 : Emu} {addr size : Nat} {t : Target}
    (located : locate s addr size = .ok (s1, t)) :
    s1 = { s with peris := s1.peris } ∧ t.addr32 = addr.toUInt32 ∧ t.periIdx < s1.peris.length := by
  have bound := lookupPeri_idx_lt s.peris addr.toUInt32 size.toUInt32
  rcases lookup : lookupPeri s.peris addr.toUInt32 size.toUInt32 with ⟨peris, i⟩
  rw [lookup] at bound
  unfold locate at located
  simp only [lookup, Emu.periAt] at located
  by_cases zero : (periOf peris i).regSize.toNat = 0
  · rw [if_pos zero] at located
    cases located
  · rw [if_neg zero] at located
    split at located
    · simp only [Except.ok.injEq, Prod.mk.injEq] at located
      obtain ⟨rfl, rfl⟩ := located
      refine ⟨?_, rfl, ?_⟩
      · split <;> rfl
      · split <;> simpa using bound
    · cases located

theorem toUInt32_toNat_mod_range (addr : Nat) (small : addr < 2 ^ 32) :
    addr.toUInt32.toNat % pmPeriAddrRange = addr % pmPeriAddrRange := by
  rw [Nat.toUInt32, UInt32.toNat_ofNat', Nat.mod_eq_of_lt small]

theorem locate_past (s : Emu) (addr size : Nat) (small : addr < 2 ^ 32)
    (past : (regSizeFor s.peris addr.toUInt32 size.toUInt32).toNat * pmMaxRegNum ≤
      addr % pmPeriAddrRange) :
    locate s addr size = .error .undefined := by
  have sized := regSize_lookupPeri s.peris addr.toUInt32 size.toUInt32
  rcases lookup : lookupPeri s.peris addr.toUInt32 size.toUInt32 with ⟨peris, i⟩
  rw [lookup] at sized
  have offset := toUInt32_toNat_mod_range addr small
  unfold locate
  simp only [lookup, Emu.periAt]
  by_cases zero : (periOf peris i).regSize.toNat = 0
  · rw [if_pos zero]
    rfl
  · have beyond : pmMaxRegNum ≤ addr.toUInt32.toNat % pmPeriAddrRange /
        (periOf peris i).regSize.toNat := by
      rw [Nat.le_div_iff_mul_le (Nat.pos_of_ne_zero zero), offset, Nat.mul_comm, sized]
      exact past
    rw [if_neg zero, dif_neg (Nat.not_lt.mpr beyond)]

theorem access_past_register_file (cfg : RunConfig) (s : Emu) (addr val size : Nat)
    (inRange : 0x40000000 ≤ addr ∧ addr < 0x60000000)
    (past : (regSizeFor s.peris addr.toUInt32 size.toUInt32).toNat * pmMaxRegNum ≤
      addr % pmPeriAddrRange) :
    unassignedMemRead cfg s addr size = .error .undefined ∧
      unassignedMemWrite cfg s addr val size = .error .undefined := by
  have undefined := locate_past s addr size (by omega) past
  constructor
  · simp [unassignedMemRead, inRange, undefined]
  · simp [unassignedMemWrite, inRange, undefined]

theorem writeValB_frame {reg reg' : PmMMIORegister} {off : Nat} {wriVal : UInt32} {n : Nat}
    (written : writeValB reg off wriVal n = .ok reg') : reg' = { reg with valB := reg'.valB } := by
  induction n generalizing reg' with
  | zero =>
    cases written
    rfl
  | succ i ih =>
    obtain ⟨mid, first, last⟩ := Except.bind_eq_ok.mp written
    split at last
    · cases last
      rw [ih first]
    · cases last

theorem writeValB_fits (reg : PmMMIORegister) (off : Nat) (wriVal : UInt32) (n : Nat)
    (fits : off + n ≤ 4) : ∃ reg', writeValB reg off wriVal n = .ok reg' := by
  induction n with
  | zero => exact ⟨reg, rfl⟩
  | succ i ih =>
    obtain ⟨mid, first⟩ := ih (by omega)
    have within : off + i < 4 := by omega
    exact ⟨{ mid with valB := Function.update mid.valB ⟨off + i, within⟩ (wriVal >>> (i.toUInt32 * 8)).toUInt8 },
      by simp [writeValB, first, within]⟩

theorem valB_writeValB {reg reg' : PmMMIORegister} {off : Nat} {wriVal : UInt32} {n : Nat}
    (written : writeValB reg off wriVal n = .ok reg') {i : Nat} (below : i < n) (within : off + i < 4) :
    reg'.valB ⟨off + i, within⟩ = (wriVal >>> (i.toUInt32 * 8)).toUInt8 := by
  induction n generalizing reg' with
  | zero => omega
  | succ m ih =>
    obtain ⟨mid, first, last⟩ := Except.bind_eq_ok.mp written
    split at last
    · cases last
      dsimp only
      by_cases same : i = m
      · subst same
        simp
      · rw [Function.update_of_ne (by simp [Fin.ext_iff]; omega)]
        exact ih first (by omega)
    · cases last

theorem readValB_congr {reg reg' : PmMMIORegister} (same : reg'.valB = reg.valB) (off n : Nat) :
    readValB reg' off n = readValB reg off n := by
  induction n with
  | zero => rfl
  | succ m ih => simp only [readValB, ih, valBAt, same]

theorem toNat_mod_or_byte (v : UInt32) {m : Nat} (below : m < 4) :
    ((v.toNat % 2 ^ (8 * m)).toUInt32 ||| ((v >>> (m.toUInt32 * 8)).toUInt8.toUInt32 <<< (m.toUInt32 * 8))) =
      (v.toNat % 2 ^ (8 * (m + 1))).toUInt32 := by
  have shift : (m.toUInt32 * 8).toNat = 8 * m := by
    simp only [UInt32.toNat_mul, Nat.toUInt32_eq, UInt32.toNat_ofNat', UInt32.reduceToNat]
    omega
  have word : 2 ^ (8 * m) * 2 ^ 8 ≤ 2 ^ 32 := by
    rw [← Nat.pow_add]
    exact Nat.pow_le_pow_right (by decide) (by omega)
  have low : v.toNat % 2 ^ (8 * m) < 2 ^ (8 * m) := Nat.mod_lt _ (Nat.two_pow_pos _)
  have byte : v.toNat >>> (8 * m) % 2 ^ 8 < 2 ^ 8 := Nat.mod_lt _ (by decide)
  have placed : (v.toNat >>> (8 * m) % 2 ^ 8) <<< (8 * m) < 2 ^ 32 := by
    rw [Nat.shiftLeft_eq, Nat.mul_comm]
    exact Nat.lt_of_lt_of_le (Nat.mul_lt_mul_of_pos_left byte (Nat.two_pow_pos _)) word
  have next : v.toNat % 2 ^ (8 * (m + 1)) =
      (v.toNat >>> (8 * m) % 2 ^ 8) <<< (8 * m) + v.toNat % 2 ^ (8 * m) := by
    rw [Nat.mul_succ, Nat.pow_add, Nat.mod_mul, Nat.shiftRight_eq_div_pow, Nat.shiftLeft_eq, Nat.add_comm,
      Nat.mul_comm]
  have whole : v.toNat % 2 ^ (8 * (m + 1)) < 2 ^ 32 :=
    Nat.lt_of_lt_of_le (Nat.mod_lt _ (Nat.two_pow_pos _)) (Nat.pow_le_pow_right (by decide) (by omega))
  apply UInt32.toNat.inj
  simp only [UInt32.toNat_or, UInt32.toNat_shiftLeft, UInt32.toNat_shiftRight, UInt8.toNat_toUInt32,
    UInt32.toNat_toUInt8, Nat.toUInt32_eq, UInt32.toNat_ofNat', shift, Nat.mod_eq_of_lt (show 8 * m < 32 by omega)]
  rw [Nat.mod_eq_of_lt (Nat.lt_of_lt_of_le low (Nat.pow_le_pow_right (by decide) (by omega))),
    Nat.mod_eq_of_lt placed, Nat.mod_eq_of_lt whole, next, Nat.shiftLeft_add_eq_or_of_lt low, Nat.lor_comm]

theorem readValB_writeValB {reg reg' : PmMMIORegister} {off : Nat} {wriVal : UInt32} {n : Nat}
    (written : writeValB reg off wriVal n = .ok reg') (fits : off + n ≤ 4) :
    readValB reg' off n = .ok (wriVal.toNat % 2 ^ (8 * n)).toUInt32 := by
  -- the first `m` bytes read back the value modulo `256 ^ m`
  suffices bytes : ∀ m ≤ n, readValB reg' off m = .ok (wriVal.toNat % 2 ^ (8 * m)).toUInt32 from
    bytes n (Nat.le_refl n)
  intro m
  induction m with
  | zero =>
    intro _
    rw [Nat.mul_zero, Nat.pow_zero, Nat.mod_one]
    rfl
  | succ m ih =>
    intro le
    have within : off + m < 4 := by omega
    rw [readValB, ih (by omega), Except.ok_bind, valBAt, dif_pos within, Except.ok_bind,
      valB_writeValB written (by omega) within, toNat_mod_or_byte wriVal (by omega)]
    rfl

def drWorker : RunConfig := ⟨.fuzzing, some (.bytes []), true, 0, 0, 0, none⟩

theorem access_past_register_file_first_byte :
    (0x40000000 ≤ 0x40000100 ∧ 0x40000100 < 0x60000000) ∧
      (regSizeFor [] (0x40000100 : Nat).toUInt32 (1 : Nat).toUInt32).toNat * pmMaxRegNum ≤
        0x40000100 % pmPeriAddrRange ∧
      unassignedMemRead drWorker (Emu.init []) 0x40000100 1 = .error .undefined ∧
      unassignedMemWrite drWorker (Emu.init []) 0x40000100 0 1 = .error .undefined :=
  ⟨by decide, by decide,
    access_past_register_file drWorker (Emu.init []) 0x40000100 0 1 (by decide) (by decide)⟩

def Emu.pmRandAt (s : Emu) (i : Nat) : UInt8 :=
  if h : i < pmRandArrSize then s.pmRand ⟨i, h⟩ else 0

/-- The value `ret_val = (ret_val << 8) + byte` builds from `bytes`, first byte most
significant. -/
def bigEndian (acc : UInt32) (bytes : List UInt8) : UInt32 :=
  bytes.foldl (fun acc byte => (acc <<< 8) + byte.toUInt32) acc

theorem pmRandLoop_eq (s : Emu) (retVal : UInt32) (doneWorkP : Int) (d : Nat)
    (start : 0 ≤ s.pmRandI) (inside : s.pmRandI + d ≤ pmRandArrSize) :
    pmRandLoop s retVal doneWorkP d =
      .ok ({ s with pmRandI := s.pmRandI + d },
        bigEndian retVal ((List.range' s.pmRandI.toNat d).map s.pmRandAt),
        if 0 < d ∧ s.pmRandSz < s.pmRandI + d then 0x71 else doneWorkP) := by
  induction d generalizing s retVal doneWorkP with
  | zero => simp [pmRandLoop, bigEndian]
  | succ d ih =>
    have within : 0 ≤ s.pmRandI ∧ s.pmRandI < pmRandArrSize := by omega
    rw [pmRandLoop, dif_pos within]
    rw [ih _ _ _ (by simp only; omega) (by simp only; omega)]
    have byte : s.pmRand ⟨s.pmRandI.toNat, by omega⟩ = s.pmRandAt s.pmRandI.toNat := by
      simp [Emu.pmRandAt, show s.pmRandI.toNat < pmRandArrSize by omega]
    have cursor : s.pmRandI.toNat + 1 = (s.pmRandI + 1).toNat := by omega
    simp only [byte, List.range'_succ, List.map_cons, bigEndian, List.foldl_cons, cursor]
    congr 3
    · omega
    · split_ifs <;> omega

theorem srRFileLoop_eq (cfg : RunConfig) (s : Emu) (bytes : List UInt8) (ptr : Nat)
    (retVal : UInt32) (k : Nat) (room : ptr + k ≤ bytes.length) :
    srRFileLoop cfg s ⟨bytes, ptr⟩ retVal k =
      .ok (s, ⟨bytes, ptr + k⟩, bigEndian retVal ((bytes.drop ptr).take k)) := by
  induction k generalizing ptr retVal with
  | zero => simp [srRFileLoop, bigEndian]
  | succ k ih =>
    have inside : ptr < bytes.length := by omega
    have next : (bytes.drop ptr).take (k + 1) = bytes[ptr] :: (bytes.drop (ptr + 1)).take k := by
      rw [List.drop_eq_getElem_cons inside, List.take_succ_cons]
    rw [srRFileLoop, List.getElem?_eq_getElem inside]
    simp only
    rw [ih (ptr + 1) _ (by omega), next, Nat.add_right_comm]
    rfl

theorem srRFileRead_eq (cfg : RunConfig) (s : Emu) (bytes : List UInt8) (ptr : Nat)
    (opened : openSrRFile cfg s = .ok ⟨bytes, ptr⟩) (room : ptr + 4 ≤ bytes.length) :
    srRFileRead cfg s =
      .ok ({ s with
        srRMap := some ⟨bytes, ptr + 4⟩
        prevRetVal := bigEndian 0 ((bytes.drop ptr).take 4) }, bigEndian 0 ((bytes.drop ptr).take 4)) := by
  rw [srRFileRead, opened, Except.ok_bind, srRFileLoop_eq cfg s bytes ptr 0 4 room]
  rfl

theorem empty_afl_file_ends_run_with_zero (cfg : RunConfig) (s s1 : Emu) (t : Target)
    (addr size : Nat) (fuzzing : cfg.pmStage = .fuzzing) (worker : cfg.aflStartfsInvoked = true)
    (empty : cfg.aflFile = some (.bytes []))
    (inRange : 0x40000000 ≤ addr ∧ addr < 0x60000000)
    (located : locate s addr size = .ok (s1, t))
    (dr : (s1.regAt t.periIdx t.regIdx).type = .dr)
    (fresh : s.pmRandSz = 0 ∧ s.pmRandI = 0)
    (width : 1 ≤ (s1.periAt t.periIdx).drBytesNum ∧ (s1.periAt t.periIdx).drBytesNum ≤ pmRandArrSize) :
    ∃ s', unassignedMemRead cfg s addr size = .error (.exit 0 false s') := by
  obtain ⟨frame, -, -⟩ := locate_frame located
  simp only [Emu.periAt_eq] at width
  have unloaded : s1.pmRandSz = 0 := by rw [frame]; exact fresh.1
  have start : s1.pmRandI = 0 := by rw [frame]; exact fresh.2
  -- the empty file flags 0x70 and leaves pm_rand_sz at 0
  let s2 : Emu := { s1 with
    pmRandSz := 0, pmRand := fun j => (([] : List UInt8)[j.val]?).getD (s1.pmRand j) }
  have loaded : loadPmRand cfg s1 = .ok (s2, 0x70) := by
    simp [s2, loadPmRand, unloaded, empty, pmRandMinSize]
  -- the first byte already moves the cursor past pm_rand_sz
  have same : s2.peris = s1.peris := rfl
  have drained := pmRandLoop_eq s2 0 0x70 (periOf s1.peris t.periIdx).drBytesNum.toNat
    (by simp [s2, start]) (by simp only [s2, start]; omega)
  have past : 0 < (periOf s1.peris t.periIdx).drBytesNum.toNat ∧
      s2.pmRandSz < s2.pmRandI + (periOf s1.peris t.periIdx).drBytesNum.toNat := by
    simp only [s2, start]
    omega
  rw [if_pos past] at drained
  have stage : cfg.pmMeEna = false := by simp [RunConfig.pmMeEna, fuzzing]
  refine ⟨{ s2 with pmRandI := s2.pmRandI + (periOf s1.peris t.periIdx).drBytesNum.toNat }, ?_⟩
  simp only [unassignedMemRead, inRange, and_self, if_true, located, Except.ok_bind, catRead,
    stage, Bool.false_eq_true, if_false, Except.pure_eq_ok, serveRead, dr, drRead, workerDrRead,
    pmRandRead, fuzzing, worker]
  simp [loaded, same, drained, finishRead, doneWork, fuzzing, pmUncatReg, pmUnmodSrrs]

theorem unassignedMemRead_worker_dr {cfg : RunConfig} (fuzzing : cfg.pmStage = .fuzzing)
    (worker : cfg.aflStartfsInvoked = true) {s : Emu} {addr size : Nat} {t : Target}
    (inRange : 0x40000000 ≤ addr ∧ addr < 0x60000000) (located : locate s addr size = .ok (s, t))
    (dr : (s.regAt t.periIdx t.regIdx).type = .dr) (loaded : s.pmRandSz ≠ 0) (start : 0 ≤ s.pmRandI)
    (enough : s.pmRandI + (s.periAt t.periIdx).drBytesNum.toNat ≤ s.pmRandSz)
    (inArray : s.pmRandSz ≤ pmRandArrSize) :
    unassignedMemRead cfg s addr size =
      .ok ({ s with pmRandI := s.pmRandI + (s.periAt t.periIdx).drBytesNum.toNat },
        bigEndian 0 ((List.range' s.pmRandI.toNat (s.periAt t.periIdx).drBytesNum.toNat).map s.pmRandAt)) := by
  have stage : cfg.pmMeEna = false := by simp [RunConfig.pmMeEna, fuzzing]
  have kept : loadPmRand cfg s = .ok (s, 0) := by simp [loadPmRand, loaded]
  have drained := pmRandLoop_eq s 0 0 (s.periAt t.periIdx).drBytesNum.toNat start (by omega)
  -- the cursor stays within `pm_rand_sz`, so the read flags nothing
  rw [if_neg (by omega)] at drained
  simp only [Emu.periAt_eq] at drained
  simp only [unassignedMemRead, if_pos inRange, located, Except.ok_bind, catRead, stage,
    Bool.false_eq_true, if_false, Except.pure_eq_ok, serveRead, dr, drRead, fuzzing, workerDrRead,
    worker, Bool.not_true, pmRandRead, kept, Emu.periAt_eq, drained, finishRead, bne_self_eq_false]

theorem unassignedMemWrite_dr {cfg : RunConfig} (unmodelled : cfg.pmMeEna = false) {s : Emu}
    {addr val size : Nat} {t : Target} (inRange : 0x40000000 ≤ addr ∧ addr < 0x60000000)
    (located : locate s addr size = .ok (s, t)) (dr : (s.regAt t.periIdx t.regIdx).type = .dr) :
    unassignedMemWrite cfg s addr val size = .ok s := by
  simp only [Emu.regAt_eq] at dr
  simp [unassignedMemWrite, inRange, located, catWrite, unmodelled, serveWrite, dr]

def drPeri : PmPeripheral :=
  ⟨0x40000000, fun _ => { PmMMIORegister.zero with type := .dr }, 0, 2, 4, []⟩

theorem empty_afl_file_first_dr_read :
    locate (Emu.init [drPeri]) 0x40000000 4 = .ok (Emu.init [drPeri], ⟨0x40000000, 0, ⟨0, by decide⟩, 0⟩) ∧
      ∃ s', unassignedMemRead drWorker (Emu.init [drPeri]) 0x40000000 4 = .error (.exit 0 false s') :=
  ⟨rfl, empty_afl_file_ends_run_with_zero drWorker _ _ _ 0x40000000 4 rfl rfl rfl (by decide) rfl
    rfl ⟨rfl, rfl⟩ (by decide)⟩

theorem crValLoop_no_cr (peri : PmPeripheral) (i k : Nat) (printed : List Char)
    (inside : i + k ≤ pmMaxRegNum)
    (noCr : ∀ j (h : j < pmMaxRegNum), i ≤ j → j < i + k → isCrType (peri.regs ⟨j, h⟩).type = false) :
    crValLoop peri i printed k = .ok printed := by
  induction k generalizing i with
  | zero => rfl
  | succ k ih =>
    have within : i < pmMaxRegNum := by omega
    have reg : peri.regAt i = .ok (peri.regs ⟨i, within⟩) := by simp [PmPeripheral.regAt, within]
    simp only [crValLoop, reg, Except.ok_bind, noCr i within (Nat.le_refl i) (by omega),
      Bool.false_eq_true, if_false]
    exact ih (i + 1) (by omega) (fun j h lo hi => noCr j h (by omega) (by omega))

theorem find_model_without_cr_writes_before_key (bblE : UInt32) (peri : PmPeripheral)
    (reg : PmMMIORegister) (inside : peri.maxRegIdx < pmMaxRegNum)
    (noCr : ∀ j (h : j < pmMaxRegNum), (j : Int) ≤ peri.maxRegIdx →
      isCrType (peri.regs ⟨j, h⟩).type = false) :
    pmSRFindModel bblE peri reg = .error .undefined := by
  have printed := crValLoop_no_cr peri 0 (peri.maxRegIdx + 1).toNat [] (by omega)
    (fun j h _ below => noCr j h (by omega))
  simp [pmSRFindModel, crValKey, printed]

def srPeri : PmPeripheral :=
  ⟨0x40000000, fun _ => { PmMMIORegister.zero with type := .sr }, 0, 2, 4, []⟩

theorem find_model_first_sr_read :
    srPeri.maxRegIdx < pmMaxRegNum ∧
      pmSRFindModel 0x8000 srPeri (srPeri.regs ⟨0, by decide⟩) = .error .undefined :=
  ⟨by decide, find_model_without_cr_writes_before_key 0x8000 srPeri _ (by decide)
    (fun _ _ _ => rfl)⟩

end P2im
