import P2im.Peripheral.Basic
import P2im.Shared.Printf
import P2im.Shared.Cyclic

set_option autoImplicit false

/-!
# Serving SR reads from the model

The level-4 functions of `hw/arm/peri-mod.c`: `pm_SR_read` walks an event's table of
satisfying bit combinations, and `pm_SR_find_model` finds the event of a read site from the
values of the peripheral's CR and CR_SR registers.

The cursor of an event, `cur_sr` below `cur_satisfy`, is a counter of two digits: the SR
position moves on at every read and the combination with it when the position wraps round, so
the reads of a well-formed event serve its table in round robin.
-/

namespace P2im

/-- `e->satisfy[k][j][b]`, undefined outside the array. -/
def PmEvent.satisfyAt (e : PmEvent) (k j b : Int) : Except Halt Int :=
  if h : 0 ≤ k ∧ k < pmMaxSatisfyNum ∧ 0 ≤ j ∧ j < pmMaxBitCombSz ∧ 0 ≤ b ∧ b < pmSetBits then
    .ok (e.satisfy ⟨k.toNat, by omega⟩ ⟨j.toNat, by omega⟩ ⟨b.toNat, by omega⟩)
  else .error .undefined

/-- `1 << b` for an `int` bit index, OR-ed into a `target_ulong`; a shift past the width of
`int`, or by a negative amount, is undefined. -/
def bitOf (b : Int) : Except Halt UInt32 :=
  if 0 ≤ b ∧ b < 32 then .ok ((1 : UInt32) <<< b.toNat.toUInt32) else .error .undefined

/-- C's `a % b` on `int`: truncating, undefined for `b = 0`. -/
def cMod (a b : Int) : Except Halt Int :=
  if b = 0 then .error .undefined else .ok (a.tmod b)

/-- `for (i = 0; i < e->set_bits; i ++) ret_val |= 1 << e->satisfy[cur_satisfy][cur_sr][i+1];`
from iteration `i`, with `k` iterations left. -/
def setBitsLoop (e : PmEvent) (i : Nat) (retVal : UInt32) : Nat → Except Halt UInt32
  | 0 => .ok retVal
  | k + 1 => do
    let b ← e.satisfyAt e.curSatisfy e.curSr (i + 1)
    let bit ← bitOf b
    setBitsLoop e (i + 1) (retVal ||| bit) k

/-- `pm_SR_read`: the value of the current (combination, SR position) of the event, which then
moves on to the next SR position, and past the last one to the next combination. -/
def pmSRRead (e : PmEvent) : Except Halt (PmEvent × UInt32) := do
  if e.satisfyNum = 0 then return (e, 0)
  let setClear ← e.satisfyAt e.curSatisfy e.curSr 0
  -- a clear needs no bit: the value stays 0
  let retVal ← if setClear ≠ 0 then setBitsLoop e 0 0 e.setBits.toNat else pure 0
  let curSr ← cMod (e.curSr + 1) e.srNum
  let curSatisfy ← if curSr = 0 then cMod (e.curSatisfy + 1) e.satisfyNum else pure e.curSatisfy
  pure ({ e with curSr, curSatisfy }, retVal)

def isCrType (type : PmRegType) : Bool := type == .cr || type == .crSr

/-- `"%d:0x%x,"` of a CR register's index and value. -/
def crValPiece (i : Nat) (crVal : UInt32) : List Char :=
  Printf.decimal i ++ ":0x".toList ++ Printf.hex crVal.toNat ++ [',']

/-- The printing loop of `pm_SR_find_model` over registers `i ..`, with `k` iterations left: the
text printed into `CR_val` so far. The process exits as soon as the text reaches the buffer's
size. -/
def crValLoop (peri : PmPeripheral) (i : Nat) (printed : List Char) : Nat → Except Halt (List Char)
  | 0 => .ok printed
  | k + 1 => do
    let reg ← peri.regAt i
    if isCrType reg.type then
      let printed := printed ++ crValPiece i reg.valBWord
      if pmMaxCrValByte ≤ printed.length then .error (.exit 0x80)
      else crValLoop peri (i + 1) printed k
    else crValLoop peri (i + 1) printed k

/-- The key `pm_SR_find_model` builds, and the index `CR_val_idx - 1` at which it writes the
`'\0'` that removes the last `','`. -/
def crValKey (peri : PmPeripheral) : Except Halt (List Char × Int) := do
  let printed ← crValLoop peri 0 [] (peri.maxRegIdx + 1).toNat
  pure (printed.dropLast, (printed.length : Int) - 1)

/-- `strncmp(a, b, PM_MAX_CR_VAL_BYTE) == 0` on text without `'\0'` inside. -/
def sameCrVal (a b : List Char) : Bool := a.take pmMaxCrValByte == b.take pmMaxCrValByte

/-- `pm_SR_find_model`: the position of the event for the SR read of `reg` in the block ending
at `bblE`; a CR_SR register also needs the event's read index. -/
def pmSRFindModel (bblE : UInt32) (peri : PmPeripheral) (reg : PmMMIORegister) :
    Except Halt (Option Nat) := do
  let (key, trim) ← crValKey peri
  -- with no CR printed, the trim writes CR_val[-1], before the buffer
  if trim < 0 then .error .undefined
  pure <| peri.events.findIdx? fun e =>
    sameCrVal key e.crVal && e.bblE == bblE &&
      (reg.type == .sr || reg.type == .crSr && reg.rIdxInBbl == e.rIdx)

/-! ## The round robin of an event -/

/-- `n` calls of `pm_SR_read` on one event: the values they return, and the event after them. -/
def pmSRReads (e : PmEvent) : Nat → Except Halt (PmEvent × List UInt32)
  | 0 => .ok (e, [])
  | n + 1 => do
    let (e, retVal) ← pmSRRead e
    let (e, rest) ← pmSRReads e n
    pure (e, retVal :: rest)

def PmEvent.entry (e : PmEvent) (k j b : Nat) : Int :=
  if h : k < pmMaxSatisfyNum ∧ j < pmMaxBitCombSz ∧ b < pmSetBits then
    e.satisfy ⟨k, h.1⟩ ⟨j, h.2.1⟩ ⟨b, h.2.2⟩
  else 0

def orBits (acc : UInt32) (bs : List Int) : UInt32 :=
  bs.foldl (fun v b => v ||| (1 : UInt32) <<< b.toNat.toUInt32) acc

/-- What a read of combination `k` at SR position `j` should return: the bits after the flag
when the flag sets them, 0 when it clears them. -/
def PmEvent.served (e : PmEvent) (k j : Nat) : UInt32 :=
  if e.entry k j 0 = 0 then 0
  else orBits 0 ((List.range e.setBits.toNat).map fun i => e.entry k j (i + 1))

def PmEvent.atSlot (e : PmEvent) (u : Nat) : PmEvent :=
  { e with
    curSr := (u % e.srNum.toNat : Nat)
    curSatisfy := (u / e.srNum.toNat % e.satisfyNum.toNat : Nat) }

def PmEvent.servedAt (e : PmEvent) (u : Nat) : UInt32 :=
  e.served (u / e.srNum.toNat % e.satisfyNum.toNat) (u % e.srNum.toNat)

/-- An event whose table `pm_SR_read` can serve: at most three SRs and sixteen combinations,
one or two bits set by each entry, each a bit of a 32-bit register. -/
structure PmEvent.Servable (e : PmEvent) : Prop where
  srNum_pos : 1 ≤ e.srNum
  srNum_le : e.srNum ≤ pmMaxBitCombSz
  satisfyNum_pos : 1 ≤ e.satisfyNum
  satisfyNum_le : e.satisfyNum ≤ pmMaxSatisfyNum
  setBits : e.setBits = 1 ∨ e.setBits = 2
  bits : ∀ k < e.satisfyNum.toNat, ∀ j < e.srNum.toNat, ∀ i < e.setBits.toNat,
    0 ≤ e.entry k j (i + 1) ∧ e.entry k j (i + 1) < 32

section RoundRobin

variable {e : PmEvent}

theorem satisfyAt_entry {k j b : Nat} (hk : k < pmMaxSatisfyNum) (hj : j < pmMaxBitCombSz)
    (hb : b < pmSetBits) : e.satisfyAt k j b = .ok (e.entry k j b) := by
  have inside : 0 ≤ (k : Int) ∧ (k : Int) < pmMaxSatisfyNum ∧ 0 ≤ (j : Int) ∧ (j : Int) < pmMaxBitCombSz ∧
      0 ≤ (b : Int) ∧ (b : Int) < pmSetBits := by omega
  simp [PmEvent.satisfyAt, PmEvent.entry, inside, hk, hj, hb]

theorem bitOf_ok {b : Int} (nonneg : 0 ≤ b) (small : b < 32) :
    bitOf b = .ok ((1 : UInt32) <<< b.toNat.toUInt32) := by
  simp [bitOf, nonneg, small]

theorem cMod_natCast (a b : Nat) (pos : 0 < b) : cMod (a : Int) (b : Int) = .ok ((a % b : Nat) : Int) := by
  rw [cMod, if_neg (by omega), Int.ofNat_tmod]

theorem setBitsLoop_eq {k j : Nat} (hk : k < pmMaxSatisfyNum) (hj : j < pmMaxBitCombSz)
    (cursor : e.curSatisfy = k ∧ e.curSr = j) (i n : Nat) (acc : UInt32) (inside : i + n < pmSetBits)
    (valid : ∀ l < n, 0 ≤ e.entry k j (i + l + 1) ∧ e.entry k j (i + l + 1) < 32) :
    setBitsLoop e i acc n = .ok (orBits acc ((List.range n).map fun l => e.entry k j (i + l + 1))) := by
  induction n generalizing i acc with
  | zero => rfl
  | succ n ih =>
    obtain ⟨nonneg, small⟩ := valid 0 (Nat.zero_lt_succ n)
    have read : e.satisfyAt e.curSatisfy e.curSr ((i : Int) + 1) = .ok (e.entry k j (i + 1)) := by
      rw [cursor.1, cursor.2, show (i : Int) + 1 = ((i + 1 : Nat) : Int) by omega]
      exact satisfyAt_entry hk hj (by omega)
    have rest := ih (i + 1) (acc ||| (1 : UInt32) <<< (e.entry k j (i + 1)).toNat.toUInt32) (by omega)
      (fun l below => by simpa [Nat.add_assoc, Nat.add_comm 1] using valid (l + 1) (by omega))
    have shift : ((List.range n).map fun l => e.entry k j (i + 1 + l + 1)) =
        (List.range n).map fun l => e.entry k j (i + (l + 1) + 1) := by
      simp only [Nat.add_assoc, Nat.add_comm 1]
    simp only [setBitsLoop, read, Except.ok_bind, bitOf_ok nonneg small, rest, shift,
      List.range_succ_eq_map, List.map_cons, List.map_map, Nat.add_zero]
    rfl

variable (servable : e.Servable)
include servable

theorem pmSRRead_at (u : Nat)
    (cursor : e.curSr = (u % e.srNum.toNat : Nat) ∧ e.curSatisfy = (u / e.srNum.toNat % e.satisfyNum.toNat : Nat)) :
    pmSRRead e = .ok ({ e with
      curSr := ((u + 1) % e.srNum.toNat : Nat)
      curSatisfy := ((u + 1) / e.srNum.toNat % e.satisfyNum.toNat : Nat) },
      e.served (u / e.srNum.toNat % e.satisfyNum.toNat) (u % e.srNum.toNat)) := by
  have hn : 0 < e.srNum.toNat := by have := servable.srNum_pos; omega
  have hm : 0 < e.satisfyNum.toNat := by have := servable.satisfyNum_pos; omega
  set j := u % e.srNum.toNat with hj_def
  set k := u / e.srNum.toNat % e.satisfyNum.toNat with hk_def
  have hj : j < e.srNum.toNat := Nat.mod_lt _ hn
  have hk : k < e.satisfyNum.toNat := Nat.mod_lt _ hm
  have hj3 : j < pmMaxBitCombSz := by have := servable.srNum_le; simp [pmMaxBitCombSz] at this ⊢; omega
  have hk16 : k < pmMaxSatisfyNum := by
    have := servable.satisfyNum_le; simp [pmMaxSatisfyNum] at this ⊢; omega
  -- the value: the flag, then the bits of the entry when the flag is set
  have flag : e.satisfyAt e.curSatisfy e.curSr 0 = .ok (e.entry k j 0) := by
    rw [cursor.1, cursor.2]
    exact satisfyAt_entry hk16 hj3 (by decide)
  have loop : e.entry k j 0 ≠ 0 → setBitsLoop e 0 0 e.setBits.toNat = .ok (e.served k j) := by
    intro set
    have bits := setBitsLoop_eq hk16 hj3 ⟨cursor.2, cursor.1⟩ 0 e.setBits.toNat 0
      (by rcases servable.setBits with h | h <;> simp [h, pmSetBits])
      (fun l below => by simpa using servable.bits k hk j hj l below)
    rw [bits, PmEvent.served, if_neg set]
    simp
  have clear : e.entry k j 0 = 0 → e.served k j = 0 := fun c => by rw [PmEvent.served, if_pos c]
  -- the cursor: the counter's step, by the C `%` of non-negative values
  obtain ⟨lowStep, highStep⟩ := Cyclic.digits_succ (m := e.satisfyNum.toNat) hn u
  have nonempty : e.satisfyNum ≠ 0 := by have := servable.satisfyNum_pos; omega
  have low : cMod (e.curSr + 1) e.srNum = .ok (((j + 1) % e.srNum.toNat : Nat) : Int) := by
    rw [show e.curSr + 1 = ((j + 1 : Nat) : Int) by omega,
      show e.srNum = (e.srNum.toNat : Int) by have := servable.srNum_pos; omega]
    exact cMod_natCast _ _ hn
  have high : cMod (e.curSatisfy + 1) e.satisfyNum = .ok (((k + 1) % e.satisfyNum.toNat : Nat) : Int) := by
    rw [show e.curSatisfy + 1 = ((k + 1 : Nat) : Int) by omega,
      show e.satisfyNum = (e.satisfyNum.toNat : Int) by have := servable.satisfyNum_pos; omega]
    exact cMod_natCast _ _ hm
  rw [lowStep, highStep, ← hj_def, ← hk_def]
  simp only [pmSRRead, nonempty, if_false, flag, Except.ok_bind, low]
  by_cases wrap : (j + 1) % e.srNum.toNat = 0
  · -- the SR position wraps round, and the combination moves on
    split
    · next set => simp [loop set, high, wrap]
    · next unset => simp [clear (not_not.mp unset), high, wrap]
  · -- the SR position moves on alone
    have nonzero : ¬(((j + 1) % e.srNum.toNat : Nat) : Int) = 0 := by omega
    split
    · next set => simp [loop set, cursor.2]
    · next unset => simp [clear (not_not.mp unset), cursor.2]

theorem PmEvent.Servable.atSlot (u : Nat) : (e.atSlot u).Servable :=
  ⟨servable.srNum_pos, servable.srNum_le, servable.satisfyNum_pos, servable.satisfyNum_le,
    servable.setBits, servable.bits⟩

theorem pmSRRead_atSlot (u : Nat) : pmSRRead (e.atSlot u) = .ok (e.atSlot (u + 1), e.servedAt u) :=
  pmSRRead_at (servable.atSlot u) u ⟨rfl, rfl⟩

theorem pmSRReads_atSlot (u t : Nat) :
    pmSRReads (e.atSlot u) t = .ok (e.atSlot (u + t), (List.range' u t).map e.servedAt) := by
  induction t generalizing u with
  | zero => rfl
  | succ t ih =>
    rw [pmSRReads, pmSRRead_atSlot servable, Except.ok_bind]
    simp only [ih (u + 1), Except.ok_bind, List.range'_succ, List.map_cons, Nat.add_right_comm u 1 t,
      Nat.add_assoc]
    rfl

end RoundRobin

structure RoundRobinReads (e : PmEvent) : Prop where
  reads : ∀ t, ∃ e', pmSRReads e t = .ok (e', (List.range t).map e.servedAt) ∧
    0 ≤ e'.curSr ∧ e'.curSr < e.srNum ∧ 0 ≤ e'.curSatisfy ∧ e'.curSatisfy < e.satisfyNum
  window : ∀ s k j, k < e.satisfyNum.toNat → j < e.srNum.toNat →
    ∃! u, s ≤ u ∧ u < s + e.srNum.toNat * e.satisfyNum.toNat ∧
      ∃ e', (Prod.fst <$> pmSRReads e u) = .ok e' ∧ e'.curSatisfy = k ∧ e'.curSr = j

theorem PmEvent.atSlot_zero {e : PmEvent} (fresh : e.curSr = 0 ∧ e.curSatisfy = 0) : e.atSlot 0 = e := by
  cases e
  simp only at fresh
  simp [PmEvent.atSlot, fresh]

theorem pm_sr_read_round_robin {e : PmEvent} (servable : e.Servable)
    (fresh : e.curSr = 0 ∧ e.curSatisfy = 0) : RoundRobinReads e := by
  have hn : 0 < e.srNum.toNat := by have := servable.srNum_pos; omega
  have hm : 0 < e.satisfyNum.toNat := by have := servable.satisfyNum_pos; omega
  -- the reads from the first cursor are those from counter value 0
  have run : ∀ t, pmSRReads e t = .ok (e.atSlot t, (List.range t).map e.servedAt) := fun t => by
    have := pmSRReads_atSlot servable 0 t
    rwa [PmEvent.atSlot_zero fresh, Nat.zero_add, ← List.range_eq_range'] at this
  refine ⟨fun t => ⟨e.atSlot t, run t, ?_⟩, fun s k j hk hj => ?_⟩
  · have low := Nat.mod_lt t hn
    have high := Nat.mod_lt (t / e.srNum.toNat) hm
    simp only [PmEvent.atSlot]
    omega
  · obtain ⟨u, ⟨lo, hi, dj, dk⟩, unique⟩ := Cyclic.digits_window hn hm s hj hk
    refine ⟨u, ⟨lo, hi, e.atSlot u, by rw [run]; rfl, by simp [PmEvent.atSlot, dk],
      by simp [PmEvent.atSlot, dj]⟩, ?_⟩
    rintro v ⟨lo', hi', e', reads, atK, atJ⟩
    rw [run] at reads
    cases reads
    simp only [PmEvent.atSlot] at atK atJ
    exact unique v ⟨lo', hi', by omega, by omega⟩

def twoSrEvent : PmEvent :=
  { PmEvent.zero with
    srNum := 2, setBits := 1, satisfyNum := 2
    satisfy := fun k j b => ((([[[1, 3], [0, 5]], [[0, 1], [1, 4]]] : List (List (List Int))).getD k.val
      []).getD j.val []).getD b.val 0 }

theorem twoSrEvent_servable : twoSrEvent.Servable :=
  ⟨by decide, by decide, by decide, by decide, .inl rfl, by decide⟩

theorem pm_sr_read_two_srs :
    twoSrEvent.Servable ∧ (twoSrEvent.curSr = 0 ∧ twoSrEvent.curSatisfy = 0) ∧
      RoundRobinReads twoSrEvent :=
  ⟨twoSrEvent_servable, ⟨rfl, rfl⟩, pm_sr_read_round_robin twoSrEvent_servable ⟨rfl, rfl⟩⟩

example : (List.range 4).map twoSrEvent.servedAt = [8, 0, 0, 16] := by decide

end P2im
