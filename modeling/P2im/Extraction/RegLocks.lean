import P2im.Extraction.Regs
import P2im.Shared.Halt

set_option autoImplicit false

/-!
# Locks in the scripts

The scripts keep the lock discipline of the emulator on the register records of a model file:
`stage2_2` gives a locked register back the category and lock every exploration run kept for it,
and the adjustment to a DR leaves a locked SR alone. Registers are compared by position, a
position past the end of a list reading as `{"type": 0}`, which holds no lock.
-/

namespace P2im

namespace RegDict

/-- `reg["sr_locked"]` as the scripts test it; a record without the member holds no lock. -/
def lock (d : RegDict) : Int := d.srLocked.getD 0

/-- `sr_locked != 0` only on an SR or a CR_SR. -/
def LockOk (d : RegDict) : Prop := d.lock ≠ 0 → d.type = 2 ∨ d.type = 4

def KeepsLock (d d' : RegDict) : Prop := d.lock ≠ 0 → d'.type = d.type ∧ d'.lock = d.lock

@[simp] theorem lock_popCrValue (d : RegDict) : d.popCrValue.lock = d.lock := rfl

@[simp] theorem type_popCrValue (d : RegDict) : d.popCrValue.type = d.type := rfl

@[simp] theorem lock_uc : RegDict.uc.lock = 0 := rfl

theorem lockOk_uc : RegDict.uc.LockOk := fun locked => absurd lock_uc locked

theorem keepsLock_of_same {d d' : RegDict} (type : d'.type = d.type) (lock : d'.lock = d.lock) :
    d.KeepsLock d' := fun _ => ⟨type, lock⟩

theorem lockOk_of_same {d d' : RegDict} (type : d'.type = d.type) (lock : d'.lock = d.lock)
    (ok : d.LockOk) : d'.LockOk := by
  intro locked
  rw [type]
  exact ok (lock ▸ locked)

end RegDict

def RegsSound (regs : List RegDict) : Prop := ∀ i, (regs.getD i RegDict.uc).LockOk

def RegsKeep (regs regs' : List RegDict) : Prop :=
  ∀ i, (regs.getD i RegDict.uc).KeepsLock (regs'.getD i RegDict.uc)

def RunKeeps (old new : List RegDict) : Prop :=
  ∀ i, i < new.length →
    (old.getD i RegDict.uc).KeepsLock (new.getD i RegDict.uc) ∧ (new.getD i RegDict.uc).LockOk

theorem getD_tail (regs : List RegDict) (i : Nat) :
    regs.tail.getD i RegDict.uc = regs.getD (i + 1) RegDict.uc := by
  cases regs <;> simp

theorem getD_tail_diffs (diffs : List (List RegDict)) (i : Nat) :
    diffs.tail.getD i [] = diffs.getD (i + 1) [] := by
  cases diffs <;> simp

theorem mem_addNew {news : List RegDict} {new n : RegDict} (mem : n ∈ addNew news new) :
    n ∈ news ∨ n = new := by
  unfold addNew at mem
  split at mem
  · exact Or.inl mem
  · simpa using mem

theorem diffRegs_old (old : List RegDict) (diffs : List (List RegDict)) (new : List RegDict)
    (i : Nat) : (diffRegs old diffs new).1.getD i RegDict.uc =
      if i < new.length then (old.getD i RegDict.uc).popCrValue else old.getD i RegDict.uc := by
  induction new generalizing old diffs i with
  | nil => simp [diffRegs]
  | cons n rest ih =>
    cases i with
    | zero => cases old <;> simp [diffRegs]
    | succ i =>
      simp only [diffRegs, List.getD_cons_succ, ih, getD_tail, List.length_cons]
      simp

theorem diffRegs_diffs (old : List RegDict) (diffs : List (List RegDict)) (new : List RegDict)
    (i : Nat) : (diffRegs old diffs new).2.getD i [] =
      if h : i < new.length then
        if (old.getD i RegDict.uc).popCrValue = (new[i]).popCrValue then diffs.getD i []
        else addNew (diffs.getD i []) (new[i]).popCrValue
      else diffs.getD i [] := by
  induction new generalizing old diffs i with
  | nil => simp [diffRegs]
  | cons n rest ih =>
    cases i with
    | zero => cases old <;> cases diffs <;> simp [diffRegs]
    | succ i =>
      simp only [diffRegs, List.getD_cons_succ, ih, getD_tail, getD_tail_diffs, List.length_cons]
      simp

structure DiffInv (old₀ old : List RegDict) (diffs : List (List RegDict)) : Prop where
  same : ∀ i, (old.getD i RegDict.uc).type = (old₀.getD i RegDict.uc).type ∧
    (old.getD i RegDict.uc).lock = (old₀.getD i RegDict.uc).lock
  news : ∀ i, ∀ n ∈ diffs.getD i [], (old₀.getD i RegDict.uc).KeepsLock n ∧ n.LockOk

theorem diffInv_init (old₀ : List RegDict) : DiffInv old₀ old₀ [] :=
  ⟨fun _ => ⟨rfl, rfl⟩, fun i n mem => by simp at mem⟩

theorem diffRegs_inv {old₀ old new : List RegDict} {diffs : List (List RegDict)}
    (inv : DiffInv old₀ old diffs) (keeps : RunKeeps old₀ new) :
    DiffInv old₀ (diffRegs old diffs new).1 (diffRegs old diffs new).2 := by
  constructor
  · intro i
    rw [diffRegs_old]
    split
    · simpa using inv.same i
    · exact inv.same i
  · intro i n mem
    rw [diffRegs_diffs] at mem
    split at mem
    · next inside =>
      split at mem
      · exact inv.news i n mem
      · rcases mem_addNew mem with old | added
        · exact inv.news i n old
        · -- the new record, without "cr_value", keeps what the run's record kept
          obtain ⟨kept, ok⟩ := keeps i inside
          have newAt : new.getD i RegDict.uc = new[i] := by
            simp [List.getD_eq_getElem?_getD, inside]
          rw [newAt] at kept ok
          subst added
          refine ⟨fun locked => ?_, fun locked => ok (by simpa using locked)⟩
          simpa using kept locked
    · exact inv.news i n mem

theorem diffRuns_inv {old₀ old : List RegDict} {diffs : List (List RegDict)}
    {runs : List (List RegDict)} (inv : DiffInv old₀ old diffs)
    (keeps : ∀ new ∈ runs, RunKeeps old₀ new) :
    DiffInv old₀ (diffRuns old diffs runs).1 (diffRuns old diffs runs).2 := by
  induction runs generalizing old diffs with
  | nil => exact inv
  | cons new runs ih =>
    exact ih (diffRegs_inv inv (keeps new List.mem_cons_self))
      fun new' mem => keeps new' (List.mem_cons_of_mem new mem)

theorem foldlM_mergeStep_lock {newType v : Int} (srType : newType = 2 ∨ newType = 4)
    {news : List RegDict} (same : ∀ n ∈ news, n.lock = v) (nonzero : v ≠ 0)
    {acc res : Int × Int × Int} (merged : news.foldlM (mergeStep newType) acc = .ok res) :
    res.2.2 = if news = [] then acc.2.2 else v := by
  induction news generalizing acc with
  | nil =>
    cases merged
    simp
  | cons n rest ih =>
    rw [List.foldlM_cons] at merged
    obtain ⟨acc', step, after⟩ := Except.bind_eq_ok.mp merged
    -- the first record sets the lock to v
    have first : acc'.2.2 = v := by
      unfold mergeStep at step
      obtain ⟨read, -, step⟩ := Except.bind_eq_ok.mp step
      obtain ⟨write, -, step⟩ := Except.bind_eq_ok.mp step
      obtain ⟨lock, locked, built⟩ := Except.bind_eq_ok.mp step
      cases built
      unfold newLock at locked
      rw [if_pos srType] at locked
      obtain ⟨l, found, set⟩ := Except.bind_eq_ok.mp locked
      cases set
      have value : n.lock = l := by
        unfold Python.key at found
        split at found <;> simp_all [RegDict.lock]
      have isV : l = v := value ▸ same n List.mem_cons_self
      simp [isV, nonzero]
    rw [ih (fun n' mem => same n' (List.mem_cons_of_mem n mem)) after]
    split <;> simp_all

theorem mergeReg_keeps {o₀ o : RegDict} {news : List RegDict} {m : RegDict}
    (sameType : o.type = o₀.type) (sameLock : o.lock = o₀.lock) (ok : o₀.LockOk)
    (some : news ≠ []) (keeps : ∀ n ∈ news, o₀.KeepsLock n ∧ n.LockOk)
    (merged : mergeReg o news = .ok m) : o₀.KeepsLock m ∧ m.LockOk := by
  unfold mergeReg at merged
  split at merged
  · next newType one =>
    obtain ⟨acc, folded, built⟩ := Except.bind_eq_ok.mp merged
    cases built
    constructor
    · intro locked
      obtain ⟨n, mem⟩ := List.exists_mem_of_ne_nil news some
      -- every new record has o₀'s category, so that is the one category they agree on
      have typeOf : newType = o₀.type := by
        have listed : n.type ∈ (news.map RegDict.type).eraseDups :=
          List.mem_eraseDups.mpr (List.mem_map_of_mem mem)
        rw [one, List.mem_singleton] at listed
        rw [← listed, ((keeps n mem).1 locked).1]
      have srType : newType = 2 ∨ newType = 4 := typeOf ▸ ok locked
      have lockOf := foldlM_mergeStep_lock srType (fun n mem => ((keeps n mem).1 locked).2) locked
        folded
      rw [if_neg some] at lockOf
      refine ⟨typeOf, ?_⟩
      simp [RegDict.lock, srType, lockOf]
    · intro locked
      by_cases srType : newType = 2 ∨ newType = 4
      · exact srType
      · simp [RegDict.lock, srType] at locked
  · cases merged
  · cases merged
    exact ⟨RegDict.keepsLock_of_same sameType sameLock,
      RegDict.lockOk_of_same sameType sameLock ok⟩

theorem updateReg_keeps {o₀ o : RegDict} {news : List RegDict} {m : RegDict}
    (sameType : o.type = o₀.type) (sameLock : o.lock = o₀.lock) (ok : o₀.LockOk)
    (keeps : ∀ n ∈ news, o₀.KeepsLock n ∧ n.LockOk) (updated : updateReg o news = .ok m) :
    o₀.KeepsLock m ∧ m.LockOk := by
  unfold updateReg at updated
  split at updated
  · cases updated
    exact ⟨RegDict.keepsLock_of_same sameType sameLock,
      RegDict.lockOk_of_same sameType sameLock ok⟩
  · next some => exact mergeReg_keeps sameType sameLock ok some keeps updated

theorem updateRegs_keeps {old₀ old : List RegDict} {diffs : List (List RegDict)}
    {merged : List RegDict} (sound : RegsSound old₀) (inv : DiffInv old₀ old diffs)
    (updated : updateRegs old diffs = .ok merged) : RegsKeep old₀ merged ∧ RegsSound merged := by
  induction old generalizing old₀ diffs merged with
  | nil =>
    cases diffs with
    | nil =>
      cases updated
      exact ⟨fun i => RegDict.keepsLock_of_same (inv.same i).1 (inv.same i).2,
        fun i => RegDict.lockOk_of_same (inv.same i).1 (inv.same i).2 (sound i)⟩
    | cons news diffs =>
      cases updated
      -- past the end of old, old₀ holds no lock either
      refine ⟨fun i locked => ?_, fun i => by simpa using RegDict.lockOk_uc⟩
      have unlocked := (inv.same i).2
      simp only [List.getD_nil, RegDict.lock_uc] at unlocked
      exact absurd unlocked.symm locked
  | cons o old ih =>
    cases diffs with
    | nil =>
      cases updated
      exact ⟨fun i => RegDict.keepsLock_of_same (inv.same i).1 (inv.same i).2,
        fun i => RegDict.lockOk_of_same (inv.same i).1 (inv.same i).2 (sound i)⟩
    | cons news diffs =>
      obtain ⟨m, first, after⟩ := Except.bind_eq_ok.mp updated
      obtain ⟨rest, others, built⟩ := Except.bind_eq_ok.mp after
      cases built
      have head := updateReg_keeps (inv.same 0).1 (inv.same 0).2 (sound 0) (inv.news 0) first
      -- the rest of the registers against the rest of old₀
      have tailInv : DiffInv old₀.tail old diffs :=
        ⟨fun i => by simpa [getD_tail] using inv.same (i + 1),
          fun i n mem => by simpa [getD_tail] using inv.news (i + 1) n mem⟩
      obtain ⟨keepsRest, soundRest⟩ :=
        ih (fun i => by simpa [getD_tail] using sound (i + 1)) tailInv others
      refine ⟨fun i => ?_, fun i => ?_⟩
      · cases i with
        | zero => simpa using head.1
        | succ i => simpa [getD_tail] using keepsRest i
      · cases i with
        | zero => simpa using head.2
        | succ i => simpa using soundRest i

theorem stage22Regs_keeps {runs : List (List RegDict)} {regs merged : List RegDict}
    (sound : RegsSound regs) (keeps : ∀ new ∈ runs, RunKeeps regs new)
    (updated : stage22Regs regs runs = .ok merged) : RegsKeep regs merged ∧ RegsSound merged :=
  updateRegs_keeps sound (diffRuns_inv (diffInv_init regs) keeps) updated

theorem setIndex_eq {α : Type} {xs ys : List α} {i : Int} {x : α}
    (set : Python.setIndex xs i x = .ok ys) : ∃ j, Python.position xs i = some j ∧ ys = xs.set j x := by
  unfold Python.setIndex at set
  split at set
  · next j found =>
    cases set
    exact ⟨j, found, rfl⟩
  · cases set

theorem adjustSrToDr_keeps {regs regs' : List RegDict} {srIdx : Int}
    (adjusted : adjustSrToDr regs srIdx = .ok (some regs')) :
    RegsKeep regs regs' ∧ (RegsSound regs → RegsSound regs') := by
  unfold adjustSrToDr at adjusted
  obtain ⟨reg, read, rest⟩ := Except.bind_eq_ok.mp adjusted
  obtain ⟨locked, lockRead, rest⟩ := Except.bind_eq_ok.mp rest
  obtain ⟨j, found, at_j⟩ := Python.index_eq read
  have unlocked : reg.lock = 0 := by
    split at rest
    · next zero =>
      unfold Python.key at lockRead
      split at lockRead <;> simp_all [RegDict.lock]
    · cases rest
  split at rest
  · obtain ⟨set, written, built⟩ := Except.bind_eq_ok.mp rest
    cases built
    obtain ⟨j', found', shape⟩ := setIndex_eq written
    rw [found] at found'
    cases found'
    subst shape
    have inside := Python.position_lt found
    -- only register j changes, and it held no lock
    have at_i : ∀ i, (regs.set j { reg with type := 3 }).getD i RegDict.uc =
        if i = j then { reg with type := 3 } else regs.getD i RegDict.uc := by
      intro i
      simp only [List.getD_eq_getElem?_getD, List.getElem?_set]
      by_cases same : i = j
      · subst same
        simp [inside]
      · simp [same, Ne.symm same]
    have old_j : regs.getD j RegDict.uc = reg := by simp [List.getD_eq_getElem?_getD, at_j]
    refine ⟨fun i => ?_, fun sound i => ?_⟩
    · rw [at_i]
      split
      · next same =>
        subst same
        rw [old_j]
        intro locked
        exact absurd unlocked locked
      · exact RegDict.keepsLock_of_same rfl rfl
    · rw [at_i]
      split
      · intro locked
        exact absurd unlocked locked
      · exact sound i
  · cases rest

end P2im
