import Mathlib.Data.List.GetD
import P2im.Extraction.MainLoop
import P2im.Extraction.RegLocks

set_option autoImplicit false

/-!
# What a depth of the main loop keeps

The runs of a depth only move registers along the categorisation, and stage 1.4 repairs the
events against those moves: it empties the events of a peripheral that gained a CR, and a
stage-1 run only takes a category from an SR by making it a CR. So the file stage 1.4 saves is
consistent (the keys of the events list the CRs, and the sites name SRs) whenever the file it
compares with was.
-/

namespace P2im

/-! ## Category moves -/

section Moves

variable {explore : Bool} {t t' : Int}

theorem catMoves_cr (moves : Relation.ReflTransGen (CatMove explore) t t') (cr : t = 1 ∨ t = 4) :
    t' = 1 ∨ t' = 4 := by
  induction moves with
  | refl => exact cr
  | tail _ move ih =>
    cases move with
    | pollCr => exact .inr rfl
    | readModifyWrite => exact .inl rfl
    | _ => omega

theorem catMoves_sr (moves : Relation.ReflTransGen (CatMove explore) t t') (sr : t = 2 ∨ t = 4) :
    t' = 2 ∨ t' = 4 ∨ t' = 1 := by
  induction moves with
  | refl => omega
  | tail _ move ih =>
    cases move with
    | pollCr => omega
    | readModifyWrite => omega
    | _ => omega

end Moves

/-! ## Files whose registers kept their kinds -/

def KindsKept (old new : List RegDict) : Prop :=
  ∀ i, (new.getD i RegDict.uc).isCr = (old.getD i RegDict.uc).isCr ∧
    ((old.getD i RegDict.uc).isSr → (new.getD i RegDict.uc).isSr)

theorem crIndices_zipIdx {old new : List RegDict} (n : Nat)
    (same : ∀ i, (new.getD i RegDict.uc).isCr = (old.getD i RegDict.uc).isCr) :
    ((new.zipIdx n).filter fun di => di.1.isCr).map (fun di => (di.2 : Int)) =
      ((old.zipIdx n).filter fun di => di.1.isCr).map (fun di => (di.2 : Int)) := by
  -- both lists are walked together; past the end of one, the other holds no CR
  induction new generalizing old n with
  | nil =>
    induction old generalizing n with
    | nil => rfl
    | cons o old ih =>
      have head := same 0
      simp only [List.getD_nil, List.getD_cons_zero] at head
      rw [List.zipIdx_cons, List.filter_cons, ← head]
      exact ih (n + 1) fun i => by simpa using same (i + 1)
  | cons d new ih =>
    cases old with
    | nil =>
      have head := same 0
      simp only [List.getD_nil, List.getD_cons_zero] at head
      rw [List.zipIdx_cons, List.filter_cons, head]
      exact @ih [] (n + 1) fun i => by simpa using same (i + 1)
    | cons o old =>
      have head := same 0
      simp only [List.getD_cons_zero] at head
      rw [List.zipIdx_cons, List.zipIdx_cons, List.filter_cons, List.filter_cons, head]
      have rest := ih (n + 1) fun i => by simpa using same (i + 1)
      split <;> simp [rest]

theorem crIndices_congr {old new : List RegDict}
    (same : ∀ i, (new.getD i RegDict.uc).isCr = (old.getD i RegDict.uc).isCr) :
    crIndices new = crIndices old :=
  crIndices_zipIdx 0 same

theorem namesSr_of_kindsKept {old new : List RegDict} (kept : KindsKept old new) {x : Json}
    (named : namesSr old x = true) : namesSr new x = true := by
  cases x with
  | int i =>
    obtain ⟨d, nonneg, at_i, sr⟩ := namesSr_of_mem named
    have old_i : old.getD i.toNat RegDict.uc = d := by simp [List.getD_eq_getElem?_getD, at_i]
    have new_sr := (kept i.toNat).2 (old_i ▸ sr)
    have inside : i.toNat < new.length := by
      by_contra outside
      rw [List.getD_eq_getElem?_getD, List.getElem?_eq_none (by omega)] at new_sr
      simp [RegDict.uc, RegDict.isSr] at new_sr
    simp only [namesSr, Bool.and_eq_true, decide_eq_true_eq]
    refine ⟨nonneg, ?_⟩
    rw [List.getD_eq_getElem?_getD, List.getElem?_eq_getElem inside] at new_sr
    simpa [List.getElem?_eq_getElem inside] using new_sr
  | _ => simp [namesSr] at named

theorem periConsistent_of_kindsKept {p : PeriFile} (consistent : PeriConsistent p) {regs : List RegDict}
    (kept : KindsKept p.regs regs) : PeriConsistent { p with regs } where
  keys conf mem := by
    rw [consistent.keys conf mem]
    exact congrArg some (crIndices_congr fun i => (kept i).1).symm
  sites conf mem site hasSite x entry :=
    namesSr_of_kindsKept kept (consistent.sites conf mem site hasSite x entry)

theorem periConsistent_empty (regs : List RegDict) : PeriConsistent ⟨regs, .obj []⟩ where
  keys conf mem := by cases mem
  sites conf mem := by cases mem

/-! ## Stage 1.4 -/

section Sorting

theorem foldl_adjustItem (f : Rca → List Int) (cond : Int → Int → Prop) [DecidableRel cond]
    (step : ∀ rca k ot nt, f (adjustItem rca k ot nt) = if ot ≠ nt ∧ cond ot nt then f rca ++ [k] else f rca)
    (rc : List (Int × RegDict × RegDict)) (rca : Rca) :
    f (rc.foldl (fun rca c => adjustItem rca c.1 c.2.1.type c.2.2.type) rca) =
      f rca ++ (rc.filter fun c => decide (c.2.1.type ≠ c.2.2.type ∧ cond c.2.1.type c.2.2.type)).map
        (·.1) := by
  induction rc generalizing rca with
  | nil => simp
  | cons c rest ih =>
    rw [List.foldl_cons, ih, step, List.filter_cons]
    by_cases meets : c.2.1.type ≠ c.2.2.type ∧ cond c.2.1.type c.2.2.type <;> simp [meets]

theorem crIns_eq_nil {rc : List (Int × RegDict × RegDict)} (none : (adjustedRegCat rc).1.crIns = []) :
    ∀ c ∈ rc, ¬(c.2.1.type ≠ c.2.2.type ∧ (c.2.2.type = 1 ∨ c.2.2.type = 4 ∧ c.2.1.type ≠ 1)) := by
  have sorted := foldl_adjustItem Rca.crIns (fun ot nt => nt = 1 ∨ nt = 4 ∧ ot ≠ 1)
    (fun rca k ot nt => by unfold adjustItem; by_cases same : ot = nt <;> simp [same]) rc
    ⟨[], [], [], []⟩
  simp only [adjustedRegCat] at none
  rw [sorted] at none
  simpa using none

theorem crDel_ne_nil {rc : List (Int × RegDict × RegDict)} (some : (adjustedRegCat rc).1.crDel ≠ []) :
    ∃ c ∈ rc, c.2.1.type ≠ c.2.2.type ∧ c.2.1.type = 1 ∧ c.2.2.type ≠ 4 := by
  have sorted := foldl_adjustItem Rca.crDel (fun ot nt => ot = 1 ∧ nt ≠ 4)
    (fun rca k ot nt => by unfold adjustItem; by_cases same : ot = nt <;> simp [same]) rc
    ⟨[], [], [], []⟩
  simp only [adjustedRegCat] at some
  rw [sorted] at some
  simpa [List.filter_eq_nil_iff] using some

theorem srDel_ne_nil {rc : List (Int × RegDict × RegDict)} (some : (adjustedRegCat rc).1.srDel ≠ []) :
    ∃ c ∈ rc, c.2.1.type ≠ c.2.2.type ∧ c.2.1.type = 2 := by
  have sorted := foldl_adjustItem Rca.srDel (fun ot _ => ot = 2)
    (fun rca k ot nt => by unfold adjustItem; by_cases same : ot = nt <;> simp [same]) rc
    ⟨[], [], [], []⟩
  simp only [adjustedRegCat] at some
  rw [sorted] at some
  simpa [List.filter_eq_nil_iff] using some

end Sorting

theorem mem_regChanges {old new : List RegDict} {c : Int × RegDict × RegDict}
    (mem : c ∈ regChanges old new) : ∃ (i : Nat) (n : RegDict), new[i]? = some n ∧
      c = ((i : Int), (old.getD i RegDict.uc).popCrValue, n.popCrValue) := by
  unfold regChanges at mem
  obtain ⟨⟨n, i⟩, listed, kept⟩ := List.mem_filterMap.mp mem
  dsimp only at kept
  by_cases same : (old.getD i RegDict.uc).popCrValue = n.popCrValue
  · rw [if_pos same] at kept
    cases kept
  · rw [if_neg same, Option.some.injEq] at kept
    exact ⟨i, n, List.mem_zipIdx_iff_getElem?.mp listed, kept.symm⟩

theorem regChanges_of_ne {old new : List RegDict} {i : Nat} {n : RegDict} (at_i : new[i]? = some n)
    (changed : (old.getD i RegDict.uc).popCrValue ≠ n.popCrValue) :
    ((i : Int), (old.getD i RegDict.uc).popCrValue, n.popCrValue) ∈ regChanges old new := by
  unfold regChanges
  refine List.mem_filterMap.mpr ⟨(n, i), List.mem_zipIdx_iff_getElem?.mpr at_i, ?_⟩
  simp only [if_neg changed]

section Stage1

variable {old new : List RegDict}

theorem regChanges_moved (moved : RegsMoved false old new) {c : Int × RegDict × RegDict}
    (mem : c ∈ regChanges old new) : Relation.ReflTransGen (CatMove false) c.2.1.type c.2.2.type := by
  obtain ⟨i, n, at_i, rfl⟩ := mem_regChanges mem
  simpa using (moved.2 i n at_i).1

theorem kindsKept_of_crIns (moved : RegsMoved false old new)
    (none : (adjustedRegCat (regChanges old new)).1.crIns = []) : KindsKept old new := by
  intro i
  by_cases inside : i < new.length
  · have at_i : new[i]? = some new[i] := List.getElem?_eq_getElem inside
    have moves := (moved.2 i new[i] at_i).1
    -- a change of category is an item of rc_diff, and no item made a new CR
    have test : (old.getD i RegDict.uc).type ≠ new[i].type →
        ¬(new[i].type = 1 ∨ new[i].type = 4 ∧ (old.getD i RegDict.uc).type ≠ 1) := by
      intro differ newCr
      have changed : (old.getD i RegDict.uc).popCrValue ≠ new[i].popCrValue :=
        fun same => differ (by simpa using congrArg RegDict.type same)
      exact crIns_eq_nil none _ (regChanges_of_ne at_i changed) ⟨differ, newCr⟩
    rw [List.getD_eq_getElem new RegDict.uc inside]
    generalize old.getD i RegDict.uc = o at moves test
    constructor
    · rw [Bool.eq_iff_iff, RegDict.isCr_iff, RegDict.isCr_iff]
      constructor
      · intro newCr
        by_contra oldNotCr
        exact test (fun same => oldNotCr (same ▸ newCr)) (by omega)
      · exact catMoves_cr moves
    · rw [RegDict.isSr_iff, RegDict.isSr_iff]
      intro sr
      rcases catMoves_sr moves sr with two | four | one
      · exact .inl two
      · exact .inr four
      · exact absurd (.inl one) (test (by omega))
  · rw [List.getD_eq_default new RegDict.uc (by omega),
      List.getD_eq_default old RegDict.uc (by have := moved.1; omega)]
    simp

theorem dels_of_crIns (moved : RegsMoved false old new)
    (none : (adjustedRegCat (regChanges old new)).1.crIns = []) :
    (adjustedRegCat (regChanges old new)).1.crDel = [] ∧
      (adjustedRegCat (regChanges old new)).1.srDel = [] := by
  constructor
  · by_contra some
    obtain ⟨c, mem, differ, cr, _⟩ := crDel_ne_nil some
    have := catMoves_cr (regChanges_moved moved mem) (.inl cr)
    omega
  · by_contra some
    obtain ⟨c, mem, differ, sr⟩ := srDel_ne_nil some
    have moved_sr := catMoves_sr (regChanges_moved moved mem) (.inl sr)
    exact crIns_eq_nil none c mem ⟨differ, by omega⟩

end Stage1

theorem setItem_of_lookup {α : Type} {m : List (String × α)} {ba : String} {a : α}
    (found : m.lookup ba = some a) : Python.setItem ba a m = m := by
  induction m with
  | nil => cases found
  | cons kv rest ih =>
    by_cases same : kv.1 = ba
    · have : (ba == kv.1) = true := beq_iff_eq.mpr same.symm
      simp only [List.lookup, this, Option.some.injEq] at found
      obtain ⟨k, v⟩ := kv
      simp only at same found
      simp [Python.setItem, same, found]
    · have other : (ba == kv.1) = false := beq_false_of_ne (Ne.symm same)
      simp only [List.lookup, other] at found
      simp [Python.setItem, same, ih found]

theorem adjustPeri_consistent {p0 p1 : PeriFile} {acc acc' : ModelFile × Bool} {ba : String}
    (consistent : PeriConsistent p0) (events : p1.events = p0.events)
    (moved : RegsMoved false p0.regs p1.regs) (found : acc.1.lookup ba = some p1)
    (adjusted : adjustPeri p0.regs acc ba = .ok acc') :
    ∃ p1', PeriConsistent p1' ∧ acc'.1 = Python.setItem ba p1' acc.1 := by
  have kept : PeriConsistent p1 → ∃ p1', PeriConsistent p1' ∧ acc.1 = Python.setItem ba p1' acc.1 :=
    fun ok => ⟨p1, ok, (setItem_of_lookup found).symm⟩
  have p1_ok : (adjustedRegCat (regChanges p0.regs p1.regs)).1.crIns = [] → PeriConsistent p1 := by
    intro none
    have := periConsistent_of_kindsKept consistent (kindsKept_of_crIns moved none)
    rwa [← events] at this
  unfold adjustPeri at adjusted
  rw [found] at adjusted
  simp only [Python.key, Except.ok_bind] at adjusted
  split at adjusted
  · next crIns =>
    split at adjusted
    · next newCr =>
      cases adjusted
      exact ⟨_, periConsistent_empty _, rfl⟩
    · next noNewCr =>
      have none : (adjustedRegCat (regChanges p0.regs p1.regs)).1.crIns = [] := by simpa using noNewCr
      split at adjusted
      · next del =>
        obtain ⟨crDel, srDel⟩ := dels_of_crIns moved none
        simp [crDel, srDel] at del
      · cases adjusted
        exact kept (p1_ok none)
  · next notAdjusted =>
    cases adjusted
    -- nothing adjusted: every list of rc_adjusted is empty, cr_ins too
    have none : (adjustedRegCat (regChanges p0.regs p1.regs)).1.crIns = [] := by
      simp only [adjustedRegCat, List.any_cons, List.any_nil, Bool.or_eq_true, decide_eq_true_eq,
        not_or, Bool.or_false, ne_eq, Decidable.not_not] at notAdjusted ⊢
      exact notAdjusted.2.1
    exact kept (p1_ok none)

/-! ## The loop of stage 1.4 -/

/-- Where the loop of stage 1.4 stands, with `todo` the peripherals of the old file still to visit:
those it has visited are consistent, the others still as the run dumped them. -/
structure Adjusting (m1 todo acc : ModelFile) : Prop where
  keys : acc.map Prod.fst = m1.map Prod.fst
  pending : ∀ ba ∈ todo.map Prod.fst, acc.lookup ba = m1.lookup ba
  visited : ∀ ba p, acc.lookup ba = some p → ba ∉ todo.map Prod.fst → PeriConsistent p

section Stage14

variable {input : Option ModelFile} {m1 : ModelFile}

theorem created_consistent (run : RunDump false input m1) {ba : String} {p : PeriFile}
    (created : loadedPeri input ba = none) (found : m1.lookup ba = some p) : PeriConsistent p := by
  have empty := run.events ba p found
  rw [created] at empty
  obtain ⟨regs, events⟩ := p
  obtain rfl : events = .obj [] := empty
  exact periConsistent_empty regs

variable {mo : ModelFile}

theorem adjusting_start (run : RunDump false (some mo) m1) : Adjusting m1 mo m1 where
  keys := rfl
  pending _ _ := rfl
  visited _ _ found absent := created_consistent run (Python.lookup_of_not_mem absent) found

theorem adjusting_step (consistent : ModelConsistent mo) (run : RunDump false (some mo) m1)
    {ba : String} {p0 : PeriFile} {rest : ModelFile} {acc acc' : ModelFile × Bool}
    (old : (ba, p0) ∈ mo) (loaded : mo.lookup ba = some p0) (fresh : ba ∉ rest.map Prod.fst)
    (before : Adjusting m1 ((ba, p0) :: rest) acc.1)
    (adjusted : adjustPeri p0.regs acc ba = .ok acc') : Adjusting m1 rest acc'.1 := by
  have loaded' : loadedPeri (some mo) ba = some p0 := loaded
  obtain ⟨p1, found⟩ := Option.isSome_iff_exists.mp (run.kept ba p0 loaded')
  have events : p1.events = p0.events := by simpa [loaded'] using run.events ba p1 found
  have moved : RegsMoved false p0.regs p1.regs := by simpa [loaded'] using run.regs ba p1 found
  have here : acc.1.lookup ba = some p1 := by rw [before.pending ba (by simp)]; exact found
  obtain ⟨p1', ok, set⟩ := adjustPeri_consistent (consistent _ old) events moved here adjusted
  have present : ba ∈ acc.1.map Prod.fst := List.mem_map_of_mem (mem_of_lookup here)
  refine ⟨?_, fun ba' later => ?_, fun ba' p found' absent => ?_⟩
  · rw [set, Python.keys_setItem_of_mem _ present, before.keys]
  · have other : ba ≠ ba' := fun same => fresh (same ▸ later)
    rw [set, Python.lookup_setItem, if_neg other, before.pending ba' (by simp [later])]
  · rw [set, Python.lookup_setItem] at found'
    split at found'
    · next => cases found'; exact ok
    · next other => exact before.visited ba' p found' (by simp [Ne.symm other, absent])

theorem adjusting_run (consistent : ModelConsistent mo) (run : RunDump false (some mo) m1)
    (distinct : (mo.map Prod.fst).Nodup) {todo : ModelFile} (part : todo.Sublist mo)
    {acc acc' : ModelFile × Bool} (before : Adjusting m1 todo acc.1)
    (ran : todo.foldlM (fun acc bp => adjustPeri bp.2.regs acc bp.1) acc = .ok acc') :
    Adjusting m1 [] acc'.1 := by
  induction todo generalizing acc with
  | nil => cases ran; exact before
  | cons bp rest ih =>
    obtain ⟨ba, p0⟩ := bp
    rw [List.foldlM_cons] at ran
    obtain ⟨mid, adjusted, ran⟩ := Except.bind_eq_ok.mp ran
    have old : (ba, p0) ∈ mo := part.subset List.mem_cons_self
    have fresh : ba ∉ rest.map Prod.fst := (List.nodup_cons.mp ((part.map Prod.fst).nodup distinct)).1
    exact ih (List.sublist_of_cons_sublist part)
      (adjusting_step consistent run old (Python.lookup_of_mem old distinct) fresh before adjusted) ran

theorem Adjusting.modelConsistent {acc : ModelFile} (done : Adjusting m1 [] acc)
    (distinct : (m1.map Prod.fst).Nodup) : ModelConsistent acc := by
  intro bp mem
  have unique : (acc.map Prod.fst).Nodup := done.keys ▸ distinct
  exact done.visited bp.1 bp.2 (Python.lookup_of_mem mem unique) (by simp)

end Stage14

theorem Stage1.runDump {mIn base : Option ModelFile} {ret : Int} {m1 : ModelFile} {srR : SrRead}
    (stage1 : Stage1 mIn ret base m1 srR) : RunDump false base m1 := by
  cases stage1 with
  | once _ run _ => exact run
  | redo _ run _ => exact run

theorem stage14_consistent {mIn base : Option ModelFile} {ret : Int} {m1 m14 : ModelFile}
    {srR : SrRead} {newCr : Bool} (stage1 : Stage1 mIn ret base m1 srR)
    (start : ∀ mo ∈ base, ModelConsistent mo ∧ (mo.map Prod.fst).Nodup)
    (adjusted : stage14 base m1 = .ok (m14, newCr)) : ModelConsistent m14 := by
  have run := stage1.runDump
  cases base with
  | none =>
    -- depth 1 with no --model-if: the run created every peripheral
    obtain ⟨rfl, -⟩ : m1 = m14 ∧ false = newCr := by simpa [stage14, pure, Except.pure] using adjusted
    intro bp mem
    exact created_consistent run rfl (Python.lookup_of_mem mem run.distinct)
  | some mo =>
    obtain ⟨consistent, distinct⟩ := start mo rfl
    have done := adjusting_run consistent run distinct (List.Sublist.refl mo)
      (adjusting_start run) adjusted
    exact done.modelConsistent run.distinct

end P2im
