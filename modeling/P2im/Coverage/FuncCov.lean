import P2im.Extraction.ModelFile

set_option autoImplicit false

/-!
# Function coverage

`func_cov` reads the start address and the name of each function from `func_dump`, and the number
of times each instruction ran from `inst_cov`. It walks the two in address order: each function
but the last is written to `func_cov` uncovered, then takes the instructions left below the next
function's start, and each of them flags it covered. The instructions of the last function are
never reached, so that function is not in `func_cov`; and the instructions below the first
function's start count for the first function. The percentage divides by the number of functions
in `func_cov`, which raises `ZeroDivisionError` when `func_dump` lists one function or none.
-/

namespace P2im

/-- What the scan writes: `merge` holds, under `hex` of each function start and each instruction,
the function's name and the instruction's count; `func_cov` the name of each function scanned and
whether it is covered. -/
structure FuncScan where
  merge : List (String × (Option String × Option Nat))
  funcCov : List (String × (String × Bool))

/-- `merge[ic_k] = (None, ic_v)` for a new address, or the count beside the name already there. -/
def mergeInst (icK : String) (icV : Nat) (merge : List (String × (Option String × Option Nat))) :
    List (String × (Option String × Option Nat)) :=
  match merge.lookup icK with
  | none => Python.setItem icK (none, some icV) merge
  | some entry => Python.setItem icK (entry.1, some icV) merge

/-- The inner loop: the instructions left that lie below `next`, each merged and each flagging the
function `ftK` covered. It returns the instructions from the first at or above `next` on. -/
def scanInsts (ftK ftV : String) (next : Nat) :
    List (Nat × Nat) → FuncScan → List (Nat × Nat) × FuncScan
  | [], acc => ([], acc)
  | (addr, cnt) :: rest, acc =>
    if addr < next then
      scanInsts ftK ftV next rest
        ⟨mergeInst (pyHex addr) cnt acc.merge, Python.setItem ftK (ftV, true) acc.funcCov⟩
    else ((addr, cnt) :: rest, acc)

/-- The outer loop over the functions in address order, `while i < len(ft)-1`: each function with
one after it is written uncovered, then takes the instructions below the next one's start. -/
def scanFuncs : List (Nat × String) → List (Nat × Nat) → FuncScan → FuncScan
  | [], _, acc => acc
  | (start, name) :: tail, ics, acc =>
    match tail.head? with
    | none => acc
    | some (next, _) =>
      let written : FuncScan := ⟨Python.setItem (pyHex start) (some name, none) acc.merge,
        Python.setItem (pyHex start) (name, false) acc.funcCov⟩
      let inner := scanInsts (pyHex start) name next ics written
      scanFuncs tail inner.1 inner.2

/-- `func_cov`'s scan of the function table `ft` and the instruction counts `ic`, both taken in
address order. The keys of a dictionary are distinct, so `ft[ft_ks[i]]` is the name paired with
`ft_ks[i]`. -/
def funcCovScan (ft : List (Nat × String)) (ic : List (Nat × Nat)) : FuncScan :=
  scanFuncs (ft.insertionSort fun a b => a.1 ≤ b.1) (ic.insertionSort fun a b => a.1 ≤ b.1) ⟨[], []⟩

/-- The counts of the statistics line: the functions of `func_cov` flagged covered, and all of
them, by which `len(t)*100.0/len(func_cov)` divides. -/
def funcCovReport (funcCov : List (String × (String × Bool))) : Except PyError (Nat × Nat) :=
  if funcCov.length = 0 then .error .zeroDivisionError
  else .ok ((funcCov.filter fun entry => entry.2.2).length, funcCov.length)

def flagsFrom (insts : List Nat) : Nat → List (Nat × String) → List (String × (String × Bool))
  | _, [] => []
  | lo, (start, name) :: tail =>
    match tail.head? with
    | none => []
    | some (next, _) =>
      (pyHex start, (name, decide (∃ a ∈ insts, lo ≤ a ∧ a < next))) :: flagsFrom insts next tail

/-! ## `hex` of an address -/

theorem pyHex_natCast_inj {a b : Nat} (same : pyHex a = pyHex b) : a = b := by
  have nonneg : ∀ n : Nat, ¬ (n : Int) < 0 := fun n => by omega
  simp only [pyHex, nonneg, if_false, Int.toNat_natCast, String.ofList_inj, List.append_cancel_left_eq] at same
  have hexDigits := CConv.readDigits_toDigits (by decide : 2 ≤ 16) (by decide : 16 ≤ 16)
  rw [← hexDigits a, ← hexDigits b]
  exact congrArg (CConv.readDigits 16 0) same

/-! ## The scan -/

theorem pairwise_insertionSort_fst {α : Type} (l : List (Nat × α)) :
    (l.insertionSort fun a b => a.1 ≤ b.1).Pairwise fun a b => a.1 ≤ b.1 := by
  have : Std.Total fun a b : Nat × α => a.1 ≤ b.1 := ⟨fun a b => Nat.le_total a.1 b.1⟩
  have : IsTrans (Nat × α) fun a b => a.1 ≤ b.1 := ⟨fun _ _ _ => Nat.le_trans⟩
  exact List.pairwise_insertionSort _ l

theorem dropWhile_lt_eq_filter (x : Nat) {ics : List (Nat × Nat)}
    (sorted : ics.Pairwise fun a b => a.1 ≤ b.1) :
    ics.dropWhile (fun p => p.1 < x) = ics.filter fun p => x ≤ p.1 := by
  induction ics with
  | nil => rfl
  | cons p rest ih =>
    obtain ⟨first, later⟩ := List.pairwise_cons.mp sorted
    by_cases below : p.1 < x
    · simp [below, ih later]
    · have kept : rest.filter (fun q => x ≤ q.1) = rest :=
        List.filter_eq_self.mpr fun q mem => by have := first q mem; simp; omega
      simp [below, Nat.le_of_not_lt below, kept]

theorem scanInsts_rest (ftK ftV : String) (next : Nat) (ics : List (Nat × Nat)) (acc : FuncScan) :
    (scanInsts ftK ftV next ics acc).1 = ics.dropWhile fun p => p.1 < next := by
  induction ics generalizing acc with
  | nil => rfl
  | cons p rest ih =>
    obtain ⟨addr, cnt⟩ := p
    by_cases below : addr < next
    · simp [scanInsts, below, ih]
    · simp [scanInsts, below]

theorem scanInsts_funcCov (ftK ftV : String) (next : Nat) {ics : List (Nat × Nat)}
    (sorted : ics.Pairwise fun a b => a.1 ≤ b.1) (acc : FuncScan) :
    (scanInsts ftK ftV next ics acc).2.funcCov =
      if ∃ p ∈ ics, p.1 < next then Python.setItem ftK (ftV, true) acc.funcCov else acc.funcCov := by
  induction ics generalizing acc with
  | nil => simp [scanInsts]
  | cons p rest ih =>
    obtain ⟨addr, cnt⟩ := p
    obtain ⟨first, later⟩ := List.pairwise_cons.mp sorted
    by_cases below : addr < next
    · have found : ∃ q ∈ (addr, cnt) :: rest, q.1 < next := ⟨_, List.mem_cons_self, below⟩
      simp only [scanInsts, if_pos below, ih later, if_pos found, Python.setItem_setItem_self, ite_self]
    · -- the first instruction is at or above `next`, and so are those after it
      have none : ¬ ∃ q ∈ (addr, cnt) :: rest, q.1 < next := by
        rintro ⟨q, mem, lt⟩
        rcases List.mem_cons.mp mem with rfl | later'
        · exact below lt
        · have := first q later'
          simp only at this
          omega
      simp only [scanInsts, if_neg below, if_neg none]

theorem scanInsts_written (start next : Nat) (name : String) {ics : List (Nat × Nat)}
    (sorted : ics.Pairwise fun a b => a.1 ≤ b.1) (acc : FuncScan)
    (fresh : pyHex start ∉ acc.funcCov.map Prod.fst) :
    (scanInsts (pyHex start) name next ics ⟨Python.setItem (pyHex start) (some name, none) acc.merge,
        Python.setItem (pyHex start) (name, false) acc.funcCov⟩).2.funcCov =
      acc.funcCov ++ [(pyHex start, (name, decide (∃ p ∈ ics, p.1 < next)))] := by
  rw [scanInsts_funcCov _ _ _ sorted, Python.setItem_of_not_mem _ fresh]
  split_ifs with covered
  · rw [Python.setItem_append_self _ _ fresh, decide_eq_true covered]
  · rw [decide_eq_false covered]

theorem dropWhile_filter_le {lo next : Nat} (low : lo ≤ next) {ics : List (Nat × Nat)}
    (sorted : ics.Pairwise fun a b => a.1 ≤ b.1) :
    (ics.filter fun p => lo ≤ p.1).dropWhile (fun p => p.1 < next) = ics.filter fun p => next ≤ p.1 := by
  rw [dropWhile_lt_eq_filter next (sorted.filter _), List.filter_filter]
  refine List.filter_congr fun p _ => ?_
  by_cases atNext : next ≤ p.1
  · simp only [atNext, decide_true, Bool.true_and, decide_eq_true_eq]
    omega
  · simp [atNext]

theorem scanFuncs_funcCov {ics : List (Nat × Nat)} (sortedIcs : ics.Pairwise fun a b => a.1 ≤ b.1) :
    ∀ (fts : List (Nat × String)) (lo : Nat) (acc : FuncScan),
      (fts.Pairwise fun a b => a.1 ≤ b.1) → (fts.map Prod.fst).Nodup → (∀ p ∈ fts, lo ≤ p.1) →
      (∀ p ∈ fts, pyHex p.1 ∉ acc.funcCov.map Prod.fst) →
      (scanFuncs fts (ics.filter fun p => lo ≤ p.1) acc).funcCov =
        acc.funcCov ++ flagsFrom (ics.map Prod.fst) lo fts
  | [], _, acc, _, _, _, _ => by simp [scanFuncs, flagsFrom]
  | [_], _, acc, _, _, _, _ => by simp [scanFuncs, flagsFrom]
  | (start, name) :: (next, nextName) :: rest, lo, acc, sorted, distinct, above, fresh => by
    obtain ⟨-, sortedTail⟩ := List.pairwise_cons.mp sorted
    obtain ⟨startFresh, distinctTail⟩ := List.nodup_cons.mp distinct
    have startFresh : start ∉ ((next, nextName) :: rest).map Prod.fst := startFresh
    have loNext : lo ≤ next := above _ (List.mem_cons_of_mem _ List.mem_cons_self)
    -- the function is written at the end, flagged by the instructions between `lo` and `next`
    have found : (∃ p ∈ ics.filter fun p => lo ≤ p.1, p.1 < next) ↔
        ∃ a ∈ ics.map Prod.fst, lo ≤ a ∧ a < next := by
      simp [List.mem_filter, and_assoc]
    have inner := scanInsts_written start next name (sortedIcs.filter fun p => lo ≤ p.1) acc
      (fresh _ List.mem_cons_self)
    rw [decide_eq_decide.mpr found] at inner
    have tailFresh : ∀ p ∈ (next, nextName) :: rest,
        pyHex p.1 ∉ (acc.funcCov ++ [(pyHex start, (name, decide (∃ a ∈ ics.map Prod.fst, lo ≤ a ∧ a < next)))]).map Prod.fst := by
      intro p mem
      have other : p.1 ≠ start := fun same => startFresh (same ▸ List.mem_map_of_mem (f := Prod.fst) mem)
      simp only [List.map_append, List.map_cons, List.map_nil, List.mem_append, List.mem_singleton, not_or]
      exact ⟨fresh p (List.mem_cons_of_mem _ mem), fun same => other (pyHex_natCast_inj same)⟩
    have tailAbove : ∀ p ∈ (next, nextName) :: rest, next ≤ p.1 := by
      intro p mem
      rcases List.mem_cons.mp mem with rfl | later
      · exact le_refl _
      · exact (List.pairwise_cons.mp sortedTail).1 p later
    rw [scanFuncs.eq_2]
    simp only [List.head?_cons, scanInsts_rest, dropWhile_filter_le loNext sortedIcs]
    rw [scanFuncs_funcCov sortedIcs _ next _ sortedTail distinctTail tailAbove (by rw [inner]; exact tailFresh),
      inner]
    simp [flagsFrom]

theorem flagsFrom_congr {insts insts' : List Nat} (same : ∀ a, a ∈ insts ↔ a ∈ insts') :
    ∀ (lo : Nat) (fts : List (Nat × String)), flagsFrom insts lo fts = flagsFrom insts' lo fts
  | _, [] => rfl
  | _, [_] => rfl
  | lo, (start, name) :: (next, nextName) :: rest => by
    conv_lhs => rw [flagsFrom.eq_2]
    conv_rhs => rw [flagsFrom.eq_2]
    simp only [List.head?_cons, same, flagsFrom_congr same next ((next, nextName) :: rest)]

theorem flagsFrom_perm {insts insts' : List Nat} (perm : insts.Perm insts') (lo : Nat)
    (fts : List (Nat × String)) : flagsFrom insts lo fts = flagsFrom insts' lo fts :=
  flagsFrom_congr (fun _ => perm.mem_iff) lo fts

theorem length_flagsFrom (insts : List Nat) :
    ∀ (lo : Nat) (fts : List (Nat × String)), (flagsFrom insts lo fts).length = fts.length - 1
  | _, [] => rfl
  | _, [_] => rfl
  | lo, (start, name) :: (next, nextName) :: rest => by
    rw [flagsFrom.eq_2]
    simp only [List.head?_cons, List.length_cons, length_flagsFrom insts next ((next, nextName) :: rest)]
    omega

/-- `func_cov` flags every function but the last, the last of the table in address order, and
counts the instructions below the first function's start for the first function; so the
statistics line divides by one function fewer than the table lists, and by zero for a table of one
function. -/
theorem func_cov_skips_last_function (ft : List (Nat × String)) (ic : List (Nat × Nat))
    (distinct : (ft.map Prod.fst).Nodup) :
    (funcCovScan ft ic).funcCov = flagsFrom (ic.map Prod.fst) 0 (ft.insertionSort fun a b => a.1 ≤ b.1) ∧
      (funcCovScan ft ic).funcCov.length = ft.length - 1 ∧
      (ft.length ≤ 1 → funcCovReport (funcCovScan ft ic).funcCov = .error .zeroDivisionError) := by
  have sortedIcs := pairwise_insertionSort_fst ic
  have distinctSorted : ((ft.insertionSort fun a b => a.1 ≤ b.1).map Prod.fst).Nodup :=
    ((List.perm_insertionSort _ ft).map Prod.fst).nodup_iff.mpr distinct
  have all : (ic.insertionSort fun a b => a.1 ≤ b.1).filter (fun p => 0 ≤ p.1) =
      ic.insertionSort fun a b => a.1 ≤ b.1 := List.filter_eq_self.mpr fun _ _ => by simp
  have scanned : (funcCovScan ft ic).funcCov =
      flagsFrom (ic.map Prod.fst) 0 (ft.insertionSort fun a b => a.1 ≤ b.1) := by
    have := scanFuncs_funcCov sortedIcs (ft.insertionSort fun a b => a.1 ≤ b.1) 0 ⟨[], []⟩
      (pairwise_insertionSort_fst ft) distinctSorted (fun _ _ => Nat.zero_le _) (fun _ _ => by simp)
    rw [all, List.nil_append, flagsFrom_perm ((List.perm_insertionSort _ ic).map Prod.fst)] at this
    exact this
  have length : (funcCovScan ft ic).funcCov.length = ft.length - 1 := by
    rw [scanned, length_flagsFrom, List.length_insertionSort]
  refine ⟨scanned, length, fun short => ?_⟩
  have empty : (funcCovScan ft ic).funcCov.length = 0 := by omega
  simp [funcCovReport, empty]

theorem func_cov_misses_g_and_credits_f :
    ([(0x8000100, "f"), (0x8000200, "g")].map Prod.fst : List Nat).Nodup ∧
    (funcCovScan [(0x8000100, "f"), (0x8000200, "g")]
        [(0x8000080, 1), (0x8000082, 1), (0x8000084, 1), (0x8000200, 1), (0x8000202, 1), (0x8000204, 1)]).funcCov =
      flagsFrom [0x8000080, 0x8000082, 0x8000084, 0x8000200, 0x8000202, 0x8000204] 0
        [(0x8000100, "f"), (0x8000200, "g")] ∧
    flagsFrom [0x8000080, 0x8000082, 0x8000084, 0x8000200, 0x8000202, 0x8000204] 0
        [(0x8000100, "f"), (0x8000200, "g")] = [("0x8000100", ("f", true))] ∧
    funcCovReport [("0x8000100", ("f", true))] = .ok (1, 1) :=
  ⟨by decide, (func_cov_skips_last_function _ _ (by decide)).1, by decide, rfl⟩

end P2im
