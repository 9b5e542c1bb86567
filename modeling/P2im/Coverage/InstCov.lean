import P2im.Coverage.FuncCov

set_option autoImplicit false

/-!
# Instruction coverage

`inst_cov` runs the firmware on each test case the fuzzer kept, with the trace of stage 3, and
counts what the blocks of the trace ran: `bbl_cov` the runs of each block `(hex(s), hex(e))`, and
`inst_cov` the runs of each address from `s` by steps of 2 below `e`. The trace writes a block as
`pc` and `pc + size`, one past its last byte, so every halfword of a block is counted, the second
half of a 32-bit instruction as well.
-/

namespace P2im

structure CovCounts where
  bblCov : List ((String × String) × Nat)
  instCov : List (String × Nat)

/-- `i = s; while (i < e): inst_cov[hex(i)] += 1; i += 2`, from `i` on. -/
def instLoop (e i : Nat) (instCov : List (String × Nat)) : List (String × Nat) :=
  if i < e then instLoop e (i + 2) (Python.countItem (pyHex i) instCov) else instCov
termination_by e - i

/-- One block `(s, e)` of a trace: `bbl_cov[bbl] += 1`, then the loop over its addresses. -/
def bblStep (acc : CovCounts) (bbl : Nat × Nat) : CovCounts :=
  ⟨Python.countItem (pyHex bbl.1, pyHex bbl.2) acc.bblCov, instLoop bbl.2 bbl.1 acc.instCov⟩

/-- `inst_cov` over the test cases, each given by the blocks the regular expression finds in its
trace, in order. -/
def instCov (cases : List (List (Nat × Nat))) : CovCounts :=
  cases.foldl (fun acc bbls => bbls.foldl bblStep acc) ⟨[], []⟩

def halfwords (s e : Nat) : List Nat := List.range' s ((e - s + 1) / 2) 2

/-! ## The loop over a block -/

theorem halfwords_of_lt {i e : Nat} (below : i < e) : halfwords i e = i :: halfwords (i + 2) e := by
  have more : (e - i + 1) / 2 = (e - (i + 2) + 1) / 2 + 1 := by omega
  rw [halfwords, more, List.range'_succ]
  rfl

theorem halfwords_of_le {i e : Nat} (above : e ≤ i) : halfwords i e = [] := by
  have none : (e - i + 1) / 2 = 0 := by omega
  rw [halfwords, none]
  rfl

theorem mem_halfwords {a s e : Nat} : a ∈ halfwords s e ↔ s ≤ a ∧ a < e ∧ (a - s) % 2 = 0 := by
  rw [halfwords, List.mem_range']
  constructor
  · rintro ⟨i, below, rfl⟩
    omega
  · rintro ⟨low, high, even⟩
    exact ⟨(a - s) / 2, by omega, by omega⟩

theorem nodup_halfwords (s e : Nat) : (halfwords s e).Nodup := List.nodup_range' 2

theorem instLoop_eq (e i : Nat) (d : List (String × Nat)) :
    instLoop e i d = (halfwords i e).foldl (fun d (a : Nat) => Python.countItem (pyHex a) d) d := by
  fun_induction instLoop e i d with
  | case1 i d below ih => rw [halfwords_of_lt below, List.foldl_cons, ih]
  | case2 i d above => rw [halfwords_of_le (Nat.le_of_not_lt above)]; rfl

/-! ## The loops over cases and blocks -/

def countedAddrs (cases : List (List (Nat × Nat))) : List Nat :=
  cases.flatten.flatMap fun b => halfwords b.1 b.2

theorem foldl_bblStep (bbls : List (Nat × Nat)) (acc : CovCounts) :
    bbls.foldl bblStep acc =
      ⟨(bbls.map fun b : Nat × Nat => (pyHex b.1, pyHex b.2)).foldl (fun d k => Python.countItem k d) acc.bblCov,
        ((bbls.flatMap fun b => halfwords b.1 b.2).map fun a : Nat => pyHex a).foldl
          (fun d k => Python.countItem k d) acc.instCov⟩ := by
  induction bbls generalizing acc with
  | nil => rfl
  | cons b rest ih =>
    rw [List.foldl_cons, ih]
    simp [bblStep, instLoop_eq, List.foldl_append, List.foldl_map]

theorem instCov_eq (cases : List (List (Nat × Nat))) :
    instCov cases =
      ⟨(cases.flatten.map fun b : Nat × Nat => (pyHex b.1, pyHex b.2)).foldl
          (fun d k => Python.countItem k d) [],
        ((countedAddrs cases).map fun a : Nat => pyHex a).foldl (fun d k => Python.countItem k d) []⟩ := by
  -- the accumulator is carried from case to case
  have run : ∀ (cs : List (List (Nat × Nat))) (acc : CovCounts),
      cs.foldl (fun acc bbls => bbls.foldl bblStep acc) acc =
        ⟨(cs.flatten.map fun b : Nat × Nat => (pyHex b.1, pyHex b.2)).foldl
            (fun d k => Python.countItem k d) acc.bblCov,
          ((cs.flatten.flatMap fun b => halfwords b.1 b.2).map fun a : Nat => pyHex a).foldl
            (fun d k => Python.countItem k d) acc.instCov⟩ := by
    intro cs
    induction cs with
    | nil => intro acc; rfl
    | cons bbls rest ih =>
      intro acc
      rw [List.foldl_cons, ih, foldl_bblStep]
      simp [List.foldl_append]
  exact run cases ⟨[], []⟩

theorem pyHex_natCast_injective : Function.Injective fun a : Nat => pyHex a :=
  fun _ _ same => pyHex_natCast_inj same

theorem count_countedAddrs (cases : List (List (Nat × Nat))) (a : Nat) :
    (countedAddrs cases).count a = cases.flatten.countP fun b => a ∈ halfwords b.1 b.2 := by
  unfold countedAddrs
  induction cases.flatten with
  | nil => rfl
  | cons b rest ih =>
    rw [List.flatMap_cons, List.count_append, ih, List.countP_cons]
    -- a block runs each of its addresses once
    by_cases ran : a ∈ halfwords b.1 b.2
    · rw [List.count_eq_one_of_mem (nodup_halfwords b.1 b.2) ran]
      simp [ran, Nat.add_comm]
    · rw [List.count_eq_zero_of_not_mem ran]
      simp [ran]

/-! ## What the dictionaries hold -/

/-- After the runs of all cases, `inst_cov` holds under `hex` of an address the number of blocks
that ran it, the blocks `(s, e)` with `s ≤ a < e` at an even distance from `s`, and holds nothing
else; `bbl_cov` holds under each block the number of times it ran. -/
theorem inst_cov_counts_block_halfwords (cases : List (List (Nat × Nat))) (a s e : Nat) :
    (instCov cases).instCov.lookup (pyHex a) =
        (if ∃ b ∈ cases.flatten, b.1 ≤ a ∧ a < b.2 ∧ (a - b.1) % 2 = 0 then
          some (cases.flatten.countP fun b => b.1 ≤ a ∧ a < b.2 ∧ (a - b.1) % 2 = 0)
        else none) ∧
      (instCov cases).bblCov.lookup (pyHex s, pyHex e) =
        (if (s, e) ∈ cases.flatten then some (cases.flatten.count (s, e)) else none) ∧
      ∀ k, k ∈ (instCov cases).instCov.map Prod.fst ↔
        ∃ b ∈ cases.flatten, ∃ a, b.1 ≤ a ∧ a < b.2 ∧ (a - b.1) % 2 = 0 ∧ pyHex a = k := by
  have blockKey : Function.Injective fun b : Nat × Nat => (pyHex b.1, pyHex b.2) := fun b c same => by
    simp only [Prod.mk.injEq] at same
    exact Prod.ext (pyHex_natCast_inj same.1) (pyHex_natCast_inj same.2)
  rw [instCov_eq]
  dsimp only
  refine ⟨?_, ?_, fun k => ?_⟩
  · have ran : a ∈ countedAddrs cases ↔ ∃ b ∈ cases.flatten, b.1 ≤ a ∧ a < b.2 ∧ (a - b.1) % 2 = 0 := by
      simp only [countedAddrs, List.mem_flatMap, mem_halfwords]
    have times : (countedAddrs cases).count a =
        cases.flatten.countP fun b => b.1 ≤ a ∧ a < b.2 ∧ (a - b.1) % 2 = 0 := by
      simp only [count_countedAddrs, mem_halfwords]
    rw [Python.lookup_count]
    simp only [List.mem_map_of_injective pyHex_natCast_injective,
      List.count_map_of_injective _ _ pyHex_natCast_injective, ran, times]
  · have ran : ((pyHex s, pyHex e) : String × String) ∈
        cases.flatten.map (fun b : Nat × Nat => (pyHex b.1, pyHex b.2)) ↔ (s, e) ∈ cases.flatten :=
      List.mem_map_of_injective (a := (s, e)) blockKey
    have times : (cases.flatten.map fun b : Nat × Nat => (pyHex b.1, pyHex b.2)).count (pyHex s, pyHex e) =
        cases.flatten.count (s, e) :=
      List.count_map_of_injective _ _ blockKey (s, e)
    rw [Python.lookup_count]
    simp only [ran, times]
  · rw [(Python.keys_count _).2]
    simp only [List.mem_map, countedAddrs, List.mem_flatMap, mem_halfwords]
    constructor
    · rintro ⟨a, ⟨b, mem, low, high, even⟩, rfl⟩
      exact ⟨b, mem, a, low, high, even, rfl⟩
    · rintro ⟨b, mem, a, low, high, even, rfl⟩
      exact ⟨a, ⟨b, mem, low, high, even⟩, rfl⟩

theorem second_halfword_counted :
    (instCov [[(0x8000100, 0x8000104)], [(0x8000100, 0x8000102)]]).instCov.lookup (pyHex ((0x8000100 : Nat) : Int)) = some 2 ∧
      (instCov [[(0x8000100, 0x8000104)], [(0x8000100, 0x8000102)]]).instCov.lookup (pyHex ((0x8000102 : Nat) : Int)) = some 1 ∧
      (instCov [[(0x8000100, 0x8000104)], [(0x8000100, 0x8000102)]]).bblCov.lookup
        (pyHex ((0x8000100 : Nat) : Int), pyHex ((0x8000104 : Nat) : Int)) = some 1 := by
  obtain ⟨first, block, -⟩ :=
    inst_cov_counts_block_halfwords [[(0x8000100, 0x8000104)], [(0x8000100, 0x8000102)]] 0x8000100 0x8000100 0x8000104
  obtain ⟨second, -, -⟩ :=
    inst_cov_counts_block_halfwords [[(0x8000100, 0x8000104)], [(0x8000100, 0x8000102)]] 0x8000102 0x8000100 0x8000104
  refine ⟨?_, ?_, ?_⟩
  · rw [first]
    decide
  · rw [second]
    decide
  · rw [block]
    decide

end P2im
