import P2im.Extraction.Prereq

set_option autoImplicit false

/-!
# The bits `driver_checked_bits` finds checked

`exec_trace_sig` groups the bits of each SR read by the digest of what follows them, and
`driver_checked_bits` takes every group but the first largest as checked: it writes their bits
under `"checked_bits"` and returns, for each SR, the baseline and then each checked bit, each
followed by what it returns under it. When the baseline's own group is not the first largest, the
baseline is one of the checked bits, and every combination that starts with it comes twice.

`stage2_5` turns the baseline of an SR in a name into the one bit checked at its place. It finds
that place by descending through the bits it has already written for the SRs before, not through
those of the name.
-/

namespace P2im

/-! ## `trace_sig` with its digests -/

mutual
def TraceSig.digests {σ : Type} (trace : List Char → σ) : TraceSig → List σ
  | .trace file => [trace file]
  | .node subs _ => TraceSig.subsDigests trace subs

def TraceSig.subsDigests {σ : Type} (trace : List Char → σ) : List (List Char × TraceSig) → List σ
  | [] => []
  | (_, sub) :: rest => sub.digests trace ++ TraceSig.subsDigests trace rest
end

/-- `"summary"`: the bits of the SR read, grouped by the `"sig"` of the dictionary under them, in
the order the digests first come. All dictionaries of one level are built from the same inputs,
so two of them have the same `"sig"`, the digest of `str(dic)`, exactly when their traces have the
same digests in order. -/
def summaryOf {σ : Type} [DecidableEq σ] (trace : List Char → σ) (subs : List (List Char × TraceSig))
    (keys : List (List Int)) : List (List (List Int)) :=
  ((subs.zip keys).foldl (fun d entry => Python.appendItem (entry.1.2.digests trace) entry.2 d) []).map
    Prod.snd

/-- `trace_sig` as `driver_checked_bits` reads and writes it: the dictionaries under the keys of
the bits of one SR read, the groups of `"summary"` (the dictionary of a trace has none), and
`"checked_bits"` once written. -/
inductive SigDic where
  | node (subs : List (List Char × SigDic)) (summary : Option (List (List (List Int))))
    (checkedBits : Option (List (List Int)))

def SigDic.subs : SigDic → List (List Char × SigDic)
  | .node subs _ _ => subs

def SigDic.summary : SigDic → Option (List (List (List Int)))
  | .node _ summary _ => summary

mutual
/-- The dictionary `exec_trace_sig` returns, with `trace` the digest of each trace file. -/
def TraceSig.sigDic {σ : Type} [DecidableEq σ] (trace : List Char → σ) : TraceSig → SigDic
  | .trace _ => .node [] none none
  | .node subs keys => .node (TraceSig.subsSigDic trace subs) (some (summaryOf trace subs keys)) none

def TraceSig.subsSigDic {σ : Type} [DecidableEq σ] (trace : List Char → σ) :
    List (List Char × TraceSig) → List (List Char × SigDic)
  | [] => []
  | (key, sub) :: rest => (key, sub.sigDic trace) :: TraceSig.subsSigDic trace rest
end

mutual
/-- `trace_sig` as `stage2_5` reads it, once `driver_checked_bits` wrote to it. -/
def SigDic.toChecked : SigDic → CheckedSig
  | .node subs _ checkedBits => .node (SigDic.subsToChecked subs) checkedBits

def SigDic.subsToChecked : List (List Char × SigDic) → List (List Char × CheckedSig)
  | [] => []
  | (key, sub) :: rest => (key, sub.toChecked) :: SigDic.subsToChecked rest
end

/-! ## `driver_checked_bits` -/

def largestStep (max : Nat × Int) (entry : List (List Int) × Nat) : Nat × Int :=
  if max.1 < entry.1.length then (entry.1.length, entry.2) else max

/-- The size and the index of the first largest group; the index stays -1 while no group is larger
than 0. -/
def largestGroup (groups : List (List (List Int))) : Nat × Int :=
  groups.zipIdx.foldl largestStep (0, -1)

def checkedBitsOf (groups : List (List (List Int))) : Except PyError (List (List Int)) := do
  let cnt ← Python.delIndex groups (largestGroup groups).2
  pure (cnt.flatten.insertionSort (· ≤ ·))

/-- One pass of the loop of `driver_checked_bits`: `descend` under the key of `bit`, put back the
dictionary it wrote to, and add `bit` before each combination it returns. -/
def checkBit (descend : SigDic → Except PyError (SigDic × List (List (List Int))))
    (acc : List (List Char × SigDic) × List (List (List Int))) (bit : List Int) :
    Except PyError (List (List Char × SigDic) × List (List (List Int))) := do
  let sub ← Python.key (String.ofList (bitsKey bit)) (acc.1.lookup (bitsKey bit))
  let found ← descend sub
  pure (Python.setItem (bitsKey bit) found.1 acc.1, acc.2 ++ found.2.map (bit :: ·))

/-- `driver_checked_bits`: the dictionary with `"checked_bits"` written at every SR read it visits,
and the bit combinations it returns. -/
def driverCheckedBits (setBits : Nat) :
    (srNum : Nat) → SigDic → Except PyError (SigDic × List (List (List Int)))
  | 0, traceSig => pure (traceSig, [[]])
  | srNum + 1, .node subs summary _ => do
    let groups ← Python.key "summary" summary
    let bits ← checkedBitsOf groups
    let loop ← (List.replicate setBits (-1) :: bits).foldlM
      (checkBit (driverCheckedBits setBits srNum)) (subs, [])
    pure (.node loop.1 summary (some bits), loop.2)

theorem driverCheckedBits_succ {setBits n : Nat} {dic dic' : SigDic} {arr : List (List (List Int))}
    (ran : driverCheckedBits setBits (n + 1) dic = .ok (dic', arr)) :
    ∃ groups bits loop, dic.summary = some groups ∧ checkedBitsOf groups = .ok bits ∧
      (List.replicate setBits (-1) :: bits).foldlM (checkBit (driverCheckedBits setBits n))
        (dic.subs, []) = .ok loop ∧ arr = loop.2 := by
  obtain ⟨subs, summary, checkedBits⟩ := dic
  rw [driverCheckedBits] at ran
  obtain ⟨groups, found, ran⟩ := Except.bind_eq_ok.mp ran
  obtain ⟨bits, checked, ran⟩ := Except.bind_eq_ok.mp ran
  obtain ⟨loop, looped, ran⟩ := Except.bind_eq_ok.mp ran
  cases ran
  cases summary with
  | none => cases found
  | some _ =>
    cases found
    exact ⟨groups, bits, loop, rfl, checked, looped, rfl⟩

/-! ## The scan for the largest group -/

theorem largestGroup_scan (groups : List (List (List Int))) (k : Nat) (acc : Nat × Int) :
    acc.1 ≤ ((groups.zipIdx k).foldl largestStep acc).1 ∧
      (∀ g ∈ groups, g.length ≤ ((groups.zipIdx k).foldl largestStep acc).1) ∧
      ((groups.zipIdx k).foldl largestStep acc = acc ∨
        ∃ j : Nat, k ≤ j ∧ j < k + groups.length ∧ ((groups.zipIdx k).foldl largestStep acc).2 = j) := by
  induction groups generalizing k acc with
  | nil => simp
  | cons g rest ih =>
    simp only [List.zipIdx_cons, List.foldl_cons]
    obtain ⟨grows, bounds, found⟩ := ih (k + 1) (largestStep acc (g, k))
    by_cases larger : acc.1 < g.length
    · simp only [largestStep, larger, if_true] at grows bounds found ⊢
      refine ⟨by omega, ?_, .inr ?_⟩
      · intro g' mem
        rcases List.mem_cons.mp mem with rfl | later
        · exact grows
        · exact bounds g' later
      · rcases found with same | ⟨j, low, high, at_j⟩
        · exact ⟨k, le_refl k, by simp, by rw [same]⟩
        · exact ⟨j, by omega, by simp only [List.length_cons]; omega, at_j⟩
    · simp only [largestStep, larger, if_false] at grows bounds found ⊢
      refine ⟨grows, ?_, ?_⟩
      · intro g' mem
        rcases List.mem_cons.mp mem with rfl | later
        · omega
        · exact bounds g' later
      · rcases found with same | ⟨j, low, high, at_j⟩
        · exact .inl same
        · exact .inr ⟨j, by omega, by simp only [List.length_cons]; omega, at_j⟩

theorem largestGroup_found {groups : List (List (List Int))} {g : List (List Int)} (mem : g ∈ groups)
    (nonempty : 0 < g.length) : ∃ j : Nat, j < groups.length ∧ (largestGroup groups).2 = j := by
  obtain ⟨-, bounds, found⟩ := largestGroup_scan groups 0 (0, -1)
  rcases found with same | ⟨j, -, high, at_j⟩
  · have := bounds g mem
    rw [same] at this
    omega
  · exact ⟨j, by omega, at_j⟩

theorem mem_checkedBitsOf {groups : List (List (List Int))} {bits : List (List Int)} {j : Nat}
    {group : List (List Int)} {b : List Int} (checked : checkedBitsOf groups = .ok bits)
    (at_j : groups[j]? = some group) (notLargest : (largestGroup groups).2 ≠ j) (mem : b ∈ group) :
    b ∈ bits := by
  -- `group` holds `b`, so the scan stopped at a group and `del` took that one out
  obtain ⟨j₀, inside, largest⟩ :=
    largestGroup_found (List.mem_of_getElem? at_j) (List.length_pos_of_mem mem)
  rw [checkedBitsOf, largest, Python.delIndex_of_lt inside] at checked
  cases checked
  have other : j ≠ j₀ := fun same => notLargest (by rw [largest, same])
  have kept : group ∈ groups.eraseIdx j₀ := List.mem_eraseIdx_iff_getElem?.mpr ⟨j, other, at_j⟩
  exact (List.perm_insertionSort _ _).mem_iff.mpr (List.mem_flatten.mpr ⟨group, kept, mem⟩)

/-! ## What `driver_checked_bits` returns -/

structure Returned (setBits n : Nat) (arr : List (List (List Int))) : Prop where
  first : arr.head? = some (List.replicate n (List.replicate setBits (-1)))
  length : ∀ bc ∈ arr, bc.length = n

section Loop

variable {setBits n : Nat} {descend : SigDic → Except PyError (SigDic × List (List (List Int)))}

theorem checkBit_returned (returns : ∀ sub found, descend sub = .ok found → Returned setBits n found.2)
    {acc acc' : List (List Char × SigDic) × List (List (List Int))} {bit : List Int}
    (step : checkBit descend acc bit = .ok acc') :
    ∃ more, acc'.2 = acc.2 ++ more ∧
      more.head? = some (bit :: List.replicate n (List.replicate setBits (-1))) ∧
      ∀ bc ∈ more, bc.length = n + 1 := by
  obtain ⟨sub, -, step⟩ := Except.bind_eq_ok.mp step
  obtain ⟨found, descended, step⟩ := Except.bind_eq_ok.mp step
  cases step
  have under := returns sub found descended
  refine ⟨found.2.map (bit :: ·), rfl, by simp [under.first], ?_⟩
  intro bc mem
  obtain ⟨rest, restMem, rfl⟩ := List.mem_map.mp mem
  simp [under.length rest restMem]

theorem checkBits_returned (returns : ∀ sub found, descend sub = .ok found → Returned setBits n found.2)
    {bits : List (List Int)} {acc acc' : List (List Char × SigDic) × List (List (List Int))}
    (run : bits.foldlM (checkBit descend) acc = .ok acc') :
    ∃ more, acc'.2 = acc.2 ++ more ∧
      more.head? = bits.head?.map (· :: List.replicate n (List.replicate setBits (-1))) ∧
      (∀ b ∈ bits, b :: List.replicate n (List.replicate setBits (-1)) ∈ more) ∧
      ∀ bc ∈ more, bc.length = n + 1 := by
  induction bits generalizing acc with
  | nil =>
    cases run
    exact ⟨[], by simp, rfl, by simp, by simp⟩
  | cons bit rest ih =>
    rw [List.foldlM_cons] at run
    obtain ⟨acc₁, step, run⟩ := Except.bind_eq_ok.mp run
    obtain ⟨more₁, added₁, first₁, length₁⟩ := checkBit_returned returns step
    obtain ⟨more₂, added₂, -, mem₂, length₂⟩ := ih run
    have nonempty : more₁ ≠ [] := fun empty => by simp [empty] at first₁
    refine ⟨more₁ ++ more₂, by rw [added₂, added₁, List.append_assoc], ?_, ?_, ?_⟩
    · rw [List.head?_append_of_ne_nil _ nonempty, first₁]
      rfl
    · intro b mem
      rcases List.mem_cons.mp mem with rfl | later
      · exact List.mem_append_left _ (List.mem_of_mem_head? first₁)
      · exact List.mem_append_right _ (mem₂ b later)
    · intro bc mem
      rcases List.mem_append.mp mem with early | late
      · exact length₁ bc early
      · exact length₂ bc late

end Loop

theorem driverCheckedBits_returned {setBits : Nat} :
    ∀ {n : Nat} {dic dic' : SigDic} {arr : List (List (List Int))},
      driverCheckedBits setBits n dic = .ok (dic', arr) → Returned setBits n arr
  | 0, dic, dic', arr, ran => by
    cases ran
    exact ⟨rfl, by simp⟩
  | n + 1, dic, dic', arr, ran => by
    obtain ⟨groups, bits, loop, -, -, looped, rfl⟩ := driverCheckedBits_succ ran
    -- every call under a bit returns for one SR read less; the first bit is the baseline
    obtain ⟨more, added, first, -, length⟩ :=
      checkBits_returned (fun sub found descended => driverCheckedBits_returned descended) looped
    rw [added, List.nil_append]
    exact ⟨by rw [first, List.replicate_succ]; rfl, length⟩

/-- `driver_checked_bits` returns the combination of all baselines first; and when the baseline's
group is not the first largest of the summary, the baseline is also a checked bit, so that
combination comes again. -/
theorem driver_checked_bits_repeats_baseline (setBits srNum : Nat) (dic dic' : SigDic)
    (arr : List (List (List Int))) (groups : List (List (List Int))) (summary : dic.summary = some groups)
    (notLargest : ∃ (j : Nat) (group : List (List Int)), groups[j]? = some group ∧
      (largestGroup groups).2 ≠ j ∧ List.replicate setBits (-1) ∈ group)
    (ran : driverCheckedBits setBits (srNum + 1) dic = .ok (dic', arr)) :
    arr.head? = some (List.replicate (srNum + 1) (List.replicate setBits (-1))) ∧
      2 ≤ arr.count (List.replicate (srNum + 1) (List.replicate setBits (-1))) := by
  obtain ⟨groups', bits, loop, summary', checked, looped, rfl⟩ := driverCheckedBits_succ ran
  obtain rfl : groups' = groups := Option.some.inj (summary'.symm.trans summary)
  obtain ⟨j, group, at_j, other, base⟩ := notLargest
  have checkedBase := mem_checkedBitsOf checked at_j other base
  have returns : ∀ sub found, driverCheckedBits setBits srNum sub = .ok found →
      Returned setBits srNum found.2 := fun _ _ descended => driverCheckedBits_returned descended
  -- the pass over the baseline, then the loop over the checked bits, the baseline among them
  rw [List.foldlM_cons] at looped
  obtain ⟨acc₁, step, looped⟩ := Except.bind_eq_ok.mp looped
  obtain ⟨more₁, added₁, first₁, -⟩ := checkBit_returned returns step
  obtain ⟨more₂, added₂, -, mem₂, -⟩ := checkBits_returned returns looped
  have again := mem₂ _ checkedBase
  rw [← List.replicate_succ] at first₁ again
  have nonempty : more₁ ≠ [] := fun empty => by simp [empty] at first₁
  rw [added₂, added₁, List.nil_append]
  refine ⟨by rw [List.head?_append_of_ne_nil _ nonempty, first₁], ?_⟩
  rw [List.count_append]
  have once := List.count_pos_iff.mpr (List.mem_of_mem_head? first₁)
  have twice := List.count_pos_iff.mpr again
  omega

def baselineApart (file : List Char) : Bool := file == traceFile "bit:-1".toList

def oneSrSig : TraceSig :=
  match execTraceSig 8 1 "trace-".toList 1 with
  | .ok sig => sig
  | .error _ => .trace []

theorem baseline_apart_checked_twice :
    ∃ dic' arr, execTraceSig 8 1 "trace-".toList 1 = .ok oneSrSig ∧
      driverCheckedBits 1 1 (oneSrSig.sigDic baselineApart) = .ok (dic', arr) ∧ arr = [[[-1]], [[-1]]] ∧
      arr.head? = some (List.replicate 1 [-1]) ∧ 2 ≤ arr.count (List.replicate 1 [-1]) := by
  obtain ⟨dic', ran⟩ : ∃ dic', driverCheckedBits 1 1 (oneSrSig.sigDic baselineApart) =
      .ok (dic', [[[-1]], [[-1]]]) := ⟨_, rfl⟩
  -- the eight inputs with a bit set form the largest group, the baseline the other
  exact ⟨dic', _, rfl, ran, rfl, driver_checked_bits_repeats_baseline 1 0 _ dic' _
    [[[0], [1], [2], [3], [4], [5], [6], [7]], [[-1]]] rfl ⟨1, [[-1]], rfl, by decide, by decide⟩ ran⟩

/-! ## The baselines `stage2_5` converts -/

/-- The pair a baseline is to become at an SR read where the driver checked `checked`: the one
checked bit, to be clear, or the baseline itself when no bit is checked; none when several are. -/
def baselinePair (setBits : Nat) : List (List Int) → Option (List Int × Int)
  | [single] => some (single, 0)
  | [] => some (List.replicate setBits (-1), 0)
  | _ :: _ :: _ => none

/-- A name whose two SRs are baselines: the first becomes the one bit `c` checked at the root, and
the second is converted by the bits checked under the key of `c`, whatever the driver found under
the key of the baseline, which is where the name leads. -/
theorem baseline_pair_follows_rewritten_bits (setBits : Nat) (traceSig underC : CheckedSig)
    (other : Bool) (c : List Int) (checkedC : List (List Int)) (root : traceSig.checked = .ok [c])
    (subC : traceSig.sub (bitsKey c) = .ok underC) (checkedUnderC : underC.checked = .ok checkedC) :
    convertBc setBits traceSig other 0 [] true [List.replicate setBits (-1), List.replicate setBits (-1)] =
      .ok ((baselinePair setBits checkedC).map fun p => [(c, 0), p]) := by
  have atRoot : cbDicAt traceSig [] 0 = .ok traceSig := rfl
  -- the second SR's dictionary is looked up by the bits written for the first
  have underFirst : cbDicAt traceSig [(c, 0)] 1 = .ok underC := by
    simp [cbDicAt, tupBits, subC]
  rcases checkedC with _ | ⟨single, _ | ⟨second, rest⟩⟩
  · simp [convertBc, atRoot, root, underFirst, checkedUnderC, baselinePair]
  · simp [convertBc, atRoot, root, underFirst, checkedUnderC, baselinePair]
  · cases other <;> simp [convertBc, atRoot, root, underFirst, checkedUnderC, baselinePair]

def secondAfterClear (file : List Char) : Bool :=
  match (file.drop "trace-".length).splitOn ',' with
  | [first, second] => second == "bit:01".toList && first != "bit:01".toList
  | _ => false

def twoSrChecked : SigDic :=
  match execTraceSig 8 2 "trace-".toList 1 >>= fun sig =>
      driverCheckedBits 1 2 (sig.sigDic secondAfterClear) with
  | .ok found => found.1
  | .error _ => .node [] none none

theorem baseline_after_checked_bit_loses_check :
    (execTraceSig 8 2 "trace-".toList 1 >>= fun sig =>
        driverCheckedBits 1 2 (sig.sigDic secondAfterClear)) =
      .ok (twoSrChecked, [[[-1], [-1]], [[-1], [1]], [[1], [-1]]]) ∧
    fnameBits (checkedBcFname [[-1], [-1]]) = .ok [[-1], [-1]] ∧
    (twoSrChecked.toChecked.sub (bitsKey [-1]) >>= CheckedSig.checked) = .ok [[1]] ∧
    convertBc 1 twoSrChecked.toChecked false 0 [] true [[-1], [-1]] =
      .ok (some [([1], 0), ([-1], 0)]) :=
  ⟨rfl, rfl, rfl, baseline_pair_follows_rewritten_bits 1 _ _ false [1] [] rfl rfl rfl⟩

end P2im
