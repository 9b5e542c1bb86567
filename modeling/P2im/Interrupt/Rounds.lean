import P2im.Interrupt.RoundRobin

set_option autoImplicit false

/-!
# Rounds of interrupts

`int_round` counts the turns of `pm_fire_interrupt` round the table: the scan adds one each time
it passes the last entry, and one more when it finds nothing enabled. A fire that adds nothing
fires an entry at or past the cursor and before the last one, so the cursor moves on without
wrapping; the cursor stays below the table's size, at most `PM_MAX_INT_EN_NUM`, so a round ends
within that many fires. Before the first round ends, the cursor only moves forward, and no
enabled entry it passes is skipped.
-/

namespace P2im.Interrupt

open Cyclic

section Scan

variable (arr : List PmInt) (c : Nat) (pos : 0 < arr.length)
include pos

theorem fireLoop_iteration {i k : Nat} (r : Int) :
    fireLoop arr c i r (k + 1) =
      let r := if (c + i) % arr.length = arr.length - 1 then r + 1 else r
      if enabledAt arr ((c + i) % arr.length) then
        .ok (some ((c + i) % arr.length, intNumAt arr ((c + i) % arr.length)), r)
      else fireLoop arr c (i + 1) r k := by
  have bound : (c + i) % arr.length < arr.length := Nat.mod_lt _ pos
  have last : ((((c + i) % arr.length : Nat) : Int) = (arr.length : Int) - 1) ↔
      (c + i) % arr.length = arr.length - 1 := by omega
  simp only [fireLoop, tmod_natCast, Int.toNat_natCast, List.getElem?_eq_getElem bound,
    Int.natCast_nonneg, if_true, ← enabledAt_of_lt bound, ← intNumAt_of_lt bound, last]

theorem fireLoop_hit {i k t : Nat} (r : Int) (from_ : i ≤ t) (within : t < i + k)
    (hit : enabledAt arr ((c + t) % arr.length) = true)
    (misses : ∀ t', i ≤ t' → t' < t → enabledAt arr ((c + t') % arr.length) = false) :
    fireLoop arr c i r k = .ok (some ((c + t) % arr.length, intNumAt arr ((c + t) % arr.length)),
      r + lastHits arr.length c i (t - i + 1)) := by
  induction k generalizing i r with
  | zero => omega
  | succ k ih =>
    rw [fireLoop_iteration arr c pos]
    by_cases here : t = i
    · subst here
      simp only [hit, if_true, Nat.sub_self, lastHits]
      split <;> simp
    · have skip := misses i (Nat.le_refl i) (by omega)
      simp only [skip, Bool.false_eq_true, if_false]
      rw [ih _ (by omega) (by omega) (fun t' low high => misses t' (by omega) high),
        show t - i + 1 = (t - (i + 1) + 1) + 1 by omega, lastHits.eq_2 arr.length c i]
      congr 2
      split <;> push_cast <;> omega

theorem fireLoop_miss {i k : Nat} (r : Int)
    (misses : ∀ t', i ≤ t' → t' < i + k → enabledAt arr ((c + t') % arr.length) = false) :
    fireLoop arr c i r k = .ok (none, r + lastHits arr.length c i k) := by
  induction k generalizing i r with
  | zero => simp [fireLoop, lastHits]
  | succ k ih =>
    rw [fireLoop_iteration arr c pos, lastHits]
    simp only [misses i (Nat.le_refl i) (by omega), Bool.false_eq_true, if_false]
    rw [ih _ (fun t' low high => misses t' (by omega) (by omega))]
    congr 2
    split <;> push_cast <;> omega

end Scan

variable {t : PmInterrupt} {c : Nat} {r : Int}

theorem pmFireInterrupt_hit {g : Nat} (pos : 0 < t.arr.length) (cursor : t.curInt = c)
    (hc : c < t.arr.length)
    (found : firstFrom (enabledAt t.arr) t.arr.length c 0 t.arr.length = some g) :
    pmFireInterrupt t r =
      .ok ({ t with curInt := ((g + 1) % t.arr.length : Nat) },
        r + (if dist t.arr.length c (t.arr.length - 1) ≤ dist t.arr.length c g then 1 else 0),
        some (intNumAt t.arr g)) := by
  obtain ⟨s, -, within, rfl, hit, misses⟩ := firstFrom_some found
  have scan := fireLoop_hit t.arr c pos r (Nat.zero_le s) within hit
    (fun t' _ before => misses t' (Nat.zero_le t') before)
  rw [lastHits_eq hc 0 (s - 0 + 1) (by omega)] at scan
  rw [dist_add_mod hc (by omega)]
  have passed : (0 ≤ dist t.arr.length c (t.arr.length - 1) ∧
      dist t.arr.length c (t.arr.length - 1) < 0 + (s - 0 + 1)) ↔
      dist t.arr.length c (t.arr.length - 1) ≤ s := by omega
  simp only [pmFireInterrupt, cursor, scan, passed, Except.ok_bind]
  rw [← Int.natCast_one, ← Int.natCast_add, Int.ofNat_tmod]
  split <;> rfl

theorem pmFireInterrupt_miss (pos : 0 < t.arr.length) (cursor : t.curInt = c) (hc : c < t.arr.length)
    (missing : firstFrom (enabledAt t.arr) t.arr.length c 0 t.arr.length = none) :
    pmFireInterrupt t r = .ok (t, r + 2, none) := by
  have off := firstFrom_none missing
  have scan := fireLoop_miss t.arr c pos r (fun t' _ high => off t' (Nat.zero_le t') high)
  rw [lastHits_eq hc 0 t.arr.length (by omega),
    if_pos ⟨Nat.zero_le _, by simpa using dist_lt hc (by omega : t.arr.length - 1 < t.arr.length)⟩]
    at scan
  simp only [pmFireInterrupt, cursor, scan, Except.ok_bind]
  congr 3
  omega

theorem fire_round {t' : PmInterrupt} {r' : Int} {fired : Option Int} (wf : t.WellFormed)
    (ok : pmFireInterrupt t r = .ok (t', r', fired)) :
    r ≤ r' ∧ (r' = r → ∃ g : Nat, t.curInt ≤ g ∧ g + 1 < t.arr.length ∧ enabledAt t.arr g = true ∧
      (∀ j : Nat, t.curInt ≤ j → j < g → enabledAt t.arr j = false) ∧
      fired = some (intNumAt t.arr g) ∧ t'.curInt = ((g + 1 : Nat) : Int) ∧ t'.arr = t.arr) := by
  by_cases empty : t.arr = []
  · rw [pmFireInterrupt_empty empty] at ok
    cases ok
    exact ⟨by omega, fun same => by omega⟩
  have pos : 0 < t.arr.length := List.length_pos_iff.mpr empty
  obtain ⟨cursor, hc⟩ := wf.cursor pos
  cases scan : firstFrom (enabledAt t.arr) t.arr.length t.curInt.toNat 0 t.arr.length with
  | none =>
    rw [pmFireInterrupt_miss pos cursor hc scan] at ok
    cases ok
    exact ⟨by omega, fun same => by omega⟩
  | some g =>
    rw [pmFireInterrupt_hit pos cursor hc scan] at ok
    cases ok
    obtain ⟨hg, on, nearest⟩ := firstFrom_nearest hc scan
    refine ⟨by split <;> omega, fun same => ?_⟩
    -- no round: the scan reached `g` before the last entry, so it did not wrap
    have short : dist t.arr.length t.curInt.toNat g < dist t.arr.length t.curInt.toNat (t.arr.length - 1) := by
      by_contra far
      rw [if_pos (by omega)] at same
      omega
    have noWrap : t.curInt.toNat ≤ g := by
      by_contra wrap
      rw [dist_of_lt (by omega), dist_of_le (by omega)] at short
      omega
    rw [dist_of_le noWrap, dist_of_le (by omega)] at short
    refine ⟨g, by omega, by omega, on, fun j low before => ?_, rfl, ?_, rfl⟩
    · by_contra on'
      have closer := nearest j (by omega) (by simpa using on')
      rw [dist_of_le noWrap, dist_of_le (by omega)] at closer
      omega
    · rw [Nat.mod_eq_of_lt (by omega)]

theorem fire_round_reaches {t' : PmInterrupt} {r' : Int} {fired : Option Int} {p : Nat}
    (wf : t.WellFormed) (hp : p < t.arr.length) (on : enabledAt t.arr p = true) (ahead : t.curInt ≤ p)
    (ok : pmFireInterrupt t r = .ok (t', r', fired)) (counted : r < r') :
    fired = some (intNumAt t.arr p) := by
  have pos : 0 < t.arr.length := by omega
  obtain ⟨cursor, hc⟩ := wf.cursor pos
  cases scan : firstFrom (enabledAt t.arr) t.arr.length t.curInt.toNat 0 t.arr.length with
  | none =>
    have := firstFrom_none_all hc scan p hp
    simp [on] at this
  | some g =>
    rw [pmFireInterrupt_hit pos cursor hc scan] at ok
    cases ok
    obtain ⟨hg, -, nearest⟩ := firstFrom_nearest hc scan
    have closer := nearest p hp on
    -- the round ended: the scan passed the last entry before `g`, which is then `p`
    have passed : dist t.arr.length t.curInt.toNat (t.arr.length - 1) ≤
        dist t.arr.length t.curInt.toNat g := by
      by_contra short
      rw [if_neg short] at counted
      omega
    rw [dist_of_le (by omega : t.curInt.toNat ≤ p)] at closer
    rw [dist_of_le (by omega : t.curInt.toNat ≤ t.arr.length - 1)] at passed
    -- `g` is at or past the cursor too: a wrapped `g` would lie farther than `p`
    have noWrap : t.curInt.toNat ≤ g := by
      by_contra wrap
      rw [dist_of_lt (by omega)] at closer
      omega
    rw [dist_of_le noWrap] at passed closer
    have same : g = p := by omega
    rw [same]

theorem PmInterrupt.WellFormed.cur_lt (wf : t.WellFormed) : t.curInt < pmMaxIntEnNum := by
  have room := wf.size_le
  rcases wf.cur_bound with below | zero <;> simp only [pmMaxIntEnNum] at * <;> omega

/-! ## The calls besides firing -/

theorem enabledAt_append {arr : List PmInt} {p : Nat} (y : PmInt) (bound : p < arr.length) :
    enabledAt (arr ++ [y]) p = enabledAt arr p := by
  simp [enabledAt, List.getElem?_append_left bound]

theorem intNumAt_append {arr : List PmInt} {p : Nat} (y : PmInt) (bound : p < arr.length) :
    intNumAt (arr ++ [y]) p = intNumAt arr p := by
  simp [intNumAt, List.getElem?_append_left bound]

theorem enabledAt_modify_of_ne {arr : List PmInt} {i p : Nat} (b : Bool) (other : i ≠ p) :
    enabledAt (arr.modify i fun x => { x with enabled := b }) p = enabledAt arr p := by
  simp [enabledAt, List.getElem?_modify_ne _ _ other]

theorem intNumAt_modify (arr : List PmInt) (i p : Nat) (b : Bool) :
    intNumAt (arr.modify i fun x => { x with enabled := b }) p = intNumAt arr p := by
  simp only [intNumAt, List.getElem?_modify]
  cases arr[p]? <;> simp only [Option.map_none, Option.map_some, Option.map_eq_map,
    Option.getD_none, Option.getD_some]
  split <;> rfl

structure Awaits (x : Int) (p : Nat) (t : PmInterrupt) : Prop where
  bound : p < t.arr.length
  on : enabledAt t.arr p = true
  num : intNumAt t.arr p = x

theorem pmEnableInterrupt_awaits {t t' : PmInterrupt} {excpNum x : Int} {p : Nat}
    (waits : Awaits x p t) (ok : pmEnableInterrupt t excpNum = .ok t') : Awaits x p t' := by
  unfold pmEnableInterrupt at ok
  split at ok
  next i _ =>
    cases ok
    refine ⟨by simpa using waits.bound, ?_, by rw [intNumAt_modify]; exact waits.num⟩
    by_cases here : i = p
    · subst here
      simp [enabledAt, List.getElem?_eq_getElem waits.bound]
    · rw [enabledAt_modify_of_ne true here]; exact waits.on
  next =>
    split at ok
    · cases ok
    · cases ok
      exact ⟨by simpa using Nat.lt_succ_of_lt waits.bound,
        by rw [enabledAt_append _ waits.bound]; exact waits.on,
        by rw [intNumAt_append _ waits.bound]; exact waits.num⟩

theorem pmDisableInterrupt_awaits {t : PmInterrupt} {excpNum x : Int} {p : Nat}
    (waits : Awaits x p t) (other : excpNum ≠ x) : Awaits x p (pmDisableInterrupt t excpNum) := by
  unfold pmDisableInterrupt
  split
  next i found =>
    obtain ⟨bound, hit, -⟩ := List.findIdx?_eq_some_iff_getElem.mp found
    have elsewhere : i ≠ p := by
      rintro rfl
      have num := waits.num
      rw [intNumAt_of_lt waits.bound] at num
      simp [matchesExcp, num] at hit
      exact other hit.symm
    exact ⟨by simpa using waits.bound, by rw [enabledAt_modify_of_ne false elsewhere]; exact waits.on,
      by rw [intNumAt_modify]; exact waits.num⟩
  next => exact waits

theorem intStep_not_fire {s s' : IntState} {call : IntCall} {fired : Option Int}
    (notFire : call ≠ .fire) (ok : intStep s call = .ok (s', fired)) :
    s'.table.curInt = s.table.curInt ∧ s'.intRound = s.intRound := by
  cases call with
  | enable excpNum =>
    obtain ⟨table, enabled, rest⟩ := Except.bind_eq_ok.mp ok
    simp only [Except.pure_eq_ok, Except.ok.injEq, Prod.mk.injEq] at rest
    obtain ⟨rfl, -⟩ := rest
    exact ⟨(pmEnableInterrupt_cases enabled).1, rfl⟩
  | disable excpNum =>
    simp only [intStep, Except.pure_eq_ok, Except.ok.injEq, Prod.mk.injEq] at ok
    obtain ⟨rfl, -⟩ := ok
    exact ⟨(pmDisableInterrupt_intNums _ _).2, rfl⟩
  | fire => exact absurd rfl notFire

theorem intStep_awaits {s s' : IntState} {call : IntCall} {fired : Option Int} {x : Int} {p : Nat}
    (wf : s.table.WellFormed) (waits : Awaits x p s.table) (other : call ≠ .disable x)
    (ok : intStep s call = .ok (s', fired)) : Awaits x p s'.table := by
  cases call with
  | enable excpNum =>
    obtain ⟨table, enabled, rest⟩ := Except.bind_eq_ok.mp ok
    simp only [Except.pure_eq_ok, Except.ok.injEq, Prod.mk.injEq] at rest
    obtain ⟨rfl, -⟩ := rest
    exact pmEnableInterrupt_awaits waits enabled
  | disable excpNum =>
    simp only [intStep, Except.pure_eq_ok, Except.ok.injEq, Prod.mk.injEq] at ok
    obtain ⟨rfl, -⟩ := ok
    exact pmDisableInterrupt_awaits waits fun same => other (same ▸ rfl)
  | fire =>
    have same := (fire_cases wf (fire_step ok)).1
    exact ⟨same ▸ waits.bound, same ▸ waits.on, same ▸ waits.num⟩

/-! ## Runs -/

def IntState.progress (s : IntState) : Int := pmMaxIntEnNum * s.intRound + s.table.curInt

theorem intStep_progress {s s' : IntState} {call : IntCall} {fired : Option Int}
    (wf : s.table.WellFormed) (ok : intStep s call = .ok (s', fired)) :
    s.intRound ≤ s'.intRound ∧ s.progress + (if call = .fire then 1 else 0) ≤ s'.progress := by
  by_cases isFire : call = .fire
  · subst isFire
    have fire := fire_step ok
    obtain ⟨up, flat⟩ := fire_round wf fire
    have high := wf.cur_lt
    have low := (fire_wellFormed wf fire).cur_nonneg
    simp only [IntState.progress, if_true, pmMaxIntEnNum] at high ⊢
    refine ⟨up, ?_⟩
    by_cases same : s'.intRound = s.intRound
    · -- no turn: the cursor moved past the fired entry, at or past the old cursor
      obtain ⟨g, ahead, -, -, -, -, cursor, -⟩ := flat same
      omega
    · omega
  · obtain ⟨cursor, round⟩ := intStep_not_fire isFire ok
    simp only [IntState.progress, cursor, round, if_neg isFire]
    omega

theorem intRun_progress {s s' : IntState} {calls : List IntCall} {fired : List (Option Int)}
    (wf : s.table.WellFormed) (run : intRun s calls = .ok (s', fired)) :
    s.intRound ≤ s'.intRound ∧ s.progress + calls.count .fire ≤ s'.progress ∧
      s'.table.WellFormed := by
  induction calls generalizing s fired with
  | nil =>
    simp only [intRun, Except.ok.injEq, Prod.mk.injEq] at run
    obtain ⟨rfl, -⟩ := run
    exact ⟨Int.le_refl _, by simp, wf⟩
  | cons call calls ih =>
    obtain ⟨s₁, _, _, first, more, -⟩ := intRun_cons_ok run
    obtain ⟨up, gain⟩ := intStep_progress wf first
    obtain ⟨up', gain', wf'⟩ := ih (intStep_wellFormed wf first) more
    refine ⟨Int.le_trans up up', ?_, wf'⟩
    by_cases isFire : call = .fire
    · simp only [List.count_cons, isFire, beq_self_eq_true, if_true] at gain ⊢
      push_cast
      omega
    · simp only [List.count_cons, beq_iff_eq, isFire, if_false] at gain ⊢
      omega

theorem intRun_fires_lt {s s' : IntState} {calls : List IntCall} {fired : List (Option Int)}
    (wf : s.table.WellFormed) (run : intRun s calls = .ok (s', fired)) :
    (calls.count .fire : Int) < pmMaxIntEnNum * (s'.intRound - s.intRound + 1) := by
  obtain ⟨-, gain, wf'⟩ := intRun_progress wf run
  have low := wf.cur_nonneg
  have high := wf'.cur_lt
  simp only [IntState.progress, pmMaxIntEnNum] at gain high ⊢
  omega

theorem intRun_covers {s s₁ : IntState} {calls : List IntCall} {fired : List (Option Int)}
    {x : Int} {p : Nat} (wf : s.table.WellFormed) (waits : Awaits x p s.table)
    (ahead : s.table.curInt ≤ p) (kept : .disable x ∉ calls)
    (run : intRun s calls = .ok (s₁, fired)) (flat : s₁.intRound = s.intRound) :
    some x ∈ fired ∨ (Awaits x p s₁.table ∧ s₁.table.curInt ≤ p) := by
  induction calls generalizing s fired with
  | nil =>
    simp only [intRun, Except.ok.injEq, Prod.mk.injEq] at run
    obtain ⟨rfl, -⟩ := run
    exact .inr ⟨waits, ahead⟩
  | cons call calls ih =>
    obtain ⟨s₂, f, rest, first, more, rfl⟩ := intRun_cons_ok run
    have wf₂ := intStep_wellFormed wf first
    have up := (intStep_progress wf first).1
    have up' := (intRun_progress wf₂ more).1
    have other : call ≠ .disable x := fun same => kept (same ▸ List.mem_cons_self)
    have later : s₂.table.curInt ≤ p →
        some x ∈ f :: rest ∨ (Awaits x p s₁.table ∧ s₁.table.curInt ≤ p) := fun ahead₂ =>
      (ih wf₂ (intStep_awaits wf waits other first) ahead₂
        (fun mem => kept (List.mem_cons_of_mem _ mem)) more (by omega)).imp_left
        (List.mem_cons_of_mem _)
    by_cases isFire : call = .fire
    · subst isFire
      obtain ⟨g, low, -, -, before, rfl, cursor, -⟩ := (fire_round wf (fire_step first)).2 (by omega)
      -- the fire takes the first enabled entry from the cursor, which is `p` or one before it
      have reach : g ≤ p := by
        by_contra past
        have off := before p ahead (by omega)
        rw [waits.on] at off
        cases off
      rcases Nat.lt_or_eq_of_le reach with earlier | rfl
      · exact later (by omega)
      · left
        rw [← waits.num]
        exact List.mem_cons_self
    · exact later (by rw [(intStep_not_fire isFire first).1]; exact ahead)

/-- What `int_round` does over any run of calls from a reachable state: it grows within every
`2 * PM_MAX_INT_EN_NUM + 1` fires, by `k` within every `PM_MAX_INT_EN_NUM * (k + 1)`, and the
first turn fires every entry enabled from before the first fire and never disabled. -/
structure RoundsProgress : Prop where
  progress : ∀ s calls s' fired, Reachable s → 2 * pmMaxIntEnNum + 1 ≤ calls.count .fire →
    intRun s calls = .ok (s', fired) → s.intRound < s'.intRound
  bounded : ∀ s calls s' fired (k : Nat), Reachable s → pmMaxIntEnNum * (k + 1) ≤ calls.count .fire →
    intRun s calls = .ok (s', fired) → s.intRound + k < s'.intRound
  coverage : ∀ s₀, Reachable s₀ → s₀.intRound = 0 → s₀.table.curInt = 0 →
    ∀ x ∈ s₀.table.arr, x.enabled = true →
    ∀ pre s₁ fired s' fired', .disable x.intNum ∉ pre → intRun s₀ pre = .ok (s₁, fired) →
      s₁.intRound = 0 → intStep s₁ .fire = .ok (s', fired') → 1 ≤ s'.intRound →
      some x.intNum ∈ fired ∨ fired' = some x.intNum

theorem interrupt_rounds_progress : RoundsProgress where
  progress s calls s' fired reach many run := by
    have fewer := intRun_fires_lt (reachable_wellFormed reach) run
    simp only [pmMaxIntEnNum] at many fewer
    omega
  bounded s calls s' fired k reach many run := by
    have fewer := intRun_fires_lt (reachable_wellFormed reach) run
    simp only [pmMaxIntEnNum] at many fewer
    omega
  coverage s₀ reach round cursor x mem on pre s₁ fired s' fired' kept run flat last turned := by
    have wf := reachable_wellFormed reach
    obtain ⟨p, bound, rfl⟩ := List.getElem_of_mem mem
    have waits : Awaits s₀.table.arr[p].intNum p s₀.table :=
      ⟨bound, by rw [enabledAt_of_lt bound]; exact on, intNumAt_of_lt bound⟩
    rcases intRun_covers wf waits (by omega) kept run (by omega) with early | ⟨waits₁, ahead⟩
    · exact .inl early
    · -- the fire that ends the first turn reaches `p`
      have wf₁ := (intRun_progress wf run).2.2
      right
      rw [fire_round_reaches wf₁ waits₁.bound waits₁.on ahead (fire_step last) (by omega), waits₁.num]

theorem demo_fires_end_round :
    ∃ s' fired, intRun demoState (List.replicate 33 .fire) = .ok (s', fired) ∧
      demoState.intRound < s'.intRound := by
  obtain ⟨⟨s', fired⟩, run⟩ : ∃ r, intRun demoState (List.replicate 33 .fire) = .ok r := ⟨_, rfl⟩
  exact ⟨s', fired, run,
    interrupt_rounds_progress.progress demoState _ s' fired demoState_reachable (by decide) run⟩

end P2im.Interrupt
