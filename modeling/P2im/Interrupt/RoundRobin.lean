import P2im.Interrupt.Table
import Mathlib.Data.List.Nodup
import Mathlib.Data.Option.Basic

set_option autoImplicit false

namespace P2im.Interrupt

structure PmInterrupt.WellFormed (t : PmInterrupt) : Prop where
  size_le : t.arr.length ≤ pmMaxIntEnNum
  distinct : (t.arr.map PmInt.intNum).Nodup
  cur_nonneg : 0 ≤ t.curInt
  cur_bound : t.curInt < t.arr.length ∨ t.curInt = 0

theorem init_wellFormed : PmInterrupt.init.WellFormed :=
  ⟨by decide, List.nodup_nil, Int.le_refl 0, .inr rfl⟩

theorem PmInterrupt.WellFormed.cursor {t : PmInterrupt} (wf : t.WellFormed)
    (pos : 0 < t.arr.length) : t.curInt = (t.curInt.toNat : Int) ∧ t.curInt.toNat < t.arr.length := by
  have nonneg := wf.cur_nonneg
  rcases wf.cur_bound with below | zero <;> omega

theorem enable_wellFormed {t t' : PmInterrupt} {excpNum : Int} (wf : t.WellFormed)
    (ok : pmEnableInterrupt t excpNum = .ok t') : t'.WellFormed := by
  obtain ⟨cursor, (⟨-, same⟩ | ⟨fresh, room, appended⟩)⟩ := pmEnableInterrupt_cases ok
  · have length : t'.arr.length = t.arr.length := by
      simpa using congrArg List.length same
    exact ⟨length ▸ wf.size_le, same ▸ wf.distinct, cursor ▸ wf.cur_nonneg,
      by rw [cursor, length]; exact wf.cur_bound⟩
  · have distinct : (t'.arr.map PmInt.intNum).Nodup := by
      rw [appended, List.map_append, List.nodup_append]
      exact ⟨wf.distinct, by simp, by simpa using fresh⟩
    refine ⟨by rw [appended, List.length_append]; exact room, distinct,
      cursor ▸ wf.cur_nonneg, ?_⟩
    rw [cursor, appended, List.length_append]
    rcases wf.cur_bound with below | zero
    · left; push_cast; omega
    · right; exact zero

theorem disable_wellFormed {t : PmInterrupt} (excpNum : Int) (wf : t.WellFormed) :
    (pmDisableInterrupt t excpNum).WellFormed := by
  obtain ⟨same, cursor⟩ := pmDisableInterrupt_intNums t excpNum
  have length : (pmDisableInterrupt t excpNum).arr.length = t.arr.length := by
    simpa using congrArg List.length same
  exact ⟨length ▸ wf.size_le, same ▸ wf.distinct, cursor ▸ wf.cur_nonneg,
    by rw [cursor, length]; exact wf.cur_bound⟩

theorem fire_cases {t t' : PmInterrupt} {intRound intRound' : Int} {fired : Option Int}
    (wf : t.WellFormed) (ok : pmFireInterrupt t intRound = .ok (t', intRound', fired)) :
    t'.arr = t.arr ∧
      ((fired = none ∧ t' = t ∧ ∀ j, j < t.arr.length → enabledAt t.arr j = false) ∨
        (∃ g, Cyclic.firstFrom (enabledAt t.arr) t.arr.length t.curInt.toNat 0 t.arr.length = some g ∧
          fired = some (intNumAt t.arr g) ∧ t'.curInt = ((g + 1) % t.arr.length : Nat))) := by
  by_cases empty : t.arr = []
  · rw [pmFireInterrupt_empty empty] at ok
    cases ok
    exact ⟨rfl, .inl ⟨rfl, rfl, fun j bound => by simp [empty] at bound⟩⟩
  have pos : 0 < t.arr.length := List.length_pos_iff.mpr empty
  obtain ⟨cursor, below⟩ := wf.cursor pos
  cases scan : Cyclic.firstFrom (enabledAt t.arr) t.arr.length t.curInt.toNat 0 t.arr.length with
  | none =>
    obtain ⟨_, result⟩ := pmFireInterrupt_of_none pos cursor scan
    rw [result] at ok
    cases ok
    exact ⟨rfl, .inl ⟨rfl, rfl, Cyclic.firstFrom_none_all below scan⟩⟩
  | some g =>
    obtain ⟨_, result⟩ := pmFireInterrupt_of_some pos cursor scan
    rw [result] at ok
    cases ok
    exact ⟨rfl, .inr ⟨g, rfl, rfl, rfl⟩⟩

theorem fire_wellFormed {t t' : PmInterrupt} {intRound intRound' : Int} {fired : Option Int}
    (wf : t.WellFormed) (ok : pmFireInterrupt t intRound = .ok (t', intRound', fired)) :
    t'.WellFormed := by
  obtain ⟨same, (⟨-, rfl, -⟩ | ⟨g, scan, -, cursor⟩)⟩ := fire_cases wf ok
  · exact wf
  · have pos : 0 < t.arr.length := by
      obtain ⟨_, -, high, -⟩ := Cyclic.firstFrom_some scan
      omega
    refine ⟨same ▸ wf.size_le, same ▸ wf.distinct, by rw [cursor]; omega, .inl ?_⟩
    rw [cursor, same]
    exact_mod_cast Nat.mod_lt _ pos

theorem intStep_wellFormed {s s' : IntState} {call : IntCall} {fired : Option Int}
    (wf : s.table.WellFormed) (ok : intStep s call = .ok (s', fired)) : s'.table.WellFormed := by
  cases call with
  | enable excpNum =>
    obtain ⟨table, enabled, rest⟩ := Except.bind_eq_ok.mp ok
    simp only [Except.pure_eq_ok, Except.ok.injEq, Prod.mk.injEq] at rest
    obtain ⟨rfl, -⟩ := rest
    exact enable_wellFormed wf enabled
  | disable excpNum =>
    simp only [intStep, Except.pure_eq_ok, Except.ok.injEq, Prod.mk.injEq] at ok
    obtain ⟨rfl, -⟩ := ok
    exact disable_wellFormed excpNum wf
  | fire =>
    obtain ⟨⟨table, intRound, fired'⟩, result, rest⟩ := Except.bind_eq_ok.mp ok
    simp only [Except.pure_eq_ok, Except.ok.injEq, Prod.mk.injEq] at rest
    obtain ⟨rfl, -⟩ := rest
    exact fire_wellFormed wf result

theorem reachable_wellFormed {s : IntState} (reach : Reachable s) : s.table.WellFormed := by
  induction reach with
  | init => exact init_wellFormed
  | step _ ok wf => exact intStep_wellFormed wf ok

theorem fire_step {s s' : IntState} {fired : Option Int} (ok : intStep s .fire = .ok (s', fired)) :
    pmFireInterrupt s.table s.intRound = .ok (s'.table, s'.intRound, fired) := by
  obtain ⟨⟨table, intRound, fired'⟩, result, rest⟩ := Except.bind_eq_ok.mp ok
  simp only [Except.pure_eq_ok, Except.ok.injEq, Prod.mk.injEq] at rest
  obtain ⟨rfl, rfl⟩ := rest
  exact result

theorem intRun_cons_ok {s s' : IntState} {call : IntCall} {calls : List IntCall}
    {fired : List (Option Int)} (ok : intRun s (call :: calls) = .ok (s', fired)) :
    ∃ s₁ first rest, intStep s call = .ok (s₁, first) ∧ intRun s₁ calls = .ok (s', rest) ∧
      fired = first :: rest := by
  obtain ⟨⟨s₁, fired₁⟩, first, more⟩ := Except.bind_eq_ok.mp ok
  obtain ⟨⟨s₂, rest₂⟩, others, last⟩ := Except.bind_eq_ok.mp more
  simp only [Except.pure_eq_ok, Except.ok.injEq, Prod.mk.injEq] at last
  obtain ⟨rfl, rfl⟩ := last
  exact ⟨s₁, fired₁, rest₂, first, others, rfl⟩

theorem intRun_cons {s s' : IntState} {call : IntCall} {calls : List IntCall} {fired : Option Int}
    {rest : List (Option Int)} (ok : intRun s (call :: calls) = .ok (s', fired :: rest)) :
    ∃ s₁, intStep s call = .ok (s₁, fired) ∧ intRun s₁ calls = .ok (s', rest) := by
  obtain ⟨s₁, first, rest', step, more, split⟩ := intRun_cons_ok ok
  obtain ⟨rfl, rfl⟩ := List.cons.inj split
  exact ⟨s₁, step, more⟩

theorem intNumAt_inj {arr : List PmInt} {g j : Nat} (distinct : (arr.map PmInt.intNum).Nodup)
    (hg : g < arr.length) (hj : j < arr.length) (same : intNumAt arr g = intNumAt arr j) : g = j := by
  rw [intNumAt_of_lt hg, intNumAt_of_lt hj] at same
  have injective := @List.Nodup.getElem_inj_iff _ _ distinct g (by simpa using hg) j (by simpa using hj)
  simp only [List.getElem_map] at injective
  exact injective.mp same

theorem fireRun_visits {s s' : IntState} {f ie : Nat} {middle : List (Option Int)}
    (wf : s.table.WellFormed) (hf : f < s.table.arr.length)
    (cursor : s.table.curInt.toNat = (f + 1) % s.table.arr.length)
    (hie : ie < s.table.arr.length) (enabled : enabledAt s.table.arr ie = true)
    (run : intRun s (List.replicate (middle.length + 1) .fire) =
      .ok (s', middle ++ [some (intNumAt s.table.arr ie)]))
    (fresh : some (intNumAt s.table.arr ie) ∉ middle) :
    ∃ fs, Cyclic.Visits (enabledAt s.table.arr) s.table.arr.length ie f fs ∧
      middle = fs.map fun j => some (intNumAt s.table.arr j) := by
  induction middle generalizing s f with
  | nil =>
    obtain ⟨s₁, first, -⟩ := intRun_cons run
    obtain ⟨-, (⟨none, -, -⟩ | ⟨g, scan, fired, -⟩)⟩ := fire_cases wf (fire_step first)
    · cases none
    · rw [cursor] at scan
      obtain ⟨hg, -, -⟩ := Cyclic.firstFrom_nearest (Nat.mod_lt _ (by omega)) scan
      have back := intNumAt_inj wf.distinct hg hie (Option.some.inj fired).symm
      exact ⟨[], by rw [← back]; exact scan, rfl⟩
  | cons y middle ih =>
    obtain ⟨s₁, first, rest⟩ := intRun_cons run
    obtain ⟨same, (⟨none, -, off⟩ | ⟨g, scan, fired, moved⟩)⟩ := fire_cases wf (fire_step first)
    · have := off ie hie
      simp [enabled] at this
    · rw [cursor] at scan
      obtain ⟨hg, -, -⟩ := Cyclic.firstFrom_nearest (Nat.mod_lt _ (by omega)) scan
      have other : g ≠ ie := by
        rintro rfl
        exact fresh (by simp [fired])
      have later := ih (s := s₁) (f := g) (fire_wellFormed wf (fire_step first))
        (by rw [same]; exact hg) (by rw [moved, same, Int.toNat_natCast]) (by rw [same]; exact hie)
        (by rw [same]; exact enabled) (by rw [same]; exact rest)
        (by rw [same]; exact fun mem => fresh (List.mem_cons_of_mem _ mem))
      obtain ⟨fs, visits, shape⟩ := later
      rw [same] at visits shape
      exact ⟨g :: fs, ⟨scan, other, visits⟩, by rw [fired, shape, List.map_cons]⟩

theorem fire_ok {t : PmInterrupt} (intRound : Int) (wf : t.WellFormed) :
    ∃ t' intRound' fired, pmFireInterrupt t intRound = .ok (t', intRound', fired) := by
  by_cases empty : t.arr = []
  · exact ⟨_, _, _, pmFireInterrupt_empty empty⟩
  have pos : 0 < t.arr.length := List.length_pos_iff.mpr empty
  obtain ⟨cursor, -⟩ := wf.cursor pos
  cases scan : Cyclic.firstFrom (enabledAt t.arr) t.arr.length t.curInt.toNat 0 t.arr.length with
  | none =>
    obtain ⟨_, result⟩ := pmFireInterrupt_of_none pos cursor scan
    exact ⟨_, _, _, result⟩
  | some g =>
    obtain ⟨_, result⟩ := pmFireInterrupt_of_some pos cursor scan
    exact ⟨_, _, _, result⟩

theorem fire_served {t t' : PmInterrupt} {intRound intRound' : Int} {fired : Option Int}
    (wf : t.WellFormed) (ok : pmFireInterrupt t intRound = .ok (t', intRound', fired)) :
    (∀ x, fired = some x → ∃ y ∈ t.arr, y.enabled = true ∧ y.intNum = x) ∧
      (fired = none ↔ ∀ y ∈ t.arr, y.enabled = false) := by
  obtain ⟨-, (⟨rfl, -, off⟩ | ⟨g, scan, rfl, -⟩)⟩ := fire_cases wf ok
  · refine ⟨fun x none => (by cases none), iff_of_true rfl fun y member => ?_⟩
    obtain ⟨j, bound, rfl⟩ := List.mem_iff_getElem.mp member
    simpa [enabledAt_of_lt bound] using off j bound
  · have cursor : t.curInt.toNat < t.arr.length := by
      obtain ⟨_, -, high, -⟩ := Cyclic.firstFrom_some scan
      have pos : 0 < t.arr.length := by omega
      exact (wf.cursor pos).2
    obtain ⟨hg, pg, -⟩ := Cyclic.firstFrom_nearest cursor scan
    rw [enabledAt_of_lt hg] at pg
    refine ⟨fun x fired => ⟨t.arr[g], List.getElem_mem hg, pg, ?_⟩, ?_⟩
    · rw [← intNumAt_of_lt hg]; exact Option.some.inj fired
    · refine iff_of_false (by simp) fun off => ?_
      simp [off t.arr[g] (List.getElem_mem hg)] at pg

theorem fire_window {s s' : IntState} {e : Int} {middle : List (Option Int)}
    (wf : s.table.WellFormed)
    (run : intRun s (List.replicate (middle.length + 2) .fire) = .ok (s', some e :: (middle ++ [some e])))
    (fresh : some e ∉ middle) :
    middle.Perm ((s.table.arr.filter fun y => y.enabled && y.intNum != e).map fun y => some y.intNum) := by
  obtain ⟨s₁, first, rest⟩ := intRun_cons run
  obtain ⟨same, (⟨none, -, -⟩ | ⟨ie, scan, fired, moved⟩)⟩ := fire_cases wf (fire_step first)
  · cases none
  have pos : 0 < s.table.arr.length := by
    obtain ⟨_, -, high, -⟩ := Cyclic.firstFrom_some scan
    omega
  obtain ⟨hie, pie, -⟩ := Cyclic.firstFrom_nearest (wf.cursor pos).2 scan
  have e_eq : e = intNumAt s.table.arr ie := Option.some.inj fired
  subst e_eq
  obtain ⟨fs, visits, shape⟩ := fireRun_visits (s := s₁) (f := ie) (fire_wellFormed wf (fire_step first))
    (by rw [same]; exact hie) (by rw [moved, same, Int.toNat_natCast]) (by rw [same]; exact hie)
    (by rw [same]; exact pie) (by rw [same]; exact rest) (by rw [same]; exact fresh)
  rw [same] at visits shape
  obtain ⟨members, distinct⟩ := Cyclic.visits_exact hie pie hie visits
  have inFs : ∀ j, j ∈ fs ↔ j < s.table.arr.length ∧ enabledAt s.table.arr j = true ∧ j ≠ ie := by
    intro j
    rw [members j, Cyclic.dist_self]
    constructor
    · rintro ⟨bound, on, far⟩
      refine ⟨bound, on, fun back => ?_⟩
      subst back
      rw [Cyclic.dist_self] at far
      omega
    · rintro ⟨bound, on, other⟩
      exact ⟨bound, on, Nat.pos_of_ne_zero fun zero => other (Cyclic.eq_of_dist_eq_zero hie zero)⟩
  rw [shape]
  refine (List.perm_ext_iff_of_nodup ?_ ?_).mpr fun y => ?_
  · refine List.Nodup.map_on (fun i member j member' same => ?_) distinct
    exact intNumAt_inj wf.distinct ((inFs i).mp member).1 ((inFs j).mp member').1 (Option.some.inj same)
  · have kept : ((s.table.arr.filter fun y => y.enabled && y.intNum != intNumAt s.table.arr ie).map
        PmInt.intNum).Nodup := (List.filter_sublist.map _).nodup wf.distinct
    simpa [List.map_map, Function.comp_def] using kept.map (Option.some_injective Int)
  · simp only [List.mem_map, List.mem_filter]
    constructor
    · rintro ⟨j, member, rfl⟩
      obtain ⟨bound, on, other⟩ := (inFs j).mp member
      refine ⟨s.table.arr[j], ⟨List.getElem_mem bound, ?_⟩, by rw [intNumAt_of_lt bound]⟩
      rw [enabledAt_of_lt bound] at on
      simp only [on, Bool.true_and, bne_iff_ne, ne_eq]
      intro same
      exact other (intNumAt_inj wf.distinct bound hie (by rw [intNumAt_of_lt bound]; exact same))
    · rintro ⟨x, ⟨member, keep⟩, rfl⟩
      obtain ⟨j, bound, rfl⟩ := List.mem_iff_getElem.mp member
      simp only [Bool.and_eq_true, bne_iff_ne, ne_eq] at keep
      refine ⟨j, (inFs j).mpr ⟨bound, by rw [enabledAt_of_lt bound]; exact keep.1, fun back => ?_⟩,
        by rw [intNumAt_of_lt bound]⟩
      subst back
      exact keep.2 (intNumAt_of_lt bound).symm

theorem reachable_of_run {s s' : IntState} {calls : List IntCall} {fired : List (Option Int)}
    (reach : Reachable s) (run : intRun s calls = .ok (s', fired)) : Reachable s' := by
  induction calls generalizing s fired with
  | nil =>
    simp only [intRun, Except.ok.injEq, Prod.mk.injEq] at run
    obtain ⟨rfl, -⟩ := run
    exact reach
  | cons call calls ih =>
    obtain ⟨s₁, _, _, first, more, -⟩ := intRun_cons_ok run
    exact ih (Reachable.step reach first) more

structure TableFacts (s : IntState) : Prop where
  size_le : s.table.arr.length ≤ pmMaxIntEnNum
  distinct : (s.table.arr.map PmInt.intNum).Nodup
  cursor : 0 < s.table.arr.length → 0 ≤ s.table.curInt ∧ s.table.curInt < s.table.arr.length
  fire_total : ∃ s' fired, intStep s .fire = .ok (s', fired)
  fire_enabled : ∀ s' fired, intStep s .fire = .ok (s', fired) →
    ∀ x, fired = some x → ∃ y ∈ s.table.arr, y.enabled = true ∧ y.intNum = x
  fire_none : ∀ s' fired, intStep s .fire = .ok (s', fired) →
    (fired = none ↔ ∀ y ∈ s.table.arr, y.enabled = false)
  window : ∀ (e : Int) (middle : List (Option Int)) (s' : IntState),
    intRun s (List.replicate (middle.length + 2) .fire) = .ok (s', some e :: (middle ++ [some e])) →
    some e ∉ middle →
    middle.Perm ((s.table.arr.filter fun y => y.enabled && y.intNum != e).map fun y => some y.intNum)

theorem interrupt_table_round_robin (s : IntState) (reach : Reachable s) : TableFacts s := by
  have wf := reachable_wellFormed reach
  refine ⟨wf.size_le, wf.distinct, fun pos => ?_, ?_, fun s' fired ok => (fire_served wf (fire_step ok)).1,
    fun s' fired ok => (fire_served wf (fire_step ok)).2, fun e middle s' run fresh => fire_window wf run fresh⟩
  · obtain ⟨cursor, below⟩ := wf.cursor pos
    omega
  · obtain ⟨t', intRound', fired, ok⟩ := fire_ok s.intRound wf
    exact ⟨⟨t', intRound'⟩, fired, by simp [intStep, ok]⟩

def demoState : IntState := ⟨⟨[⟨35, true⟩, ⟨37, false⟩, ⟨40, true⟩], 1⟩, 0⟩

theorem demoState_reachable : Reachable demoState :=
  reachable_of_run Reachable.init
    (show intRun IntState.init [.enable 35, .enable 37, .enable 40, .disable 37, .fire] =
      .ok (demoState, [none, none, none, none, some 35]) from rfl)

theorem interrupt_table_round_robin_demo : Reachable demoState ∧ TableFacts demoState :=
  ⟨demoState_reachable, interrupt_table_round_robin demoState demoState_reachable⟩

end P2im.Interrupt
