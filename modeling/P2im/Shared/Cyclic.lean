import Mathlib

set_option autoImplicit false

/-!
# Cyclic scans

A scan `for (i = 0; i < k; i++) { idx = (c + i) % n; if (p idx) break; }` over a ring of
`n` slots, and the round robin that restarts each scan one slot after the last hit. Last, a
counter of two cyclic digits, the high one moving when the low one wraps round.
-/

namespace Cyclic

def dist (n c j : Nat) : Nat := if c ≤ j then j - c else j + n - c

def firstFrom (p : Nat → Bool) (n c i : Nat) : Nat → Option Nat
  | 0 => none
  | k + 1 => if p ((c + i) % n) then some ((c + i) % n) else firstFrom p n c (i + 1) k

theorem dist_of_le {n c j : Nat} (le : c ≤ j) : dist n c j = j - c := if_pos le

theorem dist_of_lt {n c j : Nat} (lt : j < c) : dist n c j = j + n - c := if_neg (by omega)

theorem dist_lt {n c j : Nat} (hc : c < n) (hj : j < n) : dist n c j < n := by
  unfold dist; split <;> omega

theorem dist_self (n c : Nat) : dist n c c = 0 := by simp [dist]

theorem eq_of_dist_eq_zero {n c j : Nat} (hc : c < n) (zero : dist n c j = 0) :
    j = c := by
  unfold dist at zero; split at zero <;> omega

theorem mod_of_lt_add {n x : Nat} (bound : x < n + n) :
    x % n = if x < n then x else x - n := by
  split
  · exact Nat.mod_eq_of_lt ‹_›
  · rw [Nat.mod_eq_sub_mod (by omega), Nat.mod_eq_of_lt (by omega)]

theorem dist_inj {n c i j : Nat} (hc : c < n) (hi : i < n) (hj : j < n)
    (same : dist n c i = dist n c j) : i = j := by
  unfold dist at same; split at same <;> split at same <;> omega

theorem dist_add_mod {n c i : Nat} (hc : c < n) (hi : i < n) : dist n c ((c + i) % n) = i := by
  rw [mod_of_lt_add (by omega)]
  unfold dist; split <;> split <;> omega

theorem add_dist_mod {n c j : Nat} (hc : c < n) (hj : j < n) : (c + dist n c j) % n = j := by
  have bound := dist_lt hc hj
  rw [mod_of_lt_add (by omega)]
  unfold dist at bound ⊢; split <;> split <;> omega

def lastHits (n c : Nat) : Nat → Nat → Nat
  | _, 0 => 0
  | i, k + 1 => (if (c + i) % n = n - 1 then 1 else 0) + lastHits n c (i + 1) k

theorem firstFrom_some {p : Nat → Bool} {n c i k g : Nat} (found : firstFrom p n c i k = some g) :
    ∃ t, i ≤ t ∧ t < i + k ∧ g = (c + t) % n ∧ p g ∧ ∀ t', i ≤ t' → t' < t → p ((c + t') % n) = false := by
  induction k generalizing i with
  | zero => simp [firstFrom] at found
  | succ k ih =>
    simp only [firstFrom] at found
    split at found
    next hit =>
      cases found
      exact ⟨i, Nat.le_refl i, by omega, rfl, hit, fun t' low high => by omega⟩
    next miss =>
      obtain ⟨t, low, high, rfl, hit, before⟩ := ih found
      refine ⟨t, by omega, by omega, rfl, hit, fun t' low' high' => ?_⟩
      by_cases first : t' = i
      · subst first; simpa using miss
      · exact before t' (by omega) high'

theorem firstFrom_none {p : Nat → Bool} {n c i k : Nat} (missing : firstFrom p n c i k = none) :
    ∀ t, i ≤ t → t < i + k → p ((c + t) % n) = false := by
  induction k generalizing i with
  | zero => intro t low high; omega
  | succ k ih =>
    simp only [firstFrom] at missing
    split at missing
    next => cases missing
    next miss =>
      intro t low high
      by_cases first : t = i
      · subst first; simpa using miss
      · exact ih missing t (by omega) (by omega)

theorem firstFrom_nearest {p : Nat → Bool} {n c g : Nat} (hc : c < n)
    (found : firstFrom p n c 0 n = some g) :
    g < n ∧ p g ∧ ∀ j, j < n → p j → dist n c g ≤ dist n c j := by
  obtain ⟨t, -, high, rfl, hit, before⟩ := firstFrom_some found
  refine ⟨Nat.mod_lt _ (by omega), hit, fun j hj pj => ?_⟩
  rw [dist_add_mod hc (by omega)]
  by_contra closer
  have miss := before (dist n c j) (Nat.zero_le _) (by omega)
  rw [add_dist_mod hc hj] at miss
  simp [pj] at miss

theorem firstFrom_none_all {p : Nat → Bool} {n c : Nat} (hc : c < n)
    (missing : firstFrom p n c 0 n = none) : ∀ j, j < n → p j = false := by
  intro j hj
  have miss := firstFrom_none missing (dist n c j) (Nat.zero_le _) (by simpa using dist_lt hc hj)
  rwa [add_dist_mod hc hj] at miss

theorem mod_eq_last_iff {n c t : Nat} (hc : c < n) (ht : t < n) :
    (c + t) % n = n - 1 ↔ t = dist n c (n - 1) := by
  constructor
  · intro last
    rw [← last, dist_add_mod hc ht]
  · rintro rfl
    exact add_dist_mod hc (by omega)

theorem lastHits_eq {n c : Nat} (hc : c < n) (i k : Nat) (bound : i + k ≤ n) :
    lastHits n c i k = if i ≤ dist n c (n - 1) ∧ dist n c (n - 1) < i + k then 1 else 0 := by
  induction k generalizing i with
  | zero => simp only [lastHits]; split <;> omega
  | succ k ih =>
    rw [lastHits, ih (i + 1) (by omega)]
    by_cases here : i = dist n c (n - 1)
    · rw [if_pos ((mod_eq_last_iff hc (by omega)).mpr here)]
      split <;> split <;> omega
    · rw [if_neg (fun last => here ((mod_eq_last_iff hc (by omega)).mp last))]
      split <;> split <;> omega

section RoundRobin

variable (p : Nat → Bool) (n e : Nat)

def next (f : Nat) : Option Nat := firstFrom p n ((f + 1) % n) 0 n

def Visits : Nat → List Nat → Prop
  | f, [] => next p n f = some e
  | f, g :: gs => next p n f = some g ∧ g ≠ e ∧ Visits g gs

variable {p n e}

theorem dist_after {f j : Nat} (he : e < n) (hf : f < n) (hj : j < n) :
    dist n ((f + 1) % n) j =
      if dist n e f < dist n e j then dist n e j - dist n e f - 1
      else dist n e j + n - dist n e f - 1 := by
  rw [mod_of_lt_add (by omega)]
  unfold dist; split_ifs <;> omega

theorem next_step {f g : Nat} (he : e < n) (pe : p e = true) (hf : f < n)
    (served : next p n f = some g) :
    g < n ∧ p g ∧
      (g ≠ e → dist n e f < dist n e g ∧
        ∀ j, j < n → p j → dist n e f < dist n e j → dist n e g ≤ dist n e j) ∧
      (g = e → ∀ j, j < n → p j → dist n e j ≤ dist n e f) := by
  have cursor : (f + 1) % n < n := Nat.mod_lt _ (by omega)
  obtain ⟨hg, pg, nearest⟩ := firstFrom_nearest cursor served
  have toE := nearest e he pe
  have boundF := dist_lt he hf
  rw [dist_after he hf hg, dist_after he hf he, dist_self] at toE
  refine ⟨hg, pg, fun other => ?_, fun back j hj pj => ?_⟩
  · have past : dist n e f < dist n e g := by
      by_contra before
      have zero : dist n e g = 0 := by
        simp only [before, if_false, show ¬ dist n e f < 0 by omega] at toE; omega
      exact other (eq_of_dist_eq_zero he zero)
    refine ⟨past, fun j hj pj later => ?_⟩
    have toJ := nearest j hj pj
    rw [dist_after he hf hg, dist_after he hf hj] at toJ
    simp only [past, later, if_true] at toJ
    omega
  · by_contra later
    have toJ := nearest j hj pj
    have bound := dist_lt he hj
    rw [back, dist_after he hf he, dist_after he hf hj, dist_self] at toJ
    have past : dist n e f < dist n e j := by omega
    simp only [past, if_true, show ¬ dist n e f < 0 by omega, if_false] at toJ
    omega

theorem visits_exact {f : Nat} {fs : List Nat} (he : e < n) (pe : p e = true) (hf : f < n)
    (visits : Visits p n e f fs) :
    (∀ j, j ∈ fs ↔ j < n ∧ p j = true ∧ dist n e f < dist n e j) ∧ fs.Nodup := by
  induction fs generalizing f with
  | nil =>
    obtain ⟨-, -, -, back⟩ := next_step he pe hf visits
    refine ⟨fun j => ?_, List.nodup_nil⟩
    simp only [List.not_mem_nil, false_iff, not_and]
    intro hj pj
    have := back rfl j hj pj
    omega
  | cons g gs ih =>
    obtain ⟨served, other, rest⟩ := visits
    obtain ⟨hg, pg, forward, -⟩ := next_step he pe hf served
    obtain ⟨past, nearest⟩ := forward other
    obtain ⟨members, distinct⟩ := ih hg rest
    refine ⟨fun j => ?_, List.nodup_cons.mpr ⟨fun mem => ?_, distinct⟩⟩
    · rw [List.mem_cons, members]
      constructor
      · rintro (rfl | ⟨hj, pj, later⟩)
        · exact ⟨hg, pg, past⟩
        · exact ⟨hj, pj, by omega⟩
      · rintro ⟨hj, pj, later⟩
        have := nearest j hj pj later
        by_cases same : dist n e g = dist n e j
        · exact Or.inl (dist_inj he hj hg same.symm)
        · exact Or.inr ⟨hj, pj, by omega⟩
    · have := (members g).mp mem
      omega

end RoundRobin

/-! ## Counters of two digits -/

section Counter

variable {n m : Nat}

theorem digits_succ (hn : 0 < n) (u : Nat) :
    (u + 1) % n = (u % n + 1) % n ∧
      (u + 1) / n % m = if (u % n + 1) % n = 0 then (u / n % m + 1) % m else u / n % m := by
  have split := Nat.div_add_mod u n
  have low := Nat.mod_lt u hn
  refine ⟨(Nat.mod_add_mod u n 1).symm, ?_⟩
  by_cases wrap : u % n + 1 = n
  · -- the low digit wraps: the high one counts one more
    have up : (u + 1) / n = u / n + 1 := by
      rw [show u + 1 = n * (u / n + 1) by rw [Nat.mul_add]; omega, Nat.mul_div_cancel_left _ hn]
    rw [if_pos (by rw [wrap, Nat.mod_self]), up, Nat.mod_add_mod]
  · have same : (u + 1) / n = u / n := by
      rw [show u + 1 = u % n + 1 + n * (u / n) by omega, Nat.add_mul_div_left _ _ hn,
        Nat.div_eq_of_lt (by omega), Nat.zero_add]
    rw [if_neg (by rw [Nat.mod_eq_of_lt (by omega)]; omega), same]

theorem digits_iff_mod (hn : 0 < n) {u j k : Nat} (hj : j < n) :
    u % n = j ∧ u / n % m = k ↔ u % (n * m) = j + n * k := by
  rw [Nat.mod_mul]
  constructor
  · rintro ⟨rfl, rfl⟩
    rfl
  · intro same
    have low : u % n = j := by
      have := congrArg (· % n) same
      simpa [Nat.add_mul_mod_self_left, Nat.mod_eq_of_lt hj] using this
    refine ⟨low, ?_⟩
    rw [low] at same
    exact Nat.eq_of_mul_eq_mul_left hn (Nat.add_left_cancel same)

theorem eq_of_mod_eq_of_lt {N u v : Nat} (same : u % N = v % N) (le : u ≤ v) (close : v < u + N) :
    u = v := by
  have zero := Nat.sub_mod_eq_zero_of_mod_eq same.symm
  have := Nat.eq_zero_of_dvd_of_lt (Nat.dvd_of_mod_eq_zero zero) (by omega)
  omega

theorem digits_window (hn : 0 < n) (hm : 0 < m) (s : Nat) {j k : Nat} (hj : j < n) (hk : k < m) :
    ∃! u, s ≤ u ∧ u < s + n * m ∧ u % n = j ∧ u / n % m = k := by
  have hN : 0 < n * m := Nat.mul_pos hn hm
  have hr : j + n * k < n * m := by
    calc j + n * k < n + n * k := by omega
      _ = n * (k + 1) := by rw [Nat.mul_add, Nat.mul_one, Nat.add_comm]
      _ ≤ n * m := Nat.mul_le_mul_left n hk
  -- the step of the window whose counter is `j + n * k` modulo `n * m`
  let d := (j + n * k + (n * m - s % (n * m))) % (n * m)
  have hd : d < n * m := Nat.mod_lt _ hN
  have hits : (s + d) % (n * m) = j + n * k := by
    have below := Nat.mod_lt s hN
    have split := Nat.div_add_mod s (n * m)
    rw [Nat.add_mod_mod, show s + (j + n * k + (n * m - s % (n * m))) =
        j + n * k + n * m * (s / (n * m) + 1) by rw [Nat.mul_add]; omega,
      Nat.add_mul_mod_self_left, Nat.mod_eq_of_lt hr]
  refine ⟨s + d, ⟨by omega, by omega, (digits_iff_mod hn hj).mpr hits⟩, ?_⟩
  rintro v ⟨low, high, digits⟩
  have at_v := (digits_iff_mod hn hj).mp digits
  rcases Nat.le_total v (s + d) with le | le
  · exact eq_of_mod_eq_of_lt (at_v.trans hits.symm) le (by omega)
  · exact (eq_of_mod_eq_of_lt (hits.trans at_v.symm) le (by omega)).symm

end Counter

end Cyclic
