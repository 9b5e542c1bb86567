import Mathlib

set_option autoImplicit false

/-!
# Outcomes that carry a state

A computation in `Except ε α` whose errors may carry the state they stopped in, as a process
that exits after its state was dumped. `Ends stateOf R s st x` says that every state `x` ends in,
`st` of its result or the state its error carries, is `R`-related to the state `s` it started
from. For a reflexive and transitive `R` the rules below carry it through `pure`, `bind` and
`mapError`, so that a property of a long handler follows from the same property of its pieces.
-/

namespace Outcome

variable {σ ε : Type} (stateOf : ε → Option σ) (R : σ → σ → Prop)

def Ends (s : σ) {α : Type} (st : α → σ) : Except ε α → Prop
  | .ok a => R s (st a)
  | .error e => ∀ s' ∈ stateOf e, R s s'

variable {stateOf R}

@[simp] theorem ends_ok {s : σ} {α : Type} {st : α → σ} {a : α} :
    Ends stateOf R s st (.ok a) ↔ R s (st a) := Iff.rfl

@[simp] theorem ends_pure {s : σ} {α : Type} {st : α → σ} {a : α} :
    Ends stateOf R s st (pure a) ↔ R s (st a) := Iff.rfl

@[simp] theorem ends_error {s : σ} {α : Type} {st : α → σ} {e : ε} :
    Ends stateOf R s st (.error e) ↔ ∀ s' ∈ stateOf e, R s s' := Iff.rfl

theorem ends_bind (trans : ∀ a b c, R a b → R b c → R a c) {s : σ} {α β : Type}
    {st₁ : α → σ} {st₂ : β → σ} {x : Except ε α} {f : α → Except ε β}
    (first : Ends stateOf R s st₁ x) (rest : ∀ a, x = .ok a → Ends stateOf R (st₁ a) st₂ (f a)) :
    Ends stateOf R s st₂ (x >>= f) := by
  cases x with
  | error e => exact first
  | ok a =>
    have next := rest a rfl
    show Ends stateOf R s st₂ (f a)
    cases result : f a with
    | ok b =>
      rw [result] at next
      exact trans _ _ _ first next
    | error e =>
      rw [result] at next
      intro s' carried
      exact trans _ _ _ first (next s' carried)

theorem ends_mapError (refl : ∀ a, R a a) {s : σ} {α η : Type} {st : α → σ} {x : Except η α}
    {g : η → ε} (same : ∀ a, x = .ok a → st a = s) (stops : ∀ h, ∀ s' ∈ stateOf (g h), R s s') :
    Ends stateOf R s st (x.mapError g) := by
  cases x with
  | ok a =>
    show R s (st a)
    rw [same a rfl]
    exact refl s
  | error h => exact stops h

theorem ends_of_step (trans : ∀ a b c, R a b → R b c → R a c) {s s₁ : σ} {α : Type} {st : α → σ}
    {x : Except ε α} (step : R s s₁) (ends : Ends stateOf R s₁ st x) : Ends stateOf R s st x := by
  cases x with
  | ok a => exact trans _ _ _ step ends
  | error e => exact fun s' carried => trans _ _ _ step (ends s' carried)

end Outcome
