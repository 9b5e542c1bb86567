import Mathlib

set_option autoImplicit false

/-!
# Halting C processes

A C function either returns, or its process stops: it calls `exit(status)`, or it does
something whose behaviour C leaves undefined (an access out of an array's bounds, a
division by zero), after which nothing about it is promised. Functions that can stop
return `Except Halt α`.
-/

inductive Halt where
  | exit (status : Int)
  | undefined
deriving DecidableEq, Repr

namespace Except

variable {ε α β : Type}

@[simp] theorem pure_eq_ok (a : α) : (pure a : Except ε α) = .ok a := rfl

@[simp] theorem ok_bind (a : α) (f : α → Except ε β) : (Except.ok a >>= f) = f a := rfl

@[simp] theorem error_bind (e : ε) (f : α → Except ε β) : (Except.error e >>= f) = .error e := rfl

@[simp] theorem mapError_ok {η : Type} (a : α) (g : ε → η) :
    (Except.ok a : Except ε α).mapError g = .ok a := rfl

@[simp] theorem mapError_error {η : Type} (e : ε) (g : ε → η) :
    (Except.error e : Except ε α).mapError g = .error (g e) := rfl

@[simp] theorem mapError_eq_ok {η : Type} {x : Except ε α} {g : ε → η} {a : α} :
    x.mapError g = .ok a ↔ x = .ok a := by
  cases x <;> simp

theorem bind_eq_ok {x : Except ε α} {f : α → Except ε β} {b : β} :
    (x >>= f) = .ok b ↔ ∃ a, x = .ok a ∧ f a = .ok b := by
  cases x with
  | error e => simp
  | ok a => simp

end Except
