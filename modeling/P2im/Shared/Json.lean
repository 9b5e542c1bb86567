import Mathlib

set_option autoImplicit false

/-!
# JSON documents

A JSON value as a loaded document holds it. An object keeps its members in the order of the
text; the members of a loaded object have distinct names. Python's `json` iterates them in that
order. The C side reads documents through jansson, of which the repository has only the built
library: what the loader takes from it is the parameter `Jansson`, and `Jansson.Documented` is
what the manual says of it.
-/

inductive Json where
  | null
  | bool (b : Bool)
  | int (n : Int)
  | real (mantissa exponent : Int)
  | str (s : String)
  | arr (items : List Json)
  | obj (members : List (String × Json))
deriving Repr

namespace Json

def isObject : Json → Bool
  | .obj _ => true
  | _ => false

def isArray : Json → Bool
  | .arr _ => true
  | _ => false

def items : Json → List Json
  | .arr items => items
  | _ => []

def members : Json → List (String × Json)
  | .obj members => members
  | _ => []

def member? (key : String) : Json → Option Json
  | .obj members => members.lookup key
  | _ => none

def int? : Json → Option Int
  | .int n => some n
  | _ => none

/-- `s:i`: the integer member `key` of an object. -/
def intMember? (key : String) (j : Json) : Option Int := (j.member? key).bind int?

/-- `s?:i` after a member that made sure the value is an object: `some none` when the member is
missing, `none` when it is there and not an integer. -/
def optIntMember? (key : String) (j : Json) : Option (Option Int) :=
  match j.member? key with
  | none => some none
  | some v => v.int?.map some

/-- Setting member `key` of an object: a member of that name takes the value in its place, and a
new name goes last. -/
def setMember (key : String) (v : Json) : List (String × Json) → List (String × Json)
  | [] => [(key, v)]
  | (k, w) :: rest => if k = key then (k, v) :: rest else (k, w) :: setMember key v rest

@[simp] theorem member?_obj (key : String) (members : List (String × Json)) :
    (Json.obj members).member? key = members.lookup key := rfl

@[simp] theorem intMember?_eq_some {key : String} {j : Json} {n : Int} :
    j.intMember? key = some n ↔ j.member? key = some (.int n) := by
  unfold intMember?
  cases j.member? key with
  | none => simp
  | some v => cases v <;> simp [int?]

theorem lookup_setMember_self (key : String) (v : Json) (members : List (String × Json)) :
    (setMember key v members).lookup key = some v := by
  induction members with
  | nil => simp [setMember]
  | cons member rest ih =>
    obtain ⟨k, w⟩ := member
    by_cases same : k = key
    · simp [setMember, same]
    · have other : (key == k) = false := beq_false_of_ne (Ne.symm same)
      simp [setMember, same, List.lookup, other, ih]

theorem lookup_setMember_of_ne {key key' : String} (v : Json) (members : List (String × Json))
    (other : key ≠ key') : (setMember key v members).lookup key' = members.lookup key' := by
  induction members with
  | nil =>
    have : (key' == key) = false := beq_false_of_ne (Ne.symm other)
    simp [setMember, List.lookup, this]
  | cons member rest ih =>
    obtain ⟨k, w⟩ := member
    by_cases same : k = key
    · subst same
      have : (key' == k) = false := beq_false_of_ne (Ne.symm other)
      simp [setMember, List.lookup, this]
    · by_cases found : key' = k
      · subst found
        simp [setMember, same, List.lookup]
      · have : (key' == k) = false := beq_false_of_ne found
        simp [setMember, same, List.lookup, this, ih]

theorem setMember_of_not_mem {key : String} (v : Json) {members : List (String × Json)}
    (fresh : key ∉ members.map Prod.fst) : setMember key v members = members ++ [(key, v)] := by
  induction members with
  | nil => rfl
  | cons member rest ih =>
    obtain ⟨k, w⟩ := member
    have other : k ≠ key := fun same => fresh (by simp [same])
    simp only [setMember, if_neg other, List.cons_append, ih (fun mem => fresh (by simp [mem]))]

theorem mem_setMember (key : String) (v : Json) (members : List (String × Json)) :
    (key, v) ∈ setMember key v members := by
  induction members with
  | nil => simp [setMember]
  | cons member rest ih =>
    obtain ⟨k, w⟩ := member
    by_cases same : k = key
    · simp [setMember, same]
    · simp [setMember, same, ih]

end Json

/-- jansson 2.11, of which only the built library is in the repository: the integer the format
`i` of `json_unpack` takes from a value, and the members `json_object_foreach` visits, in its
order. -/
structure Jansson where
  unpackInt : Json → Option Int
  objectForeach : Json → List (String × Json)

namespace Jansson

variable (lib : Jansson)

/-- `s:i` -/
def intMember? (key : String) (j : Json) : Option Int := (j.member? key).bind lib.unpackInt

/-- `s?:i`: `some none` when the member is missing, `none` when it is there and `i` rejects it. -/
def optIntMember? (key : String) (j : Json) : Option (Option Int) :=
  match j.member? key with
  | none => some none
  | some v => (lib.unpackInt v).map some

def intAt? (i : Nat) : Json → Option Int
  | .arr items => items[i]?.bind lib.unpackInt
  | _ => none

/-- What the manual documents: `i` takes a JSON integer and fails on every other value, and an
object is iterated in insertion order (since 2.8), for a decoded object the order of its text.
Iterating a value that is not an object is left open, since the loader checks the type first. -/
structure Documented : Prop where
  unpackInt_int : ∀ n, lib.unpackInt (.int n) = some n
  unpackInt_not_int : ∀ j, j.int? = none → lib.unpackInt j = none
  objectForeach_obj : ∀ members, lib.objectForeach (.obj members) = members

def manual : Jansson := ⟨Json.int?, Json.members⟩

theorem manual_documented : manual.Documented :=
  ⟨fun _ => rfl, fun _ rejected => rejected, fun _ => rfl⟩

variable {lib} (doc : lib.Documented)
include doc

theorem Documented.unpackInt_eq : lib.unpackInt = Json.int? := by
  funext j
  cases j with
  | int n => exact doc.unpackInt_int n
  | _ => exact doc.unpackInt_not_int _ rfl

theorem Documented.intMember?_eq (key : String) (j : Json) : lib.intMember? key j = j.intMember? key := by
  simp [intMember?, Json.intMember?, doc.unpackInt_eq]

theorem Documented.optIntMember?_eq (key : String) (j : Json) :
    lib.optIntMember? key j = j.optIntMember? key := by
  simp [optIntMember?, Json.optIntMember?, doc.unpackInt_eq]

theorem Documented.objectForeach_of_isObject {j : Json} (obj : j.isObject = true) :
    lib.objectForeach j = j.members := by
  cases j with
  | obj members => exact doc.objectForeach_obj members
  | _ => cases obj

end Jansson
