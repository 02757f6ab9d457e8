import Mathlib

/-!
Machine-level vocabulary shared by the models: the ways a call can end other
than by returning a value, and unsigned 64-bit arithmetic on naturals.

Unsigned quantities are naturals. An addition that the source writes with `+`
ends in `Fault.panicked` when the sum does not fit, which is the behaviour of
a build with overflow checks; sums written as saturating or checked additions
have their own definitions below.
-/

namespace Srui.Basic.Machine

/-- How a call ends when it returns no value: with an error of the source's
own type, in a panic, or never. -/
inductive Fault (ε : Type) where
  | error (e : ε)
  | panicked
  | diverges
deriving DecidableEq, Repr

abbrev Outcome (ε α : Type) := Except (Fault ε) α

/-- The source's `Err(e)`. -/
abbrev err {ε α : Type} (e : ε) : Outcome ε α := .error (.error e)

def u64Max : Nat := 18446744073709551615

def u32Max : Nat := 4294967295

/-- `u64::checked_add`, also the meaning of a plain `+` up to the panic. -/
def checkedAdd (a b : Nat) : Option Nat :=
  if a + b ≤ u64Max then some (a + b) else none

/-- `u64::saturating_add`. -/
def saturatingAdd (a b : Nat) : Nat := min (a + b) u64Max

theorem checkedAdd_eq_some {a b c : Nat} :
    checkedAdd a b = some c ↔ a + b ≤ u64Max ∧ c = a + b := by
  unfold checkedAdd
  split
  · rename_i h
    simp [h, eq_comm]
  · rename_i h
    simp [h]

theorem checkedAdd_eq_none {a b : Nat} :
    checkedAdd a b = none ↔ u64Max < a + b := by
  unfold checkedAdd
  split <;> simp <;> omega

/-- Reinterpretation of a `u64` as an `i64`. -/
def asI64 (n : Nat) : Int := if n ≤ 9223372036854775807 then n else (n : Int) - 18446744073709551616

/-- Negation of an `i64`, which maps the least value to itself. This one operation
is read as in a build without overflow checks, which would panic there: the least
value arises from a count of exactly `2 ^ 63` only. -/
def negI64 (d : Int) : Int := if d = -9223372036854775808 then d else -d

/-- Reinterpretation of an `i64` as a `u64`. -/
def asU64 (d : Int) : Nat := (if 0 ≤ d then d else d + 18446744073709551616).toNat

end Srui.Basic.Machine
