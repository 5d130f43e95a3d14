import Mathlib.Algebra.Field.Basic
import Mathlib.Algebra.Group.Hom.Defs
import Mathlib.Algebra.Group.Hom.Basic
import Mathlib.Logic.Function.Iterate

/-!
# Fields presented by a discrete logarithm

An additive group becomes a field once one additive map, iterated at one point, runs through all
its nonzero elements: the iterates are the powers of a generator, and the product of two elements
is read off from the sum of their logarithms. This is how small finite fields are tabulated.

* `OrbitData` is such a presentation: the map `step`, the point `one`, the `period` of the orbit
  and a logarithm.
* `mul` and `inv` are the tabulated operations (look up two logarithms, add, look up a power).
* `field` is the field they form. Distributivity is where the additivity of `step` enters
  (`mul_eq_iterate`: multiplying by a nonzero element is an iterate of `step`).
-/

namespace LvlIp.Foundations

/-- An additive map whose iterates at `one` run through the nonzero elements of `G`, together with
a logarithm. -/
structure OrbitData (G : Type*) [AddCommGroup G] where
  step : G →+ G
  one : G
  period : ℕ
  log : G → ℕ
  iterate_period : step^[period] one = one
  iterate_ne_zero : ∀ i, step^[i] one ≠ 0
  log_le : ∀ a, log a ≤ period
  iterate_log : ∀ a, a ≠ 0 → step^[log a] one = a

namespace OrbitData

variable {G : Type*} [AddCommGroup G] (O : OrbitData G)

/-- The powers of the generator. -/
def exp (i : ℕ) : G := O.step^[i] O.one

theorem exp_zero : O.exp 0 = O.one := rfl

theorem exp_ne_zero (i : ℕ) : O.exp i ≠ 0 := O.iterate_ne_zero i

theorem exp_log {a : G} (ha : a ≠ 0) : O.exp (O.log a) = a := O.iterate_log a ha

theorem exp_add (i j : ℕ) : O.exp (i + j) = O.step^[i] (O.exp j) :=
  Function.iterate_add_apply ..

theorem exp_add_period (i : ℕ) : O.exp (i + O.period) = O.exp i := by
  rw [exp_add]
  exact congrArg _ O.iterate_period

theorem iterate_map_add (n : ℕ) (a b : G) :
    O.step^[n] (a + b) = O.step^[n] a + O.step^[n] b := by
  induction n generalizing a b with
  | zero => rfl
  | succ n ih => simp only [Function.iterate_succ_apply, map_add, ih]

theorem iterate_map_zero (n : ℕ) : O.step^[n] 0 = 0 :=
  Function.iterate_fixed (map_zero O.step) n

variable [DecidableEq G]

/-- The tabulated product. -/
def mul (a b : G) : G := if a = 0 ∨ b = 0 then 0 else O.exp (O.log a + O.log b)

/-- The tabulated inverse. -/
def inv (a : G) : G := if a = 0 then 0 else O.exp (O.period - O.log a)

theorem zero_mul (a : G) : O.mul 0 a = 0 := if_pos (.inl rfl)

theorem mul_zero (a : G) : O.mul a 0 = 0 := if_pos (.inr rfl)

theorem mul_comm (a b : G) : O.mul a b = O.mul b a := by
  simp only [mul, or_comm, Nat.add_comm]

/-- **Multiplying by a nonzero element is an iterate of the step**, hence additive. -/
theorem mul_eq_iterate {a : G} (ha : a ≠ 0) (b : G) : O.mul a b = O.step^[O.log a] b := by
  by_cases hb : b = 0
  · rw [hb, mul_zero, iterate_map_zero]
  · rw [mul, if_neg (by simp [ha, hb]), exp_add, O.exp_log hb]

theorem mul_exp (i j : ℕ) : O.mul (O.exp i) (O.exp j) = O.exp (i + j) := by
  rw [mul_eq_iterate O (O.exp_ne_zero i), ← exp_add, Nat.add_comm, exp_add,
    O.exp_log (O.exp_ne_zero i), ← exp_add, Nat.add_comm]

theorem mul_assoc (a b c : G) : O.mul (O.mul a b) c = O.mul a (O.mul b c) := by
  by_cases ha : a = 0
  · simp only [ha, zero_mul]
  by_cases hb : b = 0
  · simp only [hb, zero_mul, mul_zero]
  by_cases hc : c = 0
  · simp only [hc, mul_zero]
  rw [← O.exp_log ha, ← O.exp_log hb, ← O.exp_log hc]
  simp only [mul_exp, Nat.add_assoc]

theorem one_mul (a : G) : O.mul O.one a = a := by
  by_cases ha : a = 0
  · rw [ha, mul_zero]
  · rw [← O.exp_log ha, ← O.exp_zero, mul_exp, Nat.zero_add]

theorem left_distrib (a b c : G) : O.mul a (b + c) = O.mul a b + O.mul a c := by
  by_cases ha : a = 0
  · simp only [ha, zero_mul, add_zero]
  · simp only [O.mul_eq_iterate ha, iterate_map_add]

theorem mul_inv_cancel {a : G} (ha : a ≠ 0) : O.mul a (O.inv a) = O.one := by
  calc O.mul a (O.inv a) = O.mul (O.exp (O.log a)) (O.exp (O.period - O.log a)) := by
        rw [O.exp_log ha, inv, if_neg ha]
    _ = O.exp (0 + O.period) := by
        rw [mul_exp, Nat.add_sub_cancel' (O.log_le a), Nat.zero_add]
    _ = O.one := O.exp_add_period 0

/-- **The field of a discrete logarithm**: the additive group with the tabulated operations. -/
@[reducible]
def field : Field G :=
  { (inferInstance : AddCommGroup G) with
    mul := O.mul
    one := O.one
    inv := O.inv
    mul_assoc := O.mul_assoc
    one_mul := O.one_mul
    mul_one := fun a => (O.mul_comm a O.one).trans (O.one_mul a)
    zero_mul := O.zero_mul
    mul_zero := O.mul_zero
    left_distrib := O.left_distrib
    right_distrib := fun a b c => by
      change O.mul (a + b) c = O.mul a c + O.mul b c
      rw [O.mul_comm (a + b), O.left_distrib, O.mul_comm c a, O.mul_comm c b]
    mul_comm := O.mul_comm
    exists_pair_ne := ⟨0, O.one, (O.exp_ne_zero 0).symm⟩
    mul_inv_cancel := fun _ ha => O.mul_inv_cancel ha
    inv_zero := if_pos rfl
    nnqsmul := _
    nnqsmul_def := fun _ _ => rfl
    qsmul := _
    qsmul_def := fun _ _ => rfl }

end OrbitData

end LvlIp.Foundations
