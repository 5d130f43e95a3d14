import Mathlib.LinearAlgebra.Lagrange
import Mathlib.Data.List.GetD

/-!
# Polynomials as coefficient lists

The array algorithms on polynomials, over an arbitrary commutative ring, with the polynomial each
of them computes. A list holds the coefficients from the constant term up (`ofCoeffs`).

* `horner` evaluates (`horner_eq_eval`).
* `mulRoot` multiplies by a monic linear factor in one pass over the list
  (`ofCoeffs_mulRoot`), and `divRoot` divides by one, by synthetic division
  (`ofCoeffs_cons_eq_divRoot`); on a multiple of the factor the quotient is exact
  (`mul_ofCoeffs_divRoot`).
* Over a field, the quotients of the nodal polynomial by its factors, scaled by the barycentric
  weights and combined with the values, are the coefficients of the Lagrange interpolant
  (`ofCoeffs_interpolate`).
-/

namespace LvlIp.Foundations

open Polynomial Finset

section Ring

variable {R : Type*} [CommRing R]

/-- The polynomial with a given list of coefficients, constant term first. -/
noncomputable def ofCoeffs : List R → R[X]
  | [] => 0
  | c :: cs => C c + X * ofCoeffs cs

@[simp] theorem ofCoeffs_nil : ofCoeffs ([] : List R) = 0 := rfl

@[simp] theorem ofCoeffs_cons (c : R) (cs : List R) :
    ofCoeffs (c :: cs) = C c + X * ofCoeffs cs := rfl

theorem coeff_ofCoeffs (cs : List R) (i : ℕ) : (ofCoeffs cs).coeff i = cs.getD i 0 := by
  induction cs generalizing i with
  | nil => simp
  | cons c cs ih => cases i <;> simp [ih, coeff_C]

theorem ofCoeffs_eq_sum (cs : List R) :
    ofCoeffs cs = ∑ p ∈ range cs.length, C (cs.getD p 0) * X ^ p := by
  induction cs with
  | nil => simp
  | cons c cs ih =>
    simp only [ofCoeffs_cons, List.length_cons, sum_range_succ', List.getD_cons_succ,
      List.getD_cons_zero, pow_zero, mul_one, pow_succ', ih, mul_sum]
    rw [add_comm]
    exact congrArg (· + C c) (sum_congr rfl fun p _ => by ring)

theorem degree_ofCoeffs_lt (cs : List R) : (ofCoeffs cs).degree < cs.length := by
  rw [degree_lt_iff_coeff_zero]
  intro m hm
  rw [coeff_ofCoeffs, List.getD_eq_default _ _ hm]

/-- Horner's rule. -/
def horner (x : R) : List R → R
  | [] => 0
  | c :: cs => horner x cs * x + c

theorem horner_eq_eval (x : R) (cs : List R) : horner x cs = (ofCoeffs cs).eval x := by
  induction cs with
  | nil => simp [horner]
  | cons c cs ih =>
    simp only [horner, ofCoeffs_cons, eval_add, eval_C, eval_mul, eval_X, ih]
    ring

/-- One pass of multiplication by `X + x`, `carry` being the coefficient below the list. -/
def mulRoot (x carry : R) : List R → List R
  | [] => [carry]
  | c :: cs => (carry + c * x) :: mulRoot x c cs

@[simp] theorem length_mulRoot (x carry : R) (cs : List R) :
    (mulRoot x carry cs).length = cs.length + 1 := by
  induction cs generalizing carry with
  | nil => rfl
  | cons c cs ih => simp [mulRoot, ih]

theorem ofCoeffs_mulRoot (x carry : R) (cs : List R) :
    ofCoeffs (mulRoot x carry cs) = C carry + (X + C x) * ofCoeffs cs := by
  induction cs generalizing carry with
  | nil => simp [mulRoot]
  | cons c cs ih =>
    simp only [mulRoot, ofCoeffs_cons, ih, map_add, map_mul]
    ring

theorem ofCoeffs_foldl_mulRoot (xs cs : List R) :
    ofCoeffs (xs.foldl (fun cs x => mulRoot x 0 cs) cs) =
      (xs.map fun x => X + C x).prod * ofCoeffs cs := by
  induction xs generalizing cs with
  | nil => simp
  | cons x xs ih =>
    simp only [List.foldl_cons, ih, ofCoeffs_mulRoot, List.map_cons, List.prod_cons, map_zero]
    ring

theorem length_foldl_mulRoot (xs cs : List R) :
    (xs.foldl (fun cs x => mulRoot x 0 cs) cs).length = cs.length + xs.length := by
  induction xs generalizing cs with
  | nil => rfl
  | cons x xs ih =>
    simp only [List.foldl_cons, ih, length_mulRoot, List.length_cons]
    omega

/-- Synthetic division by `X - x`: the quotient of a list with `cs` above its constant term. -/
def divRoot (x : R) : List R → List R
  | [] => []
  | c :: cs => (c + (divRoot x cs).headD 0 * x) :: divRoot x cs

@[simp] theorem length_divRoot (x : R) (cs : List R) : (divRoot x cs).length = cs.length := by
  induction cs with
  | nil => rfl
  | cons c cs ih => simp [divRoot, ih]

theorem ofCoeffs_cons_eq_divRoot (x c : R) (cs : List R) :
    ofCoeffs (c :: cs) =
      (X - C x) * ofCoeffs (divRoot x cs) + C (c + (divRoot x cs).headD 0 * x) := by
  induction cs generalizing c with
  | nil => simp [divRoot]
  | cons d ds ih =>
    rw [ofCoeffs_cons, ih d]
    simp only [divRoot, ofCoeffs_cons, List.headD_cons, map_add, map_mul]
    ring

/-- **Synthetic division is exact on a multiple of the factor.** -/
theorem mul_ofCoeffs_divRoot (x c : R) (cs : List R) (h : (ofCoeffs (c :: cs)).eval x = 0) :
    (X - C x) * ofCoeffs (divRoot x cs) = ofCoeffs (c :: cs) := by
  have hr := ofCoeffs_cons_eq_divRoot x c cs
  have h0 : c + (divRoot x cs).headD 0 * x = 0 := by
    rw [hr] at h
    simpa using h
  rw [hr, h0, map_zero, add_zero]

end Ring

section Field

variable {F : Type*} [Field F]

/-- **Barycentric interpolation on coefficient lists.** If `q i` is the nodal polynomial of the
points `v` divided by its `i`-th factor, and `w i` the product of the differences at `v i`, then
the combination of the `q i` with the values `r`, scaled by the `w i`, interpolates `r`. -/
theorem ofCoeffs_interpolate (n : ℕ) (v r w : ℕ → F) (q : ℕ → List F)
    (hq : ∀ i < n, (X - C (v i)) * ofCoeffs (q i) = Lagrange.nodal (range n) v)
    (hlen : ∀ i < n, (q i).length = n)
    (hw : ∀ i < n, w i = ∏ j ∈ (range n).erase i, (v i - v j)) :
    ofCoeffs ((List.range n).map fun p => ∑ i ∈ range n, (q i).getD p 0 * (w i)⁻¹ * r i) =
      Lagrange.interpolate (range n) v r := by
  have hbasis : ∀ i ∈ range n,
      Lagrange.basis (range n) v i = C (w i)⁻¹ * ofCoeffs (q i) := by
    intro i hi
    rw [Lagrange.basis_eq_prod_sub_inv_mul_nodal_div hi, Lagrange.nodalWeight,
      hw i (mem_range.mp hi), ← hq i (mem_range.mp hi), prod_inv_distrib,
      mul_div_cancel_left₀ _ (X_sub_C_ne_zero (v i))]
  rw [Lagrange.interpolate_apply, ofCoeffs_eq_sum, List.length_map, List.length_range]
  have hcoef : ∀ p ∈ range n, C (((List.range n).map fun p =>
      ∑ i ∈ range n, (q i).getD p 0 * (w i)⁻¹ * r i).getD p 0) * X ^ p =
      ∑ i ∈ range n, C (r i) * (C (w i)⁻¹ * (C ((q i).getD p 0) * X ^ p)) := by
    intro p hp
    rw [List.getD_eq_getElem _ _ (by simpa using hp), List.getElem_map, List.getElem_range,
      map_sum, sum_mul]
    refine sum_congr rfl fun i _ => ?_
    simp only [map_mul]
    ring
  rw [sum_congr rfl hcoef, sum_comm]
  refine sum_congr rfl fun i hi => ?_
  rw [hbasis i hi, ofCoeffs_eq_sum, hlen i (mem_range.mp hi), mul_sum, mul_sum]

end Field

end LvlIp.Foundations
