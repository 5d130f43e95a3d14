import LvlIp.Fec.Gf256
import LvlIp.Foundations.CoeffList

/-!
# Evaluation and interpolation of packets

`fec_poly_encode_redundant` and `fec_poly_interpolate_coefficients` of `src/fec.c`. A family of
packets of one length is, at each byte offset, the coefficient list of a polynomial over `Gf256`
(`lane`); the first function evaluates all these polynomials at one point, the second finds them
from their values at distinct points.

The arrays of the source are lists. The in-place loop over `omega` runs downwards, so each entry is
computed from old entries only, which is how `omegaShift` reads the list.

* `fecPolyEncodeRedundant_eq`: the lanes of the output are the values of the lane polynomials.
* `fecPolyInterpolateCoefficients_isSome_iff`: interpolation fails exactly on a bad point count or
  a repeated point; the weight test never fires.
* `bytePoly_lane_fecPolyInterpolateCoefficients`: the lanes of the output are the Lagrange interpolants of
  the lanes of the input.
-/

namespace LvlIp.Fec

open Foundations Polynomial

/-- The bytes of one packet. -/
abbrev Packet := List UInt8

/-- The byte of each packet at offset `off`. -/
def lane (ps : List Packet) (off : ℕ) : List UInt8 := ps.map fun p => p.getD off 0

/-- The polynomial of a coefficient list of bytes. -/
noncomputable def bytePoly (cs : List UInt8) : Gf256[X] := ofCoeffs (cs.map toGf)

/-! ## Evaluation -/

/-- The Horner loop of `fec_poly_encode_redundant` at one offset. -/
def hornerByte (ctx : FecRsCtx) (x : UInt8) : List UInt8 → UInt8
  | [] => 0
  | [a] => a
  | a :: as => gf256Add (gf256Mul ctx (hornerByte ctx x as) x) a

/-- `fec_poly_encode_redundant`: the value at `x`, with the source packets as coefficients. -/
def fecPolyEncodeRedundant (ctx : FecRsCtx) (src : List Packet) (packetLen : ℕ) (x : UInt8) :
    Option Packet :=
  if src.length = 0 ∨ 255 < src.length then none
  else some ((List.range packetLen).map fun off => hornerByte ctx x (lane src off))

theorem toGf_hornerByte (x : UInt8) (cs : List UInt8) :
    toGf (hornerByte fecRsInit x cs) = (bytePoly cs).eval (toGf x) := by
  rw [bytePoly, ← horner_eq_eval]
  induction cs with
  | nil => rfl
  | cons a as ih =>
    cases as with
    | nil => simp [hornerByte, horner]
    | cons b bs =>
      rw [hornerByte, toGf_gf256Add, toGf_gf256Mul, ih]
      · rfl
      · simp

theorem fecPolyEncodeRedundant_eq {src : List Packet} (packetLen : ℕ) (x : UInt8)
    (h0 : src.length ≠ 0) (h255 : src.length ≤ 255) :
    fecPolyEncodeRedundant fecRsInit src packetLen x = some ((List.range packetLen).map fun off =>
      ((bytePoly (lane src off)).eval (toGf x)).val) := by
  rw [fecPolyEncodeRedundant, if_neg (by omega)]
  simp only [← toGf_hornerByte]

/-! ## Interpolation -/

/-- The entries `omega[k]`, `k ≥ 1`, after multiplication by `X + x`; `prev` is the old
`omega[k - 1]`. -/
def omegaShift (ctx : FecRsCtx) (x prev : UInt8) : List UInt8 → List UInt8
  | [] => [gf256Add prev (gf256Mul ctx 0 x)]
  | c :: cs => gf256Add prev (gf256Mul ctx c x) :: omegaShift ctx x c cs

/-- One iteration of the loop that builds `omega`. -/
def omegaStep (ctx : FecRsCtx) (om : List UInt8) (x : UInt8) : List UInt8 :=
  match om with
  | [] => []
  | c :: cs => gf256Mul ctx c x :: omegaShift ctx x c cs

/-- The master polynomial `omega`. -/
def omega (ctx : FecRsCtx) (xs : List UInt8) : List UInt8 := xs.foldl (omegaStep ctx) [1]

/-- The synthetic division `qi`, on the entries of `omega` above the constant term. -/
def synthDiv (ctx : FecRsCtx) (x : UInt8) : List UInt8 → List UInt8
  | [] => []
  | [o] => [o]
  | o :: os => gf256Add o (gf256Mul ctx ((synthDiv ctx x os).headD 0) x) :: synthDiv ctx x os

/-- The barycentric weight `si`. -/
def baryWeight (ctx : FecRsCtx) (xs : List UInt8) (i : ℕ) : UInt8 :=
  (List.range xs.length).foldl (fun si j =>
    if j ≠ i then gf256Mul ctx si (gf256Add (xs.getD i 0) (xs.getD j 0)) else si) 1

/-- Column `i` of the matrix `T`. -/
def basisColumn (ctx : FecRsCtx) (xs : List UInt8) (i : ℕ) : List UInt8 :=
  (synthDiv ctx (xs.getD i 0) (omega ctx xs).tail).map fun q =>
    gf256Mul ctx q (gf256Inv ctx (baryWeight ctx xs i))

/-- The lookup table `mul_t` of a matrix entry. -/
def mulT (ctx : FecRsCtx) (t v : UInt8) : UInt8 := if v = 0 then 0 else gf256Mul ctx t v

/-- One byte of a coefficient packet: a row of `T` applied to a lane of the values. -/
def applyRow (ctx : FecRsCtx) (row ys : List UInt8) : UInt8 :=
  (row.zip ys).foldl (fun acc ty => if ty.1 = 0 then acc else acc ^^^ mulT ctx ty.1 ty.2) 0

/-- `fec_poly_interpolate_coefficients`: the coefficient packets of the polynomials with the
values `ys` at the points `xs`. -/
def fecPolyInterpolateCoefficients (ctx : FecRsCtx) (xs : List UInt8) (ys : List Packet)
    (packetLen : ℕ) : Option (List Packet) :=
  let n := xs.length
  if n = 0 ∨ 255 < n then none
  else if ¬ xs.Nodup then none
  else if ∃ i ∈ List.range n, baryWeight ctx xs i = 0 then none
  else some ((List.range n).map fun p => (List.range packetLen).map fun off =>
    applyRow ctx ((List.range n).map fun i => (basisColumn ctx xs i).getD p 0) (lane ys off))

theorem map_toGf_omegaShift (x prev : UInt8) (cs : List UInt8) :
    (omegaShift fecRsInit x prev cs).map toGf = mulRoot (toGf x) (toGf prev) (cs.map toGf) := by
  induction cs generalizing prev with
  | nil => simp [omegaShift, mulRoot]
  | cons c cs ih => simp [omegaShift, mulRoot, ih]

theorem map_toGf_omegaStep (x : UInt8) (om : List UInt8) (h : om ≠ []) :
    (omegaStep fecRsInit om x).map toGf = mulRoot (toGf x) 0 (om.map toGf) := by
  cases om with
  | nil => exact absurd rfl h
  | cons c cs => simp [omegaStep, mulRoot, map_toGf_omegaShift]

theorem map_toGf_foldl_omegaStep (xs om : List UInt8) (h : om ≠ []) :
    (xs.foldl (omegaStep fecRsInit) om).map toGf =
      (xs.map toGf).foldl (fun cs x => mulRoot x 0 cs) (om.map toGf) := by
  induction xs generalizing om with
  | nil => rfl
  | cons x xs ih =>
    have hne : omegaStep fecRsInit om x ≠ [] := by
      cases om with
      | nil => exact absurd rfl h
      | cons c cs => simp [omegaStep]
    simp only [List.foldl_cons, List.map_cons, ih _ hne, map_toGf_omegaStep x om h]

/-- The points as a function on indices, for the interpolation theorems. -/
def pointFn (xs : List UInt8) (i : ℕ) : Gf256 := toGf (xs.getD i 0)

theorem prod_map_eq_nodal (xs : List UInt8) :
    (xs.map fun x => X + C (toGf x)).prod =
      Lagrange.nodal (Finset.range xs.length) (pointFn xs) := by
  rw [Lagrange.nodal_eq]
  induction xs with
  | nil => rfl
  | cons x xs ih =>
    rw [List.map_cons, List.prod_cons, List.length_cons, Finset.prod_range_succ', ih, mul_comm]
    congr 1
    -- subtracting is adding: the two polynomials have the same coefficients
    change X + C (toGf x) = X - C (toGf x)
    rw [sub_eq_add_neg, ← map_neg]
    rfl

theorem bytePoly_omega (xs : List UInt8) :
    bytePoly (omega fecRsInit xs) = Lagrange.nodal (Finset.range xs.length) (pointFn xs) := by
  rw [bytePoly, omega, map_toGf_foldl_omegaStep _ _ (by simp), ofCoeffs_foldl_mulRoot,
    ← prod_map_eq_nodal]
  simp [Function.comp_def]

theorem length_omega (xs : List UInt8) : (omega fecRsInit xs).length = xs.length + 1 := by
  have h := congrArg List.length (map_toGf_foldl_omegaStep xs [1] (by simp))
  rw [length_foldl_mulRoot] at h
  simpa [omega, Nat.add_comm] using h

theorem map_toGf_synthDiv (x : UInt8) (os : List UInt8) :
    (synthDiv fecRsInit x os).map toGf = divRoot (toGf x) (os.map toGf) := by
  induction os with
  | nil => rfl
  | cons o os ih =>
    cases os with
    | nil => simp [synthDiv, divRoot]
    | cons p ps =>
      have hhead : toGf ((synthDiv fecRsInit x (p :: ps)).headD 0) =
          (divRoot (toGf x) ((p :: ps).map toGf)).headD 0 := by
        rw [← ih]
        cases synthDiv fecRsInit x (p :: ps) <;> rfl
      rw [synthDiv, List.map_cons, ih, toGf_gf256Add, toGf_gf256Mul, hhead]
      · rfl
      · simp

/-- **The synthetic division is exact**: `qi` is `omega` without its factor at `xs[i]`. -/
theorem mul_bytePoly_synthDiv {xs : List UInt8} {i : ℕ} (hi : i < xs.length) :
    (X - C (pointFn xs i)) *
        bytePoly (synthDiv fecRsInit (xs.getD i 0) (omega fecRsInit xs).tail) =
      Lagrange.nodal (Finset.range xs.length) (pointFn xs) := by
  have hlen := length_omega xs
  rw [← bytePoly_omega]
  cases hom : omega fecRsInit xs with
  | nil => simp [hom] at hlen
  | cons o os =>
    have heval : (bytePoly (o :: os)).eval (pointFn xs i) = 0 := by
      rw [← hom, bytePoly_omega]
      exact Lagrange.eval_nodal_at_node (Finset.mem_range.mpr hi)
    simp only [bytePoly, List.tail_cons, map_toGf_synthDiv, List.map_cons] at heval ⊢
    exact mul_ofCoeffs_divRoot _ _ _ heval

theorem length_synthDiv (x : UInt8) (os : List UInt8) :
    (synthDiv fecRsInit x os).length = os.length := by
  have h := congrArg List.length (map_toGf_synthDiv x os)
  simpa using h

theorem toGf_baryWeight (xs : List UInt8) (i : ℕ) : toGf (baryWeight fecRsInit xs i) =
    ∏ j ∈ (Finset.range xs.length).erase i, (pointFn xs i - pointFn xs j) := by
  have key : ∀ n, toGf ((List.range n).foldl (fun si j =>
      if j ≠ i then gf256Mul fecRsInit si (gf256Add (xs.getD i 0) (xs.getD j 0)) else si) 1) =
      ∏ j ∈ (Finset.range n).erase i, (pointFn xs i - pointFn xs j) := by
    intro n
    induction n with
    | zero => rfl
    | succ n ih =>
      rw [List.range_succ, List.foldl_append, Finset.range_add_one]
      simp only [List.foldl_cons, List.foldl_nil]
      by_cases hni : n = i
      · subst hni
        rw [if_neg (by simp), ih, Finset.erase_insert Finset.notMem_range_self,
          Finset.erase_eq_of_notMem Finset.notMem_range_self]
      · have hnot : n ∉ (Finset.range n).erase i :=
          fun h => Finset.notMem_range_self (Finset.mem_of_mem_erase h)
        rw [if_pos hni, toGf_gf256Mul, toGf_gf256Add, ih, Finset.erase_insert_of_ne hni,
          Finset.prod_insert hnot, mul_comm]
        rfl
  exact key xs.length

theorem pointFn_injOn {xs : List UInt8} (h : xs.Nodup) :
    Set.InjOn (pointFn xs) (Finset.range xs.length) := by
  intro i hi j hj hij
  simp only [Finset.coe_range, Set.mem_Iio] at hi hj
  rw [pointFn, pointFn, toGf_inj, List.getD_eq_getElem _ _ hi, List.getD_eq_getElem _ _ hj] at hij
  exact (List.Nodup.getElem_inj_iff h).mp hij

theorem baryWeight_ne_zero {xs : List UInt8} (h : xs.Nodup) {i : ℕ} (hi : i < xs.length) :
    baryWeight fecRsInit xs i ≠ 0 := by
  rw [← toGf_inj.ne, toGf_baryWeight, toGf_zero, Finset.prod_ne_zero_iff]
  intro j hj
  obtain ⟨hji, hj⟩ := Finset.mem_erase.mp hj
  rw [sub_ne_zero]
  exact fun he => hji (pointFn_injOn h (by simpa using hj) (by simpa using hi) he.symm)

theorem fecPolyInterpolateCoefficients_eq {xs : List UInt8} (ys : List Packet) (packetLen : ℕ)
    (h0 : xs.length ≠ 0) (h255 : xs.length ≤ 255) (hnd : xs.Nodup) :
    fecPolyInterpolateCoefficients fecRsInit xs ys packetLen =
      some ((List.range xs.length).map fun p => (List.range packetLen).map fun off =>
        applyRow fecRsInit ((List.range xs.length).map fun i =>
          (basisColumn fecRsInit xs i).getD p 0) (lane ys off)) := by
  have hw : ¬ ∃ i ∈ List.range xs.length, baryWeight fecRsInit xs i = 0 := by
    rintro ⟨i, hi, h⟩
    exact baryWeight_ne_zero hnd (List.mem_range.mp hi) h
  rw [fecPolyInterpolateCoefficients, if_neg (by omega), if_neg (not_not.mpr hnd), if_neg hw]

/-- **Interpolation fails exactly on a bad point count or a repeated point.** -/
theorem fecPolyInterpolateCoefficients_isSome_iff (xs : List UInt8) (ys : List Packet)
    (packetLen : ℕ) : (fecPolyInterpolateCoefficients fecRsInit xs ys packetLen).isSome ↔
      xs.length ≠ 0 ∧ xs.length ≤ 255 ∧ xs.Nodup := by
  constructor
  · intro h
    rw [fecPolyInterpolateCoefficients] at h
    by_cases hn : xs.length = 0 ∨ 255 < xs.length
    · rw [if_pos hn] at h
      exact absurd h (by simp)
    · by_cases hnd : xs.Nodup
      · exact ⟨by omega, by omega, hnd⟩
      · rw [if_neg hn, if_pos hnd] at h
        exact absurd h (by simp)
  · rintro ⟨h0, h255, hnd⟩
    rw [fecPolyInterpolateCoefficients_eq ys packetLen h0 h255 hnd, Option.isSome_some]

theorem toGf_mulT (t v : UInt8) : toGf (mulT fecRsInit t v) = toGf t * toGf v := by
  unfold mulT
  split_ifs with h
  · simp [h]
  · exact toGf_gf256Mul t v

theorem toGf_applyRow (row ys : List UInt8) : toGf (applyRow fecRsInit row ys) =
    ((row.zip ys).map fun ty => toGf ty.1 * toGf ty.2).sum := by
  have key : ∀ (l : List (UInt8 × UInt8)) (acc : UInt8),
      toGf (l.foldl (fun acc ty =>
        if ty.1 = 0 then acc else acc ^^^ mulT fecRsInit ty.1 ty.2) acc) =
      toGf acc + (l.map fun ty => toGf ty.1 * toGf ty.2).sum := by
    intro l
    induction l with
    | nil => simp
    | cons ty l ih =>
      intro acc
      rw [List.foldl_cons, ih, List.map_cons, List.sum_cons, ← add_assoc]
      congr 1
      split_ifs with h0
      · simp [h0]
      · rw [← toGf_mulT]
        rfl
  rw [applyRow, key, toGf_zero, zero_add]

/-- The values at one offset as a function on indices. -/
def valueFn (ys : List Packet) (off i : ℕ) : Gf256 := toGf ((ys.getD i []).getD off 0)

theorem lane_eq_map_range (ys : List Packet) (off : ℕ) :
    lane ys off = (List.range ys.length).map fun i => (ys.getD i []).getD off 0 := by
  apply List.ext_getElem (by simp [lane])
  intro i h1 h2
  have hi : i < ys.length := by simpa [lane] using h1
  simp only [lane, List.getElem_map, List.getElem_range, List.getD_eq_getElem ys _ hi]

theorem sum_zip_map_range {n : ℕ} (f g : ℕ → UInt8) :
    ((((List.range n).map f).zip ((List.range n).map g)).map
      fun ty => toGf ty.1 * toGf ty.2).sum = ∑ i ∈ Finset.range n, toGf (f i) * toGf (g i) := by
  rw [List.zip_map', List.map_map]
  rfl

/-- **The lanes of the output interpolate the lanes of the input.** -/
theorem bytePoly_lane_fecPolyInterpolateCoefficients {xs : List UInt8} {ys cs : List Packet}
    {packetLen : ℕ} (hlen : ys.length = xs.length)
    (h : fecPolyInterpolateCoefficients fecRsInit xs ys packetLen = some cs) {off : ℕ}
    (hoff : off < packetLen) :
    bytePoly (lane cs off) =
      Lagrange.interpolate (Finset.range xs.length) (pointFn xs) (valueFn ys off) := by
  obtain ⟨h0, h255, hnd⟩ :=
    (fecPolyInterpolateCoefficients_isSome_iff xs ys packetLen).mp (by rw [h]; rfl)
  rw [fecPolyInterpolateCoefficients_eq ys packetLen h0 h255 hnd, Option.some_inj] at h
  subst h
  have hlane : (lane ((List.range xs.length).map fun p => (List.range packetLen).map fun off =>
        applyRow fecRsInit ((List.range xs.length).map fun i =>
          (basisColumn fecRsInit xs i).getD p 0) (lane ys off)) off).map toGf =
      (List.range xs.length).map fun p => ∑ i ∈ Finset.range xs.length,
        ((synthDiv fecRsInit (xs.getD i 0) (omega fecRsInit xs).tail).map toGf).getD p 0 *
          (toGf (baryWeight fecRsInit xs i))⁻¹ * valueFn ys off i := by
    simp only [lane, List.map_map]
    refine List.map_congr_left fun p _ => ?_
    simp only [Function.comp_apply]
    rw [List.getD_eq_getElem _ _ (by simpa using hoff), List.getElem_map, List.getElem_range,
      toGf_applyRow]
    change (List.map _ (List.zip _ (lane ys off))).sum = _
    rw [lane_eq_map_range, hlen, sum_zip_map_range]
    refine Finset.sum_congr rfl fun i _ => ?_
    rw [valueFn, basisColumn]
    congr 1
    have hmap : ∀ (l : List UInt8) (w : UInt8), toGf ((l.map fun q => gf256Mul fecRsInit q w).getD p 0) =
        (l.map toGf).getD p 0 * toGf w := by
      intro l w
      have h1 := List.getD_map (l := l) (d := (0 : UInt8)) (n := p) fun q => gf256Mul fecRsInit q w
      have h2 := List.getD_map (l := l) (d := (0 : UInt8)) (n := p) toGf
      rw [gf256Mul, if_pos (.inl rfl)] at h1
      rw [toGf_zero] at h2
      rw [h1, h2, toGf_gf256Mul]
    rw [hmap, toGf_gf256Inv]
  rw [bytePoly, hlane]
  refine ofCoeffs_interpolate xs.length _ _ _ _ (fun i hi => ?_) (fun i _ => ?_) fun i _ => ?_
  · exact mul_bytePoly_synthDiv hi
  · rw [List.length_map, length_synthDiv, List.length_tail, length_omega, Nat.add_sub_cancel]
  · exact toGf_baryWeight xs i

end LvlIp.Fec
