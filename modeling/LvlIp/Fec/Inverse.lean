import LvlIp.Fec.CodecCorrect

/-!
# Interpolation inverts evaluation

A family of packets is determined by the values of its lane polynomials at as many points as there
are packets, so `fec_poly_interpolate_coefficients` undoes `fec_poly_encode_redundant`, and the
other way round (`fecPolyInterpolate_inverse`). A single missing packet is also found from one value
by `fec_poly_recover_missing_coefficient`, which sums the known terms with their powers instead of
evaluating by Horner's rule (`fecPolyRecoverMissingCoefficient_eq`).
-/

namespace LvlIp.Fec

open Foundations Polynomial

/-! ## A family of packets is its lane polynomials -/

theorem getD_lane (cs : List Packet) (off : ℕ) {i : ℕ} (hi : i < cs.length) :
    (lane cs off).getD i 0 = (cs.getD i []).getD off 0 := by
  simp [lane, List.getD_eq_getElem?_getD, hi]

theorem getD_map_toGf (as : List UInt8) (i : ℕ) : (as.map toGf).getD i 0 = toGf (as.getD i 0) := by
  rw [← toGf_zero, List.getD_map]

theorem toGf_coeff_bytePoly (cs : List Packet) (off : ℕ) {i : ℕ} (hi : i < cs.length) :
    (bytePoly (lane cs off)).coeff i = toGf ((cs.getD i []).getD off 0) := by
  rw [bytePoly, coeff_ofCoeffs, getD_map_toGf, getD_lane cs off hi]

theorem eq_of_bytePoly_lane {cs ds : List Packet} {packetLen : ℕ} (hlen : cs.length = ds.length)
    (hcs : ∀ p ∈ cs, p.length = packetLen) (hds : ∀ p ∈ ds, p.length = packetLen)
    (h : ∀ off < packetLen, bytePoly (lane cs off) = bytePoly (lane ds off)) : cs = ds := by
  apply List.ext_getElem hlen
  intro i hi hi'
  have hci := hcs _ (List.getElem_mem hi)
  have hdi := hds _ (List.getElem_mem hi')
  apply List.ext_getElem (hci.trans hdi.symm)
  intro off hoff hoff'
  have hcoeff := congrArg (fun P => P.coeff i) (h off (hci ▸ hoff))
  rw [toGf_coeff_bytePoly cs off hi, toGf_coeff_bytePoly ds off hi', toGf_inj,
    List.getD_eq_getElem cs _ hi, List.getD_eq_getElem ds _ hi',
    List.getD_eq_getElem _ _ hoff, List.getD_eq_getElem _ _ hoff'] at hcoeff
  exact hcoeff

theorem degree_bytePoly_lane_lt (cs : List Packet) (off : ℕ) :
    (bytePoly (lane cs off)).degree < cs.length := by
  have h := degree_ofCoeffs_lt ((lane cs off).map toGf)
  simpa [bytePoly, lane] using h

theorem fecPolyEncodeRedundant_evalPacket (cs : List Packet) (packetLen : ℕ) (x : UInt8)
    (h0 : cs.length ≠ 0) (h255 : cs.length ≤ 255) :
    fecPolyEncodeRedundant fecRsInit cs packetLen x =
      some (evalPacket (fun off => bytePoly (lane cs off)) packetLen x) :=
  fecPolyEncodeRedundant_eq packetLen x h0 h255

/-! ## Interpolation -/

/-- `fec_poly_interpolate_coefficients` with its arrays and its signed `point_count`. -/
def fecPolyInterpolate (ctx : FecRsCtx) (pointsX : ℕ → UInt8) (pointsY : ℕ → Packet)
    (pointCount : ℤ) (packetLen : ℕ) : Option (List Packet) :=
  if pointCount ≤ 0 ∨ 255 < pointCount then none
  else fecPolyInterpolateCoefficients ctx ((List.range pointCount.toNat).map pointsX)
    ((List.range pointCount.toNat).map pointsY) packetLen

/-- No two of the points coincide. -/
def PointsDistinct (pointsX : ℕ → UInt8) (pointCount : ℤ) : Prop :=
  ∀ i j : ℕ, i < j → (j : ℤ) < pointCount → pointsX i ≠ pointsX j

section Interpolate

variable {pointsX : ℕ → UInt8} {pointCount : ℤ} {packetLen : ℕ}

theorem nodup_map_range :
    ((List.range pointCount.toNat).map pointsX).Nodup ↔ PointsDistinct pointsX pointCount := by
  rw [List.Nodup, List.pairwise_iff_getElem]
  simp only [List.length_map, List.length_range, List.getElem_map, List.getElem_range]
  constructor
  · intro h i j hij hj
    exact h i j (by omega) (by omega) hij
  · intro h i j _ hj hij
    exact h i j hij (by omega)

/-- **Interpolation fails** exactly on a point count out of range and on a repeated point. -/
theorem fecPolyInterpolate_eq_none_iff (pointsY : ℕ → Packet) :
    fecPolyInterpolate fecRsInit pointsX pointsY pointCount packetLen = none ↔
      pointCount ≤ 0 ∨ 255 < pointCount ∨ ¬ PointsDistinct pointsX pointCount := by
  unfold fecPolyInterpolate
  split
  · next hn => simp [← or_assoc, hn]
  · next hn =>
    have hlen : ((List.range pointCount.toNat).map pointsX).length = pointCount.toNat := by simp
    rw [← Option.not_isSome_iff_eq_none, fecPolyInterpolateCoefficients_isSome_iff, hlen,
      nodup_map_range]
    constructor
    · intro h
      by_contra hno
      exact h ⟨by omega, by omega, by tauto⟩
    · rintro (h | h | h)
      · omega
      · omega
      · exact fun hc => h hc.2.2

/-- The lanes of the packets found have the values that were given. -/
theorem exists_fecPolyInterpolate (h0 : 0 < pointCount) (h255 : pointCount ≤ 255)
    (hnd : PointsDistinct pointsX pointCount) (packetLen : ℕ) (pointsY : ℕ → Packet) :
    ∃ cs, fecPolyInterpolate fecRsInit pointsX pointsY pointCount packetLen = some cs ∧
      (cs.length : ℤ) = pointCount ∧ (∀ p ∈ cs, p.length = packetLen) ∧
      ∀ off < packetLen, ∀ i : ℕ, (i : ℤ) < pointCount →
        (bytePoly (lane cs off)).eval (toGf (pointsX i)) = toGf ((pointsY i).getD off 0) := by
  obtain ⟨n, rfl⟩ : ∃ n : ℕ, pointCount = n := ⟨pointCount.toNat, by omega⟩
  have hnd' := nodup_map_range.mpr hnd
  rw [Int.toNat_natCast] at hnd'
  have hxs : ((List.range n).map pointsX).length = n := by simp
  have hys : ((List.range n).map pointsY).length = ((List.range n).map pointsX).length := by simp
  have hinj := pointFn_injOn hnd'
  obtain ⟨cs, hcs⟩ := Option.isSome_iff_exists.mp
    ((fecPolyInterpolateCoefficients_isSome_iff _ ((List.range n).map pointsY) packetLen).mpr
      ⟨by omega, by omega, hnd'⟩)
  have hform := hcs
  rw [fecPolyInterpolateCoefficients_eq _ packetLen (by omega) (by omega) hnd',
    Option.some_inj] at hform
  refine ⟨cs, ?_, by rw [← hform]; simp, ?_, fun off hoff i hi => ?_⟩
  · unfold fecPolyInterpolate
    rw [if_neg (by omega)]
    exact hcs
  · intro p hp
    rw [← hform] at hp
    obtain ⟨q, -, rfl⟩ := List.mem_map.mp hp
    simp
  · have hi : i < n := by omega
    rw [bytePoly_lane_fecPolyInterpolateCoefficients hys hcs hoff, hxs]
    rw [hxs] at hinj
    have hat := Lagrange.eval_interpolate_at_node (valueFn ((List.range n).map pointsY) off) hinj
      (Finset.mem_range.mpr hi)
    have hx : pointFn ((List.range n).map pointsX) i = toGf (pointsX i) := by
      simp [pointFn, List.getD_eq_getElem?_getD, hi]
    have hy : valueFn ((List.range n).map pointsY) off i = toGf ((pointsY i).getD off 0) := by
      simp [valueFn, List.getD_eq_getElem?_getD, hi]
    rw [hx, hy] at hat
    exact hat

/-- Packets whose lanes agree at as many points as there are packets. -/
theorem eq_of_eval_lane {cs ds : List Packet} (hcs : (cs.length : ℤ) = pointCount)
    (hds : (ds.length : ℤ) = pointCount) (hcl : ∀ p ∈ cs, p.length = packetLen)
    (hdl : ∀ p ∈ ds, p.length = packetLen) (hnd : PointsDistinct pointsX pointCount)
    (h : ∀ off < packetLen, ∀ i : ℕ, (i : ℤ) < pointCount →
      (bytePoly (lane cs off)).eval (toGf (pointsX i)) =
        (bytePoly (lane ds off)).eval (toGf (pointsX i))) : cs = ds := by
  refine eq_of_bytePoly_lane (by omega) hcl hdl fun off hoff => ?_
  have hinj : Set.InjOn (fun i => toGf (pointsX i)) (Finset.range cs.length) := by
    intro i hi j hj hij
    simp only [Finset.coe_range, Set.mem_Iio, toGf_inj] at hi hj hij
    rcases Nat.lt_trichotomy i j with hlt | heq | hlt
    · exact absurd hij (hnd i j hlt (by omega))
    · exact heq
    · exact absurd hij.symm (hnd j i hlt (by omega))
  apply Polynomial.eq_of_degrees_lt_of_eval_index_eq (Finset.range cs.length) hinj
  · simpa using degree_bytePoly_lane_lt cs off
  · have hlen : cs.length = ds.length := by omega
    simpa [hlen] using degree_bytePoly_lane_lt ds off
  · intro i hi
    have hi := Finset.mem_range.mp hi
    exact h off hoff i (by omega)

/-- **Interpolation inverts evaluation**, at every number of points and for all packets: it finds
the packets that were evaluated, its output has the values that were given, and it fails exactly on
a point count out of range or a repeated point, never on a weight. -/
theorem fecPolyInterpolate_inverse (pointsX : ℕ → UInt8) (pointCount : ℤ) (packetLen : ℕ) :
    (∀ pointsY, fecPolyInterpolate fecRsInit pointsX pointsY pointCount packetLen = none ↔
      pointCount ≤ 0 ∨ 255 < pointCount ∨ ¬ PointsDistinct pointsX pointCount) ∧
    (0 < pointCount → pointCount ≤ 255 → PointsDistinct pointsX pointCount →
      (∀ c : List Packet, (c.length : ℤ) = pointCount → (∀ p ∈ c, p.length = packetLen) →
        ∃ pointsY : ℕ → Packet,
          (∀ i, fecPolyEncodeRedundant fecRsInit c packetLen (pointsX i) = some (pointsY i)) ∧
          fecPolyInterpolate fecRsInit pointsX pointsY pointCount packetLen = some c) ∧
      (∀ pointsY : ℕ → Packet, (∀ i : ℕ, (i : ℤ) < pointCount → (pointsY i).length = packetLen) →
        ∃ c, fecPolyInterpolate fecRsInit pointsX pointsY pointCount packetLen = some c ∧
          ∀ i : ℕ, (i : ℤ) < pointCount →
            fecPolyEncodeRedundant fecRsInit c packetLen (pointsX i) = some (pointsY i)) ∧
      ∀ i : ℕ, (i : ℤ) < pointCount →
        baryWeight fecRsInit ((List.range pointCount.toNat).map pointsX) i ≠ 0) := by
  refine ⟨fun pointsY => fecPolyInterpolate_eq_none_iff pointsY, fun h0 h255 hnd =>
    ⟨fun c hc hcl => ?_, fun pointsY hlen => ?_, fun i hi => ?_⟩⟩
  · have henc := fun i => fecPolyEncodeRedundant_evalPacket c packetLen (pointsX i)
      (by omega) (by omega)
    refine ⟨_, henc, ?_⟩
    obtain ⟨cs, hcs, hlen, hpl, heval⟩ := exists_fecPolyInterpolate h0 h255 hnd packetLen
      fun i => evalPacket (fun off => bytePoly (lane c off)) packetLen (pointsX i)
    rw [hcs, Option.some_inj]
    refine eq_of_eval_lane hlen hc hpl hcl hnd fun off hoff i hi => ?_
    rw [heval off hoff i hi]
    exact onPoly_evalPacket _ packetLen (pointsX i) off hoff
  · obtain ⟨c, hc, hclen, -, heval⟩ := exists_fecPolyInterpolate h0 h255 hnd packetLen pointsY
    refine ⟨c, hc, fun i hi => ?_⟩
    rw [fecPolyEncodeRedundant_evalPacket c packetLen _ (by omega) (by omega), Option.some_inj]
    refine (OnPoly.eq_evalPacket (fun off hoff => ?_) (hlen i hi)).symm
    exact (heval off hoff i hi).symm
  · exact baryWeight_ne_zero (nodup_map_range.mpr hnd) (by simp; omega)

end Interpolate

/-! ## One missing packet -/

/-- The weight `missing_weight`: a power of the point. -/
def missingWeight (ctx : FecRsCtx) (x : UInt8) (m : ℕ) : UInt8 :=
  (List.range m).foldl (fun w _ => gf256Mul ctx w x) 1

/-- The loop over the packets at one offset, from packet `i` on: the sum of the known terms. -/
def knownSum (ctx : FecRsCtx) (x : UInt8) (m : ℕ) : ℕ → UInt8 → UInt8 → List UInt8 → UInt8
  | _, sum, _, [] => sum
  | i, sum, xPow, a :: as =>
    knownSum ctx x m (i + 1) (if i ≠ m then gf256Add sum (gf256Mul ctx a xPow) else sum)
      (gf256Mul ctx xPow x) as

/-- `fec_poly_recover_missing_coefficient`. A source packet that is not there is `none`. -/
def fecPolyRecoverMissingCoefficient (ctx : FecRsCtx) (src : List (Option Packet))
    (packetLen : ℕ) (missingIndex : ℤ) (x : UInt8) (red : Packet) : Option Packet :=
  let m := missingIndex.toNat
  if src.length = 0 ∨ 255 < src.length then none
  else if missingIndex < 0 ∨ (src.length : ℤ) ≤ missingIndex then none
  else if ∃ i ∈ List.range src.length, i ≠ m ∧ src.getD i none = none then none
  else if missingWeight ctx x m = 0 then none
  else some ((List.range packetLen).map fun off =>
    gf256Mul ctx (gf256Add (red.getD off 0)
      (knownSum ctx x m 0 0 1 (src.map fun p => (p.getD []).getD off 0)))
      (gf256Inv ctx (missingWeight ctx x m)))

theorem toGf_missingWeight (x : UInt8) (m : ℕ) :
    toGf (missingWeight fecRsInit x m) = toGf x ^ m := by
  unfold missingWeight
  induction m with
  | zero => simp
  | succ m ih => simp [List.range_succ, ih, pow_succ]

theorem missingWeight_eq_zero_iff (x : UInt8) (m : ℕ) :
    missingWeight fecRsInit x m = 0 ↔ x = 0 ∧ 0 < m := by
  rw [← toGf_inj, toGf_missingWeight, toGf_zero, pow_eq_zero_iff', ← toGf_zero, toGf_inj,
    Nat.pos_iff_ne_zero]

/-- The sum leaves out the term at `m`, if that is still to come. -/
theorem toGf_knownSum (x : UInt8) (m i : ℕ) (sum xPow : UInt8) (as : List UInt8) :
    toGf (knownSum fecRsInit x m i sum xPow as) = toGf sum + toGf xPow *
      ((bytePoly as).eval (toGf x) -
        if i ≤ m then toGf (as.getD (m - i) 0) * toGf x ^ (m - i) else 0) := by
  induction as generalizing i sum xPow with
  | nil => simp [knownSum, bytePoly]
  | cons a as ih =>
    rw [knownSum, ih]
    simp only [bytePoly, List.map_cons, ofCoeffs_cons, eval_add, eval_C, eval_mul, eval_X,
      toGf_gf256Mul]
    rcases Nat.lt_trichotomy i m with hlt | rfl | hgt
    · obtain ⟨d, hd⟩ : ∃ d, m - i = d + 1 := ⟨m - i - 1, by omega⟩
      have hd' : m - (i + 1) = d := by omega
      rw [if_pos hlt.ne, if_pos (show i + 1 ≤ m from hlt), if_pos hlt.le, hd, hd',
        List.getD_cons_succ, pow_succ, toGf_gf256Add, toGf_gf256Mul]
      ring
    · simp
      ring
    · rw [if_pos hgt.ne', if_neg (by omega), if_neg (by omega), toGf_gf256Add, toGf_gf256Mul]
      ring

theorem eval_bytePoly (x : UInt8) (as : List UInt8) : (bytePoly as).eval (toGf x) =
    ∑ p ∈ Finset.range as.length, toGf (as.getD p 0) * toGf x ^ p := by
  rw [bytePoly, ofCoeffs_eq_sum, eval_finsetSum, List.length_map]
  simp

theorem toGf_knownSum_eq_sum (x : UInt8) {m : ℕ} {as : List UInt8} (hm : m < as.length) :
    toGf (knownSum fecRsInit x m 0 0 1 as) =
      ∑ p ∈ (Finset.range as.length).erase m, toGf (as.getD p 0) * toGf x ^ p := by
  rw [toGf_knownSum, Finset.sum_erase_eq_sub (Finset.mem_range.mpr hm), ← eval_bytePoly]
  simp

/-- **A single missing packet** is found from the value at one point, except at zero, where only
the constant term counts. -/
theorem fecPolyRecoverMissingCoefficient_eq (c : List Packet) (packetLen : ℕ) (m : ℕ) (x : UInt8)
    (h255 : c.length ≤ 255) (hm : m < c.length) (hc : ∀ p ∈ c, p.length = packetLen) :
    ∃ red, fecPolyEncodeRedundant fecRsInit c packetLen x = some red ∧
      ∀ src : List (Option Packet), src.length = c.length →
        (∀ i < c.length, i ≠ m → src.getD i none = some (c.getD i [])) →
        fecPolyRecoverMissingCoefficient fecRsInit src packetLen m x red =
          if x = 0 ∧ 0 < m then none else some (c.getD m []) := by
  refine ⟨_, fecPolyEncodeRedundant_evalPacket c packetLen x (by omega) h255,
    fun src hlen hsrc => ?_⟩
  have hno : ¬ ∃ i ∈ List.range src.length, i ≠ m ∧ src.getD i none = none := by
    rintro ⟨i, hi, hne, hnone⟩
    rw [List.mem_range, hlen] at hi
    rw [hsrc i hi hne] at hnone
    cases hnone
  unfold fecPolyRecoverMissingCoefficient
  rw [Int.toNat_natCast, if_neg (by omega), if_neg (by omega), if_neg hno]
  simp only [missingWeight_eq_zero_iff]
  split
  · rfl
  · next hx =>
    have hw : toGf x ^ m ≠ 0 := by
      rw [← toGf_missingWeight, ← toGf_zero, toGf_inj.ne, ne_eq, missingWeight_eq_zero_iff]
      exact hx
    rw [Option.some_inj]
    apply List.ext_getElem
    · rw [List.getD_eq_getElem _ _ hm, hc _ (List.getElem_mem hm)]
      simp
    intro off hoff hoff'
    have hoff : off < packetLen := by simpa using hoff
    rw [List.getElem_map, List.getElem_range, ← List.getD_eq_getElem _ 0 hoff', ← toGf_inj]
    -- the terms that the loop sums are those of the value, less the one that is missing
    have hknown : toGf (knownSum fecRsInit x m 0 0 1 (src.map fun p => (p.getD []).getD off 0)) =
        ∑ p ∈ (Finset.range c.length).erase m, toGf ((lane c off).getD p 0) * toGf x ^ p := by
      rw [toGf_knownSum_eq_sum x (by simpa [hlen] using hm), List.length_map, hlen]
      refine Finset.sum_congr rfl fun p hp => ?_
      obtain ⟨hne, hp⟩ := Finset.mem_erase.mp hp
      have hp := Finset.mem_range.mp hp
      have hsp : src[p]? = some (some (c.getD p [])) := by
        have hget := hsrc p hp hne
        rwa [List.getD_eq_getElem _ _ (by omega), ← Option.some_inj,
          ← List.getElem?_eq_getElem] at hget
      rw [getD_lane c off hp]
      simp [List.getD_eq_getElem?_getD, hsp]
    have hred := onPoly_evalPacket (fun off => bytePoly (lane c off)) packetLen x off hoff
    have hsplit : (bytePoly (lane c off)).eval (toGf x) =
        toGf ((c.getD m []).getD off 0) * toGf x ^ m +
          ∑ p ∈ (Finset.range c.length).erase m, toGf ((lane c off).getD p 0) * toGf x ^ p := by
      have hlane : (lane c off).length = c.length := by simp [lane]
      rw [eval_bytePoly, hlane, ← Finset.add_sum_erase _ _ (Finset.mem_range.mpr hm),
        getD_lane c off hm]
    rw [toGf_gf256Mul, toGf_gf256Add, toGf_gf256Inv, toGf_missingWeight, hknown, hred, hsplit,
      ← Gf256.sub_eq_add, add_sub_cancel_right, mul_inv_cancel_right₀ hw]

/-- The second of two packets, from the first one and the value at 3. -/
theorem fecPolyRecoverMissingCoefficient_second :
    ∃ red, fecPolyEncodeRedundant fecRsInit [[5], [7]] 1 3 = some red ∧
      fecPolyRecoverMissingCoefficient fecRsInit [some [5], none] 1 (1 : ℕ) 3 red = some [7] := by
  obtain ⟨red, henc, hrec⟩ := fecPolyRecoverMissingCoefficient_eq [[5], [7]] 1 1 3 (by decide)
    (by decide) (by decide)
  refine ⟨red, henc, (hrec [some [5], none] rfl ?_).trans (if_neg (by decide))⟩
  intro i hi hne
  obtain rfl : i = 0 := by
    have : i < 2 := hi
    omega
  rfl

end LvlIp.Fec
