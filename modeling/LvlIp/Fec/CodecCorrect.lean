import LvlIp.Fec.Codec

/-!
# Recovery from any `k` symbols

The symbols of a block are the values of one polynomial per byte offset (`blockPoly`), and a
decoder that holds `k` of them finds the polynomial again.

* `exists_interpolate_encode`: interpolating through points of a family of polynomials and
  evaluating the result is evaluating the family.
* `fecEncoderGenerate_eq`: the parity symbols are values of `blockPoly`.
* `fecDecoderRecover_eq`: what a decoder that holds true symbols returns.
* `fecDecoderRecover_feed`: the round trip, for any history of the encoder and the decoder and
  any order of the symbols.
-/

namespace LvlIp.Fec

open Foundations Polynomial

variable {α β : Type}

/-! ## Values of a family of polynomials -/

/-- The packet of the values of `P` at `x`. -/
noncomputable def evalPacket (P : ℕ → Gf256[X]) (symLen : ℕ) (x : UInt8) : Packet :=
  (List.range symLen).map fun off => ((P off).eval (toGf x)).val

/-- The packet `p` holds the values of `P` at `x`. -/
def OnPoly (P : ℕ → Gf256[X]) (symLen : ℕ) (x : UInt8) (p : Packet) : Prop :=
  ∀ off < symLen, toGf (p.getD off 0) = (P off).eval (toGf x)

theorem onPoly_evalPacket (P : ℕ → Gf256[X]) (symLen : ℕ) (x : UInt8) :
    OnPoly P symLen x (evalPacket P symLen x) := by
  intro off hoff
  rw [evalPacket, List.getD_eq_getElem _ _ (by simpa using hoff), List.getElem_map,
    List.getElem_range, toGf_val]

theorem OnPoly.eq_evalPacket {P : ℕ → Gf256[X]} {symLen : ℕ} {x : UInt8} {p : Packet}
    (h : OnPoly P symLen x p) (hlen : p.length = symLen) : p = evalPacket P symLen x := by
  apply List.ext_getElem (by simp [evalPacket, hlen])
  intro off h1 h2
  have hoff : off < symLen := hlen ▸ h1
  rw [← List.getD_eq_getElem p 0 h1, ← List.getD_eq_getElem _ 0 h2, ← toGf_inj, h off hoff,
    onPoly_evalPacket P symLen x off hoff]

/-- **Interpolating and evaluating is evaluating**, for points on polynomials of small degree. -/
theorem exists_interpolate_encode (P : ℕ → Gf256[X]) {xs : List UInt8} {ys : List Packet}
    (symLen : ℕ) (hlen : ys.length = xs.length) (h0 : xs.length ≠ 0) (h255 : xs.length ≤ 255)
    (hnd : xs.Nodup) (hdeg : ∀ off, (P off).degree < xs.length)
    (hval : ∀ i < xs.length, OnPoly P symLen (xs.getD i 0) (ys.getD i [])) :
    ∃ cs, fecPolyInterpolateCoefficients fecRsInit xs ys symLen = some cs ∧
      ∀ x, fecPolyEncodeRedundant fecRsInit cs symLen x = some (evalPacket P symLen x) := by
  have hsome := (fecPolyInterpolateCoefficients_isSome_iff xs ys symLen).mpr ⟨h0, h255, hnd⟩
  obtain ⟨cs, hcs⟩ := Option.isSome_iff_exists.mp hsome
  have hcslen : cs.length = xs.length := by
    rw [fecPolyInterpolateCoefficients_eq ys symLen h0 h255 hnd, Option.some_inj] at hcs
    rw [← hcs, List.length_map, List.length_range]
  refine ⟨cs, hcs, fun x => ?_⟩
  rw [fecPolyEncodeRedundant_eq symLen x (by omega) (by omega), evalPacket]
  congr 1
  refine List.map_congr_left fun off hoff => ?_
  have hoff := List.mem_range.mp hoff
  -- a polynomial of small degree is its own interpolant
  have hP : P off = Lagrange.interpolate (Finset.range xs.length) (pointFn xs) (valueFn ys off) :=
    Lagrange.eq_interpolate_of_eval_eq _ (pointFn_injOn hnd) (by simpa using hdeg off)
      fun i hi => (hval i (Finset.mem_range.mp hi) off hoff).symm
  rw [bytePoly_lane_fecPolyInterpolateCoefficients hlen hcs hoff, ← hP]

/-! ## The encoder -/

theorem fecSeen_eq_some {xs : List UInt8} {seen seen' : UInt8 → Bool}
    (h : fecSeen xs seen = some seen') :
    xs.Nodup ∧ (∀ x ∈ xs, seen x = false) ∧ ∀ x, seen' x = (decide (x ∈ xs) || seen x) := by
  induction xs generalizing seen with
  | nil => simp_all [fecSeen]
  | cons x xs ih =>
    rw [fecSeen] at h
    split at h
    · cases h
    · next hx =>
      obtain ⟨hnd, hfresh, hseen'⟩ := ih h
      simp only [Bool.or_eq_false_iff, beq_eq_false_iff_ne] at hfresh
      refine ⟨List.nodup_cons.mpr ⟨fun hm => (hfresh x hm).1 rfl, hnd⟩, ?_, fun y => ?_⟩
      · intro y hy
        rcases List.mem_cons.mp hy with rfl | hy
        · simpa using hx
        · exact (hfresh y hy).2
      · rw [hseen' y]
        by_cases hyx : y = x
        · simp [hyx]
        · simp [hyx, beq_eq_false_iff_ne.mpr hyx]

theorem fecSeenNonzero_eq_some {xs : List UInt8} {seen seen' : UInt8 → Bool}
    (h : fecSeenNonzero xs seen = some seen') :
    fecSeen xs seen = some seen' := by
  induction xs generalizing seen with
  | nil => exact h
  | cons x xs ih =>
    rw [fecSeenNonzero] at h
    rw [fecSeen]
    split at h
    · cases h
    · split at h
      · cases h
      · next hx => rw [if_neg hx, ih h]

/-- The points of an accepted geometry: as many as symbols, at most 255, all distinct. -/
structure PointsOk (k r : ℕ) (srcX redX : List UInt8) : Prop where
  pos : k ≠ 0
  le : k ≤ 255
  srcX_length : srcX.length = k
  redX_length : redX.length = r
  nodup : (srcX ++ redX).Nodup

theorem fecEncoderInit_eq_some {k r : ℤ} {symLen : ℕ} {redX : Option (ℕ → UInt8)}
    {enc : FecEncoder α} (h : fecEncoderInit fecRsInit k r symLen redX = some enc) :
    fecGeometryOk k r ∧ PointsOk k.toNat r.toNat enc.srcX enc.redX ∧
      enc = { ctx := fecRsInit, k := k.toNat, r := r.toNat, symLen
              srcX := fecSrcX k.toNat, redX := fecRedX k.toNat r.toNat redX, src := [] } := by
  rw [fecEncoderInit] at h
  split at h
  · next hgeo =>
    dsimp only at h
    split at h
    · cases h
    · next seen hseen =>
      split at h
      · cases h
      · next seen' hseen' =>
        rw [Option.some_inj] at h
        subst h
        obtain ⟨hnd1, -, hs1⟩ := fecSeen_eq_some hseen
        obtain ⟨hnd2, hs2, -⟩ := fecSeen_eq_some (fecSeenNonzero_eq_some hseen')
        have hgeo' := hgeo
        simp only [fecGeometryOk, fecBlkMaxK, fecBlkMaxR] at hgeo'
        refine ⟨hgeo, ⟨by omega, by omega, by simp [fecSrcX], by simp [fecRedX], ?_⟩, rfl⟩
        refine List.nodup_append.mpr ⟨hnd1, hnd2, fun x hx y hy hxy => ?_⟩
        have := hs2 y hy
        rw [hs1 y, ← hxy] at this
        simp [hx] at this
  · cases h

theorem fecSeen_of_nodup {xs : List UInt8} {seen : UInt8 → Bool} (hnd : xs.Nodup)
    (hfresh : ∀ x ∈ xs, seen x = false) :
    fecSeen xs seen = some fun y => decide (y ∈ xs) || seen y := by
  induction xs generalizing seen with
  | nil => simp [fecSeen]
  | cons x xs ih =>
    obtain ⟨hx, hnd⟩ := List.nodup_cons.mp hnd
    have hrec := @ih (fun y => y == x || seen y) hnd fun y hy => by
      have hne : y ≠ x := fun h => hx (h ▸ hy)
      simp [hne, hfresh y (List.mem_cons_of_mem _ hy)]
    rw [fecSeen, if_neg (by simp [hfresh x List.mem_cons_self]), hrec]
    congr 1
    funext y
    by_cases hy : y = x
    · simp [hy]
    · simp [hy, beq_eq_false_iff_ne.mpr hy]

theorem fecSeenNonzero_of_ne_zero {xs : List UInt8} (h : ∀ x ∈ xs, x ≠ 0)
    (seen : UInt8 → Bool) : fecSeenNonzero xs seen = fecSeen xs seen := by
  induction xs generalizing seen with
  | nil => rfl
  | cons x xs ih =>
    rw [fecSeenNonzero, fecSeen, if_neg (h x List.mem_cons_self),
      ih fun y hy => h y (List.mem_cons_of_mem _ hy)]

/-- The default points of all symbols of a block are `1, …, k + r`. -/
theorem fecSrcX_append_fecRedX (k r : ℕ) :
    fecSrcX k ++ fecRedX k r none = (List.range (k + r)).map fun i => UInt8.ofNat (i + 1) := by
  rw [List.range_add, List.map_append, List.map_map]
  rfl

theorem nodup_defaultPoints {k r : ℕ} (h : k + r ≤ 255) :
    (fecSrcX k ++ fecRedX k r none).Nodup := by
  rw [fecSrcX_append_fecRedX]
  refine List.Nodup.map_on (fun i hi j hj hij => ?_) List.nodup_range
  rw [List.mem_range] at hi hj
  have hij := congrArg UInt8.toNat hij
  rw [UInt8.toNat_ofNat', UInt8.toNat_ofNat'] at hij
  omega

/-- **Every geometry within the bounds is accepted with the default points.** -/
theorem fecEncoderInit_default {k r : ℕ} (hgeo : fecGeometryOk k r) (symLen : ℕ) :
    PointsOk k r (fecSrcX k) (fecRedX k r none) ∧
      fecEncoderInit (α := α) fecRsInit k r symLen none =
        some { ctx := fecRsInit, k, r, symLen, srcX := fecSrcX k, redX := fecRedX k r none
               src := [] } := by
  have hgeo' := hgeo
  simp only [fecGeometryOk, fecBlkMaxK, fecBlkMaxR] at hgeo'
  have hnd := nodup_defaultPoints (k := k) (r := r) (by omega)
  obtain ⟨hnd1, hnd2, hdisj⟩ := List.nodup_append.mp hnd
  refine ⟨⟨by omega, by omega, by simp [fecSrcX], by simp [fecRedX], hnd⟩, ?_⟩
  have hred0 : ∀ x ∈ fecRedX k r none, x ≠ 0 := by
    intro x hx h0
    obtain ⟨i, hi, rfl⟩ := List.mem_map.mp hx
    rw [List.mem_range] at hi
    have h0 := congrArg UInt8.toNat h0
    simp only [Option.map_none, Option.getD_none, UInt8.toNat_ofNat', UInt8.toNat_zero] at h0
    omega
  have hseen : fecSeen (fecRedX k r none)
      (fun y => decide (y ∈ fecSrcX k) || (fun _ => false) y) = some _ :=
    fecSeen_of_nodup hnd2 fun x hx => by
      simpa using fun hs : x ∈ fecSrcX k => hdisj x hs x hx rfl
  unfold fecEncoderInit
  rw [if_pos hgeo]
  simp only [Int.toNat_natCast]
  rw [fecSeen_of_nodup hnd1 (by simp)]
  dsimp only
  rw [fecSeenNonzero_of_ne_zero hred0, hseen]

/-- The polynomials through the source symbols of a block. -/
noncomputable def blockPoly (srcX : List UInt8) (ys : List Packet) (off : ℕ) : Gf256[X] :=
  Lagrange.interpolate (Finset.range srcX.length) (pointFn srcX) (valueFn ys off)

theorem degree_blockPoly_lt {srcX : List UInt8} (hnd : srcX.Nodup) (ys : List Packet) (off : ℕ) :
    (blockPoly srcX ys off).degree < srcX.length := by
  have h := Lagrange.degree_interpolate_lt (valueFn ys off) (pointFn_injOn hnd)
  rwa [Finset.card_range] at h

theorem onPoly_blockPoly {srcX : List UInt8} (hnd : srcX.Nodup) (ys : List Packet) (symLen : ℕ)
    {i : ℕ} (hi : i < srcX.length) :
    OnPoly (blockPoly srcX ys) symLen (srcX.getD i 0) (ys.getD i []) :=
  fun off _ => (Lagrange.eval_interpolate_at_node (valueFn ys off) (pointFn_injOn hnd)
    (Finset.mem_range.mpr hi)).symm

/-- The parity of a block: the values of its polynomials at the redundant points. -/
noncomputable def blockParity (srcX redX : List UInt8) (ys : List Packet) (symLen : ℕ) :
    List Packet :=
  redX.map (evalPacket (blockPoly srcX ys) symLen)

/-- **The parity symbols are the values of the block's polynomials** at the redundant points. -/
theorem fecEncoderGenerate_eq {enc : FecEncoder α} (mem : α → Packet)
    (hctx : enc.ctx = fecRsInit) (hok : PointsOk enc.k enc.r enc.srcX enc.redX)
    (hfull : enc.filled = enc.k) :
    fecEncoderGenerate mem enc =
      some (blockParity enc.srcX enc.redX (enc.src.map mem) enc.symLen) := by
  have hnd := (List.nodup_append.mp hok.nodup).1
  have hlen : (enc.src.map mem).length = enc.srcX.length := by
    rw [List.length_map, hok.srcX_length]
    exact hfull
  obtain ⟨cs, hcs, heval⟩ := exists_interpolate_encode _ enc.symLen hlen
    (by rw [hok.srcX_length]; exact hok.pos) (by rw [hok.srcX_length]; exact hok.le) hnd
    (degree_blockPoly_lt hnd _) fun i hi => onPoly_blockPoly hnd _ _ hi
  rw [fecEncoderGenerate, if_neg (by simpa using hfull), hctx, hcs]
  dsimp only
  simp only [heval]
  exact List.mapM_pure

/-! ## The decoder -/

/-- A symbol of a block. -/
inductive Symbol
  | source (i : ℕ)
  | redundant (j : ℕ)
deriving DecidableEq, Repr

/-- The symbol belongs to a block of `k` source and `r` redundant symbols. -/
def Symbol.InRange (k r : ℕ) : Symbol → Prop
  | .source i => i < k
  | .redundant j => j < r

/-- What the decoder holds of a symbol. -/
def FecDecoder.slot (dec : FecDecoder α) : Symbol → Option α
  | .source i => dec.src.getD i none
  | .redundant j => dec.red.getD j none

/-- The evaluation point of a symbol. -/
def FecDecoder.point (dec : FecDecoder α) : Symbol → UInt8
  | .source i => dec.srcX.getD i 0
  | .redundant j => dec.redX.getD j 0

/-- The counters count the slots in use. -/
structure DecoderOk (dec : FecDecoder α) : Prop where
  src_length : dec.src.length = dec.k
  red_length : dec.red.length = dec.r
  srcCount : dec.srcCount = dec.src.countP Option.isSome
  redCount : dec.redCount = dec.red.countP Option.isSome

theorem length_survivors {xs : List UInt8} {slots : List (Option α)}
    (h : xs.length = slots.length) :
    (survivors xs slots).length = slots.countP Option.isSome := by
  induction xs generalizing slots with
  | nil =>
    rw [List.length_nil, eq_comm, List.length_eq_zero_iff] at h
    rw [h]
    rfl
  | cons x xs ih =>
    cases slots with
    | nil => cases h
    | cons s slots =>
      have hih := @ih slots (by simpa using h)
      cases s <;> simp_all [survivors]

theorem map_fst_survivors_sublist (xs : List UInt8) (slots : List (Option α)) :
    ((survivors xs slots).map Prod.fst).Sublist xs := by
  induction xs generalizing slots with
  | nil => simp [survivors]
  | cons x xs ih =>
    cases slots with
    | nil => simp [survivors]
    | cons s slots =>
      cases s with
      | none => simpa [survivors] using (ih slots).trans (List.sublist_cons_self x xs)
      | some a => simpa [survivors] using ih slots

theorem exists_of_mem_survivors {xs : List UInt8} {slots : List (Option α)} {p : UInt8 × α}
    (h : p ∈ survivors xs slots) :
    ∃ i, p.1 = xs.getD i 0 ∧ slots.getD i none = some p.2 := by
  obtain ⟨⟨x, s⟩, hq, hs⟩ := List.mem_filterMap.mp h
  obtain ⟨a, hsa, rfl⟩ := Option.map_eq_some_iff.mp hs
  dsimp only at hsa
  obtain ⟨i, hi⟩ := List.mem_iff_getElem?.mp hq
  obtain ⟨h1, h2⟩ := List.getElem?_zip_eq_some.mp hi
  exact ⟨i, by simp [List.getD_eq_getElem?_getD, h1], by simp [List.getD_eq_getElem?_getD, h2, hsa]⟩

section Recover

variable {dec : FecDecoder α} (mem : α → Packet)

theorem length_recoverPoints (hpts : PointsOk dec.k dec.r dec.srcX dec.redX)
    (hok : DecoderOk dec) :
    (recoverPoints dec).length = min dec.k (dec.srcCount + dec.redCount) := by
  rw [recoverPoints, List.length_take, List.length_append,
    length_survivors (hpts.srcX_length.trans hok.src_length.symm),
    length_survivors (hpts.redX_length.trans hok.red_length.symm), hok.srcCount, hok.redCount]

theorem nodup_recoverPoints (hpts : PointsOk dec.k dec.r dec.srcX dec.redX) :
    ((recoverPoints dec).map Prod.fst).Nodup := by
  refine hpts.nodup.sublist (((List.take_sublist _ _).map _).trans ?_)
  rw [List.map_append]
  exact (map_fst_survivors_sublist _ _).append (map_fst_survivors_sublist _ _)

theorem exists_of_mem_recoverPoints {p : UInt8 × α} (h : p ∈ recoverPoints dec) :
    ∃ s, p.1 = dec.point s ∧ dec.slot s = some p.2 := by
  rcases List.mem_append.mp (List.mem_of_mem_take h) with h | h
  · obtain ⟨i, hi⟩ := exists_of_mem_survivors h
    exact ⟨.source i, hi⟩
  · obtain ⟨j, hj⟩ := exists_of_mem_survivors h
    exact ⟨.redundant j, hj⟩

theorem isSome_of_srcCount_eq (hok : DecoderOk dec) (h : dec.srcCount = dec.k) {i : ℕ}
    (hi : i < dec.k) : (dec.slot (.source i)).isSome := by
  rw [hok.srcCount, ← hok.src_length, List.countP_eq_length] at h
  have hi' : i < dec.src.length := hok.src_length ▸ hi
  rw [FecDecoder.slot, List.getD_eq_getElem _ _ hi']
  exact h _ (List.getElem_mem hi')

/-- **Recovery from true symbols**: a decoder whose symbols are values of polynomials of degree
below `k` fails with fewer than `k` symbols, and otherwise writes the values at the missing
sources. -/
theorem fecDecoderRecover_eq {P : ℕ → Gf256[X]} (hctx : dec.ctx = fecRsInit)
    (hpts : PointsOk dec.k dec.r dec.srcX dec.redX) (hok : DecoderOk dec)
    (hdeg : ∀ off, (P off).degree < dec.k)
    (htrue : ∀ s a, dec.slot s = some a → OnPoly P dec.symLen (dec.point s) (mem a)) :
    fecDecoderRecover mem dec =
      if dec.srcCount + dec.redCount < dec.k then none
      else some ((List.range dec.k).map fun i =>
        if (dec.slot (.source i)).isSome then none
        else some (evalPacket P dec.symLen (dec.point (.source i)))) := by
  have hle : dec.srcCount ≤ dec.k := by
    rw [hok.srcCount, ← hok.src_length]
    exact List.countP_le_length
  rw [fecDecoderRecover]
  dsimp only
  by_cases hfull : dec.srcCount = dec.k
  · rw [if_pos (by omega), if_neg (by omega)]
    congr 1
    refine (List.eq_replicate_iff.mpr ⟨by simp, fun o ho => ?_⟩).symm
    obtain ⟨i, hi, rfl⟩ := List.mem_map.mp ho
    rw [if_pos (isSome_of_srcCount_eq hok hfull (List.mem_range.mp hi))]
  rw [if_neg (by omega)]
  by_cases hfew : dec.srcCount + dec.redCount < dec.k
  · rw [if_pos (by omega), if_pos hfew]
  have hlen := length_recoverPoints hpts hok
  rw [if_neg (by omega), if_neg hfew, if_neg (by omega), hctx]
  obtain ⟨cs, hcs, heval⟩ := exists_interpolate_encode P dec.symLen
    (show ((recoverPoints dec).map fun p => mem p.2).length =
      ((recoverPoints dec).map Prod.fst).length by simp)
    (by rw [List.length_map, hlen]; have := hpts.pos; omega)
    (by rw [List.length_map, hlen]; have := hpts.le; omega) (nodup_recoverPoints hpts)
    (fun off => by rw [List.length_map, hlen, Nat.min_eq_left (by omega)]; exact hdeg off)
    (fun i hi => by
      rw [List.length_map] at hi
      obtain ⟨s, hs1, hs2⟩ := exists_of_mem_recoverPoints (List.getElem_mem hi)
      rw [List.getD_eq_getElem _ _ (by simpa using hi), List.getElem_map,
        List.getD_eq_getElem _ _ (by simpa using hi), List.getElem_map, hs1]
      exact htrue s _ hs2)
  rw [hcs]
  dsimp only
  simp only [heval, Option.map_some]
  refine Eq.trans ?_ List.mapM_pure
  congr 1
  funext i
  by_cases hi : (dec.slot (.source i)).isSome
  · rw [if_pos (show (dec.src.getD i none).isSome from hi), if_pos hi]
    rfl
  · rw [if_neg (show ¬ (dec.src.getD i none).isSome from hi), if_neg hi]
    rfl

end Recover

/-! ## Histories -/

/-- What may happen to an encoder after its initialisation. Generating parity changes nothing. -/
inductive EncoderOp (α : Type)
  | addSource (data : α)
  | reset

/-- One operation; a rejected one leaves the encoder alone. -/
def EncoderOp.run (enc : FecEncoder α) : EncoderOp α → FecEncoder α
  | .addSource data => (fecEncoderAddSource enc data).getD enc
  | .reset => fecEncoderReset enc

/-- What may happen to a decoder after its initialisation. Recovery changes nothing. -/
inductive DecoderOp (α : Type)
  | addSource (index : ℤ) (data : α)
  | addRedundant (index : ℤ) (data : α)
  | reset

/-- One operation; a rejected one leaves the decoder alone. -/
def DecoderOp.run (dec : FecDecoder α) : DecoderOp α → FecDecoder α
  | .addSource index data => (fecDecoderAddSource dec index data).getD dec
  | .addRedundant index data => (fecDecoderAddRedundant dec index data).getD dec
  | .reset => fecDecoderReset dec

theorem fecEncoderReset_run (enc : FecEncoder α) (op : EncoderOp α) :
    fecEncoderReset (op.run enc) = fecEncoderReset enc := by
  cases op with
  | addSource data =>
    simp only [EncoderOp.run, fecEncoderAddSource]
    split_ifs <;> rfl
  | reset => rfl

theorem fecEncoderReset_foldl (ops : List (EncoderOp α)) (enc : FecEncoder α) :
    fecEncoderReset (ops.foldl EncoderOp.run enc) = fecEncoderReset enc := by
  induction ops generalizing enc with
  | nil => rfl
  | cons op ops ih => rw [List.foldl_cons, ih, fecEncoderReset_run]

theorem fecDecoderReset_run (dec : FecDecoder α) (op : DecoderOp α) :
    fecDecoderReset (op.run dec) = fecDecoderReset dec := by
  cases op with
  | addSource index data =>
    simp only [DecoderOp.run, fecDecoderAddSource]
    split_ifs <;> rfl
  | addRedundant index data =>
    simp only [DecoderOp.run, fecDecoderAddRedundant]
    split_ifs <;> rfl
  | reset => rfl

theorem fecDecoderReset_foldl (ops : List (DecoderOp α)) (dec : FecDecoder α) :
    fecDecoderReset (ops.foldl DecoderOp.run dec) = fecDecoderReset dec := by
  induction ops generalizing dec with
  | nil => rfl
  | cons op ops ih => rw [List.foldl_cons, ih, fecDecoderReset_run]

theorem addSources_eq {enc : FecEncoder α} {as : List α} (h : enc.filled + as.length ≤ enc.k) :
    addSources enc as = some { enc with src := enc.src ++ as } := by
  induction as generalizing enc with
  | nil => simp [addSources]
  | cons a as ih =>
    rw [List.length_cons] at h
    rw [addSources, fecEncoderAddSource, if_neg (by omega), Option.bind_some, ih]
    · simp
    · simp only [FecEncoder.filled, List.length_append, List.length_singleton] at h ⊢
      omega

/-- Adding one symbol to a decoder; a rejected symbol leaves the decoder alone. -/
def FecDecoder.add (dec : FecDecoder α) : Symbol × α → FecDecoder α
  | (.source i, a) => (fecDecoderAddSource dec i a).getD dec
  | (.redundant j, a) => (fecDecoderAddRedundant dec j a).getD dec

/-- The parameters of two decoders agree. -/
def SameParams (dec dec' : FecDecoder α) : Prop :=
  dec'.ctx = dec.ctx ∧ dec'.k = dec.k ∧ dec'.r = dec.r ∧ dec'.symLen = dec.symLen ∧
    dec'.srcX = dec.srcX ∧ dec'.redX = dec.redX

theorem FecDecoder.add_of_isSome {dec : FecDecoder α} {s : Symbol} (a : α)
    (h : (dec.slot s).isSome) : dec.add (s, a) = dec := by
  cases s with
  | source i =>
    have h : (dec.src.getD i none).isSome := h
    simp only [FecDecoder.add, fecDecoderAddSource, Int.toNat_natCast, h, if_true]
    split_ifs <;> rfl
  | redundant j =>
    have h : (dec.red.getD j none).isSome := h
    simp only [FecDecoder.add, fecDecoderAddRedundant, Int.toNat_natCast, h, if_true]
    split_ifs <;> rfl

theorem countP_set_some {l : List (Option α)} {i : ℕ} (hi : i < l.length)
    (h : l.getD i none = none) (a : α) :
    (l.set i (some a)).countP Option.isSome = l.countP Option.isSome + 1 := by
  induction l generalizing i with
  | nil => cases hi
  | cons o l ih =>
    cases i with
    | zero => simp_all
    | succ i =>
      have := ih (i := i) (by simpa using hi) (by simpa using h)
      simp only [List.set_cons_succ, List.countP_cons, this]
      omega

theorem getD_set_some (l : List (Option α)) {i : ℕ} (hi : i < l.length) (a : α) (j : ℕ) :
    (l.set i (some a)).getD j none = if j = i then some a else l.getD j none := by
  rw [List.getD_eq_getElem?_getD, List.getElem?_set, List.getD_eq_getElem?_getD]
  by_cases hij : j = i
  · subst hij
    simp [hi]
  · simp [hij, Ne.symm hij]

/-- **Adding a new symbol** fills its slot and counts it. -/
theorem FecDecoder.add_of_isNone {dec : FecDecoder α} (hok : DecoderOk dec) {s : Symbol}
    (hs : s.InRange dec.k dec.r) (a : α) (h : dec.slot s = none) :
    SameParams dec (dec.add (s, a)) ∧ DecoderOk (dec.add (s, a)) ∧
      (∀ t, (dec.add (s, a)).slot t = if t = s then some a else dec.slot t) ∧
      (dec.add (s, a)).srcCount + (dec.add (s, a)).redCount = dec.srcCount + dec.redCount + 1 := by
  cases s with
  | source i =>
    have hi : i < dec.src.length := by rw [hok.src_length]; exact hs
    have hadd : dec.add (.source i, a) =
        { dec with src := dec.src.set i (some a), srcCount := dec.srcCount + 1 } := by
      have hk : i < dec.k := hs
      have h : dec.src.getD i none = none := h
      simp only [FecDecoder.add, fecDecoderAddSource, Int.toNat_natCast, h]
      rw [if_neg (by omega)]
      rfl
    rw [hadd]
    refine ⟨⟨rfl, rfl, rfl, rfl, rfl, rfl⟩, ⟨?_, hok.red_length, ?_, hok.redCount⟩, ?_, ?_⟩
    · exact List.length_set.trans hok.src_length
    · exact (congrArg (· + 1) hok.srcCount).trans (countP_set_some hi h a).symm
    · rintro (j | j)
      · simp only [FecDecoder.slot, getD_set_some _ hi, Symbol.source.injEq]
      · simp only [FecDecoder.slot, reduceCtorEq, if_false]
    · dsimp only
      omega
  | redundant i =>
    have hi : i < dec.red.length := by rw [hok.red_length]; exact hs
    have hadd : dec.add (.redundant i, a) =
        { dec with red := dec.red.set i (some a), redCount := dec.redCount + 1 } := by
      have hk : i < dec.r := hs
      have h : dec.red.getD i none = none := h
      simp only [FecDecoder.add, fecDecoderAddRedundant, Int.toNat_natCast, h]
      rw [if_neg (by omega)]
      rfl
    rw [hadd]
    refine ⟨⟨rfl, rfl, rfl, rfl, rfl, rfl⟩, ⟨hok.src_length, ?_, hok.srcCount, ?_⟩, ?_, ?_⟩
    · exact List.length_set.trans hok.red_length
    · exact (congrArg (· + 1) hok.redCount).trans (countP_set_some hi h a).symm
    · rintro (j | j)
      · simp only [FecDecoder.slot, reduceCtorEq, if_false]
      · simp only [FecDecoder.slot, getD_set_some _ hi, Symbol.redundant.injEq]
    · dsimp only
      omega

/-- What a decoder holds after a feed: the first symbol fed to each slot. -/
structure Fed (dec : FecDecoder α) (feed : List (Symbol × α)) (dec' : FecDecoder α) : Prop where
  params : SameParams dec dec'
  ok : DecoderOk dec'
  slot : ∀ s, dec'.slot s = feed.lookup s
  count : dec'.srcCount + dec'.redCount = (feed.map Prod.fst).toFinset.card

theorem lookup_append_singleton (feed : List (Symbol × α)) (s : Symbol) (a : α) (t : Symbol) :
    (feed ++ [(s, a)]).lookup t = (feed.lookup t).or (if t = s then some a else none) := by
  induction feed with
  | nil =>
    by_cases hts : t = s
    · simp [hts]
    · simp [List.lookup_cons, hts, beq_eq_false_iff_ne.mpr hts]
  | cons p feed ih =>
    obtain ⟨u, b⟩ := p
    rw [List.cons_append, List.lookup_cons, List.lookup_cons, ih]
    cases t == u <;> rfl

theorem lookup_eq_none_iff_notMem (feed : List (Symbol × α)) (s : Symbol) :
    feed.lookup s = none ↔ s ∉ feed.map Prod.fst := by
  rw [List.lookup_eq_none_iff]
  constructor
  · intro h hs
    obtain ⟨p, hp, rfl⟩ := List.mem_map.mp hs
    simpa using h p hp
  · intro h p hp
    have : s ≠ p.1 := fun he => h (he ▸ List.mem_map_of_mem hp)
    simpa using this

theorem mem_of_lookup_eq_some {feed : List (Symbol × α)} {s : Symbol} {a : α}
    (h : feed.lookup s = some a) : (s, a) ∈ feed := by
  obtain ⟨l₁, l₂, hl, -⟩ := List.lookup_eq_some_iff.mp h
  rw [hl]
  simp

/-- **Feeding an empty decoder.** Repeated symbols are rejected, whatever they carry. -/
theorem fed_foldl {dec : FecDecoder α} (hok : DecoderOk dec) (hempty : ∀ s, dec.slot s = none)
    (hcount : dec.srcCount + dec.redCount = 0) (feed : List (Symbol × α))
    (hfeed : ∀ p ∈ feed, p.1.InRange dec.k dec.r) :
    Fed dec feed (feed.foldl FecDecoder.add dec) := by
  -- the invariant is carried along the feed, last symbol last
  induction feed using List.reverseRecOn with
  | nil => exact ⟨⟨rfl, rfl, rfl, rfl, rfl, rfl⟩, hok, fun s => hempty s, hcount⟩
  | append_singleton feed p ih =>
    obtain ⟨s, a⟩ := p
    have hprev := ih fun p hp => hfeed p (List.mem_append_left _ hp)
    have hs : s.InRange dec.k dec.r := hfeed (s, a) (by simp)
    rw [List.foldl_append]
    simp only [List.foldl_cons, List.foldl_nil]
    generalize feed.foldl FecDecoder.add dec = dec₁ at hprev
    by_cases hnone : feed.lookup s = none
    · have hslot : dec₁.slot s = none := (hprev.slot s).trans hnone
      obtain ⟨hp1, hp2, hp3, hp4, hp5, hp6⟩ := hprev.params
      obtain ⟨⟨q1, q2, q3, q4, q5, q6⟩, hok', hslot', hcount'⟩ :=
        FecDecoder.add_of_isNone hprev.ok (by rwa [hp2, hp3]) a hslot
      refine ⟨⟨q1.trans hp1, q2.trans hp2, q3.trans hp3, q4.trans hp4, q5.trans hp5,
        q6.trans hp6⟩, hok', fun t => ?_, ?_⟩
      · rw [hslot', lookup_append_singleton, hprev.slot]
        by_cases hts : t = s
        · simp [hts, hnone]
        · simp [hts]
      · rw [hcount', hprev.count, List.map_append, List.toFinset_append, Finset.union_comm]
        simp only [List.map_cons, List.map_nil, List.toFinset_cons, List.toFinset_nil,
          insert_empty_eq]
        rw [Finset.card_union_of_disjoint, Finset.card_singleton, Nat.add_comm]
        rw [Finset.disjoint_singleton_left, List.mem_toFinset]
        exact (lookup_eq_none_iff_notMem feed s).mp hnone
    · have hsome : (dec₁.slot s).isSome := by
        rw [hprev.slot, Option.isSome_iff_ne_none]
        exact hnone
      rw [FecDecoder.add_of_isSome a hsome]
      refine ⟨hprev.params, hprev.ok, fun t => ?_, ?_⟩
      · rw [hprev.slot, lookup_append_singleton]
        by_cases hts : t = s
        · obtain ⟨b, hb⟩ := Option.ne_none_iff_exists'.mp hnone
          simp [hts, hb]
        · simp [hts]
      · have hmem : s ∈ feed.map Prod.fst :=
          not_not.mp fun h => hnone ((lookup_eq_none_iff_notMem feed s).mpr h)
        rw [hprev.count, List.map_append, List.toFinset_append, Finset.union_eq_left.mpr]
        simpa using hmem

/-! ## The round trip -/

/-- The bytes of a symbol of a block with the given source and parity symbols. -/
def trueSymbol (sources parity : List Packet) : Symbol → Packet
  | .source i => sources.getD i []
  | .redundant j => parity.getD j []

theorem fecDecoderReset_ok (dec : FecDecoder α) : DecoderOk (fecDecoderReset dec) where
  src_length := List.length_replicate
  red_length := List.length_replicate
  srcCount := by simp [fecDecoderReset, List.countP_replicate]
  redCount := by simp [fecDecoderReset, List.countP_replicate]

theorem slot_fecDecoderReset (dec : FecDecoder α) (s : Symbol) :
    (fecDecoderReset dec).slot s = none := by
  cases s <;> simp [fecDecoderReset, FecDecoder.slot, List.getD_eq_getElem?_getD]

/-- A decoder with the default points starts out as if reset. -/
theorem exists_fecDecoderInit {k r : ℕ} (hgeo : fecGeometryOk k r) (symLen : ℕ) :
    ∃ dec : FecDecoder α, fecDecoderInit fecRsInit k r symLen none = some dec ∧
      dec.ctx = fecRsInit ∧ dec.k = k ∧ dec.r = r ∧ dec.symLen = symLen ∧ dec.srcX = fecSrcX k ∧
      dec.redX = fecRedX k r none ∧ fecDecoderReset dec = dec :=
  ⟨_, if_pos hgeo, rfl, rfl, rfl, rfl, rfl, rfl, rfl⟩

/-- **Recovery after a feed** of symbols whose first copies belong to the block of `ys`. -/
theorem fecDecoderRecover_of_fed {dec₀ dec : FecDecoder α} {feed : List (Symbol × α)}
    (hctx : dec₀.ctx = fecRsInit) (hpts : PointsOk dec₀.k dec₀.r dec₀.srcX dec₀.redX)
    (hfed : Fed dec₀ feed dec) (hrange : ∀ p ∈ feed, p.1.InRange dec₀.k dec₀.r)
    (mem : α → Packet) {ys : List Packet} (hys : ys.length = dec₀.k)
    (hlen : ∀ y ∈ ys, y.length = dec₀.symLen)
    (htrue : ∀ s a, feed.lookup s = some a →
      mem a = trueSymbol ys (blockParity dec₀.srcX dec₀.redX ys dec₀.symLen) s) :
    fecDecoderRecover mem dec =
      if (feed.map Prod.fst).toFinset.card < dec₀.k then none
      else some ((List.range dec₀.k).map fun i =>
        if Symbol.source i ∈ feed.map Prod.fst then none else some (ys.getD i [])) := by
  have hnd := (List.nodup_append.mp hpts.nodup).1
  have hOn : ∀ i < dec₀.k, OnPoly (blockPoly dec₀.srcX ys) dec₀.symLen (dec₀.srcX.getD i 0)
      (ys.getD i []) :=
    fun i hi => onPoly_blockPoly hnd _ _ (by rwa [hpts.srcX_length])
  obtain ⟨⟨hctx', hk, hr, hsl, hsx, hrx⟩, hok, hslot, hcount⟩ := hfed
  rw [fecDecoderRecover_eq (P := blockPoly dec₀.srcX ys) mem (hctx'.trans hctx)
    (by rwa [hk, hr, hsx, hrx]) hok
    (fun off => by rw [hk, ← hpts.srcX_length]; exact degree_blockPoly_lt hnd _ off), hcount, hk]
  · congr 2
    refine List.map_congr_left fun i hi => ?_
    have hi := List.mem_range.mp hi
    rw [hslot]
    by_cases hmem : Symbol.source i ∈ feed.map Prod.fst
    · rw [if_pos hmem, if_pos]
      rw [Option.isSome_iff_ne_none]
      exact fun h => (lookup_eq_none_iff_notMem feed _).mp h hmem
    · have hi' : i < ys.length := by rwa [hys]
      have hylen : (ys.getD i []).length = dec₀.symLen := by
        rw [List.getD_eq_getElem _ _ hi']
        exact hlen _ (List.getElem_mem _)
      rw [if_neg hmem, (lookup_eq_none_iff_notMem feed _).mpr hmem, if_neg (by simp), hsl,
        (hOn i hi).eq_evalPacket hylen, FecDecoder.point, hsx]
  · -- the symbols fed are values of the block's polynomials
    intro s a hsa
    rw [hslot] at hsa
    have hs := hrange (s, a) (mem_of_lookup_eq_some hsa)
    rw [htrue s a hsa, hsl]
    cases s with
    | source i =>
      rw [FecDecoder.point, hsx]
      exact hOn i hs
    | redundant j =>
      have hj : j < dec₀.redX.length := by rw [hpts.redX_length]; exact hs
      rw [FecDecoder.point, hrx, trueSymbol, blockParity,
        List.getD_eq_getElem (_ : List UInt8) _ hj,
        List.getD_eq_getElem (_ : List Packet) _ (by rwa [List.length_map]), List.getElem_map]
      exact onPoly_evalPacket _ _ _

/-- **Recovery from any `k` symbols.** Let an encoder and a decoder, initialised alike, be reset
after any use. Let the encoder generate the parity of `k` source symbols, and feed the decoder any
sequence of symbols whose first copies are true. With fewer than `k` distinct symbols recovery
fails; otherwise it writes the missing source symbols and nothing else. -/
theorem fecDecoderRecover_feed {k r : ℤ} {symLen : ℕ} {redX : Option (ℕ → UInt8)}
    {enc₀ : FecEncoder α} (hinit : fecEncoderInit fecRsInit k r symLen redX = some enc₀)
    (encOps : List (EncoderOp α)) (decOps : List (DecoderOp β)) (mem : α → Packet)
    (mem' : β → Packet) (src : List α) (hsrc : src.length = k.toNat)
    (hlen : ∀ a ∈ src, (mem a).length = symLen) :
    ∃ dec₀ enc parity, fecDecoderInit fecRsInit k r symLen redX = some dec₀ ∧
      addSources (fecEncoderReset (encOps.foldl EncoderOp.run enc₀)) src = some enc ∧
      fecEncoderGenerate mem enc = some parity ∧ parity.length = r.toNat ∧
      ∀ feed : List (Symbol × β), (∀ p ∈ feed, p.1.InRange k.toNat r.toNat) →
        (∀ s b, feed.lookup s = some b → mem' b = trueSymbol (src.map mem) parity s) →
        fecDecoderRecover mem' (feed.foldl FecDecoder.add
            (fecDecoderReset (decOps.foldl DecoderOp.run dec₀))) =
          if (feed.map Prod.fst).toFinset.card < k.toNat then none
          else some ((List.range k.toNat).map fun i =>
            if Symbol.source i ∈ feed.map Prod.fst then none
            else some ((src.map mem).getD i [])) := by
  obtain ⟨hgeo, hpts, henc⟩ := fecEncoderInit_eq_some hinit
  have hreset := fecEncoderReset_foldl encOps enc₀
  refine ⟨_, { enc₀ with src }, blockParity enc₀.srcX enc₀.redX (src.map mem) symLen, if_pos hgeo,
    ?_, ?_, ?_, fun feed hrange htrue => ?_⟩
  · rw [hreset, addSources_eq]
    · rfl
    · simp [fecEncoderReset, FecEncoder.filled, hsrc, henc]
  · subst henc
    exact fecEncoderGenerate_eq mem rfl hpts hsrc
  · rw [blockParity, List.length_map, hpts.redX_length]
  · subst henc
    rw [fecDecoderReset_foldl]
    generalize hd : fecDecoderReset _ = dec₁
    have hfed : Fed dec₁ feed (feed.foldl FecDecoder.add dec₁) := by
      subst hd
      exact fed_foldl (fecDecoderReset_ok _) (slot_fecDecoderReset _) rfl feed hrange
    have hctx : dec₁.ctx = fecRsInit := by
      rw [← hd]
      rfl
    subst hd
    exact fecDecoderRecover_of_fed hctx hpts hfed hrange mem' (by rwa [List.length_map])
      (List.forall_mem_map.mpr hlen) htrue

/-- The round trip at `k = 2`, `r = 1`: a used decoder gets the parity, a forged copy of it and
the second source, and returns the first source. -/
theorem fecDecoderRecover_feed_two_one :
    ∃ (dec₀ : FecDecoder Packet) (parity : List Packet),
      fecDecoderInit fecRsInit 2 1 1 none = some dec₀ ∧ parity.length = 1 ∧
      fecDecoderRecover id ([(.redundant 0, parity.getD 0 []), (.redundant 0, [9]),
          (.source 1, [7])].foldl FecDecoder.add
        (fecDecoderReset ([DecoderOp.addSource 0 [1]].foldl DecoderOp.run dec₀))) =
        some [some [5], none] := by
  obtain ⟨dec₀, enc, parity, hdec, -, -, hlen, hrec⟩ := @fecDecoderRecover_feed _ _ 2 1 1
    none _ rfl [] [DecoderOp.addSource 0 [1]] id id [[5], [7]] rfl (by simp)
  refine ⟨dec₀, parity, hdec, hlen, ?_⟩
  rw [hrec]
  · rfl
  · simp [Symbol.InRange]
  · intro s b hsb
    rcases s with (_ | _ | i) | (_ | j)
    · cases hsb
    · cases hsb
      rfl
    · cases hsb
    · cases hsb
      rfl
    · cases hsb

end LvlIp.Fec
