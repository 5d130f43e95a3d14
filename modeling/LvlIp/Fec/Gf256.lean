import Mathlib.Data.Fintype.EquivFin
import Mathlib.Data.List.GetD
import Mathlib.Dynamics.PeriodicPts.Lemmas
import Mathlib.NumberTheory.Divisors
import LvlIp.Foundations.OrbitField

/-!
# The field of the byte tables

`include/fec.h` and `fec_rs_init` of `src/fec.c`: the exponent and logarithm tables of GF(256) for
the reduction polynomial `0x11d`, and the byte operations that read them.

The tables are built by repeatedly shifting a 16-bit word and reducing it. On bytes one such
iteration is an additive map (`byteStep_xor`), and it runs through all 255 nonzero bytes
(`exists_iterate_eq`), so the tables present a field in the sense of `OrbitData`: `Gf256`, the
bytes under exclusive or, with `toGf_gf256Mul` and `toGf_gf256Inv` saying that the table
operations are the field's.
-/

namespace LvlIp.Fec

open Foundations

/-! ## The tables -/

/-- `FEC_GF_PRIMITIVE_POLY`. -/
def fecGfPrimitivePoly : UInt16 := 0x11d

/-- `struct fec_rs_ctx`: the exponent table, doubled, and the logarithm table. -/
structure FecRsCtx where
  expLut : Vector UInt8 512
  logLut : Vector UInt8 256

/-- A table lookup. The callers' indices are in range. -/
def lutGet {n : ℕ} (lut : Vector UInt8 n) (i : ℕ) : UInt8 := lut[i]?.getD 0

/-- The update of `x` at the end of an iteration of the table loop. -/
def fecRsNext (x : UInt16) : UInt16 :=
  let x := x <<< 1
  if x &&& 0x100 ≠ 0 then x ^^^ fecGfPrimitivePoly else x

/-- One iteration of the loop that fills both tables, at index `i`. -/
def fecRsFill (st : UInt16 × FecRsCtx) (i : ℕ) : UInt16 × FecRsCtx :=
  (fecRsNext st.1,
    { expLut := st.2.expLut.setIfInBounds i st.1.toUInt8
      logLut := st.2.logLut.setIfInBounds st.1.toNat (UInt8.ofNat i) })

/-- One iteration of the loop that doubles the exponent table, at index `i`. -/
def fecRsDouble (lut : Vector UInt8 512) (i : ℕ) : Vector UInt8 512 :=
  lut.setIfInBounds i (lutGet lut (i - 255))

/-- The cleared context. -/
def fecRsZero : FecRsCtx := ⟨Vector.replicate 512 0, Vector.replicate 256 0⟩

/-- The tables after the first loop of `fec_rs_init`. -/
def fecRsTables : FecRsCtx := ((List.range 255).foldl fecRsFill (1, fecRsZero)).2

/-- `fec_rs_init`. -/
def fecRsInit : FecRsCtx :=
  { fecRsTables with expLut := (List.range' 255 257).foldl fecRsDouble fecRsTables.expLut }

/-- `gf256_add`. -/
def gf256Add (a b : UInt8) : UInt8 := a ^^^ b

/-- `gf256_mul`. -/
def gf256Mul (ctx : FecRsCtx) (a b : UInt8) : UInt8 :=
  if a = 0 ∨ b = 0 then 0
  else lutGet ctx.expLut ((lutGet ctx.logLut a.toNat).toNat + (lutGet ctx.logLut b.toNat).toNat)

/-- `gf256_inv`. -/
def gf256Inv (ctx : FecRsCtx) (a : UInt8) : UInt8 :=
  if a = 0 then 0 else lutGet ctx.expLut (255 - (lutGet ctx.logLut a.toNat).toNat)

/-! ## One iteration on bytes -/

/-- The iteration of the table loop, on the byte it stores. -/
def byteStep (b : UInt8) : UInt8 := (fecRsNext b.toUInt16).toUInt8

theorem fecRsNext_toUInt16 (b : UInt8) : fecRsNext b.toUInt16 = (byteStep b).toUInt16 := by
  have h : ∀ i : Fin 256,
      fecRsNext (UInt8.ofFin i).toUInt16 = (byteStep (.ofFin i)).toUInt16 := by decide +kernel
  exact h b.toFin

theorem iterate_fecRsNext (n : ℕ) : fecRsNext^[n] 1 = (byteStep^[n] 1).toUInt16 := by
  have h : Function.Semiconj UInt8.toUInt16 byteStep fecRsNext :=
    fun b => (fecRsNext_toUInt16 b).symm
  exact (h.iterate_right n 1).symm

/-- The iteration as a shift and a conditional reduction of an 8-bit word. -/
theorem toBitVec_byteStep (b : UInt8) : (byteStep b).toBitVec =
    (b.toBitVec <<< 1) ^^^ (if b.toBitVec.msb then 0x1d#8 else 0#8) := by
  have h : ∀ i : Fin 256, (byteStep (.ofFin i)).toBitVec = ((UInt8.ofFin i).toBitVec <<< 1) ^^^
      (if (UInt8.ofFin i).toBitVec.msb then 0x1d#8 else 0#8) := by decide +kernel
  exact h b.toFin

/-- **The iteration is additive**, for exclusive or. -/
theorem byteStep_xor (a b : UInt8) : byteStep (a ^^^ b) = byteStep a ^^^ byteStep b := by
  apply UInt8.toBitVec_inj.mp
  have hred : ∀ p q : Bool, (if (p ^^ q) then 0x1d#8 else 0#8) =
      (if p then 0x1d#8 else 0#8) ^^^ (if q then 0x1d#8 else 0#8) := by decide
  simp only [UInt8.toBitVec_xor, toBitVec_byteStep, BitVec.shiftLeft_xor_distrib, BitVec.msb_xor,
    hred]
  ac_rfl

theorem iterate_byteStep_ne_zero (n : ℕ) : byteStep^[n] 1 ≠ 0 := by
  have h : ∀ i : Fin 256, byteStep (.ofFin i) = 0 → UInt8.ofFin i = 0 := by decide +kernel
  induction n with
  | zero => decide
  | succ n ih =>
    rw [Function.iterate_succ_apply']
    exact fun h0 => ih (h _ h0)

theorem iterate_byteStep_period : byteStep^[255] 1 = 1 := by decide +kernel

/-- The orbit of `1` has length exactly 255: no maximal proper divisor of 255 is a period. -/
theorem minimalPeriod_byteStep : Function.minimalPeriod byteStep 1 = 255 := by
  have hdvd : Function.minimalPeriod byteStep 1 ∣ 255 :=
    Function.IsPeriodicPt.minimalPeriod_dvd iterate_byteStep_period
  have hno : ∀ m, byteStep^[m] 1 ≠ 1 → ¬ Function.minimalPeriod byteStep 1 ∣ m :=
    fun m hm h => hm (Function.isPeriodicPt_iff_minimalPeriod_dvd.mpr h)
  have h85 := hno 85 (by decide +kernel)
  have h51 := hno 51 (by decide +kernel)
  have h15 := hno 15 (by decide +kernel)
  have hdiv : ∀ d ∈ Nat.divisors 255, d ∣ 85 ∨ d ∣ 51 ∨ d ∣ 15 ∨ d = 255 := by decide +kernel
  rcases hdiv _ (Nat.mem_divisors.mpr ⟨hdvd, by decide⟩) with h | h | h | h
  · exact absurd h h85
  · exact absurd h h51
  · exact absurd h h15
  · exact h

theorem iterate_byteStep_inj {i j : ℕ} (hi : i < 255) (hj : j < 255)
    (h : byteStep^[i] 1 = byteStep^[j] 1) : i = j :=
  Function.iterate_injOn_Iio_minimalPeriod (by rw [minimalPeriod_byteStep]; exact hi)
    (by rw [minimalPeriod_byteStep]; exact hj) h

/-- **Every nonzero byte is a power**: 255 distinct nonzero values exhaust the nonzero bytes. -/
theorem exists_iterate_eq {a : UInt8} (ha : a ≠ 0) : ∃ i < 255, byteStep^[i] 1 = a := by
  let f : Fin 255 → {b : Fin 256 // b ≠ 0} := fun i =>
    ⟨(byteStep^[i] 1).toFin, fun h => iterate_byteStep_ne_zero i (UInt8.toFin_inj.mp h)⟩
  have hf : Function.Injective f := fun i j h =>
    Fin.ext (iterate_byteStep_inj i.isLt j.isLt (UInt8.toFin_inj.mp (congrArg Subtype.val h)))
  have hcard : Fintype.card (Fin 255) = Fintype.card {b : Fin 256 // b ≠ 0} := by
    rw [Fintype.card_subtype_compl, Fintype.card_subtype_eq, Fintype.card_fin, Fintype.card_fin]
  obtain ⟨i, hi⟩ := ((Fintype.bijective_iff_injective_and_card f).mpr ⟨hf, hcard⟩).2
    ⟨a.toFin, fun h => ha (UInt8.toFin_inj.mp h)⟩
  exact ⟨i, i.isLt, UInt8.toFin_inj.mp (congrArg Subtype.val hi)⟩

/-! ## What the tables hold -/

/-- The invariant of the table loop after `n` iterations. -/
structure Filled (n : ℕ) (st : UInt16 × FecRsCtx) : Prop where
  word : st.1 = fecRsNext^[n] 1
  exp : ∀ i < n, lutGet st.2.expLut i = byteStep^[i] 1
  log : ∀ i < n, lutGet st.2.logLut (byteStep^[i] 1).toNat = UInt8.ofNat i

theorem lutGet_setIfInBounds {n : ℕ} (v : Vector UInt8 n) (i j : ℕ) (x : UInt8) (hi : i < n) :
    lutGet (v.setIfInBounds i x) j = if j = i then x else lutGet v j := by
  simp only [lutGet, Vector.getElem?_setIfInBounds, hi, if_true, eq_comm (a := j)]
  split_ifs <;> rfl

theorem Filled.succ {n : ℕ} {st : UInt16 × FecRsCtx} (h : Filled n st) (hn : n < 255) :
    Filled (n + 1) (fecRsFill st n) := by
  have hw : st.1 = (byteStep^[n] 1).toUInt16 := h.word.trans (iterate_fecRsNext n)
  have hbyte : st.1.toUInt8 = byteStep^[n] 1 := by rw [hw]; exact UInt8.toUInt8_toUInt16 _
  have hnat : st.1.toNat = (byteStep^[n] 1).toNat := by rw [hw]; exact UInt8.toNat_toUInt16 _
  refine ⟨?_, fun i hi => ?_, fun i hi => ?_⟩
  · rw [Function.iterate_succ_apply', ← h.word]
    rfl
  · simp only [fecRsFill, lutGet_setIfInBounds _ _ _ _ (show n < 512 by omega), hbyte]
    split_ifs with hin
    · rw [hin]
    · exact h.exp i (by omega)
  · have hlt : (byteStep^[n] 1).toNat < 256 := UInt8.toNat_lt _
    simp only [fecRsFill, hnat, lutGet_setIfInBounds _ _ _ _ hlt]
    split_ifs with hin
    · rw [iterate_byteStep_inj (by omega) hn (UInt8.toNat_inj.mp hin)]
    · have hne : i ≠ n := fun he => hin (by rw [he])
      exact h.log i (by omega)

theorem filled_foldl (n : ℕ) (hn : n ≤ 255) :
    Filled n ((List.range n).foldl fecRsFill (1, fecRsZero)) := by
  induction n with
  | zero => exact ⟨rfl, fun _ h => absurd h (by omega), fun _ h => absurd h (by omega)⟩
  | succ n ih =>
    rw [List.range_succ, List.foldl_append]
    exact (ih (by omega)).succ (by omega)

/-- After `n` iterations of the doubling loop the table repeats with period 255 below `255 + n`. -/
theorem lutGet_foldl_fecRsDouble (lut : Vector UInt8 512)
    (hlut : ∀ i < 255, lutGet lut i = byteStep^[i] 1) (n : ℕ) (hn : n ≤ 257) :
    ∀ i < 255 + n, lutGet ((List.range' 255 n).foldl fecRsDouble lut) i = byteStep^[i] 1 := by
  induction n with
  | zero => exact hlut
  | succ n ih =>
    intro i hi
    have ih := ih (by omega)
    rw [List.range'_concat, List.foldl_append]
    simp only [List.foldl_cons, List.foldl_nil, Nat.one_mul, fecRsDouble,
      lutGet_setIfInBounds _ _ _ _ (show 255 + n < 512 by omega)]
    split_ifs with hin
    · have hper : byteStep^[n + 255] 1 = byteStep^[n] 1 := by
        rw [Function.iterate_add_apply, iterate_byteStep_period]
      rw [ih _ (by omega), hin, Nat.add_sub_cancel_left, Nat.add_comm, hper]
    · exact ih i (by omega)

theorem lutGet_expLut_fecRsTables : ∀ i < 255, lutGet fecRsTables.expLut i = byteStep^[i] 1 := by
  rw [fecRsTables]
  exact (filled_foldl 255 le_rfl).exp

/-- **The exponent table holds the powers of the generator.** -/
theorem expLut_fecRsInit {i : ℕ} (hi : i < 512) : lutGet fecRsInit.expLut i = byteStep^[i] 1 := by
  rw [fecRsInit, lutGet_foldl_fecRsDouble _ lutGet_expLut_fecRsTables 257 le_rfl i (by omega)]

/-- **The logarithm table inverts the exponent table.** -/
theorem logLut_fecRsInit {i : ℕ} (hi : i < 255) :
    (lutGet fecRsInit.logLut (byteStep^[i] 1).toNat).toNat = i := by
  rw [fecRsInit, fecRsTables, (filled_foldl 255 le_rfl).log i hi, UInt8.toNat_ofNat',
    Nat.mod_eq_of_lt (by omega)]

/-! ## The field -/

/-- The bytes under exclusive or and the table product. -/
structure Gf256 where
  toGf ::
  val : UInt8
  deriving DecidableEq

export Gf256 (toGf)

namespace Gf256

instance : Zero Gf256 := ⟨toGf 0⟩
instance : Add Gf256 := ⟨fun a b => toGf (a.val ^^^ b.val)⟩
instance : Neg Gf256 := ⟨id⟩

@[ext] theorem ext {a b : Gf256} (h : a.val = b.val) : a = b := by
  cases a; cases b; exact congrArg toGf h

@[simp] theorem val_add (a b : Gf256) : (a + b).val = a.val ^^^ b.val := rfl

@[simp] theorem val_zero : (0 : Gf256).val = 0 := rfl

instance : AddCommGroup Gf256 where
  add_assoc a b c := ext (UInt8.xor_assoc ..)
  zero_add a := ext (UInt8.zero_xor ..)
  add_zero a := ext (UInt8.xor_zero ..)
  add_comm a b := ext (UInt8.xor_comm ..)
  neg_add_cancel a := ext UInt8.xor_self
  nsmul := nsmulRec
  zsmul := zsmulRec

/-- The iteration of the table loop, as an additive map. -/
def stepHom : Gf256 →+ Gf256 where
  toFun a := toGf (byteStep a.val)
  map_zero' := by decide +kernel
  map_add' a b := ext (byteStep_xor a.val b.val)

theorem val_iterate_stepHom (n : ℕ) (a : Gf256) :
    (stepHom^[n] a).val = byteStep^[n] a.val := by
  have h : Function.Semiconj Gf256.val stepHom byteStep := fun _ => rfl
  exact h.iterate_right n a

/-- **The tables present a field.** -/
def orbit : OrbitData Gf256 where
  step := stepHom
  one := toGf 1
  period := 255
  log a := (lutGet fecRsInit.logLut a.val.toNat).toNat
  iterate_period := ext ((val_iterate_stepHom ..).trans iterate_byteStep_period)
  iterate_ne_zero i h := iterate_byteStep_ne_zero i
    ((val_iterate_stepHom i (toGf 1)).symm.trans (congrArg val h))
  log_le a := by
    have := UInt8.toNat_lt (lutGet fecRsInit.logLut a.val.toNat)
    omega
  iterate_log a ha := by
    obtain ⟨i, hi, h⟩ := exists_iterate_eq fun h => ha (ext h)
    apply ext
    rw [val_iterate_stepHom, ← h, logLut_fecRsInit hi]

noncomputable instance : Field Gf256 := orbit.field

theorem val_exp (i : ℕ) (hi : i < 512) : (orbit.exp i).val = lutGet fecRsInit.expLut i :=
  (val_iterate_stepHom ..).trans (expLut_fecRsInit hi).symm

end Gf256

theorem toGf_inj {a b : UInt8} : toGf a = toGf b ↔ a = b :=
  ⟨fun h => congrArg Gf256.val h, fun h => congrArg toGf h⟩

@[simp] theorem toGf_val (a : Gf256) : toGf a.val = a := rfl

@[simp] theorem toGf_zero : toGf 0 = 0 := rfl

@[simp] theorem toGf_one : toGf 1 = 1 := rfl

@[simp] theorem toGf_gf256Add (a b : UInt8) : toGf (gf256Add a b) = toGf a + toGf b := rfl

/-- **`gf256_mul` is the product of the field.** -/
@[simp] theorem toGf_gf256Mul (a b : UInt8) :
    toGf (gf256Mul fecRsInit a b) = toGf a * toGf b := by
  change toGf (gf256Mul fecRsInit a b) = Gf256.orbit.mul (toGf a) (toGf b)
  unfold gf256Mul OrbitData.mul
  simp only [← toGf_zero, toGf_inj]
  split_ifs
  · rfl
  · have h := UInt8.toNat_lt (lutGet fecRsInit.logLut a.toNat)
    have h' := UInt8.toNat_lt (lutGet fecRsInit.logLut b.toNat)
    exact Gf256.ext (Gf256.val_exp _ (by omega)).symm

/-- **`gf256_inv` is the inverse of the field.** -/
@[simp] theorem toGf_gf256Inv (a : UInt8) : toGf (gf256Inv fecRsInit a) = (toGf a)⁻¹ := by
  change toGf (gf256Inv fecRsInit a) = Gf256.orbit.inv (toGf a)
  unfold gf256Inv OrbitData.inv
  simp only [← toGf_zero, toGf_inj]
  split_ifs
  · rfl
  · exact Gf256.ext (Gf256.val_exp _ (by omega)).symm

/-- Subtraction is addition. -/
theorem Gf256.sub_eq_add (a b : Gf256) : a - b = a + b := rfl

end LvlIp.Fec
