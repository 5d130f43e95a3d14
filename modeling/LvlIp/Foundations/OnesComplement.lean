import Mathlib.Data.Nat.ModEq
import Mathlib.Algebra.BigOperators.Group.List.Basic
import Mathlib.Tactic.Linarith
import Mathlib.Tactic.Ring

/-!
# One's complement sums

Addition of digits below a radix `b` with end-around carry: what overflows is added back in. A
number stands for its residue modulo `b - 1`, and zero has two representatives, `0` and `b - 1`; a
sum is the first one only if all its terms are zero (`onesSum_eq_onesRep`). So any way of adding up
that keeps the residue and does not make zero of something else computes the same digit
(`eq_onesRep`), and one that loses a power of the radix does not (`onesRep_sub_pow_ne`).

A digit that is made of two halves keeps its meaning when the halves change places, up to one factor
for all digits (`swapHalves_onesRep`).
-/

namespace LvlIp.Foundations

variable {b c m n : ℕ}

/-- Addition with end-around carry. -/
def onesAdd (b x y : ℕ) : ℕ := (x + y) % b + (x + y) / b

/-- The sum of a list of digits. -/
def onesSum (b : ℕ) (ws : List ℕ) : ℕ := ws.foldl (onesAdd b) 0

/-- The digit that stands for a number. -/
def onesRep (b n : ℕ) : ℕ := if n = 0 then 0 else (n - 1) % (b - 1) + 1

@[simp] theorem onesRep_zero : onesRep b 0 = 0 := rfl

theorem onesRep_lt (hb : 1 < b) : onesRep b n < b := by
  unfold onesRep
  have := Nat.mod_lt (n - 1) (show 0 < b - 1 by omega)
  split <;> omega

theorem onesRep_eq_zero_iff : onesRep b n = 0 ↔ n = 0 := by
  unfold onesRep
  split <;> simp_all

theorem onesRep_modEq (b n : ℕ) : onesRep b n ≡ n [MOD b - 1] := by
  unfold onesRep
  split
  · next h => rw [h]
  · next h =>
    have hmod : (n - 1) % (b - 1) + 1 ≡ n - 1 + 1 [MOD b - 1] := (Nat.mod_modEq _ _).add_right 1
    rwa [Nat.sub_add_cancel (Nat.pos_of_ne_zero h)] at hmod

/-- **A digit is determined** by its residue and by whether it is zero. -/
theorem eq_onesRep (hm : m < b) (hmod : m ≡ n [MOD b - 1]) (hzero : m = 0 ↔ n = 0) :
    m = onesRep b n := by
  have hrep := hmod.trans (onesRep_modEq b n).symm
  have hlt := @onesRep_lt b n
  have hz := @onesRep_eq_zero_iff b n
  by_cases h0 : n = 0
  · rw [h0, hzero.mpr h0, onesRep_zero]
  · have hm0 : m ≠ 0 := fun h => h0 (hzero.mp h)
    have hr0 : onesRep b n ≠ 0 := fun h => h0 (hz.mp h)
    -- both are between 1 and b - 1, so the residues of their predecessors are they themselves
    have hpred : m - 1 ≡ onesRep b n - 1 [MOD b - 1] := by
      refine Nat.ModEq.add_right_cancel' 1 ?_
      rwa [Nat.sub_add_cancel (Nat.pos_of_ne_zero hm0), Nat.sub_add_cancel (Nat.pos_of_ne_zero hr0)]
    have heq := hpred.eq_of_lt_of_lt (by omega) (by have := hlt (by omega); omega)
    omega

theorem onesRep_eq_iff (hb : 1 < b) :
    onesRep b m = onesRep b n ↔ m ≡ n [MOD b - 1] ∧ (m = 0 ↔ n = 0) := by
  constructor
  · intro h
    refine ⟨(onesRep_modEq b m).symm.trans (h ▸ onesRep_modEq b n), ?_⟩
    rw [← @onesRep_eq_zero_iff b m, ← @onesRep_eq_zero_iff b n, h]
  · rintro ⟨hmod, hzero⟩
    exact eq_onesRep (onesRep_lt hb) ((onesRep_modEq b m).trans hmod)
      (onesRep_eq_zero_iff.trans hzero)

theorem radix_modEq (hb : 1 < b) : b ≡ 1 [MOD b - 1] := by
  have h := Nat.ModEq.add_right 1 (show b - 1 ≡ 0 [MOD b - 1] from Nat.mod_self _)
  rwa [Nat.sub_add_cancel hb.le, zero_add] at h

/-- Folding the carry back in keeps what a number stands for. -/
theorem mod_add_div_modEq (hb : 1 < b) (n : ℕ) : n % b + n / b ≡ n [MOD b - 1] := by
  have h := (Nat.ModEq.refl (n % b)).add ((radix_modEq hb).symm.mul_right (n / b))
  rwa [one_mul, Nat.mod_add_div] at h

theorem mod_add_div_eq_zero_iff : n % b + n / b = 0 ↔ n = 0 := by
  constructor
  · intro h
    obtain ⟨hmod, hdiv⟩ := Nat.add_eq_zero_iff.mp h
    rw [← Nat.mod_add_div n b, hmod, hdiv]
    simp
  · rintro rfl
    simp

theorem onesAdd_eq_onesRep (hb : 1 < b) (hm : m < b) (hn : n < b) :
    onesAdd b m n = onesRep b (m + n) := by
  refine eq_onesRep ?_ (mod_add_div_modEq hb _) mod_add_div_eq_zero_iff
  unfold onesAdd
  rcases Nat.lt_or_ge (m + n) b with h | h
  · rw [Nat.mod_eq_of_lt h, Nat.div_eq_of_lt h]
    omega
  · have hdiv : (m + n) / b = 1 := Nat.div_eq_of_lt_le (by omega) (by omega)
    rw [hdiv, Nat.mod_eq_sub_mod h, Nat.mod_eq_of_lt (by omega)]
    omega

/-- **A one's complement sum** is the digit of the sum. -/
theorem onesSum_eq_onesRep (hb : 1 < b) {ws : List ℕ} (hws : ∀ w ∈ ws, w < b) :
    onesSum b ws = onesRep b ws.sum := by
  have key : ∀ acc < b, ws.foldl (onesAdd b) acc = onesRep b (acc + ws.sum) := by
    induction ws with
    | nil => exact fun acc hacc => eq_onesRep hacc rfl Iff.rfl
    | cons w ws ih =>
      intro acc hacc
      have hw := hws w List.mem_cons_self
      have hadd := onesAdd_eq_onesRep hb hacc hw
      rw [List.foldl_cons, ih (fun v hv => hws v (List.mem_cons_of_mem w hv)) _
        (hadd ▸ onesRep_lt hb), hadd, onesRep_eq_iff hb, List.sum_cons, ← add_assoc]
      refine ⟨(onesRep_modEq b _).add_right _, ?_⟩
      have hz := @onesRep_eq_zero_iff b (acc + w)
      omega
  have h := key 0 (by omega)
  rwa [zero_add] at h

/-- The complement of a sum, added to it, is the other zero. -/
theorem onesRep_add_complement (hb : 1 < b) (hn : n ≠ 0) :
    onesRep b (n + (b - 1 - onesRep b n)) = b - 1 := by
  refine (eq_onesRep (by omega) ?_ (by omega)).symm
  have hlt := @onesRep_lt b n hb
  have h := (onesRep_modEq b n).add_right (b - 1 - onesRep b n)
  rwa [Nat.add_sub_cancel' (by omega)] at h

/-- **Losing multiples of a power of the radix** changes the digit. -/
theorem onesRep_sub_pow_ne (hb : 1 < b) {e k : ℕ} (hk : 0 < k) (hkb : k < b - 1)
    (hle : k * b ^ e ≤ n) : onesRep b (n - k * b ^ e) ≠ onesRep b n := by
  intro h
  have hmod := ((onesRep_eq_iff hb).mp h).1
  have hpow : k * b ^ e ≡ k [MOD b - 1] := by
    have h := ((radix_modEq hb).pow e).mul_left k
    rwa [one_pow, mul_one] at h
  -- adding back what was lost gives n on one side and n + k on the other
  have hback := hmod.add hpow
  rw [Nat.sub_add_cancel hle] at hback
  have hzero : k ≡ 0 [MOD b - 1] := by
    refine Nat.ModEq.add_left_cancel' n ?_
    simpa using hback.symm
  have hk0 := hzero.eq_of_lt_of_lt hkb (by omega)
  omega

/-! ## Halves -/

/-- The two halves of a digit of radix `c * c` change places. -/
def swapHalves (c x : ℕ) : ℕ := x % c * c + x / c

theorem swapHalves_modEq (hc : 1 < c) (x : ℕ) : swapHalves c x ≡ x * c [MOD c * c - 1] := by
  have hcc : 1 < c * c := by nlinarith
  have h := (Nat.ModEq.refl (x % c * c)).add ((radix_modEq hcc).mul_left (x / c))
  rw [mul_one] at h
  have hx : x % c * c + x / c * (c * c) = x * c := by
    calc x % c * c + x / c * (c * c) = (x % c + c * (x / c)) * c := by ring
      _ = x * c := by rw [Nat.mod_add_div]
  rw [hx] at h
  exact h.symm

theorem swapHalves_lt {x : ℕ} (hx : x < c * c) : swapHalves c x < c * c := by
  have hc : 0 < c := by
    rcases Nat.eq_zero_or_pos c with h | h
    · simp [h] at hx
    · exact h
  have hmod := Nat.mod_lt x hc
  have hdiv : x / c < c := Nat.div_lt_of_lt_mul hx
  unfold swapHalves
  nlinarith

theorem swapHalves_eq_zero_iff (hc : 1 < c) {x : ℕ} : swapHalves c x = 0 ↔ x = 0 := by
  unfold swapHalves
  rw [Nat.add_eq_zero_iff, Nat.mul_eq_zero, or_iff_left (by omega), ← Nat.add_eq_zero_iff]
  exact mod_add_div_eq_zero_iff

theorem swapHalves_onesRep (hc : 1 < c) :
    swapHalves c (onesRep (c * c) n) = onesRep (c * c) (n * c) := by
  have hcc : 1 < c * c := by nlinarith
  refine eq_onesRep (swapHalves_lt (onesRep_lt hcc)) ?_ ?_
  · exact (swapHalves_modEq hc _).trans ((onesRep_modEq (c * c) n).mul_right c)
  · rw [swapHalves_eq_zero_iff hc, onesRep_eq_zero_iff, Nat.mul_eq_zero]
    constructor
    · exact .inl
    · rintro (h | h)
      · exact h
      · omega

theorem swapHalves_complement {x : ℕ} (hx : x < c * c) :
    swapHalves c (c * c - 1 - x) = c * c - 1 - swapHalves c x := by
  have hc : 0 < c := by
    rcases Nat.eq_zero_or_pos c with h | h
    · simp [h] at hx
    · exact h
  have hmod := Nat.mod_lt x hc
  have hdiv : x / c < c := Nat.div_lt_of_lt_mul hx
  have hsum := Nat.mod_add_div x c
  obtain ⟨d, hd⟩ : ∃ d, c = x / c + 1 + d := ⟨c - (x / c + 1), by omega⟩
  obtain ⟨e, he⟩ : ∃ e, c = x % c + 1 + e := ⟨c - (x % c + 1), by omega⟩
  -- the halves of the complement are the complements of the halves
  have hparts : e + c * d = c * c - 1 - x := by
    have hcc : c * c = c * (x / c + 1 + d) := congrArg (c * ·) hd
    rw [hcc]
    have : c * (x / c + 1 + d) = c * (x / c) + c + c * d := by ring
    omega
  have hhalves := (Nat.div_mod_unique hc).mpr ⟨hparts, by omega⟩
  unfold swapHalves
  rw [hhalves.1, hhalves.2]
  have hcc : c * c = (x % c + 1 + e) * c := congrArg (· * c) he
  have : (x % c + 1 + e) * c = x % c * c + c + e * c := by ring
  omega

end LvlIp.Foundations
