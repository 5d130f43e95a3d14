import Mathlib.Data.Finset.Card
import Mathlib.Order.Defs.LinearOrder
import Mathlib.Data.Finset.Lattice.Basic

/-!
# The largest elements of a finite set

The `n` largest elements of a finite set in a linear order, all of them when there are no more than
`n` (`newest`). A subset is that set when it has no gap above it and the right number of elements
(`newest_eq`), which is how a store of bounded size that replaces its least element keeps it.
-/

namespace LvlIp.Foundations

variable {α : Type*} [LinearOrder α]

/-- The `n` largest elements of `S`: those with less than `n` larger ones. -/
def newest (n : ℕ) (S : Finset α) : Finset α := S.filter fun x => (S.filter (x < ·)).card < n

/-- The set `T` is an upper part of `S`, with `n` elements or all of `S`. -/
structure IsNewest (n : ℕ) (S T : Finset α) : Prop where
  subset : T ⊆ S
  upper : ∀ x ∈ T, ∀ y ∈ S, x < y → y ∈ T
  card : T.card = n ∨ T = S ∧ T.card ≤ n

variable {n : ℕ} {S T : Finset α}

/-- **The upper part with `n` elements** is the set of the `n` largest ones. -/
theorem IsNewest.newest_eq (h : IsNewest n S T) : newest n S = T := by
  have hle : T.card ≤ n := h.card.elim (·.le) (·.2)
  ext x
  rw [newest, Finset.mem_filter]
  constructor
  · rintro ⟨hx, hlt⟩
    by_contra hxT
    rcases h.card with hcard | ⟨rfl, -⟩
    · -- everything in `T` is larger than `x`
      refine absurd hlt (not_lt.mpr (hcard ▸ Finset.card_le_card fun t ht => ?_))
      rw [Finset.mem_filter]
      refine ⟨h.subset ht, lt_of_not_ge fun hle => hxT ?_⟩
      rcases hle.eq_or_lt with rfl | hlt
      · exact ht
      · exact h.upper t ht x hx hlt
    · exact hxT hx
  · intro hx
    refine ⟨h.subset hx, lt_of_lt_of_le (Finset.card_lt_card ?_) hle⟩
    refine Finset.ssubset_iff_of_subset (fun y hy => ?_) |>.mpr ⟨x, hx, by simp⟩
    rw [Finset.mem_filter] at hy
    exact h.upper x hx y hy.1 hy.2

theorem isNewest_empty (n : ℕ) : IsNewest n (∅ : Finset α) ∅ :=
  ⟨subset_rfl, fun _ hx => absurd hx (Finset.notMem_empty _), .inr ⟨rfl, n.zero_le⟩⟩

/-- An element that is there already. -/
theorem IsNewest.insert_mem (h : IsNewest n S T) {a : α} (ha : a ∈ T) :
    IsNewest n (insert a S) T := by
  rwa [Finset.insert_eq_of_mem (h.subset ha)]

/-- There is room for one more. -/
theorem IsNewest.insert_room (h : IsNewest n S T) {a : α} (hroom : T.card < n) (ha : a ∉ T) :
    IsNewest n (insert a S) (insert a T) := by
  obtain ⟨rfl, -⟩ := h.card.resolve_left hroom.ne
  refine ⟨subset_rfl, fun _ _ y hy _ => hy, .inr ⟨rfl, ?_⟩⟩
  rw [Finset.card_insert_of_notMem ha]
  exact hroom

/-- **The least element makes room** for a larger one. -/
theorem IsNewest.replace (h : IsNewest n S T) (hfull : T.card = n) {a m : α} (hm : m ∈ T)
    (hmin : ∀ x ∈ T, m ≤ x) (hlt : m < a) (ha : a ∉ T) :
    IsNewest n (insert a S) (insert a (T.erase m)) := by
  refine ⟨Finset.insert_subset_insert _ ((Finset.erase_subset _ _).trans h.subset), ?_, .inl ?_⟩
  · intro x hx y hy hxy
    rw [Finset.mem_insert] at hy ⊢
    refine hy.imp_right fun hy => ?_
    have hmx : m ≤ x := by
      rcases Finset.mem_insert.mp hx with rfl | hx
      · exact hlt.le
      · exact hmin x (Finset.mem_of_mem_erase hx)
    have hmy : m < y := hmx.trans_lt hxy
    exact Finset.mem_erase.mpr ⟨hmy.ne', h.upper m hm y hy hmy⟩
  · rw [Finset.card_insert_of_notMem fun hmem => ha (Finset.mem_of_mem_erase hmem),
      Finset.card_erase_of_mem hm, hfull]
    have : 0 < T.card := Finset.card_pos.mpr ⟨m, hm⟩
    omega

/-- What is below all of a full store is not among the largest. -/
theorem IsNewest.notMem_of_lt (h : IsNewest n S T) (hfull : T.card = n) {a : α}
    (hlt : ∀ x ∈ T, a < x) : a ∉ newest n (insert a S) := by
  rw [newest, Finset.mem_filter]
  rintro ⟨-, hcard⟩
  refine absurd hcard (not_lt.mpr (hfull ▸ Finset.card_le_card fun t ht => ?_))
  exact Finset.mem_filter.mpr ⟨Finset.mem_insert_of_mem (h.subset ht), hlt t ht⟩

end LvlIp.Foundations
