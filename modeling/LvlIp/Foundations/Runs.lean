import Mathlib.Order.Interval.Set.LinearOrder
import Mathlib.Data.List.Pairwise

/-!
# Maximal runs

The maximal half-open intervals of a set in a linear order, when the set is given as a list of
intervals in order. Intervals that meet are joined in one pass (`joinRuns`), and what comes out are
the maximal runs of the set, each once and in order (`runsOf_joinRuns`).
-/

namespace LvlIp.Foundations

variable {α : Type*}

/-- The pass over the intervals behind `cur`. -/
def joinFrom [DecidableEq α] (cur : α × α) : List (α × α) → List (α × α)
  | [] => [cur]
  | b :: q => if cur.2 = b.1 then joinFrom (cur.1, b.2) q else cur :: joinFrom b q

/-- Joins intervals that meet. -/
def joinRuns [DecidableEq α] : List (α × α) → List (α × α)
  | [] => []
  | b :: q => joinFrom b q

/-- The pass commutes with an injection. -/
theorem map_joinFrom {β : Type*} [DecidableEq α] [DecidableEq β] {f : α → β}
    (hf : Function.Injective f) (cur : α × α) (q : List (α × α)) :
    (joinFrom cur q).map (Prod.map f f) = joinFrom (Prod.map f f cur) (q.map (Prod.map f f)) := by
  induction q generalizing cur with
  | nil => rfl
  | cons b q ih =>
    simp only [joinFrom, List.map_cons, Prod.map_snd, Prod.map_fst, hf.eq_iff]
    split
    · exact ih _
    · rw [List.map_cons, ih]

theorem map_joinRuns {β : Type*} [DecidableEq α] [DecidableEq β] {f : α → β}
    (hf : Function.Injective f) (q : List (α × α)) :
    (joinRuns q).map (Prod.map f f) = joinRuns (q.map (Prod.map f f)) := by
  cases q with
  | nil => rfl
  | cons b q => exact map_joinFrom hf b q

section Order

variable [LinearOrder α] {S : Set α} {a b c : α × α} {q rs : List (α × α)}

/-- The interval belongs to the set and cannot be extended. -/
structure IsRun (S : Set α) (b : α × α) : Prop where
  lt : b.1 < b.2
  subset : Set.Ico b.1 b.2 ⊆ S
  left : ∀ x < b.1, ¬ Set.Ico x b.1 ⊆ S
  right : b.2 ∉ S

/-- The list consists of the maximal runs of the set, each once and in order. -/
structure RunsOf (S : Set α) (rs : List (α × α)) : Prop where
  sorted : rs.Pairwise fun a b => a.2 < b.1
  mem_iff : ∀ b, b ∈ rs ↔ IsRun S b

/-- The points of some intervals. -/
def covered (q : List (α × α)) : Set α := {x | ∃ b ∈ q, x ∈ Set.Ico b.1 b.2}

/-- Intervals that are not empty, with gaps between them. -/
structure Separated (rs : List (α × α)) : Prop where
  lt : ∀ b ∈ rs, b.1 < b.2
  gap : rs.Pairwise fun a b => a.2 < b.1

theorem Separated.cases (h : Separated rs) (hb : b ∈ rs) (hc : c ∈ rs) :
    c = b ∨ c.2 < b.1 ∨ b.2 < c.1 := by
  by_cases hne : c = b
  · exact .inl hne
  · have hsymm : Std.Symm fun a b : α × α => a.2 < b.1 ∨ b.2 < a.1 := ⟨fun _ _ => Or.symm⟩
    have hgap : rs.Pairwise fun a b => a.2 < b.1 ∨ b.2 < a.1 := h.gap.imp Or.inl
    exact .inr (hgap.forall hc hb hne)

/-- The end of an interval is in a gap. -/
theorem Separated.right_notMem (h : Separated rs) (hb : b ∈ rs) : b.2 ∉ covered rs := by
  rintro ⟨c, hc, hle, hlt⟩
  rcases h.cases hb hc with rfl | hbefore | hafter
  · exact lt_irrefl _ hlt
  · exact lt_asymm (hlt.trans hbefore) (h.lt b hb)
  · exact absurd hafter (not_lt.mpr hle)

theorem Separated.isRun (h : Separated rs) (hb : b ∈ rs) : IsRun (covered rs) b where
  lt := h.lt b hb
  subset := fun _ hx => ⟨b, hb, hx⟩
  left := by
    intro x hx hsub
    obtain ⟨c, hc, hle, hlt⟩ := hsub ⟨le_rfl, hx⟩
    rcases h.cases hb hc with rfl | hbefore | hafter
    · exact absurd hx (not_lt.mpr hle)
    · -- the end of the interval that `x` is in belongs to the extension
      exact h.right_notMem hc (hsub ⟨hlt.le, hbefore⟩)
    · exact absurd (hle.trans_lt hx) (lt_asymm ((h.lt b hb).trans hafter))
  right := h.right_notMem hb

theorem Separated.mem_of_isRun (h : Separated rs) (hb : IsRun (covered rs) b) : b ∈ rs := by
  obtain ⟨c, hc, hle, hlt⟩ := hb.subset ⟨le_rfl, hb.lt⟩
  have hleft : c.1 = b.1 := by
    refine hle.eq_or_lt.resolve_right fun hlt' => hb.left c.1 hlt' fun x hx => ?_
    exact ⟨c, hc, hx.1, hx.2.trans hlt⟩
  have hright : c.2 = b.2 := by
    rcases lt_trichotomy c.2 b.2 with hlt' | heq | hgt
    · exact absurd (hb.subset ⟨hlt.le, hlt'⟩) (h.right_notMem hc)
    · exact heq
    · exact absurd ⟨c, hc, hle.trans hb.lt.le, hgt⟩ hb.right
  rwa [← Prod.ext hleft hright]

theorem Separated.runsOf (h : Separated rs) : RunsOf (covered rs) rs :=
  ⟨h.gap, fun _ => ⟨h.isRun, h.mem_of_isRun⟩⟩

theorem covered_cons (b : α × α) (q : List (α × α)) :
    covered (b :: q) = Set.Ico b.1 b.2 ∪ covered q := by
  ext x
  simp only [covered, List.mem_cons, Set.mem_ofPred_eq, Set.mem_union, or_and_right, exists_or,
    exists_eq_left]

/-- Joining changes no point. -/
theorem covered_joinFrom {cur : α × α} (hcur : cur.1 < cur.2) (hq : ∀ b ∈ q, b.1 < b.2) :
    covered (joinFrom cur q) = covered (cur :: q) := by
  induction q generalizing cur with
  | nil => rfl
  | cons b q ih =>
    obtain ⟨hb, hq⟩ := List.forall_mem_cons.mp hq
    unfold joinFrom
    split
    · next hmeet =>
      have hunion : Set.Ico cur.1 cur.2 ∪ Set.Ico b.1 b.2 = Set.Ico cur.1 b.2 := by
        rw [← hmeet]
        exact Set.Ico_union_Ico_eq_Ico hcur.le (hmeet ▸ hb).le
      have hjoined : (cur.1, b.2).1 < (cur.1, b.2).2 := hcur.trans (hmeet.trans_lt hb)
      rw [ih hjoined hq, covered_cons, covered_cons, covered_cons,
        ← Set.union_assoc, hunion]
    · rw [covered_cons, ih hb hq, covered_cons cur]

/-- What comes out has gaps, and begins where the pass began. -/
theorem separated_joinFrom {cur : α × α} (hcur : cur.1 < cur.2) (hq : ∀ b ∈ q, b.1 < b.2)
    (hord : (cur :: q).Pairwise fun a b => a.2 ≤ b.1) :
    Separated (joinFrom cur q) ∧ ∀ b ∈ joinFrom cur q, cur.1 ≤ b.1 := by
  induction q generalizing cur with
  | nil => exact ⟨⟨by simpa [joinFrom] using hcur, List.pairwise_singleton _ _⟩, by simp [joinFrom]⟩
  | cons b q ih =>
    obtain ⟨hb, hq⟩ := List.forall_mem_cons.mp hq
    obtain ⟨hfirst, htail⟩ := List.pairwise_cons.mp hord
    obtain ⟨hrest, htail'⟩ := List.pairwise_cons.mp htail
    unfold joinFrom
    split
    · next hmeet =>
      exact ih (hcur.trans (hmeet.trans_lt hb)) hq (List.pairwise_cons.mpr ⟨hrest, htail'⟩)
    · next hne =>
      have hlt : cur.2 < b.1 := (hfirst b List.mem_cons_self).lt_of_ne hne
      obtain ⟨hsep, hge⟩ := ih hb hq htail
      refine ⟨⟨List.forall_mem_cons.mpr ⟨hcur, hsep.lt⟩, List.pairwise_cons.mpr ⟨?_, hsep.gap⟩⟩, ?_⟩
      · exact fun c hc => hlt.trans_le (hge c hc)
      · refine List.forall_mem_cons.mpr ⟨le_rfl, fun c hc => ?_⟩
        exact ((hcur.trans hlt).trans_le (hge c hc)).le

/-- **One pass gives the maximal runs** of intervals in order. -/
theorem runsOf_joinRuns (hq : ∀ b ∈ q, b.1 < b.2) (hord : q.Pairwise fun a b => a.2 ≤ b.1) :
    RunsOf (covered q) (joinRuns q) := by
  cases q with
  | nil => exact (Separated.mk (by simp) List.Pairwise.nil : Separated ([] : List (α × α))).runsOf
  | cons b q =>
    obtain ⟨hb, hq⟩ := List.forall_mem_cons.mp hq
    rw [← covered_joinFrom hb hq]
    exact (separated_joinFrom hb hq hord).1.runsOf

end Order

end LvlIp.Foundations
