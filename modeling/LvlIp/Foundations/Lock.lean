import Mathlib.Logic.Function.Basic

/-!
# Locks

A lock knows at most one owner, and every thread knows from where it is in its code whether it is
inside. The two agree (`Held`) as long as a thread gets inside by taking the free lock and outside by
giving it back, so no two threads are inside at once.
-/

namespace LvlIp.Foundations

variable {W : Type*}

/-- The owner of the lock is the thread that is inside. -/
def Held (owner : Option W) (inside : W → Bool) : Prop := ∀ w, owner = some w ↔ inside w = true

namespace Held

variable {owner : Option W} {inside : W → Bool} {v w : W}

theorem owner_eq (h : Held owner inside) (hw : inside w) : owner = some w := (h w).mpr hw

/-- **Mutual exclusion.** -/
theorem unique (h : Held owner inside) (hv : inside v) (hw : inside w) : v = w :=
  Option.some.inj ((h.owner_eq hv).symm.trans (h.owner_eq hw))

/-- Nobody else is inside. -/
theorem outside (h : Held owner inside) (hw : inside w) (hne : v ≠ w) : inside v = false :=
  Bool.eq_false_iff.mpr fun hv => hne (h.unique hv hw)

theorem free (h : Held owner inside) (howner : owner = none) (w : W) : inside w = false := by
  refine Bool.eq_false_iff.mpr fun hw => ?_
  rw [h.owner_eq hw] at howner
  cases howner

end Held

/-- A thread `w` moves: it stays where it is, takes the free lock, or gives it back. -/
inductive Crossing (w : W) : Option W → Bool → Option W → Bool → Prop
  | stay {owner : Option W} {b b' : Bool} (h : b' = b) : Crossing w owner b owner b'
  | acquire {owner : Option W} {b : Bool} (hfree : owner = none) : Crossing w owner b (some w) true
  | release {owner : Option W} : Crossing w owner true none false

/-- **A move keeps the owner true.** -/
theorem Held.cross [DecidableEq W] {owner owner' : Option W} {inside : W → Bool} {w : W} {b : Bool}
    (h : Held owner inside) (hc : Crossing w owner (inside w) owner' b) :
    Held owner' (Function.update inside w b) := by
  generalize hin : inside w = b₀ at hc
  cases hc with
  | stay heq =>
    rw [heq, ← hin, Function.update_eq_self]
    exact h
  | acquire hfree =>
    intro v
    by_cases hv : v = w
    · rw [hv, Function.update_self]
      exact iff_of_true rfl rfl
    · rw [Function.update_of_ne hv, h.free hfree v]
      exact iff_of_false (fun heq => hv (Option.some.inj heq).symm) Bool.false_ne_true
  | release =>
    intro v
    refine iff_of_false (Option.some_ne_none v).symm ?_
    by_cases hv : v = w
    · rw [hv, Function.update_self]
      exact Bool.false_ne_true
    · rw [Function.update_of_ne hv, h.outside hin hv]
      exact Bool.false_ne_true

end LvlIp.Foundations
