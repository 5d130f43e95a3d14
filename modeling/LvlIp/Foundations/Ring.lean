import Mathlib.Data.List.Nodup
import Mathlib.Logic.Function.Basic

/-!
# Circular doubly linked lists

Lists whose nodes lie inside other structures: a node has a successor and a predecessor, and a list is
a ring of nodes through its head (`Ring`). The operations follow the pointers of a store that may lack
nodes (`Links`), and fail where they would read or write a node that is not there. Each of them does
to the list of nodes what its name says, and touches no node outside of the ring (`Ring.addTail`,
`Ring.insert`, `Ring.del`).
-/

namespace LvlIp.Foundations

/-- The two pointers of a node. -/
structure Link (A : Type*) where
  next : A
  prev : A

/-- A store of nodes. -/
abbrev Links (A : Type*) := A → Option (Link A)

variable {A : Type*}

namespace Links

def next (L : Links A) (a : A) : Option A := (L a).map Link.next

def prev (L : Links A) (a : A) : Option A := (L a).map Link.prev

theorem ext_at {L L' : Links A} {x : A} (hnext : L'.next x = L.next x) (hprev : L'.prev x = L.prev x) :
    L' x = L x := by
  unfold next at hnext
  unfold prev at hprev
  cases h : L x with
  | none => simpa [h] using hnext
  | some n =>
    cases h' : L' x with
    | none => simp [h, h'] at hnext
    | some n' =>
      simp only [h, h', Option.map_some, Option.some.injEq] at hnext hprev
      cases n
      cases n'
      simp_all

theorem exists_of_next {L : Links A} {a b : A} (h : L.next a = some b) : ∃ n, L a = some n := by
  unfold next at h
  obtain ⟨n, hn, -⟩ := Option.map_eq_some_iff.mp h
  exact ⟨n, hn⟩

theorem exists_of_prev {L : Links A} {a b : A} (h : L.prev a = some b) : ∃ n, L a = some n := by
  unfold prev at h
  obtain ⟨n, hn, -⟩ := Option.map_eq_some_iff.mp h
  exact ⟨n, hn⟩

theorem exists_iff_next {L : Links A} {x : A} : (∃ n, L x = some n) ↔ ∃ b, L.next x = some b := by
  constructor
  · rintro ⟨n, hn⟩
    exact ⟨n.next, by rw [next, hn]; rfl⟩
  · rintro ⟨b, hb⟩
    exact exists_of_next hb

theorem exists_iff_prev {L : Links A} {x : A} : (∃ n, L x = some n) ↔ ∃ b, L.prev x = some b := by
  constructor
  · rintro ⟨n, hn⟩
    exact ⟨n.prev, by rw [prev, hn]; rfl⟩
  · rintro ⟨b, hb⟩
    exact exists_of_prev hb

variable [DecidableEq A]

def setNext (L : Links A) (a b : A) : Option (Links A) :=
  (L a).map fun n => Function.update L a (some { n with next := b })

def setPrev (L : Links A) (a b : A) : Option (Links A) :=
  (L a).map fun n => Function.update L a (some { n with prev := b })

/-- A head with an empty list. -/
def init (L : Links A) (head : A) : Links A := Function.update L head (some ⟨head, head⟩)

/-- Link a node before another one; before the head is at the end of the list. -/
def addTail (L : Links A) (new head : A) : Option (Links A) := do
  let p ← L.prev head
  let L ← L.setNext p new
  let p ← L.prev head
  let L ← L.setPrev new p
  let L ← L.setNext new head
  L.setPrev head new

/-- Unlink a node. -/
def del (L : Links A) (elem : A) : Option (Links A) := do
  let prev ← L.prev elem
  let next ← L.next elem
  let L ← L.setNext prev next
  L.setPrev next prev

/-! ## What the operations write -/

variable {L L' : Links A} {a b p n new : A}

theorem exists_setNext (h : ∃ n, L a = some n) (b : A) : ∃ L', L.setNext a b = some L' ∧
    L'.next = Function.update L.next a (some b) ∧ L'.prev = L.prev := by
  obtain ⟨n, hn⟩ := h
  refine ⟨_, by rw [setNext, hn]; rfl, ?_, ?_⟩
  · funext x
    by_cases hx : x = a
    · subst hx
      simp [next]
    · simp [next, hx]
  · funext x
    by_cases hx : x = a
    · subst hx
      simp [prev, hn]
    · simp [prev, hx]

theorem exists_setPrev (h : ∃ n, L a = some n) (b : A) : ∃ L', L.setPrev a b = some L' ∧
    L'.next = L.next ∧ L'.prev = Function.update L.prev a (some b) := by
  obtain ⟨n, hn⟩ := h
  refine ⟨_, by rw [setPrev, hn]; rfl, ?_, ?_⟩
  · funext x
    by_cases hx : x = a
    · subst hx
      simp [next, hn]
    · simp [next, hx]
  · funext x
    by_cases hx : x = a
    · subst hx
      simp [prev]
    · simp [prev, hx]

/-- **A node is linked in** between two others. -/
theorem exists_addTail (hp : L.prev b = some p) (hpn : ∃ n, L p = some n) (hnew : ∃ n, L new = some n)
    (hne : new ≠ b) : ∃ L', L.addTail new b = some L' ∧
      L'.next = Function.update (Function.update L.next p (some new)) new (some b) ∧
      L'.prev = Function.update (Function.update L.prev new (some p)) b (some new) := by
  obtain ⟨L₁, h₁, hnext₁, hprev₁⟩ := exists_setNext hpn new
  have hnew₁ : ∃ n, L₁ new = some n := by
    rw [exists_iff_prev, hprev₁]
    exact exists_iff_prev.mp hnew
  obtain ⟨L₂, h₂, hnext₂, hprev₂⟩ := exists_setPrev hnew₁ p
  have hnew₂ : ∃ n, L₂ new = some n := by
    rw [exists_iff_next, hnext₂]
    exact exists_iff_next.mp hnew₁
  obtain ⟨L₃, h₃, hnext₃, hprev₃⟩ := exists_setNext hnew₂ b
  have hb₃ : ∃ n, L₃ b = some n := by
    refine exists_iff_prev.mpr ⟨p, ?_⟩
    rw [hprev₃, hprev₂, Function.update_of_ne hne.symm, hprev₁]
    exact hp
  obtain ⟨L₄, h₄, hnext₄, hprev₄⟩ := exists_setPrev hb₃ new
  refine ⟨L₄, ?_, ?_, ?_⟩
  · unfold addTail
    rw [hp]
    simp only [Option.bind_eq_bind, Option.bind_some, h₁, show L₁.prev b = some p by rw [hprev₁, hp], h₂,
      h₃, h₄]
  · rw [hnext₄, hnext₃, hnext₂, hnext₁]
  · rw [hprev₄, hprev₃, hprev₂, hprev₁]

/-- **A node is taken out** from between two others. -/
theorem exists_del (hp : L.prev a = some p) (hn : L.next a = some n) (hpn : ∃ x, L p = some x)
    (hnn : ∃ x, L n = some x) : ∃ L', L.del a = some L' ∧
      L'.next = Function.update L.next p (some n) ∧ L'.prev = Function.update L.prev n (some p) := by
  obtain ⟨L₁, h₁, hnext₁, hprev₁⟩ := exists_setNext hpn n
  have hnn₁ : ∃ x, L₁ n = some x := by
    rw [exists_iff_prev, hprev₁]
    exact exists_iff_prev.mp hnn
  obtain ⟨L₂, h₂, hnext₂, hprev₂⟩ := exists_setPrev hnn₁ p
  refine ⟨L₂, ?_, hnext₂.trans hnext₁, ?_⟩
  · unfold del
    simp only [hp, hn, Option.bind_eq_bind, Option.bind_some, h₁, h₂]
  · rw [hprev₂, hprev₁]

end Links

/-! ## Segments -/

/-- From `a` on, `xs` and then `b` follow one another, both ways. -/
def Seg (L : Links A) (a : A) : List A → A → Prop
  | [], b => L.next a = some b ∧ L.prev b = some a
  | x :: xs, b => L.next a = some x ∧ L.prev x = some a ∧ Seg L x xs b

section Segments

variable {L L' : Links A} {a b p n x new : A} {xs ys : List A}

theorem Seg.append : Seg L a (xs ++ x :: ys) b ↔ Seg L a xs x ∧ Seg L x ys b := by
  induction xs generalizing a with
  | nil => simp only [List.nil_append, Seg, and_assoc]
  | cons y xs ih => simp only [List.cons_append, Seg, ih, and_assoc]

/-- A segment depends on the pointers along it. -/
theorem Seg.congr (h : Seg L a xs b) (hnext : ∀ y ∈ a :: xs, L'.next y = L.next y)
    (hprev : ∀ y ∈ xs ++ [b], L'.prev y = L.prev y) : Seg L' a xs b := by
  induction xs generalizing a with
  | nil =>
    exact ⟨(hnext a List.mem_cons_self).trans h.1, (hprev b (List.mem_singleton_self b)).trans h.2⟩
  | cons x xs ih =>
    refine ⟨(hnext a List.mem_cons_self).trans h.1, (hprev x List.mem_cons_self).trans h.2.1,
      ih h.2.2 ?_ ?_⟩
    · exact fun y hy => hnext y (List.mem_cons_of_mem _ hy)
    · exact fun y hy => hprev y (List.mem_cons_of_mem _ hy)

theorem Seg.next (h : Seg L a xs b) : L.next a = some (xs.headD b) := by
  cases xs with
  | nil => exact h.1
  | cons x xs => exact h.1

/-- The last node before the end. -/
theorem Seg.exists_prev (h : Seg L a xs b) : ∃ p ∈ a :: xs, L.prev b = some p ∧ L.next p = some b := by
  induction xs generalizing a with
  | nil => exact ⟨a, List.mem_cons_self, h.2, h.1⟩
  | cons x xs ih =>
    obtain ⟨p, hp, hprev⟩ := ih h.2.2
    exact ⟨p, List.mem_cons_of_mem _ hp, hprev⟩

theorem Seg.prev_mem (h : Seg L a xs b) (hp : L.prev b = some p) : p ∈ a :: xs := by
  obtain ⟨q, hq, hprev, -⟩ := h.exists_prev
  obtain rfl : q = p := Option.some.inj (hprev.symm.trans hp)
  exact hq

theorem Seg.exists_mem (h : Seg L a xs b) {y : A} (hy : y ∈ a :: xs) : ∃ n, L y = some n := by
  induction xs generalizing a with
  | nil =>
    rw [List.mem_singleton.mp hy]
    exact Links.exists_of_next h.1
  | cons x xs ih =>
    rcases List.mem_cons.mp hy with rfl | hy
    · exact Links.exists_of_next h.1
    · exact ih h.2.2 hy

variable [DecidableEq A]

/-- A node that is linked in before the end of a segment comes last in it. -/
theorem Seg.snoc (h : Seg L a xs b) (hp : L.prev b = some p) (hnodup : (a :: xs).Nodup) (hb : b ∉ xs)
    (hnew : new ∉ a :: xs) (hne : new ≠ b)
    (hnext : L'.next = Function.update (Function.update L.next p (some new)) new (some b))
    (hprev : L'.prev = Function.update (Function.update L.prev new (some p)) b (some new)) :
    Seg L' a (xs ++ [new]) b := by
  induction xs generalizing a with
  | nil =>
    obtain rfl : a = p := Option.some.inj (h.2.symm.trans hp)
    have hne' : a ≠ new := fun heq => hnew (heq ▸ List.mem_cons_self)
    refine ⟨?_, ?_, ?_, ?_⟩
    · rw [hnext, Function.update_of_ne hne', Function.update_self]
    · rw [hprev, Function.update_of_ne hne, Function.update_self]
    · rw [hnext, Function.update_self]
    · rw [hprev, Function.update_self]
  | cons x xs ih =>
    obtain ⟨hax, hxs⟩ := List.nodup_cons.mp hnodup
    have hap : a ≠ p := by
      rintro rfl
      exact hax (h.2.2.prev_mem hp)
    have hne' : a ≠ new := fun heq => hnew (heq ▸ List.mem_cons_self)
    have hxb : x ≠ b := fun heq => hb (heq ▸ List.mem_cons_self)
    have hxn : x ≠ new := fun heq => hnew (heq ▸ List.mem_cons_of_mem _ List.mem_cons_self)
    refine ⟨?_, ?_, ih h.2.2 hxs (fun hmem => hb (List.mem_cons_of_mem _ hmem))
      (fun hmem => hnew (List.mem_cons_of_mem _ hmem))⟩
    · rw [hnext, Function.update_of_ne hne', Function.update_of_ne hap]
      exact h.1
    · rw [hprev, Function.update_of_ne hxb, Function.update_of_ne hxn]
      exact h.2.1

/-- A node that is taken out leaves the rest of the segment. -/
theorem Seg.unlink (h : Seg L a xs x) (h' : Seg L x ys b) (hp : L.prev x = some p)
    (hn : L.next x = some n) (hnodup : (a :: (xs ++ x :: ys)).Nodup) (hb : b ∉ xs ++ x :: ys)
    (hnext : L'.next = Function.update L.next p (some n))
    (hprev : L'.prev = Function.update L.prev n (some p)) : Seg L' a (xs ++ ys) b := by
  induction xs generalizing a with
  | nil =>
    obtain rfl : a = p := Option.some.inj (h.2.symm.trans hp)
    obtain rfl : ys.headD b = n := Option.some.inj (h'.next.symm.trans hn)
    have ha : ∀ y ∈ ys, y ≠ a := by
      rintro y hy rfl
      exact (List.nodup_cons.mp hnodup).1 (List.mem_cons_of_mem _ hy)
    cases ys with
    | nil =>
      refine ⟨?_, ?_⟩
      · rw [hnext, Function.update_self]
        rfl
      · rw [hprev]
        exact Function.update_self _ _ _
    | cons y ys =>
      have hnodup' : (y :: ys).Nodup := hnodup.of_cons.of_cons
      refine ⟨?_, ?_, h'.2.2.congr (fun z hz => ?_) (fun z hz => ?_)⟩
      · rw [hnext, Function.update_self]
        rfl
      · rw [hprev]
        exact Function.update_self _ _ _
      · rw [hnext, Function.update_of_ne (ha z hz)]
      · rw [hprev]
        refine Function.update_of_ne ?_ _ _
        rintro rfl
        rcases List.mem_append.mp hz with hz | hz
        · exact (List.nodup_cons.mp hnodup').1 hz
        · rw [← List.mem_singleton.mp hz] at hb
          exact hb (List.mem_cons_of_mem _ List.mem_cons_self)
  | cons y xs ih =>
    obtain ⟨hay, hnodup'⟩ := List.nodup_cons.mp hnodup
    have hap : a ≠ p := by
      rintro rfl
      exact hay (by
        have hmem := h.2.2.prev_mem hp
        exact List.mem_append_left (x :: ys) hmem)
    have hyn : y ≠ n := by
      rintro rfl
      obtain rfl : ys.headD b = y := Option.some.inj (h'.next.symm.trans hn)
      cases ys with
      | nil => exact hb List.mem_cons_self
      | cons z ys => exact (List.nodup_cons.mp hnodup').1 (by simp)
    refine ⟨?_, ?_, ih h.2.2 hnodup' (fun hmem => hb (List.mem_cons_of_mem _ hmem))⟩
    · rw [hnext, Function.update_of_ne hap]
      exact h.1
    · rw [hprev, Function.update_of_ne hyn]
      exact h.2.1

end Segments

/-! ## Rings -/

/-- The list with the head `h` has the nodes `xs`. -/
structure Ring (L : Links A) (h : A) (xs : List A) : Prop where
  seg : Seg L h xs h
  nodup : (h :: xs).Nodup

section Rings

variable {L L' : Links A} {h x new : A} {xs ys : List A}

theorem Ring.congr (hr : Ring L h xs) (hsame : ∀ y ∈ h :: xs, L' y = L y) : Ring L' h xs := by
  refine ⟨hr.seg.congr (fun y hy => ?_) (fun y hy => ?_), hr.nodup⟩
  · unfold Links.next
    rw [hsame y hy]
  · unfold Links.prev
    rw [hsame y]
    rcases List.mem_append.mp hy with hy | hy
    · exact List.mem_cons_of_mem _ hy
    · rw [List.mem_singleton.mp hy]
      exact List.mem_cons_self

theorem Ring.exists_mem (hr : Ring L h xs) {y : A} (hy : y ∈ h :: xs) : ∃ n, L y = some n :=
  hr.seg.exists_mem hy

/-- The head points to the first node. -/
theorem Ring.first (hr : Ring L h xs) : L.next h = some (xs.headD h) := hr.seg.next

/-- A node points to the one after it, and the last one to the head. -/
theorem Ring.next (hr : Ring L h (xs ++ x :: ys)) : L.next x = some (ys.headD h) :=
  (Seg.append.mp hr.seg).2.next

variable [DecidableEq A]

theorem Ring.init (L : Links A) (h : A) : Ring (L.init h) h [] := by
  refine ⟨⟨?_, ?_⟩, List.nodup_singleton h⟩
  · simp [Links.next, Links.init]
  · simp [Links.prev, Links.init]

/-- **A node is added at the end.** -/
theorem Ring.addTail (hr : Ring L h xs) (hnew : ∃ n, L new = some n) (hmem : new ∉ h :: xs) :
    ∃ L', L.addTail new h = some L' ∧ Ring L' h (xs ++ [new]) ∧
      ∀ y ∉ new :: h :: xs, L' y = L y := by
  obtain ⟨p, hp, hprev, -⟩ := hr.seg.exists_prev
  have hne : new ≠ h := fun heq => hmem (heq ▸ List.mem_cons_self)
  obtain ⟨L', hL', hnext', hprev'⟩ := Links.exists_addTail hprev (hr.exists_mem hp) hnew hne
  refine ⟨L', hL', ⟨hr.seg.snoc hprev hr.nodup (List.nodup_cons.mp hr.nodup).1 hmem hne hnext' hprev',
    ?_⟩, fun y hy => ?_⟩
  · rw [← List.cons_append]
    exact hr.nodup.append (List.nodup_singleton new) (List.disjoint_singleton.mpr hmem)
  · obtain ⟨hyn, hy⟩ := not_or.mp (mt List.mem_cons.mpr hy)
    have hyh : y ≠ h := fun heq => hy (heq ▸ List.mem_cons_self)
    have hyp : y ≠ p := fun heq => hy (heq ▸ hp)
    refine Links.ext_at ?_ ?_
    · rw [hnext', Function.update_of_ne hyn, Function.update_of_ne hyp]
    · rw [hprev', Function.update_of_ne hyh, Function.update_of_ne hyn]

/-- **A node is added before another one.** -/
theorem Ring.insert (hr : Ring L h (xs ++ x :: ys)) (hnew : ∃ n, L new = some n)
    (hmem : new ∉ h :: (xs ++ x :: ys)) : ∃ L', L.addTail new x = some L' ∧
      Ring L' h (xs ++ new :: x :: ys) ∧ ∀ y ∉ new :: h :: (xs ++ x :: ys), L' y = L y := by
  obtain ⟨hseg, hseg'⟩ := Seg.append.mp hr.seg
  obtain ⟨p, hp, hprev, -⟩ := hseg.exists_prev
  have hpmem : p ∈ h :: (xs ++ x :: ys) := List.mem_append_left (x :: ys) hp
  have hxmem : x ∈ h :: (xs ++ x :: ys) := by simp
  have hne : new ≠ x := fun heq => hmem (heq ▸ hxmem)
  obtain ⟨hleft, hright, hdisj⟩ := List.nodup_append'.mp (show ((h :: xs) ++ x :: ys).Nodup from hr.nodup)
  obtain ⟨L', hL', hnext', hprev'⟩ := Links.exists_addTail hprev (hr.exists_mem hpmem) hnew hne
  refine ⟨L', hL', ⟨?_, ?_⟩, fun y hy => ?_⟩
  · rw [show xs ++ new :: x :: ys = (xs ++ [new]) ++ x :: ys by simp, Seg.append]
    refine ⟨hseg.snoc hprev hleft ?_ ?_ hne hnext' hprev', hseg'.congr (fun y hy => ?_) fun y hy => ?_⟩
    · exact fun hx => hdisj (List.mem_cons_of_mem _ hx) List.mem_cons_self
    · exact fun hm => hmem (List.mem_append_left (x :: ys) hm)
    · have hyn : y ≠ new := by
        rintro rfl
        exact hmem (List.mem_append_right (h :: xs) hy)
      have hyp : y ≠ p := by
        rintro rfl
        exact hdisj hp hy
      rw [hnext', Function.update_of_ne hyn, Function.update_of_ne hyp]
    · have hyx : y ≠ x := by
        rintro rfl
        rcases List.mem_append.mp hy with hy | hy
        · exact (List.nodup_cons.mp hright).1 hy
        · exact hdisj List.mem_cons_self (List.mem_singleton.mp hy ▸ List.mem_cons_self)
      have hyn : y ≠ new := by
        rintro rfl
        rcases List.mem_append.mp hy with hy | hy
        · exact hmem (List.mem_append_right (h :: xs) (List.mem_cons_of_mem _ hy))
        · exact hmem (List.mem_singleton.mp hy ▸ List.mem_cons_self)
      rw [hprev', Function.update_of_ne hyx, Function.update_of_ne hyn]
  · have hperm : (h :: (xs ++ new :: x :: ys)).Perm (new :: h :: (xs ++ x :: ys)) :=
      (List.perm_middle.cons h).trans (List.Perm.swap _ _ _)
    rw [hperm.nodup_iff]
    exact List.nodup_cons.mpr ⟨hmem, hr.nodup⟩
  · obtain ⟨hyn, hy⟩ := not_or.mp (mt List.mem_cons.mpr hy)
    have hyx : y ≠ x := fun heq => hy (heq ▸ hxmem)
    have hyp : y ≠ p := fun heq => hy (heq ▸ hpmem)
    refine Links.ext_at ?_ ?_
    · rw [hnext', Function.update_of_ne hyn, Function.update_of_ne hyp]
    · rw [hprev', Function.update_of_ne hyx, Function.update_of_ne hyn]

/-- **A node is taken out.** -/
theorem Ring.del (hr : Ring L h (xs ++ x :: ys)) : ∃ L', L.del x = some L' ∧ Ring L' h (xs ++ ys) ∧
    L' x = L x ∧ ∀ y ∉ h :: (xs ++ x :: ys), L' y = L y := by
  obtain ⟨hseg, hseg'⟩ := Seg.append.mp hr.seg
  obtain ⟨p, hp, hprev, -⟩ := hseg.exists_prev
  have hnext := hseg'.next
  have hpmem : p ∈ h :: (xs ++ x :: ys) := List.mem_append_left (x :: ys) hp
  have hnmem : ys.headD h ∈ h :: (xs ++ x :: ys) := by cases ys <;> simp
  have hleft := (List.nodup_append'.mp (show ((h :: xs) ++ x :: ys).Nodup from hr.nodup))
  have hpx : x ≠ p := fun heq => hleft.2.2 hp (heq ▸ List.mem_cons_self)
  have hnx : x ≠ ys.headD h := by
    intro heq
    cases ys with
    | nil => exact hleft.2.2 List.mem_cons_self (heq ▸ List.mem_cons_self)
    | cons y ys => exact (List.nodup_cons.mp hleft.2.1).1 (heq ▸ List.mem_cons_self)
  obtain ⟨L', hL', hnext', hprev'⟩ :=
    Links.exists_del hprev hnext (hr.exists_mem hpmem) (hr.exists_mem hnmem)
  refine ⟨L', hL', ⟨?_, ?_⟩, ?_, fun y hy => ?_⟩
  · exact hseg.unlink hseg' hprev hnext hr.nodup (List.nodup_cons.mp hr.nodup).1 hnext' hprev'
  · refine hr.nodup.sublist (List.Sublist.cons_cons h ?_)
    exact (List.Sublist.refl xs).append (List.sublist_cons_self x ys)
  · refine Links.ext_at ?_ ?_
    · rw [hnext', Function.update_of_ne hpx]
    · rw [hprev', Function.update_of_ne hnx]
  · have hyp : y ≠ p := fun heq => hy (heq ▸ hpmem)
    have hyn : y ≠ ys.headD h := fun heq => hy (heq ▸ hnmem)
    refine Links.ext_at ?_ ?_
    · rw [hnext', Function.update_of_ne hyp]
    · rw [hprev', Function.update_of_ne hyn]

end Rings

end LvlIp.Foundations
