import LvlIp.Foundations.Ring
import LvlIp.Tcp.Sock

/-!
# Buffers in memory

`include/skbuff.h` and `src/skbuff.c`. The three queues of a socket are rings of `list_head`s, one in
each buffer, with a count beside the head of each. A function fails (`none`) where the C code would
touch a buffer that has been freed. `Heap.Holds` says which buffers are in which queue and which are
in none; each function keeps this, and does to the queues what its name says.

The counters `qlen` do not wrap here, and a pointer that `list_entry` makes out of a queue head is an
error at once.
-/

namespace LvlIp.Tcp

open Foundations

/-- The queues of a socket. -/
inductive QueueId
  | receive
  | ofo
  | write
deriving DecidableEq

/-- A `struct list_head`: that of a `struct sk_buff_head` or the one in a `struct sk_buff`. -/
inductive ListHead
  | queue (q : QueueId)
  | skb (p : ℕ)
deriving DecidableEq

/-- A `struct sk_buff`; its `list` is kept apart. -/
structure Cell where
  buf : SkBuff
  refcnt : ℤ

/-- The buffers that are allocated, and the queues. -/
structure Heap where
  links : Links ListHead
  cells : ℕ → Option Cell
  qlen : QueueId → ℕ

namespace Heap

/-- `alloc_skb`, where `malloc` has returned `p`, and what its caller writes into the buffer. -/
def allocSkb (h : Heap) (p : ℕ) (buf : SkBuff) : Heap :=
  { h with links := h.links.init (.skb p), cells := Function.update h.cells p (some ⟨buf, 0⟩) }

/-- `free_skb`. -/
def freeSkb (h : Heap) (p : ℕ) : Option Heap := do
  let c ← h.cells p
  if c.refcnt < 1 then
    some { h with
      links := Function.update h.links (.skb p) none, cells := Function.update h.cells p none }
  else some h

/-- `skb->refcnt += n`. -/
def addRefcnt (h : Heap) (p : ℕ) (n : ℤ) : Option Heap :=
  (h.cells p).map fun c =>
    { h with cells := Function.update h.cells p (some { c with refcnt := c.refcnt + n }) }

/-- An assignment to other fields of the buffer. -/
def setBuf (h : Heap) (p : ℕ) (buf : SkBuff) : Option Heap :=
  (h.cells p).map fun c => { h with cells := Function.update h.cells p (some { c with buf }) }

/-- `list_entry`. -/
def listEntry : ListHead → Option ℕ
  | .skb p => some p
  | .queue _ => none

/-- `skb_queue_init`. -/
def skbQueueInit (h : Heap) (q : QueueId) : Heap :=
  { h with links := h.links.init (.queue q), qlen := Function.update h.qlen q 0 }

/-- `skb_queue_add`. -/
def skbQueueAdd (h : Heap) (q : QueueId) (new next : ℕ) : Option Heap :=
  (h.links.addTail (.skb new) (.skb next)).map fun links =>
    { h with links, qlen := Function.update h.qlen q (h.qlen q + 1) }

/-- `skb_queue_tail`. -/
def skbQueueTail (h : Heap) (q : QueueId) (new : ℕ) : Option Heap :=
  (h.links.addTail (.skb new) (.queue q)).map fun links =>
    { h with links, qlen := Function.update h.qlen q (h.qlen q + 1) }

/-- `skb_dequeue`. -/
def skbDequeue (h : Heap) (q : QueueId) : Option (Heap × ℕ) := do
  let skb ← listEntry (← h.links.next (.queue q))
  let links ← h.links.del (.skb skb)
  some ({ h with links, qlen := Function.update h.qlen q (h.qlen q - 1) }, skb)

/-- `skb_queue_empty`. -/
def skbQueueEmpty (h : Heap) (q : QueueId) : Bool := h.qlen q < 1

/-- `skb_peek`. -/
def skbPeek (h : Heap) (q : QueueId) : Option (Option ℕ) :=
  if h.skbQueueEmpty q then some none
  else do
    let skb ← listEntry (← h.links.next (.queue q))
    some (some skb)

/-- `skb_dequeue` of a buffer that is dropped. -/
def dropHead (h : Heap) (q : QueueId) (skb : ℕ) : Option Heap := do
  let r ← h.skbDequeue q
  (← r.1.addRefcnt skb (-1)).freeSkb skb

/-- The loop of `skb_queue_free`. -/
def skbQueueFreeLoop (q : QueueId) : ℕ → Heap → Option Heap
  | 0, _ => none
  | n + 1, h => do
    match ← h.skbPeek q with
    | none => some h
    | some skb => skbQueueFreeLoop q n (← h.dropHead q skb)

/-- `skb_queue_free`. -/
def skbQueueFree (h : Heap) (q : QueueId) : Option Heap := skbQueueFreeLoop q (h.qlen q + 1) h

end Heap

/-! ## What the heap holds -/

/-- Buffers and where they are. -/
abbrev Bufs := List (ℕ × SkBuff)

/-- The reference count of a buffer in a queue. -/
def QueueId.refs : QueueId → ℤ
  | .receive | .ofo => 1
  | .write => 0

theorem queue_ne_skb (q : QueueId) (p : ℕ) : ListHead.queue q ≠ .skb p := by
  intro heq
  cases heq

/-- The addresses of the buffers in the queues `R` and of those in none, `L`. -/
def pointers (R : QueueId → Bufs) (L : List (ℕ × Cell)) : List ℕ :=
  (R .receive).map Prod.fst ++ (R .ofo).map Prod.fst ++ (R .write).map Prod.fst ++ L.map Prod.fst

/-- The queues are `R`, and besides them the buffers `L` are allocated; no others are. -/
structure Heap.Holds (h : Heap) (R : QueueId → Bufs) (L : List (ℕ × Cell)) : Prop where
  ring : ∀ q, Ring h.links (.queue q) ((R q).map fun x => .skb x.1)
  qlen : ∀ q, h.qlen q = (R q).length
  cell : ∀ q, ∀ x ∈ R q, h.cells x.1 = some ⟨x.2, q.refs⟩
  loose : ∀ x ∈ L, h.cells x.1 = some x.2 ∧ ∃ n, h.links (.skb x.1) = some n
  nodup : (pointers R L).Nodup
  live : ∀ p c, h.cells p = some c → p ∈ pointers R L

section Pointers

variable {R : QueueId → Bufs} {L L' : List (ℕ × Cell)} {q q' : QueueId}

theorem mem_pointers {p : ℕ} :
    p ∈ pointers R L ↔ (∃ q, ∃ x ∈ R q, x.1 = p) ∨ ∃ x ∈ L, x.1 = p := by
  simp only [pointers, List.mem_append, List.mem_map]
  constructor
  · rintro (((h | h) | h) | h)
    · exact .inl ⟨.receive, h⟩
    · exact .inl ⟨.ofo, h⟩
    · exact .inl ⟨.write, h⟩
    · exact .inr h
  · rintro (⟨q, h⟩ | h)
    · cases q with
      | receive => exact .inl (.inl (.inl h))
      | ofo => exact .inl (.inl (.inr h))
      | write => exact .inl (.inr h)
    · exact .inr h

/-- Buffers of one queue and of none, in another distribution. -/
theorem pointers_perm {xs : Bufs}
    (h : (xs.map Prod.fst ++ L'.map Prod.fst).Perm ((R q).map Prod.fst ++ L.map Prod.fst)) :
    (pointers (Function.update R q xs) L').Perm (pointers R L) := by
  rw [List.perm_iff_count] at h ⊢
  intro a
  have ha := h a
  simp only [List.count_append] at ha
  cases q <;> simp [pointers, List.count_append] <;> omega

/-- Two queues share no buffer. -/
theorem ne_of_nodup (h : (pointers R L).Nodup) (hq : q ≠ q') {x y : ℕ × SkBuff} (hx : x ∈ R q)
    (hy : y ∈ R q') : x.1 ≠ y.1 := by
  have hmx : x.1 ∈ (R q).map Prod.fst := List.mem_map_of_mem hx
  have hmy : y.1 ∈ (R q').map Prod.fst := List.mem_map_of_mem hy
  intro heq
  rw [← heq] at hmy
  have hcount := List.nodup_iff_count_le_one.mp h x.1
  simp only [pointers, List.count_append] at hcount
  have h₁ := List.count_pos_iff.mpr hmx
  have h₂ := List.count_pos_iff.mpr hmy
  cases q <;> cases q' <;> first | exact hq rfl | omega

/-- A buffer in no queue is not in one. -/
theorem ne_of_loose (h : (pointers R L).Nodup) {x : ℕ × SkBuff} (hx : x ∈ R q) {y : ℕ × Cell}
    (hy : y ∈ L) : x.1 ≠ y.1 := by
  have hmx : x.1 ∈ (R q).map Prod.fst := List.mem_map_of_mem hx
  have hmy : y.1 ∈ L.map Prod.fst := List.mem_map_of_mem hy
  intro heq
  rw [← heq] at hmy
  have hcount := List.nodup_iff_count_le_one.mp h x.1
  simp only [pointers, List.count_append] at hcount
  have h₁ := List.count_pos_iff.mpr hmx
  have h₂ := List.count_pos_iff.mpr hmy
  cases q <;> omega

end Pointers

namespace Heap.Holds

variable {h : Heap} {R : QueueId → Bufs} {L L' : List (ℕ × Cell)} {q : QueueId} {p : ℕ} {c : Cell}

/-- **The nodes of one queue change**, and with them which buffers are in it. -/
theorem relink (hh : h.Holds R L) {xs : Bufs} {links : Links ListHead}
    (hring : Ring links (.queue q) (xs.map fun x => .skb x.1))
    (hsame : ∀ y, y ≠ .queue q → (∀ x ∈ xs, y ≠ .skb x.1) → (∀ x ∈ R q, y ≠ .skb x.1) →
      links y = h.links y)
    (hcell : ∀ x ∈ xs, h.cells x.1 = some ⟨x.2, q.refs⟩)
    (hperm : (xs.map Prod.fst ++ L'.map Prod.fst).Perm ((R q).map Prod.fst ++ L.map Prod.fst))
    (hloose : ∀ x ∈ L', h.cells x.1 = some x.2 ∧ ∃ n, links (.skb x.1) = some n) {n : ℕ}
    (hn : n = xs.length) :
    Heap.Holds { h with links, qlen := Function.update h.qlen q n } (Function.update R q xs) L' := by
  have hp := pointers_perm hperm
  have hnodup : (pointers (Function.update R q xs) L').Nodup := hp.nodup_iff.mpr hh.nodup
  refine ⟨fun q' => ?_, fun q' => ?_, fun q' => ?_, hloose, hnodup, fun p c hc => ?_⟩
  · by_cases hq : q' = q
    · subst hq
      rw [Function.update_self]
      exact hring
    · rw [Function.update_of_ne hq]
      refine (hh.ring q').congr fun y hy => ?_
      rcases List.mem_cons.mp hy with rfl | hy
      · refine hsame _ (fun heq => hq (ListHead.queue.inj heq)) ?_ ?_
        · exact fun x _ => queue_ne_skb q' x.1
        · exact fun x _ => queue_ne_skb q' x.1
      · obtain ⟨z, hz, rfl⟩ := List.mem_map.mp hy
        refine hsame _ (queue_ne_skb q z.1).symm (fun x hx heq => ?_) (fun x hx heq => ?_)
        · refine @ne_of_nodup _ _ q' q hnodup hq _ _ ?_ ?_ (ListHead.skb.inj heq)
          · rw [Function.update_of_ne hq]
            exact hz
          · rw [Function.update_self]
            exact hx
        · exact ne_of_nodup hh.nodup hq hz hx (ListHead.skb.inj heq)
  · by_cases hq : q' = q
    · subst hq
      simp only [Function.update_self]
      exact hn
    · simp only [Function.update_of_ne hq]
      exact hh.qlen q'
  · by_cases hq : q' = q
    · subst hq
      rw [Function.update_self]
      exact hcell
    · rw [Function.update_of_ne hq]
      exact hh.cell q'
  · exact hp.mem_iff.mpr (hh.live p c hc)

/-- A buffer that is in no queue has an address of its own. -/
theorem ne_of_mem (hh : h.Holds R ((p, c) :: L)) {x : ℕ × SkBuff} (hx : x ∈ R q) : x.1 ≠ p :=
  ne_of_loose hh.nodup hx List.mem_cons_self

theorem not_mem_tail (hh : h.Holds R ((p, c) :: L)) : ∀ x ∈ L, x.1 ≠ p := by
  intro x hx heq
  have hsub := (List.sublist_append_right _ _).nodup hh.nodup
  exact (List.nodup_cons.mp hsub).1 (List.mem_map.mpr ⟨x, hx, heq⟩)

/-- Writing to a buffer in no queue. -/
theorem update_loose (hh : h.Holds R ((p, c) :: L)) (c' : Cell) :
    Heap.Holds { h with cells := Function.update h.cells p (some c') } R ((p, c') :: L) := by
  refine ⟨hh.ring, hh.qlen, fun q x hx => ?_, ?_, hh.nodup, fun a b hb => ?_⟩
  · exact (Function.update_of_ne (hh.ne_of_mem hx) _ _).trans (hh.cell q x hx)
  · rintro x (_ | ⟨_, hx⟩)
    · exact ⟨Function.update_self _ _ _, (hh.loose _ List.mem_cons_self).2⟩
    · obtain ⟨hcell, hlink⟩ := hh.loose x (List.mem_cons_of_mem _ hx)
      exact ⟨(Function.update_of_ne (hh.not_mem_tail x hx) _ _).trans hcell, hlink⟩
  · by_cases ha : a = p
    · subst ha
      exact mem_pointers.mpr (.inr ⟨_, List.mem_cons_self, rfl⟩)
    · refine hh.live a b ?_
      rw [← hb]
      exact (Function.update_of_ne ha _ _).symm

theorem addRefcnt (hh : h.Holds R ((p, c) :: L)) (n : ℤ) : ∃ h', h.addRefcnt p n = some h' ∧
    h'.Holds R ((p, { c with refcnt := c.refcnt + n }) :: L) := by
  refine ⟨_, ?_, hh.update_loose { c with refcnt := c.refcnt + n }⟩
  unfold Heap.addRefcnt
  rw [(hh.loose _ List.mem_cons_self).1]
  rfl

theorem setBuf (hh : h.Holds R ((p, c) :: L)) (buf : SkBuff) : ∃ h', h.setBuf p buf = some h' ∧
    h'.Holds R ((p, { c with buf }) :: L) := by
  refine ⟨_, ?_, hh.update_loose { c with buf }⟩
  unfold Heap.setBuf
  rw [(hh.loose _ List.mem_cons_self).1]
  rfl

/-- `malloc` returns memory that is not in use. -/
theorem allocSkb (hh : h.Holds R L) (hp : h.cells p = none) (buf : SkBuff) :
    (h.allocSkb p buf).Holds R ((p, ⟨buf, 0⟩) :: L) := by
  have hq : ∀ q, ∀ x ∈ R q, x.1 ≠ p := by
    rintro q x hx rfl
    exact absurd ((hh.cell q x hx).symm.trans hp) (Option.some_ne_none _)
  have hl : ∀ x ∈ L, x.1 ≠ p := by
    rintro x hx rfl
    exact absurd ((hh.loose x hx).1.symm.trans hp) (Option.some_ne_none _)
  have hlinks : ∀ a ≠ p, (h.allocSkb p buf).links (.skb a) = h.links (.skb a) := by
    intro a ha
    exact Function.update_of_ne (fun heq => ha (ListHead.skb.inj heq)) _ _
  refine ⟨fun q => (hh.ring q).congr fun y hy => ?_, hh.qlen, fun q x hx => ?_, ?_, ?_, fun a b hb => ?_⟩
  · rcases List.mem_cons.mp hy with rfl | hy
    · exact Function.update_of_ne (queue_ne_skb q p) (some ⟨.skb p, .skb p⟩) h.links
    · obtain ⟨x, hx, rfl⟩ := List.mem_map.mp hy
      exact hlinks x.1 (hq q x hx)
  · refine (Function.update_of_ne (hq q x hx) _ _).trans (hh.cell q x hx)
  · rintro x (_ | ⟨_, hx⟩)
    · exact ⟨Function.update_self _ _ _, _, Function.update_self _ _ _⟩
    · obtain ⟨hcell, n, hn⟩ := hh.loose x hx
      exact ⟨(Function.update_of_ne (hl x hx) _ _).trans hcell, n, (hlinks x.1 (hl x hx)).trans hn⟩
  · have hperm : (pointers R ((p, ⟨buf, 0⟩) :: L)).Perm (p :: pointers R L) := List.perm_middle
    refine hperm.nodup_iff.mpr (List.nodup_cons.mpr ⟨fun hmem => ?_, hh.nodup⟩)
    rcases mem_pointers.mp hmem with ⟨q, x, hx, heq⟩ | ⟨x, hx, heq⟩
    · exact hq q x hx heq
    · exact hl x hx heq
  · by_cases ha : a = p
    · exact mem_pointers.mpr (.inr ⟨_, List.mem_cons_self, ha.symm⟩)
    · have hmem := hh.live a b ((Function.update_of_ne ha _ _).symm.trans hb)
      rcases mem_pointers.mp hmem with hr | ⟨x, hx, heq⟩
      · exact mem_pointers.mpr (.inl hr)
      · exact mem_pointers.mpr (.inr ⟨x, List.mem_cons_of_mem _ hx, heq⟩)

/-- **A buffer that nobody holds is given back.** -/
theorem freeSkb (hh : h.Holds R ((p, c) :: L)) (hc : c.refcnt < 1) :
    ∃ h', h.freeSkb p = some h' ∧ h'.Holds R L := by
  refine ⟨{ h with
    links := Function.update h.links (.skb p) none, cells := Function.update h.cells p none }, ?_, ?_⟩
  · unfold Heap.freeSkb
    rw [(hh.loose _ List.mem_cons_self).1]
    exact if_pos hc
  · have hlinks : ∀ a ≠ p, Function.update h.links (.skb p) none (.skb a) = h.links (.skb a) := by
      intro a ha
      exact Function.update_of_ne (fun heq => ha (ListHead.skb.inj heq)) _ _
    have hperm : (pointers R ((p, c) :: L)).Perm (p :: pointers R L) := List.perm_middle
    refine ⟨fun q => (hh.ring q).congr fun y hy => ?_, hh.qlen, fun q x hx => ?_, fun x hx => ?_, ?_,
      fun a b hb => ?_⟩
    · rcases List.mem_cons.mp hy with rfl | hy
      · exact Function.update_of_ne (queue_ne_skb q p) none h.links
      · obtain ⟨x, hx, rfl⟩ := List.mem_map.mp hy
        exact hlinks x.1 (hh.ne_of_mem hx)
    · exact (Function.update_of_ne (hh.ne_of_mem hx) _ _).trans (hh.cell q x hx)
    · obtain ⟨hcell, n, hn⟩ := hh.loose x (List.mem_cons_of_mem _ hx)
      have hne := hh.not_mem_tail x hx
      exact ⟨(Function.update_of_ne hne _ _).trans hcell, n, (hlinks x.1 hne).trans hn⟩
    · exact (List.nodup_cons.mp (hperm.nodup_iff.mp hh.nodup)).2
    · have ha : a ≠ p := by
        rintro rfl
        exact absurd (hb.symm.trans (Function.update_self _ _ _)) (Option.some_ne_none _)
      have hmem := hperm.mem_iff.mp (hh.live a b ((Function.update_of_ne ha _ _).symm.trans hb))
      exact (List.mem_cons.mp hmem).resolve_left ha

/-- A buffer in the receive queue or the out-of-order queue is not given back. -/
theorem freeSkb_queued (hh : h.Holds R L) (hq : q.refs = 1) {x : ℕ × SkBuff} (hx : x ∈ R q) :
    h.freeSkb x.1 = some h := by
  unfold Heap.freeSkb
  rw [hh.cell q x hx, hq]
  rfl

/-! ## The queues -/

theorem links_skb (hh : h.Holds R ((p, c) :: L)) (q : QueueId) :
    ListHead.skb p ∉ .queue q :: (R q).map fun x => ListHead.skb x.1 := by
  intro hmem
  rcases List.mem_cons.mp hmem with heq | hmem
  · cases heq
  · obtain ⟨x, hx, heq⟩ := List.mem_map.mp hmem
    exact hh.ne_of_mem hx (ListHead.skb.inj heq)

/-- **A buffer joins a queue at its end.** -/
theorem skbQueueTail {buf : SkBuff} (hh : h.Holds R ((p, ⟨buf, q.refs⟩) :: L)) :
    ∃ h', h.skbQueueTail q p = some h' ∧ h'.Holds (Function.update R q (R q ++ [(p, buf)])) L := by
  obtain ⟨hcell, hlink⟩ := hh.loose _ List.mem_cons_self
  obtain ⟨links, hlinks, hring, hsame⟩ := (hh.ring q).addTail hlink (hh.links_skb q)
  refine ⟨{ h with links, qlen := Function.update h.qlen q (h.qlen q + 1) }, ?_, ?_⟩
  · unfold Heap.skbQueueTail
    rw [hlinks]
    rfl
  · refine hh.relink (by rwa [List.map_append]) (fun y hy hnew hold => ?_) ?_ ?_ (fun x hx => ?_) ?_
    · refine hsame y fun hmem => ?_
      rcases List.mem_cons.mp hmem with rfl | hmem
      · exact hnew (p, buf) (by simp) rfl
      · rcases List.mem_cons.mp hmem with heq | hmem
        · exact hy heq
        · obtain ⟨x, hx, rfl⟩ := List.mem_map.mp hmem
          exact hold x hx rfl
    · intro x hx
      rcases List.mem_append.mp hx with hx | hx
      · exact hh.cell q x hx
      · rw [List.mem_singleton.mp hx]
        exact hcell
    · rw [List.map_append, List.append_assoc]
      rfl
    · obtain ⟨hcell', n, hn⟩ := hh.loose x (List.mem_cons_of_mem _ hx)
      refine ⟨hcell', n, (hsame _ fun hmem => ?_).trans hn⟩
      rcases List.mem_cons.mp hmem with heq | hmem
      · exact hh.not_mem_tail x hx (ListHead.skb.inj heq)
      · rcases List.mem_cons.mp hmem with heq | hmem
        · cases heq
        · obtain ⟨y, hy, heq⟩ := List.mem_map.mp hmem
          exact ne_of_loose hh.nodup hy (List.mem_cons_of_mem _ hx) (ListHead.skb.inj heq)
    · rw [hh.qlen q, List.length_append]
      rfl

/-- **A buffer joins a queue before another one.** -/
theorem skbQueueAdd {buf : SkBuff} (hh : h.Holds R ((p, ⟨buf, q.refs⟩) :: L)) {xs ys : Bufs}
    {x : ℕ × SkBuff} (hR : R q = xs ++ x :: ys) : ∃ h', h.skbQueueAdd q p x.1 = some h' ∧
      h'.Holds (Function.update R q (xs ++ (p, buf) :: x :: ys)) L := by
  obtain ⟨hcell, hlink⟩ := hh.loose _ List.mem_cons_self
  have hring := hh.ring q
  have hskb := hh.links_skb q
  rw [hR, List.map_append, List.map_cons] at hring hskb
  obtain ⟨links, hlinks, hring', hsame⟩ := hring.insert hlink hskb
  have hmap : (xs ++ (p, buf) :: x :: ys).map (fun y => ListHead.skb y.1) =
      xs.map (fun y => .skb y.1) ++ .skb p :: .skb x.1 :: ys.map fun y => .skb y.1 := by
    rw [List.map_append, List.map_cons, List.map_cons]
  have hmem : ∀ y, y ≠ .queue q → (∀ z ∈ R q, y ≠ .skb z.1) → y ≠ .skb p → links y = h.links y := by
    intro y hy hold hnew
    refine hsame y fun hmem => ?_
    rcases List.mem_cons.mp hmem with heq | hmem
    · exact hnew heq
    · rcases List.mem_cons.mp hmem with heq | hmem
      · exact hy heq
      · rw [← List.map_cons (f := fun z : ℕ × SkBuff => ListHead.skb z.1), ← List.map_append, ← hR] at hmem
        obtain ⟨z, hz, rfl⟩ := List.mem_map.mp hmem
        exact hold z hz rfl
  refine ⟨{ h with links, qlen := Function.update h.qlen q (h.qlen q + 1) }, ?_, ?_⟩
  · unfold Heap.skbQueueAdd
    rw [hlinks]
    rfl
  · refine hh.relink (hmap ▸ hring') (fun y hy hnew hold => ?_) ?_ ?_ (fun z hz => ?_) ?_
    · exact hmem y hy hold (hnew (p, buf) (by simp))
    · intro z hz
      rcases List.mem_append.mp hz with hz | hz
      · exact hh.cell q z (hR ▸ List.mem_append_left _ hz)
      · rcases List.mem_cons.mp hz with rfl | hz
        · exact hcell
        · exact hh.cell q z (hR ▸ List.mem_append_right _ hz)
    · rw [hR]
      simp only [List.map_append, List.map_cons]
      rw [List.perm_iff_count]
      intro a
      simp only [List.count_append, List.count_cons]
      omega
    · obtain ⟨hcell', n, hn⟩ := hh.loose z (List.mem_cons_of_mem _ hz)
      refine ⟨hcell', n, (hmem _ (queue_ne_skb q z.1).symm (fun y hy heq => ?_) fun heq => ?_).trans hn⟩
      · exact ne_of_loose hh.nodup hy (List.mem_cons_of_mem _ hz) (ListHead.skb.inj heq).symm
      · exact hh.not_mem_tail z hz (ListHead.skb.inj heq)
    · rw [hh.qlen q, hR]
      simp only [List.length_append, List.length_cons]
      omega

/-- The first buffer of a queue. -/
theorem first (hh : h.Holds R L) {x : ℕ × SkBuff} {xs : Bufs} (hR : R q = x :: xs) :
    h.links.next (.queue q) = some (.skb x.1) := by
  have hfirst := (hh.ring q).first
  rw [hR] at hfirst
  exact hfirst

theorem skbPeek (hh : h.Holds R L) (q : QueueId) : h.skbPeek q = some ((R q).head?.map Prod.fst) := by
  unfold Heap.skbPeek Heap.skbQueueEmpty
  rw [hh.qlen q]
  cases hR : R q with
  | nil => rfl
  | cons x xs =>
    rw [hh.first hR]
    rfl

/-- **The first buffer leaves a queue.** -/
theorem skbDequeue (hh : h.Holds R L) {x : ℕ × SkBuff} {xs : Bufs} (hR : R q = x :: xs) :
    ∃ h', h.skbDequeue q = some (h', x.1) ∧
      h'.Holds (Function.update R q xs) ((x.1, ⟨x.2, q.refs⟩) :: L) := by
  have hring := hh.ring q
  rw [hR] at hring
  obtain ⟨links, hlinks, hring', hx, hsame⟩ := @Ring.del _ _ _ _ [] _ _ hring
  have hmem : ∀ y, y ≠ .queue q → (∀ z ∈ R q, y ≠ .skb z.1) → links y = h.links y := by
    intro y hy hold
    refine hsame y fun hmem => ?_
    rcases List.mem_cons.mp hmem with heq | hmem
    · exact hy heq
    · change y ∈ (x :: xs).map fun z => ListHead.skb z.1 at hmem
      obtain ⟨z, hz, heq⟩ := List.mem_map.mp hmem
      exact hold z (hR ▸ hz) heq.symm
  refine ⟨{ h with links, qlen := Function.update h.qlen q (h.qlen q - 1) }, ?_, ?_⟩
  · unfold Heap.skbDequeue Heap.listEntry
    rw [hh.first hR]
    simp only [Option.bind_eq_bind, Option.bind_some, hlinks]
  · have hxq : x ∈ R q := hR ▸ List.mem_cons_self
    refine hh.relink hring' (fun y hy _ hold => hmem y hy hold) (fun z hz => ?_) ?_ ?_ ?_
    · exact hh.cell q z (hR ▸ List.mem_cons_of_mem _ hz)
    · rw [hR]
      exact List.perm_middle
    · rintro z (_ | ⟨_, hz⟩)
      · refine ⟨hh.cell q x hxq, ?_⟩
        rw [show links (.skb x.1) = h.links (.skb x.1) from hx]
        exact (hh.ring q).exists_mem (List.mem_cons_of_mem _ (List.mem_map_of_mem hxq))
      · obtain ⟨hcell, n, hn⟩ := hh.loose z hz
        refine ⟨hcell, n, (hmem _ (queue_ne_skb q z.1).symm fun y hy heq => ?_).trans hn⟩
        exact ne_of_loose hh.nodup hy hz (ListHead.skb.inj heq).symm
    · rw [hh.qlen q, hR]
      rfl

/-- **The first buffer of a queue is taken off and given back.** -/
theorem dropHead (hh : h.Holds R L) {x : ℕ × SkBuff} {xs : Bufs} (hR : R q = x :: xs) :
    ∃ h', h.dropHead q x.1 = some h' ∧ h'.Holds (Function.update R q xs) L := by
  obtain ⟨h₁, heq₁, hh₁⟩ := hh.skbDequeue hR
  obtain ⟨h₂, heq₂, hh₂⟩ := hh₁.addRefcnt (-1)
  have hrefs : q.refs + -1 < 1 := by cases q <;> decide
  obtain ⟨h₃, heq₃, hh₃⟩ := hh₂.freeSkb hrefs
  refine ⟨h₃, ?_, hh₃⟩
  unfold Heap.dropHead
  simp only [heq₁, heq₂, heq₃, Option.bind_eq_bind, Option.bind_some]

/-- Writing to a buffer in a queue. -/
theorem setBuf_queued (hh : h.Holds R L) {x : ℕ × SkBuff} {xs ys : Bufs} (hR : R q = xs ++ x :: ys)
    (buf : SkBuff) : ∃ h', h.setBuf x.1 buf = some h' ∧
      h'.Holds (Function.update R q (xs ++ (x.1, buf) :: ys)) L := by
  have hx : x ∈ R q := hR ▸ List.mem_append_right _ List.mem_cons_self
  refine ⟨{ h with cells := Function.update h.cells x.1 (some ⟨buf, q.refs⟩) }, ?_, ?_⟩
  · unfold Heap.setBuf
    rw [hh.cell q x hx]
    rfl
  · have hmap : (xs ++ (x.1, buf) :: ys).map Prod.fst = (R q).map Prod.fst := by
      rw [hR, List.map_append, List.map_append, List.map_cons, List.map_cons]
    have hperm : (pointers (Function.update R q (xs ++ (x.1, buf) :: ys)) L).Perm (pointers R L) :=
      pointers_perm (by rw [hmap])
    -- the other buffers of the queue have other addresses
    have hself : ((xs.map Prod.fst) ++ x.1 :: ys.map Prod.fst).Nodup := by
      have hnodup := (List.nodup_cons.mp (hh.ring q).nodup).2
      rw [hR] at hnodup
      have hmapped := (show ((xs ++ x :: ys).map Prod.fst).Nodup from ?_)
      · rwa [List.map_append, List.map_cons] at hmapped
      · refine List.Nodup.of_map ListHead.skb ?_
        rw [List.map_map]
        exact hnodup
    refine ⟨fun q' => ?_, fun q' => ?_, fun q' z hz => ?_, fun z hz => ?_, hperm.nodup_iff.mpr hh.nodup,
      fun a b hb => ?_⟩
    · by_cases hq : q' = q
      · subst hq
        have hring := hh.ring q'
        rw [hR] at hring
        rw [Function.update_self]
        simpa only [List.map_append, List.map_cons] using hring
      · rw [Function.update_of_ne hq]
        exact hh.ring q'
    · by_cases hq : q' = q
      · subst hq
        rw [Function.update_self]
        exact (hh.qlen q').trans (by rw [hR]; simp)
      · rw [Function.update_of_ne hq]
        exact hh.qlen q'
    · by_cases hq : q' = q
      · subst hq
        rw [Function.update_self] at hz
        rcases List.mem_append.mp hz with hz | hz
        · have hne : z.1 ≠ x.1 := by
            intro heq
            refine (List.nodup_append'.mp hself).2.2 (List.mem_map_of_mem hz) ?_
            rw [heq]
            exact List.mem_cons_self
          exact (Function.update_of_ne hne _ _).trans (hh.cell q' z (hR ▸ List.mem_append_left _ hz))
        · rcases List.mem_cons.mp hz with rfl | hz
          · exact Function.update_self _ _ _
          · have hne : z.1 ≠ x.1 := by
              intro heq
              refine (List.nodup_cons.mp (List.nodup_append'.mp hself).2.1).1 ?_
              rw [← heq]
              exact List.mem_map_of_mem hz
            refine (Function.update_of_ne hne _ _).trans (hh.cell q' z ?_)
            rw [hR]
            exact List.mem_append_right _ (List.mem_cons_of_mem _ hz)
      · rw [Function.update_of_ne hq] at hz
        exact (Function.update_of_ne (ne_of_nodup hh.nodup hq hz hx) _ _).trans (hh.cell q' z hz)
    · obtain ⟨hcell, hlink⟩ := hh.loose z hz
      exact ⟨(Function.update_of_ne (ne_of_loose hh.nodup hx hz).symm _ _).trans hcell, hlink⟩
    · refine hperm.mem_iff.mpr ?_
      by_cases ha : a = x.1
      · rw [ha]
        exact mem_pointers.mpr (.inl ⟨q, x, hx, rfl⟩)
      · exact hh.live a b ((Function.update_of_ne ha _ _).symm.trans hb)

theorem skbQueueFreeLoop (hh : h.Holds R L) {n : ℕ} (hn : (R q).length < n) :
    ∃ h', Heap.skbQueueFreeLoop q n h = some h' ∧ h'.Holds (Function.update R q []) L := by
  induction n generalizing h R with
  | zero => exact absurd hn (Nat.not_lt_zero _)
  | succ n ih =>
    unfold Heap.skbQueueFreeLoop
    rw [hh.skbPeek q]
    cases hR : R q with
    | nil =>
      refine ⟨h, rfl, ?_⟩
      rw [← hR, Function.update_eq_self]
      exact hh
    | cons x xs =>
      obtain ⟨h₁, heq₁, hh₁⟩ := hh.dropHead hR
      obtain ⟨h₂, heq₂, hh₂⟩ := ih hh₁ (by
        rw [Function.update_self]
        rw [hR] at hn
        exact Nat.lt_of_succ_lt_succ hn)
      refine ⟨h₂, ?_, ?_⟩
      · simp only [Option.bind_eq_bind, Option.bind_some, List.head?_cons, Option.map_some, heq₁]
        exact heq₂
      · rwa [Function.update_idem] at hh₂

/-- **`skb_queue_free` gives back every buffer of a queue.** -/
theorem skbQueueFree (hh : h.Holds R L) (q : QueueId) :
    ∃ h', h.skbQueueFree q = some h' ∧ h'.Holds (Function.update R q []) L := by
  unfold Heap.skbQueueFree
  rw [hh.qlen q]
  exact hh.skbQueueFreeLoop (Nat.lt_succ_self _)

end Heap.Holds

end LvlIp.Tcp
