import LvlIp.Receive.Stream
import LvlIp.Send.Steps

/-!
# The write queue

Everything ever queued is a list of buffers, and the write queue is its part that has not been
acknowledged. Two positions cut the list: the buffers before `a` have been taken off the queue,
those from `b` on have not been sent (`QueueInv`). The number in flight is `b - a`, and `snd_nxt`
is the sequence number of position `b`. Acknowledgements move `a`, transmissions move `b`, and
queueing appends; the one way to break the order is to send a new buffer at once while older ones
wait, which `tcp_queue_transmit_skb` does when nothing is in flight.

Nothing here depends on sequence numbers not wrapping.
-/

namespace LvlIp.Tcp

open Fec Foundations

/-! ## Positions -/

/-- The stream offset of the buffer at position `j`. -/
def queuedOff (q : List SkBuff) (j : ℕ) : ℕ := (bytesOf (q.take j)).length

theorem queuedOff_succ {q : List SkBuff} {j : ℕ} {skb : SkBuff} (h : q[j]? = some skb) :
    queuedOff q (j + 1) = queuedOff q j + skb.dlen := by
  obtain ⟨hj, rfl⟩ := List.getElem?_eq_some_iff.mp h
  rw [queuedOff, List.take_succ_eq_append_getElem hj, bytesOf_append, List.length_append]
  simp [queuedOff, SkBuff.dlen]

theorem queuedOff_append {q : List SkBuff} {j : ℕ} (hj : j ≤ q.length) (more : List SkBuff) :
    queuedOff (q ++ more) j = queuedOff q j := by
  rw [queuedOff, queuedOff, List.take_append_of_le_length hj]

theorem queuedOff_mono (q : List SkBuff) {i j : ℕ} (h : i ≤ j) : queuedOff q i ≤ queuedOff q j := by
  obtain ⟨d, rfl⟩ := Nat.exists_eq_add_of_le h
  rw [queuedOff, queuedOff, List.take_add, bytesOf_append, List.length_append]
  exact Nat.le_add_right _ _

theorem queuedOff_le (q : List SkBuff) (j : ℕ) : queuedOff q j ≤ (bytesOf q).length := by
  conv_rhs => rw [← List.take_append_drop j q, bytesOf_append, List.length_append]
  exact Nat.le_add_right _ _

theorem sliceAt_queued {q : List SkBuff} {j : ℕ} {skb : SkBuff} (h : q[j]? = some skb) :
    SliceAt (bytesOf q) (queuedOff q j) skb.payload := by
  obtain ⟨hj, rfl⟩ := List.getElem?_eq_some_iff.mp h
  have hslice := sliceAt_flatten (q.map SkBuff.payload) (i := j) (by simpa using hj)
  rw [List.getD_eq_getElem _ _ (by simpa using hj), List.getElem_map, ← List.map_take] at hslice
  exact hslice

/-! ## The invariant -/

/-- The buffer `x` is `y`, perhaps transmitted. -/
structure SameBuf (x y : SkBuff) : Prop where
  addr : x.addr = y.addr
  tag : x.tag = y.tag
  payload : x.payload = y.payload
  header : HeaderFrom y.th x.th

theorem SameBuf.refl (x : SkBuff) : SameBuf x x := ⟨rfl, rfl, rfl, .refl _⟩

theorem SameBuf.dlen {x y : SkBuff} (h : SameBuf x y) : x.dlen = y.dlen :=
  congrArg List.length h.payload

theorem SameBuf.withHeader {x y : SkBuff} (h : SameBuf x y) {seq : UInt32} {th : Tcphdr}
    (hth : FilledFrom x.th seq th) : SameBuf (x.withHeader th) y :=
  ⟨h.addr, h.tag, h.payload, h.header.trans hth.toHeaderFrom⟩

theorem SameBuf.at {x y : SkBuff} (h : SameBuf x y) (nxt : UInt32) : SameBuf (x.at nxt) y :=
  ⟨h.addr, h.tag, h.payload, h.header⟩

/-- The write queue is the part from `a` on of everything queued; the buffers before `b` have been
sent, one after the other from `base` on. -/
structure QueueInv (base : UInt32) (v : SndView) (a b : ℕ) : Prop where
  le : a ≤ b
  le_length : b ≤ v.queued.length
  inflight : v.inflight = b - a
  same : List.Forall₂ SameBuf v.writeQueue (v.queued.drop a)
  sent : ∀ i skb, v.writeQueue[i]? = some skb → a + i < b →
    skb.seq = seqAt base (queuedOff v.queued (a + i)) ∧
      skb.endSeq = seqAt base (queuedOff v.queued (a + i + 1))
  unsent : ∀ i skb, v.writeQueue[i]? = some skb → b ≤ a + i → skb.seq = 0
  noFin : ∀ skb ∈ v.queued, skb.th.fin = false
  sndNxt : v.sndNxt = seqAt base (queuedOff v.queued b)

theorem forall₂_getElem? {α β : Type*} {R : α → β → Prop} {l : List α} {l' : List β}
    (h : List.Forall₂ R l l') {i : ℕ} {x : α} (hx : l[i]? = some x) :
    ∃ y, l'[i]? = some y ∧ R x y := by
  obtain ⟨hi, rfl⟩ := List.getElem?_eq_some_iff.mp hx
  have hi' : i < l'.length := h.length_eq ▸ hi
  exact ⟨l'[i], List.getElem?_eq_getElem hi', h.get hi hi'⟩

section Invariant

variable {base : UInt32} {v : SndView} {a b : ℕ}

/-- The buffer of the write queue at index `i` is the one queued at position `a + i`. -/
theorem QueueInv.exists_queued (h : QueueInv base v a b) {i : ℕ} {x : SkBuff}
    (hx : v.writeQueue[i]? = some x) : ∃ y, v.queued[a + i]? = some y ∧ SameBuf x y := by
  obtain ⟨y, hy, hxy⟩ := forall₂_getElem? h.same hx
  rw [List.getElem?_drop] at hy
  exact ⟨y, hy, hxy⟩

theorem QueueInv.length (h : QueueInv base v a b) :
    v.writeQueue.length + a = v.queued.length := by
  have := h.same.length_eq
  rw [List.length_drop] at this
  have := h.le.trans h.le_length
  omega

/-! ## Acknowledgement -/

/-- **`tcp_clean_rto_queue`** takes buffers off the head of the queue. -/
theorem tcpCleanLoop_spec (una : UInt32) (q : List SkBuff) (n : ℕ) :
    ∃ c ≤ q.length, tcpCleanLoop una q n = (q.drop c, n - c) ∧
      (∀ i < c, ∀ skb, q[i]? = some skb → 0 < skb.seq ∧ skb.endSeq ≤ una) ∧
      ∀ skb, q[c]? = some skb → ¬ (0 < skb.seq ∧ skb.endSeq ≤ una) := by
  induction q generalizing n with
  | nil => exact ⟨0, le_rfl, rfl, by simp, by simp⟩
  | cons skb q ih =>
    rw [tcpCleanLoop]
    split
    · next hskb =>
      obtain ⟨c, hc, heq, hall, hend⟩ := ih (n - 1)
      refine ⟨c + 1, by simpa using hc, ?_, ?_, by simpa using hend⟩
      · rw [heq, List.drop_succ_cons, Nat.sub_sub, Nat.add_comm 1 c]
      · intro i hi x hx
        cases i with
        | zero =>
          rw [List.getElem?_cons_zero, Option.some_inj] at hx
          exact hx ▸ hskb
        | succ i => exact hall i (by omega) x (by simpa using hx)
    · next hskb =>
      refine ⟨0, Nat.zero_le _, rfl, by simp, fun x hx => ?_⟩
      rw [List.getElem?_cons_zero, Option.some_inj] at hx
      exact hx ▸ hskb

/-- **An acknowledgement** moves the first position, past buffers that have been sent and end at
or before it. -/
theorem QueueInv.ack (h : QueueInv base v a b) (ackSeq : UInt32) :
    ∃ a', a ≤ a' ∧ QueueInv base (v.ack ackSeq) a' b ∧
      (∀ i skb, v.writeQueue[i]? = some skb → a + i < a' → skb.endSeq ≤ ackSeq) ∧
      (v.sndUna < ackSeq ∧ ackSeq ≤ v.sndNxt →
        ∀ skb, v.writeQueue[a' - a]? = some skb → ¬ (0 < skb.seq ∧ skb.endSeq ≤ ackSeq)) := by
  unfold SndView.ack
  split
  · obtain ⟨c, hc, heq, hall, hend⟩ := tcpCleanLoop_spec ackSeq v.writeQueue v.inflight
    have hab : a + c ≤ b := by
      rcases Nat.eq_zero_or_pos c with rfl | hpos
      · exact h.le
      · -- the last buffer taken off has a sequence number, so it has been sent
        by_contra hlt
        have hlast : c - 1 < v.writeQueue.length := by omega
        have hx := List.getElem?_eq_getElem hlast
        have hseq := (hall (c - 1) (by omega) _ hx).1
        rw [h.unsent (c - 1) _ hx (by omega)] at hseq
        exact UInt32.lt_irrefl _ hseq
    refine ⟨a + c, Nat.le_add_right _ _, ?_, ?_, ?_⟩
    · dsimp only
      rw [heq]
      exact
        { h with
          le := hab
          inflight := by
            change v.inflight - c = b - (a + c)
            rw [h.inflight]
            omega
          same := by
            have := List.forall₂_drop c h.same
            rwa [List.drop_drop] at this
          sent := by
            intro i skb hskb hlt
            rw [List.getElem?_drop] at hskb
            rw [Nat.add_assoc] at hlt ⊢
            exact h.sent (c + i) skb hskb hlt
          unsent := by
            intro i skb hskb hle
            rw [List.getElem?_drop] at hskb
            exact h.unsent (c + i) skb hskb (by omega) }
    · exact fun i skb hskb hlt => (hall i (by omega) skb hskb).2
    · intro _ skb hskb
      exact hend skb (by rwa [Nat.add_sub_cancel_left] at hskb)
  · next hacc => exact ⟨a, le_rfl, h, fun i _ _ hlt => by omega, fun hc => absurd hc hacc⟩

/-! ## Transmission -/

/-- The transmission of a queued buffer at `seq`. -/
structure TransmissionOf (t : Transmission) (y : SkBuff) (seq : UInt32) : Prop where
  addr : t.addr = y.addr
  tag : t.tag = y.tag
  payload : t.seg.payload = y.payload
  header : FilledFrom y.th seq t.seg.th

theorem SameBuf.transmission {x y : SkBuff} (h : SameBuf x y) {seq : UInt32} {th : Tcphdr}
    (hth : FilledFrom x.th seq th) : TransmissionOf (x.transmission th) y seq :=
  ⟨h.addr, h.tag, h.payload, { h.header.trans hth.toHeaderFrom with seq := hth.seq }⟩

/-- What `tcp_send_next` leaves: the sequence numbers follow the positions. -/
structure SentNext (base : UInt32) (queued : List SkBuff) (b n : ℕ) (q q' : List SkBuff)
    (nxt' : UInt32) (ts : List Transmission) : Prop where
  le : n ≤ q.length
  same : List.Forall₂ SameBuf q' (queued.drop b)
  sent : ∀ i skb, q'[i]? = some skb → i < n → skb.seq = seqAt base (queuedOff queued (b + i)) ∧
    skb.endSeq = seqAt base (queuedOff queued (b + i + 1))
  rest : ∀ i, n ≤ i → q'[i]? = q[i]?
  nxt : nxt' = seqAt base (queuedOff queued (b + n))
  out : ∀ t ∈ ts, ∃ i < n, ∃ y, queued[b + i]? = some y ∧
    TransmissionOf t y (seqAt base (queuedOff queued (b + i)))
  covers : ∀ i < n, ∀ y, queued[b + i]? = some y → ∃ t ∈ ts, t.addr = y.addr

theorem SkBuff.after_eq {x : SkBuff} (hfin : x.th.fin = false) (nxt : UInt32) :
    x.after nxt = nxt + UInt32.ofNat x.dlen := by
  simp [SkBuff.after, hfin]

/-- **Buffers sent one after the other** get the sequence numbers of their positions. -/
theorem sentNext_of_sendsNext {queued : List SkBuff} (hfin : ∀ skb ∈ queued, skb.th.fin = false)
    {nxt nxt' : UInt32} {q q' : List SkBuff} {n : ℕ} {ts : List Transmission}
    (h : SendsNext nxt q n nxt' q' ts) (hnxt : nxt = seqAt base (queuedOff queued b))
    (hsame : List.Forall₂ SameBuf q (queued.drop b)) :
    SentNext base queued b n q q' nxt' ts := by
  induction h generalizing b with
  | nil nxt q =>
    exact ⟨Nat.zero_le _, hsame, fun i _ _ hi => by omega, fun _ _ => rfl, hnxt, by simp,
      fun i hi => by omega⟩
  | @cons nxt nxt' skb q q' n th ts hth hsends ih =>
    obtain ⟨y, hy, hskb⟩ := forall₂_getElem? hsame (List.getElem?_cons_zero (l := q))
    rw [List.getElem?_drop, Nat.add_zero] at hy
    have hb : b < queued.length := (List.getElem?_eq_some_iff.mp hy).1
    have hyfin : skb.th.fin = false := by
      rw [hskb.header.fin]
      exact hfin y (List.mem_of_getElem? hy)
    have hafter : skb.after nxt = seqAt base (queuedOff queued (b + 1)) := by
      rw [SkBuff.after_eq hyfin, hnxt, seqAt_add, queuedOff_succ hy, hskb.dlen]
    have hdrop : queued.drop b = y :: queued.drop (b + 1) := by
      rw [List.drop_eq_getElem_cons hb, (List.getElem?_eq_some_iff.mp hy).2]
    rw [hdrop] at hsame
    obtain ⟨-, hrest⟩ := List.forall₂_cons.mp hsame
    have hnext := ih hafter hrest
    refine ⟨by simpa using hnext.le, ?_, ?_, ?_, ?_, ?_, ?_⟩
    · rw [hdrop]
      exact .cons ((hskb.withHeader hth).at nxt) hnext.same
    · intro i x hx hi
      cases i with
      | zero =>
        rw [List.getElem?_cons_zero, Option.some_inj] at hx
        subst hx
        refine ⟨hnxt, ?_⟩
        rw [Nat.add_zero, ← hafter, SkBuff.after_eq hyfin]
        rfl
      | succ i =>
        have := hnext.sent i x (by simpa using hx) (by omega)
        rwa [Nat.add_right_comm, Nat.add_assoc] at this
    · intro i hi
      cases i with
      | zero => omega
      | succ i => simpa using hnext.rest i (by omega)
    · rw [hnext.nxt, Nat.add_assoc, Nat.add_comm 1 n]
    · intro t ht
      rcases List.mem_cons.mp ht with rfl | ht
      · exact ⟨0, by omega, y, hy, hnxt ▸ hskb.transmission hth⟩
      · obtain ⟨i, hi, z, hz, hof⟩ := hnext.out t ht
        rw [Nat.add_right_comm, Nat.add_assoc] at hz hof
        exact ⟨i + 1, by omega, z, hz, hof⟩
    · intro i hi z hz
      cases i with
      | zero =>
        rw [Nat.add_zero, hy, Option.some_inj] at hz
        exact ⟨_, List.mem_cons_self, hz ▸ hskb.addr⟩
      | succ i =>
        obtain ⟨t, ht, htz⟩ := hnext.covers i (by omega) z
          (by rwa [Nat.add_right_comm, Nat.add_assoc])
        exact ⟨t, List.mem_cons_of_mem _ ht, htz⟩

/-- **Sending pending buffers** moves the second position. -/
theorem QueueInv.pending (h : QueueInv base v a b) (h0 : v.inflight = 0) {n : ℕ} {nxt : UInt32}
    {q : List SkBuff} {ts : List Transmission}
    (hsends : SendsNext v.sndNxt v.writeQueue n nxt q ts) :
    QueueInv base { v with sndNxt := nxt, writeQueue := q, inflight := n } b (b + n) ∧
      SentNext base v.queued b n v.writeQueue q nxt ts := by
  obtain rfl : a = b := by
    have := h.inflight
    have := h.le
    omega
  have hsent := sentNext_of_sendsNext h.noFin hsends h.sndNxt h.same
  have hlen := h.length
  refine ⟨⟨Nat.le_add_right _ _, ?_, (Nat.add_sub_cancel_left _ _).symm, hsent.same, ?_, ?_, h.noFin,
    hsent.nxt⟩, hsent⟩
  · have := hsent.le
    change a + n ≤ v.queued.length
    omega
  · exact fun i skb hskb hlt => hsent.sent i skb hskb (by omega)
  · intro i skb hskb hle
    rw [hsent.rest i (by omega)] at hskb
    exact h.unsent i skb hskb (Nat.le_add_right _ _)

/-! ## Queueing -/

/-- A buffer joins the queue. -/
def SndView.enqueue (v : SndView) (skb : SkBuff) : SndView :=
  { v with writeQueue := v.writeQueue ++ [skb], queued := v.queued ++ [skb] }

/-- **Queueing a buffer unsent** keeps both positions. -/
theorem QueueInv.enqueue (h : QueueInv base v a b) {skb : SkBuff} (hseq : skb.seq = 0)
    (hfin : skb.th.fin = false) : QueueInv base (v.enqueue skb) a b := by
  have hlen := h.length
  have hb := h.le_length
  have hgrow : ∀ j, j ≤ v.queued.length →
      queuedOff (v.queued ++ [skb]) j = queuedOff v.queued j := fun j hj => queuedOff_append hj _
  refine ⟨h.le, ?_, h.inflight, ?_, ?_, ?_, ?_, ?_⟩
  · simp only [SndView.enqueue, List.length_append]
    omega
  · simp only [SndView.enqueue]
    rw [List.drop_append_of_le_length (h.le.trans hb)]
    exact List.rel_append h.same (.cons (.refl skb) .nil)
  · intro i x hx hlt
    simp only [SndView.enqueue] at hx ⊢
    rw [hgrow _ (by omega), hgrow _ (by omega)]
    rw [List.getElem?_append_left (by omega)] at hx
    exact h.sent i x hx hlt
  · intro i x hx hle
    simp only [SndView.enqueue] at hx
    rw [List.getElem?_append] at hx
    split at hx
    · exact h.unsent i x hx hle
    · rw [List.mem_singleton.mp (List.mem_of_getElem? hx)]
      exact hseq
  · intro x hx
    rcases List.mem_append.mp hx with hx | hx
    · exact h.noFin x hx
    · rw [List.mem_singleton.mp hx]
      exact hfin
  · exact h.sndNxt.trans (by rw [← hgrow b hb]; rfl)

/-- The buffer `skb'` goes out at once and joins the queue. -/
def SndView.sendNow (v : SndView) (skb skb' : SkBuff) : SndView :=
  { v.enqueue skb' with sndNxt := skb.after v.sndNxt, inflight := v.inflight + 1 }

/-- **Sending a new buffer at once** keeps the order when the queue is empty. -/
theorem QueueInv.sendNow (h : QueueInv base v a b) (hempty : v.writeQueue = []) {skb : SkBuff}
    (hfin : skb.th.fin = false) {th : Tcphdr} (hth : FilledFrom skb.th v.sndNxt th) :
    QueueInv base (v.sendNow skb ((skb.withHeader th).at v.sndNxt)) a (a + 1) ∧
      a = v.queued.length ∧ v.sndNxt = seqAt base (queuedOff v.queued a) := by
  have hlen := h.length
  rw [hempty, List.length_nil, Nat.zero_add] at hlen
  obtain rfl : a = b := by
    have := h.le
    have := h.le_length
    omega
  have hnxt : skb.after v.sndNxt =
      seqAt base (queuedOff (v.queued ++ [(skb.withHeader th).at v.sndNxt]) (a + 1)) := by
    have hget : (v.queued ++ [(skb.withHeader th).at v.sndNxt])[a]? =
        some ((skb.withHeader th).at v.sndNxt) := by
      rw [hlen]
      exact List.getElem?_concat_length
    rw [queuedOff_succ hget, queuedOff_append (by omega), ← seqAt_add, ← h.sndNxt]
    exact SkBuff.after_eq hfin _
  refine ⟨⟨Nat.le_succ _, ?_, ?_, ?_, ?_, ?_, ?_, hnxt⟩, hlen, h.sndNxt⟩
  · simp only [SndView.sendNow, SndView.enqueue, List.length_append, List.length_singleton]
    omega
  · simp only [SndView.sendNow, h.inflight]
    omega
  · simp only [SndView.sendNow, SndView.enqueue, hempty, List.nil_append]
    rw [hlen, List.drop_left]
    exact .cons (.refl _) .nil
  · intro i x hx _
    simp only [SndView.sendNow, SndView.enqueue, hempty, List.nil_append] at hx ⊢
    obtain rfl : i = 0 := by
      have := (List.getElem?_eq_some_iff.mp hx).1
      simpa using this
    rw [List.getElem?_cons_zero, Option.some_inj] at hx
    subst hx
    refine ⟨?_, ?_⟩
    · rw [queuedOff_append (by omega)]
      exact h.sndNxt
    · rw [Nat.add_zero, ← hnxt, SkBuff.after_eq hfin]
      rfl
  · intro i x hx hle
    simp only [SndView.sendNow, SndView.enqueue, hempty, List.nil_append] at hx
    have := (List.getElem?_eq_some_iff.mp hx).1
    simp only [List.length_singleton] at this
    omega
  · intro x hx
    rcases List.mem_append.mp hx with hx | hx
    · exact h.noFin x hx
    · rw [List.mem_singleton.mp hx]
      exact hth.fin.trans hfin

/-! ## Retransmission -/

/-- The head of the queue has been transmitted once more. -/
def SndView.setHead (v : SndView) (skb : SkBuff) (q : List SkBuff) : SndView :=
  { v with writeQueue := skb :: q }

/-- **A retransmission** touches the header of the first buffer only. -/
theorem QueueInv.retransmit (h : QueueInv base v a b) {skb : SkBuff} {q : List SkBuff}
    (hq : v.writeQueue = skb :: q) {seq : UInt32} {th : Tcphdr} (hth : FilledFrom skb.th seq th) :
    QueueInv base (v.setHead (skb.withHeader th) q) a b := by
  have hsame := h.same
  rw [hq] at hsame
  obtain ⟨y, l, hskb, hrest, hl⟩ := List.forall₂_cons_left_iff.mp hsame
  have hget : ∀ (i : ℕ) (x : SkBuff), (skb.withHeader th :: q)[i]? = some x →
      ∃ x', v.writeQueue[i]? = some x' ∧ x.seq = x'.seq ∧ x.endSeq = x'.endSeq := by
    intro i x hx
    rw [hq]
    cases i with
    | zero =>
      rw [List.getElem?_cons_zero, Option.some_inj] at hx
      subst hx
      exact ⟨skb, rfl, rfl, rfl⟩
    | succ i => exact ⟨x, by simpa using hx, rfl, rfl⟩
  exact
    { h with
      same := by
        change List.Forall₂ SameBuf (skb.withHeader th :: q) (v.queued.drop a)
        rw [hl]
        exact .cons (hskb.withHeader hth) hrest
      sent := by
        intro i x hx hlt
        obtain ⟨x', hx', hs, he⟩ := hget i x hx
        rw [hs, he]
        exact h.sent i x' hx' hlt
      unsent := by
        intro i x hx hle
        obtain ⟨x', hx', hs, -⟩ := hget i x hx
        rw [hs]
        exact h.unsent i x' hx' hle }

end Invariant

/-! ## The functions of the socket -/

section Socket

variable (env : Env) (s : TcpSock)

theorem txv_tcpRearmRtoTimer : (tcpRearmRtoTimer s).txv = { s.txv with armed := true } := by
  unfold tcpRearmRtoTimer
  dsimp only
  split <;> rfl

/-- The timer as `tcp_queue_transmit_skb` leaves it. -/
def TxView.rearm (v : TxView) : TxView :=
  { v with armed := v.armed || decide (v.snd.writeQueue = []) }

/-- **`tcp_queue_transmit_skb`** queues the buffer, and sends it at once when nothing is in
flight. -/
theorem exists_tcpQueueTransmitSkb (skb : SkBuff) :
    (s.inflight ≠ 0 ∧ (tcpQueueTransmitSkb env s skb).1.txv =
        { s.txv.rearm with snd := s.snd.enqueue skb }) ∨
      (s.inflight = 0 ∧ ∃ th, FilledFrom skb.th s.tcb.sndNxt th ∧
        (tcpQueueTransmitSkb env s skb).1.txv =
          { s.txv.rearm with
            snd := s.snd.sendNow skb ((skb.withHeader th).at s.tcb.sndNxt)
            out := s.out ++ [skb.transmission th] }) := by
  unfold tcpQueueTransmitSkb
  have hrearm : (if s.writeQueue = [] then tcpRearmRtoTimer s else s).txv = s.txv.rearm := by
    unfold TxView.rearm
    change _ = { s.txv with armed := s.txv.armed || decide (s.writeQueue = []) }
    split
    · next h => rw [txv_tcpRearmRtoTimer, decide_eq_true h, Bool.or_true]
    · next h => rw [decide_eq_false h, Bool.or_false]
  dsimp only
  generalize (if s.writeQueue = [] then tcpRearmRtoTimer s else s) = s₁ at hrearm ⊢
  have hsnd : s₁.snd = s.snd := congrArg TxView.snd hrearm
  have hinf : s₁.inflight = s.inflight := congrArg SndView.inflight hsnd
  have hnxt : s₁.tcb.sndNxt = s.tcb.sndNxt := congrArg SndView.sndNxt hsnd
  have hout : s₁.txv.out = s.out := congrArg TxView.out hrearm
  rw [hinf, ← hnxt, ← hsnd, ← hrearm, ← hout]
  split
  · next h0 =>
    obtain ⟨th, hth, hskb, hview⟩ := exists_tcpTransmitSkb env s₁ skb s₁.tcb.sndNxt
    refine .inr ⟨h0, th, hth, ?_⟩
    unfold tcpQueueTransmitNow
    dsimp only
    rw [hskb]
    generalize (tcpTransmitSkb env s₁ skb s₁.tcb.sndNxt).1 = s₂ at hview ⊢
    have hsnd₂ : s₂.snd = s₁.snd := congrArg TxView.snd hview
    have hnxt₂ : s₂.tcb.sndNxt = s₁.tcb.sndNxt := congrArg SndView.sndNxt hsnd₂
    have hafter : (if (skb.withHeader th).th.fin then s₂.tcb.sndNxt + UInt32.ofNat skb.dlen + 1
        else s₂.tcb.sndNxt + UInt32.ofNat skb.dlen) = skb.after s₂.tcb.sndNxt := by
      rw [SkBuff.after, ← hth.fin]
      rfl
    have hfinal : TxView.mk (s₂.snd.sendNow skb ((skb.withHeader th).at s₂.tcb.sndNxt)) s₂.txv.out
        s₂.txv.nextAddr s₂.txv.armed =
        { s₁.txv with
          snd := s₁.snd.sendNow skb ((skb.withHeader th).at s₁.tcb.sndNxt)
          out := s₁.txv.out ++ [skb.transmission th] } := by
      rw [hsnd₂, hnxt₂, hview]
      rfl
    rw [← hfinal, SndView.sendNow]
    change _ = TxView.mk { s₂.snd.enqueue _ with sndNxt := skb.after s₂.tcb.sndNxt, inflight := _ }
      _ _ _
    rw [← hafter]
    rfl
  · next h0 => exact .inl ⟨h0, rfl⟩

/-- The first buffer of the queue goes out once more. -/
def TxView.retransmit (v : TxView) (skb : SkBuff) (q : List SkBuff) (th : Tcphdr) : TxView :=
  { v with
    snd := v.snd.setHead (skb.withHeader th) q
    out := v.out ++ [skb.transmission th] }

/-- **`tcp_retransmission_timeout`** sends the first buffer of the queue at `snd_una`. -/
theorem exists_tcpRetransmissionTimeout {s : TcpSock} (h : s.state.connected) :
    (tcpRetransmissionTimeout env s).state.connected ∧
      ((s.writeQueue = [] ∧
          (tcpRetransmissionTimeout env s).txv = { s.txv with armed := false }) ∨
        ∃ skb q th, s.writeQueue = skb :: q ∧ FilledFrom skb.th s.tcb.sndUna th ∧
          ((tcpRetransmissionTimeout env s).txv =
              { s.txv.retransmit skb q th with armed := true } ∨
            TxStep (s.txv.retransmit skb q th) (tcpRetransmissionTimeout env s).txv)) := by
  unfold tcpRetransmissionTimeout
  dsimp only
  split
  · next hq => exact ⟨h, .inl ⟨hq, rfl⟩⟩
  · next skb q hq =>
    obtain ⟨th, hth, hskb, hview⟩ :=
      exists_tcpTransmitSkb env (tcpReleaseRtoTimer s) skb (tcpReleaseRtoTimer s).tcb.sndUna
    have hst := state_eq_of_rcv
      (rcv_tcpTransmitSkb env (tcpReleaseRtoTimer s) skb (tcpReleaseRtoTimer s).tcb.sndUna)
    rw [hskb]
    generalize (tcpTransmitSkb env (tcpReleaseRtoTimer s) skb
      (tcpReleaseRtoTimer s).tcb.sndUna).1 = s₁ at hview hst ⊢
    have hst' : s₁.state.connected := hst ▸ h
    have hset : ∀ armed, TxView.mk (s₁.txv.snd.setHead (skb.withHeader th) q) s₁.txv.out
        s₁.txv.nextAddr armed = { s.txv.retransmit skb q th with armed } := by
      intro armed
      rw [hview]
      rfl
    split
    · refine ⟨rfl, .inr ⟨skb, q, th, hq, hth, .inr ?_⟩⟩
      have hdone : TxView.mk
          { s₁.txv.snd.setHead (skb.withHeader th) q with tx := none } s₁.txv.out
          s₁.txv.nextAddr false =
          { s.txv.retransmit skb q th with
            snd := { (s.txv.retransmit skb q th).snd with tx := none }, armed := false } := by
        rw [hview]
        rfl
      have hstep := TxStep.release (s.txv.retransmit skb q th)
      rw [← hdone] at hstep
      exact hstep
    · refine ⟨?_, .inr ⟨skb, q, th, hq, hth, .inl ?_⟩⟩
      · split
        · unfold tcpHandleFinState
          split
          · rfl
          · rfl
          · exact hst'
        · exact hst'
      · rw [← hset]
        split
        · unfold tcpHandleFinState
          split <;> rfl
        · rfl

end Socket

end LvlIp.Tcp
