import LvlIp.Memory.Skbuff
import LvlIp.Receive.View
import LvlIp.Send.View

/-!
# The queue functions on memory

What `src/tcp_data.c`, `tcp_clean_rto_queue`, `tcp_queue_transmit_skb`, `tcp_send_next` and
`tcp_retransmission_timeout` do to the buffers, pointer by pointer. The other fields of the socket are
those of a `TcpSock`, whose lists are not read here. Each function does to the queues what the function
on lists does (`LvlIp.Tcp.Data`, `LvlIp.Tcp.Input`, `LvlIp.Tcp.Output`), and finds every buffer that it
touches. `tcp_calculate_sacks` walks along the out-of-order queue and stores its blocks in the socket; it
fails here when it stores one behind `sacks`, where the head of that queue lies.
-/

namespace LvlIp.Tcp

open Fec Foundations

/-- The out-of-order queue has a buffer at the sequence number, and `tcp_data_queue` takes no other. -/
def TcpSock.Repeats (s : TcpSock) (skb : SkBuff) : Prop :=
  skb.seq ≠ s.tcb.rcvNxt ∧ tcpDataInsertOrdered s.ofoQueue skb = s.ofoQueue

instance (s : TcpSock) (skb : SkBuff) : Decidable (s.Repeats skb) := inferInstanceAs (Decidable (_ ∧ _))

/-- The other fields of `t` with the queues of `s`. -/
def TcpSock.withQueues (t s : TcpSock) : TcpSock :=
  { t with receiveQueue := s.receiveQueue, ofoQueue := s.ofoQueue, writeQueue := s.writeQueue }

/-- Where SACK is agreed on, `tcp_calculate_sacks` stores its blocks in `sacks`: the array has its four
places, one of them is free, and no more are allowed. -/
def TcpSock.SacksFit (s : TcpSock) : Prop :=
  s.sackok ≠ 0 → s.sacks.length = 4 ∧ s.sacklen < 4 ∧ s.sacksAllowed ≤ 4

instance (s : TcpSock) : Decidable s.SacksFit := inferInstanceAs (Decidable (_ → _))

namespace Heap

/-- The loop of `tcp_data_insert_ordered` from the node `item` on, which `tmp` follows. -/
def insertOrderedLoop (queue : QueueId) (skb : ℕ) : ℕ → Heap → ListHead → ListHead → Option Heap
  | 0, _, _, _ => none
  | n + 1, h, item, tmp => do
    if item = .queue queue then (← h.addRefcnt skb 1).skbQueueTail queue skb
    else
      let next ← listEntry item
      let c ← h.cells skb
      let d ← h.cells next
      if c.buf.seq < d.buf.seq then
        if d.buf.seq < c.buf.endSeq then insertOrderedLoop queue skb n h tmp (← h.links.next tmp)
        else (← h.addRefcnt skb 1).skbQueueAdd queue skb next
      else if c.buf.seq = d.buf.seq then some h
      else insertOrderedLoop queue skb n h tmp (← h.links.next tmp)

/-- `tcp_data_insert_ordered`. -/
def tcpDataInsertOrdered (h : Heap) (queue : QueueId) (skb : ℕ) : Option Heap := do
  let item ← h.links.next (.queue queue)
  insertOrderedLoop queue skb (h.qlen queue + 1) h item (← h.links.next item)

/-- The loop of `tcp_consume_ofo_queue`. -/
def consumeLoop : ℕ → Heap → UInt32 → Option (Heap × UInt32)
  | 0, _, _ => none
  | n + 1, h, rcvNxt => do
    match ← h.skbPeek .ofo with
    | none => some (h, rcvNxt)
    | some skb =>
      let c ← h.cells skb
      if rcvNxt = c.buf.seq then
        let r ← h.skbDequeue .ofo
        consumeLoop n (← r.1.skbQueueTail .receive skb) (rcvNxt + UInt32.ofNat c.buf.dlen)
      else some (h, rcvNxt)

/-- `tcp_consume_ofo_queue`. -/
def tcpConsumeOfoQueue (h : Heap) (rcvNxt : UInt32) : Option (Heap × UInt32) :=
  consumeLoop (h.qlen .ofo + 1) h rcvNxt

/-- A block is stored in `sacks`. -/
def storeSack (sacks : List TcpSackBlock) (i : ℕ) (sb : TcpSackBlock) : Option (List TcpSackBlock) :=
  if i < sacks.length then some (sacks.set i sb) else none

/-- The loop of `tcp_calculate_sacks` from the node `item` on, which `tmp` follows; `sb` is the index of
the block being filled. -/
def sackLoop (allowed : ℕ) : ℕ → Heap → ListHead → ListHead → ℕ → ℕ → List TcpSackBlock →
    Option (ℕ × List TcpSackBlock)
  | 0, _, _, _, _, _, _ => none
  | n + 1, h, item, tmp, sb, sacklen, sacks => do
    if item = .queue .ofo then some (sacklen, sacks)
    else
      let next ← listEntry item
      let c ← h.cells next
      let cur := sacks.getD sb ⟨0, 0⟩
      let opened : TcpSackBlock × ℕ :=
        if cur.left = 0 then ({ cur with left := c.buf.seq }, sacklen + 1) else (cur, sacklen)
      if opened.1.right = 0 ∨ opened.1.right = c.buf.seq then
        let sacks ← storeSack sacks sb { opened.1 with right := c.buf.endSeq }
        sackLoop allowed n h tmp (← h.links.next tmp) sb opened.2 sacks
      else
        let sacks ← storeSack sacks sb opened.1
        if allowed ≤ opened.2 then some (opened.2, sacks)
        else
          let sacks ← storeSack sacks opened.2 ⟨c.buf.seq, c.buf.endSeq⟩
          sackLoop allowed n h tmp (← h.links.next tmp) opened.2 (opened.2 + 1) sacks

/-- `tcp_calculate_sacks`. -/
def tcpCalculateSacks (h : Heap) (s : TcpSock) : Option TcpSock := do
  let sacks ← storeSack s.sacks s.sacklen ⟨0, 0⟩
  let item ← h.links.next (.queue .ofo)
  let r ← sackLoop s.sacksAllowed (h.qlen .ofo + 1) h item (← h.links.next item) s.sacklen s.sacklen sacks
  some { s with sacklen := r.1, sacks := r.2 }

/-- `tcp_data_queue`. -/
def tcpDataQueue (env : Env) (h : Heap) (s : TcpSock) (skb : ℕ) : Option (Heap × TcpSock) := do
  if s.tcb.rcvWnd = 0 then
    some (← h.freeSkb skb, s)
  else
    let c ← h.cells skb
    if c.buf.seq = s.tcb.rcvNxt then
      let r ← (← (← h.addRefcnt skb 1).skbQueueTail .receive skb).tcpConsumeOfoQueue
        (s.tcb.rcvNxt + UInt32.ofNat c.buf.dlen)
      some (r.1, { s with tcb.rcvNxt := r.2 })
    else
      let h ← h.tcpDataInsertOrdered .ofo skb
      let s ← if s.sackok ≠ 0 then h.tcpCalculateSacks s else some s
      some (h, tcpSendAck env s)

/-- The loop of `tcp_data_dequeue`: what has been copied so far, and whether PSH has been seen. -/
def dequeueLoop (userlen : ℕ) : ℕ → Heap → List UInt8 → Bool → Option (Heap × List UInt8 × Bool)
  | 0, _, _, _ => none
  | n + 1, h, copied, psh => do
    if h.skbQueueEmpty .receive ∨ userlen ≤ copied.length then some (h, copied, psh)
    else
      match ← h.skbPeek .receive with
      | none => some (h, copied, psh)
      | some skb =>
        let c ← h.cells skb
        let dlen := if userlen < copied.length + c.buf.dlen then userlen - copied.length else c.buf.dlen
        let h ← h.setBuf skb { c.buf with payload := c.buf.payload.drop dlen }
        let c' ← h.cells skb
        if c'.buf.dlen = 0 then
          dequeueLoop userlen n (← h.dropHead .receive skb) (copied ++ c.buf.payload.take dlen)
            (psh || c.buf.th.psh)
        else dequeueLoop userlen n h (copied ++ c.buf.payload.take dlen) psh

/-- `tcp_data_dequeue`. -/
def tcpDataDequeue (h : Heap) (userlen : ℕ) : Option (Heap × List UInt8 × Bool) :=
  dequeueLoop userlen (h.qlen .receive + 1) h [] false

/-- The loop of `tcp_clean_rto_queue`. -/
def cleanLoop (una : UInt32) : ℕ → Heap → ℕ → Option (Heap × ℕ)
  | 0, _, _ => none
  | n + 1, h, inflight => do
    match ← h.skbPeek .write with
    | none => some (h, inflight)
    | some skb =>
      let c ← h.cells skb
      if 0 < c.buf.seq ∧ c.buf.endSeq ≤ una then
        cleanLoop una n (← h.dropHead .write skb) (if 0 < inflight then inflight - 1 else inflight)
      else some (h, inflight)

/-- `tcp_clean_rto_queue`, and the new `inflight`. -/
def tcpCleanRtoQueue (h : Heap) (s : TcpSock) (una : UInt32) : Option (Heap × ℕ) :=
  cleanLoop una (h.qlen .write + 1) h s.inflight

/-- `tcp_queue_transmit_skb`. -/
def tcpQueueTransmitSkb (env : Env) (h : Heap) (s : TcpSock) (skb : ℕ) : Option Heap := do
  let s := if h.skbQueueEmpty .write then tcpRearmRtoTimer s else s
  if s.inflight = 0 then
    let c ← h.cells skb
    let t := tcpTransmitSkb env s c.buf s.tcb.sndNxt
    (← h.setBuf skb (t.2.1.at t.1.tcb.sndNxt)).skbQueueTail .write skb
  else h.skbQueueTail .write skb

/-- The loop of `tcp_send_next` from the node `item` on, which `tmp` follows. -/
def sendNextLoop (env : Env) : ℕ → TcpSock → Heap → ListHead → ListHead → Option (TcpSock × Heap)
  | 0, s, h, _, _ => some (s, h)
  | n + 1, s, h, item, tmp => do
    if item = .queue .write then some (s, h)
    else
      let next ← listEntry item
      let c ← h.cells next
      let t := tcpTransmitSkb env s c.buf s.tcb.sndNxt
      let h ← h.setBuf next (t.2.1.at t.1.tcb.sndNxt)
      sendNextLoop env n (tcpAdvanceNxt t.1 t.2.1) h tmp (← h.links.next tmp)

/-- `tcp_send_next`. -/
def tcpSendNext (env : Env) (h : Heap) (s : TcpSock) (amount : ℕ) : Option (TcpSock × Heap) := do
  let item ← h.links.next (.queue .write)
  sendNextLoop env amount s h item (← h.links.next item)

/-- `tcp_retransmission_timeout`. -/
def tcpRetransmissionTimeout (env : Env) (h : Heap) (s : TcpSock) : Option Heap := do
  let s := tcpReleaseRtoTimer s
  match ← h.skbPeek .write with
  | none => some h
  | some skb =>
    let c ← h.cells skb
    let t := tcpTransmitSkb env s c.buf s.tcb.sndUna
    let h ← h.setBuf skb t.2.1
    if 60000 < t.1.rto then h.skbQueueFree .ofo else some h

end Heap

section Timeout

variable (env : Env) {s : TcpSock}

theorem timeout_nil (hs : s.writeQueue = []) :
    (tcpRetransmissionTimeout env s).receiveQueue = s.receiveQueue ∧
      (tcpRetransmissionTimeout env s).ofoQueue = s.ofoQueue ∧
      (tcpRetransmissionTimeout env s).writeQueue = [] := by
  unfold tcpRetransmissionTimeout
  dsimp only
  rw [show (tcpReleaseRtoTimer s).writeQueue = [] from hs]
  exact ⟨rfl, rfl, rfl⟩

/-- The head of the write queue goes out again; the last time, the connection is given up. -/
theorem timeout_cons {skb : SkBuff} {q : List SkBuff} (hs : s.writeQueue = skb :: q) :
    (tcpRetransmissionTimeout env s).receiveQueue = s.receiveQueue ∧
      (tcpRetransmissionTimeout env s).writeQueue =
        (tcpTransmitSkb env (tcpReleaseRtoTimer s) skb (tcpReleaseRtoTimer s).tcb.sndUna).2.1 :: q ∧
      (tcpRetransmissionTimeout env s).ofoQueue =
        if 60000 < (tcpTransmitSkb env (tcpReleaseRtoTimer s) skb (tcpReleaseRtoTimer s).tcb.sndUna).1.rto
        then [] else s.ofoQueue := by
  have hview := rcv_tcpTransmitSkb env (tcpReleaseRtoTimer s) skb (tcpReleaseRtoTimer s).tcb.sndUna
  have hqueue := congrArg RcvView.ofoQueue hview
  have hreceive := congrArg RcvView.receiveQueue hview
  unfold tcpRetransmissionTimeout
  dsimp only
  rw [show (tcpReleaseRtoTimer s).writeQueue = skb :: q from hs]
  dsimp only
  generalize tcpTransmitSkb env (tcpReleaseRtoTimer s) skb (tcpReleaseRtoTimer s).tcb.sndUna = t
    at hqueue hreceive ⊢
  split
  · exact ⟨hreceive, rfl, rfl⟩
  · have hfin : ∀ s' : TcpSock, (tcpHandleFinState s').receiveQueue = s'.receiveQueue ∧
        (tcpHandleFinState s').writeQueue = s'.writeQueue ∧
        (tcpHandleFinState s').ofoQueue = s'.ofoQueue := by
      intro s'
      unfold tcpHandleFinState
      split <;> exact ⟨rfl, rfl, rfl⟩
    split
    · exact ⟨(hfin _).1.trans hreceive, (hfin _).2.1, (hfin _).2.2.trans hqueue⟩
    · exact ⟨hreceive, rfl, hqueue⟩

end Timeout

namespace Heap.Holds

variable {h : Heap} {R : QueueId → Bufs} {L : List (ℕ × Cell)} {q : QueueId} {p : ℕ}

/-! ## Walking along a queue -/

/-- The node at which a part of a queue starts. -/
def nodeAt (q : QueueId) (xs : Bufs) : ListHead := (xs.map fun x => ListHead.skb x.1).headD (.queue q)

theorem next_nodeAt (hh : h.Holds R L) {xs ys : Bufs} {x : ℕ × SkBuff} (hR : R q = xs ++ x :: ys) :
    h.links.next (.skb x.1) = some (nodeAt q ys) := by
  have hring := hh.ring q
  rw [hR, List.map_append, List.map_cons] at hring
  exact hring.next

/-- Every node of a queue, and its head, has a node after it. -/
theorem exists_next (hh : h.Holds R L) {xs ys : Bufs} (hR : R q = xs ++ ys) :
    ∃ tmp, h.links.next (nodeAt q ys) = some tmp := by
  cases ys with
  | nil => exact ⟨_, (hh.ring q).first⟩
  | cons y ys => exact ⟨_, hh.next_nodeAt hR⟩

theorem next_queue (hh : h.Holds R L) (q : QueueId) : h.links.next (.queue q) = some (nodeAt q (R q)) :=
  (hh.ring q).first

/-! ## The out-of-order queue -/

/-- A buffer that joins a queue takes a reference. -/
theorem joinTail {buf : SkBuff} (hq : q.refs = 1) (hh : h.Holds R ((p, ⟨buf, 0⟩) :: L)) :
    ∃ h', (h.addRefcnt p 1).bind (·.skbQueueTail q p) = some h' ∧
      h'.Holds (Function.update R q (R q ++ [(p, buf)])) L := by
  obtain ⟨h₁, heq₁, hh₁⟩ := hh.addRefcnt 1
  have hrefs : (0 : ℤ) + 1 = q.refs := hq.symm
  rw [hrefs] at hh₁
  obtain ⟨h₂, heq₂, hh₂⟩ := hh₁.skbQueueTail
  exact ⟨h₂, by rw [heq₁]; exact heq₂, hh₂⟩

theorem joinBefore {buf : SkBuff} (hq : q.refs = 1) (hh : h.Holds R ((p, ⟨buf, 0⟩) :: L)) {xs ys : Bufs}
    {x : ℕ × SkBuff} (hR : R q = xs ++ x :: ys) :
    ∃ h', (h.addRefcnt p 1).bind (·.skbQueueAdd q p x.1) = some h' ∧
      h'.Holds (Function.update R q (xs ++ (p, buf) :: x :: ys)) L := by
  obtain ⟨h₁, heq₁, hh₁⟩ := hh.addRefcnt 1
  have hrefs : (0 : ℤ) + 1 = q.refs := hq.symm
  rw [hrefs] at hh₁
  obtain ⟨h₂, heq₂, hh₂⟩ := hh₁.skbQueueAdd hR
  exact ⟨h₂, by rw [heq₁]; exact heq₂, hh₂⟩

/-- What an insertion into the part `xs` of a queue comes to: either the buffer is already there, and
stays outside, or it has a place. -/
def Inserted (h' : Heap) (R : QueueId → Bufs) (L : List (ℕ × Cell)) (q : QueueId) (p : ℕ) (buf : SkBuff)
    (pre xs : Bufs) : Prop :=
  (Tcp.tcpDataInsertOrdered (xs.map Prod.snd) buf = xs.map Prod.snd ∧
      h'.Holds R ((p, ⟨buf, 0⟩) :: L)) ∨
    ∃ ys, ys.map Prod.snd = Tcp.tcpDataInsertOrdered (xs.map Prod.snd) buf ∧
      ys.length = xs.length + 1 ∧ (p, buf) ∈ ys ∧ h'.Holds (Function.update R q (pre ++ ys)) L

/-- The search goes on behind `x`. -/
theorem Inserted.cons {h' : Heap} {buf : SkBuff} {pre xs : Bufs} {x : ℕ × SkBuff}
    (hi : Inserted h' R L q p buf (pre ++ [x]) xs)
    (hins : Tcp.tcpDataInsertOrdered ((x :: xs).map Prod.snd) buf =
      x.2 :: Tcp.tcpDataInsertOrdered (xs.map Prod.snd) buf) :
    Inserted h' R L q p buf pre (x :: xs) := by
  rcases hi with ⟨hsame, hh'⟩ | ⟨ys, hys, hlen, hmem, hh'⟩
  · refine .inl ⟨?_, hh'⟩
    rw [hins, hsame]
    rfl
  · refine .inr ⟨x :: ys, ?_, ?_, List.mem_cons_of_mem _ hmem, ?_⟩
    · rw [hins, ← hys]
      rfl
    · rw [List.length_cons, hlen, List.length_cons]
    · rwa [List.append_assoc] at hh'

theorem insertOrderedLoop {buf : SkBuff} (hq : q.refs = 1) (hh : h.Holds R ((p, ⟨buf, 0⟩) :: L))
    {pre xs : Bufs} (hR : R q = pre ++ xs) {n : ℕ} (hn : xs.length < n) {tmp : ListHead}
    (htmp : h.links.next (nodeAt q xs) = some tmp) :
    ∃ h', Heap.insertOrderedLoop q p n h (nodeAt q xs) tmp = some h' ∧
      Inserted h' R L q p buf pre xs := by
  induction xs generalizing n pre tmp with
  | nil =>
    obtain ⟨m, rfl⟩ := Nat.exists_eq_succ_of_ne_zero (Nat.ne_of_gt hn)
    obtain ⟨h', heq, hh'⟩ := hh.joinTail hq
    refine ⟨h', ?_, .inr ⟨[(p, buf)], rfl, rfl, List.mem_singleton_self _, ?_⟩⟩
    · unfold Heap.insertOrderedLoop
      rw [if_pos (show nodeAt q [] = .queue q from rfl)]
      exact heq
    · rw [show pre = R q by rw [hR, List.append_nil]]
      exact hh'
  | cons x xs ih =>
    obtain ⟨m, rfl⟩ := Nat.exists_eq_succ_of_ne_zero (Nat.ne_of_gt (Nat.zero_lt_of_lt hn))
    have hx : x ∈ R q := hR ▸ List.mem_append_right _ List.mem_cons_self
    have hnext : tmp = nodeAt q xs := Option.some.inj (htmp.symm.trans (hh.next_nodeAt hR))
    have hR' : R q = (pre ++ [x]) ++ xs := by rw [hR, List.append_assoc]; rfl
    obtain ⟨tmp', htmp'⟩ := hh.exists_next hR'
    obtain ⟨h', heq, hi⟩ := ih hR' (Nat.lt_of_succ_lt_succ hn) htmp'
    have hcell := (hh.loose _ List.mem_cons_self).1
    have hcell' := hh.cell q x hx
    unfold Heap.insertOrderedLoop
    rw [show nodeAt q (x :: xs) = .skb x.1 from rfl, if_neg (queue_ne_skb q x.1).symm]
    simp only [Heap.listEntry, Option.bind_eq_bind, Option.bind_some, hcell, hcell']
    rw [hnext, htmp']
    simp only [Option.bind_some, heq]
    split
    · next hlt =>
      split
      · next hover =>
        refine ⟨h', rfl, hi.cons ?_⟩
        simp only [List.map_cons, Tcp.tcpDataInsertOrdered, if_pos hlt, if_pos hover]
      · next hover =>
        obtain ⟨h₁, heq₁, hh₁⟩ := hh.joinBefore hq hR
        refine ⟨h₁, heq₁, .inr ⟨(p, buf) :: x :: xs, ?_, rfl, List.mem_cons_self, hh₁⟩⟩
        simp only [List.map_cons, Tcp.tcpDataInsertOrdered, if_pos hlt, if_neg hover]
    · next hlt =>
      split
      · next hsame =>
        refine ⟨h, rfl, .inl ⟨?_, hh⟩⟩
        simp only [List.map_cons, Tcp.tcpDataInsertOrdered, if_neg hlt, if_pos hsame]
      · next hsame =>
        refine ⟨h', rfl, hi.cons ?_⟩
        simp only [List.map_cons, Tcp.tcpDataInsertOrdered, if_neg hlt, if_neg hsame]

/-- **`tcp_data_insert_ordered`.** -/
theorem tcpDataInsertOrdered {buf : SkBuff} (hq : q.refs = 1) (hh : h.Holds R ((p, ⟨buf, 0⟩) :: L)) :
    ∃ h', h.tcpDataInsertOrdered q p = some h' ∧ Inserted h' R L q p buf [] (R q) := by
  obtain ⟨tmp, htmp⟩ := hh.exists_next (show R q = [] ++ R q from rfl)
  obtain ⟨h', heq, hi⟩ := hh.insertOrderedLoop hq (show R q = [] ++ R q from rfl) (Nat.lt_succ_self _) htmp
  refine ⟨h', ?_, hi⟩
  unfold Heap.tcpDataInsertOrdered
  rw [hh.next_queue q, hh.qlen q]
  simp only [Option.bind_eq_bind, Option.bind_some, htmp]
  exact heq

theorem consumeLoop (hh : h.Holds R L) {n : ℕ} (hn : (R .ofo).length < n) (rcvNxt : UInt32) :
    ∃ h' R', Heap.consumeLoop n h rcvNxt =
        some (h', (tcpConsumeLoop rcvNxt ((R .ofo).map Prod.snd)).2.2) ∧ h'.Holds R' L ∧
      (R' .receive).map Prod.snd =
        (R .receive).map Prod.snd ++ (tcpConsumeLoop rcvNxt ((R .ofo).map Prod.snd)).1 ∧
      (R' .ofo).map Prod.snd = (tcpConsumeLoop rcvNxt ((R .ofo).map Prod.snd)).2.1 ∧
      R' .write = R .write ∧ ∀ x ∈ R .receive, x ∈ R' .receive := by
  induction n generalizing h R rcvNxt with
  | zero => exact absurd hn (Nat.not_lt_zero _)
  | succ n ih =>
    unfold Heap.consumeLoop
    rw [hh.skbPeek .ofo]
    cases hR : R .ofo with
    | nil => exact ⟨h, R, rfl, hh, (List.append_nil _).symm, by rw [hR]; rfl, rfl, fun _ hx => hx⟩
    | cons x xs =>
      have hcell := hh.cell .ofo x (hR ▸ List.mem_cons_self)
      simp only [Option.bind_eq_bind, Option.bind_some, List.head?_cons, Option.map_some, hcell,
        List.map_cons, tcpConsumeLoop]
      split
      · obtain ⟨h₁, heq₁, hh₁⟩ := hh.skbDequeue hR
        obtain ⟨h₂, heq₂, hh₂⟩ := Heap.Holds.skbQueueTail (q := .receive) hh₁
        obtain ⟨h₃, R₃, heq₃, hh₃, hrec, hofo, hwrite, hmem⟩ := ih hh₂ (by
          simp only [Function.update_of_ne (show QueueId.ofo ≠ .receive by decide), Function.update_self]
          rw [hR] at hn
          exact Nat.lt_of_succ_lt_succ hn) (rcvNxt + UInt32.ofNat x.2.dlen)
        simp only [Function.update_of_ne (show QueueId.ofo ≠ .receive by decide),
          Function.update_of_ne (show QueueId.receive ≠ .ofo by decide),
          Function.update_of_ne (show QueueId.write ≠ .receive by decide),
          Function.update_of_ne (show QueueId.write ≠ .ofo by decide), Function.update_self,
          List.map_append, List.append_assoc] at heq₃ hrec hofo hwrite hmem
        refine ⟨h₃, R₃, ?_, hh₃, hrec, hofo, hwrite, fun y hy => hmem y (List.mem_append_left _ hy)⟩
        simp only [heq₁, heq₂, Option.bind_some, heq₃]
      · exact ⟨h, R, rfl, hh, (List.append_nil _).symm, by rw [hR]; rfl, rfl, fun _ hx => hx⟩

/-! ## The SACK blocks -/

theorem storeSack_of_lt {sacks : List TcpSackBlock} {i : ℕ} (hi : i < sacks.length) (sb : TcpSackBlock) :
    Heap.storeSack sacks i sb = some (sacks.set i sb) :=
  if_pos hi

theorem sackLoop (hh : h.Holds R L) {allowed : ℕ} {pre xs : Bufs} (hR : R .ofo = pre ++ xs) {n : ℕ}
    (hn : xs.length < n) {tmp : ListHead} (htmp : h.links.next (nodeAt .ofo xs) = some tmp)
    {sacks : List TcpSackBlock} (hallowed : allowed ≤ sacks.length) {sb : ℕ} (hsb : sb < sacks.length)
    (sacklen : ℕ) :
    Heap.sackLoop allowed n h (nodeAt .ofo xs) tmp sb sacklen sacks =
      some (tcpSackLoop allowed (xs.map Prod.snd) sb sacklen sacks) := by
  induction xs generalizing n pre tmp sacks sb sacklen with
  | nil =>
    obtain ⟨m, rfl⟩ := Nat.exists_eq_succ_of_ne_zero (Nat.ne_of_gt hn)
    unfold Heap.sackLoop
    exact if_pos rfl
  | cons x xs ih =>
    obtain ⟨m, rfl⟩ := Nat.exists_eq_succ_of_ne_zero (Nat.ne_of_gt (Nat.zero_lt_of_lt hn))
    have hx : x ∈ R .ofo := hR ▸ List.mem_append_right _ List.mem_cons_self
    have hnext : tmp = nodeAt .ofo xs := Option.some.inj (htmp.symm.trans (hh.next_nodeAt hR))
    have hR' : R .ofo = (pre ++ [x]) ++ xs := by rw [hR, List.append_assoc]; rfl
    obtain ⟨tmp', htmp'⟩ := hh.exists_next hR'
    have hm := Nat.lt_of_succ_lt_succ hn
    unfold Heap.sackLoop
    rw [show nodeAt .ofo (x :: xs) = .skb x.1 from rfl, if_neg (queue_ne_skb .ofo x.1).symm]
    simp only [Heap.listEntry, Option.bind_eq_bind, Option.bind_some, hh.cell .ofo x hx,
      List.map_cons, tcpSackLoop]
    rw [hnext, htmp']
    generalize (if (sacks.getD sb ⟨0, 0⟩).left = 0 then
      ({ sacks.getD sb ⟨0, 0⟩ with left := x.2.seq }, sacklen + 1)
      else (sacks.getD sb ⟨0, 0⟩, sacklen)) = opened
    split
    · rw [storeSack_of_lt hsb]
      simp only [Option.bind_some]
      exact ih hR' hm htmp' (by rwa [List.length_set]) (by rwa [List.length_set]) _
    · rw [storeSack_of_lt hsb]
      simp only [Option.bind_some]
      split
      · rfl
      · next hroom =>
        have hlt : opened.2 < (sacks.set sb opened.1).length := by
          rw [List.length_set]
          omega
        rw [storeSack_of_lt hlt]
        simp only [Option.bind_some]
        refine ih hR' hm htmp' ?_ ?_ _
        · rwa [List.length_set, List.length_set]
        · rwa [List.length_set]

/-- **`tcp_calculate_sacks`**, with its blocks in their array. -/
theorem tcpCalculateSacks (hh : h.Holds R L) {s : TcpSock} (hok : s.sackok ≠ 0) (hfit : s.SacksFit)
    {t : TcpSock} (hofo : (R .ofo).map Prod.snd = t.ofoQueue) :
    h.tcpCalculateSacks s = some ((Tcp.tcpCalculateSacks (s.withQueues t)).withQueues s) := by
  obtain ⟨hlen, hlt, hallowed⟩ := hfit hok
  obtain ⟨tmp, htmp⟩ := hh.exists_next (show R .ofo = [] ++ R .ofo from rfl)
  have hset : (s.sacks.set s.sacklen ⟨0, 0⟩).length = 4 := List.length_set.trans hlen
  have hloop := hh.sackLoop (show R .ofo = [] ++ R .ofo from rfl) (Nat.lt_succ_self _) htmp
    (hallowed.trans_eq hset.symm) (hlt.trans_eq hset.symm) s.sacklen
  unfold Heap.tcpCalculateSacks Tcp.tcpCalculateSacks
  rw [storeSack_of_lt (hlen ▸ hlt), hh.next_queue .ofo, hh.qlen .ofo,
    tcpSackBlocks_of_lt (s := s.withQueues t) hlt]
  simp only [Option.bind_eq_bind, Option.bind_some, htmp, hloop, hofo]
  rfl

theorem tcpTransmitSkb_withQueues (env : Env) (s t : TcpSock) (skb : SkBuff) (seq : UInt32) :
    (tcpTransmitSkb env (s.withQueues t) skb seq).1 =
      (tcpTransmitSkb env s skb seq).1.withQueues t := by
  unfold tcpTransmitSkb tcpFillOptions tcpWriteOptions
  simp only [TcpSock.withQueues, tcpFillHeader]
  split_ifs <;> rfl

/-- The acknowledgement has nothing to do with the queues. -/
theorem tcpSendAck_withQueues (env : Env) (s t : TcpSock) :
    tcpSendAck env (s.withQueues t) = (tcpSendAck env s).withQueues t := by
  unfold tcpSendAck
  change (if s.state = .close then s.withQueues t else _) = _
  split
  · rfl
  · exact tcpTransmitSkb_withQueues env { s with nextAddr := s.nextAddr + 1 } t _ _

/-- The acknowledgement of a buffer that is out of order, after the queue in memory has taken it. -/
theorem acknowledge (env : Env) (hh : h.Holds R L) {s : TcpSock} (hwnd : s.tcb.rcvWnd ≠ 0)
    (hfit : s.SacksFit) {buf : SkBuff} (hseq : buf.seq ≠ s.tcb.rcvNxt)
    (hofo : (R .ofo).map Prod.snd = Tcp.tcpDataInsertOrdered s.ofoQueue buf) :
    ∃ s', (if s.sackok ≠ 0 then
        (h.tcpCalculateSacks s).bind fun s => some (h, tcpSendAck env s)
        else some (h, tcpSendAck env s)) = some (h, s') ∧
      s'.withQueues (Tcp.tcpDataQueue env s buf) = Tcp.tcpDataQueue env s buf := by
  have hlist : Tcp.tcpDataQueue env s buf = tcpSendAck env (if s.sackok ≠ 0 then
      Tcp.tcpCalculateSacks { s with ofoQueue := Tcp.tcpDataInsertOrdered s.ofoQueue buf }
      else { s with ofoQueue := Tcp.tcpDataInsertOrdered s.ofoQueue buf }) := by
    unfold Tcp.tcpDataQueue
    rw [if_neg hwnd, if_neg hseq]
  -- whatever the blocks are, the queues come from the lists
  have hack : ∀ s₁ : TcpSock, (tcpSendAck env (s₁.withQueues s)).withQueues (tcpSendAck env s₁) =
      tcpSendAck env s₁ := by
    intro s₁
    rw [tcpSendAck_withQueues]
    rfl
  rw [hlist]
  split
  · next hok =>
    have hsacks := hh.tcpCalculateSacks hok hfit
      (t := { s with ofoQueue := Tcp.tcpDataInsertOrdered s.ofoQueue buf }) hofo
    exact ⟨_, by rw [hsacks]; rfl, hack _⟩
  · exact ⟨_, rfl, hack { s with ofoQueue := Tcp.tcpDataInsertOrdered s.ofoQueue buf }⟩

/-- **`tcp_data_queue`.** Unless the buffer repeats one that waits, a queue holds it afterwards. -/
theorem tcpDataQueue (env : Env) {s : TcpSock} (hwnd : s.tcb.rcvWnd ≠ 0) (hfit : s.SacksFit)
    {buf : SkBuff} (hh : h.Holds R ((p, ⟨buf, 0⟩) :: L)) (hrec : (R .receive).map Prod.snd = s.receiveQueue)
    (hofo : (R .ofo).map Prod.snd = s.ofoQueue) :
    ∃ h' s' R', h.tcpDataQueue env s p = some (h', s') ∧
      s'.withQueues (Tcp.tcpDataQueue env s buf) = Tcp.tcpDataQueue env s buf ∧
      (R' .receive).map Prod.snd = (Tcp.tcpDataQueue env s buf).receiveQueue ∧
      (R' .ofo).map Prod.snd = (Tcp.tcpDataQueue env s buf).ofoQueue ∧ R' .write = R .write ∧
      ((s.Repeats buf ∧ h'.Holds R' ((p, ⟨buf, 0⟩) :: L)) ∨
        (¬ s.Repeats buf ∧ h'.Holds R' L ∧ ∃ q, q.refs = 1 ∧ ∃ x ∈ R' q, x.1 = p)) := by
  have hcell := (hh.loose _ List.mem_cons_self).1
  have hview := rcv_tcpDataQueue env s buf
  have hreceive := congrArg RcvView.receiveQueue hview
  have hqueue := congrArg RcvView.ofoQueue hview
  change (Tcp.tcpDataQueue env s buf).receiveQueue = _ at hreceive
  change (Tcp.tcpDataQueue env s buf).ofoQueue = _ at hqueue
  unfold RcvView.dataQueue at hreceive hqueue
  rw [if_neg (show s.rcv.rcvWnd ≠ 0 from hwnd)] at hreceive hqueue
  rw [hreceive, hqueue]
  unfold Heap.tcpDataQueue
  rw [if_neg hwnd]
  simp only [hcell, Option.bind_eq_bind, Option.bind_some]
  by_cases hseq : buf.seq = s.tcb.rcvNxt
  · obtain ⟨h₁, heq₁, hh₁⟩ := Heap.Holds.joinTail (q := .receive) rfl hh
    obtain ⟨h₂, R₂, heq₂, hh₂, hrec₂, hofo₂, hwrite₂, hmem⟩ := hh₁.consumeLoop (Nat.lt_succ_self _)
      (s.tcb.rcvNxt + UInt32.ofNat buf.dlen)
    have hlen := hh₁.qlen .ofo
    simp only [Function.update_of_ne (show QueueId.ofo ≠ .receive by decide),
      Function.update_of_ne (show QueueId.write ≠ .receive by decide), Function.update_self, hofo,
      List.map_append, hrec] at heq₂ hrec₂ hofo₂ hwrite₂ hmem hlen
    simp only [if_pos hseq, if_pos (show buf.seq = s.rcv.rcvNxt from hseq)]
    have hconsume : h₁.tcpConsumeOfoQueue (s.tcb.rcvNxt + UInt32.ofNat buf.dlen) =
        some (h₂, (tcpConsumeLoop (s.tcb.rcvNxt + UInt32.ofNat buf.dlen) s.ofoQueue).2.2) := by
      unfold Heap.tcpConsumeOfoQueue
      rw [hlen]
      exact heq₂
    refine ⟨h₂, { s with
        tcb.rcvNxt := (tcpConsumeLoop (s.tcb.rcvNxt + UInt32.ofNat buf.dlen) s.ofoQueue).2.2 },
      R₂, ?_, ?_, ?_, hofo₂, hwrite₂, .inr ⟨fun hrep => hrep.1 hseq, hh₂, .receive, rfl,
      (p, buf), hmem _ (List.mem_append_right _ (List.mem_singleton_self _)), rfl⟩⟩
    · obtain ⟨h₀, heq₀, htail⟩ := Option.bind_eq_some_iff.mp heq₁
      simp only [heq₀, Option.bind_some, htail, hconsume]
    · unfold Tcp.tcpDataQueue
      rw [if_neg hwnd, if_pos hseq]
      rfl
    · rw [hrec₂, List.append_assoc]
      rfl
  · obtain ⟨h₁, heq₁, hi⟩ := Heap.Holds.tcpDataInsertOrdered (q := .ofo) rfl hh
    simp only [if_neg hseq, if_neg (show ¬ buf.seq = s.rcv.rcvNxt from hseq), heq₁, Option.bind_some]
    unfold Inserted at hi
    rw [hofo] at hi
    rcases hi with ⟨hsame, hh₁⟩ | ⟨ys, hys, hlen, hmem, hh₁⟩
    · obtain ⟨s', heq', hs'⟩ := hh₁.acknowledge env hwnd hfit hseq (hofo.trans hsame.symm)
      exact ⟨h₁, _, R, heq', hs', hrec, hofo.trans hsame.symm, rfl,
        .inl ⟨⟨hseq, hsame⟩, hh₁⟩⟩
    · have hne : ¬ s.Repeats buf := by
        intro hrep
        have hlength := congrArg List.length (hys.trans hrep.2)
        rw [← hofo, List.length_map, List.length_map, hlen] at hlength
        omega
      obtain ⟨s', heq', hs'⟩ := hh₁.acknowledge env hwnd hfit hseq (by
        rw [Function.update_self]
        exact hys)
      refine ⟨h₁, _, _, heq', hs', ?_, ?_, ?_,
        .inr ⟨hne, hh₁, .ofo, rfl, (p, buf), ?_, rfl⟩⟩
      · rw [Function.update_of_ne (by decide)]
        exact hrec
      · rw [Function.update_self]
        exact hys
      · rw [Function.update_of_ne (by decide)]
      · rw [Function.update_self]
        exact hmem

/-! ## The receive queue -/

theorem dequeueLoop_full {userlen n : ℕ} (hn : n ≠ 0) {copied : List UInt8}
    (hlen : userlen ≤ copied.length) (psh : Bool) :
    Heap.dequeueLoop userlen n h copied psh = some (h, copied, psh) := by
  obtain ⟨m, rfl⟩ := Nat.exists_eq_succ_of_ne_zero hn
  unfold Heap.dequeueLoop
  exact if_pos (.inr hlen)

section Dequeue

variable (hh : h.Holds R L) {x : ℕ × SkBuff} {xs : Bufs} (hR : R .receive = x :: xs)
  {userlen : ℕ} {copied : List UInt8} (psh : Bool)

include hh hR

/-- One turn of the loop: `dlen` bytes leave the first buffer, which goes if it is empty then. -/
theorem dequeueLoop_turn (n : ℕ) (hfull : copied.length < userlen) {dlen : ℕ}
    (hdlen : (if userlen < copied.length + x.2.dlen then userlen - copied.length else x.2.dlen) =
      dlen) :
    ∃ h', h'.Holds (Function.update R .receive
        ((x.1, { x.2 with payload := x.2.payload.drop dlen }) :: xs)) L ∧
      Heap.dequeueLoop userlen (n + 1) h copied psh =
        if SkBuff.dlen { x.2 with payload := x.2.payload.drop dlen } = 0 then
          (h'.dropHead .receive x.1).bind fun h'' =>
            Heap.dequeueLoop userlen n h'' (copied ++ x.2.payload.take dlen) (psh || x.2.th.psh)
        else Heap.dequeueLoop userlen n h' (copied ++ x.2.payload.take dlen) psh := by
  have hcell := hh.cell .receive x (hR ▸ List.mem_cons_self)
  obtain ⟨h₁, heq₁, hh₁⟩ := hh.setBuf_queued (show R .receive = [] ++ x :: xs from hR)
    { x.2 with payload := x.2.payload.drop dlen }
  have hcell₁ := hh₁.cell .receive _ (by
    rw [Function.update_self]
    exact List.mem_cons_self)
  have hcond : ¬ (h.skbQueueEmpty .receive ∨ userlen ≤ copied.length) := by
    unfold Heap.skbQueueEmpty
    rw [hh.qlen .receive, hR]
    simp [Nat.not_le_of_lt hfull]
  refine ⟨h₁, hh₁, ?_⟩
  rw [Heap.dequeueLoop, if_neg hcond, hh.skbPeek .receive, hR]
  simp only [Option.bind_eq_bind, Option.bind_some, List.head?_cons, Option.map_some, hcell, hdlen,
    heq₁, hcell₁]

/-- The user's buffer is full before the end of the first buffer. -/
theorem dequeueLoop_part {n : ℕ} (hn : n ≠ 0) (hfull : copied.length < userlen)
    (hpart : userlen - copied.length < x.2.dlen) :
    ∃ h', Heap.dequeueLoop userlen (n + 1) h copied psh =
        some (h', copied ++ x.2.payload.take (userlen - copied.length), psh) ∧
      h'.Holds (Function.update R .receive
        ((x.1, { x.2 with payload := x.2.payload.drop (userlen - copied.length) }) :: xs)) L := by
  obtain ⟨h₁, hh₁, heq⟩ := hh.dequeueLoop_turn hR psh n hfull (if_pos (by omega))
  have hleft : x.2.payload.length - (userlen - copied.length) ≠ 0 := Nat.sub_ne_zero_of_lt hpart
  have hdlen : SkBuff.dlen { x.2 with payload := x.2.payload.drop (userlen - copied.length) } ≠ 0 := by
    unfold SkBuff.dlen
    rwa [List.length_drop]
  have htake : (x.2.payload.take (userlen - copied.length)).length = userlen - copied.length :=
    List.length_take_of_le (Nat.le_of_lt hpart)
  refine ⟨h₁, ?_, hh₁⟩
  rw [heq, if_neg hdlen]
  refine dequeueLoop_full hn ?_ psh
  rw [List.length_append, htake]
  omega

/-- The first buffer is eaten. -/
theorem dequeueLoop_eat (n : ℕ) (hfull : copied.length < userlen)
    (hfit : x.2.dlen ≤ userlen - copied.length) :
    ∃ h', Heap.dequeueLoop userlen (n + 1) h copied psh =
        Heap.dequeueLoop userlen n h' (copied ++ x.2.payload) (psh || x.2.th.psh) ∧
      h'.Holds (Function.update R .receive xs) L := by
  obtain ⟨h₁, hh₁, heq⟩ := hh.dequeueLoop_turn hR psh n hfull (if_neg (by omega))
  obtain ⟨h₂, heq₂, hh₂⟩ := hh₁.dropHead (q := .receive) (Function.update_self _ _ _)
  have hdlen : SkBuff.dlen { x.2 with payload := x.2.payload.drop x.2.dlen } = 0 := by
    unfold SkBuff.dlen
    rw [List.length_drop, Nat.sub_self]
  have htake : x.2.payload.take x.2.dlen = x.2.payload := List.take_length
  rw [Function.update_idem] at hh₂
  exact ⟨h₂, by rw [heq, if_pos hdlen, heq₂, Option.bind_some, htake], hh₂⟩

end Dequeue

theorem dequeueLoop (hh : h.Holds R L) {userlen n : ℕ} (copied : List UInt8) (psh : Bool)
    (hn : (R .receive).length < n) :
    ∃ h' xs, Heap.dequeueLoop userlen n h copied psh = some (h',
        copied ++ (tcpDequeueLoop ((R .receive).map Prod.snd) (userlen - copied.length)).1,
        psh || (tcpDequeueLoop ((R .receive).map Prod.snd) (userlen - copied.length)).2.2) ∧
      h'.Holds (Function.update R .receive xs) L ∧
      xs.map Prod.snd = (tcpDequeueLoop ((R .receive).map Prod.snd) (userlen - copied.length)).2.1 := by
  induction n generalizing h R copied psh with
  | zero => exact absurd hn (Nat.not_lt_zero _)
  | succ n ih =>
    by_cases hfull : userlen ≤ copied.length
    · have hloop : tcpDequeueLoop ((R .receive).map Prod.snd) (userlen - copied.length) =
          ([], (R .receive).map Prod.snd, false) := by
        rw [Nat.sub_eq_zero_of_le hfull]
        cases R .receive <;> rfl
      rw [hloop, List.append_nil, Bool.or_false]
      refine ⟨h, R .receive, dequeueLoop_full (Nat.succ_ne_zero n) hfull psh, ?_, rfl⟩
      rw [Function.update_eq_self]
      exact hh
    have hfull := Nat.lt_of_not_le hfull
    cases hR : R .receive with
    | nil =>
      refine ⟨h, [], ?_, ?_, rfl⟩
      · have hempty : h.skbQueueEmpty .receive := by
          unfold Heap.skbQueueEmpty
          rw [hh.qlen .receive, hR]
          rfl
        rw [Heap.dequeueLoop, if_pos (.inl hempty), List.map_nil, tcpDequeueLoop, List.append_nil,
          Bool.or_false]
      · rw [← hR, Function.update_eq_self]
        exact hh
    | cons x xs =>
      rw [hR, List.length_cons] at hn
      have hpos : userlen - copied.length ≠ 0 := by omega
      simp only [List.map_cons, tcpDequeueLoop, if_neg hpos]
      by_cases hpart : userlen - copied.length < x.2.dlen
      · obtain ⟨h₁, heq₁, hh₁⟩ := hh.dequeueLoop_part hR psh (show n ≠ 0 by omega) hfull hpart
        rw [if_pos hpart, Bool.or_false]
        exact ⟨h₁, _, heq₁, hh₁, rfl⟩
      · obtain ⟨h₁, heq₁, hh₁⟩ := hh.dequeueLoop_eat hR psh n hfull (Nat.le_of_not_lt hpart)
        obtain ⟨h₂, ys, heq₂, hh₂, hys⟩ :=
          ih hh₁ (copied ++ x.2.payload) (psh || x.2.th.psh) (by
            rw [Function.update_self]
            omega)
        rw [Function.update_self, List.length_append, ← Nat.sub_sub] at heq₂ hys
        rw [Function.update_idem] at hh₂
        rw [if_neg hpart]
        refine ⟨h₂, ys, ?_, hh₂, hys⟩
        rw [heq₁, heq₂, List.append_assoc, Bool.or_assoc]
        rfl

/-- **`tcp_data_dequeue`.** -/
theorem tcpDataDequeue (hh : h.Holds R L) (userlen : ℕ) :
    ∃ h' xs, h.tcpDataDequeue userlen = some (h', (tcpDequeueLoop ((R .receive).map Prod.snd) userlen).1,
        (tcpDequeueLoop ((R .receive).map Prod.snd) userlen).2.2) ∧
      h'.Holds (Function.update R .receive xs) L ∧
      xs.map Prod.snd = (tcpDequeueLoop ((R .receive).map Prod.snd) userlen).2.1 := by
  unfold Heap.tcpDataDequeue
  rw [hh.qlen .receive]
  exact hh.dequeueLoop [] false (Nat.lt_succ_self _)

/-! ## The write queue -/

theorem cleanLoop (hh : h.Holds R L) (una : UInt32) {n : ℕ} (hn : (R .write).length < n)
    (inflight : ℕ) :
    ∃ h' xs, Heap.cleanLoop una n h inflight =
        some (h', (tcpCleanLoop una ((R .write).map Prod.snd) inflight).2) ∧
      h'.Holds (Function.update R .write xs) L ∧
      xs.map Prod.snd = (tcpCleanLoop una ((R .write).map Prod.snd) inflight).1 := by
  induction n generalizing h R inflight with
  | zero => exact absurd hn (Nat.not_lt_zero _)
  | succ n ih =>
    unfold Heap.cleanLoop
    rw [hh.skbPeek .write]
    cases hR : R .write with
    | nil =>
      refine ⟨h, [], rfl, ?_, rfl⟩
      rw [← hR, Function.update_eq_self]
      exact hh
    | cons x xs =>
      have hcell := hh.cell .write x (hR ▸ List.mem_cons_self)
      have hinflight : (if 0 < inflight then inflight - 1 else inflight) = inflight - 1 := by
        split <;> omega
      simp only [Option.bind_eq_bind, Option.bind_some, List.head?_cons, Option.map_some, hcell,
        List.map_cons, tcpCleanLoop, hinflight]
      split
      · obtain ⟨h₁, heq₁, hh₁⟩ := hh.dropHead hR
        obtain ⟨h₂, ys, heq₂, hh₂, hys⟩ := ih hh₁ (by
          rw [Function.update_self]
          rw [hR] at hn
          exact Nat.lt_of_succ_lt_succ hn) (inflight - 1)
        rw [Function.update_self] at heq₂ hys
        rw [Function.update_idem] at hh₂
        exact ⟨h₂, ys, by rw [heq₁]; exact heq₂, hh₂, hys⟩
      · refine ⟨h, x :: xs, rfl, ?_, rfl⟩
        rw [← hR, Function.update_eq_self]
        exact hh

/-- **`tcp_clean_rto_queue`.** -/
theorem tcpCleanRtoQueue (hh : h.Holds R L) {s : TcpSock} (hs : (R .write).map Prod.snd = s.writeQueue)
    (una : UInt32) :
    ∃ h' xs, h.tcpCleanRtoQueue s una = some (h', (Tcp.tcpCleanRtoQueue s una).inflight) ∧
      h'.Holds (Function.update R .write xs) L ∧
      xs.map Prod.snd = (Tcp.tcpCleanRtoQueue s una).writeQueue := by
  obtain ⟨h', xs, heq, hh', hxs⟩ := hh.cleanLoop una (Nat.lt_succ_self _) s.inflight
  rw [hs] at heq hxs
  have hview : (Tcp.tcpCleanRtoQueue s una).inflight = (tcpCleanLoop una s.writeQueue s.inflight).2 ∧
      (Tcp.tcpCleanRtoQueue s una).writeQueue = (tcpCleanLoop una s.writeQueue s.inflight).1 := by
    unfold Tcp.tcpCleanRtoQueue
    dsimp only
    split <;> exact ⟨rfl, rfl⟩
  refine ⟨h', xs, ?_, hh', hxs.trans hview.2.symm⟩
  unfold Heap.tcpCleanRtoQueue
  rw [hh.qlen .write, heq, hview.1]

/-- **`tcp_queue_transmit_skb`.** -/
theorem tcpQueueTransmitSkb (env : Env) {s : TcpSock} {buf : SkBuff}
    (hh : h.Holds R ((p, ⟨buf, 0⟩) :: L)) (hs : (R .write).map Prod.snd = s.writeQueue) :
    ∃ h' buf', h.tcpQueueTransmitSkb env s p = some h' ∧
      h'.Holds (Function.update R .write (R .write ++ [(p, buf')])) L ∧
      (Tcp.tcpQueueTransmitSkb env s buf).1.writeQueue = s.writeQueue ++ [buf'] := by
  have hempty : (h.skbQueueEmpty .write = true) ↔ s.writeQueue = [] := by
    unfold Heap.skbQueueEmpty
    rw [hh.qlen .write, ← hs, List.map_eq_nil_iff, decide_eq_true_iff, Nat.lt_one_iff,
      List.length_eq_zero_iff]
  have hcell := (hh.loose _ List.mem_cons_self).1
  unfold Heap.tcpQueueTransmitSkb Tcp.tcpQueueTransmitSkb
  simp only [hempty]
  have hinflight : ∀ {s' : TcpSock}, s' = (if s.writeQueue = [] then tcpRearmRtoTimer s else s) →
      s'.writeQueue = s.writeQueue := by
    rintro s' rfl
    split
    · exact congrArg SndView.writeQueue (snd_tcpRearmRtoTimer s)
    · rfl
  generalize hs' : (if s.writeQueue = [] then tcpRearmRtoTimer s else s) = s'
  split
  · obtain ⟨h₁, heq₁, hh₁⟩ := hh.setBuf
      ((tcpTransmitSkb env s' buf s'.tcb.sndNxt).2.1.at (tcpTransmitSkb env s' buf s'.tcb.sndNxt).1.tcb.sndNxt)
    obtain ⟨h₂, heq₂, hh₂⟩ := Heap.Holds.skbQueueTail (q := .write) hh₁
    refine ⟨h₂, _, ?_, hh₂, ?_⟩
    · simp only [hcell, Option.bind_eq_bind, Option.bind_some, heq₁]
      exact heq₂
    · rw [← hinflight hs'.symm]
      exact congrArg (· ++ _) (congrArg SndView.writeQueue (snd_tcpTransmitSkb env s' buf s'.tcb.sndNxt))
  · obtain ⟨h₁, heq₁, hh₁⟩ := Heap.Holds.skbQueueTail (q := .write) hh
    exact ⟨h₁, buf, heq₁, hh₁, congrArg (· ++ [buf]) (hinflight hs'.symm)⟩

theorem sendNextLoop (env : Env) (hh : h.Holds R L) {pre xs : Bufs} (hR : R .write = pre ++ xs) (n : ℕ)
    (s : TcpSock) {tmp : ListHead} (htmp : h.links.next (nodeAt .write xs) = some tmp) :
    ∃ h' ys, Heap.sendNextLoop env n s h (nodeAt .write xs) tmp =
        some ((tcpSendNextLoop env n s (xs.map Prod.snd)).1, h') ∧
      h'.Holds (Function.update R .write (pre ++ ys)) L ∧
      ys.map Prod.snd = (tcpSendNextLoop env n s (xs.map Prod.snd)).2 := by
  have hstay : h.Holds (Function.update R .write (pre ++ xs)) L := by
    rw [← hR, Function.update_eq_self]
    exact hh
  induction n generalizing h R pre xs s tmp with
  | zero => exact ⟨h, xs, rfl, hstay, rfl⟩
  | succ n ih =>
    cases xs with
    | nil =>
      refine ⟨h, [], ?_, hstay, rfl⟩
      unfold Heap.sendNextLoop
      exact if_pos rfl
    | cons x xs =>
      have hx : x ∈ R .write := hR ▸ List.mem_append_right _ List.mem_cons_self
      have hnext : tmp = nodeAt .write xs := Option.some.inj (htmp.symm.trans (hh.next_nodeAt hR))
      have hcell := hh.cell .write x hx
      obtain ⟨h₁, heq₁, hh₁⟩ := hh.setBuf_queued hR
        ((tcpTransmitSkb env s x.2 s.tcb.sndNxt).2.1.at (tcpTransmitSkb env s x.2 s.tcb.sndNxt).1.tcb.sndNxt)
      have hR₁ : ∀ y : ℕ × SkBuff, Function.update R .write (pre ++ y :: xs) .write = (pre ++ [y]) ++ xs := by
        intro y
        rw [Function.update_self, List.append_assoc]
        rfl
      obtain ⟨tmp', htmp'⟩ := hh₁.exists_next (hR₁ _)
      obtain ⟨h₂, ys, heq₂, hh₂, hys⟩ := ih hh₁ (hR₁ _)
        (tcpAdvanceNxt (tcpTransmitSkb env s x.2 s.tcb.sndNxt).1 (tcpTransmitSkb env s x.2 s.tcb.sndNxt).2.1)
        htmp' (by
          rw [← hR₁, Function.update_eq_self]
          exact hh₁)
      rw [Function.update_idem, List.append_assoc] at hh₂
      refine ⟨h₂, _ :: ys, ?_, hh₂, ?_⟩
      · unfold Heap.sendNextLoop
        rw [show nodeAt .write (x :: xs) = .skb x.1 from rfl, if_neg (queue_ne_skb .write x.1).symm, hnext]
        simp only [Heap.listEntry, Option.bind_eq_bind, Option.bind_some, hcell, heq₁, htmp', heq₂,
          List.map_cons, tcpSendNextLoop]
      · rw [List.map_cons, hys]
        rfl

/-- **`tcp_send_next`.** -/
theorem tcpSendNext (env : Env) (hh : h.Holds R L) {s : TcpSock}
    (hs : (R .write).map Prod.snd = s.writeQueue) (amount : ℕ) :
    ∃ s' h' xs, h.tcpSendNext env s amount = some (s', h') ∧
      Tcp.tcpSendNext env s amount = { s' with writeQueue := xs.map Prod.snd } ∧
      h'.Holds (Function.update R .write xs) L := by
  obtain ⟨tmp, htmp⟩ := hh.exists_next (show R .write = [] ++ R .write from rfl)
  obtain ⟨h', xs, heq, hh', hxs⟩ := hh.sendNextLoop env (show R .write = [] ++ R .write from rfl)
    amount s htmp
  refine ⟨(tcpSendNextLoop env amount s ((R .write).map Prod.snd)).1, h', xs, ?_, ?_, hh'⟩
  · unfold Heap.tcpSendNext
    rw [hh.next_queue .write]
    simp only [Option.bind_eq_bind, Option.bind_some, htmp]
    exact heq
  · unfold Tcp.tcpSendNext
    rw [← hs, hxs]

/-- **`tcp_retransmission_timeout`.** -/
theorem tcpRetransmissionTimeout (env : Env) (hh : h.Holds R L) {s : TcpSock}
    (hofo : (R .ofo).map Prod.snd = s.ofoQueue) (hs : (R .write).map Prod.snd = s.writeQueue) :
    ∃ h' R', h.tcpRetransmissionTimeout env s = some h' ∧ h'.Holds R' L ∧ R' .receive = R .receive ∧
      (Tcp.tcpRetransmissionTimeout env s).receiveQueue = s.receiveQueue ∧
      (R' .ofo).map Prod.snd = (Tcp.tcpRetransmissionTimeout env s).ofoQueue ∧
      (R' .write).map Prod.snd = (Tcp.tcpRetransmissionTimeout env s).writeQueue := by
  unfold Heap.tcpRetransmissionTimeout
  rw [hh.skbPeek .write]
  cases hR : R .write with
  | nil =>
    rw [hR] at hs
    obtain ⟨hreceive, hqueue, hwrite⟩ := timeout_nil env hs.symm
    exact ⟨h, R, rfl, hh, rfl, hreceive, hofo.trans hqueue.symm, by rw [hR, hwrite]; rfl⟩
  | cons x xs =>
    rw [hR] at hs
    obtain ⟨hreceive, hwrite, hqueue⟩ := timeout_cons env hs.symm
    have hcell := hh.cell .write x (hR ▸ List.mem_cons_self)
    obtain ⟨h₁, heq₁, hh₁⟩ := hh.setBuf_queued (show R .write = [] ++ x :: xs from hR)
      (tcpTransmitSkb env (tcpReleaseRtoTimer s) x.2 (tcpReleaseRtoTimer s).tcb.sndUna).2.1
    simp only [Option.bind_eq_bind, Option.bind_some, List.head?_cons, Option.map_some, hcell, heq₁]
    rw [hwrite, hqueue]
    have hw : ∀ q ≠ QueueId.write, ∀ ys, Function.update R .write ys q = R q :=
      fun q hq ys => Function.update_of_ne hq ys R
    split
    · obtain ⟨h₂, heq₂, hh₂⟩ := hh₁.skbQueueFree .ofo
      refine ⟨h₂, _, heq₂, hh₂, ?_, hreceive, ?_, ?_⟩
      · rw [Function.update_of_ne (by decide), hw _ (by decide)]
      · rw [Function.update_self]
        rfl
      · rw [Function.update_of_ne (by decide), Function.update_self]
        rfl
    · refine ⟨h₁, _, rfl, hh₁, hw _ (by decide) _, hreceive, ?_, ?_⟩
      · rw [hw _ (by decide)]
        exact hofo
      · rw [Function.update_self]
        rfl

end Heap.Holds

end LvlIp.Tcp
