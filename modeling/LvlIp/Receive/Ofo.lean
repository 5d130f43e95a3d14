import LvlIp.Tcp.Events
import LvlIp.Receive.Calls

/-!
# The out-of-order queue

The buffers of the out-of-order queue should be strictly increasing, without overlap, and beyond
`rcv_nxt`: a buffer behind `rcv_nxt` at the head of the queue blocks `tcp_consume_ofo_queue` for
ever. `tcp_data_insert_ordered` reports an overlap and does not resolve it, and an in-order segment
may run past buffers that wait. So the queue stays in order exactly as long as no segment is queued
that overlaps a waiting buffer, a copy of one apart (`ofoQueue_ok_iff`).
-/

namespace LvlIp.Tcp

open Foundations

/-! ## The queue -/

/-- One of the two ends before the other begins. -/
def SkBuff.Apart (x y : SkBuff) : Prop := x.endSeq ≤ y.seq ∨ y.endSeq ≤ x.seq

instance (x y : SkBuff) : Decidable (x.Apart y) := inferInstanceAs (Decidable (_ ∨ _))

/-- The range of the buffer does not wrap. -/
def SkBuff.NoWrap (x : SkBuff) : Prop := x.endSeq.toNat = x.seq.toNat + x.dlen

/-- Strictly increasing, and no two buffers overlap. -/
def OfoOrdered (q : List SkBuff) : Prop :=
  q.Pairwise fun x y => x.seq < y.seq ∧ x.endSeq ≤ y.seq

/-- The buffer is a copy of one that waits, or overlaps none of them. -/
def FitsOfo (q : List SkBuff) (skb : SkBuff) : Prop :=
  (∃ y ∈ q, y.seq = skb.seq) ∨ ∀ y ∈ q, skb.Apart y

instance (q : List SkBuff) (skb : SkBuff) : Decidable (FitsOfo q skb) :=
  inferInstanceAs (Decidable (_ ∨ _))

section Queue

variable {q : List SkBuff} {skb : SkBuff}

theorem SkBuff.NoWrap.le {x : SkBuff} (h : x.NoWrap) : x.seq ≤ x.endSeq := by
  rw [UInt32.le_iff_toNat_le, h]
  exact Nat.le_add_right _ _

theorem SkBuff.NoWrap.add_dlen {x : SkBuff} (h : x.NoWrap) :
    x.seq + UInt32.ofNat x.dlen = x.endSeq := by
  have hlt := x.endSeq.toNat_lt
  rw [h] at hlt
  rw [← UInt32.toNat_inj, UInt32.toNat_add, UInt32.toNat_ofNat', h]
  omega

/-- A copy of a waiting buffer is dropped. -/
theorem tcpDataInsertOrdered_of_copy (hq : OfoOrdered q) (hcopy : ∃ y ∈ q, y.seq = skb.seq) :
    tcpDataInsertOrdered q skb = q := by
  induction q with
  | nil =>
    obtain ⟨y, hy, -⟩ := hcopy
    cases hy
  | cons next q ih =>
    obtain ⟨y, hy, hseq⟩ := hcopy
    obtain ⟨hnext, hq'⟩ := List.pairwise_cons.mp hq
    unfold tcpDataInsertOrdered
    rcases List.mem_cons.mp hy with rfl | hy
    · rw [if_neg (by rw [hseq]; exact UInt32.lt_irrefl _), if_pos hseq.symm]
    · have hlt : next.seq < skb.seq := hseq ▸ (hnext y hy).1
      rw [if_neg (UInt32.lt_asymm hlt), if_neg (UInt32.ne_of_lt hlt).symm, ih hq' ⟨y, hy, hseq⟩]

/-- A buffer that is no copy is added. -/
theorem tcpDataInsertOrdered_perm (hcopy : ¬ ∃ y ∈ q, y.seq = skb.seq) :
    (tcpDataInsertOrdered q skb).Perm (skb :: q) := by
  induction q with
  | nil => exact List.Perm.refl _
  | cons next q ih =>
    have htail : (next :: tcpDataInsertOrdered q skb).Perm (skb :: next :: q) :=
      ((ih fun ⟨y, hy, hseq⟩ => hcopy ⟨y, List.mem_cons_of_mem _ hy, hseq⟩).cons next).trans
        (List.Perm.swap skb next q)
    unfold tcpDataInsertOrdered
    split
    · split
      · exact htail
      · exact List.Perm.refl _
    · split
      · next heq => exact absurd ⟨next, List.mem_cons_self, heq.symm⟩ hcopy
      · exact htail

/-- A buffer that overlaps none of the waiting ones is inserted at its place. -/
theorem ofoOrdered_insert (hq : OfoOrdered q) (hle : ∀ y ∈ q, y.seq ≤ y.endSeq)
    (hskb : skb.seq ≤ skb.endSeq) (hcopy : ¬ ∃ y ∈ q, y.seq = skb.seq)
    (hapart : ∀ y ∈ q, skb.Apart y) : OfoOrdered (tcpDataInsertOrdered q skb) := by
  induction q with
  | nil => exact List.pairwise_singleton _ _
  | cons next q ih =>
    obtain ⟨hnext, hq'⟩ := List.pairwise_cons.mp hq
    have hne : ¬ next.seq = skb.seq := fun heq => hcopy ⟨next, List.mem_cons_self, heq⟩
    have hnextle := hle next List.mem_cons_self
    unfold tcpDataInsertOrdered
    split
    · next hlt =>
      have hend : skb.endSeq ≤ next.seq := by
        refine (hapart next List.mem_cons_self).resolve_right fun hend => ?_
        exact UInt32.lt_irrefl _ (UInt32.lt_of_lt_of_le (UInt32.lt_of_lt_of_le hlt hnextle) hend)
      rw [if_neg (UInt32.not_lt.mpr hend)]
      refine List.pairwise_cons.mpr ⟨fun z hz => ?_, hq⟩
      rcases List.mem_cons.mp hz with rfl | hz
      · exact ⟨hlt, hend⟩
      · obtain ⟨hz, -⟩ := hnext z hz
        exact ⟨UInt32.lt_trans hlt hz, UInt32.le_trans hend (UInt32.le_of_lt hz)⟩
    · next hge =>
      rw [if_neg fun heq => hne heq.symm]
      have hlt : next.seq < skb.seq := UInt32.lt_of_le_of_ne (UInt32.not_lt.mp hge) hne
      have hend : next.endSeq ≤ skb.seq := by
        refine (hapart next List.mem_cons_self).resolve_left fun hend => ?_
        exact UInt32.lt_irrefl _ (UInt32.lt_of_lt_of_le (UInt32.lt_of_lt_of_le hlt hskb) hend)
      refine List.pairwise_cons.mpr ⟨fun z hz => ?_, ?_⟩
      · rcases mem_tcpDataInsertOrdered hz with rfl | hz
        · exact ⟨hlt, hend⟩
        · exact hnext z hz
      · have hcopy' : ¬ ∃ y ∈ q, y.seq = skb.seq := by
          rintro ⟨y, hy, hseq⟩
          exact hcopy ⟨y, List.mem_cons_of_mem _ hy, hseq⟩
        exact ih hq' (fun y hy => hle y (List.mem_cons_of_mem _ hy)) hcopy'
          fun y hy => hapart y (List.mem_cons_of_mem _ hy)

/-- **Insertion keeps the queue in order** exactly when the buffer fits. -/
theorem ofoOrdered_insert_iff (hq : OfoOrdered q) (hle : ∀ y ∈ q, y.seq ≤ y.endSeq)
    (hskb : skb.seq ≤ skb.endSeq) :
    OfoOrdered (tcpDataInsertOrdered q skb) ↔ FitsOfo q skb := by
  by_cases hcopy : ∃ y ∈ q, y.seq = skb.seq
  · rw [tcpDataInsertOrdered_of_copy hq hcopy]
    exact iff_of_true hq (.inl hcopy)
  · refine ⟨fun h => .inr fun y hy => ?_, fun h => ?_⟩
    · -- in a list of the same buffers, any two are in one of the two orders
      have hsym : (tcpDataInsertOrdered q skb).Pairwise fun x y =>
          x.endSeq ≤ y.seq ∨ y.endSeq ≤ x.seq := List.Pairwise.imp (fun h => .inl h.2) h
      rw [(tcpDataInsertOrdered_perm hcopy).pairwise_iff Or.symm] at hsym
      exact (List.pairwise_cons.mp hsym).1 y hy
    · exact ofoOrdered_insert hq hle hskb hcopy (h.resolve_left hcopy)

theorem mem_tcpConsumeLoop {n : UInt32} {y : SkBuff} (hy : y ∈ (tcpConsumeLoop n q).2.1) :
    y ∈ q := by
  induction q generalizing n with
  | nil => cases hy
  | cons skb q ih =>
    unfold tcpConsumeLoop at hy
    split at hy
    · exact List.mem_cons_of_mem _ (ih hy)
    · exact hy

/-- What the draining of the queue leaves is in order and beyond the new `rcv_nxt`. -/
theorem tcpConsumeLoop_ordered (hq : OfoOrdered q) (hwrap : ∀ y ∈ q, y.NoWrap) {n : UInt32}
    (hn : ∀ y ∈ q, n ≤ y.seq) :
    OfoOrdered (tcpConsumeLoop n q).2.1 ∧
      ∀ y ∈ (tcpConsumeLoop n q).2.1, (tcpConsumeLoop n q).2.2 < y.seq := by
  induction q generalizing n with
  | nil => exact ⟨hq, fun _ h => nomatch h⟩
  | cons skb q ih =>
    obtain ⟨hskb, hq'⟩ := List.pairwise_cons.mp hq
    unfold tcpConsumeLoop
    split
    · next heq =>
      have hadd : n + UInt32.ofNat skb.dlen = skb.endSeq := by
        rw [heq]
        exact (hwrap skb List.mem_cons_self).add_dlen
      exact ih hq' (fun y hy => hwrap y (List.mem_cons_of_mem _ hy))
        fun y hy => hadd ▸ (hskb y hy).2
    · next hne =>
      have hlt : n < skb.seq := UInt32.lt_of_le_of_ne (hn skb List.mem_cons_self) hne
      refine ⟨hq, fun y hy => ?_⟩
      rcases List.mem_cons.mp hy with rfl | hy
      · exact hlt
      · exact UInt32.lt_trans hlt (hskb y hy).1

/-- A buffer behind `rcv_nxt` blocks the queue. -/
theorem tcpConsumeLoop_of_behind (hq : OfoOrdered q) {n : UInt32} {y : SkBuff} (hy : y ∈ q)
    (hlt : y.seq < n) : tcpConsumeLoop n q = ([], q, n) := by
  cases q with
  | nil => cases hy
  | cons skb q =>
    obtain ⟨hskb, -⟩ := List.pairwise_cons.mp hq
    have hle : skb.seq ≤ y.seq := by
      rcases List.mem_cons.mp hy with rfl | hy
      · exact UInt32.le_refl _
      · exact UInt32.le_of_lt (hskb y hy).1
    unfold tcpConsumeLoop
    refine if_neg fun heq => ?_
    rw [heq] at hlt
    exact UInt32.lt_irrefl _ (UInt32.lt_of_lt_of_le hlt hle)

end Queue

/-! ## One call of `tcp_data_queue` -/

/-- The out-of-order queue is in order, and beyond `rcv_nxt`. -/
structure OfoOk (v : RcvView) : Prop where
  ordered : OfoOrdered v.ofoQueue
  ahead : ∀ y ∈ v.ofoQueue, v.rcvNxt < y.seq

instance (q : List SkBuff) : Decidable (OfoOrdered q) := inferInstanceAs (Decidable (q.Pairwise _))

instance (v : RcvView) : Decidable (OfoOk v) :=
  decidable_of_iff (OfoOrdered v.ofoQueue ∧ ∀ y ∈ v.ofoQueue, v.rcvNxt < y.seq)
    ⟨fun h => ⟨h.1, h.2⟩, fun h => ⟨h.ordered, h.ahead⟩⟩

/-- No buffer of the queue wraps. -/
def OfoNoWrap (v : RcvView) : Prop := ∀ y ∈ v.ofoQueue, y.NoWrap

section Call

variable {v : RcvView} {skb : SkBuff}

/-- A call adds at most its own segment to the out-of-order queue. -/
theorem mem_ofoQueue_dataQueue {y : SkBuff} (hy : y ∈ (v.dataQueue skb).ofoQueue) :
    y = skb ∨ y ∈ v.ofoQueue := by
  unfold RcvView.dataQueue at hy
  split at hy
  · exact .inr hy
  · split at hy
    · exact .inr (mem_tcpConsumeLoop hy)
    · exact mem_tcpDataInsertOrdered hy

theorem ofoNoWrap_dataQueue (h : OfoNoWrap v) (hskb : skb.NoWrap) :
    OfoNoWrap (v.dataQueue skb) := by
  intro y hy
  rcases mem_ofoQueue_dataQueue hy with rfl | hy
  · exact hskb
  · exact h y hy

/-- **One call keeps the queue in order** exactly when the segment fits. -/
theorem ofoOk_dataQueue_iff (h : OfoOk v) (hwrap : OfoNoWrap v) (hskb : skb.NoWrap)
    (hge : v.rcvNxt ≤ skb.seq) (hwnd : v.rcvWnd = 0 → skb.dlen = 0 ∧ skb.seq = v.rcvNxt) :
    OfoOk (v.dataQueue skb) ↔ FitsOfo v.ofoQueue skb := by
  have hbeyond : ∀ y ∈ v.ofoQueue, skb.seq = v.rcvNxt → (skb.Apart y ↔ skb.endSeq ≤ y.seq) := by
    intro y hy hseq
    refine or_iff_left fun hend => ?_
    have hlt := h.ahead y hy
    rw [← hseq] at hlt
    exact UInt32.lt_irrefl _ (UInt32.lt_of_lt_of_le (UInt32.lt_of_lt_of_le hlt (hwrap y hy).le) hend)
  unfold RcvView.dataQueue
  split
  · next h0 =>
    obtain ⟨hlen, hseq⟩ := hwnd h0
    refine iff_of_true h (.inr fun y hy => (hbeyond y hy hseq).mpr ?_)
    rw [← hskb.add_dlen, hlen, hseq]
    simpa using UInt32.le_of_lt (h.ahead y hy)
  · split
    · next hseq =>
      rw [← hseq, hskb.add_dlen]
      have hno : ¬ ∃ y ∈ v.ofoQueue, y.seq = skb.seq := by
        rintro ⟨y, hy, heq⟩
        have hlt := h.ahead y hy
        rw [heq, hseq] at hlt
        exact UInt32.lt_irrefl _ hlt
      unfold FitsOfo
      rw [or_iff_right hno]
      refine ⟨fun hok y hy => (hbeyond y hy hseq).mpr ?_, fun hfit => ?_⟩
      · by_contra hlt
        have hblock := tcpConsumeLoop_of_behind h.ordered hy (UInt32.not_le.mp hlt)
        have hahead := hok.ahead y (by rw [hblock]; exact hy)
        rw [hblock] at hahead
        exact UInt32.lt_irrefl _ (UInt32.lt_trans hahead (UInt32.not_le.mp hlt))
      · obtain ⟨hord, hlt⟩ := tcpConsumeLoop_ordered h.ordered hwrap
          fun y hy => (hbeyond y hy hseq).mp (hfit y hy)
        exact ⟨hord, hlt⟩
    · next hseq =>
      have hlt : v.rcvNxt < skb.seq := UInt32.lt_of_le_of_ne hge (Ne.symm hseq)
      rw [← ofoOrdered_insert_iff h.ordered (fun y hy => (hwrap y hy).le) hskb.le]
      refine ⟨fun hok => hok.ordered, fun hord => ⟨hord, fun y hy => ?_⟩⟩
      rcases mem_tcpDataInsertOrdered hy with rfl | hy
      · exact hlt
      · exact h.ahead y hy

end Call

/-! ## Between the calls -/

/-- The connection is not established yet. -/
def TcpState.early : TcpState → Bool
  | .close | .listen | .synSent | .synReceived => true
  | _ => false

/-- No text is queued between `v` and `v'`: an established connection keeps its queue and its
`rcv_nxt`, and one being established its queue. -/
structure Calm (v v' : RcvView) : Prop where
  early : v'.state.early → v.state.early ∧ v'.ofoQueue = v.ofoQueue
  receives : v'.state.receives → v'.ofoQueue = v.ofoQueue ∧
    (v.state.early ∨ v.state.receives ∧ v'.rcvNxt = v.rcvNxt)

theorem Calm.of_eq {v v' : RcvView} (hst : v'.state = v.state) (hnxt : v'.rcvNxt = v.rcvNxt)
    (hofo : v'.ofoQueue = v.ofoQueue) : Calm v v' where
  early h := ⟨hst ▸ h, hofo⟩
  receives h := ⟨hofo, .inr ⟨hst ▸ h, hnxt⟩⟩

theorem Calm.of_rcv {v v' : RcvView} (h : v' = v) : Calm v v' := by
  rw [h]
  exact .of_eq rfl rfl rfl

theorem Calm.trans {v v' v'' : RcvView} (h : Calm v v') (h' : Calm v' v'') : Calm v v'' where
  early he := by
    obtain ⟨he', hofo'⟩ := h'.early he
    obtain ⟨he, hofo⟩ := h.early he'
    exact ⟨he, hofo'.trans hofo⟩
  receives hr := by
    obtain ⟨hofo', he' | ⟨hr', hnxt'⟩⟩ := h'.receives hr
    · obtain ⟨he, hofo⟩ := h.early he'
      exact ⟨hofo'.trans hofo, .inl he⟩
    · obtain ⟨hofo, he | ⟨hr, hnxt⟩⟩ := h.receives hr'
      · exact ⟨hofo'.trans hofo, .inl he⟩
      · exact ⟨hofo'.trans hofo, .inr ⟨hr, hnxt'.trans hnxt⟩⟩

/-- The connection is over. -/
theorem Calm.of_over {v v' : RcvView} (he : v'.state.early = false)
    (hr : v'.state.receives = false) : Calm v v' where
  early h := by rw [he] at h; cases h
  receives h := by rw [hr] at h; cases h

/-- The invariant of a run. -/
structure OfoInv (s : TcpSock) : Prop where
  early : s.state.early → s.ofoQueue = []
  ok : s.state.receives → OfoOk s.rcv
  noWrap : s.state.receives → OfoNoWrap s.rcv

theorem OfoInv.calm {s s' : TcpSock} (h : OfoInv s) (hcalm : Calm s.rcv s'.rcv) : OfoInv s' := by
  refine ⟨fun he => ?_, fun hr => ?_, fun hr => ?_⟩
  · obtain ⟨he', hq⟩ := hcalm.early he
    exact hq.trans (h.early he')
  · obtain ⟨hq, he' | ⟨hr', hnxt⟩⟩ := hcalm.receives hr
    · have hnil : s'.rcv.ofoQueue = [] := hq.trans (h.early he')
      refine ⟨?_, ?_⟩
      · rw [hnil]
        exact List.Pairwise.nil
      · rw [hnil]
        exact fun y hy => nomatch hy
    · refine ⟨hq ▸ (h.ok hr').ordered, ?_⟩
      rw [hq, hnxt]
      exact (h.ok hr').ahead
  · obtain ⟨hq, he' | ⟨hr', -⟩⟩ := hcalm.receives hr
    · have hnil : s'.rcv.ofoQueue = [] := hq.trans (h.early he')
      unfold OfoNoWrap
      rw [hnil]
      exact fun y hy => nomatch hy
    · unfold OfoNoWrap
      rw [hq]
      exact h.noWrap hr'

section Steps

variable (env : Env) {s : TcpSock}

theorem calm_tcpDone (s : TcpSock) {v : RcvView} : Calm v (tcpDone s).rcv := .of_over rfl rfl

theorem rcv_tcpSendReset (s : TcpSock) : (tcpSendReset env s).rcv = s.rcv := by
  unfold tcpSendReset
  exact rcv_tcpTransmitSkb env _ _ _

theorem calm_inetStreamConnect (s : TcpSock) (iss : UInt32) :
    Calm s.rcv (inetStreamConnect env s iss).rcv := by
  unfold inetStreamConnect
  split
  · exact .of_rcv rfl
  · next hclose =>
    rw [not_not] at hclose
    have hrcv : (TcpSock.rcv { tcpConnect env s iss with err := eInprogress }) =
        { s.rcv with state := .synSent, rcvNxt := 0, rcvWnd := tcpSelectInitialWindow } := by
      unfold tcpConnect tcpSendSyn
      rw [if_neg (by simp [hclose])]
      exact rcv_tcpQueueTransmitSkb env _ _
    rw [hrcv]
    exact ⟨fun _ => ⟨congrArg TcpState.early hclose, rfl⟩, nofun⟩

/-- Without FEC, writing leaves the receive side alone. -/
theorem rcv_tcpSend_plain (hfec : s.fec = none) (buf : List UInt8) :
    (tcpSend env s buf).rcv = s.rcv := by
  unfold tcpSend
  rw [rcv_tcpRearmUserTimeout]
  generalize tcpPieces (tcpSendMss s) buf.length buf = pieces
  induction pieces generalizing s with
  | nil => rfl
  | cons piece pieces ih =>
    have hrcv := rcv_tcpQueueTransmitSkb env { s with nextAddr := s.nextAddr + 1 }
      (plainBuf s.nextAddr piece)
    have hpiece := tcpSendPiece_plain env hfec piece
    generalize (tcpQueueTransmitSkb env { s with nextAddr := s.nextAddr + 1 }
      (plainBuf s.nextAddr piece)).1 = s' at hrcv hpiece
    have hfec' : s'.fec = none := (congrArg RcvView.fec hrcv).trans hfec
    have hfull : tcpFecEmitFull env s' = s' := by
      unfold tcpFecEmitFull
      rw [hfec']
    rw [hfull] at hpiece
    rw [List.foldl_cons, hpiece, ih hfec', hrcv]
    rfl

theorem rcv_tcpWrite_plain (hfec : s.fec = none) (buf : List UInt8) :
    (tcpWrite env s buf).1.rcv = s.rcv := by
  unfold tcpWrite
  split
  · rfl
  · split
    · exact rcv_tcpSend_plain env hfec buf
    · exact rcv_tcpSend_plain env hfec buf
    · rfl

theorem ReadFrame.calm {s' : TcpSock} (h : ReadFrame s s') : Calm s.rcv s'.rcv := by
  obtain ⟨hst, -, htcb, hofo⟩ := h
  exact .of_eq hst (congrArg Tcb.rcvNxt htcb) hofo

theorem rcv_tcpQueueFin_plain (hfec : s.fec = none) : (tcpQueueFin env s).rcv = s.rcv := by
  have hflush : tcpFecFlush env s = s := by
    unfold tcpFecFlush
    rw [hfec]
  unfold tcpQueueFin
  rw [hflush]
  exact rcv_tcpQueueTransmitSkb env _ _

theorem calm_tcpClose (hfec : s.fec = none) : Calm s.rcv (tcpClose env s).rcv := by
  unfold tcpClose
  split
  any_goals exact .of_rcv rfl
  any_goals exact calm_tcpDone s
  · next hst =>
    have hrcv := @rcv_tcpQueueFin_plain env { s with state := .finWait1 } hfec
    rw [hrcv]
    exact ⟨nofun, fun _ => ⟨rfl, .inr ⟨congrArg TcpState.receives hst, rfl⟩⟩⟩
  · exact .of_rcv (rcv_tcpQueueFin_plain env hfec)

theorem calm_tcpConnectRto (s : TcpSock) : Calm s.rcv (tcpConnectRto env s).rcv := by
  unfold tcpConnectRto
  dsimp only
  split
  · split
    · exact calm_tcpDone _
    · split
      · exact .of_rcv rfl
      · next skb q hq =>
        have hrcv := rcv_tcpTransmitSkb env (tcpReleaseRtoTimer s) skb
          (tcpReleaseRtoTimer s).tcb.sndUna
        generalize tcpTransmitSkb env (tcpReleaseRtoTimer s) skb
          (tcpReleaseRtoTimer s).tcb.sndUna = t at hrcv
        exact .of_rcv ((rcv_tcpRearmRtoTimer _).trans hrcv)
  · exact .of_rcv rfl

theorem calm_tcpHandleFinState (s : TcpSock) : Calm s.rcv (tcpHandleFinState s).rcv := by
  unfold tcpHandleFinState
  split
  · exact .of_over rfl rfl
  · next hst =>
    exact ⟨nofun, fun _ => ⟨rfl, .inr ⟨congrArg TcpState.receives hst, rfl⟩⟩⟩
  · exact .of_rcv rfl

theorem calm_tcpRetransmissionTimeout (s : TcpSock) :
    Calm s.rcv (tcpRetransmissionTimeout env s).rcv := by
  unfold tcpRetransmissionTimeout
  dsimp only
  split
  · exact .of_rcv rfl
  · next skb q hq =>
    have hrcv := rcv_tcpTransmitSkb env (tcpReleaseRtoTimer s) skb (tcpReleaseRtoTimer s).tcb.sndUna
    generalize tcpTransmitSkb env (tcpReleaseRtoTimer s) skb
      (tcpReleaseRtoTimer s).tcb.sndUna = t at hrcv
    split
    · exact .of_over rfl rfl
    · split
      · refine Calm.trans ?_ (calm_tcpHandleFinState _)
        exact .of_rcv hrcv
      · exact .of_rcv hrcv

theorem calm_timer (s : TcpSock) (handler : TimerHandler) :
    Calm s.rcv (handler.run env s).rcv := by
  cases handler with
  | tcpConnectRto => exact calm_tcpConnectRto env s
  | tcpRetransmissionTimeout => exact calm_tcpRetransmissionTimeout env s
  | tcpSendDelack => exact .of_rcv (rcv_tcpSendAck env _)
  | tcpLinger => exact calm_tcpDone _
  | tcpUserTimeout => exact calm_tcpDone _

/-! ## Arrival -/

@[simp]
theorem rcv_tcpParseOpts (s : TcpSock) (th : Tcphdr) : (tcpParseOpts s th).rcv = s.rcv := by
  unfold tcpParseOpts
  dsimp only
  split_ifs <;> rfl

theorem rcv_tcpFecResolve (s : TcpSock) :
    ∃ fec, (tcpFecResolve s).rcv = { s.rcv with fec } := by
  rw [tcpFecResolve_eq]
  split
  · exact ⟨some (s.fec.getD tcpFecFresh), rfl⟩
  · exact ⟨s.fec, rfl⟩

/-- An acceptable SYN moves the connection on; nothing waits yet. -/
theorem rcv_tcpSynsentSyn (s : TcpSock) (th : Tcphdr) :
    ∃ state fec, (state = .established ∨ state = .synReceived) ∧ (tcpSynsentSyn env s th).rcv =
      { s.rcv with state, fec, rcvNxt := th.seq + 1 } := by
  unfold tcpSynsentSyn
  dsimp only
  generalize hs₁ : (if th.ack then _ else _ : TcpSock) = s₁
  have hrcv : s₁.rcv = { s.rcv with rcvNxt := th.seq + 1 } := by
    rw [← hs₁]
    split
    · exact rcv_tcpCleanRtoQueue _ _
    · rfl
  split
  · generalize hs₂ : tcpParseOpts _ _ = s₂
    have hrcv₂ : s₂.rcv = { s.rcv with state := .established, rcvNxt := th.seq + 1 } := by
      rw [← hs₂, rcv_tcpParseOpts, rcv_tcpRearmUserTimeout, rcv_tcpSendAck]
      exact congrArg (fun v : RcvView => { v with state := .established }) hrcv
    obtain ⟨fec, hfec⟩ := rcv_tcpFecResolve s₂
    refine ⟨.established, fec, .inl rfl, hfec.trans ?_⟩
    rw [hrcv₂]
  · generalize hs₂ : tcpParseOpts _ _ = s₂
    have hrcv₂ : s₂.rcv = { s.rcv with state := .synReceived, rcvNxt := th.seq + 1 } := by
      rw [← hs₂, rcv_tcpParseOpts]
      exact congrArg (fun v : RcvView => { v with state := .synReceived }) hrcv
    have hst : s₂.state = .synReceived := congrArg RcvView.state hrcv₂
    refine ⟨.synReceived, s.fec, .inr rfl, ?_⟩
    unfold tcpSendSynack
    rw [if_pos (by rw [hst]; decide), hrcv₂]
    rfl

theorem calm_tcpSynsent (hst : s.state = .synSent) (th : Tcphdr) :
    Calm s.rcv (tcpSynsent env s th).rcv := by
  unfold tcpSynsent
  split
  · exact .of_rcv rfl
  · split
    · exact .of_rcv rfl
    · split
      · unfold tcpReset
        rw [hst]
        exact calm_tcpDone _
      · split
        · exact .of_rcv rfl
        · obtain ⟨state, fec, -, hrcv⟩ := rcv_tcpSynsentSyn env s th
          have hearly : s.rcv.state.early = true := congrArg TcpState.early hst
          rw [hrcv]
          exact ⟨fun _ => ⟨hearly, rfl⟩, fun _ => ⟨rfl, .inl hearly⟩⟩

theorem calm_tcpAckField (s : TcpSock) (th : Tcphdr) : Calm s.rcv (tcpAckField s th).1.rcv := by
  unfold tcpAckField
  split
  · next hst =>
    split
    · rw [rcv_tcpAck]
      obtain ⟨fec, hrcv⟩ := rcv_tcpFecResolve { s with state := .established }
      rw [hrcv]
      exact ⟨nofun, fun _ => ⟨rfl, .inl (congrArg TcpState.early hst)⟩⟩
    · exact .of_rcv rfl
  all_goals first
    | exact .of_rcv (rcv_tcpAck s _)
    | exact .of_rcv rfl

theorem calm_tcpFinAcked (s : TcpSock) (th : Tcphdr) :
    Calm s.rcv (tcpFinAcked env s th).1.rcv := by
  unfold tcpFinAcked
  split
  · split
    · next hst =>
      exact ⟨nofun, fun _ => ⟨rfl, .inr ⟨congrArg TcpState.receives hst, rfl⟩⟩⟩
    · exact .of_over rfl rfl
    · exact calm_tcpDone s
    · split
      · exact .of_rcv (rcv_tcpSendAck env _)
      · exact .of_rcv rfl
    · exact .of_rcv rfl
  · exact .of_rcv rfl

/-- The checks queue nothing. -/
theorem calm_tcpChecks (s : TcpSock) (skb : SkBuff) :
    (∀ s', tcpChecks env true s skb = .error s' → Calm s.rcv s'.rcv) ∧
      ∀ s', tcpChecks env true s skb = .ok s' → Calm s.rcv s'.rcv := by
  have hack := calm_tcpAckField s skb.th
  have hfin := hack.trans (calm_tcpFinAcked env (tcpAckField s skb.th).1 skb.th)
  have herr : ∀ s₁ : TcpSock, Calm s.rcv s₁.rcv →
      (∀ s', Except.error s₁ = (.error s' : Except TcpSock TcpSock) → Calm s.rcv s'.rcv) ∧
        ∀ s', Except.error s₁ = (.ok s' : Except TcpSock TcpSock) → Calm s.rcv s'.rcv := by
    intro s₁ h
    refine ⟨fun s' heq => ?_, fun s' heq => ?_⟩
    · rwa [← Except.error.inj heq]
    · cases heq
  unfold tcpChecks
  rw [tcpAckFieldOr_true]
  dsimp only
  split
  · refine herr _ ?_
    split
    · exact .of_rcv rfl
    · exact .of_rcv (rcv_tcpSendAck env s)
  · split
    · exact herr _ (.of_over rfl rfl)
    · split
      · exact herr _ (.of_rcv rfl)
      · split
        · exact herr _ (.of_rcv rfl)
        · split
          · exact herr _ hack
          · split
            · exact herr _ hfin
            · refine ⟨fun s' heq => ?_, fun s' heq => ?_⟩
              · cases heq
              · rwa [← Except.ok.inj heq]

/-- The FIN moves `rcv_nxt`, and ends the receiving. -/
theorem calm_tcpFin (s : TcpSock) (th : Tcphdr) (expected : Bool) :
    Calm s.rcv (tcpFin env s th expected).rcv := by
  unfold tcpFin
  split
  · generalize hs₁ : tcpSendAck env _ = s₁
    have hrcv : s₁.rcv = { s.rcv with rcvNxt := s.tcb.rcvNxt + 1 } := by
      rw [← hs₁, rcv_tcpSendAck]
      rfl
    have hst₁ : s₁.state = s.state := congrArg RcvView.state hrcv
    unfold tcpFinState
    split
    · exact .of_over rfl rfl
    · exact .of_over rfl rfl
    · split
      · exact .of_over rfl rfl
      · exact .of_over rfl rfl
    · exact .of_over rfl rfl
    · have hover : s₁.state.receives = false := by
        cases hs : s₁.state <;> first | rfl | contradiction
      refine ⟨fun he => ⟨(congrArg TcpState.early hst₁).symm.trans he, ?_⟩, fun hr => ?_⟩
      · rw [hrcv]
      · exact absurd (hover.symm.trans hr) Bool.false_ne_true
  · exact .of_rcv rfl

end Steps

section Arrival

variable {env : Env} {s : TcpSock} {seg : Segment}

/-- The range of the segment does not wrap. -/
def Segment.NoWrap (seg : Segment) : Prop := seg.th.seq.toNat + seg.payload.length < 2 ^ 32

theorem Segment.NoWrap.skb (h : seg.NoWrap) : (tcpInitSegment seg).NoWrap := by
  unfold Segment.NoWrap at h
  change (seg.th.seq + UInt32.ofNat seg.payload.length).toNat = _
  rw [UInt32.toNat_add, UInt32.toNat_ofNat']
  change _ = seg.th.seq.toNat + seg.payload.length
  omega

/-- A segment that passes the sequence check is not behind `rcv_nxt`. -/
theorem le_of_tcpVerifySegment {skb : SkBuff} (h : tcpVerifySegment s skb) :
    s.tcb.rcvNxt ≤ skb.th.seq ∧
      (s.tcb.rcvWnd = 0 → skb.dlen = 0 ∧ skb.th.seq = s.tcb.rcvNxt) := by
  unfold tcpVerifySegment at h
  simp only [Bool.and_eq_true, Bool.not_eq_true', Bool.or_eq_false_iff, Bool.and_eq_false_iff,
    decide_eq_false_iff_not, UInt32.not_lt, Nat.not_lt, Nat.le_zero] at h
  obtain ⟨hlen, hnxt, hwnd⟩ := h
  refine ⟨hnxt, fun h0 => ⟨hlen.resolve_right (by simp [h0]), ?_⟩⟩
  rw [h0, UInt32.add_zero] at hwnd
  exact UInt32.le_antisymm hwnd hnxt

/-- **The text of a segment.** -/
theorem OfoInv.deliver {s' : TcpSock} (h : OfoInv s) (hwrap : seg.NoWrap)
    (hs' : tcpChecks env true s (tcpInitSegment seg) = .ok s') :
    ((∀ c ∈ tcpTextCalls env s (tcpInitSegment seg), OfoOk (tcpDataQueue env c.1 c.2).rcv) ↔
        (tcpTextCalls env s (tcpInitSegment seg) ≠ [] →
          FitsOfo s.ofoQueue (tcpInitSegment seg))) ∧
      ((tcpTextCalls env s (tcpInitSegment seg) ≠ [] → FitsOfo s.ofoQueue (tcpInitSegment seg)) →
        OfoInv (tcpDeliver env s' (tcpInitSegment seg))) := by
  obtain ⟨hv, hsame⟩ := tcpChecks_ok hs'
  have hinv : OfoInv s' := h.calm ((calm_tcpChecks env s _).2 s' hs')
  have hskb := hwrap.skb
  have hseq : (tcpInitSegment seg).th.seq = (tcpInitSegment seg).seq := rfl
  generalize tcpInitSegment seg = skb at hs' hv hskb hseq ⊢
  have hend : ∀ s₁ : TcpSock, OfoInv s₁ → OfoInv (tcpPending env (tcpFin env s₁ skb.th
      (skb.seq == s'.tcb.rcvNxt)) skb (skb.seq == s'.tcb.rcvNxt)) := by
    intro s₁ h₁
    refine h₁.calm ((calm_tcpFin env s₁ skb.th (skb.seq == s'.tcb.rcvNxt)).trans ?_)
    exact .of_rcv (rcv_tcpPending env _ _ _)
  unfold tcpTextCalls tcpDeliver tcpText
  rw [hs']
  dsimp only
  split
  · next hrec =>
    have hiff : OfoOk (tcpDataQueue env s' skb).rcv ↔ FitsOfo s.ofoQueue skb := by
      obtain ⟨hge, hwnd⟩ := le_of_tcpVerifySegment hv
      have hofo : s'.rcv.ofoQueue = s.ofoQueue := hsame.ofoQueue
      have hnxt : s'.rcv.rcvNxt = s.tcb.rcvNxt := hsame.rcvNxt
      have hrw : s'.rcv.rcvWnd = s.tcb.rcvWnd := hsame.rcvWnd
      rw [hseq, ← hnxt, ← hrw] at hwnd
      rw [hseq, ← hnxt] at hge
      rw [rcv_tcpDataQueue, ← hofo]
      exact ofoOk_dataQueue_iff (hinv.ok hrec.1) (hinv.noWrap hrec.1) hskb hge hwnd
    refine ⟨?_, fun hfit => hend _ ?_⟩
    · simp [hiff]
    · have hst : (tcpDataQueue env s' skb).state = s'.state := by
        have := congrArg RcvView.state (rcv_tcpDataQueue env s' skb)
        exact this.trans (state_dataQueue _ _)
      refine ⟨fun he => ?_, fun _ => hiff.mpr (hfit (by simp)), fun _ => ?_⟩
      · rw [hst] at he
        have hrec := hrec.1
        revert he hrec
        cases s'.state <;> exact nofun
      · rw [rcv_tcpDataQueue]
        exact ofoNoWrap_dataQueue (hinv.noWrap hrec.1) hskb
  · exact ⟨iff_of_true (by simp) (by simp), fun _ => hend _ hinv⟩

end Arrival

/-! ## Runs -/

/-- The calls of `tcp_data_queue` during an event. -/
def tcpEventCalls (env : Env) (s : TcpSock) : TcpEvent → List (TcpSock × SkBuff)
  | .arrive seg => tcpDataCalls env s seg
  | _ => []

/-- After each call of `tcp_data_queue` the out-of-order queue is in order. -/
def KeepsOfo (env : Env) (s : TcpSock) (e : TcpEvent) : Prop :=
  ∀ c ∈ tcpEventCalls env s e, OfoOk (tcpDataQueue env c.1 c.2).rcv

/-- A segment whose text is queued fits into the out-of-order queue. -/
def ArrivesFitting (env : Env) (s : TcpSock) : TcpEvent → Prop
  | .arrive seg => tcpDataCalls env s seg ≠ [] → FitsOfo s.ofoQueue (tcpInitSegment seg)
  | _ => True

/-- FEC is off, and no sequence number wraps. -/
def PlainEvent (s : TcpSock) : TcpEvent → Prop
  | .arrive seg => s.fec = none ∧ seg.NoWrap
  | _ => s.fec = none

instance (env : Env) (s : TcpSock) (e : TcpEvent) : Decidable (KeepsOfo env s e) :=
  inferInstanceAs (Decidable (∀ c ∈ tcpEventCalls env s e, _))

instance (env : Env) (s : TcpSock) : ∀ e, Decidable (ArrivesFitting env s e)
  | .arrive seg => inferInstanceAs (Decidable (¬ tcpDataCalls env s seg = [] → _))
  | .connect _ | .write _ | .read _ | .wake _ | .close | .abort | .timer _ | .tick _ =>
    .isTrue trivial

instance (seg : Segment) : Decidable seg.NoWrap := inferInstanceAs (Decidable (_ < _))

instance (s : TcpSock) : ∀ e, Decidable (PlainEvent s e)
  | .arrive seg => inferInstanceAs (Decidable (s.fec = none ∧ seg.NoWrap))
  | .connect _ | .write _ | .read _ | .wake _ | .close | .abort | .timer _ | .tick _ =>
    inferInstanceAs (Decidable (s.fec = none))

section Run

variable {env : Env} {s : TcpSock}

theorem tcpIn_plain (hfec : s.fec = none) (hst : s.state.synchronized) (seg : Segment) :
    tcpIn env s seg = tcpSegmentArrivesOr env true s (tcpInitSegment seg) := by
  rw [tcpSegmentArrivesOr_true]
  unfold tcpIn tcpInputState
  rw [hfec]
  cases h : s.state <;> rw [h] at hst <;> first | rfl | cases hst

/-- Before the connection is synchronized no text is queued. -/
theorem calm_tcpIn (hsync : s.state.synchronized = false) (seg : Segment) :
    Calm s.rcv (tcpIn env s seg).rcv := by
  unfold tcpIn tcpInputState
  split
  · unfold tcpClosed
    split
    · exact .of_rcv rfl
    · exact .of_rcv (rcv_tcpSendReset env s)
  · exact .of_rcv rfl
  · next hst => exact calm_tcpSynsent env hst _
  · cases hst : s.state <;> rw [hst] at hsync <;> contradiction

/-- Only an arriving segment has its text queued. -/
theorem calm_tcpStep (hfec : s.fec = none) {e : TcpEvent} (he : ∀ seg, e ≠ .arrive seg) :
    Calm s.rcv (tcpStep env s e).rcv := by
  cases e with
  | arrive seg => exact absurd rfl (he seg)
  | connect iss => exact calm_inetStreamConnect env s iss
  | write buf => exact .of_rcv (rcv_tcpWrite_plain env hfec buf)
  | read len => exact (tcpRead_spec s len).1.calm
  | wake rd => exact (tcpReceiveStep_spec s rd).1.calm
  | close => exact calm_tcpClose env hfec
  | abort => exact calm_tcpDone _
  | timer handler =>
    change Calm s.rcv (if handler ∈ s.timers then handler.run env s else s).rcv
    split
    · exact calm_timer env s handler
    · exact .of_rcv rfl
  | tick ms => exact .of_rcv rfl

/-- **An arriving segment.** -/
theorem OfoInv.arrive (h : OfoInv s) {seg : Segment} (hfec : s.fec = none) (hwrap : seg.NoWrap) :
    (KeepsOfo env s (.arrive seg) ↔ ArrivesFitting env s (.arrive seg)) ∧
      (ArrivesFitting env s (.arrive seg) → OfoInv (tcpIn env s seg)) := by
  unfold KeepsOfo ArrivesFitting tcpEventCalls tcpDataCalls
  rw [hfec]
  dsimp only
  cases hsync : s.state.synchronized with
  | false =>
    exact ⟨iff_of_true (by simp) (by simp), fun _ => h.calm (calm_tcpIn hsync seg)⟩
  | true =>
    rw [if_pos rfl, tcpIn_plain hfec hsync]
    cases hs' : tcpChecks env true s (tcpInitSegment seg) with
    | error s' =>
      have hnil : tcpTextCalls env s (tcpInitSegment seg) = [] := by
        unfold tcpTextCalls
        rw [hs']
      rw [hnil]
      refine ⟨iff_of_true (by simp) (by simp), fun _ => h.calm ?_⟩
      unfold tcpSegmentArrivesOr
      rw [hs']
      exact (calm_tcpChecks env s _).1 s' hs'
    | ok s' =>
      unfold tcpSegmentArrivesOr
      rw [hs']
      exact h.deliver hwrap hs'

/-- **One event.** -/
theorem OfoInv.step (h : OfoInv s) {e : TcpEvent} (he : PlainEvent s e) :
    (KeepsOfo env s e ↔ ArrivesFitting env s e) ∧
      (ArrivesFitting env s e → OfoInv (tcpStep env s e)) := by
  have hquiet : tcpEventCalls env s e = [] → (KeepsOfo env s e ↔ True) := by
    intro hnil
    unfold KeepsOfo
    rw [hnil]
    simp
  cases e with
  | arrive seg => exact h.arrive he.1 he.2
  | _ => exact ⟨hquiet rfl, fun _ => h.calm (calm_tcpStep he nofun)⟩

end Run

/-- **When the out-of-order queue stays in order.** In a run of a socket from its creation, with FEC
off and no wrap of sequence numbers, the queue is strictly increasing, without overlap and beyond
`rcv_nxt` after each call of `tcp_data_queue` exactly when each segment whose text is queued
overlaps no buffer that waits then, unless it starts where one of them does. -/
theorem ofoQueue_ok_iff (env : Env) (s : TcpSock) (hstate : s.state = .close)
    (hofo : s.ofoQueue = []) (events : List TcpEvent) (hplain : RunSat env PlainEvent s events) :
    RunSat env (KeepsOfo env) s events ↔ RunSat env (ArrivesFitting env) s events := by
  refine RunSat.iff_of_inv (I := OfoInv) (H := PlainEvent) ?_ ?_ ?_ hplain
  · exact fun s e h he => (h.step he).1
  · exact fun s e h he => (h.step he).2
  · refine ⟨fun _ => hofo, fun hr => ?_, fun hr => ?_⟩
    · rw [hstate] at hr
      cases hr
    · rw [hstate] at hr
      cases hr

/-- The events that connect a socket to a peer with initial sequence number 200. -/
def connected200 : List TcpEvent :=
  [.connect 100, .arrive ⟨{ Tcphdr.zero with
    seq := 200, ackSeq := 101, hl := 5, syn := true, ack := true }, []⟩]

/-- A later segment, a copy of it, and the gap. -/
theorem ofoQueue_ok_gap :
    RunSat quietLink (KeepsOfo quietLink) tcpAllocSock (connected200 ++
      [.arrive (segmentAt 203 [3, 4]), .arrive (segmentAt 203 [3, 4]),
        .arrive (segmentAt 201 [1, 2])]) :=
  (ofoQueue_ok_iff quietLink tcpAllocSock rfl rfl _ (by decide +kernel)).mpr (by decide +kernel)

/-- A segment that runs into a buffer that waits is queued behind it. -/
theorem not_ofoQueue_ok_overlap :
    let events := connected200 ++
      [.arrive (segmentAt 205 [5, 6]), .arrive (segmentAt 203 [3, 4, 5])]
    RunSat quietLink PlainEvent tcpAllocSock events ∧
      ¬ RunSat quietLink (KeepsOfo quietLink) tcpAllocSock events := by
  decide +kernel

end LvlIp.Tcp
