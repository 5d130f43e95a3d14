import LvlIp.EndToEnd.Pieces
import LvlIp.Send.Order

/-!
# The sender between cuts

As long as every acknowledgement that a sender without FEC accepts is one of its own cuts, `snd_una`
stands before the first buffer of the write queue (`Flow`). So not only first transmissions but
retransmissions too, which go out at `snd_una`, carry a buffer at the sequence number of its position:
whatever goes out is a piece of what has been written.
-/

namespace LvlIp.Tcp

open Fec Foundations Relation

/-- A buffer with data, and the flags that `tcp_send` sets. -/
structure SkBuff.Carries (y : SkBuff) : Prop where
  payload : y.payload ≠ []
  rst : y.th.rst = false
  ack : y.th.ack = true

/-- What has gone out of the journal `w`: each of the first `sent` buffers, at its position, and no
data but pieces. -/
structure Shown (w : Journal) (out : List Transmission) : Prop where
  pieces : ∀ t ∈ out, w.Piece t.seg.th.seq t.seg.payload
  shown : ∀ j < w.sent, ∀ y, w.queue[j]? = some y →
    ∃ t ∈ out, TransmissionOf t y (seqAt w.base (w.off j))

/-- The write queue starts at `snd_una`, what has gone out is what the journal says, and the
retransmission timer only runs while something is in flight. -/
structure Flow (w : Journal) (v : TxView) : Prop where
  queued : v.snd.queued = w.queue
  queue : ∃ a, QueueInv w.base v.snd a w.sent ∧ v.snd.sndUna = seqAt w.base (w.off a)
  out : Shown w v.out
  carries : ∀ y ∈ w.queue, y.Carries
  started : w.queue ≠ [] → 0 < w.sent
  armed : v.armed → v.snd.inflight ≠ 0

/-- More has been sent of the same queue. -/
structure Advances (w w' : Journal) : Prop extends w.Grows w' where
  same : w'.queue = w.queue

theorem Advances.refl (w : Journal) : Advances w w := ⟨.refl w, rfl⟩

theorem Advances.trans {w w' w'' : Journal} (h : Advances w w') (h' : Advances w' w'') :
    Advances w w'' :=
  ⟨h.toGrows.trans h'.toGrows, h'.same.trans h.same⟩

theorem Advances.short {w w' : Journal} (h : Advances w w') (hw : w.Short) : w'.Short := by
  unfold Journal.Short Journal.stream
  rw [h.base, h.same]
  exact hw

namespace Shown

variable {w w' : Journal} {out : List Transmission}

/-- More goes out, of buffers that have been sent before. -/
theorem append (h : Shown w out) {ts : List Transmission}
    (hts : ∀ t ∈ ts, w.Piece t.seg.th.seq t.seg.payload) : Shown w (out ++ ts) where
  pieces := List.forall_mem_append.mpr ⟨h.pieces, hts⟩
  shown j hj y hy := by
    obtain ⟨t, ht, hof⟩ := h.shown j hj y hy
    exact ⟨t, List.mem_append_left ts ht, hof⟩

/-- Buffers are queued, and those up to `w'.sent` are sent for the first time. -/
theorem grow (h : Shown w out) (hg : w.Grows w') {ts : List Transmission}
    (hts : ∀ t ∈ ts, w'.Piece t.seg.th.seq t.seg.payload)
    (hnew : ∀ j, w.sent ≤ j → j < w'.sent → ∀ y, w'.queue[j]? = some y →
      ∃ t ∈ ts, TransmissionOf t y (seqAt w'.base (w'.off j))) : Shown w' (out ++ ts) where
  pieces := List.forall_mem_append.mpr ⟨fun t ht => (h.pieces t ht).mono hg, hts⟩
  shown j hj y hy := by
    rcases Nat.lt_or_ge j w.sent with hlt | hge
    · have hle := hlt.trans_le w.le
      obtain ⟨more, hmore⟩ := hg.queue
      rw [← hmore, List.getElem?_append_left hle] at hy
      obtain ⟨t, ht, hof⟩ := h.shown j hlt y hy
      rw [hg.base, hg.off hlt.le]
      exact ⟨t, List.mem_append_left ts ht, hof⟩
    · obtain ⟨t, ht, hof⟩ := hnew j hge hj y hy
      exact ⟨t, List.mem_append_right out ht, hof⟩

end Shown

/-- Each of the buffers that `tcp_send_next` sends goes out at its position. -/
theorem SendsNext.shown {base : UInt32} {queued : List SkBuff}
    (hfin : ∀ skb ∈ queued, skb.th.fin = false) {nxt nxt' : UInt32} {q q' : List SkBuff} {n b : ℕ}
    {ts : List Transmission} (h : SendsNext nxt q n nxt' q' ts)
    (hnxt : nxt = seqAt base (queuedOff queued b))
    (hsame : List.Forall₂ SameBuf q (queued.drop b)) :
    ∀ i < n, ∀ y, queued[b + i]? = some y →
      ∃ t ∈ ts, TransmissionOf t y (seqAt base (queuedOff queued (b + i))) := by
  induction h generalizing b with
  | nil => exact fun i hi => absurd hi (Nat.not_lt_zero i)
  | @cons nxt nxt' skb q q' n th ts hth hsends ih =>
    obtain ⟨y, hy, hskb⟩ := forall₂_getElem? hsame (List.getElem?_cons_zero (l := q))
    rw [List.getElem?_drop, Nat.add_zero] at hy
    have hb : b < queued.length := (List.getElem?_eq_some_iff.mp hy).1
    have hskbfin : skb.th.fin = false := by
      rw [hskb.header.fin]
      exact hfin y (List.mem_of_getElem? hy)
    have hafter : skb.after nxt = seqAt base (queuedOff queued (b + 1)) := by
      rw [SkBuff.after_eq hskbfin, hnxt, seqAt_add, queuedOff_succ hy, hskb.dlen]
    rw [List.drop_eq_getElem_cons hb] at hsame
    have hnext := ih hafter (List.forall₂_cons.mp hsame).2
    intro i hi z hz
    cases i with
    | zero =>
      rw [Nat.add_zero, hy, Option.some_inj] at hz
      exact ⟨_, List.mem_cons_self, hz ▸ hnxt ▸ hskb.transmission hth⟩
    | succ i =>
      rw [← Nat.add_assoc, Nat.add_right_comm] at hz ⊢
      obtain ⟨t, ht, hof⟩ := hnext i (by omega) z hz
      exact ⟨t, List.mem_cons_of_mem _ ht, hof⟩

section Steps

variable {w : Journal} {v v' : TxView}

/-- The transmission of a queued buffer is a piece. -/
theorem Journal.Piece.of_transmission {t : Transmission} {y : SkBuff} {j : ℕ} (hj : j < w.sent)
    (hy : w.queue[j]? = some y) (ht : TransmissionOf t y (seqAt w.base (w.off j))) :
    w.Piece t.seg.th.seq t.seg.payload :=
  .inr ⟨j, hj, y, hy, ht.payload, ht.header.seq⟩

/-- **An acknowledgement at a cut** takes exactly the buffers before it off the queue. -/
theorem Flow.ack (h : Flow w v) (hw : w.Short) (hpos : 0 < w.base) {ackSeq : UInt32}
    (hacc : v.snd.sndUna < ackSeq ∧ ackSeq ≤ v.snd.sndNxt) (hcut : w.Cut ackSeq) {armed : Bool}
    (harmed : armed → v.armed ∧ (v.snd.ack ackSeq).inflight ≠ 0) :
    Flow w { v with snd := v.snd.ack ackSeq, armed } := by
  obtain ⟨a, hq, huna⟩ := h.queue
  obtain ⟨j, hj, hack⟩ := hcut
  obtain ⟨a', hle, hq', hends, hstop⟩ := hq.ack ackSeq
  have hoff : ∀ i, queuedOff v.snd.queued i = w.off i := fun i => by rw [h.queued]; rfl
  have hlen := hq.length
  have hsent := hq.le_length
  have hab := hq'.le
  have hshort : ∀ i, w.base.toNat + w.off i < 2 ^ 32 := fun i => by
    have hi := w.off_le i
    unfold Journal.Short at hw
    omega
  have hlo : w.off a' ≤ w.off j := by
    rcases Nat.eq_or_lt_of_le hle with rfl | hlt
    · have hlt := hacc.1
      rw [huna, hack, seqAt_lt_iff (hshort _) (hshort _)] at hlt
      exact hlt.le
    · -- the last buffer that was taken off ends at `a'`
      have hlast : a' - 1 - a < v.snd.writeQueue.length := by omega
      have hx := List.getElem?_eq_getElem hlast
      have hend := hends _ _ hx (by omega)
      rw [(hq.sent _ _ hx (by omega)).2, show a + (a' - 1 - a) + 1 = a' by omega, hoff, hack,
        seqAt_le_iff (hshort _) (hshort _)] at hend
      exact hend
  have hhi : w.off j ≤ w.off a' := by
    rcases Nat.eq_or_lt_of_le hab with rfl | hlt
    · exact w.off_mono hj
    · -- the first buffer that stays has been sent, and ends behind the acknowledgement
      have hhead : a' - a < v.snd.writeQueue.length := by omega
      have hx := List.getElem?_eq_getElem hhead
      have hkeep := hstop hacc _ hx
      obtain ⟨hseq, hend⟩ := hq.sent _ _ hx (by omega)
      rw [show a + (a' - a) = a' by omega, hoff] at hseq hend
      have hpos' : 0 < (v.snd.writeQueue[a' - a]).seq := by
        rw [hseq, UInt32.lt_iff_toNat_lt, toNat_seqAt (hshort _)]
        have hbase := UInt32.lt_iff_toNat_lt.mp hpos
        change 0 < w.base.toNat at hbase
        change 0 < _
        omega
      rw [hend, hack, seqAt_le_iff (hshort _) (hshort _)] at hkeep
      have hlt' : w.off j < w.off (a' + 1) := Nat.lt_of_not_le fun hge => hkeep ⟨hpos', hge⟩
      refine w.off_mono (Nat.le_of_lt_succ ?_)
      by_contra hge
      exact absurd (w.off_mono (Nat.le_of_not_lt hge)) (Nat.not_le.mpr hlt')
  have hview := SndView.ack_of_acceptable hacc
  have hqueued : (v.snd.ack ackSeq).queued = v.snd.queued := by rw [hview]
  have huna' : (v.snd.ack ackSeq).sndUna = ackSeq := by rw [hview]
  refine ⟨hqueued.trans h.queued, ⟨a', hq', ?_⟩, h.out, h.carries, h.started,
    fun ha => (harmed ha).2⟩
  change (v.snd.ack ackSeq).sndUna = _
  rw [huna', hack, Nat.le_antisymm hlo hhi]

/-- **Pending buffers go out** as pieces. -/
theorem Flow.pending (h : Flow w v) {n : ℕ} {nxt : UInt32} {q : List SkBuff}
    {ts : List Transmission} (h0 : v.snd.inflight = 0) (hpos : 0 < n)
    (hsends : SendsNext v.snd.sndNxt v.snd.writeQueue n nxt q ts) :
    ∃ w', Advances w w' ∧ Flow w' { v with
      snd := { v.snd with sndNxt := nxt, writeQueue := q, inflight := n }
      out := v.out ++ ts, armed := true } := by
  obtain ⟨a, hq, huna⟩ := h.queue
  obtain ⟨hq', hsent⟩ := hq.pending h0 hsends
  have hab : a = w.sent := by
    have := hq.inflight
    have := hq.le
    omega
  have hle : w.sent + n ≤ w.queue.length := h.queued ▸ hq'.le_length
  have hadv : Advances w { w with sent := w.sent + n, le := hle } :=
    ⟨⟨rfl, List.prefix_rfl, Nat.le_add_right _ _⟩, rfl⟩
  refine ⟨_, hadv, h.queued, ⟨w.sent, hq', hab ▸ huna⟩, h.out.grow hadv.toGrows ?_ ?_, h.carries,
    fun _ => ?_, fun _ => ?_⟩
  · intro t ht
    obtain ⟨i, hi, y, hy, hof⟩ := hsent.out t ht
    rw [h.queued] at hy hof
    have hlt : w.sent + i < w.sent + n := Nat.add_lt_add_left hi _
    exact .inr ⟨w.sent + i, hlt, y, hy, hof.payload, hof.header.seq⟩
  · intro j hge hlt y hy
    obtain ⟨i, rfl⟩ := Nat.exists_eq_add_of_le hge
    have hall := hsends.shown hq.noFin hq.sndNxt (hab ▸ hq.same) i (Nat.lt_of_add_lt_add_left hlt)
    rw [h.queued] at hall
    exact hall y hy
  · exact Nat.add_pos_right _ hpos
  · exact Nat.pos_iff_ne_zero.mp hpos

/-- **Every step of an arrival keeps the flow**, if it accepts no acknowledgement but a cut. -/
theorem Flow.step (h : Flow w v) (hw : w.Short) (hpos : 0 < w.base) (hs : TxStep v v')
    (hcut : v'.snd.sndUna = v.snd.sndUna ∨ w.Cut v'.snd.sndUna) :
    ∃ w', Advances w w' ∧ Flow w' v' := by
  cases hs with
  | control th =>
    exact ⟨w, .refl w, h.queued, h.queue, h.out.append (List.forall_mem_singleton.mpr (.inl rfl)),
      h.carries, h.started, h.armed⟩
  | ack ackSeq hacc harmed =>
    have huna : (v.snd.ack ackSeq).sndUna = ackSeq := by rw [SndView.ack_of_acceptable hacc]
    change (v.snd.ack ackSeq).sndUna = _ ∨ w.Cut (v.snd.ack ackSeq).sndUna at hcut
    rw [huna] at hcut
    have hne : ackSeq ≠ v.snd.sndUna := fun heq => UInt32.lt_irrefl _ (heq ▸ hacc.1)
    exact ⟨w, .refl w, h.ack hw hpos hacc (hcut.resolve_left hne) harmed⟩
  | pending h0 hn hsends => exact h.pending h0 hn hsends
  | disarm =>
    exact ⟨w, .refl w, h.queued, h.queue, h.out, h.carries, h.started,
      fun ha => absurd ha Bool.false_ne_true⟩
  | release =>
    obtain ⟨a, hq, huna⟩ := h.queue
    exact ⟨w, .refl w, h.queued, ⟨a, { hq with }, huna⟩, h.out, h.carries, h.started,
      fun ha => absurd ha Bool.false_ne_true⟩

/-- `snd_una` never moves back. -/
theorem TxStep.una_le (hs : TxStep v v') : v.snd.sndUna ≤ v'.snd.sndUna := by
  cases hs with
  | ack ackSeq hacc =>
    have huna : (v.snd.ack ackSeq).sndUna = ackSeq := by rw [SndView.ack_of_acceptable hacc]
    change _ ≤ (v.snd.ack ackSeq).sndUna
    rw [huna]
    exact UInt32.le_of_lt hacc.1
  | control | pending | disarm | release => exact UInt32.le_refl _

theorem una_le_of_steps (hs : ReflTransGen TxStep v v') : v.snd.sndUna ≤ v'.snd.sndUna := by
  induction hs with
  | refl => exact UInt32.le_refl _
  | tail _ hstep ih => exact UInt32.le_trans ih hstep.una_le

/-- Steps that leave `snd_una` where it is accept no acknowledgement on the way. -/
theorem Flow.steps (h : Flow w v) (hw : w.Short) (hpos : 0 < w.base) (hs : ReflTransGen TxStep v v')
    (huna : v'.snd.sndUna = v.snd.sndUna) : ∃ w', Advances w w' ∧ Flow w' v' := by
  induction hs with
  | refl => exact ⟨w, .refl w, h⟩
  | tail hsteps hstep ih =>
    have hle := una_le_of_steps hsteps
    have hle' := hstep.una_le
    rw [huna] at hle'
    have heq := UInt32.le_antisymm hle' hle
    obtain ⟨w₁, hadv, hflow⟩ := ih heq
    obtain ⟨w₂, hadv', hflow'⟩ := hflow.step (hadv.short hw) (hadv.base ▸ hpos) hstep
      (.inl (huna.trans heq.symm))
    exact ⟨w₂, hadv.trans hadv', hflow'⟩

end Steps

/-! ## The arrival of a segment -/

section Arrival

variable (env : Env) {s : TcpSock} {w : Journal}

theorem una_tcpFinAcked (s : TcpSock) (th : Tcphdr) :
    (tcpFinAcked env s th).1.snd.sndUna = s.snd.sndUna := by
  unfold tcpFinAcked
  split
  · split
    · rfl
    · rfl
    · rfl
    · split
      · exact congrArg SndView.sndUna (snd_tcpSendAck env _)
      · rfl
    · rfl
  · rfl

theorem una_tcpSendNextLoop (n : ℕ) (s : TcpSock) (q : List SkBuff) :
    (tcpSendNextLoop env n s q).1.snd.sndUna = s.snd.sndUna := by
  induction n generalizing s q with
  | zero => rfl
  | succ n ih =>
    cases q with
    | nil => rfl
    | cons skb q =>
      have htransmit := congrArg SndView.sndUna (snd_tcpTransmitSkb env s skb s.tcb.sndNxt)
      exact (ih (tcpAdvanceNxt _ _) q).trans htransmit

theorem una_tcpPending (s : TcpSock) (skb : SkBuff) (expected : Bool) :
    (tcpPending env s skb expected).snd.sndUna = s.snd.sndUna := by
  unfold tcpPending
  split
  · dsimp only
    split
    · have hrearm : ∀ s₁ : TcpSock, (tcpRearmRtoTimer s₁).snd.sndUna = s₁.snd.sndUna :=
        fun s₁ => congrArg SndView.sndUna (snd_tcpRearmRtoTimer s₁)
      unfold tcpSendPending tcpSendNext
      dsimp only
      rw [hrearm]
      exact una_tcpSendNextLoop env _ (tcpStopDelackTimer s) _
    · exact congrArg SndView.sndUna (snd_tcpAckOrDelay env _ skb)
  · rfl

theorem una_tcpDeliver (s : TcpSock) (skb : SkBuff) :
    (tcpDeliver env s skb).snd.sndUna = s.snd.sndUna := by
  unfold tcpDeliver
  dsimp only
  rw [una_tcpPending, snd_tcpFin, snd_tcpText]

theorem step_tcpAck (s : TcpSock) (ackSeq : UInt32) :
    (tcpAck s ackSeq).1.txv = s.txv ∨
      TxStep s.txv (tcpAck s ackSeq).1.txv ∧ (tcpAck s ackSeq).1.snd.sndUna = ackSeq := by
  have hsnd := snd_tcpAck s ackSeq
  unfold tcpAck at hsnd ⊢
  dsimp only at hsnd ⊢
  split
  · next hacc =>
    rw [if_pos hacc] at hsnd
    have hrtt := txv_tcpRtt { s with tcb.sndUna := ackSeq }
    generalize tcpRtt { s with tcb.sndUna := ackSeq } = s₁ at hsnd hrtt ⊢
    obtain ⟨armed, harmed, hview⟩ := exists_tcpCleanRtoQueue s₁ ackSeq
    rw [hsnd, hrtt] at hview harmed
    rw [hview, hsnd]
    have hack : s.snd.ack ackSeq = _ := SndView.ack_of_acceptable hacc
    exact .inr ⟨TxStep.ack s.txv ackSeq hacc harmed, by rw [hack]⟩
  · exact .inl rfl

/-- **An arrival** accepts the acknowledgement of the segment, or none, and then leaves `snd_una`
alone. -/
theorem exists_tcpSegmentArrives (h : s.state.connected) (skb : SkBuff) :
    ∃ s₁, (s₁ = s ∨ s₁ = (tcpAck s skb.th.ackSeq).1) ∧ TxSteps s₁ (tcpSegmentArrives env s skb) ∧
      (tcpSegmentArrives env s skb).snd.sndUna = s₁.snd.sndUna := by
  have hfield : (tcpAckField s skb.th).1 = s ∨
      (tcpAckField s skb.th).1 = (tcpAck s skb.th.ackSeq).1 := by
    unfold tcpAckField
    split
    · next hst => rw [hst] at h; cases h
    all_goals first
      | exact .inr rfl
      | exact .inl rfl
  unfold tcpSegmentArrives
  split
  · split
    · exact ⟨s, .inl rfl, .refl h, rfl⟩
    · exact ⟨s, .inl rfl, txSteps_tcpSendAck env h, congrArg SndView.sndUna (snd_tcpSendAck env s)⟩
  · split
    · exact ⟨s, .inl rfl, txSteps_tcpEnterTimeWait s, rfl⟩
    · split
      · exact ⟨s, .inl rfl, .refl h, rfl⟩
      · split
        · exact ⟨s, .inl rfl, .refl h, rfl⟩
        · have hack := txSteps_tcpAckField h skb.th
          dsimp only
          split
          · exact ⟨_, hfield, .refl hack.1, rfl⟩
          · have hfin := txSteps_tcpFinAcked env hack.1 skb.th
            have huna := una_tcpFinAcked env (tcpAckField s skb.th).1 skb.th
            split
            · exact ⟨_, hfield, hfin, huna⟩
            · exact ⟨_, hfield, hfin.trans (txSteps_tcpDeliver env hfin.1 skb),
                (una_tcpDeliver env _ skb).trans huna⟩

/-- **A segment whose acknowledgement is a cut** keeps the flow. -/
theorem Flow.arrive (h : Flow w s.txv) (hw : w.Short) (hpos : 0 < w.base) (hst : s.state.connected)
    {skb : SkBuff} (hcut : w.Cut skb.th.ackSeq) :
    ∃ w', Advances w w' ∧ Flow w' (tcpSegmentArrives env s skb).txv := by
  obtain ⟨s₁, hs₁, hsteps, huna⟩ := exists_tcpSegmentArrives env hst skb
  obtain ⟨w₁, hadv, hflow⟩ : ∃ w₁, Advances w w₁ ∧ Flow w₁ s₁.txv := by
    rcases hs₁ with rfl | rfl
    · exact ⟨w, .refl w, h⟩
    · rcases step_tcpAck s skb.th.ackSeq with heq | ⟨hstep, hack⟩
      · exact ⟨w, .refl w, heq ▸ h⟩
      · refine h.step hw hpos hstep (.inr ?_)
        change w.Cut (tcpAck s skb.th.ackSeq).1.snd.sndUna
        rw [hack]
        exact hcut
  obtain ⟨w₂, hadv', hflow'⟩ := hflow.steps (hadv.short hw) (hadv.base ▸ hpos) hsteps.2 huna
  exact ⟨w₂, hadv.trans hadv', hflow'⟩

/-- Sending an acknowledgement keeps the flow. -/
theorem Flow.sendAck (h : Flow w s.txv) (hw : w.Short) (hpos : 0 < w.base) (hst : s.state.connected) :
    ∃ w', Advances w w' ∧ Flow w' (tcpSendAck env s).txv :=
  h.steps hw hpos (txSteps_tcpSendAck env hst).2 (congrArg SndView.sndUna (snd_tcpSendAck env s))

end Arrival

/-! ## Retransmission -/

theorem una_tcpRetransmissionTimeout (env : Env) (s : TcpSock) :
    (tcpRetransmissionTimeout env s).snd.sndUna = s.snd.sndUna := by
  unfold tcpRetransmissionTimeout
  dsimp only
  split
  · rfl
  · next skb q _ =>
    have htransmit : (tcpTransmitSkb env (tcpReleaseRtoTimer s) skb
        (tcpReleaseRtoTimer s).tcb.sndUna).1.tcb.sndUna = s.tcb.sndUna :=
      congrArg SndView.sndUna
        (snd_tcpTransmitSkb env (tcpReleaseRtoTimer s) skb (tcpReleaseRtoTimer s).tcb.sndUna)
    generalize tcpTransmitSkb env (tcpReleaseRtoTimer s) skb (tcpReleaseRtoTimer s).tcb.sndUna = t
      at htransmit
    split
    · exact htransmit
    · split
      · unfold tcpHandleFinState
        split <;> exact htransmit
      · exact htransmit

/-- **A retransmission is a piece**: the first buffer of the queue stands at `snd_una`. -/
theorem Flow.timeout (env : Env) {s : TcpSock} {w : Journal} (h : Flow w s.txv) (hw : w.Short)
    (hpos : 0 < w.base) (hst : s.state.connected) (harmed : s.txv.armed) :
    ∃ w', Advances w w' ∧ Flow w' (tcpRetransmissionTimeout env s).txv := by
  obtain ⟨a, hq, huna⟩ := h.queue
  have hlt : a < w.sent := by
    have hne := h.armed harmed
    rw [hq.inflight] at hne
    omega
  obtain ⟨-, ⟨hempty, -⟩ | ⟨skb, q, th, hwq, hth, hview⟩⟩ := exists_tcpRetransmissionTimeout env hst
  · -- something is in flight, so the queue is not empty
    have hlen := hq.length
    have hle := hq.le_length
    have hnil : s.txv.snd.writeQueue = [] := hempty
    rw [hnil, List.length_nil] at hlen
    omega
  · have h0 : s.txv.snd.writeQueue[0]? = some skb := by
      change s.writeQueue[0]? = some skb
      rw [hwq, List.getElem?_cons_zero]
    obtain ⟨y, hy, hsame⟩ := hq.exists_queued h0
    rw [h.queued, Nat.add_zero] at hy
    have hpiece : w.Piece (skb.transmission th).seg.th.seq (skb.transmission th).seg.payload := by
      have hof := hsame.transmission hth
      rw [show s.tcb.sndUna = _ from huna] at hof
      exact .of_transmission hlt hy hof
    have hout : Shown w (s.txv.out ++ [skb.transmission th]) :=
      h.out.append (List.forall_mem_singleton.mpr hpiece)
    have hre : Flow w (s.txv.retransmit skb q th) :=
      ⟨h.queued, ⟨a, hq.retransmit hwq hth, huna⟩, hout, h.carries, h.started, h.armed⟩
    rcases hview with hview | hstep
    · rw [hview]
      exact ⟨w, .refl w, hre.queued, hre.queue, hre.out, h.carries, h.started,
        fun _ => h.armed harmed⟩
    · exact hre.step hw hpos hstep (.inl (una_tcpRetransmissionTimeout env s))

/-! ## Writing -/

section Writing

variable (env : Env) {s : TcpSock} {w : Journal}

/-- **Queueing a new buffer** keeps the flow unless older buffers wait with nothing in flight. -/
theorem Flow.queueTransmit (h : Flow w s.txv) (hwait : s.inflight = 0 → s.writeQueue = [])
    {skb : SkBuff} (hseq : skb.seq = 0) (hfin : skb.th.fin = false) (hskb : skb.Carries) :
    ∃ w', w.Grows w' ∧ Flow w' (tcpQueueTransmitSkb env s skb).1.txv ∧
      w'.stream = w.stream ++ skb.payload ∧
      (tcpQueueTransmitSkb env s skb).1.smss = s.smss ∧
      (tcpQueueTransmitSkb env s skb).1.inflight ≠ 0 := by
  obtain ⟨a, hq, huna⟩ := h.queue
  have hqueued : s.snd.queued = w.queue := h.queued
  have hlen : w.sent ≤ w.queue.length + 1 := w.le.trans (Nat.le_succ _)
  have hbytes : ∀ y : SkBuff, bytesOf (w.queue ++ [y]) = w.stream ++ y.payload := by
    intro y
    rw [bytesOf_append, bytesOf_cons, bytesOf_nil, List.append_nil]
    rfl
  rcases exists_tcpQueueTransmitSkb env s skb with ⟨h0, hview⟩ | ⟨h0, th, hth, hview⟩
  · have hsnd : (tcpQueueTransmitSkb env s skb).1.snd = s.snd.enqueue skb :=
      congrArg TxView.snd hview
    let w' : Journal := { w with queue := w.queue ++ [skb], le := by simpa using hlen }
    have hg : w.Grows w' := ⟨rfl, List.prefix_append _ _, le_rfl⟩
    refine ⟨w', hg, ?_, hbytes skb, congrArg SndView.smss hsnd, ?_⟩
    · rw [hview]
      have hinf : s.inflight = w.sent - a := hq.inflight
      refine ⟨congrArg (· ++ [skb]) hqueued, ⟨a, hq.enqueue hseq hfin, ?_⟩, ?_,
        List.forall_mem_append.mpr ⟨h.carries, List.forall_mem_singleton.mpr hskb⟩,
        fun _ => (by omega : 0 < w.sent), fun _ => h0⟩
      · rw [hg.off hq.le]
        exact huna
      · have hshown := h.out.grow hg (List.forall_mem_nil _) fun j hge hlt => absurd hlt hge.not_gt
        rwa [List.append_nil] at hshown
    · exact fun hz => h0 ((congrArg SndView.inflight hsnd).symm.trans hz)
  · have hsnd : (tcpQueueTransmitSkb env s skb).1.snd =
        s.snd.sendNow skb ((skb.withHeader th).at s.tcb.sndNxt) := congrArg TxView.snd hview
    obtain ⟨hq', ha, hnxt⟩ := hq.sendNow (hwait h0) hfin hth
    have hlast : a = w.queue.length := ha.trans (congrArg List.length hqueued)
    have hsent : w.sent = w.queue.length := Nat.le_antisymm w.le (hlast ▸ hq.le)
    let skb' := (skb.withHeader th).at s.tcb.sndNxt
    let w' : Journal := { w with queue := w.queue ++ [skb'], sent := a + 1, le := by simp [hlast] }
    have hg : w.Grows w' := ⟨rfl, List.prefix_append _ _, by
      change w.sent ≤ a + 1
      omega⟩
    refine ⟨w', hg, ?_, hbytes skb', congrArg SndView.smss hsnd, ?_⟩
    · rw [hview]
      have hget : w'.queue[a]? = some skb' := by
        change (w.queue ++ [skb'])[a]? = some skb'
        rw [hlast]
        exact List.getElem?_concat_length
      have hof : TransmissionOf (skb.transmission th) skb' (seqAt w'.base (w'.off a)) := by
        refine ⟨rfl, rfl, rfl, .refl th, ?_⟩
        rw [hg.off hq.le]
        refine hth.seq.trans (hnxt.trans ?_)
        rw [h.queued]
        rfl
      have hskb' : skb'.Carries := ⟨hskb.payload, hth.rst.trans hskb.rst, hth.ack.trans hskb.ack⟩
      refine ⟨congrArg (· ++ [skb']) hqueued, ⟨a, hq', ?_⟩, h.out.grow hg ?_ ?_,
        List.forall_mem_append.mpr ⟨h.carries, List.forall_mem_singleton.mpr hskb'⟩,
        fun _ => Nat.succ_pos a, fun _ => ?_⟩
      · rw [hg.off hq.le]
        exact huna
      · exact List.forall_mem_singleton.mpr
          (.inr ⟨a, Nat.lt_succ_self a, skb', hget, rfl, hof.header.seq⟩)
      · intro j hge hlt y hy
        have hj : j = a := by
          change j < a + 1 at hlt
          omega
        subst hj
        rw [hget, Option.some_inj] at hy
        exact ⟨_, List.mem_singleton_self _, hy ▸ hof⟩
      · exact Nat.succ_ne_zero _
    · exact fun hz => Nat.succ_ne_zero _ ((congrArg SndView.inflight hsnd).symm.trans hz)

/-- **One piece of a write.** -/
theorem Flow.sendPiece (h : Flow w s.txv) (hfec : s.fec = none)
    (hwait : s.inflight = 0 → s.writeQueue = []) {piece : List UInt8 × Bool} (hne : piece.1 ≠ []) :
    ∃ w', w.Grows w' ∧ Flow w' (tcpSendPiece env s piece).txv ∧
      w'.stream = w.stream ++ piece.1 ∧ (tcpSendPiece env s piece).rcv = s.rcv ∧
      (tcpSendPiece env s piece).smss = s.smss ∧ (tcpSendPiece env s piece).inflight ≠ 0 := by
  have h₁ : Flow w (TcpSock.txv { s with nextAddr := s.nextAddr + 1 }) :=
    ⟨h.queued, h.queue, h.out, h.carries, h.started, h.armed⟩
  obtain ⟨w', hg, hflow, hstream, hsmss, hinf⟩ :=
    @Flow.queueTransmit env _ w h₁ hwait (plainBuf s.nextAddr piece) rfl rfl ⟨hne, rfl, rfl⟩
  have hrcv := rcv_tcpQueueTransmitSkb env { s with nextAddr := s.nextAddr + 1 }
    (plainBuf s.nextAddr piece)
  rw [tcpSendPiece_plain env hfec]
  generalize (tcpQueueTransmitSkb env { s with nextAddr := s.nextAddr + 1 }
    (plainBuf s.nextAddr piece)).1 = s' at hflow hsmss hinf hrcv
  have hfull : tcpFecEmitFull env s' = s' := by
    unfold tcpFecEmitFull
    rw [show s'.fec = none from (congrArg RcvView.fec hrcv).trans hfec]
  rw [hfull]
  exact ⟨w', hg, hflow, hstream, hrcv, hsmss, hinf⟩

/-- The pieces of a write; once the first one is queued something is in flight. -/
theorem Flow.sendPieces (pieces : List (List UInt8 × Bool)) (h : Flow w s.txv) (hfec : s.fec = none)
    (hwait : pieces ≠ [] → s.inflight = 0 → s.writeQueue = [])
    (hne : ∀ piece ∈ pieces, piece.1 ≠ []) :
    ∃ w', w.Grows w' ∧ Flow w' (pieces.foldl (tcpSendPiece env) s).txv ∧
      w'.stream = w.stream ++ pieces.flatMap Prod.fst ∧
      (pieces.foldl (tcpSendPiece env) s).rcv = s.rcv ∧
      (pieces.foldl (tcpSendPiece env) s).smss = s.smss := by
  induction pieces generalizing s w with
  | nil => exact ⟨w, .refl w, h, (List.append_nil _).symm, rfl, rfl⟩
  | cons piece pieces ih =>
    obtain ⟨w₁, hg, hflow, hstream, hrcv, hsmss, hinf⟩ :=
      h.sendPiece env hfec (hwait (List.cons_ne_nil _ _)) (hne piece List.mem_cons_self)
    obtain ⟨w₂, hg', hflow', hstream', hrcv', hsmss'⟩ :=
      ih hflow ((congrArg RcvView.fec hrcv).trans hfec) (fun _ h0 => absurd h0 hinf)
        fun x hx => hne x (List.mem_cons_of_mem piece hx)
    refine ⟨w₂, hg.trans hg', hflow', ?_, hrcv'.trans hrcv, hsmss'.trans hsmss⟩
    rw [hstream', hstream, List.flatMap_cons, List.append_assoc]

/-- No piece of a write is empty. -/
theorem ne_nil_of_mem_tcpPieces {mss : ℕ} (hm : 0 < mss) {n : ℕ} {buf : List UInt8}
    {piece : List UInt8 × Bool} (h : piece ∈ tcpPieces mss n buf) : piece.1 ≠ [] := by
  induction n generalizing buf with
  | zero => exact absurd h List.not_mem_nil
  | succ n ih =>
    cases buf with
    | nil => exact absurd h List.not_mem_nil
    | cons x buf =>
      rw [tcpPieces] at h
      · rcases List.mem_cons.mp h with rfl | hrest
        · intro hnil
          rcases List.take_eq_nil_iff.mp hnil with hzero | hnil'
          · exact hm.ne' hzero
          · exact List.cons_ne_nil x buf hnil'
        · exact ih hrest
      · exact List.cons_ne_nil x buf

/-- **A write keeps the flow**, and what it queues is the buffer. -/
theorem Flow.send (h : Flow w s.txv) (hfec : s.fec = none) (hmss : s.smss ≠ 0) {buf : List UInt8}
    (hwait : buf ≠ [] → s.inflight = 0 → s.writeQueue = []) :
    ∃ w', w.Grows w' ∧ Flow w' (tcpSend env s buf).txv ∧ w'.stream = w.stream ++ buf ∧
      (tcpSend env s buf).rcv = s.rcv ∧ (tcpSend env s buf).smss = s.smss := by
  have hmss' : tcpSendMss s = s.smss.toNat := by
    unfold tcpSendMss
    rw [hfec]
  have hpos : 0 < s.smss.toNat := by
    refine Nat.pos_of_ne_zero fun h0 => hmss ?_
    rw [← UInt16.toNat_inj, h0]
    rfl
  unfold tcpSend
  rw [hmss']
  obtain ⟨w', hg, hflow, hstream, hrcv, hsmss⟩ :=
    h.sendPieces env (tcpPieces s.smss.toNat buf.length buf) hfec
      (fun hne => hwait fun hnil => hne (by rw [hnil]; rfl)) fun _ => ne_nil_of_mem_tcpPieces hpos
  rw [flatMap_tcpPieces hpos le_rfl] at hstream
  generalize (tcpPieces s.smss.toNat buf.length buf).foldl (tcpSendPiece env) s = s' at *
  have htx := txv_tcpRearmUserTimeout s'
  refine ⟨w', hg, htx ▸ hflow, hstream, (rcv_tcpRearmUserTimeout s').trans hrcv, ?_⟩
  exact (congrArg (fun v => v.snd.smss) htx).trans hsmss

end Writing

end LvlIp.Tcp
