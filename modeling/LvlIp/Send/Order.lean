import LvlIp.Send.Queue

/-!
# First transmissions follow the write order

A buffer's first transmission is the first one from its address. As long as no write is accepted
while buffers wait with nothing in flight, every first transmission of data carries the bytes at
its position in the concatenation of everything written.

* `SendInv`: the invariant, kept by every step of the send side.
* `firstTransmissions_inOrder`: what it gives for runs of a socket without FEC.
-/

namespace LvlIp.Tcp

open Fec Foundations Relation

/-! ## First transmissions -/

/-- The transmission is the first one of its buffer. -/
def FirstIn (out : List Transmission) (t : Transmission) : Prop :=
  ∃ pre post, out = pre ++ t :: post ∧ ∀ x ∈ pre, x.addr ≠ t.addr

theorem FirstIn.of_append {out ts : List Transmission} {t : Transmission}
    (h : FirstIn (out ++ ts) t) : FirstIn out t ∨ t ∈ ts ∧ ∀ x ∈ out, x.addr ≠ t.addr := by
  obtain ⟨pre, post, heq, hpre⟩ := h
  rcases List.append_eq_append_iff.mp heq with ⟨mid, rfl, hts⟩ | ⟨mid, rfl, hmid⟩
  · refine .inr ⟨hts ▸ List.mem_append_right _ List.mem_cons_self, fun x hx => hpre x ?_⟩
    exact List.mem_append_left _ hx
  · cases mid with
    | nil =>
      rw [List.nil_append] at hmid
      exact .inr ⟨hmid ▸ List.mem_cons_self, fun x hx => hpre x (by simpa using hx)⟩
    | cons u mid =>
      rw [List.cons_append, List.cons.injEq] at hmid
      obtain ⟨rfl, -⟩ := hmid
      exact .inl ⟨pre, mid, rfl, hpre⟩

theorem FirstIn.append {out : List Transmission} {t : Transmission} (h : FirstIn out t)
    (more : List Transmission) : FirstIn (out ++ more) t := by
  obtain ⟨pre, post, rfl, hpre⟩ := h
  exact ⟨pre, post ++ more, by simp, hpre⟩

/-- A segment that is no data: without payload, or one of the segments `R`, which stands for the
repair segments of a coded connection. -/
def Transmission.NoData (R : Transmission → Prop) (t : Transmission) : Prop :=
  t.tag = none ∧ t.seg.payload = [] ∨ R t

/-- A transmission of a queued buffer at the sequence number of its position. -/
def AtPosition (base : UInt32) (queued : List SkBuff) (t : Transmission) : Prop :=
  ∃ j y, queued[j]? = some y ∧ TransmissionOf t y (seqAt base (queuedOff queued j))

theorem AtPosition.append {base : UInt32} {queued : List SkBuff} {t : Transmission}
    (h : AtPosition base queued t) (more : List SkBuff) : AtPosition base (queued ++ more) t := by
  obtain ⟨j, y, hy, hof⟩ := h
  have hj : j < queued.length := (List.getElem?_eq_some_iff.mp hy).1
  refine ⟨j, y, ?_, ?_⟩
  · rwa [List.getElem?_append_left hj]
  · rwa [queuedOff_append hj.le]

/-! ## The invariant -/

/-- The buffers before `b` have been transmitted, and first transmissions are at their place. -/
structure OutInv (R : Transmission → Prop) (base : UInt32) (v : TxView) (b : ℕ) : Prop where
  sentAll : ∀ j < b, ∀ y, v.snd.queued[j]? = some y → ∃ t ∈ v.out, t.addr = y.addr
  first : ∀ t, FirstIn v.out t → t.NoData R ∨ AtPosition base v.snd.queued t

/-- `snd_una` lies between the two positions. -/
def UnaBetween (base : UInt32) (v : SndView) (a b : ℕ) : Prop :=
  ∃ u, v.sndUna = seqAt base u ∧ queuedOff v.queued a ≤ u ∧ u ≤ queuedOff v.queued b

/-- The sequence numbers of everything queued do not wrap. -/
def NoWrap (base : UInt32) (v : SndView) : Prop := base.toNat + (bytesOf v.queued).length < 2 ^ 32

/-- The invariant of the send side. -/
def SendInv (R : Transmission → Prop) (base : UInt32) (v : TxView) : Prop :=
  ∃ a b, QueueInv base v.snd a b ∧ OutInv R base v b ∧
    (NoWrap base v.snd → UnaBetween base v.snd a b)

section Invariant

variable {R : Transmission → Prop} {base : UInt32} {v : TxView} {a b : ℕ}

theorem OutInv.emit (h : OutInv R base v b) {ts : List Transmission} {v' : TxView}
    (hq : v'.snd.queued = v.snd.queued) (hout : v'.out = v.out ++ ts)
    (hts : ∀ t ∈ ts, (∀ x ∈ v.out, x.addr ≠ t.addr) →
      t.NoData R ∨ AtPosition base v.snd.queued t) : OutInv R base v' b := by
  refine ⟨fun j hj y hy => ?_, fun t ht => ?_⟩
  · obtain ⟨t, ht, hty⟩ := h.sentAll j hj y (hq ▸ hy)
    exact ⟨t, hout ▸ List.mem_append_left _ ht, hty⟩
  · rw [hq]
    rw [hout] at ht
    rcases ht.of_append with ht | ⟨ht, hnew⟩
    · exact h.first t ht
    · exact hts t ht hnew

theorem OutInv.mono (h : OutInv R base v b) {b' : ℕ}
    (hmore : ∀ j, b ≤ j → j < b' → ∀ y, v.snd.queued[j]? = some y → ∃ t ∈ v.out, t.addr = y.addr) :
    OutInv R base v b' := by
  refine ⟨fun j hj y hy => ?_, h.first⟩
  rcases Nat.lt_or_ge j b with hlt | hge
  · exact h.sentAll j hlt y hy
  · exact hmore j hge hj y hy

theorem QueueInv.toNat_sndNxt {v : SndView} (h : QueueInv base v a b) (hw : NoWrap base v) :
    v.sndNxt.toNat = base.toNat + queuedOff v.queued b := by
  have := queuedOff_le v.queued b
  unfold NoWrap at hw
  rw [h.sndNxt, toNat_seqAt (by omega)]

/-- **An acknowledgement** leaves `snd_una` between the positions. -/
theorem UnaBetween.ack {v : SndView} (hq : QueueInv base v a b) (hw : NoWrap base v)
    (h : UnaBetween base v a b) {ackSeq : UInt32} (hacc : v.sndUna < ackSeq ∧ ackSeq ≤ v.sndNxt)
    {a' : ℕ} (hle : a ≤ a') (hab : a' ≤ b)
    (hends : ∀ i skb, v.writeQueue[i]? = some skb → a + i < a' → skb.endSeq ≤ ackSeq) :
    UnaBetween base (v.ack ackSeq) a' b := by
  obtain ⟨u, hu, hau, hub⟩ := h
  have hb := queuedOff_le v.queued b
  have hw' := hw
  unfold NoWrap at hw'
  have hlo := UInt32.lt_iff_toNat_lt.mp hacc.1
  have hhi := UInt32.le_iff_toNat_le.mp hacc.2
  rw [hq.toNat_sndNxt hw] at hhi
  rw [hu, toNat_seqAt (by omega)] at hlo
  have hview : v.ack ackSeq = { v with
      sndUna := ackSeq
      writeQueue := (tcpCleanLoop ackSeq v.writeQueue v.inflight).1
      inflight := (tcpCleanLoop ackSeq v.writeQueue v.inflight).2 } := by
    rw [SndView.ack, if_pos hacc]
  rw [hview]
  have hseq : ackSeq = seqAt base (ackSeq.toNat - base.toNat) := by
    rw [← UInt32.toNat_inj, toNat_seqAt (by omega)]
    omega
  refine ⟨ackSeq.toNat - base.toNat, hseq, ?_, by change _ ≤ queuedOff v.queued b; omega⟩
  change queuedOff v.queued a' ≤ _
  rcases Nat.eq_or_lt_of_le hle with rfl | hlt
  · omega
  · -- the last buffer taken off ends at position `a'`
    have hlen := hq.length
    have hblen := hq.le_length
    have hlast : a' - 1 - a < v.writeQueue.length := by omega
    have hx := List.getElem?_eq_getElem hlast
    have hend := hends _ _ hx (by omega)
    have hmono := queuedOff_mono v.queued hab
    rw [(hq.sent _ _ hx (by omega)).2, show a + (a' - 1 - a) + 1 = a' by omega, hseq,
      seqAt_le_iff (by omega) (by omega)] at hend
    exact hend

/-- **Every step of an arrival keeps the invariant**, and queues nothing. -/
theorem SendInv.step (h : SendInv R base v) {v' : TxView} (hs : TxStep v v') :
    SendInv R base v' ∧ v'.snd.queued = v.snd.queued ∧ v'.snd.smss = v.snd.smss := by
  obtain ⟨a, b, hq, hout, huna⟩ := h
  cases hs with
  | control th =>
    refine ⟨⟨a, b, hq, hout.emit rfl rfl ?_, huna⟩, rfl, rfl⟩
    intro t ht _
    rw [List.mem_singleton.mp ht]
    exact .inl (.inl ⟨rfl, rfl⟩)
  | ack ackSeq hacc =>
    obtain ⟨a', hle, hq', hends, -⟩ := hq.ack ackSeq
    have hqueued : (v.snd.ack ackSeq).queued = v.snd.queued := by
      unfold SndView.ack
      split <;> rfl
    have hsmss : (v.snd.ack ackSeq).smss = v.snd.smss := by
      unfold SndView.ack
      split <;> rfl
    refine ⟨⟨a', b, hq', ?_, fun hw => ?_⟩, hqueued, hsmss⟩
    · exact hout.emit hqueued (List.append_nil _).symm (by simp)
    · have hw' : NoWrap base v.snd := by
        unfold NoWrap at hw ⊢
        rwa [hqueued] at hw
      exact (huna hw').ack hq hw' hacc hle hq'.le hends
  | @pending n nxt q ts h0 hpos hsends =>
    obtain ⟨hq', hsent⟩ := hq.pending h0 hsends
    obtain rfl : a = b := by
      have := hq.inflight
      have := hq.le
      omega
    refine ⟨⟨a, a + n, hq', ?_, fun hw => ?_⟩, rfl, rfl⟩
    · have hout' : OutInv R base { v with
          snd := { v.snd with sndNxt := nxt, writeQueue := q, inflight := n }
          out := v.out ++ ts, armed := true } a := by
        refine hout.emit rfl rfl fun t ht _ => ?_
        obtain ⟨i, -, y, hy, hof⟩ := hsent.out t ht
        exact .inr ⟨a + i, y, hy, hof⟩
      refine hout'.mono fun j hge hlt y hy => ?_
      obtain ⟨i, rfl⟩ := Nat.exists_eq_add_of_le hge
      obtain ⟨t, ht, hty⟩ := hsent.covers i (by omega) y hy
      exact ⟨t, List.mem_append_right _ ht, hty⟩
    · obtain ⟨u, hu, hau, hub⟩ := huna hw
      exact ⟨u, hu, hau, hub.trans (queuedOff_mono _ (Nat.le_add_right _ _))⟩
  | disarm => exact ⟨⟨a, b, hq, ⟨hout.sentAll, hout.first⟩, huna⟩, rfl, rfl⟩
  | release =>
    exact ⟨⟨a, b, { hq with }, ⟨hout.sentAll, hout.first⟩, huna⟩, rfl, rfl⟩

theorem SendInv.steps (h : SendInv R base v) {v' : TxView} (hs : ReflTransGen TxStep v v') :
    SendInv R base v' ∧ v'.snd.queued = v.snd.queued ∧ v'.snd.smss = v.snd.smss := by
  induction hs with
  | refl => exact ⟨h, rfl, rfl⟩
  | tail _ hstep ih =>
    obtain ⟨h', hq', hm'⟩ := ih.1.step hstep
    exact ⟨h', hq'.trans ih.2.1, hm'.trans ih.2.2⟩

theorem OutInv.append (h : OutInv R base v b) (hb : b ≤ v.snd.queued.length) (skb : SkBuff)
    {v' : TxView} (hq : v'.snd.queued = v.snd.queued ++ [skb]) (hout : v'.out = v.out) :
    OutInv R base v' b := by
  refine ⟨fun j hj y hy => ?_, fun t ht => ?_⟩
  · rw [hq, List.getElem?_append_left (by omega)] at hy
    rw [hout]
    exact h.sentAll j hj y hy
  · rw [hout] at ht
    rw [hq]
    exact (h.first t ht).imp_right fun h => h.append _

theorem NoWrap.of_append {v v' : SndView} {skb : SkBuff} (hq : v'.queued = v.queued ++ [skb])
    (hw : NoWrap base v') : NoWrap base v := by
  unfold NoWrap at hw ⊢
  rw [hq, bytesOf_append, List.length_append] at hw
  omega

theorem UnaBetween.append {v v' : SndView} {skb : SkBuff} (h : UnaBetween base v a b)
    (hb : b ≤ v.queued.length) (hab : a ≤ b) (huna : v'.sndUna = v.sndUna)
    (hq : v'.queued = v.queued ++ [skb]) : UnaBetween base v' a b := by
  obtain ⟨u, hu, hau, hub⟩ := h
  refine ⟨u, huna.trans hu, ?_, ?_⟩
  · rwa [hq, queuedOff_append (hab.trans hb)]
  · rwa [hq, queuedOff_append hb]

theorem OutInv.sendNow {s : TcpSock} (h : OutInv R base s.txv a) (ha : a = s.snd.queued.length)
    {skb : SkBuff} {th : Tcphdr} (hth : FilledFrom skb.th s.tcb.sndNxt th)
    (hnxt : s.tcb.sndNxt = seqAt base (queuedOff s.snd.queued a)) :
    OutInv R base { s.txv.rearm with
      snd := s.snd.sendNow skb ((skb.withHeader th).at s.tcb.sndNxt)
      out := s.out ++ [skb.transmission th] } (a + 1) := by
  have hgrown : OutInv R base { s.txv with
      snd := s.snd.sendNow skb ((skb.withHeader th).at s.tcb.sndNxt) } a :=
    h.append ha.le ((skb.withHeader th).at s.tcb.sndNxt) rfl rfl
  have hget : (s.snd.queued ++ [(skb.withHeader th).at s.tcb.sndNxt])[a]? =
      some ((skb.withHeader th).at s.tcb.sndNxt) := by
    rw [ha]
    exact List.getElem?_concat_length
  have hplace : AtPosition base (s.snd.queued ++ [(skb.withHeader th).at s.tcb.sndNxt])
      (skb.transmission th) := by
    refine ⟨a, _, hget, rfl, rfl, rfl, .refl _, ?_⟩
    rw [queuedOff_append ha.le, ← hnxt]
    exact hth.seq
  have hemit : OutInv R base { s.txv.rearm with
      snd := s.snd.sendNow skb ((skb.withHeader th).at s.tcb.sndNxt)
      out := s.out ++ [skb.transmission th] } a := by
    refine hgrown.emit rfl rfl fun t ht _ => ?_
    rw [List.mem_singleton.mp ht]
    exact .inr hplace
  refine hemit.mono fun j hge hlt y hy => ?_
  obtain rfl : j = a := by omega
  have hy' : y = (skb.withHeader th).at s.tcb.sndNxt := Option.some_inj.mp (hy.symm.trans hget)
  exact ⟨_, List.mem_append_right _ (List.mem_singleton_self _), by rw [hy']; rfl⟩

/-- **Queueing a new buffer** keeps the invariant unless older buffers wait with nothing in
flight. -/
theorem SendInv.queue {env : Env} {s : TcpSock} (h : SendInv R base s.txv)
    (hwait : s.inflight = 0 → s.writeQueue = []) {skb : SkBuff} (hseq : skb.seq = 0)
    (hfin : skb.th.fin = false) :
    SendInv R base (tcpQueueTransmitSkb env s skb).1.txv ∧
      (∃ skb', SameBuf skb' skb ∧
        (tcpQueueTransmitSkb env s skb).1.snd.queued = s.snd.queued ++ [skb']) ∧
      (tcpQueueTransmitSkb env s skb).1.snd.smss = s.snd.smss ∧
      (tcpQueueTransmitSkb env s skb).1.inflight ≠ 0 := by
  obtain ⟨a, b, hq, hout, huna⟩ := h
  rcases exists_tcpQueueTransmitSkb env s skb with ⟨h0, hview⟩ | ⟨h0, th, hth, hview⟩
  · have hsnd : (tcpQueueTransmitSkb env s skb).1.snd = s.snd.enqueue skb :=
      congrArg TxView.snd hview
    refine ⟨?_, ⟨skb, .refl skb, by rw [hsnd]; rfl⟩, by rw [hsnd]; rfl, ?_⟩
    · rw [hview]
      refine ⟨a, b, hq.enqueue hseq hfin, hout.append hq.le_length skb rfl rfl, fun hw => ?_⟩
      exact (huna (hw.of_append rfl)).append hq.le_length hq.le rfl rfl
    · have hinf := congrArg SndView.inflight hsnd
      exact fun hz => h0 (hinf.symm.trans hz)
  · have hempty := hwait h0
    have hsnd : (tcpQueueTransmitSkb env s skb).1.snd =
        s.snd.sendNow skb ((skb.withHeader th).at s.tcb.sndNxt) := congrArg TxView.snd hview
    have hsame : SameBuf ((skb.withHeader th).at s.tcb.sndNxt) skb :=
      ((SameBuf.refl skb).withHeader hth).at _
    refine ⟨?_, ⟨_, hsame, by rw [hsnd]; rfl⟩, by rw [hsnd]; rfl, ?_⟩
    · rw [hview]
      obtain ⟨hq', ha, hnxt⟩ := hq.sendNow hempty hfin hth
      obtain rfl : a = b := by
        have := hq.le
        have := hq.le_length
        change a = s.txv.snd.queued.length at ha
        omega
      refine ⟨a, a + 1, hq', hout.sendNow ha hth hnxt, fun hw => ?_⟩
      have huna' : UnaBetween base (s.snd.sendNow skb ((skb.withHeader th).at s.tcb.sndNxt)) a a :=
        (huna (hw.of_append rfl)).append hq.le_length hq.le rfl rfl
      obtain ⟨u, hu, hau, hub⟩ := huna'
      exact ⟨u, hu, hau, hub.trans (queuedOff_mono _ (Nat.le_succ _))⟩
    · have hinf := congrArg SndView.inflight hsnd
      exact fun hz => Nat.succ_ne_zero _ (hinf.symm.trans hz)

/-- **A retransmission timeout keeps the invariant.** A buffer that has been sent is sent again,
wherever; one that has not been sent goes out at its place, since `snd_una` has then caught up
with `snd_nxt`. -/
theorem SendInv.timeout {env : Env} {s : TcpSock} (h : SendInv R base s.txv)
    (hw : NoWrap base s.snd) (hst : s.state.connected) :
    SendInv R base (tcpRetransmissionTimeout env s).txv ∧
      (tcpRetransmissionTimeout env s).snd.queued = s.snd.queued ∧
      (tcpRetransmissionTimeout env s).snd.smss = s.snd.smss := by
  obtain ⟨-, ⟨-, hview⟩ | ⟨skb, q, th, hwq, hth, hview⟩⟩ := exists_tcpRetransmissionTimeout env hst
  · have hsnd : (tcpRetransmissionTimeout env s).snd = s.snd := congrArg TxView.snd hview
    rw [hview, hsnd]
    obtain ⟨a, b, hq, hout, huna⟩ := h
    exact ⟨⟨a, b, hq, ⟨hout.sentAll, hout.first⟩, huna⟩, rfl, rfl⟩
  · have hre : SendInv R base (s.txv.retransmit skb q th) := by
      obtain ⟨a, b, hq, hout, huna⟩ := h
      refine ⟨a, b, hq.retransmit hwq hth, hout.emit rfl rfl fun t ht hnew => ?_, huna⟩
      rw [List.mem_singleton.mp ht] at hnew ⊢
      have h0 : s.snd.writeQueue[0]? = some skb := by
        change s.writeQueue[0]? = some skb
        rw [hwq, List.getElem?_cons_zero]
      obtain ⟨y, hy, hsame⟩ := hq.exists_queued h0
      rw [Nat.add_zero] at hy
      rcases Nat.lt_or_ge a b with hlt | hge
      · obtain ⟨x, hx, hxy⟩ := hout.sentAll a hlt y hy
        exact absurd (hxy.trans hsame.addr.symm) (hnew x hx)
      · obtain rfl : a = b := Nat.le_antisymm hq.le hge
        obtain ⟨u, hu, hau, hub⟩ := huna hw
        obtain rfl : u = queuedOff s.snd.queued a := Nat.le_antisymm hub hau
        refine .inr ⟨a, y, hy, ?_⟩
        rw [show s.tcb.sndUna = _ from hu] at hth
        exact hsame.transmission hth
    rcases hview with hview | hstep
    · have hsnd : (tcpRetransmissionTimeout env s).snd = (s.txv.retransmit skb q th).snd :=
        congrArg TxView.snd hview
      rw [hview, hsnd]
      obtain ⟨a, b, hq, hout, huna⟩ := hre
      exact ⟨⟨a, b, hq, ⟨hout.sentAll, hout.first⟩, huna⟩, rfl, rfl⟩
    · exact hre.step hstep

/-- Without FEC there is none after the step either. -/
theorem TxStep.tx_none {v' : TxView} (hs : TxStep v v') (h : v.snd.tx = none) :
    v'.snd.tx = none := by
  cases hs with
  | control => exact h
  | ack ackSeq hacc =>
    unfold SndView.ack
    split <;> exact h
  | pending => exact h
  | disarm => exact h
  | release => rfl

theorem tx_none_of_steps {v' : TxView} (hs : ReflTransGen TxStep v v') (h : v.snd.tx = none) :
    v'.snd.tx = none := by
  induction hs with
  | refl => exact h
  | tail _ hstep ih => exact hstep.tx_none ih

end Invariant

theorem TcpSock.tx_none_iff (s : TcpSock) : s.txv.snd.tx = none ↔ s.fec = none :=
  Option.map_eq_none_iff

theorem tx_none_timeout {env : Env} {s : TcpSock} (hst : s.state.connected)
    (h : s.txv.snd.tx = none) : (tcpRetransmissionTimeout env s).txv.snd.tx = none := by
  obtain ⟨-, ⟨-, hview⟩ | ⟨skb, q, th, -, -, hview | hstep⟩⟩ :=
    exists_tcpRetransmissionTimeout env hst
  · rw [hview]
    exact h
  · rw [hview]
    exact h
  · exact hstep.tx_none h

/-! ## Writing -/

theorem tcpPieces_zero (n : ℕ) (buf : List UInt8) :
    (tcpPieces 0 n buf).flatMap Prod.fst = [] := by
  induction n generalizing buf with
  | zero => rfl
  | succ n ih =>
    cases buf with
    | nil => rfl
    | cons x buf => simpa [tcpPieces] using ih (x :: buf)

/-- The pieces of a buffer are the buffer. -/
theorem flatMap_tcpPieces {mss : ℕ} (hm : 0 < mss) {n : ℕ} {buf : List UInt8}
    (hn : buf.length ≤ n) : (tcpPieces mss n buf).flatMap Prod.fst = buf := by
  induction n generalizing buf with
  | zero =>
    rw [List.length_eq_zero_iff.mp (Nat.le_zero.mp hn)]
    rfl
  | succ n ih =>
    cases buf with
    | nil => rfl
    | cons x buf =>
      rw [tcpPieces]
      · rw [List.flatMap_cons, ih, List.take_append_drop]
        rw [List.length_drop]
        omega
      · simp

/-- The buffer that `tcp_send` builds for a piece without FEC. -/
def plainBuf (addr : ℕ) (piece : List UInt8 × Bool) : SkBuff where
  addr := addr
  tag := none
  th := tcpDataHeader none piece.2
  payload := piece.1
  seq := 0
  endSeq := 0

theorem tcpSendPiece_plain (env : Env) {s : TcpSock} (hfec : s.fec = none)
    (piece : List UInt8 × Bool) :
    tcpSendPiece env s piece = tcpFecEmitFull env (tcpQueueTransmitSkb env
      { s with nextAddr := s.nextAddr + 1 } (plainBuf s.nextAddr piece)).1 := by
  have hprep : tcpSendPrepare env s = s := by
    have hforce : tcpFecForceFlush env s = s := by
      unfold tcpFecForceFlush
      rw [hfec]
    have hput : ∀ fec, s.fec = fec → { s with fec } = s := by
      rintro fec rfl
      rfl
    unfold tcpSendPrepare
    rw [hforce]
    exact hput _ (by rw [hfec]; rfl)
  unfold tcpSendPiece
  rw [hprep, hfec]
  simp only [tcpAllocSkb, hfec, Option.map_none]
  rfl

@[simp]
theorem rcv_tcpQueueTransmitSkb (env : Env) (s : TcpSock) (skb : SkBuff) :
    (tcpQueueTransmitSkb env s skb).1.rcv = s.rcv := by
  unfold tcpQueueTransmitSkb
  have hrearm : (if s.writeQueue = [] then tcpRearmRtoTimer s else s).rcv = s.rcv := by
    split
    · exact rcv_tcpRearmRtoTimer s
    · rfl
  dsimp only
  generalize (if s.writeQueue = [] then tcpRearmRtoTimer s else s) = s₁ at hrearm ⊢
  rw [← hrearm]
  split
  · have htransmit := rcv_tcpTransmitSkb env s₁ skb s₁.tcb.sndNxt
    unfold tcpQueueTransmitNow
    generalize tcpTransmitSkb env s₁ skb s₁.tcb.sndNxt = t at htransmit ⊢
    exact htransmit
  · rfl

/-- A socket without FEC whose send side is in order. -/
structure PlainInv (base : UInt32) (s : TcpSock) : Prop where
  send : SendInv (fun _ => False) base s.txv
  connected : s.state.connected
  fec : s.fec = none

section Writing

variable {base : UInt32} {env : Env} {s : TcpSock}

/-- **One piece of a write.** -/
theorem PlainInv.piece (h : PlainInv base s) (hwait : s.inflight = 0 → s.writeQueue = [])
    (piece : List UInt8 × Bool) :
    PlainInv base (tcpSendPiece env s piece) ∧
      bytesOf (tcpSendPiece env s piece).queued = bytesOf s.queued ++ piece.1 ∧
      (tcpSendPiece env s piece).smss = s.smss ∧ (tcpSendPiece env s piece).inflight ≠ 0 := by
  have hsend : SendInv (fun _ => False) base (TcpSock.txv { s with nextAddr := s.nextAddr + 1 }) := by
    obtain ⟨a, b, hq, hout, huna⟩ := h.send
    exact ⟨a, b, hq, ⟨hout.sentAll, hout.first⟩, huna⟩
  obtain ⟨hsend', ⟨skb', hsame, hq⟩, hsmss, hinf⟩ :=
    @SendInv.queue _ base env _ hsend hwait (plainBuf s.nextAddr piece) rfl rfl
  have hrcv := rcv_tcpQueueTransmitSkb env { s with nextAddr := s.nextAddr + 1 }
    (plainBuf s.nextAddr piece)
  rw [tcpSendPiece_plain env h.fec]
  generalize (tcpQueueTransmitSkb env { s with nextAddr := s.nextAddr + 1 }
    (plainBuf s.nextAddr piece)).1 = s' at *
  have hfec' : s'.fec = none := (congrArg RcvView.fec hrcv).trans h.fec
  have hfull : tcpFecEmitFull env s' = s' := by
    unfold tcpFecEmitFull
    rw [hfec']
  have hst' : s'.state = s.state := congrArg RcvView.state hrcv
  rw [hfull]
  refine ⟨⟨hsend', hst' ▸ h.connected, hfec'⟩, ?_, hsmss, hinf⟩
  rw [show s'.queued = _ from hq, bytesOf_append, bytesOf_cons, hsame.payload]
  simp [plainBuf, TcpSock.snd]

/-- **A whole write.** Once its first piece is queued something is in flight. -/
theorem PlainInv.pieces (pieces : List (List UInt8 × Bool)) (h : PlainInv base s)
    (hwait : pieces ≠ [] → s.inflight = 0 → s.writeQueue = []) :
    PlainInv base (pieces.foldl (tcpSendPiece env) s) ∧
      bytesOf (pieces.foldl (tcpSendPiece env) s).queued =
        bytesOf s.queued ++ pieces.flatMap Prod.fst ∧
      (pieces.foldl (tcpSendPiece env) s).smss = s.smss := by
  induction pieces generalizing s with
  | nil => exact ⟨h, by simp, rfl⟩
  | cons piece pieces ih =>
    obtain ⟨h', hbytes, hsmss, hinf⟩ := h.piece (hwait (by simp)) piece
    obtain ⟨h'', hbytes', hsmss'⟩ := ih h' fun _ h0 => absurd h0 hinf
    refine ⟨h'', ?_, hsmss'.trans hsmss⟩
    rw [List.foldl_cons, hbytes', hbytes, List.flatMap_cons, List.append_assoc]

theorem txv_tcpRearmUserTimeout (s : TcpSock) : (tcpRearmUserTimeout s).txv = s.txv := by
  unfold tcpRearmUserTimeout
  split <;> rfl

theorem out_tcpRearmUserTimeout (s : TcpSock) : (tcpRearmUserTimeout s).out = s.out :=
  congrArg TxView.out (txv_tcpRearmUserTimeout s)

theorem queued_tcpRearmUserTimeout (s : TcpSock) : (tcpRearmUserTimeout s).queued = s.queued :=
  congrArg (fun v => v.snd.queued) (txv_tcpRearmUserTimeout s)

theorem fec_tcpRearmUserTimeout (s : TcpSock) : (tcpRearmUserTimeout s).fec = s.fec :=
  congrArg RcvView.fec (rcv_tcpRearmUserTimeout s)

theorem PlainInv.of_views {s' : TcpSock} (h : PlainInv base s) (htx : s'.txv = s.txv)
    (hrcv : s'.rcv = s.rcv) : PlainInv base s' :=
  ⟨htx ▸ h.send, state_eq_of_rcv hrcv ▸ h.connected, (congrArg RcvView.fec hrcv).trans h.fec⟩

/-- The bytes of a write that are queued: all of them, unless segments have no room. -/
theorem PlainInv.write (h : PlainInv base s) {buf : List UInt8}
    (hwait : buf ≠ [] → s.inflight = 0 → s.writeQueue = []) :
    PlainInv base (tcpSend env s buf) ∧
      bytesOf (tcpSend env s buf).queued =
        bytesOf s.queued ++ (if s.smss.toNat = 0 then [] else buf) ∧
      (tcpSend env s buf).smss = s.smss := by
  have hmss : tcpSendMss s = s.smss.toNat := by
    unfold tcpSendMss
    rw [h.fec]
  unfold tcpSend
  rw [hmss]
  have hpieces : (tcpPieces s.smss.toNat buf.length buf).flatMap Prod.fst =
      if s.smss.toNat = 0 then [] else buf := by
    split
    · next h0 => rw [h0, tcpPieces_zero]
    · exact flatMap_tcpPieces (by omega) le_rfl
  obtain ⟨h', hbytes, hsmss⟩ := @PlainInv.pieces base env s
    (tcpPieces s.smss.toNat buf.length buf) h fun hne => hwait fun hnil => hne (by rw [hnil]; rfl)
  rw [hpieces] at hbytes
  generalize (tcpPieces s.smss.toNat buf.length buf).foldl (tcpSendPiece env) s = s' at *
  have htx := txv_tcpRearmUserTimeout s'
  refine ⟨h'.of_views htx (rcv_tcpRearmUserTimeout s'), ?_, ?_⟩
  · rw [show (tcpRearmUserTimeout s').queued = s'.queued from
      congrArg (fun v => v.snd.queued) htx, hbytes]
  · exact (congrArg (fun v => v.snd.smss) htx).trans hsmss

end Writing

/-- `tcp_write` sends in some states and does nothing in the others. -/
theorem tcpWrite_eq (env : Env) (s : TcpSock) (buf : List UInt8) :
    (tcpWrite env s buf).1 = if s.writable then tcpSend env s buf else s := by
  unfold tcpWrite TcpSock.writable
  split
  · next herr => simp [herr]
  · next herr =>
    simp only [ne_eq, not_not] at herr
    split
    · next hst => simp [herr, hst]
    · next hst => simp [herr, hst]
    · next h1 h2 =>
      rw [if_neg]
      simpa [herr] using ⟨h1, h2⟩

/-! ## Runs -/

/-- A sending socket, and everything its user has written. -/
structure SendRun where
  sock : TcpSock
  written : List UInt8

/-- What can happen: a call of `tcp_write`, a segment, a retransmission timeout. -/
inductive SendEvent
  | write (buf : List UInt8)
  | arrive (seg : Segment)
  | timeout

/-- One step; `tcp_write` takes the buffer only in some states. -/
def SendRun.step (env : Env) (r : SendRun) : SendEvent → SendRun
  | .write buf =>
    { sock := (tcpWrite env r.sock buf).1
      written := if r.sock.writable then r.written ++ buf else r.written }
  | .arrive seg => { r with sock := tcpIn env r.sock seg }
  | .timeout => { r with sock := tcpRetransmissionTimeout env r.sock }

/-- No write is accepted while buffers wait with nothing in flight. -/
def SendRun.Ready (r : SendRun) : SendEvent → Prop
  | .write buf => r.sock.writable → buf ≠ [] → r.sock.inflight = 0 → r.sock.writeQueue = []
  | _ => True

/-- Every step of the run meets the condition in the state before it. -/
def SendRun.AllReady (env : Env) : SendRun → List SendEvent → Prop
  | _, [] => True
  | r, e :: es => r.Ready e ∧ SendRun.AllReady env (r.step env e) es

/-- An established socket that has sent nothing yet. -/
structure FreshSender (s : TcpSock) : Prop where
  state : s.state = .established
  writeQueue : s.writeQueue = []
  inflight : s.inflight = 0
  sndUna : s.tcb.sndUna = s.tcb.iss + 1
  sndNxt : s.tcb.sndNxt = s.tcb.iss + 1
  out : s.out = []
  queued : s.queued = []

theorem FreshSender.sendInv {s : TcpSock} (h : FreshSender s) (R : Transmission → Prop) :
    SendInv R (s.tcb.iss + 1) s.txv := by
  have hq : s.snd.queued = [] := h.queued
  have hwq : s.snd.writeQueue = [] := h.writeQueue
  have hout : s.txv.out = [] := h.out
  refine ⟨0, 0, ⟨le_rfl, Nat.zero_le _, h.inflight, ?_, ?_, ?_, ?_, ?_⟩, ⟨?_, ?_⟩, fun _ => ?_⟩
  · change List.Forall₂ SameBuf s.snd.writeQueue (s.snd.queued.drop 0)
    rw [hwq, hq]
    exact .nil
  · exact fun i skb hskb hlt => absurd hlt (Nat.not_lt_zero _)
  · intro i skb hskb
    change s.snd.writeQueue[i]? = _ at hskb
    rw [hwq] at hskb
    cases hskb
  · intro skb hskb
    change skb ∈ s.snd.queued at hskb
    rw [hq] at hskb
    cases hskb
  · exact h.sndNxt.trans (seqAt_zero _).symm
  · exact fun j hj => absurd hj (Nat.not_lt_zero _)
  · rintro t ⟨pre, post, heq, -⟩
    rw [hout] at heq
    simp at heq
  · exact ⟨0, h.sndUna.trans (seqAt_zero _).symm, by simp [queuedOff], by simp [queuedOff]⟩

section Run

variable {base : UInt32} {env : Env}

/-- The invariant of a run without FEC. -/
structure SendRun.Inv (base : UInt32) (r : SendRun) : Prop where
  plain : PlainInv base r.sock
  bytes : bytesOf r.sock.queued = if r.sock.smss.toNat = 0 then [] else r.written

theorem SendRun.written_le (env : Env) (r : SendRun) (e : SendEvent) :
    r.written.length ≤ (r.step env e).written.length := by
  cases e with
  | write buf =>
    simp only [SendRun.step]
    split
    · simp
    · exact le_rfl
  | arrive seg => exact le_rfl
  | timeout => exact le_rfl

theorem SendRun.written_le_foldl (env : Env) (r : SendRun) (events : List SendEvent) :
    r.written.length ≤ (events.foldl (SendRun.step env) r).written.length := by
  induction events generalizing r with
  | nil => exact le_rfl
  | cons e es ih => exact (r.written_le env e).trans (ih _)

/-- **One step of a run.** -/
theorem SendRun.Inv.step {r : SendRun} (h : r.Inv base)
    (hw : base.toNat + r.written.length < 2 ^ 32) {e : SendEvent} (he : r.Ready e) :
    (r.step env e).Inv base := by
  cases e with
  | write buf =>
    simp only [SendRun.step, tcpWrite_eq]
    split
    · next hok =>
      obtain ⟨hplain, hbytes, hsmss⟩ := @PlainInv.write base env _ h.plain buf (he hok)
      refine ⟨hplain, ?_⟩
      rw [hbytes, h.bytes, hsmss]
      split <;> simp
    · exact h
  | arrive seg =>
    have hsteps := txSteps_tcpIn env h.plain.connected seg
    obtain ⟨hsend, hq, hsmss⟩ := h.plain.send.steps hsteps.2
    refine ⟨⟨hsend, hsteps.1, ?_⟩, ?_⟩
    · exact (TcpSock.tx_none_iff _).mp
        (tx_none_of_steps hsteps.2 ((TcpSock.tx_none_iff _).mpr h.plain.fec))
    · have hq' : (tcpIn env r.sock seg).queued = r.sock.queued := hq
      have hsmss' : (tcpIn env r.sock seg).smss = r.sock.smss := hsmss
      simp only [SendRun.step, hq', hsmss']
      exact h.bytes
  | timeout =>
    have hnw : NoWrap base r.sock.snd := by
      have hle : (bytesOf r.sock.queued).length ≤ r.written.length := by
        rw [h.bytes]
        split <;> simp
      change base.toNat + (bytesOf r.sock.queued).length < 2 ^ 32
      omega
    obtain ⟨hsend, hq, hsmss⟩ :=
      @SendInv.timeout _ base env _ h.plain.send hnw h.plain.connected
    refine ⟨⟨hsend, (exists_tcpRetransmissionTimeout env h.plain.connected).1, ?_⟩, ?_⟩
    · exact (TcpSock.tx_none_iff _).mp
        (tx_none_timeout h.plain.connected ((TcpSock.tx_none_iff _).mpr h.plain.fec))
    · have hq' : (tcpRetransmissionTimeout env r.sock).queued = r.sock.queued := hq
      have hsmss' : (tcpRetransmissionTimeout env r.sock).smss = r.sock.smss := hsmss
      simp only [SendRun.step, hq', hsmss']
      exact h.bytes

theorem SendRun.Inv.run (events : List SendEvent) {r : SendRun} (h : r.Inv base)
    (hw : base.toNat + (events.foldl (SendRun.step env) r).written.length < 2 ^ 32)
    (hready : r.AllReady env events) : (events.foldl (SendRun.step env) r).Inv base := by
  induction events generalizing r with
  | nil => exact h
  | cons e es ih =>
    have hle := r.written_le_foldl env (e :: es)
    exact ih (h.step (by omega) hready.1) hw hready.2

end Run

/-- **First transmissions follow the write order.** In a run of a socket without FEC in which no
write is accepted while buffers wait with nothing in flight, every data segment that goes out for
the first time carries the written bytes at its sequence number. -/
theorem firstTransmissions_inOrder (env : Env) (s : TcpSock) (hfresh : FreshSender s)
    (hfec : s.fec = none) (events : List SendEvent)
    (hready : SendRun.AllReady env { sock := s, written := [] } events) :
    let r := events.foldl (SendRun.step env) { sock := s, written := [] }
    (s.tcb.iss + 1).toNat + r.written.length < 2 ^ 32 →
      ∀ t, FirstIn r.sock.out t → t.seg.payload ≠ [] →
        SliceAt r.written (seqOff (s.tcb.iss + 1) t.seg.th.seq) t.seg.payload := by
  intro r hw t ht hne
  have hstart : SendRun.Inv (s.tcb.iss + 1) { sock := s, written := [] } := by
    refine ⟨⟨hfresh.sendInv _, ?_, hfec⟩, ?_⟩
    · rw [hfresh.state]
      rfl
    · rw [hfresh.queued]
      simp
  have hinv := hstart.run events hw hready
  obtain ⟨a, b, hq, hout, -⟩ := hinv.plain.send
  have hplace : AtPosition (s.tcb.iss + 1) r.sock.queued t :=
    (hout.first t ht).resolve_left fun h => h.elim (fun h => hne h.2) id
  obtain ⟨j, y, hy, hof⟩ := hplace
  have hslice := sliceAt_queued hy
  have hle := queuedOff_le r.sock.queued j
  have hbytes := hinv.bytes
  change bytesOf r.sock.queued = _ at hbytes
  rw [hbytes] at hslice hle
  split at hslice
  · -- segments without room carry nothing
    refine absurd ?_ hne
    rw [hof.payload]
    exact List.prefix_nil.mp (by simpa [SliceAt] using hslice)
  · next h0 =>
    rw [if_neg h0] at hle
    change _ ≤ r.written.length at hle
    rw [hof.header.seq, hof.payload, seqOff_seqAt _ (by omega)]
    exact hslice

/-- A link that takes every segment. -/
def quietLink : Env := ⟨fun _ => 0, fun _ _ => []⟩

/-- A segment of the peer that acknowledges `ackSeq`, perhaps with its FIN. -/
def ackSegment (ackSeq : UInt32) (fin : Bool) : Segment :=
  ⟨{ Tcphdr.zero with seq := 201, ackSeq, hl := 5, ack := true, fin }, []⟩

/-- Two writes and an acknowledgement that lets the second one go out. -/
theorem firstTransmissions_inOrder_two :
    let r := [SendEvent.write [1], .write [2], .arrive (ackSegment 102 false), .timeout].foldl
      (SendRun.step quietLink) { sock := sockAt200, written := [] }
    r.written = [1, 2] ∧ r.sock.out.length = 3 ∧
      ∀ t, FirstIn r.sock.out t → t.seg.payload ≠ [] →
        SliceAt r.written (seqOff (sockAt200.tcb.iss + 1) t.seg.th.seq) t.seg.payload := by
  refine ⟨rfl, by decide, ?_⟩
  refine firstTransmissions_inOrder quietLink sockAt200 ⟨rfl, rfl, rfl, rfl, rfl, rfl, rfl⟩ rfl _
    ⟨fun _ _ _ => rfl, fun _ _ h0 => ?_, trivial, trivial, trivial⟩ (by decide)
  exact absurd h0 (by decide)

/-- The byte 2 waits while the peer's FIN acknowledges the byte 1. The socket is then in
`CLOSE_WAIT` with nothing in flight, and the byte 3, written next, goes out first, in the place of
the byte 2. -/
theorem not_inOrder_of_waiting :
    let r := [SendEvent.write [1], .write [2], .arrive (ackSegment 102 true), .write [3]].foldl
      (SendRun.step quietLink) { sock := sockAt200, written := [] }
    r.written = [1, 2, 3] ∧ ∃ t, FirstIn r.sock.out t ∧ t.seg.payload ≠ [] ∧
      ¬ SliceAt r.written (seqOff 101 t.seg.th.seq) t.seg.payload := by
  refine ⟨by decide, _, ⟨_, [], rfl, by decide⟩, by decide, by decide⟩

end LvlIp.Tcp
