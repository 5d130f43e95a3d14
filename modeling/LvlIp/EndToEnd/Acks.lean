import LvlIp.Send.Order
import LvlIp.Tcp.Events

/-!
# What is acknowledged

Every segment that goes out acknowledges what `rcv_nxt` is at that moment. So if a property of sequence
numbers holds of `rcv_nxt` before an event and after it, it holds of every acknowledgement number that
the event sends (`Acking`). The same walk through the functions shows that a connected socket which is
not closed sends neither a SYN nor a FIN.
-/

namespace LvlIp.Tcp

open Fec

/-- Neither a SYN nor a FIN. -/
def Tcphdr.Plain (th : Tcphdr) : Prop := th.syn = false ∧ th.fin = false

theorem HeaderFrom.plain {th th' : Tcphdr} (h : HeaderFrom th th') (hth : th.Plain) : th'.Plain :=
  ⟨h.syn.trans hth.1, h.fin.trans hth.2⟩

/-- Whatever has gone out acknowledges a number with the property, and no SYN or FIN is queued. -/
structure Acking (P : UInt32 → Prop) (s : TcpSock) : Prop where
  out : ∀ t ∈ s.out, t.seg.th.Plain ∧ P t.seg.th.ackSeq
  queue : ∀ x ∈ s.writeQueue, x.th.Plain

section Functions

variable (env : Env) {P : UInt32 → Prop} {s : TcpSock}

theorem Acking.of_eq (h : Acking P s) (s' : TcpSock) (hout : s'.out = s.out)
    (hqueue : s'.writeQueue = s.writeQueue) : Acking P s' :=
  ⟨hout ▸ h.out, hqueue ▸ h.queue⟩

theorem Acking.of_txv (h : Acking P s) {s' : TcpSock} (htxv : s'.txv = s.txv) : Acking P s' :=
  h.of_eq s' (congrArg TxView.out htxv) (congrArg (fun v => v.snd.writeQueue) htxv)

theorem Acking.mono {Q : UInt32 → Prop} (h : Acking P s) (hPQ : ∀ q, P q → Q q) : Acking Q s :=
  ⟨fun t ht => ⟨(h.out t ht).1, hPQ _ (h.out t ht).2⟩, h.queue⟩

theorem ackSeq_tcpFillOptions (s : TcpSock) (skb : SkBuff) (seq : UInt32) :
    (tcpFillOptions s (tcpFillHeader s skb seq)).2.ackSeq = s.tcb.rcvNxt := by
  unfold tcpFillOptions tcpWriteOptions
  split_ifs <;> rfl

theorem out_tcpTransmitSkb (s : TcpSock) (skb : SkBuff) (seq : UInt32) :
    (tcpTransmitSkb env s skb seq).1.out =
      s.out ++ [skb.transmission (tcpFillOptions s (tcpFillHeader s skb seq)).2] := by
  unfold tcpTransmitSkb tcpFillOptions tcpWriteOptions
  split_ifs <;> rfl

/-- **A segment goes out** with `rcv_nxt` as its acknowledgement number. -/
theorem Acking.transmit (h : Acking P s) (hP : P s.tcb.rcvNxt) {skb : SkBuff} (hskb : skb.th.Plain)
    (seq : UInt32) : Acking P (tcpTransmitSkb env s skb seq).1 ∧
      (tcpTransmitSkb env s skb seq).2.1.th.Plain := by
  have hth := (filledFrom_tcpFillOptions s skb seq).toHeaderFrom.plain hskb
  have hqueue : (tcpTransmitSkb env s skb seq).1.writeQueue = s.writeQueue :=
    congrArg SndView.writeQueue (snd_tcpTransmitSkb env s skb seq)
  refine ⟨⟨fun t ht => ?_, hqueue ▸ h.queue⟩, hth⟩
  rw [out_tcpTransmitSkb] at ht
  rcases List.mem_append.mp ht with ht | ht
  · exact h.out t ht
  · rw [List.mem_singleton.mp ht]
    refine ⟨hth, ?_⟩
    change P (tcpFillOptions s (tcpFillHeader s skb seq)).2.ackSeq
    rw [ackSeq_tcpFillOptions]
    exact hP

/-- A segment goes out from a new buffer. -/
theorem Acking.fresh (h : Acking P s) (hP : P s.tcb.rcvNxt) (tag : Option FecTag) {th : Tcphdr}
    (hth : th.Plain) (payload : List UInt8) (seq : UInt32) :
    Acking P (tcpTransmitSkb env (tcpAllocSkb s tag th payload).1
      (tcpAllocSkb s tag th payload).2 seq).1 := by
  have halloc : Acking P (tcpAllocSkb s tag th payload).1 := h.of_eq _ rfl rfl
  exact (halloc.transmit env hP hth seq).1

theorem Acking.sendAck (h : Acking P s) (hP : P s.tcb.rcvNxt) : Acking P (tcpSendAck env s) := by
  unfold tcpSendAck
  split
  · exact h
  · exact h.fresh env hP none ⟨rfl, rfl⟩ [] _

theorem Acking.sendReset (h : Acking P s) (hP : P s.tcb.rcvNxt) : Acking P (tcpSendReset env s) := by
  have huna : Acking P { s with tcb.sndUna := s.tcb.sndNxt } := h.of_eq _ rfl rfl
  exact huna.fresh env hP none ⟨rfl, rfl⟩ [] _

/-! ## The arrival of a segment -/

theorem Acking.cleanRtoQueue (h : Acking P s) (una : UInt32) : Acking P (tcpCleanRtoQueue s una) := by
  have hqueue : (tcpCleanRtoQueue s una).writeQueue = (tcpCleanLoop una s.writeQueue s.inflight).1 :=
    congrArg SndView.writeQueue (snd_tcpCleanRtoQueue s una)
  have hout : (tcpCleanRtoQueue s una).out = s.out := by
    unfold tcpCleanRtoQueue
    dsimp only
    split <;> rfl
  obtain ⟨c, -, heq, -⟩ := tcpCleanLoop_spec una s.writeQueue s.inflight
  refine ⟨hout ▸ h.out, fun x hx => h.queue x ?_⟩
  rw [hqueue, heq] at hx
  exact List.mem_of_mem_drop hx

theorem Acking.ack (h : Acking P s) (ackSeq : UInt32) : Acking P (tcpAck s ackSeq).1 := by
  unfold tcpAck
  dsimp only
  split
  · have huna : Acking P { s with tcb.sndUna := ackSeq } := h.of_eq _ rfl rfl
    exact (huna.of_txv (txv_tcpRtt _)).cleanRtoQueue ackSeq
  · exact h

theorem Acking.ackField (h : Acking P s) (hst : s.state.connected) (th : Tcphdr) :
    Acking P (tcpAckField s th).1 ∧ (tcpAckField s th).1.rcv = s.rcv := by
  unfold tcpAckField
  split
  · next hrcv => rw [hrcv] at hst; cases hst
  all_goals first
    | exact ⟨h.ack th.ackSeq, rcv_tcpAck s th.ackSeq⟩
    | exact ⟨h, rfl⟩

theorem Acking.finAcked (h : Acking P s) (hP : P s.tcb.rcvNxt) (th : Tcphdr) :
    Acking P (tcpFinAcked env s th).1 ∧ (tcpFinAcked env s th).1.tcb.rcvNxt = s.tcb.rcvNxt := by
  unfold tcpFinAcked
  split
  · split
    · exact ⟨h.of_eq _ rfl rfl, rfl⟩
    · exact ⟨h.of_eq _ rfl rfl, rfl⟩
    · exact ⟨h.of_eq _ rfl rfl, rfl⟩
    · split
      · have hflag : Acking P { s with finFlag := true } := h.of_eq _ rfl rfl
        exact ⟨hflag.sendAck env hP, congrArg RcvView.rcvNxt (rcv_tcpSendAck env _)⟩
      · exact ⟨h, rfl⟩
    · exact ⟨h, rfl⟩
  · exact ⟨h, rfl⟩

theorem Acking.dataQueue (h : Acking P s) (hP : P s.tcb.rcvNxt) (skb : SkBuff) :
    Acking P (tcpDataQueue env s skb) := by
  unfold tcpDataQueue
  split
  · exact h
  · split
    · exact h.of_eq _ rfl rfl
    · have hofo : Acking P { s with ofoQueue := tcpDataInsertOrdered s.ofoQueue skb } :=
        h.of_eq _ rfl rfl
      dsimp only
      split
      · have hsack : Acking P (tcpCalculateSacks
            { s with ofoQueue := tcpDataInsertOrdered s.ofoQueue skb }) := hofo.of_eq _ rfl rfl
        exact hsack.sendAck env hP
      · exact hofo.sendAck env hP

theorem Acking.text (h : Acking P s) (hP : P s.tcb.rcvNxt) (skb : SkBuff) :
    Acking P (tcpText env s skb) := by
  unfold tcpText
  split
  · exact h.dataQueue env hP skb
  · exact h

theorem rcvNxt_tcpFinState (s : TcpSock) : (tcpFinState s).tcb.rcvNxt = s.tcb.rcvNxt := by
  unfold tcpFinState
  split
  · rfl
  · rfl
  · split <;> rfl
  · rfl
  · rfl

theorem Acking.finState (h : Acking P s) : Acking P (tcpFinState s) := by
  unfold tcpFinState
  split
  · exact h.of_eq _ rfl rfl
  · exact h.of_eq _ rfl rfl
  · split
    · exact h.of_eq _ rfl rfl
    · exact h.of_eq _ rfl rfl
  · exact h.of_eq _ rfl rfl
  · exact h

/-- An in-sequence FIN is acknowledged with the number behind it. -/
theorem Acking.fin (h : Acking P s) (th : Tcphdr) (expected : Bool)
    (hP : P (tcpFin env s th expected).tcb.rcvNxt) : Acking P (tcpFin env s th expected) := by
  unfold tcpFin at hP ⊢
  split at hP
  · next hfin =>
    rw [if_pos hfin]
    have hnxt : Acking P { s with tcb.rcvNxt := s.tcb.rcvNxt + 1, finFlag := true } :=
      h.of_eq _ rfl rfl
    have hsame : (tcpSendAck env { s with
        tcb.rcvNxt := s.tcb.rcvNxt + 1, finFlag := true }).tcb.rcvNxt = s.tcb.rcvNxt + 1 :=
      congrArg RcvView.rcvNxt (rcv_tcpSendAck env _)
    rw [rcvNxt_tcpFinState, hsame] at hP
    exact (hnxt.sendAck env hP).finState
  · next hfin =>
    rw [if_neg hfin]
    exact h

theorem Acking.sendNextLoop (n : ℕ) {q : List SkBuff} (h : Acking P s) (hP : P s.tcb.rcvNxt)
    (hq : ∀ x ∈ q, x.th.Plain) : Acking P (tcpSendNextLoop env n s q).1 ∧
      ∀ x ∈ (tcpSendNextLoop env n s q).2, x.th.Plain := by
  induction n generalizing s q with
  | zero => exact ⟨h, hq⟩
  | succ n ih =>
    cases q with
    | nil => exact ⟨h, hq⟩
    | cons skb q =>
      obtain ⟨hskb, hrest⟩ := List.forall_mem_cons.mp hq
      obtain ⟨hsent, hplain⟩ := h.transmit env hP hskb s.tcb.sndNxt
      have hnxt := congrArg RcvView.rcvNxt (rcv_tcpTransmitSkb env s skb s.tcb.sndNxt)
      rw [tcpSendNextLoop]
      dsimp only
      generalize tcpTransmitSkb env s skb s.tcb.sndNxt = t at hsent hplain hnxt
      have hadv : Acking P (tcpAdvanceNxt t.1 t.2.1) := hsent.of_eq _ rfl rfl
      have hP' : P (tcpAdvanceNxt t.1 t.2.1).tcb.rcvNxt := by
        change P t.1.rcv.rcvNxt
        rw [hnxt]
        exact hP
      obtain ⟨hloop, hqueue⟩ := ih hadv hP' hrest
      exact ⟨hloop, List.forall_mem_cons.mpr ⟨hplain, hqueue⟩⟩

theorem Acking.rearmRtoTimer (h : Acking P s) : Acking P (tcpRearmRtoTimer s) := by
  have htxv := txv_tcpRearmRtoTimer s
  exact h.of_eq _ (congrArg TxView.out htxv) (congrArg (fun v => v.snd.writeQueue) htxv)

theorem Acking.sendPending (h : Acking P s) (hP : P s.tcb.rcvNxt) (n : ℕ) :
    Acking P (tcpSendPending env s n) := by
  obtain ⟨hloop, hqueue⟩ := h.sendNextLoop env n hP h.queue
  have hnext : Acking P { tcpSendNext env s n with inflight := (tcpSendNext env s n).inflight + n } :=
    ⟨hloop.out, hqueue⟩
  exact hnext.rearmRtoTimer

theorem Acking.pending (h : Acking P s) (hP : P s.tcb.rcvNxt) (skb : SkBuff) (expected : Bool) :
    Acking P (tcpPending env s skb expected) := by
  unfold tcpPending
  split
  · have hstop : Acking P (tcpStopDelackTimer s) := h.of_eq _ rfl rfl
    dsimp only
    split
    · exact hstop.sendPending env hP _
    · unfold tcpAckOrDelay
      dsimp only
      split
      · have hzero : Acking P { tcpStopDelackTimer s with delacks := 0 } := hstop.of_eq _ rfl rfl
        exact hzero.sendAck env hP
      · split
        · exact hstop.of_eq _ rfl rfl
        · exact hstop.of_eq _ rfl rfl
  · exact h

/-- **An arrival** acknowledges what was expected before it or what is expected after it. -/
theorem Acking.segmentArrives (h : Acking P s) (hst : s.state.connected) (hP : P s.tcb.rcvNxt)
    (skb : SkBuff) (hP' : P (tcpSegmentArrives env s skb).tcb.rcvNxt) :
    Acking P (tcpSegmentArrives env s skb) := by
  unfold tcpSegmentArrives at hP' ⊢
  split
  · split
    · exact h
    · exact h.sendAck env hP
  · next hv =>
    rw [if_neg hv] at hP'
    split
    · exact h.of_eq _ rfl rfl
    · next hr =>
      rw [if_neg hr] at hP'
      split
      · exact h
      · next hs =>
        rw [if_neg hs] at hP'
        split
        · exact h
        · next ha =>
          rw [if_neg ha] at hP'
          obtain ⟨hack, hrcv⟩ := h.ackField hst skb.th
          have hPa : P (tcpAckField s skb.th).1.tcb.rcvNxt := by
            change P (tcpAckField s skb.th).1.rcv.rcvNxt
            rw [hrcv]
            exact hP
          dsimp only at hP' ⊢
          split
          · exact hack
          · next hgo =>
            rw [if_neg hgo] at hP'
            obtain ⟨hfin, hnxt⟩ := hack.finAcked env hPa skb.th
            split
            · exact hfin
            · next hgo' =>
              rw [if_neg hgo'] at hP'
              unfold tcpDeliver at hP' ⊢
              dsimp only at hP' ⊢
              have hlast := congrArg RcvView.rcvNxt (rcv_tcpPending env
                (tcpFin env (tcpText env (tcpFinAcked env (tcpAckField s skb.th).1 skb.th).1 skb) skb.th
                  (skb.seq == (tcpFinAcked env (tcpAckField s skb.th).1 skb.th).1.tcb.rcvNxt)) skb
                (skb.seq == (tcpFinAcked env (tcpAckField s skb.th).1 skb.th).1.tcb.rcvNxt))
              change P (TcpSock.rcv _).rcvNxt at hP'
              rw [hlast] at hP'
              exact ((hfin.text env (hnxt ▸ hPa) skb).fin env skb.th _ hP').pending env hP' skb _

/-! ## The other events -/

theorem Acking.queueTransmit (h : Acking P s) (hP : P s.tcb.rcvNxt) {skb : SkBuff}
    (hskb : skb.th.Plain) : Acking P (tcpQueueTransmitSkb env s skb).1 := by
  have hfirst : Acking P (if s.writeQueue = [] then tcpRearmRtoTimer s else s) ∧
      (if s.writeQueue = [] then tcpRearmRtoTimer s else s).tcb.rcvNxt = s.tcb.rcvNxt := by
    split
    · exact ⟨h.rearmRtoTimer, congrArg RcvView.rcvNxt (rcv_tcpRearmRtoTimer s)⟩
    · exact ⟨h, rfl⟩
  unfold tcpQueueTransmitSkb
  dsimp only
  generalize (if s.writeQueue = [] then tcpRearmRtoTimer s else s) = s₁ at hfirst
  obtain ⟨h₁, hnxt⟩ := hfirst
  split
  · obtain ⟨hsent, hplain⟩ := h₁.transmit env (hnxt ▸ hP) hskb s₁.tcb.sndNxt
    unfold tcpQueueTransmitNow
    dsimp only
    generalize tcpTransmitSkb env s₁ skb s₁.tcb.sndNxt = t at hsent hplain
    exact ⟨hsent.out, List.forall_mem_append.mpr ⟨hsent.queue, List.forall_mem_singleton.mpr hplain⟩⟩
  · exact ⟨h₁.out, List.forall_mem_append.mpr ⟨h₁.queue, List.forall_mem_singleton.mpr hskb⟩⟩

theorem Acking.rearmUserTimeout (h : Acking P s) : Acking P (tcpRearmUserTimeout s) :=
  h.of_txv (txv_tcpRearmUserTimeout s)

theorem Acking.sendPiece (h : Acking P s) (hfec : s.fec = none) (hP : P s.tcb.rcvNxt)
    (piece : List UInt8 × Bool) : Acking P (tcpSendPiece env s piece) ∧
      (tcpSendPiece env s piece).rcv = s.rcv := by
  have h₁ : Acking P { s with nextAddr := s.nextAddr + 1 } := h.of_eq _ rfl rfl
  have hplain : (plainBuf s.nextAddr piece).th.Plain := ⟨rfl, rfl⟩
  have hqueued := h₁.queueTransmit env hP hplain
  have hrcv := rcv_tcpQueueTransmitSkb env { s with nextAddr := s.nextAddr + 1 }
    (plainBuf s.nextAddr piece)
  rw [tcpSendPiece_plain env hfec]
  generalize (tcpQueueTransmitSkb env { s with nextAddr := s.nextAddr + 1 }
    (plainBuf s.nextAddr piece)).1 = s' at hqueued hrcv
  have hfull : tcpFecEmitFull env s' = s' := by
    unfold tcpFecEmitFull
    rw [show s'.fec = none from (congrArg RcvView.fec hrcv).trans hfec]
  rw [hfull]
  exact ⟨hqueued, hrcv⟩

theorem Acking.send (h : Acking P s) (hfec : s.fec = none) (hP : P s.tcb.rcvNxt) (buf : List UInt8) :
    Acking P (tcpSend env s buf) := by
  have hall : ∀ (pieces : List (List UInt8 × Bool)) (s₁ : TcpSock), Acking P s₁ → s₁.fec = none →
      P s₁.tcb.rcvNxt → Acking P (pieces.foldl (tcpSendPiece env) s₁) := by
    intro pieces
    induction pieces with
    | nil => exact fun s₁ h₁ _ _ => h₁
    | cons piece pieces ih =>
      intro s₁ h₁ hfec₁ hP₁
      obtain ⟨h₂, hrcv⟩ := h₁.sendPiece env hfec₁ hP₁ piece
      refine ih _ h₂ ((congrArg RcvView.fec hrcv).trans hfec₁) ?_
      rw [show (tcpSendPiece env s₁ piece).tcb.rcvNxt = s₁.tcb.rcvNxt from
        congrArg RcvView.rcvNxt hrcv]
      exact hP₁
  exact (hall _ s h hfec hP).rearmUserTimeout

theorem Acking.handleFinState (h : Acking P s) : Acking P (tcpHandleFinState s) := by
  unfold tcpHandleFinState
  split <;> exact h.of_eq _ rfl rfl

theorem Acking.timeout (h : Acking P s) (hP : P s.tcb.rcvNxt) :
    Acking P (tcpRetransmissionTimeout env s) := by
  have hrel : Acking P (tcpReleaseRtoTimer s) := h.of_eq _ rfl rfl
  unfold tcpRetransmissionTimeout
  dsimp only
  split
  · exact h.of_eq _ rfl rfl
  · next skb q hq =>
    have hqueue := hrel.queue
    rw [hq] at hqueue
    obtain ⟨hskb, hrest⟩ := List.forall_mem_cons.mp hqueue
    obtain ⟨hsent, hplain⟩ := hrel.transmit env hP hskb (tcpReleaseRtoTimer s).tcb.sndUna
    generalize tcpTransmitSkb env (tcpReleaseRtoTimer s) skb (tcpReleaseRtoTimer s).tcb.sndUna = t
      at hsent hplain
    have hhead : Acking P { t.1 with writeQueue := t.2.1 :: q } :=
      ⟨hsent.out, List.forall_mem_cons.mpr ⟨hplain, hrest⟩⟩
    split
    · exact hhead.of_eq _ rfl rfl
    · split
      · refine Acking.handleFinState ?_
        exact hhead.of_eq _ rfl rfl
      · exact hhead.of_eq _ rfl rfl

theorem Acking.abort (h : Acking P s) (hP : P s.tcb.rcvNxt) : Acking P (tcpAbort env s) :=
  (h.sendReset env hP).of_eq _ rfl rfl

end Functions

end LvlIp.Tcp
