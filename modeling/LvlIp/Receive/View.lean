import LvlIp.Tcp.Api

/-!
# What the receive path changes

The receive side of a socket is its state, the next sequence number expected, the window, the two
queues and the FEC state (`RcvView`). Sending, timers and the processing of an acknowledgement
leave it alone; queueing a segment is a function of it (`rcv_tcpDataQueue`). What an arriving
segment does to it is said once, in `rcv_tcpSegmentArrives`.
-/

namespace LvlIp.Tcp

open Fec

/-- The receive side of a socket. -/
structure RcvView where
  state : TcpState
  fec : Option TcpFec
  rcvNxt : UInt32
  rcvWnd : UInt32
  receiveQueue : List SkBuff
  ofoQueue : List SkBuff

/-- The receive side of a socket. -/
def TcpSock.rcv (s : TcpSock) : RcvView where
  state := s.state
  fec := s.fec
  rcvNxt := s.tcb.rcvNxt
  rcvWnd := s.tcb.rcvWnd
  receiveQueue := s.receiveQueue
  ofoQueue := s.ofoQueue

/-! ## Sending leaves the receive side alone -/

variable (env : Env) (s : TcpSock)

@[simp]
theorem rcv_tcpRearmRtoTimer : (tcpRearmRtoTimer s).rcv = s.rcv := by
  simp only [tcpRearmRtoTimer]
  split <;> rfl

@[simp]
theorem rcv_tcpRearmUserTimeout : (tcpRearmUserTimeout s).rcv = s.rcv := by
  simp only [tcpRearmUserTimeout]
  split <;> rfl

@[simp]
theorem rcv_tcpRtt : (tcpRtt s).rcv = s.rcv := by
  simp only [tcpRtt]
  split
  · rfl
  · split
    · rfl
    · split <;> rfl

@[simp]
theorem rcv_tcpWriteOptions (th : Tcphdr) : (tcpWriteOptions s th).1.rcv = s.rcv := by
  simp only [tcpWriteOptions]
  split
  · rfl
  · split <;> rfl

@[simp]
theorem rcv_tcpFillOptions (th : Tcphdr) : (tcpFillOptions s th).1.rcv = s.rcv := by
  unfold tcpFillOptions
  split
  · exact rcv_tcpWriteOptions s th
  · rfl

@[simp]
theorem rcv_tcpTransmitSkb (skb : SkBuff) (seq : UInt32) :
    (tcpTransmitSkb env s skb seq).1.rcv = s.rcv :=
  rcv_tcpFillOptions s _

@[simp]
theorem rcv_tcpSendAck : (tcpSendAck env s).rcv = s.rcv := by
  simp only [tcpSendAck]
  split
  · rfl
  · exact rcv_tcpTransmitSkb env _ _ _

@[simp]
theorem rcv_tcpSendNextLoop (n : ℕ) (q : List SkBuff) :
    (tcpSendNextLoop env n s q).1.rcv = s.rcv := by
  induction n generalizing s q with
  | zero => rfl
  | succ n ih =>
    cases q with
    | nil => rfl
    | cons skb q => exact (ih _ q).trans (rcv_tcpTransmitSkb env s skb _)

@[simp]
theorem rcv_tcpSendNext (n : ℕ) : (tcpSendNext env s n).rcv = s.rcv :=
  rcv_tcpSendNextLoop env s n s.writeQueue

@[simp]
theorem rcv_tcpCleanRtoQueue (una : UInt32) : (tcpCleanRtoQueue s una).rcv = s.rcv := by
  simp only [tcpCleanRtoQueue]
  split <;> rfl

@[simp]
theorem rcv_tcpAck (ackSeq : UInt32) : (tcpAck s ackSeq).1.rcv = s.rcv := by
  simp only [tcpAck]
  split
  · rw [rcv_tcpCleanRtoQueue, rcv_tcpRtt]
    rfl
  · rfl

@[simp]
theorem rcv_tcpSendPending (n : ℕ) : (tcpSendPending env s n).rcv = s.rcv :=
  (rcv_tcpRearmRtoTimer _).trans (rcv_tcpSendNext env s n)

@[simp]
theorem rcv_tcpAckOrDelay (skb : SkBuff) : (tcpAckOrDelay env s skb).rcv = s.rcv := by
  simp only [tcpAckOrDelay]
  split
  · exact rcv_tcpSendAck env _
  · split <;> rfl

@[simp]
theorem rcv_tcpPending (skb : SkBuff) (expected : Bool) :
    (tcpPending env s skb expected).rcv = s.rcv := by
  simp only [tcpPending]
  split
  · split
    · exact rcv_tcpSendPending env _ _
    · exact rcv_tcpAckOrDelay env _ _
  · rfl

/-! ## Queueing -/

/-- `tcp_data_queue` on the receive side. -/
def RcvView.dataQueue (v : RcvView) (skb : SkBuff) : RcvView :=
  if v.rcvWnd = 0 then v
  else if skb.seq = v.rcvNxt then
    let r := tcpConsumeLoop (v.rcvNxt + UInt32.ofNat skb.dlen) v.ofoQueue
    { v with receiveQueue := v.receiveQueue ++ skb :: r.1, ofoQueue := r.2.1, rcvNxt := r.2.2 }
  else { v with ofoQueue := tcpDataInsertOrdered v.ofoQueue skb }

theorem rcv_tcpDataQueue (skb : SkBuff) :
    (tcpDataQueue env s skb).rcv = s.rcv.dataQueue skb := by
  unfold tcpDataQueue RcvView.dataQueue
  change _ = if s.tcb.rcvWnd = 0 then _ else if skb.seq = s.tcb.rcvNxt then _ else _
  split
  · rfl
  · split
    · simp [tcpConsumeOfoQueue, TcpSock.rcv]
    · rw [rcv_tcpSendAck]
      split <;> rfl

/-! ## Segment arrival without FEC -/

/-- A segment whose RST or FIN the socket processes. -/
def tcpProcessesClose (skb : SkBuff) : Bool :=
  let a := tcpAckField s skb.th
  tcpVerifySegment s skb && (skb.th.rst || (!skb.th.syn && skb.th.ack && a.2 &&
    (tcpFinAcked env a.1 skb.th).2 && skb.th.fin && skb.seq == s.tcb.rcvNxt))

/-- A segment whose text the socket looks at, in the state `established`. -/
def tcpProcessesText (skb : SkBuff) : Bool :=
  tcpVerifySegment s skb && !skb.th.rst && !skb.th.syn && skb.th.ack && (tcpAck s skb.th.ackSeq).2

theorem tcpAckField_established {s : TcpSock} (hst : s.state = .established) (th : Tcphdr) :
    tcpAckField s th = tcpAck s th.ackSeq := by
  unfold tcpAckField
  rw [hst]

theorem tcpFinAcked_of_state {s : TcpSock} (hst : s.state = .established ∨ s.state = .closeWait)
    (th : Tcphdr) : tcpFinAcked env s th = (s, true) := by
  unfold tcpFinAcked
  rcases hst with h | h <;> rw [h] <;> split <;> rfl

theorem state_eq_of_rcv {s s' : TcpSock} (h : s'.rcv = s.rcv) : s'.state = s.state :=
  congrArg RcvView.state h

theorem ofoQueue_eq_of_rcv {s s' : TcpSock} (h : s'.rcv = s.rcv) : s'.ofoQueue = s.ofoQueue :=
  congrArg RcvView.ofoQueue h

theorem rcv_tcpText {s : TcpSock} (skb : SkBuff) (hst : s.state = .established) :
    (tcpText env s skb).rcv =
      if skb.th.psh ∨ 0 < skb.dlen then s.rcv.dataQueue skb else s.rcv := by
  unfold tcpText
  rw [hst]
  by_cases h : skb.th.psh ∨ 0 < skb.dlen
  · rw [if_pos ⟨rfl, h⟩, if_pos h, rcv_tcpDataQueue]
  · rw [if_neg (fun hc => h hc.2), if_neg h]

theorem state_dataQueue (v : RcvView) (skb : SkBuff) : (v.dataQueue skb).state = v.state := by
  unfold RcvView.dataQueue
  split
  · rfl
  · split <;> rfl

theorem fec_dataQueue (v : RcvView) (skb : SkBuff) : (v.dataQueue skb).fec = v.fec := by
  unfold RcvView.dataQueue
  split
  · rfl
  · split <;> rfl

theorem rcvWnd_dataQueue (v : RcvView) (skb : SkBuff) : (v.dataQueue skb).rcvWnd = v.rcvWnd := by
  unfold RcvView.dataQueue
  split
  · rfl
  · split <;> rfl

theorem rcv_tcpFin_established {s : TcpSock} (th : Tcphdr) (expected : Bool)
    (hst : s.state = .established) :
    (tcpFin env s th expected).rcv =
      if th.fin ∧ expected then { s.rcv with rcvNxt := s.tcb.rcvNxt + 1, state := .closeWait }
      else s.rcv := by
  unfold tcpFin
  split
  · generalize hs' : tcpSendAck env _ = s'
    have hrcv : s'.rcv = { s.rcv with rcvNxt := s.tcb.rcvNxt + 1 } := by
      rw [← hs', rcv_tcpSendAck]
      rfl
    have hst' : s'.state = .established := (congrArg RcvView.state hrcv).trans hst
    unfold tcpFinState
    rw [hst']
    calc TcpSock.rcv { s' with state := .closeWait } = { s'.rcv with state := .closeWait } := rfl
      _ = _ := by rw [hrcv]
  · rfl

/-- **An arriving segment on an established socket**: it is dropped, resets the connection, or its
text and its FIN are processed. -/
theorem rcv_tcpSegmentArrives_established {s : TcpSock} (skb : SkBuff)
    (hst : s.state = .established) :
    (tcpSegmentArrives env s skb).rcv =
      if tcpProcessesText s skb then
        let v := if skb.th.psh ∨ 0 < skb.dlen then s.rcv.dataQueue skb else s.rcv
        if skb.th.fin ∧ skb.seq = s.tcb.rcvNxt then
          { v with rcvNxt := v.rcvNxt + 1, state := .closeWait }
        else v
      else if tcpVerifySegment s skb ∧ skb.th.rst then { s.rcv with state := .timeWait }
      else s.rcv := by
  unfold tcpSegmentArrives tcpProcessesText
  by_cases hv : tcpVerifySegment s skb
  · by_cases hr : skb.th.rst
    · simp only [hv, hr, not_true_eq_false, if_false, if_true]
      rfl
    · by_cases hs : skb.th.syn
      · simp [hv, hr, hs]
      · by_cases ha : skb.th.ack
        · simp only [hv, hr, hs, ha, tcpAckField_established hst, not_true_eq_false, if_false,
            Bool.false_eq_true]
          have hst' : (tcpAck s skb.th.ackSeq).1.state = .established :=
            (state_eq_of_rcv (rcv_tcpAck s _)).trans hst
          by_cases hok : (tcpAck s skb.th.ackSeq).2
          · have hnxt : (tcpAck s skb.th.ackSeq).1.tcb.rcvNxt = s.tcb.rcvNxt :=
              congrArg RcvView.rcvNxt (rcv_tcpAck s _)
            rw [tcpFinAcked_of_state env (.inl hst')]
            simp only [hok, not_true_eq_false, if_false, tcpDeliver, rcv_tcpPending,
              Bool.and_self, Bool.not_false, if_true]
            have htext := rcv_tcpText env skb hst'
            have htst : (tcpText env (tcpAck s skb.th.ackSeq).1 skb).state = .established := by
              have h := congrArg RcvView.state htext
              rw [apply_ite RcvView.state, state_dataQueue, ite_self] at h
              exact h.trans hst'
            rw [rcv_tcpFin_established env _ _ htst]
            change (if _ then { (tcpText env _ skb).rcv with
              rcvNxt := (tcpText env _ skb).rcv.rcvNxt + 1, state := _ } else _) = _
            rw [htext, rcv_tcpAck, hnxt]
            simp only [beq_iff_eq]
          · simp [hok]
        · simp [hv, hr, hs, ha]
  · simp only [hv, not_false_eq_true, if_true, Bool.false_and, Bool.false_eq_true, if_false,
      false_and]
    split
    · rfl
    · exact rcv_tcpSendAck env s

/-! ## After the peer has finished -/

/-- The peer has closed or reset the connection: no more text is queued. -/
def TcpState.peerDone (st : TcpState) : Prop := st = .closeWait ∨ st = .timeWait

/-- What stays when text is no longer queued. -/
def RcvView.Settled (v v' : RcvView) : Prop :=
  v'.state.peerDone ∧ v'.fec = v.fec ∧ v'.receiveQueue = v.receiveQueue

theorem settled_refl {s : TcpSock} (h : s.state.peerDone) : s.rcv.Settled s.rcv := ⟨h, rfl, rfl⟩

theorem rcv_tcpFinAcked_peerDone {s : TcpSock} (h : s.state.peerDone) (th : Tcphdr) :
    (tcpFinAcked env s th).1.rcv = s.rcv := by
  unfold tcpFinAcked
  split
  · split
    · next hs => exact absurd h (by simp [TcpState.peerDone, hs])
    · next hs => exact absurd h (by simp [TcpState.peerDone, hs])
    · next hs => exact absurd h (by simp [TcpState.peerDone, hs])
    · split
      · exact rcv_tcpSendAck env _
      · rfl
    · rfl
  · rfl

theorem settled_tcpFin {s : TcpSock} (h : s.state.peerDone) (th : Tcphdr) (expected : Bool) :
    s.rcv.Settled (tcpFin env s th expected).rcv := by
  unfold tcpFin
  split
  · generalize hs' : tcpSendAck env _ = s'
    have hrcv : s'.rcv = { s.rcv with rcvNxt := s.tcb.rcvNxt + 1 } := by
      rw [← hs', rcv_tcpSendAck]
      rfl
    have hst' : s'.state = s.state := congrArg RcvView.state hrcv
    have hfin : tcpFinState s' = s' := by
      unfold tcpFinState
      rcases h with h | h <;> rw [hst', h]
    rw [hfin, hrcv]
    exact ⟨h, rfl, rfl⟩
  · exact settled_refl h

/-- **A segment that arrives after the peer has finished** adds nothing to the receive queue. -/
theorem settled_tcpSegmentArrives {s : TcpSock} (skb : SkBuff) (h : s.state.peerDone) :
    s.rcv.Settled (tcpSegmentArrives env s skb).rcv := by
  have hrefl := settled_refl h
  have hreceives : s.state.receives = false := by rcases h with h | h <;> rw [h] <;> rfl
  have hack : (tcpAckField s skb.th).1.rcv = s.rcv := by
    unfold tcpAckField
    rcases h with h | h <;> rw [h]
    · exact rcv_tcpAck s _
  have hst₁ := state_eq_of_rcv hack
  have hfin := rcv_tcpFinAcked_peerDone env (s := (tcpAckField s skb.th).1) (by rwa [hst₁]) skb.th
  have hst₂ := (state_eq_of_rcv hfin).trans hst₁
  unfold tcpSegmentArrives
  split
  · split
    · exact hrefl
    · rwa [rcv_tcpSendAck]
  · split
    · exact ⟨.inr rfl, rfl, rfl⟩
    · split
      · exact hrefl
      · split
        · exact hrefl
        · dsimp only
          split
          · rwa [hack]
          · split
            · rwa [hfin, hack]
            · rw [tcpDeliver, rcv_tcpPending, tcpText, hst₂, hreceives, if_neg (by simp)]
              have hset := settled_tcpFin env (s := (tcpFinAcked env (tcpAckField s skb.th).1
                skb.th).1) (by rwa [hst₂]) skb.th (skb.seq ==
                  (tcpFinAcked env (tcpAckField s skb.th).1 skb.th).1.tcb.rcvNxt)
              rwa [hfin, hack] at hset

end LvlIp.Tcp
