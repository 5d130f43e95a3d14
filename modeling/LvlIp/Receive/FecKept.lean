import LvlIp.Lifecycle.Moves
import LvlIp.Shift.Write
import LvlIp.Send.Alive

/-!
# What only a coded segment changes

The geometry, the codec tables and the block ring of `struct tcp_fec` are set by `tcp_fec_enable`, and
afterwards only `tcp_fec_input` writes to the ring. A property of these parts (`RingProp`) that the
arrival of a segment keeps is therefore kept by every event (`FecAll.step`).
-/

namespace LvlIp.Tcp

open Fec

/-- The two FEC states differ at most in the block that is being sent. -/
structure SameRing (fec fec' : TcpFec) : Prop where
  k : fec'.k = fec.k
  r : fec'.r = fec.r
  symLen : fec'.symLen = fec.symLen
  ctx : fec'.ctx = fec.ctx
  rx : fec'.rx = fec.rx

/-- A property of the receive side of the FEC state that holds of a new one. -/
structure RingProp where
  holds : TcpFec → Prop
  fresh : holds tcpFecFresh
  same : ∀ {fec fec'}, SameRing fec fec' → holds fec → holds fec'

/-- The FEC state of the socket, if it has one, has the property. -/
def FecAll (P : RingProp) (s : TcpSock) : Prop := ∀ fec, s.fec = some fec → P.holds fec

theorem SameRing.trans {fec₁ fec₂ fec₃ : TcpFec} (h : SameRing fec₁ fec₂) (h' : SameRing fec₂ fec₃) :
    SameRing fec₁ fec₃ :=
  ⟨h'.k.trans h.k, h'.r.trans h.r, h'.symLen.trans h.symLen, h'.ctx.trans h.ctx, h'.rx.trans h.rx⟩

theorem sameRing_pin (fec : TcpFec) (nxt : UInt32) : SameRing fec (fec.pin nxt) := by
  unfold TcpFec.pin
  split <;> exact ⟨rfl, rfl, rfl, rfl, rfl⟩

theorem sameRing_register (fec : TcpFec) (skb : SkBuff) : SameRing fec (fec.register skb) := by
  unfold TcpFec.register
  dsimp only
  split <;> split <;> exact ⟨rfl, rfl, rfl, rfl, rfl⟩

section Events

variable {P : RingProp} {env : Env} {s : TcpSock}

theorem FecAll.of_eq (h : FecAll P s) (s' : TcpSock) (heq : s'.fec = s.fec) : FecAll P s' := by
  intro fec hfec
  exact h fec (heq.symm.trans hfec)

theorem FecAll.of_rcv (h : FecAll P s) {s' : TcpSock} (heq : s'.rcv = s.rcv) : FecAll P s' :=
  h.of_eq s' (congrArg RcvView.fec heq)

theorem fecAll_tcpDone (s : TcpSock) : FecAll P (tcpDone s) := fun _ hfec => nomatch hfec

theorem FecAll.resolve (h : FecAll P s) : FecAll P (tcpFecResolve s) := by
  rw [tcpFecResolve_eq]
  split
  · intro fec hfec
    rw [← Option.some.inj hfec]
    cases hs : s.fec with
    | none => exact P.fresh
    | some fec => exact h fec hs
  · exact h

theorem FecAll.fecInput {fec : TcpFec} {skb : SkBuff} (hrx : P.holds (tcpFecRx fec skb).1) :
    FecAll P (tcpFecInput env s fec skb).1 := by
  intro fec' hfec'
  have heq := (congrArg RcvView.fec (rcv_tcpFecInput env s fec skb)).symm.trans hfec'
  rw [← Option.some.inj heq]
  exact hrx

theorem FecAll.ackField (h : FecAll P s) (th : Tcphdr) : FecAll P (tcpAckField s th).1 := by
  unfold tcpAckField
  split
  · split
    · refine FecAll.of_rcv ?_ (rcv_tcpAck _ _)
      exact FecAll.resolve (h.of_eq { s with state := .established } rfl)
    · exact h
  all_goals first
    | exact h.of_rcv (rcv_tcpAck s _)
    | exact h

theorem FecAll.finAcked (h : FecAll P s) (th : Tcphdr) : FecAll P (tcpFinAcked env s th).1 := by
  unfold tcpFinAcked
  split
  · split
    · exact h
    · exact h
    · exact fecAll_tcpDone s
    · split
      · exact FecAll.of_rcv (h.of_eq { s with finFlag := true } rfl) (rcv_tcpSendAck env _)
      · exact h
    · exact h
  · exact h

theorem FecAll.finState (h : FecAll P s) : FecAll P (tcpFinState s) := by
  unfold tcpFinState
  split
  any_goals exact h
  split <;> exact h

theorem FecAll.deliver (h : FecAll P s) (skb : SkBuff) : FecAll P (tcpDeliver env s skb) := by
  have htext : FecAll P (tcpText env s skb) := by
    unfold tcpText
    split
    · refine h.of_eq _ ((congrArg RcvView.fec (rcv_tcpDataQueue env s skb)).trans ?_)
      exact fec_dataQueue _ _
    · exact h
  refine FecAll.of_rcv ?_ (rcv_tcpPending env _ skb _)
  generalize tcpText env s skb = s₁ at htext
  unfold tcpFin
  split
  · refine FecAll.finState (FecAll.of_rcv ?_ (rcv_tcpSendAck env _))
    exact htext.of_eq _ rfl
  · exact htext

theorem FecAll.segmentArrives (h : FecAll P s) (skb : SkBuff) :
    FecAll P (tcpSegmentArrives env s skb) := by
  unfold tcpSegmentArrives
  split
  · split
    · exact h
    · exact h.of_rcv (rcv_tcpSendAck env s)
  · split
    · exact h
    · split
      · exact h
      · split
        · exact h
        · dsimp only
          split
          · exact h.ackField skb.th
          · split
            · exact (h.ackField skb.th).finAcked skb.th
            · exact ((h.ackField skb.th).finAcked skb.th).deliver skb

theorem FecAll.synsentSyn (h : FecAll P s) (th : Tcphdr) : FecAll P (tcpSynsentSyn env s th) := by
  unfold tcpSynsentSyn
  dsimp only
  generalize hs₁ : (if th.ack then _ else _ : TcpSock) = s₁
  have hfec : s₁.fec = s.fec := by
    rw [← hs₁]
    split
    · exact congrArg RcvView.fec (rcv_tcpCleanRtoQueue _ _)
    · rfl
  have hopts : ∀ s' : TcpSock, (tcpParseOpts s' th).fec = s'.fec := fun s' =>
    congrArg RcvView.fec (rcv_tcpParseOpts s' th)
  have hack : ∀ s' : TcpSock, (tcpSendAck env s').fec = s'.fec := fun s' =>
    congrArg RcvView.fec (rcv_tcpSendAck env s')
  split
  · generalize hs₂ : tcpParseOpts _ _ = s₂
    have hfec₂ : s₂.fec = s.fec := by
      rw [← hs₂, hopts, fec_tcpRearmUserTimeout, hack]
      exact hfec
    exact (h.of_eq s₂ hfec₂).resolve
  · generalize hs₂ : tcpParseOpts _ _ = s₂
    have hfec₂ : s₂.fec = s.fec := by
      rw [← hs₂, hopts]
      exact hfec
    refine h.of_eq _ (Eq.trans ?_ hfec₂)
    unfold tcpSendSynack
    split
    · rfl
    · exact congrArg RcvView.fec (rcv_tcpTransmitSkb env _ _ _)

theorem FecAll.synsent (h : FecAll P s) (hst : s.state = .synSent) (th : Tcphdr) :
    FecAll P (tcpSynsent env s th) := by
  unfold tcpSynsent
  split
  · exact h
  · split
    · exact h
    · split
      · unfold tcpReset
        rw [hst]
        exact fecAll_tcpDone _
      · split
        · exact h
        · exact h.synsentSyn th

/-- **An arriving segment**, if the block ring keeps the property. -/
theorem FecAll.arrive (h : FecAll P s) (seg : Segment)
    (hrx : ∀ fec, s.fec = some fec → P.holds (tcpFecRx fec (tcpInitSegment seg)).1) :
    FecAll P (tcpIn env s seg) := by
  unfold tcpIn tcpInputState
  split
  · unfold tcpClosed
    split
    · exact h
    · exact h.of_rcv (rcv_tcpSendReset env s)
  · exact h
  · next hst => exact h.synsent hst _
  · split
    · exact h.segmentArrives _
    · next fec hfec =>
      dsimp only
      split
      · exact FecAll.fecInput (hrx fec hfec)
      · exact (FecAll.fecInput (hrx fec hfec)).segmentArrives _

theorem FecAll.emitBlock (h : FecAll P s) {fec : TcpFec} (hfec : s.fec = some fec)
    (blkK tailLen : ℕ) : FecAll P (tcpFecEmitBlock env s fec blkK tailLen).1 := by
  intro fec' hfec'
  rcases fec_tcpFecEmitBlock env s fec blkK tailLen with heq | heq
  · exact h fec' (heq.symm.trans hfec')
  · rw [← Option.some.inj (heq.symm.trans hfec')]
    exact P.same (⟨rfl, rfl, rfl, rfl, rfl⟩ : SameRing fec fec.nextBlock) (h fec hfec)

theorem FecAll.sendPiece (h : FecAll P s) (piece : List UInt8 × Bool) :
    FecAll P (tcpSendPiece env s piece) := by
  have hflush : FecAll P (tcpFecForceFlush env s) := by
    unfold tcpFecForceFlush
    split
    · exact h
    · next fec hfec =>
      split
      · exact h.emitBlock hfec _ _
      · exact h
  rw [tcpSendPiece_eq]
  generalize tcpFecForceFlush env s = s₁ at hflush
  have hqueued : FecAll P (tcpSendQueued env s₁ piece) := by
    refine FecAll.of_rcv ?_ (rcv_tcpQueueTransmitSkb env _ _)
    intro fec' hfec'
    obtain ⟨fec₁, hfec₁, rfl⟩ := Option.map_eq_some_iff.mp hfec'
    obtain ⟨fec, hfec, rfl⟩ := Option.map_eq_some_iff.mp hfec₁
    exact P.same ((sameRing_pin fec _).trans (sameRing_register _ _)) (hflush fec hfec)
  unfold tcpFecEmitFull
  split
  · exact hqueued
  · next fec hfec =>
    split
    · exact hqueued.emitBlock hfec _ _
    · exact hqueued

theorem FecAll.send (h : FecAll P s) (buf : List UInt8) : FecAll P (tcpSend env s buf) := by
  have hpieces : ∀ (pieces : List (List UInt8 × Bool)) (s : TcpSock), FecAll P s →
      FecAll P (pieces.foldl (tcpSendPiece env) s) := by
    intro pieces
    induction pieces with
    | nil => exact fun _ h => h
    | cons piece pieces ih => exact fun s h => ih _ (h.sendPiece piece)
  exact (hpieces _ s h).of_rcv (rcv_tcpRearmUserTimeout _)

theorem FecAll.queueFin (h : FecAll P s) : FecAll P (tcpQueueFin env s) := by
  refine FecAll.of_rcv (s := (tcpAllocSkb (tcpFecFlush env s) none
    { Tcphdr.zero with fin := true, ack := true } []).1) ?_ (rcv_tcpQueueTransmitSkb env _ _)
  refine FecAll.of_eq (s := tcpFecFlush env s) ?_ _ rfl
  unfold tcpFecFlush
  split
  · exact h
  · next fec hfec =>
    split
    · exact h
    · exact h.emitBlock hfec _ _

theorem FecAll.close (h : FecAll P s) : FecAll P (tcpClose env s) := by
  unfold tcpClose
  split
  any_goals exact h
  any_goals exact fecAll_tcpDone s
  · exact FecAll.queueFin (h.of_eq { s with state := .finWait1 } rfl)
  · exact h.queueFin

theorem FecAll.connect (h : FecAll P s) (iss : UInt32) :
    FecAll P (inetStreamConnect env s iss) := by
  unfold inetStreamConnect
  split
  · exact h
  · have hsyn : (tcpConnect env s iss).fec = s.fec := by
      unfold tcpConnect tcpSendSyn
      split
      · rfl
      · exact congrArg RcvView.fec (rcv_tcpQueueTransmitSkb env _ _)
    exact h.of_eq _ hsyn

theorem FecAll.timer (h : FecAll P s) (handler : TimerHandler) :
    FecAll P (handler.run env s) := by
  have htransmit : ∀ (s : TcpSock) (skb : SkBuff) (seq : UInt32),
      (tcpTransmitSkb env s skb seq).1.fec = s.fec := fun s skb seq =>
    congrArg RcvView.fec (rcv_tcpTransmitSkb env s skb seq)
  cases handler with
  | tcpConnectRto =>
    change FecAll P (tcpConnectRto env s)
    unfold tcpConnectRto
    dsimp only
    split
    · split
      · exact fecAll_tcpDone _
      · split
        · exact h
        · refine FecAll.of_rcv ?_ (rcv_tcpRearmRtoTimer _)
          exact h.of_eq _ (htransmit (tcpReleaseRtoTimer s) _ _)
    · exact h
  | tcpRetransmissionTimeout =>
    change FecAll P (tcpRetransmissionTimeout env s)
    unfold tcpRetransmissionTimeout
    dsimp only
    split
    · exact h
    · next skb q hq =>
      have hfec := htransmit (tcpReleaseRtoTimer s) skb (tcpReleaseRtoTimer s).tcb.sndUna
      generalize tcpTransmitSkb env (tcpReleaseRtoTimer s) skb
        (tcpReleaseRtoTimer s).tcb.sndUna = t at hfec
      have ht : FecAll P t.1 := h.of_eq t.1 hfec
      split
      · exact fun _ hfec => nomatch hfec
      · split
        · unfold tcpHandleFinState
          split <;> exact ht
        · exact ht
  | tcpSendDelack => exact FecAll.of_rcv (h.of_eq _ rfl) (rcv_tcpSendAck env _)
  | tcpLinger => exact fecAll_tcpDone _
  | tcpUserTimeout => exact fecAll_tcpDone _

/-- **An event keeps the property**, if the block ring keeps it when a segment arrives. -/
theorem FecAll.step (h : FecAll P s) (e : TcpEvent)
    (hrx : ∀ seg, e = .arrive seg → ∀ fec, s.fec = some fec →
      P.holds (tcpFecRx fec (tcpInitSegment seg)).1) : FecAll P (tcpStep env s e) := by
  cases e with
  | connect iss => exact h.connect iss
  | arrive seg => exact h.arrive seg (hrx seg rfl)
  | write buf =>
    change FecAll P (tcpWrite env s buf).1
    unfold tcpWrite
    split
    · exact h
    · split
      · exact h.send buf
      · exact h.send buf
      · exact h
  | read len => exact h.of_eq _ (tcpRead_spec s len).1.2.1
  | wake rd => exact h.of_eq _ (tcpReceiveStep_spec s rd).1.2.1
  | close => exact h.close
  | abort => exact fecAll_tcpDone _
  | timer handler =>
    change FecAll P (if handler ∈ s.timers then handler.run env s else s)
    split
    · exact h.timer handler
    · exact h
  | tick ms => exact h

end Events

end LvlIp.Tcp
