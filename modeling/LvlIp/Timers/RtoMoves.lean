import LvlIp.Lifecycle.Moves
import LvlIp.Send.Alive

/-!
# The retransmission timer

What an event does to the timer behind `tsk->retransmit` and to what it depends on: the state, `rto`,
the number of buffers in the write queue and of those in flight, and the calls into `src/timer.c`.
Every event but an expiry of this timer is a sequence of moves (`rtoMoves_tcpStep`); the two handlers
are described by `rtv_tcpConnectRto` and `rtv_tcpRetransmissionTimeout`.
-/

namespace LvlIp.Tcp

open Fec Relation

/-! ## The view -/

/-- What the retransmission timer depends on. -/
structure RtoView where
  state : TcpState
  rto : ℕ
  /-- The handler of the timer that `retransmit` points to. -/
  armed : Option TimerHandler
  calls : List RtoCall
  inflight : ℕ
  /-- The length of the write queue. -/
  queue : ℕ

def TcpSock.rtv (s : TcpSock) : RtoView where
  state := s.state
  rto := s.rto
  armed := s.retransmit.map Timer.handler
  calls := s.rtoCalls
  inflight := s.inflight
  queue := s.writeQueue.length

/-- The handler of the timer that `tcp_rearm_rto_timer` adds. -/
def TcpState.rtoHandler : TcpState → TimerHandler
  | .synSent => .tcpConnectRto
  | _ => .tcpRetransmissionTimeout

/-- The states in which something is queued for transmission. -/
def TcpState.queues : TcpState → Bool
  | .synSent | .established | .closeWait | .finWait1 => true
  | _ => false

namespace RtoView

/-- `tcp_stop_rto_timer`. -/
def stop (v : RtoView) : RtoView :=
  { v with armed := none, calls := v.calls ++ [.timerCancel] }

/-- `tcp_release_rto_timer`. -/
def release (v : RtoView) : RtoView :=
  { v with armed := none, calls := v.calls ++ [.timerRelease] }

/-- `tsk->retransmit = timer_add(...)`. -/
def arm (v : RtoView) (expire : ℕ) (handler : TimerHandler) : RtoView :=
  { v with armed := some handler, calls := v.calls ++ [.timerAdd expire handler] }

/-- `tcp_rearm_rto_timer`. -/
def rearm (v : RtoView) (expire : ℕ) : RtoView := v.release.arm expire v.state.rtoHandler

/-- `tcp_clean_rto_queue`, which takes `n` buffers off the queue. -/
def clean (v : RtoView) (n : ℕ) : RtoView :=
  let v := { v with queue := v.queue - n, inflight := v.inflight - n }
  if v.queue = 0 ∨ v.inflight = 0 then v.stop else v

/-- `tcp_queue_transmit_skb`. -/
def enqueue (v : RtoView) (expire : ℕ) : RtoView :=
  let v := if v.queue = 0 then v.rearm expire else v
  { v with queue := v.queue + 1, inflight := if v.inflight = 0 then 1 else v.inflight }

/-- `tcp_done`. -/
def done (v : RtoView) : RtoView := { v with state := .closing }.stop

end RtoView

/-- What an event can do, other than the expiry of the timer; `acks` says whether it acknowledges new
data, and `opens` whether it is the SYN of a simultaneous open. -/
inductive RtoMove (acks opens : Prop) : RtoView → RtoView → Prop
  | state {v : RtoView} {st : TcpState} (h : TcpState.Move v.state st)
      (hst : v.state = .synSent → st = .closing) : RtoMove acks opens v { v with state := st }
  | accept {v : RtoView} (h : opens) (hst : v.state = .synSent) :
      RtoMove acks opens v { v with state := .synReceived }
  | greet {v : RtoView} (h : acks) (hst : v.state = .synSent) :
      RtoMove acks opens v { v with state := .established, rto := 1000 }
  | stop (v : RtoView) : RtoMove acks opens v v.stop
  | rtt {v : RtoView} {rto : ℕ} (h : acks) (hrto : 200 ≤ rto) :
      RtoMove acks opens v { v with rto }
  | clean {v : RtoView} {n : ℕ} (h : acks) (hn : n ≤ v.queue) :
      RtoMove acks opens v (v.clean n)
  | queue {v : RtoView} (expire : ℕ) (hst : v.state.queues) :
      RtoMove acks opens v (v.enqueue expire)
  | pending {v : RtoView} {n : ℕ} (expire : ℕ) (hst : v.state.receives) (h0 : v.inflight = 0)
      (hpos : 0 < n) (hn : n ≤ v.queue) :
      RtoMove acks opens v ({ v with inflight := n }.rearm expire)

/-- Some moves, one after the other. -/
def RtoMoves (acks opens : Prop) (s s' : TcpSock) : Prop :=
  ReflTransGen (RtoMove acks opens) s.rtv s'.rtv

/-- An invariant of the moves is one of what they lead to. -/
theorem RtoMoves.induction {acks opens : Prop} {I : RtoView → Prop}
    (hmove : ∀ v v', RtoMove acks opens v v' → I v → I v') {s s' : TcpSock}
    (h : RtoMoves acks opens s s') (hs : I s.rtv) : I s'.rtv := by
  unfold RtoMoves at h
  generalize s'.rtv = v' at h ⊢
  induction h with
  | refl => exact hs
  | tail _ hlast ih => exact hmove _ _ hlast ih

section Moves

variable {acks opens : Prop} {s s' s'' : TcpSock}

theorem RtoMoves.of_eq (h : s'.rtv = s.rtv) : RtoMoves acks opens s s' := by
  unfold RtoMoves
  rw [h]

theorem RtoMoves.single (h : RtoMove acks opens s.rtv s'.rtv) : RtoMoves acks opens s s' :=
  ReflTransGen.single h

theorem RtoMoves.trans (h : RtoMoves acks opens s s') (h' : RtoMoves acks opens s' s'') :
    RtoMoves acks opens s s'' := ReflTransGen.trans h h'

end Moves

/-! ## What leaves the timer alone -/

section Frame

variable (env : Env) (s : TcpSock)

theorem rtv_tcpTransmitSkb (skb : SkBuff) (seq : UInt32) :
    (tcpTransmitSkb env s skb seq).1.rtv = s.rtv := by
  unfold tcpTransmitSkb tcpFillOptions tcpWriteOptions
  split_ifs <;> rfl

theorem rtv_tcpSendAck : (tcpSendAck env s).rtv = s.rtv := by
  unfold tcpSendAck
  split
  · rfl
  · exact rtv_tcpTransmitSkb env _ _ _

theorem rtv_tcpSendReset : (tcpSendReset env s).rtv = s.rtv := rtv_tcpTransmitSkb env _ _ _

theorem rtv_tcpSendSynack : (tcpSendSynack env s).rtv = s.rtv := by
  unfold tcpSendSynack
  split
  · rfl
  · exact rtv_tcpTransmitSkb env _ _ _

theorem rtv_tcpDataQueue (skb : SkBuff) : (tcpDataQueue env s skb).rtv = s.rtv := by
  unfold tcpDataQueue
  split
  · rfl
  · split
    · rfl
    · refine (rtv_tcpSendAck env _).trans ?_
      split
      · rfl
      · rfl

theorem rtv_tcpText (skb : SkBuff) : (tcpText env s skb).rtv = s.rtv := by
  unfold tcpText
  split
  · exact rtv_tcpDataQueue env s skb
  · rfl

theorem rtv_tcpFecInput (fec : TcpFec) (skb : SkBuff) :
    (tcpFecInput env s fec skb).1.rtv = s.rtv := by
  have hsplice : ∀ (sps : List Splice) (s₁ : TcpSock),
      (sps.foldl (tcpFecSplice env) s₁).rtv = s₁.rtv := by
    intro sps
    induction sps with
    | nil => exact fun _ => rfl
    | cons sp sps ih => exact fun s₁ => (ih _).trans (rtv_tcpDataQueue env s₁ sp.skb)
  have hall := hsplice (tcpFecRx fec skb).2.1 { s with fec := some (tcpFecRx fec skb).1 }
  unfold tcpFecInput
  dsimp only
  split
  · exact hall
  · exact (rtv_tcpSendAck env _).trans hall

theorem rtv_tcpFecResolve : (tcpFecResolve s).rtv = s.rtv := by
  rw [tcpFecResolve_eq]
  split
  · rfl
  · rfl

theorem rtv_sockConnected : (sockConnected s).rtv = s.rtv := rfl

theorem rtv_tcpParseOpts (th : Tcphdr) : (tcpParseOpts s th).rtv = s.rtv := by
  unfold tcpParseOpts
  dsimp only
  split_ifs <;> rfl

theorem rtv_tcpRearmUserTimeout : (tcpRearmUserTimeout s).rtv = s.rtv := by
  unfold tcpRearmUserTimeout
  split
  · rfl
  · rfl

theorem rtv_tcpAckOrDelay (skb : SkBuff) : (tcpAckOrDelay env s skb).rtv = s.rtv := by
  unfold tcpAckOrDelay
  dsimp only
  split
  · exact rtv_tcpSendAck env _
  · split
    · rfl
    · rfl

theorem rtv_tcpFecSendRepairs (fec : TcpFec) (blkK tailLen : ℕ) (ps : List Packet) (j : ℕ) :
    (tcpFecSendRepairs env fec blkK tailLen s j ps).1.rtv = s.rtv := by
  induction ps generalizing s j with
  | nil => rfl
  | cons p ps ih =>
    have hone : (tcpFecSendRepair env s fec blkK j tailLen p).1.rtv = s.rtv :=
      rtv_tcpTransmitSkb env _ _ _
    unfold tcpFecSendRepairs
    dsimp only
    split
    · exact hone
    · exact (ih _ _).trans hone

theorem rtv_tcpFecEmitBlock (fec : TcpFec) (blkK tailLen : ℕ) :
    (tcpFecEmitBlock env s fec blkK tailLen).1.rtv = s.rtv := by
  unfold tcpFecEmitBlock
  split
  · rfl
  · split
    · rfl
    · split
      · rfl
      · next parity _ =>
        have hall := rtv_tcpFecSendRepairs env s fec blkK tailLen parity 0
        dsimp only
        split
        · exact hall
        · exact hall

theorem rtv_tcpFecForceFlush : (tcpFecForceFlush env s).rtv = s.rtv := by
  unfold tcpFecForceFlush
  split
  · rfl
  · split
    · exact rtv_tcpFecEmitBlock env s _ _ _
    · rfl

theorem rtv_tcpFecEmitFull : (tcpFecEmitFull env s).rtv = s.rtv := by
  unfold tcpFecEmitFull
  split
  · rfl
  · split
    · exact rtv_tcpFecEmitBlock env s _ _ _
    · rfl

theorem rtv_tcpFecFlush : (tcpFecFlush env s).rtv = s.rtv := by
  unfold tcpFecFlush
  split
  · rfl
  · split
    · rfl
    · exact rtv_tcpFecEmitBlock env s _ _ _

theorem rtv_tcpReceiveStep (rd : Reader) : (tcpReceiveStep s rd).1.rtv = s.rtv := by
  unfold tcpReceiveStep tcpReceiveReturn
  dsimp only
  split_ifs
  all_goals first
    | exact rtv_tcpRearmUserTimeout _
    | rfl

theorem rtv_tcpRead (len : ℕ) : (tcpRead s len).1.rtv = s.rtv := by
  unfold tcpRead
  split
  any_goals exact rtv_tcpReceiveStep s _
  any_goals rfl
  split
  · rfl
  · exact rtv_tcpReceiveStep s _

end Frame

/-! ## What moves it -/

section Sending

variable (env : Env) {acks opens : Prop} {s : TcpSock}

theorem rtv_tcpRearmRtoTimer (s : TcpSock) :
    ∃ expire, (tcpRearmRtoTimer s).rtv = s.rtv.rearm expire := by
  unfold tcpRearmRtoTimer
  dsimp only
  by_cases hst : s.state = .synSent
  · refine ⟨tcpSynBackoff * 2 ^ s.backoff, ?_⟩
    rw [if_pos (show (tcpReleaseRtoTimer s).state = .synSent from hst)]
    unfold RtoView.rearm
    rw [show s.rtv.state = .synSent from hst]
    rfl
  · refine ⟨s.rto, ?_⟩
    rw [if_neg (show (tcpReleaseRtoTimer s).state ≠ .synSent from hst)]
    unfold RtoView.rearm
    have hhandler : s.rtv.state.rtoHandler = .tcpRetransmissionTimeout := by
      change s.state.rtoHandler = _
      revert hst
      cases s.state <;> simp [TcpState.rtoHandler]
    rw [hhandler]
    rfl

theorem rtv_tcpQueueTransmitSkb (s : TcpSock) (skb : SkBuff) :
    ∃ expire, (tcpQueueTransmitSkb env s skb).1.rtv = s.rtv.enqueue expire := by
  obtain ⟨expire, hrearm⟩ := rtv_tcpRearmRtoTimer s
  refine ⟨expire, ?_⟩
  unfold tcpQueueTransmitSkb RtoView.enqueue
  dsimp only
  have hfirst : (if s.writeQueue = [] then tcpRearmRtoTimer s else s).rtv =
      if s.rtv.queue = 0 then s.rtv.rearm expire else s.rtv := by
    by_cases hq : s.writeQueue = []
    · rw [if_pos hq, if_pos (show s.rtv.queue = 0 from List.length_eq_zero_iff.mpr hq), hrearm]
    · rw [if_neg hq, if_neg (show s.rtv.queue ≠ 0 from fun h => hq (List.length_eq_zero_iff.mp h))]
  rw [← hfirst]
  generalize (if s.writeQueue = [] then tcpRearmRtoTimer s else s) = s₁
  have hinf : s₁.rtv.inflight = s₁.inflight := rfl
  rw [hinf]
  by_cases h0 : s₁.inflight = 0
  · rw [if_pos h0, if_pos h0]
    have hnow : (tcpQueueTransmitNow env s₁ skb).1.rtv =
        { (tcpTransmitSkb env s₁ skb s₁.tcb.sndNxt).1.rtv with
          queue := (tcpTransmitSkb env s₁ skb s₁.tcb.sndNxt).1.rtv.queue + 1
          inflight := (tcpTransmitSkb env s₁ skb s₁.tcb.sndNxt).1.rtv.inflight + 1 } := by
      simp [tcpQueueTransmitNow, tcpAdvanceNxt, TcpSock.enqueue, TcpSock.rtv]
    rw [hnow, rtv_tcpTransmitSkb, hinf, h0]
  · rw [if_neg h0, if_neg h0]
    simp [TcpSock.enqueue, TcpSock.rtv]

/-- **A buffer is queued**. -/
theorem rtoMoves_tcpQueueTransmitSkb {s₁ : TcpSock} (h : s₁.rtv = s.rtv) (hst : s.state.queues)
    (skb : SkBuff) : RtoMoves acks opens s (tcpQueueTransmitSkb env s₁ skb).1 := by
  obtain ⟨expire, heq⟩ := rtv_tcpQueueTransmitSkb env s₁ skb
  refine .single ?_
  rw [heq, h]
  exact .queue expire hst

theorem rtoMoves_tcpSendPiece (s : TcpSock) (hst : s.state.queues) (piece : List UInt8 × Bool) :
    RtoMoves acks opens s (tcpSendPiece env s piece) := by
  have hprep : (tcpSendPrepare env s).rtv = s.rtv := rtv_tcpFecForceFlush env s
  unfold tcpSendPiece
  dsimp only
  generalize tcpSendPrepare env s = s₁ at hprep
  refine RtoMoves.trans (rtoMoves_tcpQueueTransmitSkb env ?_ hst _)
    (.of_eq (rtv_tcpFecEmitFull env _))
  exact hprep

theorem rtoMoves_tcpSend (s : TcpSock) (hst : s.state.queues) (buf : List UInt8) :
    RtoMoves acks opens s (tcpSend env s buf) := by
  have hall : ∀ (pieces : List (List UInt8 × Bool)) (s' : TcpSock), s'.state.queues →
      RtoMoves acks opens s' (pieces.foldl (tcpSendPiece env) s') := by
    intro pieces
    induction pieces with
    | nil => exact fun s' _ => .of_eq rfl
    | cons piece pieces ih =>
      intro s' hs'
      refine (rtoMoves_tcpSendPiece env s' hs' piece).trans (ih _ ?_)
      rwa [state_tcpSendPiece]
  exact (hall _ s hst).trans (.of_eq (rtv_tcpRearmUserTimeout _))

theorem rtoMoves_tcpWrite (s : TcpSock) (buf : List UInt8) :
    RtoMoves acks opens s (tcpWrite env s buf).1 := by
  unfold tcpWrite
  split
  · exact .of_eq rfl
  · split
    · next hst => exact rtoMoves_tcpSend env s (by rw [hst]; rfl) buf
    · next hst => exact rtoMoves_tcpSend env s (by rw [hst]; rfl) buf
    · exact .of_eq rfl

theorem rtoMoves_tcpQueueFin (s : TcpSock) (hst : s.state.queues) :
    RtoMoves acks opens s (tcpQueueFin env s) := by
  unfold tcpQueueFin
  dsimp only
  refine rtoMoves_tcpQueueTransmitSkb env ?_ hst _
  exact rtv_tcpFecFlush env s

theorem rtoMoves_tcpDone (s : TcpSock) : RtoMoves acks opens s (tcpDone s) := by
  have hclosing : RtoMove acks opens s.rtv { s.rtv with state := .closing } :=
    .state (.done _) fun _ => rfl
  exact (ReflTransGen.single hclosing).tail (.stop _)

theorem rtoMoves_inetStreamConnect (s : TcpSock) (iss : UInt32) :
    RtoMoves acks opens s (inetStreamConnect env s iss) := by
  unfold inetStreamConnect
  split
  · exact .of_eq rfl
  · next hst =>
    have hclose : s.state = .close := not_not.mp hst
    have hsyn : RtoMoves acks opens s { s with state := .synSent } := by
      refine .single (.state ?_ fun h => ?_)
      · rw [show s.rtv.state = .close from hclose]
        exact .connect
      · exact TcpState.noConfusion (hclose.symm.trans h)
    refine hsyn.trans ?_
    unfold tcpConnect tcpSendSyn
    rw [if_neg fun h => h.2.1 hclose]
    refine @rtoMoves_tcpQueueTransmitSkb env acks opens { s with state := .synSent } _ ?_ rfl _
    rfl

theorem rtoMoves_tcpClose (s : TcpSock) : RtoMoves acks opens s (tcpClose env s) := by
  unfold tcpClose
  split
  any_goals exact .of_eq rfl
  any_goals exact rtoMoves_tcpDone s
  · next hst =>
    have hfin : RtoMoves acks opens s { s with state := .finWait1 } := by
      refine .single (.state ?_ fun hsyn => ?_)
      · rw [show s.rtv.state = .established from hst]
        exact .close
      · exact TcpState.noConfusion (hst.symm.trans hsyn)
    exact hfin.trans (rtoMoves_tcpQueueFin env { s with state := .finWait1 } rfl)
  · next hst => exact rtoMoves_tcpQueueFin env s (by rw [hst]; rfl)

theorem rtoMoves_tcpAbort (s : TcpSock) : RtoMoves acks opens s (tcpAbort env s) :=
  RtoMoves.trans (.of_eq (rtv_tcpSendReset env s)) (rtoMoves_tcpDone _)

end Sending

/-! ## Arrival -/

section Arrival

variable (env : Env) {acks opens : Prop} {s : TcpSock}

/-- A move between states outside the handshake. -/
theorem RtoMoves.state {st : TcpState} (h : TcpState.Move s.state st) (hst : s.state ≠ .synSent) :
    RtoMoves acks opens s { s with state := st } :=
  .single (.state h fun hsyn => absurd hsyn hst)

/-- **The acknowledged buffers leave the queue**. -/
theorem rtoMoves_tcpCleanRtoQueue (h : acks) (s : TcpSock) (una : UInt32) :
    RtoMoves acks opens s (tcpCleanRtoQueue s una) := by
  obtain ⟨n, hn, hloop, -⟩ := tcpCleanLoop_spec una s.writeQueue s.inflight
  have heq : (tcpCleanRtoQueue s una).rtv = s.rtv.clean n := by
    unfold tcpCleanRtoQueue RtoView.clean
    rw [hloop]
    dsimp only
    have hlen : (s.writeQueue.drop n).length = s.rtv.queue - n := List.length_drop
    have hiff : (s.writeQueue.drop n = [] ∨ s.inflight - n = 0) ↔
        (s.rtv.queue - n = 0 ∨ s.rtv.inflight - n = 0) := by
      rw [← List.length_eq_zero_iff, hlen]
      rfl
    by_cases hstop : s.rtv.queue - n = 0 ∨ s.rtv.inflight - n = 0
    · rw [if_pos (hiff.mpr hstop), if_pos hstop, ← hlen]
      rfl
    · rw [if_neg (mt hiff.mp hstop), if_neg hstop, ← hlen]
      rfl
  refine .single ?_
  rw [heq]
  exact .clean h hn

theorem rtoMoves_tcpRtt (s : TcpSock) (h : acks) : RtoMoves acks opens s (tcpRtt s) := by
  unfold tcpRtt
  split
  · exact .of_eq rfl
  · split
    · exact .of_eq rfl
    · dsimp only
      split
      · exact .of_eq rfl
      · refine .single (.rtt h ?_)
        exact le_add_left (le_max_right _ _)

theorem rtoMoves_tcpAck (s : TcpSock) (ackSeq : UInt32)
    (h : s.tcb.sndUna < ackSeq → ackSeq ≤ s.tcb.sndNxt → acks) :
    RtoMoves acks opens s (tcpAck s ackSeq).1 := by
  unfold tcpAck
  dsimp only
  split
  · next hnew =>
    have hacks : acks := h hnew.1 hnew.2
    refine RtoMoves.trans ?_ (rtoMoves_tcpCleanRtoQueue hacks _ ackSeq)
    exact RtoMoves.trans (.of_eq rfl) (rtoMoves_tcpRtt { s with tcb.sndUna := ackSeq } hacks)
  · exact .of_eq rfl

theorem rtoMoves_tcpAckField (s : TcpSock) (th : Tcphdr)
    (h : s.tcb.sndUna < th.ackSeq → th.ackSeq ≤ s.tcb.sndNxt → acks) :
    RtoMoves acks opens s (tcpAckField s th).1 := by
  unfold tcpAckField
  split
  · next hst =>
    split
    · have hcomplete : RtoMoves acks opens s { s with state := .established } :=
        .state (by rw [hst]; exact .complete) (by rw [hst]; exact TcpState.noConfusion)
      have hresolve := rtv_tcpFecResolve { s with state := .established }
      have htcb : (tcpFecResolve { s with state := .established }).tcb = s.tcb := by
        rw [tcpFecResolve_eq]
        split
        · rfl
        · rfl
      refine (hcomplete.trans (.of_eq hresolve)).trans (rtoMoves_tcpAck _ th.ackSeq ?_)
      rwa [htcb]
    · exact .of_eq rfl
  any_goals exact rtoMoves_tcpAck s th.ackSeq h
  exact .of_eq rfl

theorem rtoMoves_tcpEnterTimeWait (h : s.state.opened) :
    RtoMoves acks opens s (tcpEnterTimeWait s) := by
  have hwait : RtoMove acks opens s.rtv { s.rtv with state := .timeWait } := by
    refine .state (.reset h) fun hsyn => ?_
    rw [show s.state = .synSent from hsyn] at h
    exact Bool.noConfusion h
  exact (ReflTransGen.single hwait).tail (.stop _)

theorem rtoMoves_tcpFinAcked (s : TcpSock) (th : Tcphdr) :
    RtoMoves acks opens s (tcpFinAcked env s th).1 := by
  unfold tcpFinAcked
  split
  · split
    · next hst => exact .state (by rw [hst]; exact .finAcked) (by rw [hst]; exact TcpState.noConfusion)
    · next hst => exact .state (by rw [hst]; exact .crossedAcked) (by rw [hst]; exact TcpState.noConfusion)
    · exact rtoMoves_tcpDone s
    · split
      · exact .of_eq (rtv_tcpSendAck env _)
      · exact .of_eq rfl
    · exact .of_eq rfl
  · exact .of_eq rfl

theorem rtoMoves_tcpFinState (s : TcpSock) : RtoMoves acks opens s (tcpFinState s) := by
  unfold tcpFinState
  split
  · next hst => exact .state (by rw [hst]; exact .peerFinEarly) (by rw [hst]; exact TcpState.noConfusion)
  · next hst => exact .state (by rw [hst]; exact .peerFin) (by rw [hst]; exact TcpState.noConfusion)
  · next hst =>
    split
    · exact rtoMoves_tcpEnterTimeWait (by rw [hst]; rfl)
    · exact .state (by rw [hst]; exact .crossed) (by rw [hst]; exact TcpState.noConfusion)
  · next hst => exact rtoMoves_tcpEnterTimeWait (by rw [hst]; rfl)
  · exact .of_eq rfl

theorem rtoMoves_tcpFin (s : TcpSock) (th : Tcphdr) (expected : Bool) :
    RtoMoves acks opens s (tcpFin env s th expected) := by
  unfold tcpFin
  split
  · refine RtoMoves.trans ?_ (rtoMoves_tcpFinState _)
    exact .of_eq (rtv_tcpSendAck env _)
  · exact .of_eq rfl

theorem rtv_tcpSendNext (s : TcpSock) (n : ℕ) : (tcpSendNext env s n).rtv = s.rtv := by
  have hloop : ∀ (n : ℕ) (s₁ : TcpSock) (q : List SkBuff),
      (tcpSendNextLoop env n s₁ q).1.rtv = s₁.rtv ∧
        (tcpSendNextLoop env n s₁ q).2.length = q.length := by
    intro n
    induction n with
    | zero => exact fun s₁ q => ⟨rfl, rfl⟩
    | succ n ih =>
      intro s₁ q
      cases q with
      | nil => exact ⟨rfl, rfl⟩
      | cons skb q =>
        obtain ⟨hview, hlen⟩ := ih (tcpAdvanceNxt (tcpTransmitSkb env s₁ skb s₁.tcb.sndNxt).1
          (tcpTransmitSkb env s₁ skb s₁.tcb.sndNxt).2.1) q
        exact ⟨hview.trans (rtv_tcpTransmitSkb env s₁ skb _), congrArg (· + 1) hlen⟩
  obtain ⟨hview, hlen⟩ := hloop n s s.writeQueue
  have heq : (tcpSendNext env s n).rtv =
      { (tcpSendNextLoop env n s s.writeQueue).1.rtv with
        queue := (tcpSendNextLoop env n s s.writeQueue).2.length } := rfl
  rw [heq, hview, hlen]
  rfl

theorem rtv_tcpSendPending (s : TcpSock) (n : ℕ) : ∃ expire,
    (tcpSendPending env s n).rtv = { s.rtv with inflight := s.rtv.inflight + n }.rearm expire := by
  have hnext := rtv_tcpSendNext env s n
  unfold tcpSendPending
  dsimp only
  generalize tcpSendNext env s n = s₁ at hnext
  obtain ⟨expire, hrearm⟩ := rtv_tcpRearmRtoTimer { s₁ with inflight := s₁.inflight + n }
  refine ⟨expire, ?_⟩
  rw [hrearm, ← hnext]
  rfl

/-- **What waits goes out** when nothing is in flight. -/
theorem rtoMoves_tcpPending (s : TcpSock) (skb : SkBuff) (expected : Bool) :
    RtoMoves acks opens s (tcpPending env s skb expected) := by
  unfold tcpPending
  split
  · next hgo =>
    dsimp only
    split
    · next hpend =>
      have h0 : s.rtv.inflight = 0 := hpend.1
      obtain ⟨expire, heq⟩ := rtv_tcpSendPending env (tcpStopDelackTimer s)
        (min (tcpStopDelackTimer s).writeQueue.length 3)
      refine .single ?_
      rw [heq, show (tcpStopDelackTimer s).rtv = s.rtv from rfl, h0, zero_add]
      exact .pending expire hgo.1 h0 hpend.2 (min_le_left _ _)
    · exact .of_eq (rtv_tcpAckOrDelay env _ skb)
  · exact .of_eq rfl

theorem rtoMoves_tcpSegmentArrives (h : s.state.opened) (skb : SkBuff)
    (hacks : skb.th.ack → s.tcb.sndUna < skb.th.ackSeq → skb.th.ackSeq ≤ s.tcb.sndNxt → acks) :
    RtoMoves acks opens s (tcpSegmentArrives env s skb) := by
  unfold tcpSegmentArrives
  split
  · split
    · exact .of_eq rfl
    · exact .of_eq (rtv_tcpSendAck env s)
  · split
    · exact rtoMoves_tcpEnterTimeWait h
    · split
      · exact .of_eq rfl
      · split
        · exact .of_eq rfl
        · next hno =>
          have hack := @rtoMoves_tcpAckField acks opens s skb.th (hacks (not_not.mp hno))
          dsimp only
          split
          · exact hack
          · have hfin := @rtoMoves_tcpFinAcked env acks opens (tcpAckField s skb.th).1 skb.th
            split
            · exact hack.trans hfin
            · refine (hack.trans hfin).trans ?_
              unfold tcpDeliver
              dsimp only
              generalize (tcpFinAcked env (tcpAckField s skb.th).1 skb.th).1 = s₁
              have htext : RtoMoves acks opens s₁ (tcpText env s₁ skb) :=
                .of_eq (rtv_tcpText env s₁ skb)
              exact (htext.trans (rtoMoves_tcpFin env _ skb.th _)).trans
                (rtoMoves_tcpPending env _ skb _)

/-- The socket once the acknowledgement number in an answer to our SYN has been looked at. -/
theorem rtoMoves_tcpSynsentAcked (hst : s.state = .synSent) (hacks : acks) (th : Tcphdr)
    (hack : th.ack → s.tcb.iss < th.ackSeq) :
    RtoMoves acks opens s (tcpSynsentAcked s th) ∧ (tcpSynsentAcked s th).state = .synSent ∧
      (th.ack → (tcpSynsentAcked s th).tcb.iss < (tcpSynsentAcked s th).tcb.sndUna) := by
  have hclean : ∀ s₁ : TcpSock, (tcpCleanRtoQueue s₁ th.ackSeq).tcb = s₁.tcb ∧
      (tcpCleanRtoQueue s₁ th.ackSeq).state = s₁.state := by
    intro s₁
    unfold tcpCleanRtoQueue
    dsimp only
    split
    · exact ⟨rfl, rfl⟩
    · exact ⟨rfl, rfl⟩
  have hseq : RtoMoves acks opens s { s with
      tcb.rcvNxt := th.seq + 1, tcb.irs := th.seq, tcb.sndUna := th.ackSeq } := .of_eq rfl
  unfold tcpSynsentAcked
  dsimp only
  split
  · next hth =>
    refine ⟨hseq.trans (rtoMoves_tcpCleanRtoQueue hacks _ th.ackSeq), ?_, fun _ => ?_⟩
    · rw [(hclean _).2]
      exact hst
    · rw [(hclean _).1]
      exact hack hth
  · next hth => exact ⟨.of_eq rfl, hst, fun h => absurd h hth⟩

theorem rtoMoves_tcpSynsentSyn (hst : s.state = .synSent) (hacks : acks) (th : Tcphdr)
    (hack : th.ack → s.tcb.iss < th.ackSeq) (hopens : ¬ th.ack → opens) :
    RtoMoves acks opens s (tcpSynsentSyn env s th) := by
  obtain ⟨hmoves, hst₁, hlt⟩ := @rtoMoves_tcpSynsentAcked acks opens s hst hacks th hack
  rw [tcpSynsentSyn_eq]
  generalize tcpSynsentAcked s th = s₁ at hmoves hst₁ hlt
  refine hmoves.trans ?_
  dsimp only
  split
  · have hgreet : RtoMoves acks opens s₁ { s₁ with
        state := .established, tcb.sndUna := s₁.tcb.sndNxt, backoff := 0, rto := 1000 } :=
      .single (.greet hacks hst₁)
    refine hgreet.trans ?_
    refine RtoMoves.trans ?_ (.of_eq (rtv_sockConnected _))
    refine RtoMoves.trans ?_ (.of_eq (rtv_tcpFecResolve _))
    refine RtoMoves.trans ?_ (.of_eq (rtv_tcpParseOpts _ th))
    refine RtoMoves.trans ?_ (.of_eq (rtv_tcpRearmUserTimeout _))
    exact .of_eq (rtv_tcpSendAck env _)
  · next hnot =>
    have haccept : RtoMoves acks opens s₁
        { s₁ with state := .synReceived, tcb.sndUna := s₁.tcb.iss } :=
      .single (.accept (hopens fun hth => hnot (hlt hth)) hst₁)
    refine haccept.trans ?_
    exact RtoMoves.trans (.of_eq (rtv_tcpParseOpts _ th)) (.of_eq (rtv_tcpSendSynack env _))

theorem rtoMoves_tcpReset (s : TcpSock) : RtoMoves acks opens s (tcpReset s) := by
  unfold tcpReset
  split
  · exact RtoMoves.trans (.of_eq rfl) (rtoMoves_tcpDone { s with err := eConnrefused })
  · exact RtoMoves.trans (.of_eq rfl) (rtoMoves_tcpDone { s with err := ePipe })
  · exact .of_eq rfl
  · exact RtoMoves.trans (.of_eq rfl) (rtoMoves_tcpDone { s with err := eConnreset })

theorem rtoMoves_tcpSynsent (hst : s.state = .synSent) (hacks : acks) (th : Tcphdr)
    (hopens : th.syn → ¬ th.ack → ¬ th.rst → opens) :
    RtoMoves acks opens s (tcpSynsent env s th) := by
  unfold tcpSynsent
  split
  · exact .of_eq rfl
  · next hacc =>
    split
    · exact .of_eq rfl
    · split
      · exact rtoMoves_tcpReset s
      · next hrst =>
        split
        · exact .of_eq rfl
        · next hsyn =>
          refine rtoMoves_tcpSynsentSyn env hst hacks th (fun hth => ?_)
            (fun hth => hopens (not_not.mp hsyn) hth hrst)
          exact UInt32.not_le.mp fun hle => hacc ⟨hth, .inl hle⟩

/-- A segment acknowledges new data, or answers our SYN. -/
def Acks (s : TcpSock) : TcpEvent → Prop
  | .arrive seg => s.state = .synSent ∨
      seg.th.ack ∧ s.tcb.sndUna < seg.th.ackSeq ∧ seg.th.ackSeq ≤ s.tcb.sndNxt
  | _ => False

/-- The peer opens the connection at the same time: its SYN arrives, and does not answer ours. -/
def Opens (s : TcpSock) : TcpEvent → Prop
  | .arrive seg => s.state = .synSent ∧ seg.th.syn ∧ ¬ seg.th.ack ∧ ¬ seg.th.rst
  | _ => False

theorem rtoMoves_tcpIn (s : TcpSock) (seg : Segment) :
    RtoMoves (Acks s (.arrive seg)) (Opens s (.arrive seg)) s (tcpIn env s seg) := by
  unfold tcpIn tcpInputState
  cases hst : s.state with
  | close =>
    dsimp only
    unfold tcpClosed
    split
    · exact .of_eq rfl
    · exact .of_eq (rtv_tcpSendReset env s)
  | listen => exact .of_eq rfl
  | synSent =>
    exact rtoMoves_tcpSynsent env hst (.inl hst) seg.th fun hsyn hack hrst => ⟨hst, hsyn, hack, hrst⟩
  | _ =>
    have hopen : s.state.opened := by rw [hst]; rfl
    dsimp only
    split
    · exact rtoMoves_tcpSegmentArrives env hopen _ fun hack hlt hle => .inr ⟨hack, hlt, hle⟩
    · next fec hfec =>
      have hin := rtv_tcpFecInput env s fec (tcpInitSegment seg)
      have hsnd := snd_tcpFecInput env hfec (tcpInitSegment seg)
      split
      · exact .of_eq hin
      · refine RtoMoves.trans (.of_eq hin) (rtoMoves_tcpSegmentArrives env ?_ _ ?_)
        · rwa [show (tcpFecInput env s fec (tcpInitSegment seg)).1.state = s.state from
            congrArg RtoView.state hin]
        · intro hack hlt hle
          have huna : (tcpFecInput env s fec (tcpInitSegment seg)).1.tcb.sndUna = s.tcb.sndUna :=
            congrArg SndView.sndUna hsnd
          have hnxt : (tcpFecInput env s fec (tcpInitSegment seg)).1.tcb.sndNxt = s.tcb.sndNxt :=
            congrArg SndView.sndNxt hsnd
          rw [huna] at hlt
          rw [hnxt] at hle
          exact .inr ⟨hack, hlt, hle⟩

end Arrival

/-! ## Every event -/

/-- The handlers of the retransmission timer. -/
def TimerHandler.isRto : TimerHandler → Bool
  | .tcpConnectRto | .tcpRetransmissionTimeout => true
  | _ => false

section Events

variable (env : Env) {s : TcpSock}

/-- **What an event does** to the retransmission timer, other than its expiry. -/
theorem rtoMoves_tcpStep (s : TcpSock) {e : TcpEvent}
    (he : ∀ handler, e = .timer handler → handler.isRto = false) :
    RtoMoves (Acks s e) (Opens s e) s (tcpStep env s e) := by
  have hunlinger : ∀ acks opens, RtoMoves acks opens s { s with linger := none } :=
    fun _ _ => .of_eq rfl
  cases e with
  | connect iss => exact rtoMoves_inetStreamConnect env s iss
  | arrive seg => exact rtoMoves_tcpIn env s seg
  | write buf => exact rtoMoves_tcpWrite env s buf
  | read len => exact .of_eq (rtv_tcpRead s len)
  | wake rd => exact .of_eq (rtv_tcpReceiveStep s rd)
  | close => exact rtoMoves_tcpClose env s
  | abort => exact rtoMoves_tcpAbort env s
  | tick ms => exact .of_eq rfl
  | timer handler =>
    by_cases hrun : handler ∈ s.timers
    · rw [tcpStep_timer hrun]
      have hrto := he handler rfl
      cases handler with
      | tcpConnectRto => exact Bool.noConfusion hrto
      | tcpRetransmissionTimeout => exact Bool.noConfusion hrto
      | tcpSendDelack =>
        change RtoMoves _ _ s (tcpSendAck env (tcpReleaseDelackTimer { s with delacks := 0 }))
        exact .of_eq (rtv_tcpSendAck env _)
      | tcpLinger => exact (hunlinger _ _).trans (rtoMoves_tcpDone _)
      | tcpUserTimeout => exact (hunlinger _ _).trans (rtoMoves_tcpAbort env _)
    · exact .of_eq (congrArg TcpSock.rtv (if_neg hrun))

/-- **The timer of a SYN expires**. -/
theorem rtv_tcpConnectRto (s : TcpSock) :
    (tcpConnectRto env s).rtv = s.rtv.release ∨
      s.state = .synSent ∧ (tcpConnectRto env s).rtv = s.rtv.release.done ∨
      s.state = .synSent ∧ s.writeQueue ≠ [] ∧
        ∃ expire, (tcpConnectRto env s).rtv = s.rtv.release.rearm expire := by
  unfold tcpConnectRto
  dsimp only
  split
  · next hst =>
    split
    · exact .inr (.inl ⟨hst, rfl⟩)
    · split
      · exact .inl rfl
      · next skb q hq =>
        refine .inr (.inr ⟨hst, ?_, ?_⟩)
        · exact fun h => List.cons_ne_nil skb q (hq.symm.trans h)
        · have ht := rtv_tcpTransmitSkb env (tcpReleaseRtoTimer s) skb
            (tcpReleaseRtoTimer s).tcb.sndUna
          have hlen : (tcpReleaseRtoTimer s).rtv.queue = q.length + 1 :=
            congrArg List.length hq
          generalize tcpTransmitSkb env (tcpReleaseRtoTimer s) skb
            (tcpReleaseRtoTimer s).tcb.sndUna = t at ht
          obtain ⟨expire, hrearm⟩ := rtv_tcpRearmRtoTimer
            { t.1 with backoff := (t.1.backoff + 1) % 256, writeQueue := t.2.1 :: q }
          refine ⟨expire, hrearm.trans (congrArg (RtoView.rearm · expire) ?_)⟩
          change { t.1.rtv with queue := q.length + 1 } = (tcpReleaseRtoTimer s).rtv
          rw [ht, ← hlen]
  · exact .inl rfl

theorem rtv_tcpHandleFinState (s : TcpSock) :
    ∃ st, (st = s.state ∨ TcpState.Move s.state st ∧ s.state.transfers) ∧
      (tcpHandleFinState s).rtv = { s.rtv with state := st } := by
  unfold tcpHandleFinState
  split
  · next hst => exact ⟨.lastAck, .inr ⟨hst ▸ .resend, hst ▸ rfl⟩, rfl⟩
  · next hst => exact ⟨.finWait1, .inr ⟨hst ▸ .close, hst ▸ rfl⟩, rfl⟩
  · exact ⟨s.state, .inl rfl, rfl⟩

/-- **The retransmission timer expires**. -/
theorem rtv_tcpRetransmissionTimeout (s : TcpSock) :
    s.writeQueue = [] ∧ (tcpRetransmissionTimeout env s).rtv = s.rtv.release ∨
      s.writeQueue ≠ [] ∧ 60000 < s.rto ∧
        (tcpRetransmissionTimeout env s).rtv = s.rtv.release.done ∨
      s.writeQueue ≠ [] ∧ ¬ 60000 < s.rto ∧
        ∃ st, (st = s.state ∨ TcpState.Move s.state st ∧ s.state.transfers) ∧
          (tcpRetransmissionTimeout env s).rtv =
            { s.rtv.release with state := st, rto := s.rto * 2 }.arm (s.rto * 2)
              .tcpRetransmissionTimeout := by
  cases hq : s.writeQueue with
  | nil =>
    have heq : tcpRetransmissionTimeout env s = { tcpReleaseRtoTimer s with backoff := 0 } := by
      unfold tcpRetransmissionTimeout
      dsimp only
      rw [show (tcpReleaseRtoTimer s).writeQueue = [] from hq]
    refine .inl ⟨rfl, ?_⟩
    rw [heq]
    rfl
  | cons skb q =>
    right
    have ht := rtv_tcpTransmitSkb env (tcpReleaseRtoTimer s) skb (tcpReleaseRtoTimer s).tcb.sndUna
    have hlen : (tcpReleaseRtoTimer s).rtv.queue = q.length + 1 := congrArg List.length hq
    unfold tcpRetransmissionTimeout
    dsimp only
    rw [show (tcpReleaseRtoTimer s).writeQueue = skb :: q from hq]
    dsimp only
    generalize tcpTransmitSkb env (tcpReleaseRtoTimer s) skb (tcpReleaseRtoTimer s).tcb.sndUna = t
      at ht
    have hview : ({ t.1 with writeQueue := t.2.1 :: q } : TcpSock).rtv = s.rtv.release := by
      change { t.1.rtv with queue := q.length + 1 } = (tcpReleaseRtoTimer s).rtv
      rw [ht, ← hlen]
    have hrto : t.1.rto = s.rto := congrArg RtoView.rto ht
    have hst : t.1.state = s.state := congrArg RtoView.state ht
    rw [← hview, ← hrto, ← hst]
    by_cases hgive : 60000 < t.1.rto
    · refine .inl ⟨List.cons_ne_nil skb q, hgive, ?_⟩
      rw [if_pos hgive]
      rfl
    · refine .inr ⟨List.cons_ne_nil skb q, hgive, ?_⟩
      rw [if_neg hgive]
      by_cases hfin : skb.th.fin
      · rw [if_pos hfin]
        exact rtv_tcpHandleFinState (tcpArmRtoTimer
          { t.1 with writeQueue := t.2.1 :: q, rto := t.1.rto * 2, backoff := (t.1.backoff + 1) % 256 }
          (t.1.rto * 2) .tcpRetransmissionTimeout)
      · rw [if_neg hfin]
        exact ⟨t.1.state, .inl rfl, rfl⟩

end Events

end LvlIp.Tcp
