import LvlIp.Handshake.Connecting
import LvlIp.Receive.Parity

/-!
# The states of a connection

The moves between the states of a connection that the code makes (`TcpState.Move`), and that every
event is a sequence of them (`moves_tcpStep`). A set of states that no move leaves is therefore never
left (`closed_run`). The table is that of RFC 793 with four differences: a reset in the window leads
to TIME_WAIT, `tcp_done` leads to CLOSING, CLOSING leads to TIME_WAIT whoever has led there, and the
retransmission of a FIN moves the connection, since `tcp_close` does not in CLOSE_WAIT.
-/

namespace LvlIp.Tcp

open Fec Relation

/-- The moves of a connection from one state to another. -/
inductive TcpState.Move : TcpState → TcpState → Prop
  | connect : Move .close .synSent
  | accept : Move .synSent .synReceived
  | greet : Move .synSent .established
  | complete : Move .synReceived .established
  | close : Move .established .finWait1
  | peerFin : Move .established .closeWait
  | peerFinEarly : Move .synReceived .closeWait
  | finAcked : Move .finWait1 .finWait2
  | crossed : Move .finWait1 .closing
  | crossedAcked : Move .closing .timeWait
  | peerFinLate : Move .finWait2 .timeWait
  | resend : Move .closeWait .lastAck
  | reset {st : TcpState} (h : st.opened) : Move st .timeWait
  | done (st : TcpState) : Move st .closing

/-- Some moves, one after the other. -/
def Moves (s s' : TcpSock) : Prop := ReflTransGen TcpState.Move s.state s'.state

section Moves

variable {env : Env} {s s' : TcpSock}

theorem Moves.of_eq (h : s'.state = s.state) : Moves s s' := by
  unfold Moves
  rw [h]

theorem Moves.single (h : TcpState.Move s.state s'.state) : Moves s s' := ReflTransGen.single h

theorem Moves.trans {s'' : TcpSock} (h : Moves s s') (h' : Moves s' s'') : Moves s s'' :=
  ReflTransGen.trans h h'

theorem Moves.of_rcv (h : s'.rcv = s.rcv) : Moves s s' := .of_eq (state_eq_of_rcv h)

theorem moves_tcpDone (s s' : TcpSock) : Moves s (tcpDone s') := .single (.done s.state)

/-! ## Arrival -/

theorem moves_tcpSynsent (hst : s.state = .synSent) (th : Tcphdr) :
    Moves s (tcpSynsent env s th) := by
  unfold tcpSynsent
  split
  · exact .of_eq rfl
  · split
    · exact .of_eq rfl
    · split
      · unfold tcpReset
        rw [hst]
        exact moves_tcpDone s _
      · split
        · exact .of_eq rfl
        · obtain ⟨state, fec, hor, hrcv⟩ := rcv_tcpSynsentSyn env s th
          have hstate : (tcpSynsentSyn env s th).state = state := congrArg RcvView.state hrcv
          refine .single ?_
          rw [hst, hstate]
          rcases hor with rfl | rfl
          · exact .greet
          · exact .accept

theorem moves_tcpAckField (s : TcpSock) (th : Tcphdr) : Moves s (tcpAckField s th).1 := by
  unfold tcpAckField
  split
  · next hst =>
    split
    · refine .single ?_
      rw [state_tcpAck, state_tcpFecResolve, hst]
      exact .complete
    · exact .of_eq rfl
  all_goals first
    | exact .of_rcv (rcv_tcpAck s _)
    | exact .of_eq rfl

theorem moves_tcpFinAcked (s : TcpSock) (th : Tcphdr) : Moves s (tcpFinAcked env s th).1 := by
  unfold tcpFinAcked
  split
  · split
    · next hst => exact .single (by rw [hst]; exact .finAcked)
    · next hst => exact .single (by rw [hst]; exact .crossedAcked)
    · exact moves_tcpDone s _
    · split
      · exact .of_eq (state_tcpSendAck env _)
      · exact .of_eq rfl
    · exact .of_eq rfl
  · exact .of_eq rfl

theorem moves_tcpFinState (s : TcpSock) : Moves s (tcpFinState s) := by
  unfold tcpFinState
  split
  · next hst => exact .single (by rw [hst]; exact .peerFinEarly)
  · next hst => exact .single (by rw [hst]; exact .peerFin)
  · next hst =>
    split
    · exact .single (.reset (by rw [hst]; rfl))
    · exact .single (by rw [hst]; exact .crossed)
  · next hst => exact .single (by rw [hst]; exact .peerFinLate)
  · exact .of_eq rfl

theorem moves_tcpFin (s : TcpSock) (th : Tcphdr) (expected : Bool) :
    Moves s (tcpFin env s th expected) := by
  unfold tcpFin
  split
  · refine Moves.trans ?_ (moves_tcpFinState _)
    exact .of_eq (state_tcpSendAck env _)
  · exact .of_eq rfl

theorem moves_tcpSegmentArrives (h : s.state.opened) (skb : SkBuff) :
    Moves s (tcpSegmentArrives env s skb) := by
  unfold tcpSegmentArrives
  split
  · split
    · exact .of_eq rfl
    · exact .of_eq (state_tcpSendAck env s)
  · split
    · exact .single (.reset h)
    · split
      · exact .of_eq rfl
      · split
        · exact .of_eq rfl
        · have hack := moves_tcpAckField s skb.th
          dsimp only
          split
          · exact hack
          · have hfin := @moves_tcpFinAcked env (tcpAckField s skb.th).1 skb.th
            split
            · exact hack.trans hfin
            · refine (hack.trans hfin).trans ?_
              unfold tcpDeliver
              dsimp only
              generalize (tcpFinAcked env (tcpAckField s skb.th).1 skb.th).1 = s₁
              have htext : Moves s₁ (tcpText env s₁ skb) := .of_eq (state_tcpText s₁ skb)
              exact (htext.trans (moves_tcpFin _ skb.th _)).trans
                (.of_rcv (rcv_tcpPending env _ skb _))

theorem state_tcpFecInput (s : TcpSock) (fec : TcpFec) (skb : SkBuff) :
    (tcpFecInput env s fec skb).1.state = s.state := by
  have hspliced : ∀ (sps : List Splice) (v : RcvView), (v.spliced sps).state = v.state := by
    intro sps
    induction sps with
    | nil => exact fun v => rfl
    | cons sp sps ih => exact fun v => (ih _).trans (state_dataQueue v sp.skb)
  exact (congrArg RcvView.state (rcv_tcpFecInput env s fec skb)).trans (hspliced _ _)

theorem moves_tcpIn (s : TcpSock) (seg : Segment) : Moves s (tcpIn env s seg) := by
  unfold tcpIn tcpInputState
  cases hst : s.state with
  | close =>
    dsimp only
    unfold tcpClosed
    split
    · exact .of_eq rfl
    · exact .of_rcv (rcv_tcpSendReset env s)
  | listen => exact .of_eq rfl
  | synSent => exact moves_tcpSynsent hst seg.th
  | _ =>
    have hopen : s.state.opened := by rw [hst]; rfl
    dsimp only
    split
    · exact moves_tcpSegmentArrives hopen _
    · next fec hfec =>
      have hin := @state_tcpFecInput env s fec (tcpInitSegment seg)
      split
      · exact .of_eq hin
      · exact Moves.trans (.of_eq hin) (moves_tcpSegmentArrives (by rw [hin]; exact hopen) _)

/-! ## The user's calls and the timers -/

theorem moves_inetStreamConnect (s : TcpSock) (iss : UInt32) :
    Moves s (inetStreamConnect env s iss) := by
  unfold inetStreamConnect
  split
  · exact .of_eq rfl
  · next hst =>
    rw [not_not] at hst
    refine .single ?_
    have hsent : (TcpSock.state { tcpConnect env s iss with err := eInprogress }) = .synSent := by
      unfold tcpConnect tcpSendSyn
      rw [if_neg (by simp [hst])]
      exact state_eq_of_rcv (rcv_tcpQueueTransmitSkb env _ _)
    rw [hst, hsent]
    exact .connect

theorem moves_tcpWrite (s : TcpSock) (buf : List UInt8) : Moves s (tcpWrite env s buf).1 := by
  unfold tcpWrite
  split
  · exact .of_eq rfl
  · split
    · exact .of_eq (state_tcpSend env s buf)
    · exact .of_eq (state_tcpSend env s buf)
    · exact .of_eq rfl

theorem moves_tcpClose (s : TcpSock) : Moves s (tcpClose env s) := by
  unfold tcpClose
  split
  any_goals exact .of_eq rfl
  any_goals exact moves_tcpDone s s
  · next hst =>
    refine .single ?_
    rw [state_tcpQueueFin, hst]
    exact .close
  · exact .of_eq (state_tcpQueueFin env s)

theorem moves_tcpHandleFinState (s : TcpSock) : Moves s (tcpHandleFinState s) := by
  unfold tcpHandleFinState
  split
  · next hst => exact .single (by rw [hst]; exact .resend)
  · next hst => exact .single (by rw [hst]; exact .close)
  · exact .of_eq rfl

theorem moves_tcpConnectRto (s : TcpSock) : Moves s (tcpConnectRto env s) := by
  unfold tcpConnectRto
  dsimp only
  split
  · split
    · exact moves_tcpDone s _
    · split
      · exact .of_eq rfl
      · refine .of_eq ?_
        rw [state_eq_of_rcv (rcv_tcpRearmRtoTimer _)]
        exact state_eq_of_rcv (rcv_tcpTransmitSkb env (tcpReleaseRtoTimer s) _ _)
  · exact .of_eq rfl

theorem moves_tcpRetransmissionTimeout (s : TcpSock) :
    Moves s (tcpRetransmissionTimeout env s) := by
  unfold tcpRetransmissionTimeout
  dsimp only
  split
  · exact .of_eq rfl
  · next skb q hq =>
    have hst := state_eq_of_rcv
      (rcv_tcpTransmitSkb env (tcpReleaseRtoTimer s) skb (tcpReleaseRtoTimer s).tcb.sndUna)
    generalize tcpTransmitSkb env (tcpReleaseRtoTimer s) skb
      (tcpReleaseRtoTimer s).tcb.sndUna = t at hst
    split
    · exact .single (.done s.state)
    · split
      · refine Moves.trans ?_ (moves_tcpHandleFinState _)
        exact .of_eq hst
      · exact .of_eq hst

theorem moves_timer (s : TcpSock) (handler : TimerHandler) : Moves s (handler.run env s) := by
  cases handler with
  | tcpConnectRto => exact moves_tcpConnectRto s
  | tcpRetransmissionTimeout => exact moves_tcpRetransmissionTimeout s
  | tcpSendDelack => exact .of_eq (state_tcpSendAck env _)
  | tcpLinger => exact moves_tcpDone s _
  | tcpUserTimeout => exact moves_tcpDone s _

/-- **Every event moves the connection along the table.** -/
theorem moves_tcpStep (s : TcpSock) (e : TcpEvent) : Moves s (tcpStep env s e) := by
  cases e with
  | connect iss => exact moves_inetStreamConnect s iss
  | arrive seg => exact moves_tcpIn s seg
  | write buf => exact moves_tcpWrite s buf
  | read len => exact .of_eq (tcpRead_spec s len).1.1
  | wake rd => exact .of_eq (tcpReceiveStep_spec s rd).1.1
  | close => exact moves_tcpClose s
  | abort => exact moves_tcpDone s _
  | timer handler =>
    change Moves s (if handler ∈ s.timers then handler.run env s else s)
    split
    · exact moves_timer s handler
    · exact .of_eq rfl
  | tick ms => exact .of_eq rfl

theorem moves_threadStep (s : TcpSock) (e : ThreadEvent) : Moves s (threadStep env s e) := by
  cases e with
  | event e => exact moves_tcpStep s e
  | late handler => exact moves_timer s handler

/-- **States that no move leaves** are not left in a run. -/
theorem Moves.closed {P : TcpState → Prop} (hP : ∀ st st', TcpState.Move st st' → P st → P st')
    (h : Moves s s') (hs : P s.state) : P s'.state := by
  unfold Moves at h
  generalize s'.state = st' at h ⊢
  induction h with
  | refl => exact hs
  | tail _ hmove ih => exact hP _ _ hmove ih

theorem closed_run {P : TcpState → Prop} (hP : ∀ st st', TcpState.Move st st' → P st → P st')
    (events : List TcpEvent) (hs : P s.state) : P (events.foldl (tcpStep env) s).state := by
  induction events generalizing s with
  | nil => exact hs
  | cons e es ih => exact ih ((moves_tcpStep s e).closed hP hs)

end Moves

end LvlIp.Tcp
