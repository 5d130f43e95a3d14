import LvlIp.Handshake.Synsent
import LvlIp.Lifecycle.Moves

/-!
# SYN_RECEIVED

A socket that has connected and then accepted a SYN that does not acknowledge its own is in
SYN_RECEIVED, with its SYN still in the write queue (`Received`), until it leaves that state for
good (`reached_run`). The acknowledgement of its SYN is `snd_nxt`. The code asks for an
acknowledgement number below `snd_nxt`, so it drops that one, and takes the one before it as the end
of the handshake (`tcpSynReceived_ack_iff`).
-/

namespace LvlIp.Tcp

open Fec

/-- A socket in SYN_RECEIVED: its SYN is in flight. -/
structure Received (s : TcpSock) : Prop where
  state : s.state = .synReceived
  sndUna : s.tcb.sndUna = s.tcb.iss
  sndNxt : s.tcb.sndNxt = s.tcb.iss + 1
  queue : ∃ y, s.writeQueue = [y] ∧ y.th.syn ∧ y.seq = s.tcb.iss ∧ y.endSeq = s.tcb.iss
  timer : ¬ s.rtoArmed
  fec : s.fec = none

/-- A socket that has not left the handshake, or has left it for good. -/
def Reached (s : TcpSock) : Prop :=
  Closed s ∨ Connecting s ∨ Received s ∨ s.state.connected

section Received

variable {env : Env} {s s' : TcpSock}

theorem Received.of_quiet (h : Received s) (hq : Quiet s s') (hst : s'.state = s.state)
    (hsnd : s'.snd = s.snd) : Received s' := by
  have hiss : s'.tcb.iss = s.tcb.iss := congrArg SndView.iss hsnd
  have hqueue : s'.writeQueue = s.writeQueue := congrArg SndView.writeQueue hsnd
  have htx : s'.fec.map TcpFec.tx = s.fec.map TcpFec.tx := congrArg SndView.tx hsnd
  refine ⟨hst.trans h.state, ?_, ?_, ?_, fun harmed => h.timer (hq.rtoArmed harmed), ?_⟩
  · rw [hiss, ← h.sndUna]
    exact congrArg SndView.sndUna hsnd
  · rw [hiss, ← h.sndNxt]
    exact congrArg SndView.sndNxt hsnd
  · rw [hqueue, hiss]
    exact h.queue
  · rw [h.fec] at htx
    exact Option.map_eq_none_iff.mp htx

theorem connected_move {st st' : TcpState} (h : TcpState.Move st st') (hst : st.connected) :
    st'.connected := by
  cases h <;> first
    | rfl
    | cases hst

/-- A connection that is past the handshake stays past it. -/
theorem connected_step (e : TcpEvent) (hst : s.state.connected) :
    (tcpStep env s e).state.connected :=
  (moves_tcpStep s e).closed (P := fun st => st.connected) (fun _ _ => connected_move) hst

/-! ## Segments in SYN_RECEIVED -/

/-- The acknowledgement numbers that the code takes for that of our SYN. -/
theorem synReceived_takes_iff (iss ack : UInt32) :
    iss ≤ ack ∧ ack < iss + 1 ↔ ack = iss ∧ iss ≠ 4294967295 := by
  have hone : (iss + 1).toNat = (iss.toNat + 1) % 2 ^ 32 := UInt32.toNat_add iss 1
  have hi := iss.toNat_lt
  rw [UInt32.le_iff_toNat_le, UInt32.lt_iff_toNat_lt, ← UInt32.toNat_inj, hone, ne_eq,
    ← UInt32.toNat_inj]
  change _ ↔ _ ∧ ¬ iss.toNat = 4294967295
  omega

theorem Received.tcpStep_arrive (h : Received s) (seg : Segment) :
    tcpStep env s (.arrive seg) = tcpSegmentArrives env s (tcpInitSegment seg) := by
  change tcpInputState env s (tcpInitSegment seg) = _
  unfold tcpInputState
  rw [h.state, h.fec]

/-- **The ACK field in SYN_RECEIVED.** -/
theorem Received.tcpAckField_eq (h : Received s) (th : Tcphdr) : tcpAckField s th =
    if th.ackSeq = s.tcb.iss ∧ s.tcb.iss ≠ 4294967295 then
      tcpAck (tcpFecResolve { s with state := .established }) th.ackSeq
    else (s, false) := by
  unfold tcpAckField
  rw [h.state]
  dsimp only
  rw [h.sndUna, h.sndNxt]
  exact if_congr (synReceived_takes_iff _ _) rfl rfl

/-- An acknowledgement that is not taken leaves no trace. -/
theorem Received.dropped (h : Received s) {skb : SkBuff} (hver : tcpVerifySegment s skb)
    (hrst : skb.th.rst = false) (hsyn : skb.th.syn = false) (hack : skb.th.ack)
    (hno : ¬ (skb.th.ackSeq = s.tcb.iss ∧ s.tcb.iss ≠ 4294967295)) :
    tcpSegmentArrives env s skb = s := by
  have hfield := h.tcpAckField_eq skb.th
  rw [if_neg hno] at hfield
  unfold tcpSegmentArrives
  rw [if_neg (not_not.mpr hver), if_neg (by rw [hrst]; nofun), if_neg (by rw [hsyn]; nofun),
    if_neg (not_not.mpr hack), hfield]
  rfl

/-- One that is taken ends SYN_RECEIVED. -/
theorem Received.taken (h : Received s) {skb : SkBuff} (hver : tcpVerifySegment s skb)
    (hrst : skb.th.rst = false) (hsyn : skb.th.syn = false) (hack : skb.th.ack)
    (htake : skb.th.ackSeq = s.tcb.iss ∧ s.tcb.iss ≠ 4294967295) :
    (tcpSegmentArrives env s skb).state.connected := by
  have hfield := h.tcpAckField_eq skb.th
  rw [if_pos htake] at hfield
  have hest : (tcpAckField s skb.th).1.state.connected := by
    rw [hfield, state_tcpAck, state_tcpFecResolve]
    rfl
  unfold tcpSegmentArrives
  rw [if_neg (not_not.mpr hver), if_neg (by rw [hrst]; nofun), if_neg (by rw [hsyn]; nofun),
    if_neg (not_not.mpr hack)]
  dsimp only
  split
  · exact hest
  · have hfin : (tcpFinAcked env (tcpAckField s skb.th).1 skb.th).1.state.connected :=
      (moves_tcpFinAcked _ skb.th).closed (P := fun st => st.connected)
        (fun _ _ => connected_move) hest
    split
    · exact hfin
    · exact (txSteps_tcpDeliver env hfin skb).1

theorem Received.arrive (h : Received s) (seg : Segment) :
    Received (tcpStep env s (.arrive seg)) ∨ (tcpStep env s (.arrive seg)).state.connected := by
  rw [h.tcpStep_arrive]
  generalize tcpInitSegment seg = skb
  by_cases hver : tcpVerifySegment s skb
  · cases hrst : skb.th.rst with
    | true =>
      refine .inr ?_
      unfold tcpSegmentArrives
      rw [if_neg (not_not.mpr hver), if_pos hrst]
      rfl
    | false =>
      by_cases hcheck : skb.th.syn = false ∧ skb.th.ack
      · by_cases htake : skb.th.ackSeq = s.tcb.iss ∧ s.tcb.iss ≠ 4294967295
        · exact .inr (h.taken hver hrst hcheck.1 hcheck.2 htake)
        · rw [h.dropped hver hrst hcheck.1 hcheck.2 htake]
          exact .inl h
      · have hsame : tcpSegmentArrives env s skb = s := by
          unfold tcpSegmentArrives
          rw [if_neg (not_not.mpr hver), if_neg (by rw [hrst]; nofun)]
          split
          · rfl
          · next hsyn =>
            rw [if_pos fun hack => hcheck ⟨Bool.eq_false_iff.mpr hsyn, hack⟩]
        rw [hsame]
        exact .inl h
  · refine .inl ?_
    unfold tcpSegmentArrives
    rw [if_pos hver]
    split
    · exact h
    · exact h.of_quiet (quiet_tcpSendAck s) (state_tcpSendAck env s) (snd_tcpSendAck env s)

/-- **An event in SYN_RECEIVED.** -/
theorem Received.step (h : Received s) (e : TcpEvent) :
    Received (tcpStep env s e) ∨ (tcpStep env s e).state.connected := by
  have hst := h.state
  have hread : ∀ rd : Reader, Received (tcpReceiveStep s rd).1 := fun rd =>
    h.of_quiet (sameConn_tcpReceiveStep s rd).toQuiet (sameConn_tcpReceiveStep s rd).state
      (snd_tcpReceiveStep s rd)
  cases e with
  | connect iss =>
    have hcon : tcpStep env s (.connect iss) = { s with err := eIsconn } :=
      if_pos (by rw [hst]; nofun)
    rw [hcon]
    exact .inl ⟨h.state, h.sndUna, h.sndNxt, h.queue, h.timer, h.fec⟩
  | arrive seg => exact h.arrive seg
  | write buf =>
    rw [tcpStep_write_of_not (not_writable_of_early (by rw [hst]; rfl))]
    exact .inl h
  | read len =>
    have heq : tcpStep env s (.read len) = (tcpReceiveStep s { got := [], room := len }).1 := by
      change (tcpRead s len).1 = _
      unfold tcpRead
      rw [hst]
    rw [heq]
    exact .inl (hread _)
  | wake rd => exact .inl (hread rd)
  | close =>
    have hclose : tcpStep env s .close = tcpDone s := by
      change tcpClose env s = _
      unfold tcpClose
      rw [hst]
    rw [hclose]
    exact .inr rfl
  | abort => exact .inr rfl
  | timer handler =>
    by_cases hrun : handler ∈ s.timers
    · rw [tcpStep_timer hrun]
      cases handler with
      | tcpConnectRto =>
        refine .inl ?_
        change Received (tcpConnectRto env s)
        unfold tcpConnectRto
        dsimp only
        rw [if_neg (by change s.state ≠ _; rw [hst]; nofun)]
        exact h.of_quiet (sameConn_tcpReleaseRtoTimer s).toQuiet rfl rfl
      | tcpRetransmissionTimeout => exact absurd hrun h.timer
      | tcpSendDelack =>
        refine .inl (h.of_quiet (quiet_tcpSendDelack s) (state_tcpSendAck env _) ?_)
        exact snd_tcpSendAck env _
      | tcpLinger => exact .inr rfl
      | tcpUserTimeout => exact .inr rfl
    · rw [tcpStep_timer_of_not hrun]
      exact .inl h
  | tick ms => exact .inl ⟨h.state, h.sndUna, h.sndNxt, h.queue, h.timer, h.fec⟩

/-! ## Reaching SYN_RECEIVED -/

/-- The SYN of a simultaneous open. -/
theorem Connecting.received (h : Connecting s) {th : Tcphdr} (hack : th.ack = false) :
    Received (tcpSynsentSyn env s th) := by
  have hseen : tcpSynsentAcked s th = { s with tcb.rcvNxt := th.seq + 1, tcb.irs := th.seq } := by
    unfold tcpSynsentAcked
    rw [hack]
    rfl
  rw [tcpSynsentSyn_eq, hseen]
  dsimp only
  rw [if_neg (by rw [h.sndUna]; exact UInt32.lt_irrefl _)]
  obtain ⟨smss, tsopt, allowed, hparse⟩ := exists_tcpParseOpts { s with
    tcb.rcvNxt := th.seq + 1, tcb.irs := th.seq, state := .synReceived, tcb.sndUna := s.tcb.iss } th
  rw [hparse, tcpSendSynack_of_ne env (show TcpState.synReceived ≠ .synSent from nofun)]
  obtain ⟨y, hq, hsyn⟩ := h.queue
  obtain ⟨ackSeq, hth⟩ := hsyn.th
  exact ⟨rfl, rfl, h.sndNxt, ⟨y, hq, by rw [hth]; rfl, hsyn.seq, hsyn.endSeq⟩, h.timer,
    Option.not_isSome_iff_eq_none.mp (by rw [h.fec]; nofun)⟩

theorem Connecting.reached (h : Connecting s) (e : TcpEvent) : Reached (tcpStep env s e) := by
  rcases @Connecting.step env s h e with ⟨hc, -⟩ | ⟨hst, -⟩ | ⟨seg, rfl, hsyn, heq, -⟩
  · exact .inr (.inl hc)
  · exact .inr (.inr (.inr (by rw [hst]; rfl)))
  · rw [heq]
    have hstate := @state_tcpSynsentSyn env s seg.th
    cases hack : seg.th.ack with
    | false => exact .inr (.inr (.inl (h.received hack)))
    | true =>
      rw [hack, if_pos rfl] at hstate
      refine .inr (.inr (.inr ?_))
      -- an acknowledgement that is accepted is above `iss`
      have hlt : s.tcb.iss < seg.th.ackSeq := by
        by_contra hle
        have hdrop : tcpSynsent env s seg.th = s := by
          unfold tcpSynsent
          exact if_pos ⟨hack, .inl (UInt32.not_lt.mp hle)⟩
        have hin : tcpStep env s (.arrive seg) = tcpSynsent env s seg.th := by
          change tcpInputState env s (tcpInitSegment seg) = _
          unfold tcpInputState
          rw [h.state]
          rfl
        rw [if_neg hle, ← heq, hin, hdrop, h.state] at hstate
        cases hstate
      rw [hstate, if_pos hlt]
      rfl

theorem Closed.state_step (h : Closed s) {e : TcpEvent} (he : ∀ iss, e ≠ .connect iss) :
    (tcpStep env s e).state = .close ∨ (tcpStep env s e).state = .closing := by
  have hst := h.state
  cases e with
  | connect iss => exact absurd rfl (he iss)
  | arrive seg =>
    refine .inl ?_
    change (tcpInputState env s (tcpInitSegment seg)).state = _
    unfold tcpInputState
    rw [hst]
    dsimp only
    unfold tcpClosed
    split
    · exact hst
    · exact (state_eq_of_rcv (rcv_tcpSendReset env s)).trans hst
  | write buf =>
    rw [tcpStep_write_of_not (not_writable_of_early (by rw [hst]; rfl))]
    exact .inl hst
  | read len => exact .inl ((tcpRead_spec s len).1.1.trans hst)
  | wake rd => exact .inl ((tcpReceiveStep_spec s rd).1.1.trans hst)
  | close =>
    refine .inl ?_
    change (tcpClose env s).state = _
    unfold tcpClose
    rw [hst]
  | abort => exact .inr rfl
  | timer handler =>
    by_cases hrun : handler ∈ s.timers
    · rw [tcpStep_timer hrun]
      cases handler with
      | tcpConnectRto =>
        refine .inl ?_
        change (tcpConnectRto env s).state = _
        unfold tcpConnectRto
        dsimp only
        rw [if_neg (by change s.state ≠ _; rw [hst]; nofun)]
        exact hst
      | tcpRetransmissionTimeout => exact absurd hrun h.timer
      | tcpSendDelack => exact .inl ((state_tcpSendAck env _).trans hst)
      | tcpLinger => exact .inr rfl
      | tcpUserTimeout => exact .inr rfl
    · rw [tcpStep_timer_of_not hrun]
      exact .inl hst
  | tick ms => exact .inl hst

theorem Closed.reached (h : Closed s) (e : TcpEvent) : Reached (tcpStep env s e) := by
  by_cases hcon : ∃ iss, e = .connect iss
  · obtain ⟨iss, rfl⟩ := hcon
    exact .inr (.inl (h.connect iss).1)
  · have he : ∀ iss, e ≠ .connect iss := fun iss he => hcon ⟨iss, he⟩
    obtain ⟨hphase, -⟩ := @Closed.step env s h e he
    rcases hphase with hc | hopen
    · exact .inl hc
    · rcases @Closed.state_step env s h e he with hst | hst
      · have hopened := hopen.state
        rw [hst] at hopened
        cases hopened
      · exact .inr (.inr (.inr (by rw [hst]; rfl)))

theorem Reached.step (h : Reached s) (e : TcpEvent) : Reached (tcpStep env s e) := by
  rcases h with h | h | h | h
  · exact h.reached e
  · exact h.reached e
  · exact .inr (.inr (h.step e))
  · exact .inr (.inr (.inr (connected_step e h)))

/-- **The states of a run** that starts with a closed socket. -/
theorem reached_run (events : List TcpEvent) (h : Reached s) :
    Reached (events.foldl (tcpStep env) s) := by
  induction events generalizing s with
  | nil => exact h
  | cons e es ih => exact ih (h.step e)

theorem Reached.received (h : Reached s) (hst : s.state = .synReceived) : Received s := by
  rcases h with h | h | h | h
  · exact nomatch h.state.symm.trans hst
  · exact nomatch h.state.symm.trans hst
  · exact h
  · rw [hst] at h
    cases h

theorem Reached.connecting (h : Reached s) (hst : s.state = .synSent) : Connecting s := by
  rcases h with h | h | h | h
  · exact nomatch h.state.symm.trans hst
  · exact h
  · exact nomatch h.state.symm.trans hst
  · rw [hst] at h
    cases h

end Received

/-! ## Completing the handshake -/

/-- A segment with the header `th` takes a socket from SYN_RECEIVED in `s` to `s'` as RFC 793
says. -/
structure SynReceivedRfc (s : TcpSock) (th : Tcphdr) (s' : TcpSock) : Prop where
  established : s'.state = .established ↔
    th.ackSeq = s.tcb.sndNxt ∧ s.tcb.sndNxt = s.tcb.iss + 1
  acked : th.ackSeq = s.tcb.iss + 1 →
    s'.tcb.sndUna = s.tcb.iss + 1 ∧ ∀ y ∈ s'.writeQueue, y.th.syn = false
  dropped : th.ackSeq ≠ s.tcb.iss + 1 → s' = s

/-- **SYN_RECEIVED never completes on the acknowledgement of our SYN**: what happens in a reachable
SYN_RECEIVED to a segment in the window is right exactly when it does not acknowledge our SYN, and
does not carry the acknowledgement number before that one, which the code takes instead (unless it
is the last of the sequence space). -/
theorem tcpSynReceived_ack_iff (env : Env) (s₀ : TcpSock) (h₀ : Closed s₀)
    (events : List TcpEvent) (hst : (events.foldl (tcpStep env) s₀).state = .synReceived)
    (seg : Segment) (hver : tcpVerifySegment (events.foldl (tcpStep env) s₀) (tcpInitSegment seg))
    (hack : seg.th.ack) (hrst : seg.th.rst = false) (hsyn : seg.th.syn = false) :
    let s := events.foldl (tcpStep env) s₀
    SynReceivedRfc s seg.th (tcpStep env s (.arrive seg)) ↔
      seg.th.ackSeq ≠ s.tcb.iss + 1 ∧ (seg.th.ackSeq = s.tcb.iss → s.tcb.iss = 4294967295) := by
  have hreached : Reached (events.foldl (tcpStep env) s₀) := reached_run events (.inl h₀)
  generalize events.foldl (tcpStep env) s₀ = s at hreached hst hver
  dsimp only
  have h : Received s := hreached.received hst
  have hne : s.tcb.iss ≠ s.tcb.iss + 1 := by
    intro heq
    have := congrArg UInt32.toNat heq
    rw [UInt32.toNat_add] at this
    change _ = (_ + 1) % 2 ^ 32 at this
    have := s.tcb.iss.toNat_lt
    omega
  rw [h.tcpStep_arrive]
  by_cases htake : seg.th.ackSeq = s.tcb.iss ∧ s.tcb.iss ≠ 4294967295
  · refine iff_of_false (fun hrfc => ?_) fun hcond => htake.2 (hcond.2 htake.1)
    have hconn := @Received.taken env s h (tcpInitSegment seg) hver hrst hsyn hack htake
    rw [hrfc.dropped (by rw [htake.1]; exact hne), hst] at hconn
    cases hconn
  · rw [@Received.dropped env s h (tcpInitSegment seg) hver hrst hsyn hack htake]
    constructor
    · intro hrfc
      refine ⟨fun heq => ?_, fun heq => ?_⟩
      · exact nomatch hst.symm.trans (hrfc.established.mpr ⟨heq.trans h.sndNxt.symm, h.sndNxt⟩)
      · by_contra hmax
        exact htake ⟨heq, hmax⟩
    · rintro ⟨hno, -⟩
      refine ⟨iff_of_false (by rw [hst]; nofun) fun hc => ?_, fun heq => absurd heq hno,
        fun _ => rfl⟩
      exact hno (hc.1.trans hc.2)

/-- The socket has sent its SYN at 100 and got the SYN of the peer, at 1000. -/
def crossedSyns : List TcpEvent :=
  [.connect 100, .arrive ⟨{ Tcphdr.zero with seq := 1000, hl := 5, syn := true }, []⟩]

/-- An acknowledgement of the peer, after its SYN. -/
def synAck (ackSeq : UInt32) : Segment :=
  ⟨{ Tcphdr.zero with seq := 1001, ackSeq, hl := 5, ack := true }, []⟩

/-- An old acknowledgement is dropped. -/
theorem tcpSynReceived_ack_old :
    let s := crossedSyns.foldl (tcpStep quietLink) tcpAllocSock
    s.state = .synReceived ∧
      SynReceivedRfc s (synAck 90).th (tcpStep quietLink s (.arrive (synAck 90))) :=
  ⟨by decide +kernel, (tcpSynReceived_ack_iff quietLink tcpAllocSock closed_tcpAllocSock crossedSyns
    (by decide +kernel) (synAck 90) (by decide +kernel) rfl rfl rfl).mpr (by decide +kernel)⟩

/-- The acknowledgement of our SYN is dropped as well. -/
theorem not_tcpSynReceived_ack :
    let s := crossedSyns.foldl (tcpStep quietLink) tcpAllocSock
    s.state = .synReceived ∧ tcpVerifySegment s (tcpInitSegment (synAck 101)) ∧
      ¬ SynReceivedRfc s (synAck 101).th (tcpStep quietLink s (.arrive (synAck 101))) := by
  refine ⟨by decide +kernel, by decide +kernel, fun h => ?_⟩
  have hest := h.established.mpr (by decide +kernel)
  revert hest
  decide +kernel

end LvlIp.Tcp
