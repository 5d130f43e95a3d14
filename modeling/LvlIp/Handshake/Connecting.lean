import LvlIp.Handshake.Follows

/-!
# From CLOSE through SYN_SENT

A socket is closed until it connects, then in SYN_SENT until it gives up or accepts a SYN, and open
from then on (`Closed`, `Connecting`, `Opened`). `Connecting.step` lists what an event can do in
SYN_SENT: the SYN may go out once more, the attempt may end, or a SYN of the peer is accepted, whose
sequence number becomes `irs` and whose options are read.
-/

namespace LvlIp.Tcp

open Fec

/-- The header of a SYN of the socket, as it goes out. -/
def TcpSock.synAt (s : TcpSock) (ackSeq : UInt32) : Tcphdr :=
  { tcpSynHeader s false with seq := s.tcb.iss, ackSeq }

/-- No SACK block waits to be written. -/
def TcpSock.NoSack (s : TcpSock) : Prop := (s.sacks.getD 0 ⟨0, 0⟩).left = 0

/-- A socket before it connects. -/
structure Closed (s : TcpSock) : Prop where
  state : s.state = .close
  writeQueue : s.writeQueue = []
  inflight : s.inflight = 0
  timer : ¬ s.rtoArmed
  out : ∀ t ∈ s.out, t.seg.th.syn = false
  fec : s.fec.isSome = false
  sacks : s.NoSack

/-- The SYN of a socket, as it waits in the write queue. -/
structure IsSyn (s : TcpSock) (y : SkBuff) : Prop where
  th : ∃ ackSeq, y.th = s.synAt ackSeq
  payload : y.payload = []
  seq : y.seq = s.tcb.iss
  endSeq : y.endSeq = s.tcb.iss

/-- The SYNs of the socket are all the same but for their acknowledgement number. -/
def SynsOf (s : TcpSock) (out : List Transmission) : Prop :=
  ∀ t ∈ out, t.seg.th.syn → ∃ ackSeq, t.seg = ⟨s.synAt ackSeq, []⟩

/-- A socket in SYN_SENT: its SYN is in flight. -/
structure Connecting (s : TcpSock) : Prop where
  state : s.state = .synSent
  sndUna : s.tcb.sndUna = s.tcb.iss
  sndNxt : s.tcb.sndNxt = s.tcb.iss + 1
  queue : ∃ y, s.writeQueue = [y] ∧ IsSyn s y
  inflight : s.inflight = 1
  timer : ¬ s.rtoArmed
  out : SynsOf s s.out
  fec : s.fec.isSome = false
  sacks : s.NoSack

/-- A socket that has left SYN_SENT. -/
structure Opened (s : TcpSock) : Prop where
  state : s.state.opened
  syn : SynKept s
  fec : FecResolved s

section Phases

variable {env : Env} {s s' : TcpSock}

theorem closed_tcpAllocSock : Closed tcpAllocSock :=
  ⟨rfl, rfl, rfl, by unfold TcpSock.rtoArmed; decide, nofun, rfl, rfl⟩

theorem Closed.synKept (h : Closed s) : SynKept s := by
  refine ⟨.inl ?_, fun harmed => absurd harmed h.timer⟩
  rw [h.writeQueue]
  nofun

theorem Closed.fecResolved (h : Closed s) : FecResolved s := by
  refine ⟨fun _ => h.fec, fun htrans => ?_⟩
  rw [h.state] at htrans
  cases htrans

theorem Connecting.synKept (h : Connecting s) : SynKept s := by
  obtain ⟨y, hq, -⟩ := h.queue
  refine ⟨.inr ⟨?_, y, [], hq, nofun⟩, fun harmed => absurd harmed h.timer⟩
  rw [h.inflight]
  nofun

theorem Connecting.fecResolved (h : Connecting s) : FecResolved s := by
  refine ⟨fun _ => h.fec, fun htrans => ?_⟩
  rw [h.state] at htrans
  cases htrans

/-- **An event of an open connection.** -/
theorem Opened.step (h : Opened s) (e : TcpEvent) :
    Opened (tcpStep env s e) ∧ (tcpStep env s e).settled = s.settled ∧
      NoNewSyn s (tcpStep env s e) := by
  have hf : Follows s (tcpStep env s e) := follows_tcpStep h.state h.syn e
  obtain ⟨hk, hnew⟩ := hf.syn h.syn
  exact ⟨⟨hf.opened h.state, hk, hf.fec h.fec⟩, hf.settled, hnew⟩

theorem Opened.of_quiet (hk : SynKept s) (hfec : FecResolved s) (hq : Quiet s s')
    (hst : s'.state.opened) :
    Opened s' ∧ s'.settled = s.settled ∧ NoNewSyn s s' := by
  obtain ⟨hk', hnew⟩ := hq.follows.syn hk
  exact ⟨⟨hst, hk', hq.fec hfec⟩, congrArg HsView.settled hq.hs, hnew⟩

/-! ## Sending the SYN -/

theorem tcpFillOptions_noSack (h : s.NoSack) (th : Tcphdr) : tcpFillOptions s th = (s, th) := by
  unfold tcpFillOptions tcpWriteOptions
  split
  · split
    · rfl
    · rw [if_pos (.inr h)]
  · rfl

/-- **Transmitting a SYN**: nothing is added to its options. -/
theorem tcpTransmitSkb_syn (hsack : s.NoSack) {y : SkBuff} {hdr : Tcphdr} (hhl : hdr.hl ≠ 0)
    {seq₀ ackSeq : UInt32} (hth : y.th = { hdr with seq := seq₀, ackSeq }) (seq : UInt32) :
    (tcpTransmitSkb env s y seq).1 = s.emit
      { addr := y.addr, tag := y.tag
        seg := ⟨{ hdr with seq, ackSeq := s.tcb.rcvNxt }, y.payload⟩ } ∧
      (tcpTransmitSkb env s y seq).2.1 = y.withHeader { hdr with seq, ackSeq := s.tcb.rcvNxt } := by
  have hfill : tcpFillHeader s y seq = { hdr with seq, ackSeq := s.tcb.rcvNxt } := by
    unfold tcpFillHeader
    rw [hth]
    dsimp only
    rw [if_neg hhl]
  unfold tcpTransmitSkb
  rw [hfill, tcpFillOptions_noSack hsack]
  exact ⟨rfl, rfl⟩

theorem hl_tcpSynHeader (s : TcpSock) (ack : Bool) : (tcpSynHeader s ack).hl ≠ 0 := by
  change tcpDoffset + _ ≠ 0
  unfold tcpDoffset
  omega

/-- The control block of a socket that connects. -/
def TcpSock.starting (s : TcpSock) (iss : UInt32) : TcpSock :=
  { s with
    tcb.iss := iss, tcb.sndUna := iss, tcb.sndNxt := iss, tcb.rcvNxt := 0
    tcb.rcvWnd := tcpSelectInitialWindow }

/-- The socket that `tcp_send_syn` transmits from. -/
def TcpSock.sending (s : TcpSock) : TcpSock :=
  { s with
    nextAddr := s.nextAddr + 1, state := .synSent
    retransmit := some (timerAdd s (tcpSynBackoff * 2 ^ s.backoff) .tcpConnectRto)
    rtoCalls := s.rtoCalls ++ [.timerRelease] ++
      [.timerAdd (tcpSynBackoff * 2 ^ s.backoff) .tcpConnectRto] }

/-- The SYN that `tcp_send_syn` builds. -/
def TcpSock.synBuf (s : TcpSock) : SkBuff where
  addr := s.nextAddr
  tag := none
  th := tcpSynHeader s false
  payload := []
  seq := 0
  endSeq := 0

theorem tcpQueueTransmitSkb_first (hq : s.writeQueue = []) (h0 : s.inflight = 0) (skb : SkBuff) :
    tcpQueueTransmitSkb env s skb = tcpQueueTransmitNow env (tcpRearmRtoTimer s) skb := by
  have h0' : (tcpRearmRtoTimer s).inflight = 0 :=
    (congrArg SndView.inflight (snd_tcpRearmRtoTimer s)).trans h0
  unfold tcpQueueTransmitSkb
  dsimp only
  rw [if_pos hq, if_pos h0']

theorem tcpSendSyn_of_closed (hst : s.state = .close) (hq : s.writeQueue = [])
    (h0 : s.inflight = 0) : tcpSendSyn env s = (tcpQueueTransmitNow env s.sending s.synBuf).1 := by
  have hrearm : tcpRearmRtoTimer { s with nextAddr := s.nextAddr + 1, state := .synSent } =
      s.sending := rfl
  have hfirst := @tcpQueueTransmitSkb_first env
    { s with nextAddr := s.nextAddr + 1, state := .synSent } hq h0 s.synBuf
  rw [hrearm] at hfirst
  rw [← hfirst]
  exact if_neg fun hc => hc.2.1 hst

/-- The SYN as it waits for its acknowledgement. -/
def TcpSock.synSent (s : TcpSock) (iss : UInt32) : SkBuff where
  addr := s.nextAddr
  tag := none
  th := { tcpSynHeader s false with seq := iss, ackSeq := 0 }
  payload := []
  seq := iss
  endSeq := iss + UInt32.ofNat 0

theorem tcpSendSyn_starting (h : Closed s) (iss : UInt32) :
    tcpSendSyn env (s.starting iss) = { (s.starting iss).sending with
      writeQueue := s.writeQueue ++ [s.synSent iss]
      queued := s.queued ++ [s.synSent iss]
      inflight := s.inflight + 1
      tcb.sndNxt := iss + UInt32.ofNat 0
      out := s.out ++ [{
        addr := s.nextAddr, tag := none
        seg := ⟨{ tcpSynHeader s false with seq := iss, ackSeq := 0 }, []⟩ }] } := by
  obtain ⟨hsent, hskb⟩ : _ ∧ _ :=
    @tcpTransmitSkb_syn env (s.starting iss).sending h.sacks s.synBuf (tcpSynHeader s false)
      (hl_tcpSynHeader s false) 0 0 rfl (s.starting iss).sending.tcb.sndNxt
  have hsyn : tcpSendSyn env (s.starting iss) =
      (tcpQueueTransmitNow env (s.starting iss).sending s.synBuf).1 :=
    tcpSendSyn_of_closed h.state h.writeQueue h.inflight
  rw [hsyn]
  unfold tcpQueueTransmitNow
  dsimp only
  rw [hsent, hskb]
  rfl

/-- **A closed socket connects.** -/
theorem Closed.connect (h : Closed s) (iss : UInt32) :
    Connecting (inetStreamConnect env s iss) ∧
      (inetStreamConnect env s iss).settled = { s.settled with iss } := by
  have heq : inetStreamConnect env s iss = { tcpSendSyn env (s.starting iss) with
      tcb.sndNxt := (tcpSendSyn env (s.starting iss)).tcb.sndNxt + 1, err := eInprogress } :=
    if_neg (not_not.2 h.state)
  rw [heq, tcpSendSyn_starting h]
  refine ⟨⟨rfl, rfl, ?_, ⟨s.synSent iss, ?_, ⟨0, rfl⟩, rfl, rfl, UInt32.add_zero iss⟩, ?_, ?_, ?_,
    h.fec, h.sacks⟩, rfl⟩
  · exact congrArg (· + 1) (UInt32.add_zero iss)
  · change s.writeQueue ++ _ = _
    rw [h.writeQueue]
    rfl
  · change s.inflight + 1 = 1
    rw [h.inflight]
  · intro harmed
    have hold := h.timer
    unfold TcpSock.rtoArmed at harmed hold
    rw [mem_timers] at harmed hold
    rcases harmed with ⟨t, ht, hh⟩ | hother
    · rw [← Option.some.inj ht] at hh
      cases hh
    · exact hold (.inr hother)
  · intro t ht hsyn
    rcases List.mem_append.mp ht with ht | ht
    · rw [h.out t ht] at hsyn
      cases hsyn
    · rw [List.mem_singleton.mp ht]
      exact ⟨0, rfl⟩

/-! ## Calls that change nothing -/

/-- The call leaves the connection where it was. -/
structure SameConn (s s' : TcpSock) : Prop extends Quiet s s' where
  state : s'.state = s.state
  tcb : s'.tcb = s.tcb
  sacks : s'.sacks = s.sacks

theorem SameConn.refl (s : TcpSock) : SameConn s s := ⟨.refl s, rfl, rfl, rfl⟩

theorem SameConn.trans {s'' : TcpSock} (h : SameConn s s') (h' : SameConn s' s'') :
    SameConn s s'' :=
  ⟨h.toQuiet.trans h'.toQuiet, h'.state.trans h.state, h'.tcb.trans h.tcb, h'.sacks.trans h.sacks⟩

theorem sameConn_tcpReceiveReturn (s : TcpSock) (got : List UInt8) :
    SameConn s (tcpReceiveReturn s got).1 := by
  have hq := quiet_tcpReceiveReturn s got
  unfold tcpReceiveReturn tcpRearmUserTimeout at hq ⊢
  dsimp only at hq ⊢
  split at hq
  · next hst =>
    rw [if_pos hst]
    exact .refl s
  · next hst =>
    rw [if_neg hst]
    exact ⟨hq, rfl, rfl, rfl⟩

theorem sameConn_tcpReceiveStep (s : TcpSock) (rd : Reader) :
    SameConn s (tcpReceiveStep s rd).1 := by
  have hread : SameConn s (tcpDataDequeue s rd.room).1 :=
    ⟨.of_eq _ rfl rfl rfl rfl rfl rfl rfl, rfl, rfl, rfl⟩
  unfold tcpReceiveStep
  dsimp only
  generalize tcpDataDequeue s rd.room = d at hread
  split
  · exact sameConn_tcpReceiveReturn s _
  · split
    · refine hread.trans (SameConn.trans ?_ (sameConn_tcpReceiveReturn _ _))
      exact ⟨.of_eq _ rfl rfl rfl rfl rfl rfl rfl, rfl, rfl, rfl⟩
    · split
      · exact hread.trans (sameConn_tcpReceiveReturn _ _)
      · split
        · split
          · exact hread
          · exact hread.trans (sameConn_tcpReceiveReturn _ _)
        · exact hread

theorem snd_tcpReceiveReturn (s : TcpSock) (got : List UInt8) :
    (tcpReceiveReturn s got).1.snd = s.snd := snd_tcpRearmUserTimeout s

theorem snd_tcpReceiveStep (s : TcpSock) (rd : Reader) : (tcpReceiveStep s rd).1.snd = s.snd := by
  unfold tcpReceiveStep
  dsimp only
  split
  · exact snd_tcpReceiveReturn s _
  · split
    · exact snd_tcpReceiveReturn _ _
    · split
      · exact snd_tcpReceiveReturn _ _
      · split
        · split
          · rfl
          · exact snd_tcpReceiveReturn _ _
        · rfl

theorem snd_tcpRead (s : TcpSock) (len : ℕ) : (tcpRead s len).1.snd = s.snd := by
  unfold tcpRead
  cases s.state with
  | closeWait =>
    dsimp only
    split
    · rfl
    · exact snd_tcpReceiveStep s _
  | close | closing | lastAck | timeWait => rfl
  | _ => exact snd_tcpReceiveStep s _

/-- A segment without a SYN goes out, and no SACK block with it. -/
theorem sameConn_tcpTransmitSkb (h : s.NoSack) {skb : SkBuff} (hsyn : skb.th.syn = false)
    (seq : UInt32) : SameConn s (tcpTransmitSkb env s skb seq).1 := by
  have hq : Quiet s (tcpTransmitSkb env s skb seq).1 := quiet_tcpTransmitSkb s hsyn seq
  unfold tcpTransmitSkb at hq ⊢
  rw [tcpFillOptions_noSack h] at hq ⊢
  exact ⟨hq, rfl, rfl, rfl⟩

theorem sameConn_tcpSendAck (h : s.NoSack) : SameConn s (tcpSendAck env s) := by
  unfold tcpSendAck
  split
  · exact .refl s
  · refine SameConn.trans ?_ (@sameConn_tcpTransmitSkb env _ ?_ _ rfl _)
    · exact ⟨.of_eq _ rfl rfl rfl rfl rfl rfl rfl, rfl, rfl, rfl⟩
    · exact h

theorem sameConn_tcpSendDelack (h : s.NoSack) : SameConn s (tcpSendDelack env s) := by
  unfold tcpSendDelack
  refine SameConn.trans ?_ (sameConn_tcpSendAck h)
  exact ⟨⟨id, fun h => ⟨h.early, h.transfers⟩, rfl, .inl rfl, sameTimer_none _, .inl rfl, [],
    (List.append_nil _).symm, nofun⟩, rfl, rfl, rfl⟩

theorem sameConn_tcpReleaseRtoTimer (s : TcpSock) : SameConn s (tcpReleaseRtoTimer s) :=
  ⟨⟨id, fun h => ⟨h.early, h.transfers⟩, rfl, sameTimer_none _, .inl rfl, .inl rfl, [],
    (List.append_nil _).symm, nofun⟩, rfl, rfl, rfl⟩

theorem quiet_linger (s : TcpSock) : Quiet s { s with linger := none } :=
  ⟨id, fun h => ⟨h.early, h.transfers⟩, rfl, .inl rfl, .inl rfl, sameTimer_none _, [],
    (List.append_nil _).symm, nofun⟩

theorem not_writable_of_early (h : s.state.early) : ¬ s.writable := by
  unfold TcpSock.writable
  intro hw
  rw [Bool.and_eq_true, Bool.or_eq_true, beq_iff_eq, beq_iff_eq, beq_iff_eq] at hw
  rcases hw.2 with hst | hst
  · rw [hst] at h
    cases h
  · rw [hst] at h
    cases h

theorem tcpStep_write_of_not (h : ¬ s.writable) (buf : List UInt8) :
    tcpStep env s (.write buf) = s := by
  change (tcpWrite env s buf).1 = s
  rw [tcpWrite_eq, if_neg h]

theorem tcpStep_timer {handler : TimerHandler} (h : handler ∈ s.timers) :
    tcpStep env s (.timer handler) = handler.run env s := if_pos h

theorem tcpStep_timer_of_not {handler : TimerHandler} (h : handler ∉ s.timers) :
    tcpStep env s (.timer handler) = s := if_neg h

/-! ## Events of a closed socket -/

/-- A call leaves a closed socket closed, or ends it. -/
theorem Closed.of_quiet (h : Closed s) (hq : Quiet s s')
    (hst : s'.state = .close ∧ s'.sacks = s.sacks ∨ s'.state.opened) :
    (Closed s' ∨ Opened s') ∧ s'.settled = s.settled ∧ NoNewSyn s s' := by
  have hfec := hq.fec h.fecResolved
  rcases hst with ⟨hst, hsacks⟩ | hst
  · obtain ⟨ts, hout, hts⟩ := hq.out
    refine ⟨.inl ⟨hst, ?_, ?_, fun harmed => h.timer (hq.rtoArmed harmed), fun t ht => ?_, ?_, ?_⟩,
      congrArg HsView.settled hq.hs, .append s' hout hts⟩
    · exact (congrArg HsView.writeQueue hq.hs).trans h.writeQueue
    · exact (congrArg HsView.inflight hq.hs).trans h.inflight
    · rw [hout] at ht
      rcases List.mem_append.mp ht with ht | ht
      · exact h.out t ht
      · exact hts t ht
    · exact hfec.early (by rw [hst]; rfl)
    · unfold TcpSock.NoSack
      rw [hsacks]
      exact h.sacks
  · obtain ⟨hopen, hrest⟩ := Opened.of_quiet h.synKept h.fecResolved hq hst
    exact ⟨.inr hopen, hrest⟩

theorem Closed.of_same (h : Closed s) (hs : SameConn s s') :
    (Closed s' ∨ Opened s') ∧ s'.settled = s.settled ∧ NoNewSyn s s' :=
  h.of_quiet hs.toQuiet (.inl ⟨hs.state.trans h.state, hs.sacks⟩)

/-- **An event of a closed socket** other than the call of `connect`. -/
theorem Closed.step (h : Closed s) {e : TcpEvent} (he : ∀ iss, e ≠ .connect iss) :
    (Closed (tcpStep env s e) ∨ Opened (tcpStep env s e)) ∧
      (tcpStep env s e).settled = s.settled ∧ NoNewSyn s (tcpStep env s e) := by
  have hst := h.state
  have hdone : ∀ s₁ : TcpSock, Quiet s s₁ →
      (Closed (tcpDone s₁) ∨ Opened (tcpDone s₁)) ∧ (tcpDone s₁).settled = s.settled ∧
        NoNewSyn s (tcpDone s₁) :=
    fun s₁ hq => h.of_quiet (hq.trans (quiet_tcpDone s₁)) (.inr rfl)
  cases e with
  | connect iss => exact absurd rfl (he iss)
  | arrive seg =>
    have hin : tcpStep env s (.arrive seg) = tcpClosed env s seg.th := by
      change tcpInputState env s (tcpInitSegment seg) = _
      unfold tcpInputState
      rw [hst]
      rfl
    rw [hin]
    unfold tcpClosed
    split
    · exact h.of_same (.refl s)
    · refine h.of_quiet (quiet_tcpSendReset s) (.inl ⟨?_, ?_⟩)
      · exact (state_eq_of_rcv (rcv_tcpSendReset env s)).trans hst
      · exact (sameConn_tcpTransmitSkb
          (s := { s with nextAddr := s.nextAddr + 1, tcb.sndUna := s.tcb.sndNxt }) h.sacks rfl _).sacks
  | write buf =>
    rw [tcpStep_write_of_not (not_writable_of_early (by rw [hst]; rfl))]
    exact h.of_same (.refl s)
  | read len =>
    have hread : tcpStep env s (.read len) = s := by
      change (tcpRead s len).1 = s
      unfold tcpRead
      rw [hst]
    rw [hread]
    exact h.of_same (.refl s)
  | wake rd => exact h.of_same (sameConn_tcpReceiveStep s rd)
  | close =>
    have hclose : tcpStep env s .close = { s with err := eBadf } := by
      change tcpClose env s = _
      unfold tcpClose
      rw [hst]
    rw [hclose]
    refine h.of_same ?_
    exact ⟨.of_eq _ rfl rfl rfl rfl rfl rfl rfl, rfl, rfl, rfl⟩
  | abort => exact hdone _ (quiet_tcpSendReset s)
  | timer handler =>
    by_cases hrun : handler ∈ s.timers
    · rw [tcpStep_timer hrun]
      cases handler with
      | tcpConnectRto =>
        refine h.of_same ?_
        change SameConn s (tcpConnectRto env s)
        unfold tcpConnectRto
        rw [if_neg (by rw [show (tcpReleaseRtoTimer s).state = .close from hst]; nofun)]
        exact sameConn_tcpReleaseRtoTimer s
      | tcpRetransmissionTimeout => exact absurd hrun h.timer
      | tcpSendDelack => exact h.of_same (sameConn_tcpSendDelack h.sacks)
      | tcpLinger => exact hdone _ (quiet_linger s)
      | tcpUserTimeout => exact hdone _ ((quiet_linger s).trans (quiet_tcpSendReset _))
    · rw [tcpStep_timer_of_not hrun]
      exact h.of_same (.refl s)
  | tick ms =>
    refine h.of_same ?_
    exact ⟨.of_eq _ rfl rfl rfl rfl rfl rfl rfl, rfl, rfl, rfl⟩

/-! ## Events in SYN_SENT -/

theorem synAt_congr (hset : s'.settled = s.settled) (ackSeq : UInt32) :
    s'.synAt ackSeq = s.synAt ackSeq := by
  have hiss : s'.tcb.iss = s.tcb.iss := congrArg Settled.iss hset
  have hsack : s'.sackok = s.sackok := congrArg Settled.sackok hset
  have hfec : s'.fecok = s.fecok := congrArg Settled.fecok hset
  have hrmss : s'.rmss = s.rmss := congrArg Settled.rmss hset
  unfold TcpSock.synAt tcpSynHeader tcpSynOptions
  rw [hiss, hsack, hfec, hrmss]

theorem IsSyn.congr {y : SkBuff} (h : IsSyn s y) (hset : s'.settled = s.settled) : IsSyn s' y := by
  have hiss : s'.tcb.iss = s.tcb.iss := congrArg Settled.iss hset
  obtain ⟨ackSeq, hth⟩ := h.th
  refine ⟨⟨ackSeq, ?_⟩, h.payload, ?_, ?_⟩
  · rw [synAt_congr hset]
    exact hth
  · rw [hiss]
    exact h.seq
  · rw [hiss]
    exact h.endSeq

theorem SynsOf.congr {out : List Transmission} (h : SynsOf s out) (hset : s'.settled = s.settled) :
    SynsOf s' out := by
  intro t ht hsyn
  obtain ⟨ackSeq, hseg⟩ := h t ht hsyn
  exact ⟨ackSeq, by rw [hseg, synAt_congr hset]⟩

theorem SynsOf.append {out ts : List Transmission} (h : SynsOf s out) (hts : SynsOf s ts) :
    SynsOf s (out ++ ts) := by
  intro t ht
  rcases List.mem_append.mp ht with ht | ht
  · exact h t ht
  · exact hts t ht

theorem Connecting.of_same (h : Connecting s) (hs : SameConn s s') : Connecting s' := by
  have hset : s'.settled = s.settled := congrArg HsView.settled hs.hs
  have hq : s'.writeQueue = s.writeQueue := congrArg HsView.writeQueue hs.hs
  have hn : s'.inflight = s.inflight := congrArg HsView.inflight hs.hs
  obtain ⟨ts, hout, hts⟩ := hs.out
  obtain ⟨y, hy, hsyn⟩ := h.queue
  have hst : s'.state = .synSent := hs.state.trans h.state
  refine ⟨hst, ?_, ?_, ⟨y, hq.trans hy, hsyn.congr hset⟩, hn.trans h.inflight,
    fun harmed => h.timer (hs.rtoArmed harmed), ?_, ?_, ?_⟩
  · rw [hs.tcb]
    exact h.sndUna
  · rw [hs.tcb]
    exact h.sndNxt
  · rw [hout]
    refine (h.out.append fun t ht hsyn => ?_).congr hset
    rw [hts t ht] at hsyn
    cases hsyn
  · exact (hs.fec h.fecResolved).early (by rw [hst]; rfl)
  · unfold TcpSock.NoSack
    rw [hs.sacks]
    exact h.sacks

/-- The socket after its SYN has gone out once more. -/
def TcpSock.resent (s : TcpSock) (y : SkBuff) : TcpSock :=
  let expire := tcpSynBackoff * 2 ^ ((s.backoff + 1) % 256)
  { s with
    backoff := (s.backoff + 1) % 256
    writeQueue := [y.withHeader (s.synAt s.tcb.rcvNxt)]
    retransmit := some (timerAdd s expire .tcpConnectRto)
    rtoCalls := s.rtoCalls ++ [.timerRelease] ++ [.timerRelease] ++
      [.timerAdd expire .tcpConnectRto]
    out := s.out ++ [{
      addr := y.addr, tag := y.tag, seg := ⟨s.synAt s.tcb.rcvNxt, y.payload⟩ }] }

theorem Connecting.resent (h : Connecting s) {y : SkBuff} (hsyn : IsSyn s y) :
    Connecting (s.resent y) := by
  refine { h with queue := ⟨_, rfl, ⟨_, rfl⟩, hsyn.payload, hsyn.seq, hsyn.endSeq⟩
                  timer := fun harmed => ?_, out := ?_ }
  · have hold := h.timer
    unfold TcpSock.rtoArmed at harmed hold
    rw [mem_timers] at harmed hold
    rcases harmed with ⟨t, ht, hh⟩ | hother
    · rw [← Option.some.inj ht] at hh
      exact TimerHandler.noConfusion hh
    · exact hold (.inr hother)
  · refine h.out.append fun t ht _ => ?_
    rw [List.mem_singleton.mp ht]
    exact ⟨s.tcb.rcvNxt, by rw [hsyn.payload]⟩

theorem tcpConnectRto_resent (h : Connecting s) {y : SkBuff} (hq : s.writeQueue = [y])
    (hsyn : IsSyn s y) (hretry : ¬ tcpConnRetries < s.backoff) :
    tcpConnectRto env s = s.resent y := by
  obtain ⟨ackSeq, hth⟩ := hsyn.th
  obtain ⟨hsent, hskb⟩ : _ ∧ _ :=
    @tcpTransmitSkb_syn env (tcpReleaseRtoTimer s) h.sacks y (tcpSynHeader s false)
      (hl_tcpSynHeader s false) s.tcb.iss ackSeq hth (tcpReleaseRtoTimer s).tcb.sndUna
  have huna : (tcpReleaseRtoTimer s).tcb.sndUna = s.tcb.iss := h.sndUna
  have hst : (tcpReleaseRtoTimer s).state = .synSent := h.state
  have hq' : (tcpReleaseRtoTimer s).writeQueue = [y] := hq
  have hretry' : ¬ tcpConnRetries < (tcpReleaseRtoTimer s).backoff := hretry
  unfold tcpConnectRto
  dsimp only
  rw [if_pos hst, if_neg hretry', hq']
  dsimp only
  rw [hsent, hskb, huna]
  unfold tcpRearmRtoTimer
  exact if_pos hst

/-- **The timer of the SYN expires.** -/
theorem Connecting.connectRto (h : Connecting s) :
    (Connecting (tcpConnectRto env s) ∧ (tcpConnectRto env s).settled = s.settled) ∨
      (tcpConnectRto env s).state = .closing ∧ Opened (tcpConnectRto env s) ∧
        (tcpConnectRto env s).settled = s.settled ∧ NoNewSyn s (tcpConnectRto env s) := by
  obtain ⟨y, hq, hsyn⟩ := h.queue
  have hst : (tcpReleaseRtoTimer s).state = .synSent := h.state
  have hrel := sameConn_tcpReleaseRtoTimer s
  by_cases hretry : tcpConnRetries < s.backoff
  · right
    have hretry' : tcpConnRetries < (tcpReleaseRtoTimer s).backoff := hretry
    have herr : Quiet (tcpReleaseRtoTimer s) { tcpReleaseRtoTimer s with err := eTimedout } :=
      .of_eq _ rfl rfl rfl rfl rfl rfl rfl
    unfold tcpConnectRto
    dsimp only
    rw [if_pos hst, if_pos hretry']
    exact ⟨rfl, Opened.of_quiet h.synKept h.fecResolved
      ((hrel.toQuiet.trans herr).trans (quiet_tcpDone _)) rfl⟩
  · left
    rw [tcpConnectRto_resent h hq hsyn hretry]
    exact ⟨h.resent hsyn, rfl⟩

/-! ## Accepting a SYN -/

/-- The options that a header carries. -/
def Tcphdr.opts (th : Tcphdr) : TcpParsedOpts :=
  tcpWalkOptions th.data (tcpOptAreaLen th) .zero

theorem exists_tcpParseOpts (s : TcpSock) (th : Tcphdr) :
    ∃ smss tsopt sacksAllowed, tcpParseOpts s th = { s with
      smss, tsopt, sacksAllowed
      sackok := if th.opts.sackOk ∧ s.sackok ≠ 0 then s.sackok else 0
      fecok := if th.opts.fecPerm ∧ s.fecok ≠ 0 then 1 else 0 } := by
  have happly : ∀ opts : TcpParsedOpts, ∃ smss tsopt sacksAllowed, tcpApplyOpts s opts = { s with
      smss, tsopt, sacksAllowed
      sackok := if opts.sackOk ∧ s.sackok ≠ 0 then s.sackok else 0
      fecok := if opts.fecPerm ∧ s.fecok ≠ 0 then 1 else 0 } := by
    intro opts
    refine ⟨if opts.mss ≠ 0 then opts.mss else s.smss, if opts.tsSeen then s.tsopt else 0, ?_⟩
    unfold tcpApplyOpts
    dsimp only
    split_ifs <;> exact ⟨_, rfl⟩
  exact happly _

/-- What is settled when a SYN with the header `th` is accepted. -/
def TcpSock.agreed (s : TcpSock) (th : Tcphdr) : Settled :=
  { s.settled with
    irs := th.seq
    sackok := if th.opts.sackOk ∧ s.sackok ≠ 0 then s.sackok else 0
    fecok := if th.opts.fecPerm ∧ s.fecok ≠ 0 then 1 else 0 }

/-- A socket that has seen an acceptable SYN, before it has read the options. -/
structure Seen (s : TcpSock) (th : Tcphdr) (s' : TcpSock) : Prop where
  syn : SynKept s'
  settled : s'.settled = { s.settled with irs := th.seq }
  new : NoNewSyn s s'
  fec : s'.fec.isSome = false

theorem Connecting.seen (h : Connecting s) (th : Tcphdr) : Seen s th (tcpSynsentAcked s th) := by
  have hset : SynKept { s with tcb.rcvNxt := th.seq + 1, tcb.irs := th.seq } :=
    ⟨h.synKept.first, h.synKept.timer⟩
  unfold tcpSynsentAcked
  dsimp only
  split
  · have hf := follows_tcpCleanRtoQueue
      { s with tcb.rcvNxt := th.seq + 1, tcb.irs := th.seq, tcb.sndUna := th.ackSeq } th.ackSeq
    have hfec : (tcpCleanRtoQueue { s with
        tcb.rcvNxt := th.seq + 1, tcb.irs := th.seq, tcb.sndUna := th.ackSeq } th.ackSeq).fec =
          s.fec := congrArg RcvView.fec (rcv_tcpCleanRtoQueue _ _)
    obtain ⟨hk, hnew⟩ := hf.syn ⟨hset.first, hset.timer⟩
    exact ⟨hk, hf.settled, hnew, by rw [hfec]; exact h.fec⟩
  · exact ⟨hset, rfl, .of_eq _ rfl, h.fec⟩

theorem Seen.quiet {th : Tcphdr} {s'' : TcpSock} (h : Seen s th s') (hq : Quiet s' s'')
    (hfec : s''.fec = s'.fec) : Seen s th s'' := by
  obtain ⟨hk, hnew⟩ := hq.follows.syn h.syn
  exact ⟨hk, (congrArg HsView.settled hq.hs).trans h.settled, h.new.trans hnew,
    by rw [hfec]; exact h.fec⟩

/-- **The options are read.** -/
theorem Seen.parse {th : Tcphdr} (h : Seen s th s') :
    SynKept (tcpParseOpts s' th) ∧ (tcpParseOpts s' th).settled = s.agreed th ∧
      NoNewSyn s (tcpParseOpts s' th) ∧ (tcpParseOpts s' th).fec.isSome = false ∧
        (tcpParseOpts s' th).state = s'.state := by
  obtain ⟨smss, tsopt, sacksAllowed, heq⟩ := exists_tcpParseOpts s' th
  have hsack : s'.sackok = s.sackok := congrArg Settled.sackok h.settled
  have hfecok : s'.fecok = s.fecok := congrArg Settled.fecok h.settled
  have hset := h.settled
  rw [heq]
  refine ⟨⟨h.syn.first, h.syn.timer⟩, ?_, h.new, h.fec, rfl⟩
  unfold TcpSock.agreed
  rw [← hsack, ← hfecok]
  exact congrArg (fun v : Settled => { v with
    sackok := if th.opts.sackOk ∧ s'.sackok ≠ 0 then s'.sackok else 0
    fecok := if th.opts.fecPerm ∧ s'.fecok ≠ 0 then 1 else 0 }) hset

/-- The handshake is over: FEC is turned on if it has been agreed on. -/
theorem opened_established (hk : SynKept s) (hst : s.state = .established)
    (hfec : s.fec.isSome = false) :
    Opened (sockConnected (tcpFecResolve s)) ∧
      (sockConnected (tcpFecResolve s)).settled = s.settled ∧
        (sockConnected (tcpFecResolve s)).out = s.out := by
  have hopen : s.state.opened := by rw [hst]; rfl
  have hlate : ¬ s.state.early := by rw [hst]; nofun
  rw [tcpFecResolve_eq]
  split
  · next hok =>
    exact ⟨⟨hopen, ⟨hk.first, hk.timer⟩, fun h => absurd h hlate, fun _ => iff_of_true rfl hok⟩,
      rfl, rfl⟩
  · next hok =>
    refine ⟨⟨hopen, ⟨hk.first, hk.timer⟩, fun h => absurd h hlate, fun _ => ?_⟩, rfl, rfl⟩
    refine iff_of_false ?_ hok
    change ¬ s.fec.isSome = true
    rw [hfec]
    nofun

/-- **A SYN of the peer is accepted.** -/
theorem Connecting.accept (h : Connecting s) (th : Tcphdr) :
    Opened (tcpSynsentSyn env s th) ∧ (tcpSynsentSyn env s th).settled = s.agreed th ∧
      NoNewSyn s (tcpSynsentSyn env s th) := by
  have hseen := h.seen th
  rw [tcpSynsentSyn_eq]
  dsimp only
  generalize tcpSynsentAcked s th = s₁ at hseen
  split
  · have hest : Seen s th { s₁ with
        state := .established, tcb.sndUna := s₁.tcb.sndNxt, backoff := 0, rto := 1000 } :=
      ⟨⟨hseen.syn.first, hseen.syn.timer⟩, hseen.settled, hseen.new, hseen.fec⟩
    have hst : TcpSock.state { s₁ with
        state := .established, tcb.sndUna := s₁.tcb.sndNxt, backoff := 0, rto := 1000 } =
        .established := rfl
    generalize ({ s₁ with
        state := .established, tcb.sndUna := s₁.tcb.sndNxt, backoff := 0, rto := 1000 } :
        TcpSock) = s₂ at hest hst
    have hrcv : (tcpRearmUserTimeout (tcpSendAck env s₂)).rcv = s₂.rcv := by
      rw [rcv_tcpRearmUserTimeout, rcv_tcpSendAck]
    have hquiet : Quiet s₂ (tcpRearmUserTimeout (tcpSendAck env s₂)) :=
      (quiet_tcpSendAck s₂).trans (quiet_tcpRearmUserTimeout _)
    have hst₃ : (tcpRearmUserTimeout (tcpSendAck env s₂)).state = .established :=
      (state_eq_of_rcv hrcv).trans hst
    have hacked := hest.quiet hquiet (congrArg RcvView.fec hrcv)
    generalize tcpRearmUserTimeout (tcpSendAck env s₂) = s₃ at hacked hst₃
    obtain ⟨hk, hset, hnew, hfec, hst₄⟩ := hacked.parse
    rw [hst₃] at hst₄
    generalize tcpParseOpts s₃ th = s₄ at hk hset hnew hfec hst₄
    obtain ⟨hopen, hset₅, hout⟩ := opened_established hk hst₄ hfec
    exact ⟨hopen, hset₅.trans hset, hnew.trans (.of_eq _ hout)⟩
  · have hrcvd : Seen s th { s₁ with state := .synReceived, tcb.sndUna := s₁.tcb.iss } :=
      ⟨⟨hseen.syn.first, hseen.syn.timer⟩, hseen.settled, hseen.new, hseen.fec⟩
    obtain ⟨hk, hset, hnew, hfec, hst⟩ := hrcvd.parse
    generalize tcpParseOpts { s₁ with state := .synReceived, tcb.sndUna := s₁.tcb.iss } th = s₂
      at hk hset hnew hfec hst
    have hst : s₂.state = .synReceived := hst
    rw [tcpSendSynack_of_ne env (by rw [hst]; decide)]
    refine ⟨⟨by rw [hst]; rfl, hk, fun _ => hfec, fun htrans => ?_⟩, hset, hnew⟩
    rw [hst] at htrans
    cases htrans

/-- **A segment in SYN_SENT**: it is ignored, it resets the connection, or it is a SYN that is
accepted. -/
theorem Connecting.arrive (h : Connecting s) (th : Tcphdr) :
    tcpSynsent env s th = s ∨ tcpSynsent env s th = tcpDone { s with err := eConnrefused } ∨
      th.syn ∧ tcpSynsent env s th = tcpSynsentSyn env s th := by
  unfold tcpSynsent
  split
  · exact .inl rfl
  · split
    · exact .inl rfl
    · split
      · refine .inr (.inl ?_)
        unfold tcpReset
        rw [h.state]
      · split
        · exact .inl rfl
        · next hsyn => exact .inr (.inr ⟨not_not.mp hsyn, rfl⟩)

/-- **An event in SYN_SENT**: the socket stays there, the attempt ends, or a SYN is accepted. -/
theorem Connecting.step (h : Connecting s) (e : TcpEvent) :
    (Connecting (tcpStep env s e) ∧ (tcpStep env s e).settled = s.settled) ∨
      ((tcpStep env s e).state = .closing ∧ Opened (tcpStep env s e) ∧
        (tcpStep env s e).settled = s.settled ∧ NoNewSyn s (tcpStep env s e)) ∨
      ∃ seg, e = .arrive seg ∧ seg.th.syn ∧ tcpStep env s e = tcpSynsentSyn env s seg.th ∧
        Opened (tcpStep env s e) ∧ (tcpStep env s e).settled = s.agreed seg.th ∧
          NoNewSyn s (tcpStep env s e) := by
  have hst := h.state
  have hsame : ∀ {s₁ : TcpSock}, SameConn s s₁ → Connecting s₁ ∧ s₁.settled = s.settled :=
    fun hs => ⟨h.of_same hs, congrArg HsView.settled hs.hs⟩
  have hdone : ∀ s₁ : TcpSock, Quiet s s₁ →
      (tcpDone s₁).state = .closing ∧ Opened (tcpDone s₁) ∧ (tcpDone s₁).settled = s.settled ∧
        NoNewSyn s (tcpDone s₁) :=
    fun s₁ hq => ⟨rfl, Opened.of_quiet h.synKept h.fecResolved (hq.trans (quiet_tcpDone s₁)) rfl⟩
  cases e with
  | connect iss =>
    have hcon : tcpStep env s (.connect iss) = { s with err := eIsconn } :=
      if_pos (by rw [hst]; nofun)
    rw [hcon]
    refine .inl (hsame ?_)
    exact ⟨.of_eq _ rfl rfl rfl rfl rfl rfl rfl, rfl, rfl, rfl⟩
  | arrive seg =>
    have hin : tcpStep env s (.arrive seg) = tcpSynsent env s seg.th := by
      change tcpInputState env s (tcpInitSegment seg) = _
      unfold tcpInputState
      rw [hst]
      rfl
    rw [hin]
    rcases @Connecting.arrive env s h seg.th with heq | heq | ⟨hsyn, heq⟩
    · rw [heq]
      exact .inl ⟨h, rfl⟩
    · rw [heq]
      refine .inr (.inl (hdone _ ?_))
      exact .of_eq _ rfl rfl rfl rfl rfl rfl rfl
    · refine .inr (.inr ⟨seg, rfl, hsyn, heq, ?_⟩)
      rw [heq]
      exact h.accept seg.th
  | write buf =>
    rw [tcpStep_write_of_not (not_writable_of_early (by rw [hst]; rfl))]
    exact .inl ⟨h, rfl⟩
  | read len =>
    have hread : tcpStep env s (.read len) = (tcpReceiveStep s { got := [], room := len }).1 := by
      change (tcpRead s len).1 = _
      unfold tcpRead
      rw [hst]
    rw [hread]
    exact .inl (hsame (sameConn_tcpReceiveStep s _))
  | wake rd => exact .inl (hsame (sameConn_tcpReceiveStep s rd))
  | close =>
    have hclose : tcpStep env s .close = tcpDone s := by
      change tcpClose env s = _
      unfold tcpClose
      rw [hst]
    rw [hclose]
    exact .inr (.inl (hdone s (.refl s)))
  | abort => exact .inr (.inl (hdone _ (quiet_tcpSendReset s)))
  | timer handler =>
    by_cases hrun : handler ∈ s.timers
    · rw [tcpStep_timer hrun]
      cases handler with
      | tcpConnectRto => exact h.connectRto.imp_right .inl
      | tcpRetransmissionTimeout => exact absurd hrun h.timer
      | tcpSendDelack => exact .inl (hsame (sameConn_tcpSendDelack h.sacks))
      | tcpLinger => exact .inr (.inl (hdone _ (quiet_linger s)))
      | tcpUserTimeout =>
        exact .inr (.inl (hdone _ ((quiet_linger s).trans (quiet_tcpSendReset _))))
    · rw [tcpStep_timer_of_not hrun]
      exact .inl ⟨h, rfl⟩
  | tick ms =>
    refine .inl (hsame ?_)
    exact ⟨.of_eq _ rfl rfl rfl rfl rfl rfl rfl, rfl, rfl, rfl⟩

end Phases

end LvlIp.Tcp
