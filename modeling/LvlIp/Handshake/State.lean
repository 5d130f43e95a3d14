import LvlIp.Receive.Ofo
import LvlIp.Send.Alive

/-!
# The handshake and what follows it

A socket leaves SYN_SENT once. What the handshake has settled stays: the two initial sequence
numbers, the options that both sides offered, and whether FEC is on (`Follows`). The SYN is the one
buffer with a sequence number that the stack sends without counting it: as long as it waits for its
acknowledgement it is at the head of the write queue, nothing behind it has been sent, and the
retransmission timer is not running (`SynKept`), so every SYN goes out at `iss`.
-/

namespace LvlIp.Tcp

open Fec

/-! ## The stages of SYN_SENT -/

section Stages

variable (env : Env) {s : TcpSock}

/-- `tcp_parse_opts`, once the options have been read. -/
def tcpApplyOpts (s : TcpSock) (opts : TcpParsedOpts) : TcpSock :=
  let s := if opts.mss ≠ 0 then { s with smss := opts.mss } else s
  let s := if ¬ opts.tsSeen then { s with tsopt := 0 } else s
  let s := if opts.sackOk ∧ s.sackok ≠ 0 then
      { s with sacksAllowed := if s.tsopt ≠ 0 then 3 else 4 }
    else { s with sackok := 0 }
  if opts.fecPerm ∧ s.fecok ≠ 0 then { s with fecok := 1 } else { s with fecok := 0 }

theorem tcpParseOpts_eq (s : TcpSock) (th : Tcphdr) :
    tcpParseOpts s th = tcpApplyOpts s (tcpWalkOptions th.data (tcpOptAreaLen th) .zero) := rfl

/-- A SYN_SENT socket that has seen an acceptable SYN, with what it acknowledges taken off. -/
def tcpSynsentAcked (s : TcpSock) (th : Tcphdr) : TcpSock :=
  let s := { s with tcb.rcvNxt := th.seq + 1, tcb.irs := th.seq }
  if th.ack then tcpCleanRtoQueue { s with tcb.sndUna := th.ackSeq } th.ackSeq else s

theorem tcb_tcpSynsentAcked (s : TcpSock) (th : Tcphdr) :
    (tcpSynsentAcked s th).tcb.iss = s.tcb.iss ∧
      (tcpSynsentAcked s th).tcb.sndUna = if th.ack then th.ackSeq else s.tcb.sndUna := by
  have hclean : ∀ (s : TcpSock) (una : UInt32), (tcpCleanRtoQueue s una).tcb.iss = s.tcb.iss ∧
      (tcpCleanRtoQueue s una).tcb.sndUna = s.tcb.sndUna := fun s una =>
    ⟨congrArg SndView.iss (snd_tcpCleanRtoQueue s una),
      congrArg SndView.sndUna (snd_tcpCleanRtoQueue s una)⟩
  unfold tcpSynsentAcked
  dsimp only
  split
  · exact hclean _ _
  · exact ⟨rfl, rfl⟩

theorem tcpSynsentSyn_eq (s : TcpSock) (th : Tcphdr) :
    tcpSynsentSyn env s th =
      let s := tcpSynsentAcked s th
      if s.tcb.iss < s.tcb.sndUna then
        sockConnected (tcpFecResolve (tcpParseOpts (tcpRearmUserTimeout (tcpSendAck env { s with
          state := .established, tcb.sndUna := s.tcb.sndNxt, backoff := 0, rto := 1000 })) th))
      else tcpSendSynack env (tcpParseOpts { s with
          state := .synReceived, tcb.sndUna := s.tcb.iss } th) := rfl

theorem tcpSendSynack_of_ne (hst : s.state ≠ .synSent) : tcpSendSynack env s = s := if_pos hst

theorem state_tcpParseOpts (s : TcpSock) (th : Tcphdr) : (tcpParseOpts s th).state = s.state :=
  congrArg RcvView.state (rcv_tcpParseOpts s th)

theorem mem_tcpCleanLoop {una : UInt32} {q : List SkBuff} {n : ℕ} {y : SkBuff}
    (h : y ∈ (tcpCleanLoop una q n).1) : y ∈ q := by
  induction q generalizing n with
  | nil => exact h
  | cons skb q ih =>
    unfold tcpCleanLoop at h
    split at h
    · exact List.mem_cons_of_mem _ (ih h)
    · exact h

theorem state_tcpFecResolve (s : TcpSock) : (tcpFecResolve s).state = s.state := by
  obtain ⟨fec, hrcv⟩ := rcv_tcpFecResolve s
  exact congrArg RcvView.state hrcv

end Stages

/-! ## Timers -/

/-- The retransmission timer of an open connection is running. -/
def TcpSock.rtoArmed (s : TcpSock) : Prop := .tcpRetransmissionTimeout ∈ s.timers

/-- The timer is as before, or not one for retransmission. -/
def SameTimer (old new : Option Timer) : Prop :=
  new = old ∨ ∀ t, new = some t → t.handler ≠ .tcpRetransmissionTimeout

theorem SameTimer.trans {t₁ t₂ t₃ : Option Timer} (h : SameTimer t₁ t₂) (h' : SameTimer t₂ t₃) :
    SameTimer t₁ t₃ := by
  rcases h' with rfl | h'
  · exact h
  · exact .inr h'

theorem sameTimer_none (old : Option Timer) : SameTimer old none := .inr nofun

theorem sameTimer_timerAdd (old : Option Timer) (s : TcpSock) (expire : ℕ) {handler : TimerHandler}
    (h : handler ≠ .tcpRetransmissionTimeout) : SameTimer old (some (timerAdd s expire handler)) := by
  refine .inr fun t ht => ?_
  rw [← Option.some.inj ht]
  exact h

theorem mem_timers {s : TcpSock} {handler : TimerHandler} :
    handler ∈ s.timers ↔ (∃ t, s.retransmit = some t ∧ t.handler = handler) ∨
      (∃ t, s.delack = some t ∧ t.handler = handler) ∨
        ∃ t, s.linger = some t ∧ t.handler = handler := by
  simp only [TcpSock.timers, List.mem_map, List.mem_filterMap, id_eq, List.mem_cons,
    List.not_mem_nil, or_false]
  constructor
  · rintro ⟨t, ⟨o, ho | ho | ho, hot⟩, hh⟩
    · exact .inl ⟨t, ho ▸ hot, hh⟩
    · exact .inr (.inl ⟨t, ho ▸ hot, hh⟩)
    · exact .inr (.inr ⟨t, ho ▸ hot, hh⟩)
  · rintro (⟨t, ht, hh⟩ | ⟨t, ht, hh⟩ | ⟨t, ht, hh⟩)
    · exact ⟨t, ⟨_, .inl rfl, ht⟩, hh⟩
    · exact ⟨t, ⟨_, .inr (.inl rfl), ht⟩, hh⟩
    · exact ⟨t, ⟨_, .inr (.inr rfl), ht⟩, hh⟩

/-! ## Calls that leave the handshake alone -/

/-- What the handshake settles, and the MSS that the socket announces. -/
structure Settled where
  iss : UInt32
  irs : UInt32
  sackok : UInt8
  fecok : UInt8
  rmss : UInt16

/-- What the handshake settles, and the MSS that the socket announces. -/
def TcpSock.settled (s : TcpSock) : Settled where
  iss := s.tcb.iss
  irs := s.tcb.irs
  sackok := s.sackok
  fecok := s.fecok
  rmss := s.rmss

/-- What the handshake settles, and the queue of what has not been acknowledged. -/
structure HsView where
  settled : Settled
  writeQueue : List SkBuff
  inflight : ℕ

/-- What the handshake settles, and the queue of what has not been acknowledged. -/
def TcpSock.hs (s : TcpSock) : HsView where
  settled := s.settled
  writeQueue := s.writeQueue
  inflight := s.inflight

/-- The socket has left SYN_SENT. -/
def TcpState.opened : TcpState → Bool
  | .close | .synSent => false
  | _ => true

/-- The states in which data is exchanged. -/
def TcpState.transfers : TcpState → Bool
  | .established | .finWait1 | .finWait2 | .closeWait => true
  | _ => false

/-- FEC is off until the handshake is over, and on where data is exchanged if and only if it has
been agreed on. -/
structure FecResolved (s : TcpSock) : Prop where
  early : s.state.early → s.fec.isSome = false
  transfers : s.state.transfers → (s.fec.isSome ↔ s.fecok ≠ 0)

/-- The connection goes on, no SYN goes out, and no retransmission timer is started. -/
structure Quiet (s s' : TcpSock) : Prop where
  opened : s.state.opened → s'.state.opened
  fec : FecResolved s → FecResolved s'
  hs : s'.hs = s.hs
  retransmit : SameTimer s.retransmit s'.retransmit
  delack : SameTimer s.delack s'.delack
  linger : SameTimer s.linger s'.linger
  out : ∃ ts, s'.out = s.out ++ ts ∧ ∀ t ∈ ts, t.seg.th.syn = false

theorem opened_of_connected {st : TcpState} (h : st.connected) : st.opened := by
  revert h
  cases st <;> decide

theorem not_early_of_connected {st : TcpState} (h : st.connected) : ¬ st.early := by
  revert h
  cases st <;> decide

section Quiet

variable {env : Env} {s s' : TcpSock}

theorem Quiet.refl (s : TcpSock) : Quiet s s :=
  ⟨id, id, rfl, .inl rfl, .inl rfl, .inl rfl, [], (List.append_nil _).symm, nofun⟩

theorem Quiet.trans {s'' : TcpSock} (h : Quiet s s') (h' : Quiet s' s'') : Quiet s s'' := by
  obtain ⟨ts, hout, hsyn⟩ := h.out
  obtain ⟨ts', hout', hsyn'⟩ := h'.out
  refine ⟨h'.opened ∘ h.opened, h'.fec ∘ h.fec, h'.hs.trans h.hs,
    h.retransmit.trans h'.retransmit, h.delack.trans h'.delack, h.linger.trans h'.linger,
    ts ++ ts', ?_, ?_⟩
  · rw [hout', hout, List.append_assoc]
  · intro t ht
    rcases List.mem_append.mp ht with ht | ht
    · exact hsyn t ht
    · exact hsyn' t ht

theorem FecResolved.of_eq (s' : TcpSock) (hearly : s'.state.early → s.state.early)
    (htrans : s'.state.transfers → s.state.transfers) (hfec : s'.fec.isSome = s.fec.isSome)
    (hok : s'.fecok = s.fecok) (h : FecResolved s) : FecResolved s' := by
  refine ⟨fun hs' => ?_, fun hs' => ?_⟩
  · rw [hfec]
    exact h.early (hearly hs')
  · rw [hfec, hok]
    exact h.transfers (htrans hs')

/-- Only fields that the handshake does not use have changed. -/
theorem Quiet.of_eq (s' : TcpSock) (hst : s'.state = s.state)
    (hfec : s'.fec.isSome = s.fec.isSome) (hhs : s'.hs = s.hs) (hr : s'.retransmit = s.retransmit)
    (hd : s'.delack = s.delack) (hl : s'.linger = s.linger) (hout : s'.out = s.out) :
    Quiet s s' := by
  have hok : s'.fecok = s.fecok := congrArg (fun v => v.settled.fecok) hhs
  refine ⟨?_, .of_eq s' ?_ ?_ hfec hok, hhs, .inl hr, .inl hd, .inl hl, [],
    hout.trans (List.append_nil _).symm, nofun⟩
  · rw [hst]
    exact id
  · rw [hst]
    exact id
  · rw [hst]
    exact id

/-- The state of an open connection changes. -/
theorem Quiet.setState {st : TcpState} (hst : st.connected)
    (htrans : st.transfers → s.state.transfers) : Quiet s { s with state := st } :=
  ⟨fun _ => opened_of_connected hst, .of_eq _ (fun h => absurd h (not_early_of_connected hst)) htrans
      rfl rfl, rfl, .inl rfl, .inl rfl, .inl rfl, [],
    (List.append_nil _).symm, nofun⟩

/-- The connection is over. -/
theorem Quiet.over (s' : TcpSock) (hst : s'.state.connected) (htrans : s'.state.transfers = false)
    (hhs : s'.hs = s.hs) (hr : SameTimer s.retransmit s'.retransmit)
    (hd : SameTimer s.delack s'.delack) (hl : SameTimer s.linger s'.linger)
    (hout : s'.out = s.out) : Quiet s s' := by
  refine ⟨fun _ => opened_of_connected hst, fun _ => ⟨fun h => ?_, fun h => ?_⟩, hhs, hr, hd, hl, [],
    hout.trans (List.append_nil _).symm, nofun⟩
  · exact absurd h (not_early_of_connected hst)
  · rw [htrans] at h
    cases h

theorem Quiet.rtoArmed (h : Quiet s s') (harmed : s'.rtoArmed) : s.rtoArmed := by
  have hold : ∀ {old new : Option Timer}, SameTimer old new →
      (∃ t, new = some t ∧ t.handler = .tcpRetransmissionTimeout) →
        ∃ t, old = some t ∧ t.handler = .tcpRetransmissionTimeout := by
    rintro old new (rfl | hne) ⟨t, ht, hh⟩
    · exact ⟨t, ht, hh⟩
    · exact absurd hh (hne t ht)
  unfold TcpSock.rtoArmed at harmed ⊢
  rw [mem_timers] at harmed ⊢
  exact harmed.imp (hold h.retransmit) (Or.imp (hold h.delack) (hold h.linger))

theorem quiet_tcpRearmUserTimeout (s : TcpSock) : Quiet s (tcpRearmUserTimeout s) := by
  unfold tcpRearmUserTimeout
  split
  · exact .refl s
  · exact ⟨id, fun h => ⟨h.early, h.transfers⟩, rfl, .inl rfl, .inl rfl,
      sameTimer_timerAdd _ _ _ nofun, [], (List.append_nil _).symm, nofun⟩

/-- The queue, what has been settled and the timers are the same. -/
structure HsFrame (s s' : TcpSock) : Prop where
  hs : s'.hs = s.hs
  retransmit : s'.retransmit = s.retransmit
  delack : s'.delack = s.delack
  linger : s'.linger = s.linger

theorem hsFrame_tcpTransmitSkb (s : TcpSock) (skb : SkBuff) (seq : UInt32) :
    HsFrame s (tcpTransmitSkb env s skb seq).1 := by
  unfold tcpTransmitSkb tcpFillOptions tcpWriteOptions
  split_ifs <;> exact ⟨rfl, rfl, rfl, rfl⟩

/-- **A segment without a SYN goes out.** -/
theorem quiet_tcpTransmitSkb (s : TcpSock) {skb : SkBuff} (hsyn : skb.th.syn = false)
    (seq : UInt32) : Quiet s (tcpTransmitSkb env s skb seq).1 := by
  obtain ⟨th, hth, -, hview⟩ := exists_tcpTransmitSkb env s skb seq
  have hout : (tcpTransmitSkb env s skb seq).1.out = s.out ++ [skb.transmission th] :=
    congrArg TxView.out hview
  have hframe : HsFrame s (tcpTransmitSkb env s skb seq).1 := hsFrame_tcpTransmitSkb s skb seq
  have hrcv := rcv_tcpTransmitSkb env s skb seq
  have hst : (tcpTransmitSkb env s skb seq).1.state = s.state := state_eq_of_rcv hrcv
  have hfec : (tcpTransmitSkb env s skb seq).1.fec = s.fec := congrArg RcvView.fec hrcv
  have hok : (tcpTransmitSkb env s skb seq).1.fecok = s.fecok :=
    congrArg (fun v => v.settled.fecok) hframe.hs
  refine ⟨?_, .of_eq _ ?_ ?_ (by rw [hfec]) hok, hframe.hs, .inl hframe.retransmit,
    .inl hframe.delack, .inl hframe.linger, _, hout, fun t ht => ?_⟩
  · rw [hst]
    exact id
  · rw [hst]
    exact id
  · rw [hst]
    exact id
  · rw [List.mem_singleton.mp ht]
    exact hth.syn.trans hsyn

theorem quiet_tcpSendAck (s : TcpSock) : Quiet s (tcpSendAck env s) := by
  unfold tcpSendAck
  split
  · exact .refl s
  · refine Quiet.trans ?_ (quiet_tcpTransmitSkb _ rfl _)
    exact .of_eq _ rfl rfl rfl rfl rfl rfl rfl

theorem quiet_tcpDataQueue (s : TcpSock) (skb : SkBuff) : Quiet s (tcpDataQueue env s skb) := by
  unfold tcpDataQueue
  split
  · exact .refl s
  · split
    · exact .of_eq _ rfl rfl rfl rfl rfl rfl rfl
    · dsimp only
      refine Quiet.trans ?_ (quiet_tcpSendAck _)
      split
      · exact .of_eq _ rfl rfl rfl rfl rfl rfl rfl
      · exact .of_eq _ rfl rfl rfl rfl rfl rfl rfl

theorem quiet_tcpEnterTimeWait (s : TcpSock) : Quiet s (tcpEnterTimeWait s) :=
  .over _ rfl rfl rfl (sameTimer_none _) (sameTimer_none _) (sameTimer_timerAdd _ _ _ nofun) rfl

theorem quiet_tcpDone (s : TcpSock) : Quiet s (tcpDone s) :=
  .over _ rfl rfl rfl (sameTimer_none _) (sameTimer_none _) (sameTimer_none _) rfl

theorem quiet_tcpFinState (h : s.state ≠ .synReceived) : Quiet s (tcpFinState s) := by
  unfold tcpFinState
  split
  · next hst => exact absurd hst h
  · next hst => exact .setState rfl fun _ => by rw [hst]; rfl
  · split
    · exact quiet_tcpEnterTimeWait s
    · exact .setState rfl nofun
  · exact quiet_tcpEnterTimeWait s
  · exact .refl s

theorem quiet_tcpFin (h : s.state ≠ .synReceived) (th : Tcphdr) (expected : Bool) :
    Quiet s (tcpFin env s th expected) := by
  unfold tcpFin
  split
  · refine Quiet.trans (Quiet.trans ?_ (quiet_tcpSendAck _)) (quiet_tcpFinState ?_)
    · exact .of_eq _ rfl rfl rfl rfl rfl rfl rfl
    · rw [state_tcpSendAck]
      exact h
  · exact .refl s

theorem quiet_tcpText (s : TcpSock) (skb : SkBuff) : Quiet s (tcpText env s skb) := by
  unfold tcpText
  split
  · exact quiet_tcpDataQueue s skb
  · exact .refl s

theorem quiet_tcpFinAcked (s : TcpSock) (th : Tcphdr) : Quiet s (tcpFinAcked env s th).1 := by
  unfold tcpFinAcked
  split
  · split
    · next hst => exact .setState rfl fun _ => by rw [hst]; rfl
    · exact .setState rfl nofun
    · exact quiet_tcpDone s
    · split
      · refine Quiet.trans ?_ (quiet_tcpSendAck _)
        exact .of_eq _ rfl rfl rfl rfl rfl rfl rfl
      · exact .refl s
    · exact .refl s
  · exact .refl s

theorem quiet_tcpAckOrDelay (s : TcpSock) (skb : SkBuff) : Quiet s (tcpAckOrDelay env s skb) := by
  unfold tcpAckOrDelay
  dsimp only
  split
  · refine Quiet.trans ?_ (quiet_tcpSendAck _)
    exact .of_eq _ rfl rfl rfl rfl rfl rfl rfl
  · split
    · exact ⟨id, fun h => ⟨h.early, h.transfers⟩, rfl, .inl rfl, sameTimer_timerAdd _ _ _ nofun,
        .inl rfl, [], (List.append_nil _).symm, nofun⟩
    · exact .of_eq _ rfl rfl rfl rfl rfl rfl rfl

theorem quiet_tcpFecInput {fec : TcpFec} (hfec : s.fec = some fec) (skb : SkBuff) :
    Quiet s (tcpFecInput env s fec skb).1 := by
  have hsplice : ∀ (sps : List Splice) (s' : TcpSock),
      Quiet s' (sps.foldl (tcpFecSplice env) s') := by
    intro sps
    induction sps with
    | nil => exact fun s' => .refl s'
    | cons sp sps ih => exact fun s' => (quiet_tcpDataQueue s' sp.skb).trans (ih _)
  have hput : Quiet s { s with fec := some (tcpFecRx fec skb).1 } :=
    .of_eq _ rfl (by rw [hfec]; rfl) rfl rfl rfl rfl rfl
  have hall := hput.trans (hsplice (tcpFecRx fec skb).2.1 _)
  unfold tcpFecInput
  dsimp only
  split
  · exact hall
  · exact hall.trans (quiet_tcpSendAck _)

theorem quiet_tcpSendReset (s : TcpSock) : Quiet s (tcpSendReset env s) := by
  unfold tcpSendReset
  refine Quiet.trans ?_ (quiet_tcpTransmitSkb _ rfl _)
  exact .of_eq _ rfl rfl rfl rfl rfl rfl rfl

/-- **The handshake is over**: FEC is turned on if it has been agreed on. -/
theorem quiet_established (hst : s.state = .synReceived) :
    Quiet s (tcpFecResolve { s with state := .established }) := by
  rw [tcpFecResolve_eq]
  split
  · next hok =>
    exact ⟨fun _ => rfl, fun _ => ⟨nofun, fun _ => iff_of_true rfl hok⟩, rfl, .inl rfl, .inl rfl,
      .inl rfl, [], (List.append_nil _).symm, nofun⟩
  · next hok =>
    refine ⟨fun _ => rfl, fun h => ⟨nofun, fun _ => iff_of_false ?_ hok⟩, rfl, .inl rfl, .inl rfl,
      .inl rfl, [], (List.append_nil _).symm, nofun⟩
    have hnone := h.early (by rw [hst]; rfl)
    change ¬ s.fec.isSome = true
    rw [hnone]
    nofun

end Quiet

end LvlIp.Tcp
