import LvlIp.Send.Flight
import LvlIp.Handshake.Received

/-!
# What an event does to the send side

Every event of a socket takes its send side through moves (`txMoves_tcpStep`), so in every state that
is reached the records of the write queue are true (`flightInv_run`).
-/

namespace LvlIp.Tcp

open Fec Relation

/-- The side slots hold no retransmission timer. -/
def TcpSock.NoSideRto (s : TcpSock) : Prop :=
  ∀ t, s.delack = some t ∨ s.linger = some t → t.handler ≠ .tcpRetransmissionTimeout

/-- The socket sends and queues new segments. -/
structure SendMoves (s s' : TcpSock) : Prop where
  steps : ReflTransGen SendMove s.txv s'.txv
  side : s.NoSideRto → s'.NoSideRto

/-- The send side of the socket moves. -/
structure TxMoves (s s' : TcpSock) : Prop where
  steps : ReflTransGen TxMove s.txv s'.txv
  side : s.NoSideRto → s'.NoSideRto

section Sending

variable (env : Env) {s s' s'' : TcpSock}

theorem TcpSock.NoSideRto.of_eq (h : s.NoSideRto) (s' : TcpSock) (hd : s'.delack = s.delack)
    (hl : s'.linger = s.linger) : s'.NoSideRto := by
  unfold TcpSock.NoSideRto
  rw [hd, hl]
  exact h

theorem Quiet.side (hq : Quiet s s') (h : s.NoSideRto) : s'.NoSideRto := by
  rintro t (ht | ht)
  · rcases hq.delack with heq | hne
    · exact h t (.inl (heq ▸ ht))
    · exact hne t ht
  · rcases hq.linger with heq | hne
    · exact h t (.inr (heq ▸ ht))
    · exact hne t ht

theorem SendMoves.refl (s : TcpSock) : SendMoves s s := ⟨.refl, id⟩

theorem SendMoves.trans (h : SendMoves s s') (h' : SendMoves s' s'') : SendMoves s s'' :=
  ⟨h.steps.trans h'.steps, h'.side ∘ h.side⟩

/-- The queue, the transmissions and the timers stay. -/
theorem SendMoves.other (s' : TcpSock) (hq : s'.writeQueue = s.writeQueue)
    (hinf : s'.inflight = s.inflight) (hqueued : s'.queued = s.queued) (hout : s'.out = s.out)
    (hnext : s'.nextAddr = s.nextAddr) (hret : s'.retransmit = s.retransmit)
    (hd : s'.delack = s.delack) (hl : s'.linger = s.linger) : SendMoves s s' :=
  ⟨.single (.other hq hinf hqueued hout hnext (congrArg Option.isSome hret)),
    fun h => h.of_eq s' hd hl⟩

theorem SendMoves.moves (h : SendMoves s s') : TxMoves s s' := by
  refine ⟨?_, h.side⟩
  have hsteps := h.steps
  generalize s'.txv = v' at hsteps ⊢
  induction hsteps with
  | refl => exact .refl
  | tail _ hmove ih => exact ih.tail (.send hmove)

theorem side_tcpTransmitSkb (h : s.NoSideRto) (skb : SkBuff) (seq : UInt32) :
    (tcpTransmitSkb env s skb seq).1.NoSideRto := by
  have hframe := @hsFrame_tcpTransmitSkb env s skb seq
  exact h.of_eq _ hframe.delack hframe.linger

/-- A segment goes out from a new buffer. -/
theorem sendMoves_fresh (s : TcpSock) (tag : Option FecTag) (th : Tcphdr) (payload : List UInt8)
    (seq : UInt32) : SendMoves s (tcpTransmitSkb env (tcpAllocSkb s tag th payload).1
      (tcpAllocSkb s tag th payload).2 seq).1 := by
  obtain ⟨th', -, -, hview⟩ := exists_tcpTransmitSkb env (tcpAllocSkb s tag th payload).1
    (tcpAllocSkb s tag th payload).2 seq
  have hside : s.NoSideRto → (tcpAllocSkb s tag th payload).1.NoSideRto :=
    fun h => h.of_eq _ rfl rfl
  refine ⟨?_, fun h => side_tcpTransmitSkb env (hside h) _ seq⟩
  rw [hview]
  exact .single (SendMove.fresh s.txv rfl)

theorem sendMoves_tcpSendAck (s : TcpSock) : SendMoves s (tcpSendAck env s) := by
  unfold tcpSendAck
  split
  · exact .refl s
  · exact sendMoves_fresh env s _ _ _ _

theorem sendMoves_tcpSendReset (s : TcpSock) : SendMoves s (tcpSendReset env s) := by
  have hother : SendMoves s { s with tcb.sndUna := s.tcb.sndNxt } :=
    .other _ rfl rfl rfl rfl rfl rfl rfl rfl
  exact hother.trans (sendMoves_fresh env { s with tcb.sndUna := s.tcb.sndNxt } _ _ _ _)

theorem side_tcpQueueTransmitSkb (h : s.NoSideRto) (skb : SkBuff) :
    (tcpQueueTransmitSkb env s skb).1.NoSideRto := by
  have hrearm : (tcpRearmRtoTimer s).NoSideRto := by
    unfold tcpRearmRtoTimer
    dsimp only
    split
    · exact h.of_eq _ rfl rfl
    · exact h.of_eq _ rfl rfl
  have hnow : ∀ s₁ : TcpSock, s₁.NoSideRto → (tcpQueueTransmitNow env s₁ skb).1.NoSideRto := by
    intro s₁ h₁
    exact (side_tcpTransmitSkb env h₁ skb s₁.tcb.sndNxt).of_eq _ rfl rfl
  unfold tcpQueueTransmitSkb
  dsimp only
  have hfirst : (if s.writeQueue = [] then tcpRearmRtoTimer s else s).NoSideRto := by
    split
    · exact hrearm
    · exact h
  generalize (if s.writeQueue = [] then tcpRearmRtoTimer s else s) = s₁ at hfirst
  split
  · exact hnow s₁ hfirst
  · exact hfirst.of_eq _ rfl rfl

/-- **A new buffer is queued**, and goes out at once when nothing is in flight. -/
theorem sendMoves_tcpQueueTransmitSkb {s₁ : TcpSock} {skb : SkBuff}
    (htxv : s₁.txv = { s.txv with nextAddr := s.nextAddr + 1 }) (haddr : skb.addr = s.nextAddr)
    (hseq : skb.seq = 0) (hside : s.NoSideRto → s₁.NoSideRto) :
    SendMoves s (tcpQueueTransmitSkb env s₁ skb).1 := by
  have hsnd : s₁.snd = s.snd := congrArg TxView.snd htxv
  have hinf : s₁.inflight = s.inflight := congrArg SndView.inflight hsnd
  have hnxt : s₁.tcb.sndNxt = s.tcb.sndNxt := congrArg SndView.sndNxt hsnd
  have hout : s₁.out = s.out := congrArg TxView.out htxv
  refine ⟨?_, fun h => side_tcpQueueTransmitSkb env (hside h) skb⟩
  rcases exists_tcpQueueTransmitSkb env s₁ skb with ⟨hne, hview⟩ | ⟨h0, th, hth, hview⟩
  · rw [hinf] at hne
    rw [hview, htxv, hsnd]
    exact .single (SendMove.wait s.txv hne hseq haddr)
  · rw [hinf] at h0
    rw [hnxt] at hth
    rw [hview, htxv, hsnd, hout, hnxt]
    exact .single (SendMove.now s.txv h0 haddr hth)

theorem sendMoves_tcpFecSendRepairs (fec : TcpFec) (blkK tailLen : ℕ) (ps : List Packet)
    (s : TcpSock) (j : ℕ) :
    SendMoves s (tcpFecSendRepairs env fec blkK tailLen s j ps).1 := by
  induction ps generalizing s j with
  | nil => exact .refl s
  | cons p ps ih =>
    have hone : SendMoves s (tcpFecSendRepair env s fec blkK j tailLen p).1 :=
      sendMoves_fresh env s _ _ _ _
    unfold tcpFecSendRepairs
    dsimp only
    split
    · exact hone
    · exact hone.trans (ih _ _)

theorem sendMoves_tcpFecEmitBlock (s : TcpSock) (fec : TcpFec) (blkK tailLen : ℕ) :
    SendMoves s (tcpFecEmitBlock env s fec blkK tailLen).1 := by
  unfold tcpFecEmitBlock
  split
  · exact .refl s
  · split
    · exact .refl s
    · split
      · exact .refl s
      · next parity _ =>
        have hall := sendMoves_tcpFecSendRepairs env fec blkK tailLen parity s 0
        dsimp only
        split
        · exact hall
        · exact hall.trans (.other _ rfl rfl rfl rfl rfl rfl rfl rfl)

theorem sendMoves_tcpFecForceFlush (s : TcpSock) : SendMoves s (tcpFecForceFlush env s) := by
  unfold tcpFecForceFlush
  split
  · exact .refl s
  · split
    · exact sendMoves_tcpFecEmitBlock env s _ _ _
    · exact .refl s

theorem sendMoves_tcpFecEmitFull (s : TcpSock) : SendMoves s (tcpFecEmitFull env s) := by
  unfold tcpFecEmitFull
  split
  · exact .refl s
  · split
    · exact sendMoves_tcpFecEmitBlock env s _ _ _
    · exact .refl s

theorem sendMoves_tcpFecFlush (s : TcpSock) : SendMoves s (tcpFecFlush env s) := by
  unfold tcpFecFlush
  split
  · exact .refl s
  · split
    · exact .refl s
    · exact sendMoves_tcpFecEmitBlock env s _ _ _

theorem sendMoves_tcpSendPiece (s : TcpSock) (piece : List UInt8 × Bool) :
    SendMoves s (tcpSendPiece env s piece) := by
  have hprep : SendMoves s (tcpSendPrepare env s) :=
    (sendMoves_tcpFecForceFlush env s).trans (.other _ rfl rfl rfl rfl rfl rfl rfl rfl)
  unfold tcpSendPiece
  dsimp only
  generalize tcpSendPrepare env s = s₁ at hprep
  generalize ha : tcpAllocSkb s₁ (tcpDataTag s₁.fec) (tcpDataHeader s₁.fec piece.2) piece.1 = a
  have hskb : a.2.addr = s₁.nextAddr ∧ a.2.seq = 0 := by
    rw [← ha]
    exact ⟨rfl, rfl⟩
  have hcode : SendMoves s₁ { s₁ with fec := s₁.fec.map fun fec : TcpFec => fec.register a.2 } :=
    .other _ rfl rfl rfl rfl rfl rfl rfl rfl
  have hsock : { a.1 with fec := a.1.fec.map fun fec : TcpFec => fec.register a.2 } =
      { s₁ with
        fec := s₁.fec.map fun fec : TcpFec => fec.register a.2, nextAddr := s₁.nextAddr + 1 } := by
    rw [← ha]
    rfl
  rw [hsock]
  refine ((hprep.trans hcode).trans ?_).trans (sendMoves_tcpFecEmitFull env _)
  exact sendMoves_tcpQueueTransmitSkb env rfl hskb.1 hskb.2 fun h => h.of_eq _ rfl rfl

theorem sendMoves_tcpRearmUserTimeout (s : TcpSock) : SendMoves s (tcpRearmUserTimeout s) := by
  refine ⟨?_, (quiet_tcpRearmUserTimeout s).side⟩
  unfold tcpRearmUserTimeout
  split
  · exact .refl
  · exact .single (.other rfl rfl rfl rfl rfl rfl)

theorem sendMoves_tcpSend (s : TcpSock) (buf : List UInt8) : SendMoves s (tcpSend env s buf) := by
  have hall : ∀ (pieces : List (List UInt8 × Bool)) (s' : TcpSock),
      SendMoves s' (pieces.foldl (tcpSendPiece env) s') := by
    intro pieces
    induction pieces with
    | nil => exact fun s' => .refl s'
    | cons piece pieces ih => exact fun s' => (sendMoves_tcpSendPiece env s' piece).trans (ih _)
  exact (hall _ s).trans (sendMoves_tcpRearmUserTimeout _)

theorem sendMoves_tcpWrite (s : TcpSock) (buf : List UInt8) :
    SendMoves s (tcpWrite env s buf).1 := by
  unfold tcpWrite
  split
  · exact .refl s
  · split
    · exact sendMoves_tcpSend env s buf
    · exact sendMoves_tcpSend env s buf
    · exact .refl s

theorem sendMoves_tcpQueueFin (s : TcpSock) : SendMoves s (tcpQueueFin env s) := by
  unfold tcpQueueFin
  dsimp only
  refine (sendMoves_tcpFecFlush env s).trans ?_
  exact sendMoves_tcpQueueTransmitSkb env rfl rfl rfl fun h => h.of_eq _ rfl rfl

theorem sendMoves_tcpSendSyn (s : TcpSock) : SendMoves s (tcpSendSyn env s) := by
  unfold tcpSendSyn
  split
  · exact .refl s
  · exact sendMoves_tcpQueueTransmitSkb env rfl rfl rfl fun h => h.of_eq _ rfl rfl

theorem sendMoves_inetStreamConnect (s : TcpSock) (iss : UInt32) :
    SendMoves s (inetStreamConnect env s iss) := by
  unfold inetStreamConnect
  split
  · exact .other _ rfl rfl rfl rfl rfl rfl rfl rfl
  · have hstart : SendMoves s (s.starting iss) := .other _ rfl rfl rfl rfl rfl rfl rfl rfl
    have hsyn := hstart.trans (sendMoves_tcpSendSyn env (s.starting iss))
    exact hsyn.trans (.other _ rfl rfl rfl rfl rfl rfl rfl rfl)

end Sending

/-! ## Arrival -/

section Arrival

variable (env : Env) {s s' s'' : TcpSock}

theorem TxMoves.refl (s : TcpSock) : TxMoves s s := ⟨.refl, id⟩

theorem TxMoves.trans (h : TxMoves s s') (h' : TxMoves s' s'') : TxMoves s s'' :=
  ⟨h.steps.trans h'.steps, h'.side ∘ h.side⟩

theorem TxStep.moves {v v' : TxView} (h : TxStep v v') : ReflTransGen TxMove v v' := by
  cases h with
  | control th => exact .single (.send (.fresh v rfl))
  | ack ackSeq hacc harmed =>
    rw [SndView.ack_of_acceptable hacc] at harmed ⊢
    have huna : TxMove v { v with snd := { v.snd with sndUna := ackSeq } } :=
      .send (.other rfl rfl rfl rfl rfl rfl)
    exact (ReflTransGen.single huna).tail
      (.clean { v with snd := { v.snd with sndUna := ackSeq } } ackSeq harmed)
  | pending h0 hpos hsends => exact .single (.pending v h0 hpos hsends)
  | disarm => exact .single (.disarm v)
  | release =>
    have htx : TxMove v { v with snd := { v.snd with tx := none } } :=
      .send (.other rfl rfl rfl rfl rfl rfl)
    exact (ReflTransGen.single htx).tail (.disarm _)

theorem TxSteps.moves (h : TxSteps s s') (hside : s.NoSideRto → s'.NoSideRto) : TxMoves s s' := by
  refine ⟨?_, hside⟩
  have hsteps := h.2
  generalize s'.txv = v' at hsteps ⊢
  induction hsteps with
  | refl => exact .refl
  | tail _ hstep ih => exact ih.trans hstep.moves

theorem txMoves_tcpDone (s : TcpSock) : TxMoves s (tcpDone s) :=
  (txSteps_tcpDone s).moves (quiet_tcpDone s).side

theorem side_tcpCleanRtoQueue (h : s.NoSideRto) (una : UInt32) :
    (tcpCleanRtoQueue s una).NoSideRto := by
  unfold tcpCleanRtoQueue
  dsimp only
  split
  · exact h.of_eq _ rfl rfl
  · exact h.of_eq _ rfl rfl

theorem txMoves_tcpCleanRtoQueue (s : TcpSock) (una : UInt32) :
    TxMoves s (tcpCleanRtoQueue s una) := by
  obtain ⟨armed, harmed, hview⟩ := exists_tcpCleanRtoQueue s una
  rw [snd_tcpCleanRtoQueue] at harmed hview
  refine ⟨?_, fun h => side_tcpCleanRtoQueue h una⟩
  rw [hview]
  exact .single (.clean s.txv una harmed)

theorem txMoves_tcpAck (h : s.state.connected) (ackSeq : UInt32) :
    TxMoves s (tcpAck s ackSeq).1 := by
  refine (txSteps_tcpAck h ackSeq).moves fun hside => ?_
  unfold tcpAck
  dsimp only
  split
  · have huna := hside.of_eq { s with tcb.sndUna := ackSeq } rfl rfl
    exact side_tcpCleanRtoQueue ((quiet_tcpRtt _).side huna) ackSeq
  · exact hside

theorem sendMoves_tcpDataQueue (s : TcpSock) (skb : SkBuff) :
    SendMoves s (tcpDataQueue env s skb) := by
  unfold tcpDataQueue
  split
  · exact .refl s
  · split
    · exact .other _ rfl rfl rfl rfl rfl rfl rfl rfl
    · have hofo : SendMoves s { s with ofoQueue := tcpDataInsertOrdered s.ofoQueue skb } :=
        .other _ rfl rfl rfl rfl rfl rfl rfl rfl
      dsimp only
      split
      · have hsack : ∀ s₁ : TcpSock, SendMoves s₁ (tcpCalculateSacks s₁) :=
          fun s₁ => .other _ rfl rfl rfl rfl rfl rfl rfl rfl
        exact (hofo.trans (hsack _)).trans (sendMoves_tcpSendAck env _)
      · exact hofo.trans (sendMoves_tcpSendAck env _)

theorem sendMoves_tcpFecInput (s : TcpSock) (fec : TcpFec) (skb : SkBuff) :
    SendMoves s (tcpFecInput env s fec skb).1 := by
  have hsplice : ∀ (sps : List Splice) (s' : TcpSock),
      SendMoves s' (sps.foldl (tcpFecSplice env) s') := by
    intro sps
    induction sps with
    | nil => exact fun s' => .refl s'
    | cons sp sps ih => exact fun s' => (sendMoves_tcpDataQueue env s' sp.skb).trans (ih _)
  have hput : SendMoves s { s with fec := some (tcpFecRx fec skb).1 } :=
    .other _ rfl rfl rfl rfl rfl rfl rfl rfl
  have hall := hput.trans (hsplice (tcpFecRx fec skb).2.1 _)
  unfold tcpFecInput
  dsimp only
  split
  · exact hall
  · exact hall.trans (sendMoves_tcpSendAck env _)

theorem sendMoves_tcpFecResolve (s : TcpSock) : SendMoves s (tcpFecResolve s) := by
  have henable : SendMoves s (tcpFecEnable s).1 := by
    unfold tcpFecEnable
    split
    · exact .refl s
    · dsimp only
      split
      · exact .refl s
      · exact .other _ rfl rfl rfl rfl rfl rfl rfl rfl
  unfold tcpFecResolve
  dsimp only
  split
  · split
    · exact henable.trans (.other _ rfl rfl rfl rfl rfl rfl rfl rfl)
    · exact henable
  · exact .refl s

theorem sendMoves_tcpParseOpts (s : TcpSock) (th : Tcphdr) : SendMoves s (tcpParseOpts s th) := by
  obtain ⟨smss, tsopt, allowed, hparse⟩ := exists_tcpParseOpts s th
  rw [hparse]
  exact .other _ rfl rfl rfl rfl rfl rfl rfl rfl

/-- The acknowledgement of a segment that takes the socket out of SYN_SENT. -/
theorem txMoves_tcpSynsentAcked (s : TcpSock) (th : Tcphdr) :
    TxMoves s (tcpSynsentAcked s th) := by
  have hseq : SendMoves s { s with tcb.rcvNxt := th.seq + 1, tcb.irs := th.seq } :=
    .other _ rfl rfl rfl rfl rfl rfl rfl rfl
  unfold tcpSynsentAcked
  dsimp only
  split
  · have huna := hseq.trans (.other { s with
      tcb.rcvNxt := th.seq + 1, tcb.irs := th.seq, tcb.sndUna := th.ackSeq }
        rfl rfl rfl rfl rfl rfl rfl rfl)
    exact huna.moves.trans (txMoves_tcpCleanRtoQueue _ _)
  · exact hseq.moves

theorem txMoves_tcpSynsentSyn (s : TcpSock) (th : Tcphdr) :
    TxMoves s (tcpSynsentSyn env s th) := by
  have hack := txMoves_tcpSynsentAcked s th
  rw [tcpSynsentSyn_eq]
  generalize tcpSynsentAcked s th = s₁ at hack
  refine hack.trans ?_
  dsimp only
  split
  · have hest : SendMoves s₁ { s₁ with
        state := .established, tcb.sndUna := s₁.tcb.sndNxt, backoff := 0, rto := 1000 } :=
      .other _ rfl rfl rfl rfl rfl rfl rfl rfl
    have hsock : ∀ s₂ : TcpSock, SendMoves s₂ (sockConnected s₂) :=
      fun s₂ => .other _ rfl rfl rfl rfl rfl rfl rfl rfl
    refine SendMoves.moves ?_
    refine SendMoves.trans ?_ (hsock _)
    refine SendMoves.trans ?_ (sendMoves_tcpFecResolve _)
    refine SendMoves.trans ?_ (sendMoves_tcpParseOpts _ th)
    refine SendMoves.trans ?_ (sendMoves_tcpRearmUserTimeout _)
    exact hest.trans (sendMoves_tcpSendAck env _)
  · have hrecv : SendMoves s₁ { s₁ with state := .synReceived, tcb.sndUna := s₁.tcb.iss } :=
      .other _ rfl rfl rfl rfl rfl rfl rfl rfl
    have hopts := hrecv.trans (sendMoves_tcpParseOpts _ th)
    refine (hopts.trans ?_).moves
    unfold tcpSendSynack
    split
    · exact .refl _
    · exact sendMoves_fresh env _ _ _ _ _

theorem txMoves_tcpSynsent (hst : s.state = .synSent) (th : Tcphdr) :
    TxMoves s (tcpSynsent env s th) := by
  unfold tcpSynsent
  split
  · exact .refl s
  · split
    · exact .refl s
    · split
      · unfold tcpReset
        rw [hst]
        have herr : SendMoves s { s with err := eConnrefused } :=
          .other _ rfl rfl rfl rfl rfl rfl rfl rfl
        exact herr.moves.trans (txMoves_tcpDone _)
      · split
        · exact .refl s
        · exact txMoves_tcpSynsentSyn env s th

/-- A segment in SYN_RECEIVED is one in ESTABLISHED, once its ACK field has been taken. -/
theorem txMoves_tcpAckField (h : s.state = .synReceived ∨ s.state.connected) (th : Tcphdr) :
    TxMoves s (tcpAckField s th).1 ∧
      ((tcpAckField s th).2 → (tcpAckField s th).1.state.connected) := by
  rcases h with hst | hconn
  · unfold tcpAckField
    rw [hst]
    dsimp only
    split
    · have hest : SendMoves s { s with state := .established } :=
        .other _ rfl rfl rfl rfl rfl rfl rfl rfl
      have hres := hest.trans (sendMoves_tcpFecResolve { s with state := .established })
      have hconn : (tcpFecResolve { s with state := .established }).state.connected := by
        rw [state_tcpFecResolve]
        rfl
      refine ⟨hres.moves.trans (txMoves_tcpAck hconn th.ackSeq), fun _ => ?_⟩
      rw [state_tcpAck]
      exact hconn
    · exact ⟨.refl s, nofun⟩
  · refine ⟨?_, fun _ => (txSteps_tcpAckField hconn th).1⟩
    unfold tcpAckField
    split
    · next hst => rw [hst] at hconn; cases hconn
    all_goals first
      | exact txMoves_tcpAck hconn th.ackSeq
      | exact .refl s

theorem side_tcpSendPending (h : s.NoSideRto) (n : ℕ) : (tcpSendPending env s n).NoSideRto := by
  have hloop : ∀ (n : ℕ) (s₁ : TcpSock) (q : List SkBuff), s₁.NoSideRto →
      (tcpSendNextLoop env n s₁ q).1.NoSideRto := by
    intro n
    induction n with
    | zero => exact fun s₁ q h₁ => h₁
    | succ n ih =>
      intro s₁ q h₁
      cases q with
      | nil => exact h₁
      | cons skb q =>
        refine ih (tcpAdvanceNxt _ _) q ?_
        exact (side_tcpTransmitSkb env h₁ skb s₁.tcb.sndNxt).of_eq _ rfl rfl
  have hnext := hloop n s s.writeQueue h
  unfold tcpSendPending tcpSendNext tcpRearmRtoTimer
  dsimp only
  split
  · exact hnext.of_eq _ rfl rfl
  · exact hnext.of_eq _ rfl rfl

theorem side_tcpDeliver (hst : s.state ≠ .synReceived) (h : s.NoSideRto) (skb : SkBuff) :
    (tcpDeliver env s skb).NoSideRto := by
  have htext := (@quiet_tcpText env s skb).side h
  have hne : (tcpText env s skb).state ≠ .synReceived := by rwa [state_tcpText]
  have hfin := (@quiet_tcpFin env _ hne skb.th (skb.seq == s.tcb.rcvNxt)).side htext
  unfold tcpDeliver
  dsimp only
  generalize tcpFin env (tcpText env s skb) skb.th (skb.seq == s.tcb.rcvNxt) = s₁ at hfin
  unfold tcpPending
  split
  · have hstop : (tcpStopDelackTimer s₁).NoSideRto := by
      rintro t (ht | ht)
      · cases ht
      · exact hfin t (.inr ht)
    dsimp only
    split
    · exact side_tcpSendPending env hstop _
    · exact (quiet_tcpAckOrDelay _ skb).side hstop
  · exact hfin

theorem txMoves_tcpDeliver (h : s.state.connected) (skb : SkBuff) :
    TxMoves s (tcpDeliver env s skb) := by
  refine (txSteps_tcpDeliver env h skb).moves fun hside => side_tcpDeliver env ?_ hside skb
  intro hst
  rw [hst] at h
  cases h

theorem txMoves_tcpSegmentArrives (h : s.state = .synReceived ∨ s.state.connected)
    (skb : SkBuff) : TxMoves s (tcpSegmentArrives env s skb) := by
  unfold tcpSegmentArrives
  split
  · split
    · exact .refl s
    · exact (sendMoves_tcpSendAck env s).moves
  · split
    · exact (txSteps_tcpEnterTimeWait s).moves (quiet_tcpEnterTimeWait s).side
    · split
      · exact .refl s
      · split
        · exact .refl s
        · obtain ⟨hack, hconn⟩ := txMoves_tcpAckField h skb.th
          dsimp only
          split
          · exact hack
          · next hgo =>
            have hsteps := txSteps_tcpFinAcked env (hconn (not_not.mp hgo)) skb.th
            have hfin := hack.trans (hsteps.moves (quiet_tcpFinAcked _ skb.th).side)
            split
            · exact hfin
            · exact hfin.trans (txMoves_tcpDeliver env hsteps.1 skb)

theorem txMoves_tcpIn (s : TcpSock) (seg : Segment) : TxMoves s (tcpIn env s seg) := by
  unfold tcpIn tcpInputState
  cases hst : s.state with
  | close =>
    dsimp only
    unfold tcpClosed
    split
    · exact .refl s
    · exact (sendMoves_tcpSendReset env s).moves
  | listen => exact .refl s
  | synSent => exact txMoves_tcpSynsent env hst seg.th
  | _ =>
    have hopen : s.state = .synReceived ∨ s.state.connected := by
      rw [hst]
      first
        | exact .inl rfl
        | exact .inr rfl
    dsimp only
    split
    · exact txMoves_tcpSegmentArrives env hopen _
    · next fec _ =>
      have hin := (sendMoves_tcpFecInput env s fec (tcpInitSegment seg)).moves
      split
      · exact hin
      · refine hin.trans (txMoves_tcpSegmentArrives env ?_ _)
        rw [state_tcpFecInput]
        exact hopen

end Arrival

/-! ## Every event -/

section Events

variable {env : Env} {s : TcpSock}

theorem sendMoves_tcpReceiveStep (s : TcpSock) (rd : Reader) :
    SendMoves s (tcpReceiveStep s rd).1 := by
  have hreturn : ∀ (s₁ : TcpSock) (got : List UInt8), SendMoves s₁ (tcpReceiveReturn s₁ got).1 :=
    fun s₁ _ => sendMoves_tcpRearmUserTimeout s₁
  have hread : SendMoves s (tcpDataDequeue s rd.room).1 := .other _ rfl rfl rfl rfl rfl rfl rfl rfl
  unfold tcpReceiveStep
  dsimp only
  generalize tcpDataDequeue s rd.room = d at hread
  split
  · exact hreturn s _
  · split
    · have hpsh : SendMoves d.1 { d.1 with pshFlag := false } :=
        .other _ rfl rfl rfl rfl rfl rfl rfl rfl
      exact (hread.trans hpsh).trans (hreturn _ _)
    · split
      · exact hread.trans (hreturn _ _)
      · split
        · split
          · exact hread
          · exact hread.trans (hreturn _ _)
        · exact hread

theorem sendMoves_tcpRead (s : TcpSock) (len : ℕ) : SendMoves s (tcpRead s len).1 := by
  unfold tcpRead
  cases hst : s.state with
  | closeWait =>
    dsimp only
    split
    · exact .other _ rfl rfl rfl rfl rfl rfl rfl rfl
    · exact sendMoves_tcpReceiveStep s _
  | close | closing | lastAck | timeWait => exact .refl s
  | _ => exact sendMoves_tcpReceiveStep s _

theorem txMoves_tcpClose (s : TcpSock) : TxMoves s (tcpClose env s) := by
  have herr : SendMoves s { s with err := eBadf } := .other _ rfl rfl rfl rfl rfl rfl rfl rfl
  unfold tcpClose
  split
  any_goals exact herr.moves
  any_goals exact txMoves_tcpDone s
  · have hst : SendMoves s { s with state := .finWait1 } := .other _ rfl rfl rfl rfl rfl rfl rfl rfl
    exact (hst.trans (sendMoves_tcpQueueFin env _)).moves
  · exact (sendMoves_tcpQueueFin env s).moves

theorem txMoves_tcpAbort (s : TcpSock) : TxMoves s (tcpAbort env s) :=
  (sendMoves_tcpSendReset env s).moves.trans (txMoves_tcpDone _)

theorem txMoves_tcpReleaseRtoTimer (s : TcpSock) : TxMoves s (tcpReleaseRtoTimer s) :=
  ⟨.single (.disarm s.txv), fun h => h.of_eq _ rfl rfl⟩

/-- The timer of a SYN expires. -/
theorem txMoves_tcpConnectRto (h : Flight s.txv) (hr : Reached s) :
    TxMoves s (tcpConnectRto env s) := by
  have hrel := txMoves_tcpReleaseRtoTimer s
  by_cases hst : s.state = .synSent
  · have hc : Connecting s := hr.connecting hst
    obtain ⟨y, hq, hsyn⟩ := hc.queue
    by_cases hretry : tcpConnRetries < s.backoff
    · unfold tcpConnectRto
      dsimp only
      rw [if_pos (show (tcpReleaseRtoTimer s).state = .synSent from hst),
        if_pos (show tcpConnRetries < (tcpReleaseRtoTimer s).backoff from hretry)]
      have herr : SendMoves (tcpReleaseRtoTimer s) { tcpReleaseRtoTimer s with err := eTimedout } :=
        .other _ rfl rfl rfl rfl rfl rfl rfl rfl
      exact (hrel.trans herr.moves).trans (txMoves_tcpDone _)
    · rw [tcpConnectRto_resent hc hq hsyn hretry]
      refine ⟨.single ?_, fun h => h.of_eq _ rfl rfl⟩
      have hgone : Gone s.out y := by
        by_contra hno
        have hcount : s.writeQueue.countP (fun x => decide (Gone s.out x)) = s.inflight := h.count
        rw [hq, hc.inflight, List.countP_singleton, if_neg (by simpa using hno)] at hcount
        cases hcount
      obtain ⟨ackSeq, hth⟩ := hsyn.th
      have hfill : FilledFrom y.th (s.synAt s.tcb.rcvNxt).seq (s.synAt s.tcb.rcvNxt) := by
        rw [hth]
        exact ⟨⟨rfl, rfl, rfl, rfl, fun _ => rfl, fun _ => rfl⟩, rfl⟩
      exact TxMove.resend s.txv hq hgone hfill fun _ => .inr rfl
  · unfold tcpConnectRto
    dsimp only
    rw [if_neg (show (tcpReleaseRtoTimer s).state ≠ .synSent from hst)]
    exact hrel

theorem side_tcpRetransmissionTimeout (h : s.NoSideRto) :
    (tcpRetransmissionTimeout env s).NoSideRto := by
  unfold tcpRetransmissionTimeout
  dsimp only
  split
  · exact h.of_eq _ rfl rfl
  · next skb q _ =>
    have hrel : (tcpReleaseRtoTimer s).NoSideRto := h.of_eq _ rfl rfl
    have hsent := side_tcpTransmitSkb env hrel skb (tcpReleaseRtoTimer s).tcb.sndUna
    generalize tcpTransmitSkb env (tcpReleaseRtoTimer s) skb
      (tcpReleaseRtoTimer s).tcb.sndUna = t at hsent
    split
    · have hdone : (tcpDone { t.1 with writeQueue := t.2.1 :: q }).NoSideRto :=
        (quiet_tcpDone _).side (hsent.of_eq _ rfl rfl)
      exact hdone.of_eq _ rfl rfl
    · split
      · exact (quiet_tcpHandleFinState _).side (hsent.of_eq _ rfl rfl)
      · exact hsent.of_eq _ rfl rfl

/-- The handler sends the first buffer, and otherwise leaves the queue as it is. -/
theorem tcpRetransmissionTimeout_head (env : Env) {skb : SkBuff} {q : List SkBuff}
    (hq : s.writeQueue = skb :: q) : ∃ th, FilledFrom skb.th s.tcb.sndUna th ∧
      (tcpRetransmissionTimeout env s).out = s.out ++ [skb.transmission th] ∧
      (tcpRetransmissionTimeout env s).writeQueue = skb.withHeader th :: q ∧
      (tcpRetransmissionTimeout env s).queued = s.queued ∧
      (tcpRetransmissionTimeout env s).inflight = s.inflight := by
  obtain ⟨th, hth, hskb, hview⟩ :=
    exists_tcpTransmitSkb env (tcpReleaseRtoTimer s) skb (tcpReleaseRtoTimer s).tcb.sndUna
  refine ⟨th, hth, ?_⟩
  have hout : (tcpTransmitSkb env (tcpReleaseRtoTimer s) skb
      (tcpReleaseRtoTimer s).tcb.sndUna).1.out = s.out ++ [skb.transmission th] :=
    congrArg TxView.out hview
  have hsnd : (tcpTransmitSkb env (tcpReleaseRtoTimer s) skb
      (tcpReleaseRtoTimer s).tcb.sndUna).1.snd = s.snd := congrArg TxView.snd hview
  unfold tcpRetransmissionTimeout
  dsimp only
  rw [show (tcpReleaseRtoTimer s).writeQueue = skb :: q from hq]
  dsimp only
  rw [hskb]
  generalize (tcpTransmitSkb env (tcpReleaseRtoTimer s) skb (tcpReleaseRtoTimer s).tcb.sndUna).1 = s₁
    at hout hsnd
  have hqueued : s₁.queued = s.queued := congrArg SndView.queued hsnd
  have hinf : s₁.inflight = s.inflight := congrArg SndView.inflight hsnd
  split
  · exact ⟨hout, rfl, hqueued, hinf⟩
  · split
    · unfold tcpHandleFinState
      split <;> exact ⟨hout, rfl, hqueued, hinf⟩
    · exact ⟨hout, rfl, hqueued, hinf⟩

theorem armed_of_rtoArmed (hside : s.NoSideRto) (harmed : s.rtoArmed) : s.txv.armed := by
  rcases mem_timers.mp harmed with ⟨t, ht, -⟩ | ⟨t, ht, hh⟩ | ⟨t, ht, hh⟩
  · change s.retransmit.isSome
    rw [ht]
    rfl
  · exact absurd hh (hside t (.inl ht))
  · exact absurd hh (hside t (.inr ht))

theorem Reached.connected_of_rtoArmed (hr : Reached s) (harmed : s.rtoArmed) :
    s.state.connected := by
  rcases hr with hr | hr | hr | hr
  · exact absurd harmed hr.timer
  · exact absurd harmed hr.timer
  · exact absurd harmed hr.timer
  · exact hr

/-- The retransmission timer expires. -/
theorem txMoves_tcpRetransmissionTimeout (h : Flight s.txv) (hconn : s.state.connected)
    (harmed : s.txv.armed) : TxMoves s (tcpRetransmissionTimeout env s) := by
  refine ⟨?_, side_tcpRetransmissionTimeout⟩
  obtain ⟨-, ⟨-, hview⟩ | ⟨skb, q, th, hq, hth, hor⟩⟩ := exists_tcpRetransmissionTimeout env hconn
  · rw [hview]
    exact .single (.disarm s.txv)
  · have hgone := h.head_gone harmed hq
    have hmove : ∀ armed : Bool, TxMove s.txv { s.txv.retransmit skb q th with armed } :=
      fun armed => .resend s.txv hq hgone hth fun _ => .inl harmed
    rcases hor with hview | hstep
    · rw [hview]
      exact .single (hmove true)
    · have hsame := hmove s.txv.armed
      exact (ReflTransGen.single hsame).trans hstep.moves

theorem txMoves_timer (h : Flight s.txv) (hr : Reached s) (hside : s.NoSideRto)
    {handler : TimerHandler} (hrun : handler ∈ s.timers) : TxMoves s (handler.run env s) := by
  have hlinger : TxMoves s { s with linger := none } := by
    refine ⟨.single (.send (.other rfl rfl rfl rfl rfl rfl)), fun h => ?_⟩
    rintro t (ht | ht)
    · exact h t (.inl ht)
    · cases ht
  cases handler with
  | tcpConnectRto => exact txMoves_tcpConnectRto h hr
  | tcpRetransmissionTimeout =>
    exact txMoves_tcpRetransmissionTimeout h (hr.connected_of_rtoArmed hrun)
      (armed_of_rtoArmed hside hrun)
  | tcpSendDelack =>
    have hrel : TxMoves s (tcpReleaseDelackTimer { s with delacks := 0 }) := by
      refine ⟨.single (.send (.other rfl rfl rfl rfl rfl rfl)), fun h => ?_⟩
      rintro t (ht | ht)
      · cases ht
      · exact h t (.inr ht)
    exact hrel.trans (sendMoves_tcpSendAck env _).moves
  | tcpLinger => exact hlinger.trans (txMoves_tcpDone _)
  | tcpUserTimeout => exact hlinger.trans (txMoves_tcpAbort _)

/-- **What an event does to the send side** is a sequence of moves. -/
theorem txMoves_tcpStep (h : Flight s.txv) (hr : Reached s) (hside : s.NoSideRto) (e : TcpEvent) :
    TxMoves s (tcpStep env s e) := by
  cases e with
  | connect iss => exact (sendMoves_inetStreamConnect env s iss).moves
  | arrive seg => exact txMoves_tcpIn env s seg
  | write buf => exact (sendMoves_tcpWrite env s buf).moves
  | read len => exact (sendMoves_tcpRead s len).moves
  | wake rd => exact (sendMoves_tcpReceiveStep s rd).moves
  | close => exact txMoves_tcpClose s
  | abort => exact txMoves_tcpAbort s
  | timer handler =>
    change TxMoves s (if handler ∈ s.timers then _ else _)
    split
    · next hrun => exact txMoves_timer h hr hside hrun
    · exact .refl s
  | tick ms =>
    refine SendMoves.moves ?_
    exact .other _ rfl rfl rfl rfl rfl rfl rfl rfl

/-- A reachable send side: its records are true. -/
structure FlightInv (s : TcpSock) : Prop where
  flight : Flight s.txv
  reached : Reached s
  side : s.NoSideRto

theorem FlightInv.moves (h : FlightInv s) (e : TcpEvent) : TxMoves s (tcpStep env s e) :=
  txMoves_tcpStep h.flight h.reached h.side e

/-- **The records of the write queue stay true**, whatever happens. -/
theorem FlightInv.step (h : FlightInv s) (e : TcpEvent) : FlightInv (tcpStep env s e) :=
  ⟨h.flight.moves (h.moves e).steps, h.reached.step e, (h.moves e).side h.side⟩

theorem flightInv_tcpAllocSock : FlightInv tcpAllocSock := by
  refine ⟨⟨nofun, rfl, nofun, List.nodup_nil, nofun, nofun⟩, .inl closed_tcpAllocSock, ?_⟩
  rintro t (ht | ht) <;> cases ht

theorem flightInv_run (events : List TcpEvent) :
    FlightInv (events.foldl (tcpStep env) tcpAllocSock) := by
  have hall : ∀ (es : List TcpEvent) (s : TcpSock), FlightInv s →
      FlightInv (es.foldl (tcpStep env) s) := by
    intro es
    induction es with
    | nil => exact fun s h => h
    | cons e es ih => exact fun s h => ih _ (h.step e)
  exact hall events tcpAllocSock flightInv_tcpAllocSock

end Events

end LvlIp.Tcp
