import LvlIp.EndToEnd.Host
import LvlIp.Receive.Eof

/-!
# What wakes a reader

A reader that finds nothing sleeps until `recv_notify` is called: by `tcp_data_queue` for text in
order, and by `tcp_input_state` for a reset and for a FIN. Everything else that happens to the socket,
also the handler of a timer that is late, leaves the receive queue as it is, and marks the end of the
stream at most in TIME_WAIT (`unnoticed_threadStep`): there the acknowledgement of everything sets
`TCP_FIN` without a call of `recv_notify`.
-/

namespace LvlIp.Tcp

open Fec Relation

/-! ## The calls -/

/-- `tcp_data_queue` takes the text in order, and calls `recv_notify`. -/
def CallNotifies (c : TcpSock × SkBuff) : Bool := c.1.tcb.rcvWnd != 0 && c.2.seq == c.1.tcb.rcvNxt

/-- The calls of `recv_notify` for a reset and for a FIN. -/
def tcpCloseNotifies (env : Env) (s : TcpSock) (skb : SkBuff) : ℕ :=
  match tcpChecks env true s skb with
  | .error _ => if tcpVerifySegment s skb ∧ skb.th.rst then 1 else 0
  | .ok s' => if skb.th.fin ∧ skb.seq = s'.tcb.rcvNxt then 1 else 0

/-- The calls of `recv_notify` while a segment is processed. -/
def tcpNotifies (env : Env) (s : TcpSock) (seg : Segment) : ℕ :=
  let skb := tcpInitSegment seg
  (tcpDataCalls env s seg).countP CallNotifies +
    if s.state.synchronized then
      match s.fec with
      | none => tcpCloseNotifies env s skb
      | some fec =>
        let r := tcpFecInput env s fec skb
        if r.2 then 0 else tcpCloseNotifies env r.1 skb
    else 0

/-- The calls of `recv_notify` during an event. -/
def recvNotifies (env : Env) (s : TcpSock) : ThreadEvent → ℕ
  | .event (.arrive seg) => tcpNotifies env s seg
  | _ => 0

/-! ## What a reader looks at -/

/-- The text in order, and the mark of the end of the stream. -/
def TcpSock.inbox (s : TcpSock) : List SkBuff × Bool := (s.receiveQueue, s.finFlag)

/-- A sleeping reader misses nothing between `s` and `s'`, except for the mark of the end of the stream
when the connection is over. -/
structure Unnoticed (s s' : TcpSock) : Prop where
  queue : s'.receiveQueue = s.receiveQueue
  fin : s'.finFlag → s.finFlag ∨ s'.state.Over

section Inbox

variable {env : Env} {s s' : TcpSock}

theorem inbox_of_rcv (h : s'.rcv = s.rcv) (hfin : s'.finFlag = s.finFlag) : s'.inbox = s.inbox :=
  Prod.ext (congrArg RcvView.receiveQueue h) hfin

theorem Unnoticed.of_eq (h : s'.inbox = s.inbox) : Unnoticed s s' where
  queue := congrArg Prod.fst h
  fin hfin := .inl ((congrArg Prod.snd h).symm.trans hfin)

/-- What happens before leaves the inbox alone. -/
theorem Unnoticed.after {s₁ : TcpSock} (h : Unnoticed s₁ s') (h₁ : s₁.inbox = s.inbox) :
    Unnoticed s s' where
  queue := h.queue.trans (congrArg Prod.fst h₁)
  fin hfin := (h.fin hfin).imp_left (congrArg Prod.snd h₁).symm.trans

/-! ### Sending -/

theorem inbox_tcpRearmRtoTimer (s : TcpSock) : (tcpRearmRtoTimer s).inbox = s.inbox := by
  unfold tcpRearmRtoTimer
  dsimp only
  split <;> rfl

theorem inbox_tcpRearmUserTimeout (s : TcpSock) : (tcpRearmUserTimeout s).inbox = s.inbox := by
  unfold tcpRearmUserTimeout
  split <;> rfl

theorem inbox_tcpTransmitSkb (s : TcpSock) (skb : SkBuff) (seq : UInt32) :
    (tcpTransmitSkb env s skb seq).1.inbox = s.inbox :=
  inbox_of_rcv (rcv_tcpTransmitSkb env s skb seq) (finFlag_tcpTransmitSkb s skb seq)

theorem inbox_tcpSendAck (s : TcpSock) : (tcpSendAck env s).inbox = s.inbox :=
  inbox_of_rcv (rcv_tcpSendAck env s) (finFlag_tcpSendAck s)

theorem inbox_tcpSendReset (s : TcpSock) : (tcpSendReset env s).inbox = s.inbox := by
  unfold tcpSendReset
  exact inbox_tcpTransmitSkb _ _ _

theorem inbox_tcpQueueTransmitSkb (s : TcpSock) (skb : SkBuff) :
    (tcpQueueTransmitSkb env s skb).1.inbox = s.inbox := by
  unfold tcpQueueTransmitSkb
  dsimp only
  have hfirst : (if s.writeQueue = [] then tcpRearmRtoTimer s else s).inbox = s.inbox := by
    split
    · exact inbox_tcpRearmRtoTimer s
    · rfl
  generalize (if s.writeQueue = [] then tcpRearmRtoTimer s else s) = s₁ at hfirst
  split
  · exact (@inbox_tcpTransmitSkb env s₁ skb s₁.tcb.sndNxt).trans hfirst
  · exact hfirst

theorem inbox_tcpFecEmitBlock (s : TcpSock) (fec : TcpFec) (blkK tailLen : ℕ) :
    (tcpFecEmitBlock env s fec blkK tailLen).1.inbox = s.inbox := by
  obtain ⟨ts, fec', heq⟩ := tcpFecEmitBlock_frame env s fec blkK tailLen
  rw [heq]
  rfl

theorem inbox_tcpFecFlush (s : TcpSock) : (tcpFecFlush env s).inbox = s.inbox := by
  unfold tcpFecFlush
  split
  · rfl
  · split
    · rfl
    · exact inbox_tcpFecEmitBlock s _ _ _

theorem inbox_tcpSendPiece (s : TcpSock) (piece : List UInt8 × Bool) :
    (tcpSendPiece env s piece).inbox = s.inbox := by
  have hprep : (tcpSendPrepare env s).inbox = s.inbox := by
    change (tcpFecForceFlush env s).inbox = s.inbox
    unfold tcpFecForceFlush
    split
    · rfl
    · split
      · exact inbox_tcpFecEmitBlock s _ _ _
      · rfl
  have hfull : ∀ s : TcpSock, (tcpFecEmitFull env s).inbox = s.inbox := by
    intro s
    unfold tcpFecEmitFull
    split
    · rfl
    · split
      · exact inbox_tcpFecEmitBlock s _ _ _
      · rfl
  unfold tcpSendPiece
  dsimp only
  generalize tcpSendPrepare env s = s₁ at hprep
  rw [hfull, inbox_tcpQueueTransmitSkb]
  exact hprep

theorem inbox_tcpWrite (s : TcpSock) (buf : List UInt8) : (tcpWrite env s buf).1.inbox = s.inbox := by
  have hpieces : ∀ (pieces : List (List UInt8 × Bool)) (s : TcpSock),
      (pieces.foldl (tcpSendPiece env) s).inbox = s.inbox := by
    intro pieces
    induction pieces with
    | nil => exact fun _ => rfl
    | cons piece pieces ih => exact fun s => (ih _).trans (inbox_tcpSendPiece s piece)
  have hsend : (tcpSend env s buf).inbox = s.inbox :=
    (inbox_tcpRearmUserTimeout _).trans (hpieces _ s)
  unfold tcpWrite
  split
  · rfl
  · split
    · exact hsend
    · exact hsend
    · rfl

theorem inbox_tcpClose (s : TcpSock) : (tcpClose env s).inbox = s.inbox := by
  have hfin : ∀ s : TcpSock, (tcpQueueFin env s).inbox = s.inbox := by
    intro s
    refine (@inbox_tcpQueueTransmitSkb env _ _).trans ?_
    exact inbox_tcpFecFlush s
  unfold tcpClose
  split
  any_goals rfl
  · exact hfin _
  · exact hfin s

theorem inbox_connect (s : TcpSock) (iss : UInt32) :
    (inetStreamConnect env s iss).inbox = s.inbox := by
  unfold inetStreamConnect
  split
  · rfl
  · unfold tcpConnect tcpSendSyn
    split
    · rfl
    · exact @inbox_tcpQueueTransmitSkb env _ _

/-! ### Timers -/

theorem inbox_tcpConnectRto (s : TcpSock) : (tcpConnectRto env s).inbox = s.inbox := by
  unfold tcpConnectRto
  dsimp only
  split
  · split
    · rfl
    · split
      · rfl
      · exact (inbox_tcpRearmRtoTimer _).trans (@inbox_tcpTransmitSkb env (tcpReleaseRtoTimer s) _ _)
  · rfl

theorem inbox_tcpRetransmissionTimeout (s : TcpSock) :
    (tcpRetransmissionTimeout env s).inbox = s.inbox := by
  unfold tcpRetransmissionTimeout
  dsimp only
  split
  · rfl
  · next skb q hq =>
    have hsent := @inbox_tcpTransmitSkb env (tcpReleaseRtoTimer s) skb
      (tcpReleaseRtoTimer s).tcb.sndUna
    generalize tcpTransmitSkb env (tcpReleaseRtoTimer s) skb
      (tcpReleaseRtoTimer s).tcb.sndUna = t at hsent
    split
    · exact hsent
    · split
      · unfold tcpHandleFinState
        split <;> exact hsent
      · exact hsent

theorem inbox_timer (s : TcpSock) (handler : TimerHandler) :
    (handler.run env s).inbox = s.inbox := by
  cases handler with
  | tcpConnectRto => exact inbox_tcpConnectRto s
  | tcpRetransmissionTimeout => exact inbox_tcpRetransmissionTimeout s
  | tcpSendDelack => exact @inbox_tcpSendAck env _
  | tcpLinger => rfl
  | tcpUserTimeout => exact @inbox_tcpSendReset env { s with linger := none }

end Inbox

/-! ## Arrival -/

section Arrival

variable {env : Env} {s : TcpSock}

theorem inbox_tcpAck (s : TcpSock) (ackSeq : UInt32) : (tcpAck s ackSeq).1.inbox = s.inbox :=
  inbox_of_rcv (rcv_tcpAck s ackSeq) (finFlag_tcpAck s ackSeq)

theorem inbox_tcpFecResolve (s : TcpSock) : (tcpFecResolve s).inbox = s.inbox := by
  rw [tcpFecResolve_eq]
  split <;> rfl

theorem inbox_tcpAckField (s : TcpSock) (th : Tcphdr) : (tcpAckField s th).1.inbox = s.inbox := by
  unfold tcpAckField
  split
  · split
    · exact (inbox_tcpAck _ _).trans (inbox_tcpFecResolve _)
    · rfl
  all_goals first
    | exact inbox_tcpAck s _
    | rfl

theorem inbox_tcpParseOpts (s : TcpSock) (th : Tcphdr) : (tcpParseOpts s th).inbox = s.inbox := by
  unfold tcpParseOpts
  dsimp only
  split_ifs <;> rfl

theorem inbox_tcpSendSynack (s : TcpSock) : (tcpSendSynack env s).inbox = s.inbox := by
  unfold tcpSendSynack
  split
  · rfl
  · exact @inbox_tcpTransmitSkb env _ _ _

theorem inbox_tcpSynsentSyn (s : TcpSock) (th : Tcphdr) :
    (tcpSynsentSyn env s th).inbox = s.inbox := by
  have hclean : ∀ (s : TcpSock) (una : UInt32), (tcpCleanRtoQueue s una).inbox = s.inbox := by
    intro s una
    unfold tcpCleanRtoQueue
    dsimp only
    split <;> rfl
  unfold tcpSynsentSyn
  dsimp only
  generalize hs₁ : (if th.ack then _ else _ : TcpSock) = s₁
  have h₁ : s₁.inbox = s.inbox := by
    rw [← hs₁]
    split
    · exact hclean _ _
    · rfl
  split
  · generalize hs₂ : tcpParseOpts _ _ = s₂
    have h₂ : s₂.inbox = s.inbox := by
      rw [← hs₂, inbox_tcpParseOpts, inbox_tcpRearmUserTimeout, inbox_tcpSendAck]
      exact h₁
    exact (inbox_tcpFecResolve s₂).trans h₂
  · generalize hs₂ : tcpParseOpts _ _ = s₂
    have h₂ : s₂.inbox = s.inbox := by
      rw [← hs₂, inbox_tcpParseOpts]
      exact h₁
    exact (@inbox_tcpSendSynack env _).trans h₂

theorem inbox_tcpSynsent (hst : s.state = .synSent) (th : Tcphdr) :
    (tcpSynsent env s th).inbox = s.inbox := by
  unfold tcpSynsent
  split
  · rfl
  · split
    · rfl
    · split
      · unfold tcpReset
        rw [hst]
        rfl
      · split
        · rfl
        · exact inbox_tcpSynsentSyn s th

theorem inbox_tcpPending (s : TcpSock) (skb : SkBuff) (expected : Bool) :
    (tcpPending env s skb expected).inbox = s.inbox :=
  inbox_of_rcv (rcv_tcpPending env s skb expected) (finFlag_tcpPending s skb expected)

/-- The acknowledgement of a FIN marks the end of the stream in TIME_WAIT only. -/
theorem unnoticed_tcpFinAcked (s : TcpSock) (th : Tcphdr) :
    Unnoticed s (tcpFinAcked env s th).1 := by
  unfold tcpFinAcked
  split
  · split
    any_goals exact .of_eq rfl
    next hst =>
      split
      · have hack := @inbox_tcpSendAck env { s with finFlag := true }
        refine ⟨congrArg Prod.fst hack, fun _ => .inr (.inr ?_)⟩
        exact (state_tcpSendAck env _).trans hst
      · exact .of_eq rfl
  · exact .of_eq rfl

/-- The checks. -/
theorem unnoticed_tcpChecks (s : TcpSock) (skb : SkBuff) :
    (∀ s', tcpChecks env true s skb = .error s' → Unnoticed s s') ∧
      ∀ s', tcpChecks env true s skb = .ok s' → Unnoticed s s' := by
  have hack := inbox_tcpAckField s skb.th
  have hfin := (@unnoticed_tcpFinAcked env (tcpAckField s skb.th).1 skb.th).after hack
  have herr : ∀ s₁ : TcpSock, Unnoticed s s₁ →
      (∀ s', Except.error s₁ = (.error s' : Except TcpSock TcpSock) → Unnoticed s s') ∧
        ∀ s', Except.error s₁ = (.ok s' : Except TcpSock TcpSock) → Unnoticed s s' := by
    intro s₁ h
    refine ⟨fun s' heq => ?_, fun s' heq => ?_⟩
    · rwa [← Except.error.inj heq]
    · cases heq
  unfold tcpChecks
  rw [tcpAckFieldOr_true]
  dsimp only
  split
  · refine herr _ (.of_eq ?_)
    split
    · rfl
    · exact inbox_tcpSendAck s
  · split
    · exact herr _ (.of_eq rfl)
    · split
      · exact herr _ (.of_eq rfl)
      · split
        · exact herr _ (.of_eq rfl)
        · split
          · exact herr _ (.of_eq hack)
          · split
            · exact herr _ hfin
            · refine ⟨fun s' heq => ?_, fun s' heq => ?_⟩
              · cases heq
              · rwa [← Except.ok.inj heq]

/-- Text that is not in order goes to the other queue. -/
theorem inbox_tcpDataQueue {skb : SkBuff} (h : CallNotifies (s, skb) = false) :
    (tcpDataQueue env s skb).inbox = s.inbox := by
  refine Prod.ext ?_ (finFlag_tcpDataQueue s skb)
  refine (congrArg RcvView.receiveQueue (rcv_tcpDataQueue env s skb)).trans ?_
  have hno : s.tcb.rcvWnd ≠ 0 → skb.seq ≠ s.tcb.rcvNxt := by
    simpa [CallNotifies] using h
  unfold RcvView.dataQueue
  split
  · rfl
  · next hwnd =>
    rw [if_neg (show skb.seq ≠ s.rcv.rcvNxt from hno hwnd)]
    rfl

/-- A segment after the checks. -/
theorem inbox_tcpDeliver {skb : SkBuff}
    (htext : s.state.receives → (skb.th.psh ∨ 0 < skb.dlen) → CallNotifies (s, skb) = false)
    (hfin : ¬ (skb.th.fin ∧ skb.seq = s.tcb.rcvNxt)) :
    (tcpDeliver env s skb).inbox = s.inbox ∧ (tcpDeliver env s skb).state = s.state := by
  have hin : (tcpText env s skb).inbox = s.inbox := by
    unfold tcpText
    split
    · next h => exact inbox_tcpDataQueue (htext h.1 h.2)
    · rfl
  have hclose : tcpFin env (tcpText env s skb) skb.th (skb.seq == s.tcb.rcvNxt) =
      tcpText env s skb := if_neg (by simpa using hfin)
  unfold tcpDeliver
  dsimp only
  rw [hclose]
  exact ⟨(inbox_tcpPending _ skb _).trans hin,
    (state_eq_of_rcv (rcv_tcpPending env _ skb _)).trans (state_tcpText s skb)⟩

/-- **A segment after the FEC section**, when nobody is woken for its text, a reset or a FIN. -/
theorem unnoticed_tcpSegmentArrives {skb : SkBuff}
    (htext : (tcpTextCalls env s skb).countP CallNotifies = 0)
    (hclose : tcpCloseNotifies env s skb = 0) : Unnoticed s (tcpSegmentArrives env s skb) := by
  obtain ⟨herror, hok⟩ := @unnoticed_tcpChecks env s skb
  rw [← tcpSegmentArrivesOr_true]
  unfold tcpSegmentArrivesOr
  unfold tcpTextCalls at htext
  unfold tcpCloseNotifies at hclose
  cases hs' : tcpChecks env true s skb with
  | error s' => exact herror s' hs'
  | ok s' =>
    rw [hs'] at htext hclose
    have hdeliver := @inbox_tcpDeliver env s' skb (fun hrec hlen => ?_) fun hfin => ?_
    · have hchecks := hok s' hs'
      refine ⟨(congrArg Prod.fst hdeliver.1).trans hchecks.queue, fun hflag => ?_⟩
      have hflag' : s'.finFlag = true := (congrArg Prod.snd hdeliver.1).symm.trans hflag
      refine (hchecks.fin hflag').imp_right fun hover => ?_
      unfold TcpState.Over
      change (tcpDeliver env s' skb).state = _ ∨ (tcpDeliver env s' skb).state = _
      rw [hdeliver.2]
      exact hover
    · have hone : (if s'.state.receives ∧ (skb.th.psh ∨ 0 < skb.dlen) then [(s', skb)]
          else []).countP CallNotifies = 0 := htext
      rw [if_pos ⟨hrec, hlen⟩, List.countP_eq_zero] at hone
      exact Bool.eq_false_iff.mpr (hone _ (List.mem_singleton_self _))
    · have hone : (if skb.th.fin ∧ skb.seq = s'.tcb.rcvNxt then 1 else 0) = 0 := hclose
      rw [if_pos hfin] at hone
      cases hone

/-- Reconstructed symbols that are not in order. -/
theorem inbox_foldl_tcpFecSplice (sps : List Splice) (s : TcpSock)
    (h : (tcpSpliceCalls env s sps).countP CallNotifies = 0) :
    (sps.foldl (tcpFecSplice env) s).inbox = s.inbox := by
  induction sps generalizing s with
  | nil => rfl
  | cons sp sps ih =>
    rw [tcpSpliceCalls, List.countP_cons, Nat.add_eq_zero_iff] at h
    have hone : CallNotifies (s, sp.skb) = false := by
      by_contra hnot
      rw [if_pos (by simpa using hnot)] at h
      exact absurd h.2 one_ne_zero
    exact (ih _ h.1).trans (inbox_tcpDataQueue hone)

/-- **An arriving segment** that wakes nobody. -/
theorem unnoticed_tcpIn {seg : Segment} (h : tcpNotifies env s seg = 0) :
    Unnoticed s (tcpIn env s seg) := by
  unfold tcpNotifies tcpDataCalls at h
  unfold tcpIn
  generalize tcpInitSegment seg = skb at h ⊢
  have hopen : s.state.synchronized = true → Unnoticed s (match s.fec with
      | none => tcpSegmentArrives env s skb
      | some fec =>
        let r := tcpFecInput env s fec skb
        if r.2 then r.1 else tcpSegmentArrives env r.1 skb) := by
    intro hsync
    dsimp only at h
    rw [if_pos hsync, if_pos hsync] at h
    cases hfec : s.fec with
    | none =>
      rw [hfec] at h
      exact unnoticed_tcpSegmentArrives (Nat.add_eq_zero_iff.mp h).1 (Nat.add_eq_zero_iff.mp h).2
    | some fec =>
      rw [hfec] at h
      dsimp only at h ⊢
      rw [List.countP_append, Nat.add_eq_zero_iff, Nat.add_eq_zero_iff] at h
      obtain ⟨⟨hsplice, htext⟩, hclose⟩ := h
      have hin : (tcpFecInput env s fec skb).1.inbox = s.inbox := by
        have hfold := inbox_foldl_tcpFecSplice _ _ hsplice
        unfold tcpFecInput
        dsimp only
        split
        · exact hfold
        · exact (inbox_tcpSendAck _).trans hfold
      split
      · exact .of_eq hin
      · next hgo =>
        rw [if_neg hgo] at htext hclose
        exact (unnoticed_tcpSegmentArrives htext hclose).after hin
  unfold tcpInputState
  cases hst : s.state with
  | close =>
    dsimp only
    unfold tcpClosed
    split
    · exact .of_eq rfl
    · exact .of_eq (inbox_tcpSendReset s)
  | listen => exact .of_eq rfl
  | synSent => exact .of_eq (inbox_tcpSynsent hst skb.th)
  | _ => exact hopen (by rw [hst]; rfl)

end Arrival

theorem unnoticed_tcpStep (env : Env) (s : TcpSock) {e : TcpEvent} (hread : ∀ len, e ≠ .read len)
    (hwake : ∀ rd, e ≠ .wake rd) (h : recvNotifies env s (.event e) = 0) :
    Unnoticed s (tcpStep env s e) := by
  cases e with
  | connect iss => exact .of_eq (inbox_connect s iss)
  | arrive seg => exact unnoticed_tcpIn h
  | write buf => exact .of_eq (inbox_tcpWrite s buf)
  | read len => exact absurd rfl (hread len)
  | wake rd => exact absurd rfl (hwake rd)
  | close => exact .of_eq (inbox_tcpClose s)
  | abort => exact .of_eq (@inbox_tcpSendReset env s)
  | timer handler =>
    change Unnoticed s (if handler ∈ s.timers then handler.run env s else s)
    split
    · exact .of_eq (inbox_timer s handler)
    · exact .of_eq rfl
  | tick ms => exact .of_eq rfl

/-- **Whatever calls no `recv_notify`** leaves nothing behind that a sleeping reader would have to
see, except for the mark of the end of the stream when the connection is over. -/
theorem unnoticed_threadStep (env : Env) (s : TcpSock) {e : ThreadEvent}
    (hread : ∀ len, e ≠ .event (.read len)) (hwake : ∀ rd, e ≠ .event (.wake rd))
    (h : recvNotifies env s e = 0) : Unnoticed s (threadStep env s e) := by
  cases e with
  | event e =>
    exact unnoticed_tcpStep env s (fun len he => hread len (congrArg _ he))
      (fun rd he => hwake rd (congrArg _ he)) h
  | late handler => exact .of_eq (inbox_timer s handler)

end LvlIp.Tcp
