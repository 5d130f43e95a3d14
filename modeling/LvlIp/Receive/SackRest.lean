import LvlIp.Receive.Ofo
import LvlIp.Shift.Queue
import LvlIp.Shift.Write

/-!
# The SACK blocks between two events

The SACK blocks of a socket are built and sent within one call of `tcp_data_queue`; between two
events there are none. A socket without blocks keeps what the handshake settled about SACK, whatever
it sends (`SackKept`), so a connected socket that has agreed on SACK may send four blocks
(`SackInv`).
-/

namespace LvlIp.Tcp

open Fec

/-- What a socket knows about SACK. -/
structure SackView where
  sackok : UInt8
  allowed : ℕ
  sacklen : ℕ
  sacks : List TcpSackBlock
  past : List (Option TcpSackBlock)
  tsopt : UInt8
  spilled : List UInt8
deriving DecidableEq

/-- What a socket knows about SACK. -/
def TcpSock.sack (s : TcpSock) : SackView where
  sackok := s.sackok
  allowed := s.sacksAllowed
  sacklen := s.sacklen
  sacks := s.sacks
  past := s.sacksPast
  tsopt := s.tsopt
  spilled := s.spilled

/-- No block is in use. -/
def SackView.Clear (v : SackView) : Prop := v.sacks = List.replicate 4 ⟨0, 0⟩

/-- The states in which text is queued, and the one before them. -/
def TcpState.mayReceive : TcpState → Bool
  | .synReceived | .established | .finWait1 | .finWait2 => true
  | _ => false

/-- The step tells the socket nothing about SACK, does not begin a connection, and queues nothing out
of order. -/
structure SackKept (s s' : TcpSock) : Prop where
  sack : s.sack.Clear → s'.sack = s.sack
  old : s'.state.mayReceive → s.state.mayReceive
  ofo : ∀ y ∈ s'.ofoQueue, y ∈ s.ofoQueue

section Kept

variable {env : Env} {s s' s'' : TcpSock}

theorem SackKept.refl (s : TcpSock) : SackKept s s := ⟨fun _ => rfl, id, fun _ => id⟩

theorem SackKept.trans (h : SackKept s s') (h' : SackKept s' s'') : SackKept s s'' where
  sack hclear := by
    have heq := h.sack hclear
    exact (h'.sack (heq ▸ hclear)).trans heq
  old := h.old ∘ h'.old
  ofo y hy := h.ofo y (h'.ofo y hy)

theorem SackKept.of_eq (hsack : s'.sack = s.sack) (hst : s'.state = s.state)
    (hofo : s'.ofoQueue = s.ofoQueue) : SackKept s s' :=
  ⟨fun _ => hsack, fun h => hst ▸ h, fun _ hy => hofo ▸ hy⟩

/-- The connection was there before. -/
theorem SackKept.of_old (hsack : s'.sack = s.sack) (hst : s.state.mayReceive)
    (hofo : s'.ofoQueue = s.ofoQueue) : SackKept s s' :=
  ⟨fun _ => hsack, fun _ => hst, fun _ hy => hofo ▸ hy⟩

/-- The connection has been torn down. -/
theorem SackKept.of_done (hsack : s'.sack = s.sack) (hst : s'.state.mayReceive = false)
    (hofo : s'.ofoQueue = []) : SackKept s s' :=
  ⟨fun _ => hsack, fun h => absurd (hst.symm.trans h) Bool.false_ne_true,
    fun _ hy => absurd (hofo ▸ hy) List.not_mem_nil⟩

/-- The connection is over. -/
theorem SackKept.of_over (hsack : s'.sack = s.sack) (hst : s'.state.mayReceive = false)
    (hofo : ∀ y ∈ s'.ofoQueue, y ∈ s.ofoQueue) : SackKept s s' :=
  ⟨fun _ => hsack, fun h => absurd (hst.symm.trans h) Bool.false_ne_true, hofo⟩

/-! ## Sending -/

theorem sackKept_tcpTransmitSkb (s : TcpSock) (skb : SkBuff) (seq : UInt32) :
    SackKept s (tcpTransmitSkb env s skb seq).1 where
  sack hclear := by
    have hsacks : s.sacks = List.replicate 4 ⟨0, 0⟩ := hclear
    unfold tcpTransmitSkb tcpFillOptions tcpWriteOptions
    rw [hsacks]
    split_ifs with h1 h2 h3
    · rfl
    · rfl
    · exact absurd (.inr rfl) h3
    · rfl
  old h := by rwa [state_eq_of_rcv (rcv_tcpTransmitSkb env s skb seq)] at h
  ofo y hy := by rwa [ofoQueue_eq_of_rcv (rcv_tcpTransmitSkb env s skb seq)] at hy

theorem sackKept_tcpDone (s : TcpSock) : SackKept s (tcpDone s) := .of_done rfl rfl rfl

theorem sackKept_tcpSendAck (s : TcpSock) : SackKept s (tcpSendAck env s) := by
  unfold tcpSendAck
  split
  · exact .refl s
  · exact (SackKept.of_eq rfl rfl rfl : SackKept s { s with nextAddr := s.nextAddr + 1 }).trans
      (sackKept_tcpTransmitSkb _ _ _)

theorem sackKept_tcpSendReset (s : TcpSock) : SackKept s (tcpSendReset env s) :=
  (SackKept.of_eq rfl rfl rfl : SackKept s
    { s with nextAddr := s.nextAddr + 1, tcb.sndUna := s.tcb.sndNxt }).trans
      (sackKept_tcpTransmitSkb _ _ _)

theorem sackKept_tcpRearmRtoTimer (s : TcpSock) : SackKept s (tcpRearmRtoTimer s) := by
  unfold tcpRearmRtoTimer
  dsimp only
  split <;> exact .of_eq rfl rfl rfl

theorem sackKept_tcpRearmUserTimeout (s : TcpSock) : SackKept s (tcpRearmUserTimeout s) := by
  unfold tcpRearmUserTimeout
  split <;> exact .of_eq rfl rfl rfl

theorem sackKept_tcpQueueTransmitSkb (s : TcpSock) (skb : SkBuff) :
    SackKept s (tcpQueueTransmitSkb env s skb).1 := by
  have hfirst : SackKept s (if s.writeQueue = [] then tcpRearmRtoTimer s else s) := by
    split
    · exact sackKept_tcpRearmRtoTimer s
    · exact .refl s
  unfold tcpQueueTransmitSkb
  dsimp only
  generalize (if s.writeQueue = [] then tcpRearmRtoTimer s else s) = s₁ at hfirst
  refine hfirst.trans ?_
  split
  · have hsent := @sackKept_tcpTransmitSkb env s₁ skb s₁.tcb.sndNxt
    unfold tcpQueueTransmitNow
    generalize tcpTransmitSkb env s₁ skb s₁.tcb.sndNxt = t at hsent
    exact hsent.trans (.of_eq rfl rfl rfl)
  · exact .of_eq rfl rfl rfl

theorem sackKept_tcpSendNextLoop (n : ℕ) (s : TcpSock) (q : List SkBuff) :
    SackKept s (tcpSendNextLoop env n s q).1 := by
  induction n generalizing s q with
  | zero => exact .refl s
  | succ n ih =>
    cases q with
    | nil => exact .refl s
    | cons skb q =>
      have hsent := @sackKept_tcpTransmitSkb env s skb s.tcb.sndNxt
      unfold tcpSendNextLoop
      dsimp only
      generalize tcpTransmitSkb env s skb s.tcb.sndNxt = t at hsent
      have hnext : SackKept t.1 (tcpAdvanceNxt t.1 t.2.1) := .of_eq rfl rfl rfl
      exact (hsent.trans hnext).trans (ih _ q)

theorem sackKept_tcpSendPending (s : TcpSock) (n : ℕ) : SackKept s (tcpSendPending env s n) := by
  have hloop := @sackKept_tcpSendNextLoop env n s s.writeQueue
  unfold tcpSendPending tcpSendNext
  dsimp only
  generalize tcpSendNextLoop env n s s.writeQueue = l at hloop
  refine (hloop.trans ?_).trans (sackKept_tcpRearmRtoTimer _)
  exact .of_eq rfl rfl rfl

theorem sackKept_tcpFecEmitBlock (s : TcpSock) (fec : TcpFec) (blkK tailLen : ℕ) :
    SackKept s (tcpFecEmitBlock env s fec blkK tailLen).1 := by
  obtain ⟨ts, fec', heq⟩ := tcpFecEmitBlock_frame env s fec blkK tailLen
  rw [heq]
  exact .of_eq rfl rfl rfl

/-- A write queues segments, and sends parity. -/
theorem sackKept_tcpSend (s : TcpSock) (buf : List UInt8) : SackKept s (tcpSend env s buf) := by
  have hflush : ∀ s : TcpSock, SackKept s (tcpFecForceFlush env s) := by
    intro s
    unfold tcpFecForceFlush
    split
    · exact .refl s
    · split
      · exact sackKept_tcpFecEmitBlock s _ _ _
      · exact .refl s
  have hfull : ∀ s : TcpSock, SackKept s (tcpFecEmitFull env s) := by
    intro s
    unfold tcpFecEmitFull
    split
    · exact .refl s
    · split
      · exact sackKept_tcpFecEmitBlock s _ _ _
      · exact .refl s
  have hpiece : ∀ (s : TcpSock) (piece : List UInt8 × Bool),
      SackKept s (tcpSendPiece env s piece) := by
    intro s piece
    rw [tcpSendPiece_eq]
    refine (hflush s).trans (SackKept.trans ?_ (hfull _))
    generalize tcpFecForceFlush env s = s₁
    unfold tcpSendQueued
    dsimp only
    generalize hbuf : tcpAllocSkb (tcpFecPin s₁) _ _ piece.1 = a
    have halloc : SackKept s₁ { a.1 with fec := a.1.fec.map fun fec => fec.register a.2 } := by
      rw [← hbuf]
      exact .of_eq rfl rfl rfl
    exact halloc.trans (sackKept_tcpQueueTransmitSkb _ _)
  unfold tcpSend
  refine SackKept.trans ?_ (sackKept_tcpRearmUserTimeout _)
  generalize tcpPieces (tcpSendMss s) buf.length buf = pieces
  induction pieces generalizing s with
  | nil => exact .refl s
  | cons piece pieces ih => exact (hpiece s piece).trans (ih _)

theorem sackKept_tcpWrite (s : TcpSock) (buf : List UInt8) : SackKept s (tcpWrite env s buf).1 := by
  unfold tcpWrite
  split
  · exact .refl s
  · split
    · exact sackKept_tcpSend s buf
    · exact sackKept_tcpSend s buf
    · exact .refl s

theorem sackKept_tcpQueueFin (s : TcpSock) : SackKept s (tcpQueueFin env s) := by
  have hflush : SackKept s (tcpFecFlush env s) := by
    unfold tcpFecFlush
    split
    · exact .refl s
    · split
      · exact .refl s
      · exact sackKept_tcpFecEmitBlock s _ _ _
  unfold tcpQueueFin
  generalize tcpFecFlush env s = s₁ at hflush
  have halloc : SackKept s₁ { s₁ with nextAddr := s₁.nextAddr + 1 } := .of_eq rfl rfl rfl
  exact (hflush.trans halloc).trans (sackKept_tcpQueueTransmitSkb _ _)

theorem sackKept_tcpClose (s : TcpSock) : SackKept s (tcpClose env s) := by
  unfold tcpClose
  split
  any_goals exact .of_eq rfl rfl rfl
  any_goals exact sackKept_tcpDone s
  · next hst =>
    have hfin : SackKept s { s with state := .finWait1 } := .of_old rfl (by rw [hst]; rfl) rfl
    exact hfin.trans (sackKept_tcpQueueFin _)
  · exact sackKept_tcpQueueFin s

theorem sackKept_inetStreamConnect (s : TcpSock) (iss : UInt32) :
    SackKept s (inetStreamConnect env s iss) := by
  unfold inetStreamConnect
  split
  · exact .of_eq rfl rfl rfl
  · next hclose =>
    rw [not_not] at hclose
    unfold tcpConnect tcpSendSyn
    rw [if_neg (by simp [hclose])]
    dsimp only
    have hsyn : ∀ s₁ : TcpSock, SackKept s s₁ → ∀ skb,
        SackKept s (tcpQueueTransmitSkb env s₁ skb).1 :=
      fun s₁ h skb => h.trans (sackKept_tcpQueueTransmitSkb s₁ skb)
    refine SackKept.trans (hsyn _ ?_ _) (.of_eq rfl rfl rfl)
    exact .of_over rfl rfl fun _ => id

/-! ## Timers and reading -/

theorem sackKept_tcpHandleFinState (s : TcpSock) : SackKept s (tcpHandleFinState s) := by
  unfold tcpHandleFinState
  split
  · exact .of_over rfl rfl fun _ => id
  · next hst => exact .of_old rfl (by rw [hst]; rfl) rfl
  · exact .refl s

theorem sackKept_tcpConnectRto (s : TcpSock) : SackKept s (tcpConnectRto env s) := by
  unfold tcpConnectRto
  dsimp only
  split
  · split
    · exact .of_done rfl rfl rfl
    · split
      · exact .of_eq rfl rfl rfl
      · next skb q hq =>
        have hsent := @sackKept_tcpTransmitSkb env (tcpReleaseRtoTimer s) skb
          (tcpReleaseRtoTimer s).tcb.sndUna
        generalize tcpTransmitSkb env (tcpReleaseRtoTimer s) skb
          (tcpReleaseRtoTimer s).tcb.sndUna = t at hsent
        have hrelease : SackKept s (tcpReleaseRtoTimer s) := .of_eq rfl rfl rfl
        refine ((hrelease.trans hsent).trans ?_).trans (sackKept_tcpRearmRtoTimer _)
        exact .of_eq rfl rfl rfl
  · exact .of_eq rfl rfl rfl

theorem sackKept_tcpRetransmissionTimeout (s : TcpSock) :
    SackKept s (tcpRetransmissionTimeout env s) := by
  unfold tcpRetransmissionTimeout
  dsimp only
  split
  · exact .of_eq rfl rfl rfl
  · next skb q hq =>
    have hsent := @sackKept_tcpTransmitSkb env (tcpReleaseRtoTimer s) skb
      (tcpReleaseRtoTimer s).tcb.sndUna
    generalize tcpTransmitSkb env (tcpReleaseRtoTimer s) skb
      (tcpReleaseRtoTimer s).tcb.sndUna = t at hsent
    have hrelease : SackKept s (tcpReleaseRtoTimer s) := .of_eq rfl rfl rfl
    refine (hrelease.trans hsent).trans ?_
    split
    · exact .of_done rfl rfl rfl
    · split
      · refine SackKept.trans ?_ (sackKept_tcpHandleFinState _)
        exact .of_eq rfl rfl rfl
      · exact .of_eq rfl rfl rfl

theorem sackKept_timer (s : TcpSock) (handler : TimerHandler) :
    SackKept s (handler.run env s) := by
  cases handler with
  | tcpConnectRto => exact sackKept_tcpConnectRto s
  | tcpRetransmissionTimeout => exact sackKept_tcpRetransmissionTimeout s
  | tcpSendDelack =>
    have hrelease : SackKept s (tcpReleaseDelackTimer { s with delacks := 0 }) := .of_eq rfl rfl rfl
    exact hrelease.trans (sackKept_tcpSendAck _)
  | tcpLinger =>
    have hrelease : SackKept s { s with linger := none } := .of_eq rfl rfl rfl
    exact hrelease.trans (sackKept_tcpDone _)
  | tcpUserTimeout =>
    have hrelease : SackKept s { s with linger := none } := .of_eq rfl rfl rfl
    exact (hrelease.trans (sackKept_tcpSendReset _)).trans (sackKept_tcpDone _)

theorem sackKept_tcpReceiveStep (s : TcpSock) (rd : Reader) :
    SackKept s (tcpReceiveStep s rd).1 := by
  have hreturn : ∀ (s₁ : TcpSock) (got : List UInt8), SackKept s s₁ →
      SackKept s (tcpReceiveReturn s₁ got).1 :=
    fun s₁ got h => h.trans (sackKept_tcpRearmUserTimeout s₁)
  unfold tcpReceiveStep tcpDataDequeue
  dsimp only
  split
  · exact hreturn s _ (.refl s)
  · split
    · exact hreturn _ _ (.of_eq rfl rfl rfl)
    · split
      · exact hreturn _ _ (.of_eq rfl rfl rfl)
      · split
        · split
          · exact .of_eq rfl rfl rfl
          · exact hreturn _ _ (.of_eq rfl rfl rfl)
        · exact .of_eq rfl rfl rfl

theorem sackKept_tcpRead (s : TcpSock) (len : ℕ) : SackKept s (tcpRead s len).1 := by
  unfold tcpRead
  split
  any_goals exact .refl s
  any_goals exact sackKept_tcpReceiveStep s _
  split
  · exact .of_eq rfl rfl rfl
  · exact sackKept_tcpReceiveStep s _

/-- **Every event but an arrival.** -/
theorem sackKept_tcpStep {e : TcpEvent} (he : ∀ seg, e ≠ .arrive seg) :
    SackKept s (tcpStep env s e) := by
  cases e with
  | arrive seg => exact absurd rfl (he seg)
  | connect iss => exact sackKept_inetStreamConnect s iss
  | write buf => exact sackKept_tcpWrite s buf
  | read len => exact sackKept_tcpRead s len
  | wake rd => exact sackKept_tcpReceiveStep s rd
  | close => exact sackKept_tcpClose s
  | abort => exact (sackKept_tcpSendReset s).trans (sackKept_tcpDone _)
  | timer handler =>
    change SackKept s (if handler ∈ s.timers then handler.run env s else s)
    split
    · exact sackKept_timer s handler
    · exact .refl s
  | tick ms => exact .of_eq rfl rfl rfl

/-! ## Arrival -/

theorem sackKept_tcpCleanRtoQueue (s : TcpSock) (una : UInt32) :
    SackKept s (tcpCleanRtoQueue s una) := by
  unfold tcpCleanRtoQueue
  dsimp only
  split <;> exact .of_eq rfl rfl rfl

theorem sackKept_tcpRtt (s : TcpSock) : SackKept s (tcpRtt s) := by
  unfold tcpRtt
  split
  · exact .refl s
  · split
    · exact .refl s
    · dsimp only
      split <;> exact .of_eq rfl rfl rfl

theorem sackKept_tcpAck (s : TcpSock) (ackSeq : UInt32) : SackKept s (tcpAck s ackSeq).1 := by
  unfold tcpAck
  dsimp only
  split
  · have hset : SackKept s { s with tcb.sndUna := ackSeq } := .of_eq rfl rfl rfl
    exact (hset.trans (sackKept_tcpRtt _)).trans (sackKept_tcpCleanRtoQueue _ _)
  · exact .refl s

theorem sack_tcpFecResolve (s : TcpSock) : (tcpFecResolve s).sack = s.sack := by
  rw [tcpFecResolve_eq]
  split <;> rfl

theorem ofoQueue_tcpFecResolve (s : TcpSock) : (tcpFecResolve s).ofoQueue = s.ofoQueue := by
  rw [tcpFecResolve_eq]
  split <;> rfl

theorem sackKept_tcpAckField (s : TcpSock) (th : Tcphdr) : SackKept s (tcpAckField s th).1 := by
  unfold tcpAckField
  split
  · next hst =>
    split
    · have hopen : SackKept s (tcpFecResolve { s with state := .established }) :=
        .of_old (sack_tcpFecResolve _) (by rw [hst]; rfl) (ofoQueue_tcpFecResolve _)
      exact hopen.trans (sackKept_tcpAck _ _)
    · exact .refl s
  all_goals first
    | exact sackKept_tcpAck s _
    | exact .refl s

theorem sackKept_tcpFinAcked (s : TcpSock) (th : Tcphdr) :
    SackKept s (tcpFinAcked env s th).1 := by
  unfold tcpFinAcked
  split
  · split
    · next hst => exact .of_old rfl (by rw [hst]; rfl) rfl
    · exact .of_over rfl rfl fun _ => id
    · exact sackKept_tcpDone s
    · split
      · have hset : SackKept s { s with finFlag := true } := .of_eq rfl rfl rfl
        exact hset.trans (sackKept_tcpSendAck _)
      · exact .refl s
    · exact .refl s
  · exact .refl s

theorem sackKept_tcpChecks (s : TcpSock) (skb : SkBuff) :
    (∀ s', tcpChecks env true s skb = .error s' → SackKept s s') ∧
      ∀ s', tcpChecks env true s skb = .ok s' → SackKept s s' := by
  have hack := sackKept_tcpAckField s skb.th
  have hfin := hack.trans (@sackKept_tcpFinAcked env (tcpAckField s skb.th).1 skb.th)
  have herr : ∀ s₁ : TcpSock, SackKept s s₁ →
      (∀ s', Except.error s₁ = (.error s' : Except TcpSock TcpSock) → SackKept s s') ∧
        ∀ s', Except.error s₁ = (.ok s' : Except TcpSock TcpSock) → SackKept s s' := by
    intro s₁ h
    refine ⟨fun s' heq => ?_, fun s' heq => ?_⟩
    · rwa [← Except.error.inj heq]
    · cases heq
  unfold tcpChecks
  rw [tcpAckFieldOr_true]
  dsimp only
  split
  · refine herr _ ?_
    split
    · exact .refl s
    · exact sackKept_tcpSendAck s
  · split
    · exact herr _ (.of_over rfl rfl fun _ => id)
    · split
      · exact herr _ (.refl s)
      · split
        · exact herr _ (.refl s)
        · split
          · exact herr _ hack
          · split
            · exact herr _ hfin
            · refine ⟨fun s' heq => ?_, fun s' heq => ?_⟩
              · cases heq
              · rwa [← Except.ok.inj heq]

theorem sackKept_tcpFinState (s : TcpSock) : SackKept s (tcpFinState s) := by
  unfold tcpFinState
  split
  · exact .of_over rfl rfl fun _ => id
  · exact .of_over rfl rfl fun _ => id
  · split <;> exact .of_over rfl rfl fun _ => id
  · exact .of_over rfl rfl fun _ => id
  · exact .refl s

theorem sackKept_tcpFin (s : TcpSock) (th : Tcphdr) (expected : Bool) :
    SackKept s (tcpFin env s th expected) := by
  unfold tcpFin
  split
  · have hset : SackKept s { s with tcb.rcvNxt := s.tcb.rcvNxt + 1, finFlag := true } :=
      .of_eq rfl rfl rfl
    exact (hset.trans (sackKept_tcpSendAck _)).trans (sackKept_tcpFinState _)
  · exact .refl s

theorem sackKept_tcpAckOrDelay (s : TcpSock) (skb : SkBuff) :
    SackKept s (tcpAckOrDelay env s skb) := by
  unfold tcpAckOrDelay
  dsimp only
  split
  · have hset : SackKept s { s with delacks := 0 } := .of_eq rfl rfl rfl
    exact hset.trans (sackKept_tcpSendAck _)
  · split <;> exact .of_eq rfl rfl rfl

theorem sackKept_tcpPending (s : TcpSock) (skb : SkBuff) (expected : Bool) :
    SackKept s (tcpPending env s skb expected) := by
  unfold tcpPending
  split
  · have hstop : SackKept s (tcpStopDelackTimer s) := .of_eq rfl rfl rfl
    dsimp only
    split
    · exact hstop.trans (sackKept_tcpSendPending _ _)
    · exact hstop.trans (sackKept_tcpAckOrDelay _ skb)
  · exact .refl s

end Kept

/-! ## The invariant -/

/-- No SACK block waits, none has been stored behind the array or written past the room for it, and
there is no timestamp option. -/
structure SackIdle (s : TcpSock) : Prop where
  sacklen : s.sacklen = 0
  sacks : s.sacks = List.replicate 4 ⟨0, 0⟩
  past : s.sacksPast = []
  spilled : s.spilled = []
  allowed : s.sacksAllowed ≤ 4
  tsopt : s.tsopt = 0

/-- Besides, a connection that has agreed on SACK may send four blocks. -/
structure SackInv (s : TcpSock) : Prop extends SackIdle s where
  agreed : s.state.mayReceive → s.sackok ≠ 0 → s.sacksAllowed = 4

section Inv

variable {env : Env} {s s' : TcpSock}

theorem SackIdle.of_sack (h : SackIdle s) (hsack : s'.sack = s.sack) : SackIdle s' :=
  { sacklen := (congrArg SackView.sacklen hsack).trans h.sacklen
    sacks := (congrArg SackView.sacks hsack).trans h.sacks
    past := (congrArg SackView.past hsack).trans h.past
    spilled := (congrArg SackView.spilled hsack).trans h.spilled
    allowed := (congrArg SackView.allowed hsack).le.trans h.allowed
    tsopt := (congrArg SackView.tsopt hsack).trans h.tsopt }

theorem SackInv.of_sack (h : SackInv s) (hsack : s'.sack = s.sack)
    (hold : s'.state.mayReceive → s.state.mayReceive) : SackInv s' := by
  refine ⟨h.toSackIdle.of_sack hsack, fun hst hok => ?_⟩
  have hok' : s'.sackok = s.sackok := congrArg SackView.sackok hsack
  have hallowed : s'.sacksAllowed = s.sacksAllowed := congrArg SackView.allowed hsack
  rw [hallowed]
  exact h.agreed (hold hst) (hok' ▸ hok)

theorem SackInv.kept (h : SackInv s) (hk : SackKept s s') : SackInv s' :=
  h.of_sack (hk.sack h.sacks) hk.old

/-- **The options of a SYN** settle what is agreed on. -/
theorem sackInv_tcpParseOpts (h : SackIdle s) (th : Tcphdr) : SackInv (tcpParseOpts s th) := by
  unfold tcpParseOpts
  dsimp only
  generalize tcpWalkOptions th.data (tcpOptAreaLen th) .zero = opts
  generalize hs₁ : (if opts.mss ≠ 0 then { s with smss := opts.mss } else s : TcpSock) = s₁
  have h₁ : SackIdle s₁ := by
    rw [← hs₁]
    split
    · exact h.of_sack rfl
    · exact h
  generalize hs₂ : (if ¬ opts.tsSeen then { s₁ with tsopt := 0 } else s₁ : TcpSock) = s₂
  have h₂ : SackIdle s₂ := by
    rw [← hs₂]
    split
    · exact { h₁ with tsopt := rfl }
    · exact h₁
  generalize hs₃ : (if opts.sackOk ∧ s₂.sackok ≠ 0 then
    { s₂ with sacksAllowed := if s₂.tsopt ≠ 0 then 3 else 4 }
    else { s₂ with sackok := 0 } : TcpSock) = s₃
  have h₃ : SackInv s₃ := by
    rw [← hs₃]
    split
    · have hfour : (if s₂.tsopt ≠ 0 then 3 else 4) = 4 := if_neg (not_not.mpr h₂.tsopt)
      exact ⟨{ h₂ with allowed := hfour.le }, fun _ _ => hfour⟩
    · exact ⟨{ h₂ with }, fun _ hok => absurd rfl hok⟩
  split <;> exact ⟨h₃.toSackIdle.of_sack rfl, h₃.agreed⟩

/-- An acceptable SYN. -/
theorem SackInv.synsentSyn (h : SackInv s) (th : Tcphdr) : SackInv (tcpSynsentSyn env s th) := by
  unfold tcpSynsentSyn
  dsimp only
  generalize hs₁ : (if th.ack then _ else _ : TcpSock) = s₁
  have h₁ : SackIdle s₁ := by
    rw [← hs₁]
    split
    · have hset : SackInv { s with
          tcb.rcvNxt := th.seq + 1, tcb.irs := th.seq, tcb.sndUna := th.ackSeq } :=
        ⟨h.toSackIdle.of_sack rfl, h.agreed⟩
      exact (hset.kept (sackKept_tcpCleanRtoQueue _ _)).toSackIdle
    · exact h.toSackIdle.of_sack rfl
  split
  · generalize hs₂ : ({ s₁ with
      state := .established, tcb.sndUna := s₁.tcb.sndNxt, backoff := 0, rto := 1000 } : TcpSock) = s₂
    have h₂ : SackIdle s₂ := by
      rw [← hs₂]
      exact h₁.of_sack rfl
    have hkept := (@sackKept_tcpSendAck env s₂).trans (sackKept_tcpRearmUserTimeout _)
    have hparsed := sackInv_tcpParseOpts (h₂.of_sack (hkept.sack h₂.sacks)) th
    generalize tcpParseOpts (tcpRearmUserTimeout (tcpSendAck env s₂)) th = s₃ at hparsed
    have hst : (tcpFecResolve s₃).state = s₃.state := by
      obtain ⟨fec, hrcv⟩ := rcv_tcpFecResolve s₃
      exact congrArg RcvView.state hrcv
    exact hparsed.kept (.of_eq (sack_tcpFecResolve s₃) hst (ofoQueue_tcpFecResolve s₃))
  · have h₂ : SackIdle { s₁ with state := .synReceived, tcb.sndUna := s₁.tcb.iss } :=
      h₁.of_sack rfl
    have hparsed := sackInv_tcpParseOpts h₂ th
    have hst := state_eq_of_rcv (rcv_tcpParseOpts { s₁ with
      state := .synReceived, tcb.sndUna := s₁.tcb.iss } th)
    unfold tcpSendSynack
    rw [if_pos (by rw [hst]; exact TcpState.noConfusion)]
    exact hparsed

/-- **A segment for a connection that is not there yet.** -/
theorem SackInv.early (h : SackInv s) (hsync : s.state.synchronized = false) (seg : Segment) :
    SackInv (tcpIn env s seg) := by
  unfold tcpIn tcpInputState
  split
  · unfold tcpClosed
    split
    · exact h
    · exact h.kept (sackKept_tcpSendReset s)
  · exact h
  · next hst =>
    unfold tcpSynsent
    split
    · exact h
    · split
      · exact h
      · split
        · unfold tcpReset
          rw [hst]
          exact h.kept (.of_done rfl rfl rfl)
        · split
          · exact h
          · exact h.synsentSyn _
  · cases hst : s.state <;> rw [hst] at hsync <;> contradiction

/-- A segment in order, or without SACK, builds no blocks. -/
theorem SackInv.dataQueue_plain (hinv : SackInv s) {skb : SkBuff}
    (h : skb.seq = s.tcb.rcvNxt ∨ s.sackok = 0) : SackInv (tcpDataQueue env s skb) := by
  unfold tcpDataQueue
  split
  · exact hinv
  · split
    · exact hinv.of_sack rfl id
    · next hne =>
      dsimp only
      rw [if_neg (not_not.mpr (h.resolve_left hne))]
      have hqueued : SackInv { s with ofoQueue := tcpDataInsertOrdered s.ofoQueue skb } :=
        hinv.of_sack rfl id
      exact hqueued.kept (sackKept_tcpSendAck _)

theorem sackInv_tcpAllocSock : SackInv tcpAllocSock :=
  ⟨⟨rfl, rfl, rfl, rfl, Nat.zero_le 4, rfl⟩, fun h => absurd h (by decide)⟩

end Inv

end LvlIp.Tcp
