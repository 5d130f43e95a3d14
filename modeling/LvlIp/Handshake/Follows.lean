import LvlIp.Handshake.State

/-!
# The SYN and its retransmissions

Every event of an open connection keeps what the handshake has settled (`follows_tcpStep`).
-/

namespace LvlIp.Tcp

open Fec

/-- No SYN waits for its acknowledgement, or the buffer at the head of the queue alone is one, and
something is in flight. -/
def SynFirst (q : List SkBuff) (inflight : ℕ) : Prop :=
  (∀ y ∈ q, y.th.syn = false) ∨
    inflight ≠ 0 ∧ ∃ y rest, q = y :: rest ∧ ∀ z ∈ rest, z.th.syn = false

/-- A SYN that waits is in flight, and not retransmitted as data is. -/
structure SynKept (s : TcpSock) : Prop where
  first : SynFirst s.writeQueue s.inflight
  timer : s.rtoArmed → ∀ y ∈ s.writeQueue, y.th.syn = false

/-- Every SYN among what has gone out is an old one. -/
def NoNewSyn (s s' : TcpSock) : Prop := ∀ t ∈ s'.out, t.seg.th.syn → t ∈ s.out

/-- The connection goes on from `s` to `s'`. -/
structure Follows (s s' : TcpSock) : Prop where
  opened : s.state.opened → s'.state.opened
  fec : FecResolved s → FecResolved s'
  settled : s'.settled = s.settled
  syn : SynKept s → SynKept s' ∧ NoNewSyn s s'

section Follows

variable {env : Env} {s s' : TcpSock}

theorem NoNewSyn.of_eq (s' : TcpSock) (h : s'.out = s.out) : NoNewSyn s s' := by
  intro t ht _
  rwa [h] at ht

theorem NoNewSyn.trans {s'' : TcpSock} (h : NoNewSyn s s') (h' : NoNewSyn s' s'') :
    NoNewSyn s s'' :=
  fun t ht hsyn => h t (h' t ht hsyn) hsyn

/-- Segments without a SYN are added to what has gone out. -/
theorem NoNewSyn.append {ts : List Transmission} (s' : TcpSock) (h : s'.out = s.out ++ ts)
    (hts : ∀ t ∈ ts, t.seg.th.syn = false) : NoNewSyn s s' := by
  intro t ht hsyn
  rw [h] at ht
  rcases List.mem_append.mp ht with ht | ht
  · exact ht
  · rw [hts t ht] at hsyn
    cases hsyn

theorem Follows.refl (s : TcpSock) : Follows s s := ⟨id, id, rfl, fun h => ⟨h, .of_eq s rfl⟩⟩

theorem Follows.trans {s'' : TcpSock} (h : Follows s s') (h' : Follows s' s'') :
    Follows s s'' := by
  refine ⟨h'.opened ∘ h.opened, h'.fec ∘ h.fec, h'.settled.trans h.settled, fun hk => ?_⟩
  obtain ⟨hk₁, hnew⟩ := h.syn hk
  obtain ⟨hk₂, hnew'⟩ := h'.syn hk₁
  exact ⟨hk₂, hnew.trans hnew'⟩

theorem Quiet.follows (h : Quiet s s') : Follows s s' := by
  obtain ⟨ts, hout, hsyn⟩ := h.out
  have hq : s'.writeQueue = s.writeQueue := congrArg HsView.writeQueue h.hs
  have hn : s'.inflight = s.inflight := congrArg HsView.inflight h.hs
  have hset : s'.settled = s.settled := congrArg HsView.settled h.hs
  refine ⟨h.opened, h.fec, hset, fun hk => ⟨⟨?_, fun harmed => ?_⟩, .append s' hout hsyn⟩⟩
  · rw [hq, hn]
    exact hk.first
  · rw [hq]
    exact hk.timer (h.rtoArmed harmed)

/-! ## Acknowledgements -/

theorem SynFirst.clean {q : List SkBuff} {n : ℕ} (h : SynFirst q n) (una : UInt32) :
    SynFirst (tcpCleanLoop una q n).1 (tcpCleanLoop una q n).2 := by
  rcases h with hnone | ⟨hn, y, rest, rfl, hrest⟩
  · exact .inl fun y hy => hnone y (mem_tcpCleanLoop hy)
  · unfold tcpCleanLoop
    split
    · exact .inl fun z hz => hrest z (mem_tcpCleanLoop hz)
    · exact .inr ⟨hn, y, rest, rfl, hrest⟩

theorem follows_tcpCleanRtoQueue (s : TcpSock) (una : UInt32) :
    Follows s (tcpCleanRtoQueue s una) := by
  have hstop : ∀ s : TcpSock, Quiet s (tcpStopRtoTimer s) := fun s =>
    ⟨id, fun h => ⟨h.early, h.transfers⟩, rfl, sameTimer_none _, .inl rfl, .inl rfl, [],
      (List.append_nil _).symm, nofun⟩
  have hclean : Follows s { s with
      writeQueue := (tcpCleanLoop una s.writeQueue s.inflight).1
      inflight := (tcpCleanLoop una s.writeQueue s.inflight).2 } := by
    refine ⟨id, fun h => ⟨h.early, h.transfers⟩, rfl, fun h => ⟨⟨h.first.clean una, ?_⟩, ?_⟩⟩
    · exact fun harmed y hy => h.timer harmed y (mem_tcpCleanLoop hy)
    · exact .of_eq _ rfl
  unfold tcpCleanRtoQueue
  dsimp only
  split
  · exact hclean.trans (hstop _).follows
  · exact hclean

theorem quiet_tcpRtt (s : TcpSock) : Quiet s (tcpRtt s) := by
  unfold tcpRtt
  split
  · exact .refl s
  · split
    · exact .refl s
    · dsimp only
      split
      · exact .refl s
      · exact .of_eq _ rfl rfl rfl rfl rfl rfl rfl

theorem follows_tcpAck (s : TcpSock) (ackSeq : UInt32) : Follows s (tcpAck s ackSeq).1 := by
  unfold tcpAck
  dsimp only
  split
  · have hrtt := quiet_tcpRtt { s with tcb.sndUna := ackSeq }
    have hset : Quiet s { s with tcb.sndUna := ackSeq } := .of_eq _ rfl rfl rfl rfl rfl rfl rfl
    exact (hset.trans hrtt).follows.trans (follows_tcpCleanRtoQueue _ ackSeq)
  · exact .refl s

/-- **Fifth, the ACK field.** -/
theorem follows_tcpAckField (s : TcpSock) (th : Tcphdr) : Follows s (tcpAckField s th).1 := by
  unfold tcpAckField
  split
  · next hst =>
    split
    · exact (quiet_established hst).follows.trans (follows_tcpAck _ _)
    · exact .refl s
  all_goals first
    | exact follows_tcpAck s _
    | exact .refl s

theorem state_tcpAckField {th : Tcphdr} (h : (tcpAckField s th).2) :
    (tcpAckField s th).1.state ≠ .synReceived := by
  unfold tcpAckField at h ⊢
  cases hst : s.state with
  | synReceived =>
    rw [hst] at h
    dsimp only at h ⊢
    split at h
    · next hacc =>
      rw [if_pos hacc, state_tcpAck, state_tcpFecResolve]
      nofun
    · cases h
  | established | finWait1 | finWait2 | closeWait | closing | lastAck =>
    dsimp only
    rw [state_tcpAck, hst]
    nofun
  | _ =>
    dsimp only
    rw [hst]
    nofun

theorem state_tcpFinAcked {th : Tcphdr} (h : s.state ≠ .synReceived) :
    (tcpFinAcked env s th).1.state ≠ .synReceived := by
  unfold tcpFinAcked
  split
  · split
    · nofun
    · nofun
    · nofun
    · split
      · rw [state_tcpSendAck]
        exact h
      · exact h
    · exact h
  · exact h

theorem state_tcpText (s : TcpSock) (skb : SkBuff) : (tcpText env s skb).state = s.state := by
  unfold tcpText
  split
  · exact (congrArg RcvView.state (rcv_tcpDataQueue env s skb)).trans (state_dataQueue _ _)
  · rfl

/-! ## Pending segments -/

theorem follows_tcpRearmRtoTimer (s : TcpSock) (hsyn : ∀ y ∈ s.writeQueue, y.th.syn = false) :
    Follows s (tcpRearmRtoTimer s) := by
  unfold tcpRearmRtoTimer
  dsimp only
  split
  · exact ⟨id, fun h => ⟨h.early, h.transfers⟩, rfl,
      fun h => ⟨⟨h.first, fun _ => hsyn⟩, .of_eq _ rfl⟩⟩
  · exact ⟨id, fun h => ⟨h.early, h.transfers⟩, rfl,
      fun h => ⟨⟨h.first, fun _ => hsyn⟩, .of_eq _ rfl⟩⟩

theorem SynFirst.none_of_zero {q : List SkBuff} (h : SynFirst q 0) :
    ∀ y ∈ q, y.th.syn = false :=
  h.resolve_right fun h => h.1 rfl

theorem syn_of_sendsNext {nxt nxt' : UInt32} {q q' : List SkBuff} {n : ℕ} {ts : List Transmission}
    (h : SendsNext nxt q n nxt' q' ts) (hq : ∀ y ∈ q, y.th.syn = false) :
    (∀ y ∈ q', y.th.syn = false) ∧ ∀ t ∈ ts, t.seg.th.syn = false := by
  induction h with
  | nil nxt q => exact ⟨hq, nofun⟩
  | cons hth _ ih =>
    obtain ⟨hq', hts⟩ := ih fun y hy => hq y (List.mem_cons_of_mem _ hy)
    have hsyn := hth.syn.trans (hq _ List.mem_cons_self)
    refine ⟨fun y hy => ?_, fun t ht => ?_⟩
    · rcases List.mem_cons.mp hy with rfl | hy
      · exact hsyn
      · exact hq' y hy
    · rcases List.mem_cons.mp ht with rfl | ht
      · exact hsyn
      · exact hts t ht

theorem settled_tcpSendNextLoop (n : ℕ) (s : TcpSock) (q : List SkBuff) :
    (tcpSendNextLoop env n s q).1.settled = s.settled := by
  induction n generalizing s q with
  | zero => rfl
  | succ n ih =>
    cases q with
    | nil => rfl
    | cons skb q =>
      rw [tcpSendNextLoop]
      exact (ih _ q).trans (congrArg HsView.settled (hsFrame_tcpTransmitSkb s skb _).hs)

theorem settled_tcpRearmRtoTimer (s : TcpSock) : (tcpRearmRtoTimer s).settled = s.settled := by
  unfold tcpRearmRtoTimer
  dsimp only
  split <;> rfl

/-- The receive side, FEC included, and what has been settled stay as they are. -/
theorem Follows.of_rcv (hrcv : s'.rcv = s.rcv) (hset : s'.settled = s.settled)
    (hsyn : SynKept s → SynKept s' ∧ NoNewSyn s s') : Follows s s' := by
  have hst : s'.state = s.state := state_eq_of_rcv hrcv
  have hfec : s'.fec = s.fec := congrArg RcvView.fec hrcv
  have hok : s'.fecok = s.fecok := congrArg Settled.fecok hset
  refine ⟨?_, .of_eq s' ?_ ?_ (by rw [hfec]) hok, hset, hsyn⟩
  · rw [hst]
    exact id
  · rw [hst]
    exact id
  · rw [hst]
    exact id

/-- **Pending segments go out** when nothing is in flight: no SYN is among them. -/
theorem follows_tcpSendPending (h0 : s.inflight = 0) {n : ℕ} (hn : n ≤ s.writeQueue.length) :
    Follows s (tcpSendPending env s n) := by
  have hset : (tcpSendPending env s n).settled = s.settled :=
    (settled_tcpRearmRtoTimer _).trans (settled_tcpSendNextLoop n s s.writeQueue)
  refine .of_rcv (rcv_tcpSendPending env s n) hset fun hk => ?_
  obtain ⟨ts, hsends, hview⟩ := sendsNext_tcpSendNextLoop env n s s.writeQueue hn
  obtain ⟨hq, hts⟩ := syn_of_sendsNext hsends (SynFirst.none_of_zero (h0 ▸ hk.first))
  unfold tcpSendPending tcpSendNext
  dsimp only
  generalize tcpSendNextLoop env n s s.writeQueue = l at hview hq
  have hout : l.1.out = s.out ++ ts := congrArg TxView.out hview
  obtain ⟨hk', hnew⟩ := (follows_tcpRearmRtoTimer { l.1 with
    writeQueue := l.2, inflight := l.1.inflight + n } hq).syn ⟨.inl hq, fun _ => hq⟩
  refine ⟨hk', NoNewSyn.trans ?_ hnew⟩
  exact .append _ hout hts

theorem follows_tcpPending (s : TcpSock) (skb : SkBuff) (expected : Bool) :
    Follows s (tcpPending env s skb expected) := by
  unfold tcpPending
  split
  · have hstop : Quiet s (tcpStopDelackTimer s) :=
      ⟨id, fun h => ⟨h.early, h.transfers⟩, rfl, .inl rfl, sameTimer_none _, .inl rfl, [],
        (List.append_nil _).symm, nofun⟩
    dsimp only
    split
    · next hp => exact hstop.follows.trans (follows_tcpSendPending hp.1 (Nat.min_le_left _ _))
    · exact hstop.follows.trans (quiet_tcpAckOrDelay _ skb).follows
  · exact .refl s

/-! ## Arrivals -/

theorem follows_tcpDeliver (h : s.state ≠ .synReceived) (skb : SkBuff) :
    Follows s (tcpDeliver env s skb) := by
  have hst : (tcpText env s skb).state ≠ .synReceived := by
    rw [state_tcpText]
    exact h
  exact ((quiet_tcpText s skb).trans (quiet_tcpFin hst skb.th _)).follows.trans
    (follows_tcpPending _ skb _)

theorem follows_tcpSegmentArrives (s : TcpSock) (skb : SkBuff) :
    Follows s (tcpSegmentArrives env s skb) := by
  unfold tcpSegmentArrives
  split
  · split
    · exact .refl s
    · exact (quiet_tcpSendAck s).follows
  · split
    · exact (quiet_tcpEnterTimeWait s).follows
    · split
      · exact .refl s
      · split
        · exact .refl s
        · have hack := follows_tcpAckField s skb.th
          dsimp only
          split
          · exact hack
          · next hpass =>
            have hst := state_tcpAckField (not_not.mp hpass)
            have hfin : Follows s (tcpFinAcked env (tcpAckField s skb.th).1 skb.th).1 :=
              hack.trans (quiet_tcpFinAcked _ skb.th).follows
            split
            · exact hfin
            · exact hfin.trans (follows_tcpDeliver (state_tcpFinAcked hst) skb)

/-- **An arriving segment**, past SYN_SENT. -/
theorem follows_tcpIn (h : s.state.opened) (seg : Segment) : Follows s (tcpIn env s seg) := by
  unfold tcpIn tcpInputState
  split
  · next hst =>
    rw [hst] at h
    cases h
  · exact .refl s
  · next hst =>
    rw [hst] at h
    cases h
  · split
    · exact follows_tcpSegmentArrives s _
    · next fec hfec =>
      have hin : Follows s (tcpFecInput env s fec (tcpInitSegment seg)).1 :=
        (quiet_tcpFecInput hfec _).follows
      dsimp only
      split
      · exact hin
      · exact hin.trans (follows_tcpSegmentArrives _ _)

/-! ## Writes -/

theorem SynKept.enqueue (h : SynKept s) {skb : SkBuff} (hsyn : skb.th.syn = false) :
    SynKept (s.enqueue skb) := by
  have hmem : ∀ q : List SkBuff, (∀ y ∈ q, y.th.syn = false) →
      ∀ y ∈ q ++ [skb], y.th.syn = false := by
    intro q hq y hy
    rcases List.mem_append.mp hy with hy | hy
    · exact hq y hy
    · rw [List.mem_singleton.mp hy]
      exact hsyn
  refine ⟨?_, fun harmed => hmem _ (h.timer harmed)⟩
  rcases h.first with hnone | ⟨hn, y, rest, hq, hrest⟩
  · exact .inl (hmem _ hnone)
  · refine .inr ⟨hn, y, rest ++ [skb], ?_, hmem _ hrest⟩
    change s.writeQueue ++ [skb] = _
    rw [hq]
    rfl

theorem SynKept.inflight (h : SynKept s) : SynKept { s with inflight := s.inflight + 1 } :=
  ⟨h.first.imp_right fun h => ⟨Nat.succ_ne_zero _, h.2⟩, h.timer⟩

theorem follows_enqueue (s : TcpSock) {skb : SkBuff} (hsyn : skb.th.syn = false) :
    Follows s (s.enqueue skb) :=
  ⟨id, fun h => ⟨h.early, h.transfers⟩, rfl, fun h => ⟨h.enqueue hsyn, .of_eq _ rfl⟩⟩

/-- **A buffer without a SYN is queued.** -/
theorem follows_tcpQueueTransmitSkb (s : TcpSock) {skb : SkBuff} (hsyn : skb.th.syn = false) :
    Follows s (tcpQueueTransmitSkb env s skb).1 := by
  have hrearm : Follows s (if s.writeQueue = [] then tcpRearmRtoTimer s else s) := by
    split
    · next hq => exact follows_tcpRearmRtoTimer s (by rw [hq]; exact nofun)
    · exact .refl s
  unfold tcpQueueTransmitSkb
  dsimp only
  generalize (if s.writeQueue = [] then tcpRearmRtoTimer s else s) = s₁ at hrearm
  refine hrearm.trans ?_
  split
  · obtain ⟨th, hth, hskb, -⟩ := exists_tcpTransmitSkb env s₁ skb s₁.tcb.sndNxt
    have hsent : Quiet s₁ (tcpTransmitSkb env s₁ skb s₁.tcb.sndNxt).1 :=
      quiet_tcpTransmitSkb s₁ hsyn _
    unfold tcpQueueTransmitNow
    dsimp only
    rw [hskb]
    generalize (tcpTransmitSkb env s₁ skb s₁.tcb.sndNxt).1 = s₂ at hsent
    refine hsent.follows.trans ?_
    refine Follows.trans ?_ (follows_enqueue _ (hth.syn.trans hsyn))
    exact ⟨id, fun h => ⟨h.early, h.transfers⟩, rfl,
      fun h => ⟨⟨h.inflight.first, h.timer⟩, .of_eq _ rfl⟩⟩
  · exact follows_enqueue s₁ hsyn

theorem quiet_tcpFecSendRepairs (fec : TcpFec) (blkK tailLen : ℕ) (ps : List Packet) (s : TcpSock)
    (j : ℕ) : Quiet s (tcpFecSendRepairs env fec blkK tailLen s j ps).1 := by
  have hone : ∀ (s : TcpSock) (j : ℕ) (parity : Packet),
      Quiet s (tcpFecSendRepair env s fec blkK j tailLen parity).1 := by
    intro s j parity
    unfold tcpFecSendRepair
    refine Quiet.trans ?_ (@quiet_tcpTransmitSkb env _ _ rfl _)
    exact .of_eq _ rfl rfl rfl rfl rfl rfl rfl
  induction ps generalizing s j with
  | nil => exact .refl s
  | cons parity ps ih =>
    unfold tcpFecSendRepairs
    dsimp only
    split
    · exact hone s j parity
    · exact (hone s j parity).trans (ih _ _)

theorem quiet_tcpFecEmitBlock {fec : TcpFec} (hfec : s.fec = some fec) (blkK tailLen : ℕ) :
    Quiet s (tcpFecEmitBlock env s fec blkK tailLen).1 := by
  unfold tcpFecEmitBlock
  split
  · exact .refl s
  · split
    · exact .refl s
    · split
      · exact .refl s
      · next parity _ =>
        have hsent : Quiet s (tcpFecSendRepairs env fec blkK tailLen s 0 parity).1 :=
          quiet_tcpFecSendRepairs fec blkK tailLen parity s 0
        obtain ⟨ts, heq, -⟩ := exists_tcpFecSendRepairs env fec blkK tailLen parity s 0
        have hsome : (tcpFecSendRepairs env fec blkK tailLen s 0 parity).1.fec = some fec := by
          rw [heq]
          exact hfec
        dsimp only
        split
        · exact hsent
        · refine hsent.trans (.of_eq _ rfl ?_ rfl rfl rfl rfl rfl)
          rw [hsome]
          rfl

theorem quiet_tcpFecForceFlush (s : TcpSock) : Quiet s (tcpFecForceFlush env s) := by
  unfold tcpFecForceFlush
  split
  · exact .refl s
  · next fec hfec =>
    split
    · exact quiet_tcpFecEmitBlock hfec _ _
    · exact .refl s

theorem quiet_tcpFecEmitFull (s : TcpSock) : Quiet s (tcpFecEmitFull env s) := by
  unfold tcpFecEmitFull
  split
  · exact .refl s
  · next fec hfec =>
    split
    · exact quiet_tcpFecEmitBlock hfec _ _
    · exact .refl s

theorem quiet_tcpFecFlush (s : TcpSock) : Quiet s (tcpFecFlush env s) := by
  unfold tcpFecFlush
  split
  · exact .refl s
  · next fec hfec =>
    split
    · exact .refl s
    · exact quiet_tcpFecEmitBlock hfec _ _

theorem syn_tcpDataHeader (fec : Option TcpFec) (last : Bool) :
    (tcpDataHeader fec last).syn = false := by
  cases fec <;> rfl

/-- **One segment of a write.** -/
theorem follows_tcpSendPiece (s : TcpSock) (piece : List UInt8 × Bool) :
    Follows s (tcpSendPiece env s piece) := by
  have hflush : Quiet s (tcpFecForceFlush env s) := quiet_tcpFecForceFlush s
  change Follows s (tcpFecEmitFull env (tcpSendQueued env (tcpFecForceFlush env s) piece))
  generalize tcpFecForceFlush env s = s₁ at hflush
  refine hflush.follows.trans (Follows.trans ?_ (quiet_tcpFecEmitFull _).follows)
  unfold tcpSendQueued
  refine Follows.trans (Quiet.follows ?_) (follows_tcpQueueTransmitSkb _ (syn_tcpDataHeader _ _))
  refine .of_eq _ rfl ?_ rfl rfl rfl rfl rfl
  change ((s₁.fec.map _).map _).isSome = _
  rw [Option.isSome_map, Option.isSome_map]

theorem follows_tcpWrite (s : TcpSock) (buf : List UInt8) : Follows s (tcpWrite env s buf).1 := by
  have hpieces : ∀ (pieces : List (List UInt8 × Bool)) (s : TcpSock),
      Follows s (pieces.foldl (tcpSendPiece env) s) := by
    intro pieces
    induction pieces with
    | nil => exact fun s => .refl s
    | cons piece pieces ih => exact fun s => (follows_tcpSendPiece s piece).trans (ih _)
  rw [tcpWrite_eq]
  split
  · exact (hpieces _ s).trans (quiet_tcpRearmUserTimeout _).follows
  · exact .refl s

theorem follows_tcpQueueFin (s : TcpSock) : Follows s (tcpQueueFin env s) := by
  have hflush : Quiet s (tcpFecFlush env s) := quiet_tcpFecFlush s
  unfold tcpQueueFin
  dsimp only
  generalize tcpFecFlush env s = s₁ at hflush
  refine hflush.follows.trans (Follows.trans (Quiet.follows ?_) (follows_tcpQueueTransmitSkb _ rfl))
  exact .of_eq _ rfl rfl rfl rfl rfl rfl rfl

theorem follows_tcpClose (s : TcpSock) : Follows s (tcpClose env s) := by
  unfold tcpClose
  cases hst : s.state with
  | established =>
    have hfw : Quiet s { s with state := .finWait1 } := .setState rfl fun _ => by rw [hst]; rfl
    exact hfw.follows.trans (follows_tcpQueueFin _)
  | closeWait => exact follows_tcpQueueFin s
  | listen | synSent | synReceived => exact (quiet_tcpDone s).follows
  | _ =>
    refine Quiet.follows ?_
    exact .of_eq _ hst.symm rfl rfl rfl rfl rfl rfl

/-! ## Timers -/

/-- Nothing that has been settled changes, and no SYN waits. -/
theorem Follows.of_none (s' : TcpSock) (hst : s'.state = s.state) (hfec : s'.fec = s.fec)
    (hset : s'.settled = s.settled) (hout : s'.out = s.out)
    (hsyn : ∀ y ∈ s'.writeQueue, y.th.syn = false) : Follows s s' := by
  have hok : s'.fecok = s.fecok := congrArg Settled.fecok hset
  refine ⟨?_, .of_eq s' ?_ ?_ (by rw [hfec]) hok, hset, fun _ =>
    ⟨⟨.inl hsyn, fun _ => hsyn⟩, .of_eq s' hout⟩⟩
  · rw [hst]
    exact id
  · rw [hst]
    exact id
  · rw [hst]
    exact id

theorem quiet_tcpHandleFinState (s : TcpSock) : Quiet s (tcpHandleFinState s) := by
  unfold tcpHandleFinState
  split
  · exact .setState rfl nofun
  · next hst => exact .setState rfl fun _ => by rw [hst]; rfl
  · exact .refl s

/-- **A retransmission** of data. -/
theorem follows_tcpRetransmissionTimeout (hsyn : ∀ y ∈ s.writeQueue, y.th.syn = false) :
    Follows s (tcpRetransmissionTimeout env s) := by
  have hrel : Quiet s (tcpReleaseRtoTimer s) :=
    ⟨id, fun h => ⟨h.early, h.transfers⟩, rfl, sameTimer_none _, .inl rfl, .inl rfl, [],
      (List.append_nil _).symm, nofun⟩
  unfold tcpRetransmissionTimeout
  dsimp only
  split
  · refine hrel.follows.trans (Quiet.follows ?_)
    exact .of_eq _ rfl rfl rfl rfl rfl rfl rfl
  · next skb q hq =>
    change s.writeQueue = skb :: q at hq
    rw [hq] at hsyn
    obtain ⟨th, hth, hskb, -⟩ :=
      exists_tcpTransmitSkb env (tcpReleaseRtoTimer s) skb (tcpReleaseRtoTimer s).tcb.sndUna
    have hsent : Quiet (tcpReleaseRtoTimer s) (tcpTransmitSkb env (tcpReleaseRtoTimer s) skb
        (tcpReleaseRtoTimer s).tcb.sndUna).1 :=
      quiet_tcpTransmitSkb _ (hsyn skb List.mem_cons_self) _
    rw [hskb]
    generalize (tcpTransmitSkb env (tcpReleaseRtoTimer s) skb
      (tcpReleaseRtoTimer s).tcb.sndUna).1 = s₁ at hsent
    have hq' : ∀ y ∈ skb.withHeader th :: q, y.th.syn = false := by
      intro y hy
      rcases List.mem_cons.mp hy with rfl | hy
      · exact hth.syn.trans (hsyn skb List.mem_cons_self)
      · exact hsyn y (List.mem_cons_of_mem _ hy)
    have hset : Follows s { s₁ with writeQueue := skb.withHeader th :: q } :=
      (hrel.trans hsent).follows.trans (.of_none _ rfl rfl rfl rfl hq')
    split
    · refine hset.trans (Quiet.follows (Quiet.trans (quiet_tcpDone _) ?_))
      exact .of_eq _ rfl rfl rfl rfl rfl rfl rfl
    · refine hset.trans ?_
      split
      · refine Follows.trans (.of_none _ ?_ ?_ ?_ ?_ ?_) (quiet_tcpHandleFinState _).follows
        · rfl
        · rfl
        · rfl
        · rfl
        · exact hq'
      · exact .of_none _ rfl rfl rfl rfl hq'

theorem follows_tcpConnectRto (h : s.state.opened) : Follows s (tcpConnectRto env s) := by
  have hrel : Quiet s (tcpReleaseRtoTimer s) :=
    ⟨id, fun h => ⟨h.early, h.transfers⟩, rfl, sameTimer_none _, .inl rfl, .inl rfl, [],
      (List.append_nil _).symm, nofun⟩
  unfold tcpConnectRto
  dsimp only
  split
  · next hst =>
    change s.state = .synSent at hst
    rw [hst] at h
    cases h
  · exact hrel.follows

theorem quiet_tcpAbort (s : TcpSock) : Quiet s (tcpAbort env s) :=
  (quiet_tcpSendReset s).trans (quiet_tcpDone _)

theorem quiet_tcpSendDelack (s : TcpSock) : Quiet s (tcpSendDelack env s) := by
  unfold tcpSendDelack
  refine Quiet.trans ?_ (quiet_tcpSendAck _)
  exact ⟨id, fun h => ⟨h.early, h.transfers⟩, rfl, .inl rfl, sameTimer_none _, .inl rfl, [],
    (List.append_nil _).symm, nofun⟩

theorem follows_timer (h : s.state.opened) (hk : SynKept s) {handler : TimerHandler}
    (hrun : handler ∈ s.timers) : Follows s (handler.run env s) := by
  have hlinger : Quiet s { s with linger := none } :=
    ⟨id, fun h => ⟨h.early, h.transfers⟩, rfl, .inl rfl, .inl rfl, sameTimer_none _, [],
      (List.append_nil _).symm, nofun⟩
  cases handler with
  | tcpConnectRto => exact follows_tcpConnectRto h
  | tcpRetransmissionTimeout => exact follows_tcpRetransmissionTimeout (hk.timer hrun)
  | tcpSendDelack => exact (quiet_tcpSendDelack s).follows
  | tcpLinger => exact (hlinger.trans (quiet_tcpDone _)).follows
  | tcpUserTimeout => exact (hlinger.trans (quiet_tcpAbort _)).follows

/-! ## Reading -/

theorem quiet_tcpReceiveReturn (s : TcpSock) (got : List UInt8) :
    Quiet s (tcpReceiveReturn s got).1 := quiet_tcpRearmUserTimeout s

theorem quiet_tcpReceiveStep (s : TcpSock) (rd : Reader) : Quiet s (tcpReceiveStep s rd).1 := by
  have hread : Quiet s (tcpDataDequeue s rd.room).1 := .of_eq _ rfl rfl rfl rfl rfl rfl rfl
  unfold tcpReceiveStep
  dsimp only
  generalize tcpDataDequeue s rd.room = d at hread
  split
  · exact quiet_tcpReceiveReturn s _
  · split
    · refine hread.trans (Quiet.trans ?_ (quiet_tcpReceiveReturn _ _))
      exact .of_eq _ rfl rfl rfl rfl rfl rfl rfl
    · split
      · exact hread.trans (quiet_tcpReceiveReturn _ _)
      · split
        · split
          · exact hread
          · exact hread.trans (quiet_tcpReceiveReturn _ _)
        · exact hread

theorem quiet_tcpRead (s : TcpSock) (len : ℕ) : Quiet s (tcpRead s len).1 := by
  unfold tcpRead
  cases hst : s.state with
  | closeWait =>
    dsimp only
    split
    · exact .of_eq _ hst.symm rfl rfl rfl rfl rfl rfl
    · exact quiet_tcpReceiveStep s _
  | close | closing | lastAck | timeWait => exact .refl s
  | _ => exact quiet_tcpReceiveStep s _

/-! ## Events -/

/-- **Every event of an open connection** keeps what the handshake has settled. -/
theorem follows_tcpStep (h : s.state.opened) (hk : SynKept s) (e : TcpEvent) :
    Follows s (tcpStep env s e) := by
  cases e with
  | connect iss =>
    have hst : s.state ≠ .close := by
      intro hst
      rw [hst] at h
      cases h
    change Follows s (inetStreamConnect env s iss)
    unfold inetStreamConnect
    rw [if_pos hst]
    refine Quiet.follows ?_
    exact .of_eq _ rfl rfl rfl rfl rfl rfl rfl
  | arrive seg => exact follows_tcpIn h seg
  | write buf => exact follows_tcpWrite s buf
  | read len => exact (quiet_tcpRead s len).follows
  | wake rd => exact (quiet_tcpReceiveStep s rd).follows
  | close => exact follows_tcpClose s
  | abort => exact (quiet_tcpAbort s).follows
  | timer handler =>
    change Follows s (if handler ∈ s.timers then _ else _)
    split
    · next hrun => exact follows_timer h hk hrun
    · exact .refl s
  | tick ms =>
    refine Quiet.follows ?_
    exact .of_eq _ rfl rfl rfl rfl rfl rfl rfl

end Follows

end LvlIp.Tcp
