import LvlIp.Send.Alive
import LvlIp.Send.Moves

/-!
# What stays in the write queue

Only an arriving segment takes buffers off the write queue (`keeps_tcpStep`), and only a call of the
user adds any (`Reached.queued_arrive`).
-/

namespace LvlIp.Tcp

open Fec Relation

/-- What is in the queue stays, up to its header, and what is new there has been queued. -/
structure QueueKept (v v' : TxView) : Prop where
  out : ∃ ts, v'.out = v.out ++ ts
  queue : ∀ x ∈ v.snd.writeQueue, ∃ x' ∈ v'.snd.writeQueue, x'.addr = x.addr ∧ x'.th.fin = x.th.fin
  queued : ∃ ys, v'.snd.queued = v.snd.queued ++ ys ∧
    ∀ y ∈ ys, ∃ x ∈ v'.snd.writeQueue, x.addr = y.addr ∧ x.th.fin = y.th.fin
  back : ∀ x ∈ v'.snd.writeQueue, (∃ x₀ ∈ v.snd.writeQueue, x₀.th.fin = x.th.fin) ∨
    ∃ y ∈ v'.snd.queued, y.th.fin = x.th.fin

section QueueKept

variable {v v' v'' : TxView}

theorem QueueKept.refl (v : TxView) : QueueKept v v :=
  ⟨⟨[], (List.append_nil _).symm⟩, fun x hx => ⟨x, hx, rfl, rfl⟩, ⟨[], (List.append_nil _).symm, nofun⟩,
    fun x hx => .inl ⟨x, hx, rfl⟩⟩

theorem QueueKept.trans (h : QueueKept v v') (h' : QueueKept v' v'') : QueueKept v v'' := by
  obtain ⟨ts, hts⟩ := h.out
  obtain ⟨ts', hts'⟩ := h'.out
  obtain ⟨ys, hys, hold⟩ := h.queued
  obtain ⟨ys', hys', hnew⟩ := h'.queued
  refine ⟨⟨ts ++ ts', by rw [hts', hts, List.append_assoc]⟩, fun x hx => ?_,
    ⟨ys ++ ys', by rw [hys', hys, List.append_assoc], fun y hy => ?_⟩, fun x hx => ?_⟩
  · obtain ⟨x', hx', haddr, hfin⟩ := h.queue x hx
    obtain ⟨x'', hx'', haddr', hfin'⟩ := h'.queue x' hx'
    exact ⟨x'', hx'', haddr'.trans haddr, hfin'.trans hfin⟩
  · rcases List.mem_append.mp hy with hy | hy
    · obtain ⟨x, hx, haddr, hfin⟩ := hold y hy
      obtain ⟨x', hx', haddr', hfin'⟩ := h'.queue x hx
      exact ⟨x', hx', haddr'.trans haddr, hfin'.trans hfin⟩
    · exact hnew y hy
  · rcases h'.back x hx with ⟨x', hx', hfin'⟩ | hy
    · rcases h.back x' hx' with ⟨x₀, hx₀, hfin⟩ | ⟨y, hy, hfin⟩
      · exact .inl ⟨x₀, hx₀, hfin.trans hfin'⟩
      · exact .inr ⟨y, hys' ▸ List.mem_append_left _ hy, hfin.trans hfin'⟩
    · exact .inr hy

/-- The queue is the same up to its headers. -/
theorem QueueKept.of_same (ts : List Transmission) (hout : v'.out = v.out ++ ts)
    (hq : List.Forall₂ SameBuf v'.snd.writeQueue v.snd.writeQueue)
    (hqueued : v'.snd.queued = v.snd.queued) : QueueKept v v' := by
  have hback : ∀ x ∈ v'.snd.writeQueue, ∃ x₀ ∈ v.snd.writeQueue, SameBuf x x₀ := by
    intro x hx
    obtain ⟨i, hi⟩ := List.mem_iff_getElem?.mp hx
    obtain ⟨x₀, hx₀, hsame⟩ := forall₂_getElem? hq hi
    exact ⟨x₀, List.mem_of_getElem? hx₀, hsame⟩
  refine ⟨⟨ts, hout⟩, fun x hx => ?_, ⟨[], by rw [hqueued, List.append_nil], nofun⟩, fun x hx => ?_⟩
  · obtain ⟨i, hi⟩ := List.mem_iff_getElem?.mp hx
    obtain ⟨x', hx', hsame⟩ := forall₂_getElem? (List.Forall₂.flip hq) hi
    exact ⟨x', List.mem_of_getElem? hx', hsame.addr, hsame.header.fin⟩
  · obtain ⟨x₀, hx₀, hsame⟩ := hback x hx
    exact .inl ⟨x₀, hx₀, hsame.header.fin.symm⟩

/-- A buffer joins the queue. -/
theorem QueueKept.of_append (ts : List Transmission) {y : SkBuff} (hout : v'.out = v.out ++ ts)
    (hq : v'.snd.writeQueue = v.snd.writeQueue ++ [y])
    (hqueued : v'.snd.queued = v.snd.queued ++ [y]) : QueueKept v v' := by
  refine ⟨⟨ts, hout⟩, fun x hx => ⟨x, ?_, rfl, rfl⟩, ⟨[y], hqueued, fun z hz => ⟨z, ?_, rfl, rfl⟩⟩,
    fun x hx => ?_⟩
  · rw [hq]
    exact List.mem_append_left _ hx
  · rw [hq]
    exact List.mem_append_right _ hz
  · rw [hq] at hx
    rcases List.mem_append.mp hx with hx | hx
    · exact .inl ⟨x, hx, rfl⟩
    · exact .inr ⟨x, hqueued ▸ List.mem_append_right _ hx, rfl⟩

theorem SendMove.keeps (h : SendMove v v') : QueueKept v v' := by
  cases h with
  | @fresh t _ => exact .of_same [t] rfl (forall₂_sameBuf_refl _) rfl
  | wait _ _ _ => exact .of_append [] (List.append_nil _).symm rfl rfl
  | now _ _ _ => exact .of_append _ rfl rfl rfl
  | other hq _ hqueued hout _ _ =>
    exact .of_same [] (hout.trans (List.append_nil _).symm)
      (hq ▸ forall₂_sameBuf_refl _) hqueued

theorem SendMoves.keeps {s s' : TcpSock} (h : SendMoves s s') : QueueKept s.txv s'.txv := by
  have hsteps := h.steps
  generalize s'.txv = v at hsteps ⊢
  induction hsteps with
  | refl => exact .refl _
  | tail _ hmove ih => exact ih.trans hmove.keeps

end QueueKept

section Events

variable {env : Env} {s : TcpSock}

theorem keeps_tcpDone (s : TcpSock) : QueueKept s.txv (tcpDone s).txv :=
  .of_same [] (List.append_nil _).symm (forall₂_sameBuf_refl _) rfl

theorem keeps_tcpAbort (s : TcpSock) : QueueKept s.txv (tcpAbort env s).txv :=
  (sendMoves_tcpSendReset env s).keeps.trans (keeps_tcpDone _)

theorem keeps_tcpClose (s : TcpSock) : QueueKept s.txv (tcpClose env s).txv := by
  have herr : SendMoves s { s with err := eBadf } := .other _ rfl rfl rfl rfl rfl rfl rfl rfl
  unfold tcpClose
  split
  any_goals exact herr.keeps
  any_goals exact keeps_tcpDone s
  · have hst : SendMoves s { s with state := .finWait1 } := .other _ rfl rfl rfl rfl rfl rfl rfl rfl
    exact (hst.trans (sendMoves_tcpQueueFin env _)).keeps
  · exact (sendMoves_tcpQueueFin env s).keeps

theorem keeps_tcpConnectRto (hr : Reached s) : QueueKept s.txv (tcpConnectRto env s).txv := by
  have hrel : ∀ s₁ : TcpSock, QueueKept s₁.txv (tcpReleaseRtoTimer s₁).txv := fun s₁ =>
    .of_same [] (List.append_nil _).symm (forall₂_sameBuf_refl _) rfl
  by_cases hst : s.state = .synSent
  · have hc : Connecting s := hr.connecting hst
    obtain ⟨y, hq, hsyn⟩ := hc.queue
    by_cases hretry : tcpConnRetries < s.backoff
    · unfold tcpConnectRto
      dsimp only
      rw [if_pos (show (tcpReleaseRtoTimer s).state = .synSent from hst),
        if_pos (show tcpConnRetries < (tcpReleaseRtoTimer s).backoff from hretry)]
      exact (hrel s).trans (keeps_tcpDone { tcpReleaseRtoTimer s with err := eTimedout })
    · rw [tcpConnectRto_resent hc hq hsyn hretry]
      obtain ⟨ackSeq, hth⟩ := hsyn.th
      refine .of_same _ rfl ?_ rfl
      change List.Forall₂ SameBuf [y.withHeader (s.synAt s.tcb.rcvNxt)] s.writeQueue
      rw [hq]
      have hfilled : FilledFrom y.th (s.synAt s.tcb.rcvNxt).seq (s.synAt s.tcb.rcvNxt) := by
        rw [hth]
        exact ⟨⟨rfl, rfl, rfl, rfl, fun _ => rfl, fun _ => rfl⟩, rfl⟩
      exact .cons ((SameBuf.refl y).withHeader hfilled) .nil
  · unfold tcpConnectRto
    dsimp only
    rw [if_neg (show (tcpReleaseRtoTimer s).state ≠ .synSent from hst)]
    exact hrel s

theorem keeps_tcpRetransmissionTimeout (s : TcpSock) :
    QueueKept s.txv (tcpRetransmissionTimeout env s).txv := by
  cases hq : s.writeQueue with
  | nil =>
    have heq : tcpRetransmissionTimeout env s = { tcpReleaseRtoTimer s with backoff := 0 } := by
      unfold tcpRetransmissionTimeout
      dsimp only
      rw [show (tcpReleaseRtoTimer s).writeQueue = [] from hq]
    rw [heq]
    exact .of_same [] (List.append_nil _).symm (forall₂_sameBuf_refl _) rfl
  | cons skb q =>
    obtain ⟨th, hth, hout, hqueue, hqueued, -⟩ := tcpRetransmissionTimeout_head env hq
    refine .of_same _ hout ?_ hqueued
    change List.Forall₂ SameBuf (tcpRetransmissionTimeout env s).writeQueue s.writeQueue
    rw [hqueue, hq]
    exact .cons ((SameBuf.refl skb).withHeader hth) (forall₂_sameBuf_refl q)

/-- **Only an arriving segment takes buffers off the queue.** -/
theorem keeps_tcpStep (hr : Reached s) {e : TcpEvent} (he : ∀ seg, e ≠ .arrive seg) :
    QueueKept s.txv (tcpStep env s e).txv := by
  have hlinger : QueueKept s.txv (TcpSock.txv { s with linger := none }) :=
    .of_same [] (List.append_nil _).symm (forall₂_sameBuf_refl _) rfl
  cases e with
  | connect iss => exact (sendMoves_inetStreamConnect env s iss).keeps
  | arrive seg => exact absurd rfl (he seg)
  | write buf => exact (sendMoves_tcpWrite env s buf).keeps
  | read len => exact (sendMoves_tcpRead s len).keeps
  | wake rd => exact (sendMoves_tcpReceiveStep s rd).keeps
  | close => exact keeps_tcpClose s
  | abort => exact keeps_tcpAbort s
  | timer handler =>
    change QueueKept s.txv (if handler ∈ s.timers then handler.run env s else s).txv
    split
    · cases handler with
      | tcpConnectRto => exact keeps_tcpConnectRto hr
      | tcpRetransmissionTimeout => exact keeps_tcpRetransmissionTimeout s
      | tcpSendDelack =>
        have hrel : QueueKept s.txv (tcpReleaseDelackTimer { s with delacks := 0 }).txv :=
          .of_same [] (List.append_nil _).symm (forall₂_sameBuf_refl _) rfl
        exact hrel.trans (sendMoves_tcpSendAck env _).keeps
      | tcpLinger => exact hlinger.trans (keeps_tcpDone _)
      | tcpUserTimeout => exact hlinger.trans (keeps_tcpAbort _)
    · exact .refl _
  | tick ms => exact .of_same [] (List.append_nil _).symm (forall₂_sameBuf_refl _) rfl

/-! ## Arriving segments queue nothing -/

theorem TxStep.queued {v v' : TxView} (h : TxStep v v') : v'.snd.queued = v.snd.queued := by
  cases h with
  | ack ackSeq hacc _ =>
    change (v.snd.ack ackSeq).queued = _
    rw [SndView.ack_of_acceptable hacc]
  | _ => rfl

theorem TxSteps.queued {s' : TcpSock} (h : TxSteps s s') : s'.queued = s.queued := by
  have hsteps := h.2
  change s'.txv.snd.queued = s.txv.snd.queued
  generalize s'.txv = v at hsteps ⊢
  induction hsteps with
  | refl => rfl
  | tail _ hstep ih => exact hstep.queued.trans ih

theorem queued_tcpFecResolve (s : TcpSock) : (tcpFecResolve s).queued = s.queued := by
  rw [tcpFecResolve_eq]
  split <;> rfl

theorem queued_tcpParseOpts (s : TcpSock) (th : Tcphdr) : (tcpParseOpts s th).queued = s.queued := by
  obtain ⟨smss, tsopt, allowed, hparse⟩ := exists_tcpParseOpts s th
  rw [hparse]

theorem queued_tcpSendAck (s : TcpSock) : (tcpSendAck env s).queued = s.queued :=
  congrArg SndView.queued (snd_tcpSendAck env s)

theorem queued_tcpSynsentSyn (s : TcpSock) (th : Tcphdr) :
    (tcpSynsentSyn env s th).queued = s.queued := by
  have hack : (tcpSynsentAcked s th).queued = s.queued := by
    unfold tcpSynsentAcked
    dsimp only
    split
    · exact congrArg SndView.queued (snd_tcpCleanRtoQueue _ _)
    · rfl
  rw [tcpSynsentSyn_eq]
  generalize tcpSynsentAcked s th = s₁ at hack
  dsimp only
  split
  · have hsock : ∀ s₂ : TcpSock, (sockConnected s₂).queued = s₂.queued := fun _ => rfl
    have hrearm : ∀ s₂ : TcpSock, (tcpRearmUserTimeout s₂).queued = s₂.queued := fun s₂ =>
      congrArg SndView.queued (snd_tcpRearmUserTimeout s₂)
    rw [hsock, queued_tcpFecResolve, queued_tcpParseOpts, hrearm, queued_tcpSendAck]
    exact hack
  · rw [tcpSendSynack_of_ne env (by rw [state_tcpParseOpts]; nofun), queued_tcpParseOpts]
    exact hack

theorem queued_tcpSynsent (hst : s.state = .synSent) (th : Tcphdr) :
    (tcpSynsent env s th).queued = s.queued := by
  unfold tcpSynsent
  split
  · rfl
  · split
    · rfl
    · split
      · unfold tcpReset
        rw [hst]
        rfl
      · split
        · rfl
        · exact queued_tcpSynsentSyn s th

theorem Received.queued_arrive (h : Received s) (skb : SkBuff) :
    (tcpSegmentArrives env s skb).queued = s.queued := by
  unfold tcpSegmentArrives
  split
  · split
    · rfl
    · exact queued_tcpSendAck s
  · split
    · rfl
    · split
      · rfl
      · split
        · rfl
        · rw [h.tcpAckField_eq]
          split
          · have hconn : (tcpFecResolve { s with state := .established }).state.connected := by
              rw [state_tcpFecResolve]
              rfl
            have hack := txSteps_tcpAck hconn skb.th.ackSeq
            have hres : (tcpAck (tcpFecResolve { s with state := .established })
                skb.th.ackSeq).1.queued = s.queued := hack.queued.trans (queued_tcpFecResolve _)
            dsimp only
            split
            · exact hres
            · have hfin := txSteps_tcpFinAcked env hack.1 skb.th
              split
              · exact hfin.queued.trans hres
              · exact (txSteps_tcpDeliver env hfin.1 skb).queued.trans (hfin.queued.trans hres)
          · rfl

theorem Reached.queued_arrive (hr : Reached s) (seg : Segment) :
    (tcpStep env s (.arrive seg)).queued = s.queued := by
  rcases hr with h | h | h | h
  · change (tcpInputState env s (tcpInitSegment seg)).queued = _
    unfold tcpInputState
    rw [h.state]
    dsimp only
    unfold tcpClosed
    split
    · rfl
    · have hsent : ∀ (s₁ : TcpSock) (skb : SkBuff) (seq : UInt32),
          (tcpTransmitSkb env s₁ skb seq).1.queued = s₁.queued :=
        fun s₁ skb seq => congrArg SndView.queued (snd_tcpTransmitSkb env s₁ skb seq)
      unfold tcpSendReset
      dsimp only
      rw [hsent]
      rfl
  · change (tcpInputState env s (tcpInitSegment seg)).queued = _
    unfold tcpInputState
    rw [h.state]
    exact queued_tcpSynsent h.state seg.th
  · rw [h.tcpStep_arrive]
    exact h.queued_arrive _
  · exact (txSteps_tcpIn env h seg).queued

end Events

end LvlIp.Tcp
