import LvlIp.Send.Built

/-!
# What goes out from one buffer is alike

The arrival of a segment, the timers and the other events keep `LaidInv`. In every run the header
length and the options agree in everything that goes out, and what goes out from one buffer has the
same options and the same payload each time (`sentAlike_run`).
-/

namespace LvlIp.Tcp

open Fec

/-! ## Arrival -/

section Arrival

variable (env : Env) {s : TcpSock}

theorem LaidInv.done (h : LaidInv s.lay) : LaidInv (tcpDone s).lay :=
  ⟨h.built, h.fits, h.once, h.same, h.nodup, h.queueAddr, h.outAddr, h.blocks,
    fun _ hn => absurd hn (Option.not_mem_none _)⟩

theorem length_tcpSackLoop (allowed : ℕ) (q : List SkBuff) (sb n : ℕ) (sacks : List TcpSackBlock) :
    (tcpSackLoop allowed q sb n sacks).2.length = sacks.length := by
  induction q generalizing sb n sacks with
  | nil => rfl
  | cons next q ih =>
    unfold tcpSackLoop
    dsimp only
    generalize (if (sacks.getD sb ⟨0, 0⟩).left = 0 then _ else _ : TcpSackBlock × ℕ) = opened
    split
    · rw [ih, List.length_set]
    · split
      · exact List.length_set
      · rw [ih, List.length_set, List.length_set]

theorem lay_tcpCalculateSacks (s : TcpSock) : (tcpCalculateSacks s).lay = s.lay := by
  have hblocks : (tcpCalculateSacks s).sacks.length = s.sacks.length := by
    change (tcpSackBlocks s).2.1.length = _
    unfold tcpSackBlocks
    split
    · rw [length_tcpSackLoop, List.length_set]
    · rfl
  have hrest : (tcpCalculateSacks s).lay =
      { s.lay with blocks := (tcpCalculateSacks s).sacks.length } := rfl
  rw [hrest, hblocks]
  rfl

theorem LaidInv.dataQueue (h : LaidInv s.lay) (skb : SkBuff) :
    LaidInv (tcpDataQueue env s skb).lay := by
  unfold tcpDataQueue
  split
  · exact h
  · split
    · exact h
    · refine LaidInv.sendAck env ?_
      dsimp only
      split
      · exact h.of_eq (lay_tcpCalculateSacks _)
      · exact h

theorem LaidInv.cleanRtoQueue (h : LaidInv s.lay) (una : UInt32) :
    LaidInv (tcpCleanRtoQueue s una).lay := by
  obtain ⟨n, -, hloop, -⟩ := tcpCleanLoop_spec una s.writeQueue s.inflight
  have hrest : (tcpCleanRtoQueue s una).lay =
      { s.lay with queue := (tcpCleanLoop una s.writeQueue s.inflight).1 } := by
    unfold tcpCleanRtoQueue
    dsimp only
    split
    · rfl
    · rfl
  rw [hrest, hloop]
  exact h.sublist (List.drop_sublist n _)

theorem lay_tcpRtt (s : TcpSock) : (tcpRtt s).lay = s.lay := by
  unfold tcpRtt
  split
  · rfl
  · split
    · rfl
    · dsimp only
      split
      · rfl
      · rfl

theorem LaidInv.ack (h : LaidInv s.lay) (ackSeq : UInt32) : LaidInv (tcpAck s ackSeq).1.lay := by
  unfold tcpAck
  dsimp only
  split
  · refine LaidInv.cleanRtoQueue ?_ ackSeq
    exact LaidInv.of_eq h (lay_tcpRtt { s with tcb.sndUna := ackSeq })
  · exact h

theorem LaidInv.fecResolve (h : LaidInv s.lay) : LaidInv (tcpFecResolve s).lay := by
  rw [tcpFecResolve_eq]
  split
  · refine h.put ?_
    cases hfec : s.fec with
    | none => rfl
    | some fec => exact h.sym_eq hfec
  · exact h

theorem LaidInv.ackField (h : LaidInv s.lay) (th : Tcphdr) : LaidInv (tcpAckField s th).1.lay := by
  unfold tcpAckField
  split
  · split
    · have hest : LaidInv { s with state := .established }.lay := h
      exact hest.fecResolve.ack th.ackSeq
    · exact h
  any_goals exact h.ack th.ackSeq
  exact h

theorem LaidInv.finAcked (h : LaidInv s.lay) (th : Tcphdr) :
    LaidInv (tcpFinAcked env s th).1.lay := by
  unfold tcpFinAcked
  split
  · split
    · exact h
    · exact h
    · exact h.done
    · split
      · exact LaidInv.sendAck env h
      · exact h
    · exact h
  · exact h

theorem lay_tcpFinState (s : TcpSock) : (tcpFinState s).lay = s.lay := by
  unfold tcpFinState
  split
  any_goals rfl
  split
  · rfl
  · rfl

theorem LaidInv.text (h : LaidInv s.lay) (skb : SkBuff) : LaidInv (tcpText env s skb).lay := by
  unfold tcpText
  split
  · exact h.dataQueue env skb
  · exact h

theorem LaidInv.fin (h : LaidInv s.lay) (th : Tcphdr) (expected : Bool) :
    LaidInv (tcpFin env s th expected).lay := by
  unfold tcpFin
  split
  · refine LaidInv.of_eq ?_ (lay_tcpFinState _)
    exact LaidInv.sendAck env h
  · exact h

/-- **The first buffers of the queue go out**. -/
theorem renews_tcpSendNextLoop (n : ℕ) {q : List SkBuff} (hq : ∀ x ∈ q, x.Built) (s : TcpSock) :
    ∃ ts, (tcpSendNextLoop env n s q).1.lay = { s.lay with out := s.lay.out ++ ts } ∧
      Renews q (tcpSendNextLoop env n s q).2 ts := by
  induction n generalizing s q with
  | zero => exact ⟨[], by rw [List.append_nil]; rfl, .refl hq⟩
  | succ n ih =>
    cases q with
    | nil => exact ⟨[], by rw [List.append_nil]; rfl, .refl hq⟩
    | cons x q =>
      obtain ⟨hx, hrest⟩ := List.forall_mem_cons.mp hq
      obtain ⟨ts, hlay, hr⟩ := ih hrest (tcpAdvanceNxt (tcpTransmitSkb env s x s.tcb.sndNxt).1
        (tcpTransmitSkb env s x s.tcb.sndNxt).2.1)
      refine ⟨_, ?_, hr.cons hx s s.tcb.sndNxt rfl rfl rfl⟩
      refine hlay.trans ?_
      have hone := lay_tcpTransmitSkb env s x s.tcb.sndNxt
      have hadvance : (tcpAdvanceNxt (tcpTransmitSkb env s x s.tcb.sndNxt).1
          (tcpTransmitSkb env s x s.tcb.sndNxt).2.1).lay =
            (tcpTransmitSkb env s x s.tcb.sndNxt).1.lay := rfl
      rw [hadvance, hone, List.append_assoc]
      rfl

theorem LaidInv.pending (h : LaidInv s.lay) (skb : SkBuff) (expected : Bool) :
    LaidInv (tcpPending env s skb expected).lay := by
  unfold tcpPending
  split
  · dsimp only
    generalize min (tcpStopDelackTimer s).writeQueue.length 3 = n
    split
    · refine LaidInv.of_eq (s := tcpSendNext env (tcpStopDelackTimer s) n) ?_ (lay_tcpRearmRtoTimer _)
      obtain ⟨ts, hlay, hr⟩ := renews_tcpSendNextLoop env n h.built (tcpStopDelackTimer s)
      have hnext : (tcpSendNext env (tcpStopDelackTimer s) n).lay =
          { (tcpSendNextLoop env n (tcpStopDelackTimer s) s.writeQueue).1.lay with
            queue := (tcpSendNextLoop env n (tcpStopDelackTimer s) s.writeQueue).2 } := rfl
      rw [hnext]
      exact (congrArg (fun v : LayView => LaidInv { v with
        queue := (tcpSendNextLoop env n (tcpStopDelackTimer s) s.writeQueue).2 }) hlay).mpr (h.renew hr)
    · unfold tcpAckOrDelay
      dsimp only
      split
      · exact LaidInv.sendAck env h
      · split
        · exact h
        · exact h
  · exact h

theorem LaidInv.segmentArrives (h : LaidInv s.lay) (skb : SkBuff) :
    LaidInv (tcpSegmentArrives env s skb).lay := by
  unfold tcpSegmentArrives
  split
  · split
    · exact h
    · exact h.sendAck env
  · split
    · exact h
    · split
      · exact h
      · split
        · exact h
        · have hack := h.ackField skb.th
          dsimp only
          split
          · exact hack
          · have hfin := hack.finAcked env skb.th
            split
            · exact hfin
            · exact ((hfin.text env skb).fin env skb.th _).pending env skb _

theorem LaidInv.fecInput (h : LaidInv s.lay) {fec : TcpFec} (hfec : s.fec = some fec)
    (skb : SkBuff) : LaidInv (tcpFecInput env s fec skb).1.lay := by
  have hsym : (tcpFecRx fec skb).1.symLen = fec.symLen := by
    have htx := congrArg TcpFec.symLen (tx_tcpFecRx fec skb)
    exact htx
  have hsplice : ∀ (sps : List Splice) (s₁ : TcpSock), LaidInv s₁.lay →
      LaidInv (sps.foldl (tcpFecSplice env) s₁).lay := by
    intro sps
    induction sps with
    | nil => exact fun _ h₁ => h₁
    | cons sp sps ih => exact fun s₁ h₁ => ih _ (h₁.dataQueue env sp.skb)
  have hall := hsplice (tcpFecRx fec skb).2.1 _ (h.put (hsym.trans (h.sym_eq hfec)))
  unfold tcpFecInput
  dsimp only
  split
  · exact hall
  · exact hall.sendAck env

theorem lay_tcpParseOpts (s : TcpSock) (th : Tcphdr) : (tcpParseOpts s th).lay = s.lay := by
  unfold tcpParseOpts
  dsimp only
  split_ifs <;> rfl

theorem LaidInv.synsentSyn (h : LaidInv s.lay) (th : Tcphdr) :
    LaidInv (tcpSynsentSyn env s th).lay := by
  have hacked : LaidInv (tcpSynsentAcked s th).lay := by
    unfold tcpSynsentAcked
    dsimp only
    split
    · refine LaidInv.cleanRtoQueue ?_ th.ackSeq
      exact h
    · exact h
  rw [tcpSynsentSyn_eq]
  generalize tcpSynsentAcked s th = s₁ at hacked
  dsimp only
  split
  · have hsent : LaidInv { s₁ with
        state := .established, tcb.sndUna := s₁.tcb.sndNxt, backoff := 0, rto := 1000 }.lay := hacked
    have hack := hsent.sendAck env
    generalize tcpSendAck env _ = s₂ at hack ⊢
    have hopts : LaidInv (tcpParseOpts (tcpRearmUserTimeout s₂) th).lay :=
      hack.of_eq ((lay_tcpParseOpts _ th).trans (lay_tcpRearmUserTimeout s₂))
    generalize tcpParseOpts (tcpRearmUserTimeout s₂) th = s₃ at hopts ⊢
    exact hopts.fecResolve
  · have hopts := lay_tcpParseOpts { s₁ with state := .synReceived, tcb.sndUna := s₁.tcb.iss } th
    generalize tcpParseOpts _ th = s₂ at hopts ⊢
    have hparsed : LaidInv s₂.lay := hopts ▸ hacked
    exact hparsed.sendSynack env

theorem LaidInv.synsent (h : LaidInv s.lay) (th : Tcphdr) : LaidInv (tcpSynsent env s th).lay := by
  have hreset : LaidInv (tcpReset s).lay := by
    unfold tcpReset
    split
    · exact LaidInv.done h
    · exact LaidInv.done h
    · exact h
    · exact LaidInv.done h
  unfold tcpSynsent
  split
  · exact h
  · split
    · exact h
    · split
      · exact hreset
      · split
        · exact h
        · exact h.synsentSyn env th

theorem LaidInv.arrive (h : LaidInv s.lay) (seg : Segment) : LaidInv (tcpIn env s seg).lay := by
  unfold tcpIn tcpInputState
  split
  · unfold tcpClosed
    split
    · exact h
    · exact h.sendReset env
  · exact h
  · exact h.synsent env _
  · split
    · exact h.segmentArrives env _
    · next fec hfec =>
      have hin := h.fecInput env hfec (tcpInitSegment seg)
      dsimp only
      split
      · exact hin
      · exact hin.segmentArrives env _

end Arrival

/-! ## Every event -/

section Events

variable (env : Env) {s : TcpSock}

/-- **The first buffer of the queue goes out** once more. -/
theorem LaidInv.resend (h : LaidInv s.lay) {x : SkBuff} {q : List SkBuff} (hq : s.writeQueue = x :: q)
    (seq : UInt32) :
    LaidInv { (tcpTransmitSkb env s x seq).1 with
      writeQueue := (tcpTransmitSkb env s x seq).2.1 :: q }.lay := by
  have hbuilt : ∀ y ∈ x :: q, y.Built := hq ▸ h.built
  obtain ⟨hx, hrest⟩ := List.forall_mem_cons.mp hbuilt
  have hr : Renews s.lay.queue (x.withHeader (tcpFilled s x seq) :: q)
      [x.transmission (tcpFilled s x seq)] := by
    rw [show s.lay.queue = x :: q from hq]
    exact (Renews.refl hrest).cons hx s seq rfl rfl rfl
  have hlay : ({ (tcpTransmitSkb env s x seq).1 with
      writeQueue := (tcpTransmitSkb env s x seq).2.1 :: q } : TcpSock).lay =
        { (tcpTransmitSkb env s x seq).1.lay with
          queue := x.withHeader (tcpFilled s x seq) :: q } := rfl
  rw [hlay, lay_tcpTransmitSkb]
  exact h.renew hr

theorem LaidInv.connectRto (h : LaidInv s.lay) : LaidInv (tcpConnectRto env s).lay := by
  have hrel : LaidInv (tcpReleaseRtoTimer s).lay := h
  unfold tcpConnectRto
  dsimp only
  generalize tcpReleaseRtoTimer s = s₁ at hrel
  split
  · split
    · exact LaidInv.done hrel
    · split
      · exact hrel
      · next x q hq =>
        have hsent := hrel.resend env hq s₁.tcb.sndUna
        exact hsent.of_eq (lay_tcpRearmRtoTimer _)
  · exact hrel

theorem LaidInv.retransmissionTimeout (h : LaidInv s.lay) :
    LaidInv (tcpRetransmissionTimeout env s).lay := by
  have hrel : LaidInv (tcpReleaseRtoTimer s).lay := h
  unfold tcpRetransmissionTimeout
  dsimp only
  generalize tcpReleaseRtoTimer s = s₁ at hrel
  split
  · exact hrel
  · next x q hq =>
    have hsent := hrel.resend env hq s₁.tcb.sndUna
    generalize tcpTransmitSkb env s₁ x s₁.tcb.sndUna = t at hsent
    split
    · exact hsent.done
    · split
      · unfold tcpHandleFinState
        split
        · exact hsent
        · exact hsent
        · exact hsent
      · exact hsent

theorem LaidInv.abort (h : LaidInv s.lay) : LaidInv (tcpAbort env s).lay := (h.sendReset env).done

theorem lay_tcpReceiveStep (s : TcpSock) (rd : Reader) : (tcpReceiveStep s rd).1.lay = s.lay := by
  unfold tcpReceiveStep tcpReceiveReturn
  dsimp only
  split_ifs
  all_goals first
    | exact lay_tcpRearmUserTimeout _
    | rfl

theorem lay_tcpRead (s : TcpSock) (len : ℕ) : (tcpRead s len).1.lay = s.lay := by
  unfold tcpRead
  split
  any_goals exact lay_tcpReceiveStep s _
  any_goals rfl
  split
  · rfl
  · exact lay_tcpReceiveStep s _

theorem LaidInv.close (h : LaidInv s.lay) : LaidInv (tcpClose env s).lay := by
  unfold tcpClose
  split
  any_goals exact h
  any_goals exact h.done
  · have hfin : LaidInv { s with state := .finWait1 }.lay := h
    exact hfin.queueFin env
  · exact h.queueFin env

/-- **One event.** -/
theorem LaidInv.step (h : LaidInv s.lay) (e : TcpEvent) : LaidInv (tcpStep env s e).lay := by
  cases e with
  | connect iss => exact h.connect env iss
  | arrive seg => exact h.arrive env seg
  | write buf => exact h.write env buf
  | read len => exact h.of_eq (lay_tcpRead s len)
  | wake rd => exact h.of_eq (lay_tcpReceiveStep s rd)
  | close => exact h.close env
  | abort => exact h.abort env
  | tick ms => exact h
  | timer handler =>
    by_cases hrun : handler ∈ s.timers
    · rw [tcpStep_timer hrun]
      cases handler with
      | tcpConnectRto => exact h.connectRto env
      | tcpRetransmissionTimeout => exact h.retransmissionTimeout env
      | tcpSendDelack =>
        have hrel : LaidInv (tcpReleaseDelackTimer { s with delacks := 0 }).lay := h
        exact hrel.sendAck env
      | tcpLinger => exact LaidInv.done h
      | tcpUserTimeout =>
        have hunlinger : LaidInv { s with linger := none }.lay := h
        exact hunlinger.abort env
    · rw [tcpStep_timer_of_not hrun]
      exact h

theorem laidInv_tcpAllocSock : LaidInv tcpAllocSock.lay where
  built _ hx := absurd hx List.not_mem_nil
  fits _ ht := absurd ht List.not_mem_nil
  once _ ht := absurd ht List.not_mem_nil
  same _ ht := absurd ht List.not_mem_nil
  nodup := List.nodup_nil
  queueAddr _ hx := absurd hx List.not_mem_nil
  outAddr _ ht := absurd ht List.not_mem_nil
  blocks := rfl
  symLen _ hn := absurd hn (Option.not_mem_none _)

/-- In every run. -/
theorem laidInv_run (events : List TcpEvent) :
    LaidInv (events.foldl (tcpStep env) tcpAllocSock).lay := by
  have hfold : ∀ s : TcpSock, LaidInv s.lay → LaidInv (events.foldl (tcpStep env) s).lay := by
    induction events with
    | nil => exact fun _ h => h
    | cons e es ih => exact fun s h => ih _ (h.step env e)
  exact hfold _ laidInv_tcpAllocSock

theorem sideInv_run (events : List TcpEvent) :
    SideInv tcpAllocSock (events.foldl (tcpStep env) tcpAllocSock) := by
  have hfold : ∀ s : TcpSock, SideInv tcpAllocSock s →
      SideInv tcpAllocSock (events.foldl (tcpStep env) s) := by
    induction events with
    | nil => exact fun _ h => h
    | cons e es ih => exact fun s h => ih _ (h.step e)
  exact hfold _ ⟨.inl ⟨closed_tcpAllocSock, rfl, rfl, rfl⟩, synsOf_of_closed closed_tcpAllocSock⟩

/-- Whatever goes out fits, and what goes out of one buffer has the same options and the same payload
each time. -/
structure SentAlike (out : List Transmission) : Prop where
  fits : ∀ t ∈ out, t.Fits
  same : ∀ t ∈ out, ∀ u ∈ out, t.addr = u.addr →
    t.seg.th.data = u.seg.th.data ∧ t.seg.payload = u.seg.payload

/-- **What goes out of one buffer is alike**, a SYN included: its options are those that the socket
offers. -/
theorem sentAlike_run (events : List TcpEvent) :
    SentAlike (events.foldl (tcpStep env) tcpAllocSock).out := by
  have hlaid := laidInv_run env events
  have hsyns := (sideInv_run env events).syns
  refine ⟨hlaid.fits, fun t ht u hu haddr => ?_⟩
  have halike := hlaid.same t ht u hu haddr
  refine ⟨?_, halike.payload⟩
  by_cases hsyn : t.seg.th.syn = false
  · exact halike.data hsyn
  · have ht' : t.seg.th.syn = true := Bool.not_eq_false _ ▸ hsyn
    obtain ⟨a, hseg⟩ := hsyns t ht ht'
    obtain ⟨b, hseg'⟩ := hsyns u hu (halike.syn ▸ ht')
    rw [hseg, hseg']
    rfl

/-- The same with the answer to a SYN behind it. -/
theorem sentAlike_tcpTransmitSynack (events : List TcpEvent) :
    SentAlike (tcpTransmitSynack env (events.foldl (tcpStep env) tcpAllocSock)).out := by
  have halike := sentAlike_run env events
  have hlaid := laidInv_run env events
  have hlaid' := hlaid.transmitSynack env
  generalize events.foldl (tcpStep env) tcpAllocSock = s at halike hlaid hlaid' ⊢
  obtain ⟨t, haddr, hout⟩ : ∃ t : Transmission, t.addr = s.nextAddr ∧
      (tcpTransmitSynack env s).out = s.out ++ [t] :=
    ⟨_, rfl, congrArg LayView.out (lay_tcpTransmitSkb env (tcpAllocSkb s none (tcpSynHeader s true) []).1
      (tcpAllocSkb s none (tcpSynHeader s true) []).2 s.tcb.sndNxt)⟩
  have hold : ∀ u ∈ s.out, u.addr ≠ t.addr := fun u hu heq =>
    (hlaid.outAddr u hu).ne (heq.trans haddr)
  refine ⟨hlaid'.fits, fun u hu w hw heq => ?_⟩
  rw [hout] at hu hw
  rcases List.mem_append.mp hu with hu | hu <;> rcases List.mem_append.mp hw with hw | hw
  · exact halike.same u hu w hw heq
  · rw [List.mem_singleton.mp hw] at heq
    exact absurd heq (hold u hu)
  · rw [List.mem_singleton.mp hu] at heq
    exact absurd heq.symm (hold w hw)
  · rw [List.mem_singleton.mp hu, List.mem_singleton.mp hw]
    exact ⟨rfl, rfl⟩

end Events

end LvlIp.Tcp
