import LvlIp.Lifecycle.FinAcked

/-!
# Orphaned data

Segments that wait in the write queue go out when the last one in flight has been acknowledged. The
code that sends them stands at the end of `tcp_input_state`, and is reached only by an in-order
segment that leaves the connection in a state that receives. When everything in flight is
acknowledged otherwise, nothing is in flight any more, no timer runs, and the segments are never
sent. In every run that is the only way to lose them, besides the timer of the SYN, which may expire
outside SYN_SENT (`noOrphans_iff`).
-/

namespace LvlIp.Tcp

open Fec Relation

/-- The states in which there may be data to send. -/
def TcpState.sends : TcpState → Bool
  | .established | .finWait1 | .closeWait | .closing | .lastAck => true
  | _ => false

/-- **No orphaned data**: while there is something in the write queue, its first part is in flight,
and a retransmission timer runs. -/
structure NoOrphans (s : TcpSock) : Prop where
  inflight : s.state.sends → s.writeQueue ≠ [] → 0 < s.inflight
  sent : s.state.sends → ∀ x ∈ s.writeQueue.take s.inflight, Gone s.out x
  unsent : s.state.sends → ∀ x ∈ s.writeQueue.drop s.inflight, ¬ Gone s.out x
  armed : s.state.sends → s.writeQueue ≠ [] → s.retransmit.isSome

/-- The acknowledgement covers everything in flight, and another segment waits. -/
def Strands (s : TcpSock) (th : Tcphdr) : Prop :=
  (∀ x ∈ s.writeQueue.take s.inflight, Covers s th x) ∧ ∃ x ∈ s.writeQueue, ¬ Covers s th x

instance (s : TcpSock) (th : Tcphdr) : Decidable (Strands s th) :=
  inferInstanceAs (Decidable (_ ∧ _))

/-- The socket after the FEC section, which the checks of an arriving segment look at. -/
def TcpSock.afterFec (env : Env) (s : TcpSock) (seg : Segment) : TcpSock :=
  match s.fec with
  | none => s
  | some fec => (tcpFecInput env s fec (tcpInitSegment seg)).1

/-- The event does not strand segments: an acknowledgement of everything in flight while other
segments wait comes in ESTABLISHED or FIN_WAIT_1, in an in-order segment without a FIN; and the timer
of the SYN does not expire after SYN_SENT with the SYN still in the queue. -/
def ServesQueue (env : Env) (s : TcpSock) : TcpEvent → Prop
  | .arrive seg =>
    (s.state.sends → s.takesAck env seg → Strands s seg.th →
      (s.state = .established ∨ s.state = .finWait1) ∧
        seg.th.seq = (s.afterFec env seg).tcb.rcvNxt ∧ seg.th.fin = false) ∧
    (s.state = .synReceived → s.takesAck env seg →
      s.tcb.sndUna ≤ seg.th.ackSeq ∧ seg.th.ackSeq < s.tcb.sndNxt → s.retransmit.isSome)
  | .timer .tcpConnectRto => .tcpConnectRto ∈ s.timers → s.state.sends → s.writeQueue = []
  | _ => True

instance (env : Env) (s : TcpSock) : DecidablePred (ServesQueue env s)
  | .arrive _ => inferInstanceAs (Decidable ((_ → _ → _ → _ ∧ _ ∧ _) ∧ (_ → _ → _ → _)))
  | .timer .tcpConnectRto => inferInstanceAs (Decidable
      (.tcpConnectRto ∈ s.timers → s.state.sends → s.writeQueue = []))
  | .timer .tcpRetransmissionTimeout | .timer .tcpSendDelack | .timer .tcpLinger
  | .timer .tcpUserTimeout | .connect _ | .write _ | .read _ | .wake _ | .close | .abort
  | .tick _ => .isTrue trivial

/-! ## The queue is served -/

/-- While there is something in the queue, something is in flight and a timer runs. -/
def TxView.Served (v : TxView) : Prop := v.snd.writeQueue ≠ [] → v.snd.inflight ≠ 0 ∧ v.armed

section Served

variable {v v' : TxView} {s s' : TcpSock}

theorem SendMove.served (hm : SendMove v v') (hf : Flight v) (h : v.Served) : v'.Served := by
  cases hm with
  | fresh _ => exact h
  | wait hinf _ _ =>
    intro _
    have hne := hf.empty_of_inflight hinf
    refine ⟨hinf, ?_⟩
    change v.rearm.armed
    unfold TxView.rearm
    rw [(h hne).2]
    rfl
  | now h0 _ _ =>
    intro _
    refine ⟨Nat.succ_ne_zero _, ?_⟩
    have hnil : v.snd.writeQueue = [] := by
      by_contra hne
      exact (h hne).1 h0
    change v.rearm.armed
    unfold TxView.rearm
    rw [decide_eq_true hnil, Bool.or_true]
  | other hq hinf _ _ _ harmed =>
    unfold TxView.Served
    rw [hq, hinf, harmed]
    exact h

/-- **Sending and queueing** serve the queue. -/
theorem SendMoves.served (hm : SendMoves s s') (hf : Flight s.txv) (h : s.txv.Served) :
    s'.txv.Served := by
  have hsteps := hm.steps
  generalize s'.txv = v at hsteps ⊢
  have hboth : Flight v ∧ v.Served := by
    induction hsteps with
    | refl => exact ⟨hf, h⟩
    | tail _ hmove ih => exact ⟨ih.1.send hmove, hmove.served ih.1 ih.2⟩
  exact hboth.2

theorem take_countP_of_pairwise {α : Type*} {p : α → Prop} [DecidablePred p] {l : List α}
    (h : l.Pairwise fun x y => p y → p x) :
    (∀ x ∈ l.take (l.countP fun x => decide (p x)), p x) ∧
      ∀ x ∈ l.drop (l.countP fun x => decide (p x)), ¬ p x := by
  induction l with
  | nil => simp
  | cons a l ih =>
    obtain ⟨ha, hl⟩ := List.pairwise_cons.mp h
    by_cases hp : p a
    · rw [List.countP_cons_of_pos (by simpa using hp), List.take_succ_cons, List.drop_succ_cons]
      refine ⟨fun x hx => ?_, (ih hl).2⟩
      rcases List.mem_cons.mp hx with rfl | hx
      · exact hp
      · exact (ih hl).1 x hx
    · have hnone : ∀ x ∈ a :: l, ¬ p x := by
        intro x hx
        rcases List.mem_cons.mp hx with rfl | hx
        · exact hp
        · exact fun hpx => hp (ha x hx hpx)
      rw [List.countP_eq_zero.mpr fun x hx => by simpa using hnone x hx, List.take_zero,
        List.drop_zero]
      exact ⟨nofun, hnone⟩

/-- A queue that is served has its first part in flight. -/
theorem FlightInv.noOrphans_iff_served (h : FlightInv s) :
    NoOrphans s ↔ (s.state.sends → s.txv.Served) := by
  constructor
  · intro hno hst hne
    exact ⟨(hno.inflight hst hne).ne', hno.armed hst hne⟩
  · intro hserved
    have hcount : s.writeQueue.countP (fun x => decide (Gone s.out x)) = s.inflight :=
      h.flight.count
    have hsplit : s.state.sends → (∀ x ∈ s.writeQueue.take s.inflight, Gone s.out x) ∧
        ∀ x ∈ s.writeQueue.drop s.inflight, ¬ Gone s.out x := by
      intro hst
      by_cases hne : s.writeQueue = []
      · rw [hne, List.take_nil, List.drop_nil]
        exact ⟨nofun, nofun⟩
      · have hfront : InFront s.out s.writeQueue := (h.flight.front (hserved hst hne).2).2
        have hprefix := take_countP_of_pairwise hfront
        rwa [hcount] at hprefix
    exact ⟨fun hst hne => Nat.pos_of_ne_zero (hserved hst hne).1, fun hst => (hsplit hst).1,
      fun hst => (hsplit hst).2, fun hst hne => (hserved hst hne).2⟩

end Served

/-! ## Steps that leave the queue and its timer alone -/

/-- The queue, the count and the timer are the same. -/
structure SameLoad (s s' : TcpSock) : Prop where
  queue : s'.writeQueue = s.writeQueue
  inflight : s'.inflight = s.inflight
  retransmit : s'.retransmit = s.retransmit

section Load

variable {env : Env} {s s' s'' : TcpSock}

theorem SameLoad.refl (s : TcpSock) : SameLoad s s := ⟨rfl, rfl, rfl⟩

theorem SameLoad.trans (h : SameLoad s s') (h' : SameLoad s' s'') : SameLoad s s'' :=
  ⟨h'.queue.trans h.queue, h'.inflight.trans h.inflight, h'.retransmit.trans h.retransmit⟩

theorem SameLoad.served (h : SameLoad s s') : s'.txv.Served ↔ s.txv.Served := by
  change (s'.writeQueue ≠ [] → s'.inflight ≠ 0 ∧ s'.retransmit.isSome) ↔ _
  rw [h.queue, h.inflight, h.retransmit]
  rfl

theorem sameLoad_tcpTransmitSkb (s : TcpSock) (skb : SkBuff) (seq : UInt32) :
    SameLoad s (tcpTransmitSkb env s skb seq).1 := by
  unfold tcpTransmitSkb tcpFillOptions tcpWriteOptions
  split_ifs <;> exact ⟨rfl, rfl, rfl⟩

theorem sameLoad_tcpSendAck (s : TcpSock) : SameLoad s (tcpSendAck env s) := by
  unfold tcpSendAck
  split
  · exact .refl s
  · refine SameLoad.trans ?_ (sameLoad_tcpTransmitSkb _ _ _)
    exact ⟨rfl, rfl, rfl⟩

theorem sameLoad_tcpDataQueue (s : TcpSock) (skb : SkBuff) : SameLoad s (tcpDataQueue env s skb) := by
  unfold tcpDataQueue
  split
  · exact .refl s
  · split
    · exact ⟨rfl, rfl, rfl⟩
    · refine SameLoad.trans ?_ (sameLoad_tcpSendAck _)
      split <;> exact ⟨rfl, rfl, rfl⟩

theorem sameLoad_tcpText (s : TcpSock) (skb : SkBuff) : SameLoad s (tcpText env s skb) := by
  unfold tcpText
  split
  · exact sameLoad_tcpDataQueue s skb
  · exact .refl s

theorem sameLoad_tcpFecInput (s : TcpSock) (fec : TcpFec) (skb : SkBuff) :
    SameLoad s (tcpFecInput env s fec skb).1 := by
  have hsplice : ∀ (sps : List Splice) (s₁ : TcpSock),
      SameLoad s₁ (sps.foldl (tcpFecSplice env) s₁) := by
    intro sps
    induction sps with
    | nil => exact fun s₁ => .refl s₁
    | cons sp sps ih => exact fun s₁ => (sameLoad_tcpDataQueue s₁ sp.skb).trans (ih _)
  have hput : SameLoad s { s with fec := some (tcpFecRx fec skb).1 } := ⟨rfl, rfl, rfl⟩
  have hall := hput.trans (hsplice (tcpFecRx fec skb).2.1 _)
  unfold tcpFecInput
  dsimp only
  split
  · exact hall
  · exact hall.trans (sameLoad_tcpSendAck _)

theorem sameLoad_tcpAckOrDelay (s : TcpSock) (skb : SkBuff) :
    SameLoad s (tcpAckOrDelay env s skb) := by
  unfold tcpAckOrDelay
  dsimp only
  split
  · refine SameLoad.trans ?_ (sameLoad_tcpSendAck _)
    exact ⟨rfl, rfl, rfl⟩
  · split <;> exact ⟨rfl, rfl, rfl⟩

end Load

/-! ## Segments in the states that send -/

section Arrive

variable {env : Env} {s : TcpSock}

/-- The FIN of the peer with something left in the queue. -/
theorem tcpFin_unacked (h : s.state.sends) (hq : s.writeQueue ≠ []) (th : Tcphdr)
    (expected : Bool) : SameLoad s (tcpFin env s th expected) ∧
      (tcpFin env s th expected).state.sends ∧
      ((tcpFin env s th expected).state.receives ↔
        (s.state = .established ∨ s.state = .finWait1) ∧ ¬ (th.fin ∧ expected)) := by
  unfold tcpFin
  split
  · next hfin =>
    have hload : SameLoad s (tcpSendAck env
        { s with tcb.rcvNxt := s.tcb.rcvNxt + 1, finFlag := true }) := by
      refine SameLoad.trans ?_ (sameLoad_tcpSendAck _)
      exact ⟨rfl, rfl, rfl⟩
    have hst := state_tcpSendAck env { s with tcb.rcvNxt := s.tcb.rcvNxt + 1, finFlag := true }
    generalize tcpSendAck env { s with tcb.rcvNxt := s.tcb.rcvNxt + 1, finFlag := true } = s₁
      at hload hst
    have hst₁ : s₁.state = s.state := hst
    have hq₁ : s₁.writeQueue ≠ [] := hload.queue ▸ hq
    have hno : ¬ ((s.state = .established ∨ s.state = .finWait1) ∧ ¬ (th.fin ∧ expected)) :=
      fun hc => hc.2 hfin
    unfold tcpFinState
    rw [hst₁]
    cases hs : s.state with
    | established => exact ⟨⟨hload.queue, hload.inflight, hload.retransmit⟩, rfl,
        iff_of_false nofun (hs ▸ hno)⟩
    | finWait1 =>
      dsimp only
      rw [if_neg hq₁]
      exact ⟨⟨hload.queue, hload.inflight, hload.retransmit⟩, rfl, iff_of_false nofun (hs ▸ hno)⟩
    | closeWait | closing | lastAck =>
      refine ⟨hload, ?_, iff_of_false ?_ (hs ▸ hno)⟩
      · rw [hst₁, hs]
        rfl
      · rw [hst₁, hs]
        nofun
    | _ =>
      rw [hs] at h
      cases h
  · next hfin =>
    refine ⟨.refl s, h, ?_⟩
    revert h
    cases s.state <;> simp [TcpState.sends, TcpState.receives, hfin]

theorem served_tcpSendPending (s : TcpSock) {n : ℕ} (hn : 0 < n) :
    (tcpSendPending env s n).txv.Served := by
  intro _
  unfold tcpSendPending
  rw [txv_tcpRearmRtoTimer]
  refine ⟨?_, rfl⟩
  change (tcpSendNext env s n).inflight + n ≠ 0
  omega

/-- The end of `tcp_input_state` with something left in the queue: waiting segments go out when
nothing is in flight. -/
theorem tcpPending_unacked (hq : s.writeQueue ≠ []) (skb : SkBuff) (expected : Bool) :
    (tcpPending env s skb expected).txv.Served ↔
      s.txv.Served ∨ s.inflight = 0 ∧ s.state.receives ∧ expected := by
  have hlen : 0 < min s.writeQueue.length 3 := by
    have := List.length_pos_iff.mpr hq
    omega
  have hserved : s.txv.Served → s.inflight ≠ 0 := fun hs => (hs hq).1
  unfold tcpPending
  split
  · next hgo =>
    dsimp only
    have hstop : SameLoad s (tcpStopDelackTimer s) := ⟨rfl, rfl, rfl⟩
    split
    · next h0 =>
      exact iff_of_true (served_tcpSendPending _ h0.2) (.inr ⟨h0.1, hgo⟩)
    · next h0 =>
      have hinf : s.inflight ≠ 0 := fun hz => h0 ⟨hz, hlen⟩
      rw [(hstop.trans (sameLoad_tcpAckOrDelay _ skb)).served]
      exact ⟨.inl, fun hor => hor.resolve_right fun hc => hinf hc.1⟩
  · next hgo => exact ⟨.inl, fun hor => hor.resolve_right fun hc => hgo hc.2⟩

theorem tcpDeliver_unacked (h : s.state.sends) (hq : s.writeQueue ≠ []) (skb : SkBuff) :
    (tcpDeliver env s skb).state.sends ∧
      ((tcpDeliver env s skb).txv.Served ↔ s.txv.Served ∨ s.inflight = 0 ∧
        (s.state = .established ∨ s.state = .finWait1) ∧ skb.seq = s.tcb.rcvNxt ∧
          skb.th.fin = false) := by
  have htext := @sameLoad_tcpText env s skb
  have hst := @state_tcpText env s skb
  have hq₁ : (tcpText env s skb).writeQueue ≠ [] := htext.queue ▸ hq
  obtain ⟨hload, hsends, hrec⟩ := @tcpFin_unacked env (tcpText env s skb) (hst ▸ h) hq₁ skb.th
    (skb.seq == s.tcb.rcvNxt)
  have hall := htext.trans hload
  refine ⟨by rwa [state_tcpDeliver], ?_⟩
  have hq₂ : (tcpFin env (tcpText env s skb) skb.th (skb.seq == s.tcb.rcvNxt)).writeQueue ≠ [] :=
    hall.queue ▸ hq
  have hpend := @tcpPending_unacked env _ hq₂ skb (skb.seq == s.tcb.rcvNxt)
  rw [hall.served, hall.inflight, hrec, hst] at hpend
  refine hpend.trans ?_
  rw [beq_iff_eq]
  refine or_congr_right (and_congr_right fun _ => ?_)
  constructor
  · rintro ⟨⟨hstate, hno⟩, hexp⟩
    exact ⟨hstate, hexp, by simpa using fun hfin => hno ⟨hfin, hexp⟩⟩
  · rintro ⟨hstate, hexp, hfin⟩
    exact ⟨⟨hstate, fun hc => by rw [hfin] at hc; exact nomatch hc.1⟩, hexp⟩

/-- What is left of the arrival once the queue has been emptied. -/
theorem served_of_emptied (hq : s.writeQueue = []) (skb : SkBuff) :
    (tcpFinAcked env s skb.th).1.txv.Served ∧
      (tcpDeliver env (tcpFinAcked env s skb.th).1 skb).txv.Served := by
  have hfin : (tcpFinAcked env s skb.th).1.writeQueue = [] :=
    (writeQueue_tcpFinAcked env skb.th).trans hq
  exact ⟨fun hne => absurd hfin hne, fun hne => absurd (writeQueue_tcpDeliver_nil hfin skb) hne⟩

theorem tcpCleanLoop_strands {una : UInt32} {q : List SkBuff} {n : ℕ} :
    ((tcpCleanLoop una q n).2 = 0 ∧ (tcpCleanLoop una q n).1 ≠ []) ↔
      (∀ x ∈ q.take n, 0 < x.seq ∧ x.endSeq ≤ una) ∧
        ∃ x ∈ q, ¬ (0 < x.seq ∧ x.endSeq ≤ una) := by
  induction q generalizing n with
  | nil => simp [tcpCleanLoop]
  | cons y q ih =>
    unfold tcpCleanLoop
    split
    · next hy =>
      rw [ih]
      cases n <;> simp [hy]
    · next hy =>
      have hwaits : ∃ x ∈ y :: q, ¬ (0 < x.seq ∧ x.endSeq ≤ una) := ⟨y, List.mem_cons_self, hy⟩
      rw [and_iff_left hwaits]
      cases n with
      | zero => simp
      | succ n =>
        exact iff_of_false (fun hc => Nat.succ_ne_zero n hc.1) fun hall =>
          hy (hall y List.mem_cons_self)

/-- With the queue served, an acknowledgement that strands segments is a new one. -/
theorem strands_iff (hs : s.txv.Served) (th : Tcphdr) :
    Strands s th ↔ (s.tcb.sndUna < th.ackSeq ∧ th.ackSeq ≤ s.tcb.sndNxt) ∧
      (tcpCleanLoop th.ackSeq s.writeQueue s.inflight).2 = 0 ∧
      (tcpCleanLoop th.ackSeq s.writeQueue s.inflight).1 ≠ [] := by
  rw [tcpCleanLoop_strands]
  unfold Strands Covers
  by_cases hacc : s.tcb.sndUna < th.ackSeq ∧ th.ackSeq ≤ s.tcb.sndNxt
  · simp only [hacc, true_and, and_self]
  · refine iff_of_false ?_ fun hc => hacc hc.1
    rintro ⟨hall, x, hx, -⟩
    have hne : s.writeQueue ≠ [] := List.ne_nil_of_mem hx
    obtain ⟨y, q, hq⟩ := List.exists_cons_of_ne_nil hne
    obtain ⟨n, hn⟩ := Nat.exists_eq_succ_of_ne_zero (hs hne).1
    change s.inflight = n.succ at hn
    rw [hq, hn] at hall
    exact hacc (hall y (by simp)).1

/-- **An acknowledgement of new data** serves what is left, unless it strands it. -/
theorem tcpAck_accepted {ackSeq : UInt32} (hacc : s.tcb.sndUna < ackSeq ∧ ackSeq ≤ s.tcb.sndNxt)
    (hs : s.txv.Served) :
    (tcpAck s ackSeq).1.writeQueue = (tcpCleanLoop ackSeq s.writeQueue s.inflight).1 ∧
      (tcpAck s ackSeq).1.inflight = (tcpCleanLoop ackSeq s.writeQueue s.inflight).2 ∧
      ((tcpCleanLoop ackSeq s.writeQueue s.inflight).2 ≠ 0 → (tcpAck s ackSeq).1.txv.Served) := by
  have hsnd : (tcpAck s ackSeq).1.snd = _ :=
    (snd_tcpAck s ackSeq).trans (SndView.ack_of_acceptable hacc)
  have hqueue : (tcpAck s ackSeq).1.writeQueue = (tcpCleanLoop ackSeq s.writeQueue s.inflight).1 :=
    congrArg SndView.writeQueue hsnd
  have hinf : (tcpAck s ackSeq).1.inflight = (tcpCleanLoop ackSeq s.writeQueue s.inflight).2 :=
    congrArg SndView.inflight hsnd
  refine ⟨hqueue, hinf, fun hpos hne => ⟨hinf.trans_ne hpos, ?_⟩⟩
  change (tcpAck s ackSeq).1.writeQueue ≠ [] at hne
  rw [hqueue] at hne
  have hold : s.writeQueue ≠ [] := by
    intro hnil
    rw [hnil] at hne
    exact hne rfl
  have harmed : s.txv.armed := (hs hold).2
  have hrtt := txv_tcpRtt { s with tcb.sndUna := ackSeq }
  change (tcpAck s ackSeq).1.txv.armed
  unfold tcpAck
  dsimp only
  rw [if_pos hacc]
  generalize tcpRtt { s with tcb.sndUna := ackSeq } = s₁ at hrtt
  have hq₁ : s₁.writeQueue = s.writeQueue := congrArg (fun v : TxView => v.snd.writeQueue) hrtt
  have hi₁ : s₁.inflight = s.inflight := congrArg (fun v : TxView => v.snd.inflight) hrtt
  have ha₁ := congrArg TxView.armed hrtt
  unfold tcpCleanRtoQueue
  dsimp only
  rw [hq₁, hi₁, if_neg (by rintro (hc | hc); exacts [hne hc, hpos hc])]
  exact ha₁.trans harmed

/-- What an arriving segment does past the checks before its ACK field. -/
def tcpTakeAck (env : Env) (s : TcpSock) (skb : SkBuff) : TcpSock :=
  let a := tcpAckField s skb.th
  if ¬ a.2 then a.1
  else
    let f := tcpFinAcked env a.1 skb.th
    if ¬ f.2 then f.1 else tcpDeliver env f.1 skb

theorem tcpAckField_of_sends (h : s.state.sends) (th : Tcphdr) :
    tcpAckField s th = tcpAck s th.ackSeq := by
  unfold tcpAckField
  split
  · next hst =>
    rw [hst] at h
    cases h
  all_goals first
    | rfl
    | next h1 h2 h3 h4 h5 h6 h7 =>
      revert h h1 h2 h3 h4 h5 h6 h7
      cases s.state <;> simp [TcpState.sends]

theorem tcpTakeAck_unacked {skb : SkBuff} (hgo : (tcpAckField s skb.th).2)
    (hne : (tcpAckField s skb.th).1.writeQueue ≠ []) :
    tcpTakeAck env s skb = tcpDeliver env (tcpAckField s skb.th).1 skb := by
  have hfin : tcpFinAcked env (tcpAckField s skb.th).1 skb.th = ((tcpAckField s skb.th).1, true) := by
    unfold tcpFinAcked
    rw [if_neg hne]
  unfold tcpTakeAck
  dsimp only
  rw [if_neg (not_not.mpr hgo), hfin]
  rfl

/-- A segment with an ACK field that is processed. -/
theorem tcpTakeAck_serves (h : s.state.sends) (hs : s.txv.Served) (skb : SkBuff) :
    ((tcpTakeAck env s skb).state.sends → (tcpTakeAck env s skb).txv.Served) ↔
      (Strands s skb.th →
        (s.state = .established ∨ s.state = .finWait1) ∧ skb.seq = s.tcb.rcvNxt ∧
          skb.th.fin = false) := by
  have hfield := tcpAckField_of_sends h skb.th
  have hst : (tcpAckField s skb.th).1.state = s.state := by rw [hfield, state_tcpAck]
  rw [strands_iff hs]
  have hrcv : (tcpAckField s skb.th).1.tcb.rcvNxt = s.tcb.rcvNxt := by
    rw [hfield]
    exact congrArg RcvView.rcvNxt (rcv_tcpAck s _)
  by_cases hacc : s.tcb.sndUna < skb.th.ackSeq ∧ skb.th.ackSeq ≤ s.tcb.sndNxt
  · obtain ⟨hqueue, hinf, hserved⟩ := tcpAck_accepted hacc hs
    have hgo : (tcpAckField s skb.th).2 := by
      rw [hfield]
      exact tcpAck_through hacc
    rw [← hfield] at hqueue hinf hserved
    by_cases hnil : (tcpAckField s skb.th).1.writeQueue = []
    · refine iff_of_true (fun _ => ?_) fun hstrand => absurd (hqueue.symm.trans hnil) hstrand.2.2
      obtain ⟨hfin, hdel⟩ := @served_of_emptied env _ hnil skb
      unfold tcpTakeAck
      dsimp only
      rw [if_neg (not_not.mpr hgo)]
      split
      · exact hfin
      · exact hdel
    · obtain ⟨hsends, hiff⟩ := @tcpDeliver_unacked env _ (hst ▸ h) hnil skb
      rw [tcpTakeAck_unacked hgo hnil, forall_prop_of_true hsends, hiff, hst, hrcv, hinf]
      by_cases h0 : (tcpCleanLoop skb.th.ackSeq s.writeQueue s.inflight).2 = 0
      · have hno : ¬ (tcpAckField s skb.th).1.txv.Served := fun hc => (hc hnil).1 (hinf.trans h0)
        have hkept := hqueue ▸ hnil
        constructor
        · exact fun hor _ => (hor.resolve_left hno).2
        · exact fun himp => .inr ⟨h0, himp ⟨hacc, h0, hkept⟩⟩
      · exact iff_of_true (.inl (hserved h0)) fun hstrand => absurd hstrand.2.1 h0
  · have hsame : (tcpAckField s skb.th).1 = s := by
      rw [hfield]
      unfold tcpAck
      dsimp only
      rw [if_neg hacc]
    refine iff_of_true (fun _ => ?_) fun hstrand => absurd hstrand.1 hacc
    by_cases hgo : (tcpAckField s skb.th).2
    · by_cases hnil : (tcpAckField s skb.th).1.writeQueue = []
      · obtain ⟨hfin, hdel⟩ := @served_of_emptied env _ hnil skb
        unfold tcpTakeAck
        dsimp only
        rw [if_neg (not_not.mpr hgo)]
        split
        · exact hfin
        · exact hdel
      · rw [tcpTakeAck_unacked hgo hnil]
        refine (@tcpDeliver_unacked env _ (hst ▸ h) hnil skb).2.mpr (.inl ?_)
        rwa [hsame]
    · unfold tcpTakeAck
      dsimp only
      rw [if_pos hgo, hsame]
      exact hs

theorem tcpSegmentArrives_taken {skb : SkBuff} (h : s.reachesAck skb) :
    tcpSegmentArrives env s skb = tcpTakeAck env s skb := by
  unfold TcpSock.reachesAck at h
  simp only [Bool.and_eq_true, Bool.not_eq_true'] at h
  obtain ⟨⟨⟨hver, hrst⟩, hsyn⟩, hack⟩ := h
  unfold tcpSegmentArrives tcpTakeAck
  rw [if_neg (not_not.mpr hver), if_neg (by rw [hrst]; nofun), if_neg (by rw [hsyn]; nofun),
    if_neg (not_not.mpr hack)]

/-- Before the ACK field a segment changes nothing in the queue, unless it resets the connection. -/
theorem tcpSegmentArrives_not_taken {skb : SkBuff} (h : ¬ s.reachesAck skb) :
    (tcpSegmentArrives env s skb).state = .timeWait ∨
      (tcpSegmentArrives env s skb).state = s.state ∧ SameLoad s (tcpSegmentArrives env s skb) := by
  unfold tcpSegmentArrives
  split
  · split
    · exact .inr ⟨rfl, .refl s⟩
    · exact .inr ⟨state_tcpSendAck env s, sameLoad_tcpSendAck s⟩
  · next hver =>
    split
    · exact .inl rfl
    · next hrst =>
      split
      · exact .inr ⟨rfl, .refl s⟩
      · next hsyn =>
        split
        · exact .inr ⟨rfl, .refl s⟩
        · next hack =>
          refine absurd ?_ h
          unfold TcpSock.reachesAck
          simp_all

/-- **A segment in a state that sends** leaves the queue served exactly when it does not strand what
waits. -/
theorem tcpSegmentArrives_serves (h : s.state.sends) (hs : s.txv.Served) (skb : SkBuff) :
    ((tcpSegmentArrives env s skb).state.sends → (tcpSegmentArrives env s skb).txv.Served) ↔
      (s.reachesAck skb → Strands s skb.th →
        (s.state = .established ∨ s.state = .finWait1) ∧ skb.seq = s.tcb.rcvNxt ∧
          skb.th.fin = false) := by
  by_cases hreach : s.reachesAck skb
  · rw [tcpSegmentArrives_taken hreach, tcpTakeAck_serves h hs]
    exact ⟨fun himp _ => himp, fun himp => himp hreach⟩
  · refine iff_of_true ?_ fun hc => absurd hc hreach
    rcases @tcpSegmentArrives_not_taken env s skb hreach with htw | ⟨-, hload⟩
    · rw [htw]
      nofun
    · exact fun _ => hload.served.mpr hs

theorem connected_of_sends {st : TcpState} (h : st.sends) : st.connected := by
  revert h
  cases st <;> simp [TcpState.sends, TcpState.connected]

theorem tcpIn_serves (h : s.state.sends) (hs : s.txv.Served) (seg : Segment) :
    ((tcpIn env s seg).state.sends → (tcpIn env s seg).txv.Served) ↔
      (s.takesAck env seg → Strands s seg.th →
        (s.state = .established ∨ s.state = .finWait1) ∧
          seg.th.seq = (s.afterFec env seg).tcb.rcvNxt ∧ seg.th.fin = false) := by
  rw [tcpIn_of_connected (connected_of_sends h)]
  unfold TcpSock.takesAck TcpSock.afterFec
  cases hfec : s.fec with
  | none => exact tcpSegmentArrives_serves h hs (tcpInitSegment seg)
  | some fec =>
    have hload := @sameLoad_tcpFecInput env s fec (tcpInitSegment seg)
    have hst := @state_tcpFecInput env s fec (tcpInitSegment seg)
    have hsnd := snd_tcpFecInput env hfec (tcpInitSegment seg)
    dsimp only
    generalize tcpFecInput env s fec (tcpInitSegment seg) = r at hload hst hsnd
    cases hr : r.2 with
    | true => exact iff_of_true (fun _ => hload.served.mpr hs) nofun
    | false =>
      have huna : r.1.tcb.sndUna = s.tcb.sndUna := congrArg SndView.sndUna hsnd
      have hnxt : r.1.tcb.sndNxt = s.tcb.sndNxt := congrArg SndView.sndNxt hsnd
      have hstrands : Strands r.1 seg.th ↔ Strands s seg.th := by
        unfold Strands Covers
        rw [huna, hnxt, hload.queue, hload.inflight]
      have harrive := @tcpSegmentArrives_serves env r.1 (hst ▸ h) (hload.served.mpr hs)
        (tcpInitSegment seg)
      rw [hst] at harrive
      rw [Bool.not_false, Bool.true_and, ← hstrands]
      exact harrive

/-! ## The handshake -/

theorem sameLoad_tcpFecResolve (s : TcpSock) : SameLoad s (tcpFecResolve s) := by
  rw [tcpFecResolve_eq]
  split
  · exact ⟨rfl, rfl, rfl⟩
  · exact .refl s

theorem sameLoad_tcpParseOpts (s : TcpSock) (th : Tcphdr) : SameLoad s (tcpParseOpts s th) := by
  obtain ⟨smss, tsopt, allowed, hparse⟩ := exists_tcpParseOpts s th
  rw [hparse]
  exact ⟨rfl, rfl, rfl⟩

theorem sameLoad_tcpRearmUserTimeout (s : TcpSock) : SameLoad s (tcpRearmUserTimeout s) := by
  unfold tcpRearmUserTimeout
  split
  · exact .refl s
  · exact ⟨rfl, rfl, rfl⟩

/-- The end of the handshake in SYN_RECEIVED. -/
theorem Received.taken_serves (h : Received s) (hinf : s.inflight ≠ 0) {skb : SkBuff}
    (hreach : s.reachesAck skb)
    (hacc : s.tcb.sndUna ≤ skb.th.ackSeq ∧ skb.th.ackSeq < s.tcb.sndNxt) :
    (tcpSegmentArrives env s skb).state.sends ∧
      ((tcpSegmentArrives env s skb).txv.Served ↔ s.retransmit.isSome) := by
  obtain ⟨y, hq, -⟩ := h.queue
  obtain ⟨s₂, hs₂⟩ : ∃ s₂, tcpFecResolve { s with state := .established } = s₂ := ⟨_, rfl⟩
  have hload : SameLoad s s₂ := by
    rw [← hs₂]
    refine SameLoad.trans ?_ (sameLoad_tcpFecResolve _)
    exact ⟨rfl, rfl, rfl⟩
  have hst : s₂.state = .established := by rw [← hs₂, state_tcpFecResolve]
  have hsnd : s₂.tcb = s.tcb := by
    rw [← hs₂, tcpFecResolve_eq]
    split <;> rfl
  have htake := (synReceived_takes_iff s.tcb.iss skb.th.ackSeq).mp
    (by rwa [h.sndUna, h.sndNxt] at hacc)
  have hfield : tcpAckField s skb.th = (s₂, true) := by
    rw [h.tcpAckField_eq, if_pos htake, hs₂]
    unfold tcpAck
    dsimp only
    have hno : ¬ (s₂.tcb.sndUna < skb.th.ackSeq ∧ skb.th.ackSeq ≤ s₂.tcb.sndNxt) := by
      rw [hsnd, h.sndUna, htake.1]
      exact fun hc => UInt32.lt_irrefl _ hc.1
    rw [if_neg hno, hsnd]
    refine congrArg (Prod.mk s₂) (decide_eq_true ?_)
    rintro (hlt | hlt)
    · exact UInt32.not_lt.mpr hacc.1 hlt
    · exact UInt32.lt_asymm hacc.2 hlt
  have hne : s₂.writeQueue ≠ [] := by
    rw [hload.queue, hq]
    nofun
  have hgo : (tcpAckField s skb.th).2 := by rw [hfield]
  have hne' : (tcpAckField s skb.th).1.writeQueue ≠ [] := by rwa [hfield]
  rw [tcpSegmentArrives_taken hreach, tcpTakeAck_unacked hgo hne', hfield]
  obtain ⟨hsends, hserved⟩ := @tcpDeliver_unacked env s₂ (by rw [hst]; rfl) hne skb
  refine ⟨hsends, hserved.trans ?_⟩
  rw [or_iff_left fun hc => hinf (hload.inflight ▸ hc.1), hload.served]
  constructor
  · exact fun hs => (hs (by change s.writeQueue ≠ []; rw [hq]; nofun)).2
  · exact fun harmed _ => ⟨hinf, harmed⟩

/-- The acknowledgement of a SYN empties the queue, or leaves it as it is. -/
theorem Connecting.served_acked (h : Connecting s) (hs : s.txv.Served) (th : Tcphdr) :
    (tcpSynsentAcked s th).txv.Served := by
  obtain ⟨y, hq, -⟩ := h.queue
  have harmed : s.retransmit.isSome := (hs (by change s.writeQueue ≠ []; rw [hq]; nofun)).2
  unfold tcpSynsentAcked
  dsimp only
  split
  · intro hne
    have hclean : (tcpCleanLoop th.ackSeq s.writeQueue s.inflight).1 ≠ [] := by
      intro hnil
      refine hne ?_
      unfold tcpCleanRtoQueue
      dsimp only
      split <;> exact hnil
    have hkept : tcpCleanLoop th.ackSeq s.writeQueue s.inflight = ([y], 1) := by
      rw [hq, h.inflight] at hclean ⊢
      unfold tcpCleanLoop at hclean ⊢
      split at hclean
      · exact absurd rfl hclean
      · next hno => rw [if_neg hno]
    unfold tcpCleanRtoQueue
    dsimp only
    rw [hkept, if_neg (by rintro (hc | hc) <;> cases hc)]
    exact ⟨Nat.one_ne_zero, harmed⟩
  · exact hs

/-- **A SYN in SYN_SENT**: the queue stays served. -/
theorem Connecting.synsentSyn_serves (h : Connecting s) (hs : s.txv.Served) {th : Tcphdr}
    (hack : th.ack → s.tcb.iss < th.ackSeq) :
    (tcpSynsentSyn env s th).txv.Served ∧
      ((tcpSynsentSyn env s th).state = .synReceived → (tcpSynsentSyn env s th).inflight ≠ 0) := by
  have hserved := h.served_acked hs th
  have htcb := tcb_tcpSynsentAcked s th
  have hplain : th.ack = false → (tcpSynsentAcked s th).inflight = 1 := by
    intro hno
    unfold tcpSynsentAcked
    rw [hno]
    exact h.inflight
  rw [tcpSynsentSyn_eq]
  dsimp only
  generalize tcpSynsentAcked s th = s₁ at hserved htcb hplain
  split
  · have hest : SameLoad s₁ { s₁ with
        state := .established, tcb.sndUna := s₁.tcb.sndNxt, backoff := 0, rto := 1000 } :=
      ⟨rfl, rfl, rfl⟩
    have hsock : ∀ s₂ : TcpSock, SameLoad s₂ (sockConnected s₂) := fun _ => ⟨rfl, rfl, rfl⟩
    have hload := (((hest.trans (@sameLoad_tcpSendAck env _)).trans
      (sameLoad_tcpRearmUserTimeout _)).trans (sameLoad_tcpParseOpts _ th)).trans
      (sameLoad_tcpFecResolve _)
    refine ⟨(hload.trans (hsock _)).served.mpr hserved, fun hst => ?_⟩
    have hstate : ∀ s₂ : TcpSock, (sockConnected s₂).state = s₂.state := fun _ => rfl
    rw [hstate, state_tcpFecResolve, state_tcpParseOpts,
      state_eq_of_rcv (rcv_tcpRearmUserTimeout _), state_tcpSendAck] at hst
    cases hst
  · next hlt =>
    have hrecv : SameLoad s₁ { s₁ with state := .synReceived, tcb.sndUna := s₁.tcb.iss } :=
      ⟨rfl, rfl, rfl⟩
    have hload := hrecv.trans (sameLoad_tcpParseOpts _ th)
    rw [tcpSendSynack_of_ne env (by rw [state_tcpParseOpts]; nofun)]
    refine ⟨hload.served.mpr hserved, fun _ => ?_⟩
    have hno : th.ack = false := by
      rw [htcb.1, htcb.2] at hlt
      cases hth : th.ack with
      | false => rfl
      | true =>
        rw [hth, if_pos rfl] at hlt
        exact absurd (hack hth) hlt
    rw [hload.inflight, hplain hno]
    exact Nat.one_ne_zero

end Arrive

/-! ## Runs -/

/-- The invariant of a run without orphaned data. -/
structure LoadInv (s : TcpSock) : Prop where
  flight : FlightInv s
  served : s.state.sends ∨ s.state = .synSent → s.txv.Served
  received : s.state = .synReceived → s.inflight ≠ 0

section Runs

variable {env : Env} {s : TcpSock}

/-- The invariant after an event, and that there are no orphans then. -/
def Serves (env : Env) (s : TcpSock) (e : TcpEvent) : Prop :=
  LoadInv (tcpStep env s e) ∧ NoOrphans (tcpStep env s e)

theorem LoadInv.serves (h : LoadInv s) {e : TcpEvent}
    (hserved : (tcpStep env s e).state.sends ∨ (tcpStep env s e).state = .synSent →
      (tcpStep env s e).txv.Served)
    (hrec : (tcpStep env s e).state = .synReceived → (tcpStep env s e).inflight ≠ 0) :
    Serves env s e := by
  have hf := @FlightInv.step env s h.flight e
  exact ⟨⟨hf, hserved, hrec⟩, hf.noOrphans_iff_served.mpr fun hst => hserved (.inl hst)⟩

/-- An event that leaves the state alone and at most sends and queues new segments. -/
theorem LoadInv.serves_of_send (h : LoadInv s) {e : TcpEvent} (hm : SendMoves s (tcpStep env s e))
    (hst : (tcpStep env s e).state = s.state)
    (hinf : s.state = .synReceived → (tcpStep env s e).inflight = s.inflight) : Serves env s e := by
  refine h.serves (fun hs => hm.served h.flight.flight (h.served (hst ▸ hs))) fun hr => ?_
  rw [hst] at hr
  rw [hinf hr]
  exact h.received hr

/-- One that loads nothing. -/
theorem LoadInv.serves_of_same (h : LoadInv s) {e : TcpEvent} (hload : SameLoad s (tcpStep env s e))
    (hst : (tcpStep env s e).state = s.state) : Serves env s e := by
  refine h.serves (fun hs => hload.served.mpr (h.served (hst ▸ hs))) fun hr => ?_
  rw [hload.inflight]
  exact h.received (hst ▸ hr)

theorem LoadInv.serves_connect (h : LoadInv s) (iss : UInt32) : Serves env s (.connect iss) := by
  by_cases hcl : s.state = .close
  · have hclosed : Closed s := by
      rcases h.flight.reached with hr | hr | hr | hr
      · exact hr
      · exact nomatch hr.state.symm.trans hcl
      · exact nomatch hr.state.symm.trans hcl
      · rw [hcl] at hr
        cases hr
    have hsent : (tcpStep env s (.connect iss)).state = .synSent := (hclosed.connect iss).1.state
    have hempty : s.txv.Served := fun hne => absurd hclosed.writeQueue hne
    refine h.serves (fun _ => ?_) fun hr => nomatch hsent.symm.trans hr
    exact (sendMoves_inetStreamConnect env s iss).served h.flight.flight hempty
  · have heq : tcpStep env s (.connect iss) = { s with err := eIsconn } := if_pos hcl
    refine h.serves_of_same ?_ ?_
    · rw [heq]
      exact ⟨rfl, rfl, rfl⟩
    · rw [heq]

theorem LoadInv.serves_close (h : LoadInv s) (hend : ¬ Ends env s .close) :
    Serves env s .close := by
  cases hst : s.state with
  | established =>
    have hclose : tcpStep env s .close = tcpQueueFin env { s with state := .finWait1 } := by
      change tcpClose env s = _
      unfold tcpClose
      rw [hst]
    have hfw : (tcpStep env s .close).state = .finWait1 := state_tcpClose_established hst
    have hst' : SendMoves s { s with state := .finWait1 } := .other _ rfl rfl rfl rfl rfl rfl rfl rfl
    refine h.serves (fun _ => ?_) fun hr => nomatch hfw.symm.trans hr
    rw [hclose]
    exact (hst'.trans (sendMoves_tcpQueueFin env _)).served h.flight.flight
      (h.served (.inl (by rw [hst]; rfl)))
  | closeWait =>
    have hclose : tcpStep env s .close = tcpQueueFin env s := by
      change tcpClose env s = _
      unfold tcpClose
      rw [hst]
    refine h.serves_of_send ?_ ?_ fun hr => nomatch hst.symm.trans hr
    · rw [hclose]
      exact sendMoves_tcpQueueFin env s
    · rw [hclose, state_tcpQueueFin]
  | listen => exact absurd (.inl hst) hend
  | synSent => exact absurd (.inr (.inl hst)) hend
  | synReceived => exact absurd (.inr (.inr hst)) hend
  | _ =>
    have hclose : tcpStep env s .close = { s with err := eBadf } := by
      change tcpClose env s = _
      unfold tcpClose
      rw [hst]
    refine h.serves_of_same ?_ ?_
    · rw [hclose]
      exact ⟨rfl, rfl, rfl⟩
    · rw [hclose]

/-- The retransmission of the first segment starts the timer again. -/
theorem tcpRetransmissionTimeout_rearms {skb : SkBuff} {q : List SkBuff}
    (hq : s.writeQueue = skb :: q) (hrto : ¬ 60000 < s.rto) :
    (tcpRetransmissionTimeout env s).retransmit.isSome ∧
      ((tcpRetransmissionTimeout env s).state.sends → s.state.sends) := by
  have hrcv := rcv_tcpTransmitSkb env (tcpReleaseRtoTimer s) skb (tcpReleaseRtoTimer s).tcb.sndUna
  have hst : (tcpTransmitSkb env (tcpReleaseRtoTimer s) skb
      (tcpReleaseRtoTimer s).tcb.sndUna).1.state = s.state := state_eq_of_rcv hrcv
  have hrto' : (tcpTransmitSkb env (tcpReleaseRtoTimer s) skb
      (tcpReleaseRtoTimer s).tcb.sndUna).1.rto = s.rto := rto_tcpTransmitSkb _ skb _
  unfold tcpRetransmissionTimeout tcpArmRtoTimer
  dsimp only
  rw [show (tcpReleaseRtoTimer s).writeQueue = skb :: q from hq]
  dsimp only
  rw [hrto', if_neg hrto]
  generalize (tcpTransmitSkb env (tcpReleaseRtoTimer s) skb (tcpReleaseRtoTimer s).tcb.sndUna) = t
    at hst
  split
  · unfold tcpHandleFinState
    dsimp only
    split
    · next hs => exact ⟨rfl, fun _ => by rw [← hst, hs]; rfl⟩
    · next hs => exact ⟨rfl, fun _ => by rw [← hst, hs]; rfl⟩
    · exact ⟨rfl, fun hsends => hst ▸ hsends⟩
  · exact ⟨rfl, fun hsends => hst ▸ hsends⟩

theorem LoadInv.serves_timeout (h : LoadInv s) (hrun : .tcpRetransmissionTimeout ∈ s.timers)
    (hend : ¬ Ends env s (.timer .tcpRetransmissionTimeout)) :
    Serves env s (.timer .tcpRetransmissionTimeout) := by
  have hconn := h.flight.reached.connected_of_rtoArmed hrun
  have hconn' := @connected_step env s (.timer .tcpRetransmissionTimeout) hconn
  refine h.serves (fun hst => ?_) fun hr => ?_
  · rw [tcpStep_timer hrun] at hst hconn' ⊢
    change (tcpRetransmissionTimeout env s).state.sends ∨
      (tcpRetransmissionTimeout env s).state = .synSent at hst
    change (tcpRetransmissionTimeout env s).state.connected at hconn'
    change (tcpRetransmissionTimeout env s).txv.Served
    cases hq : s.writeQueue with
    | nil =>
      have hnil : (tcpRetransmissionTimeout env s).writeQueue = [] := by
        unfold tcpRetransmissionTimeout
        dsimp only
        rw [show (tcpReleaseRtoTimer s).writeQueue = [] from hq]
      exact fun hne => absurd hnil hne
    | cons skb q =>
      have hrto : ¬ 60000 < s.rto := fun hlt => hend ⟨hrun, by rw [hq]; nofun, hlt⟩
      obtain ⟨harmed, hsends⟩ := @tcpRetransmissionTimeout_rearms env s skb q hq hrto
      obtain ⟨-, -, -, -, -, hinf⟩ := tcpRetransmissionTimeout_head env hq
      rcases hst with hst | hst
      · have hold := h.served (.inl (hsends hst)) (by change s.writeQueue ≠ []; rw [hq]; nofun)
        exact fun _ => ⟨hinf.trans_ne hold.1, harmed⟩
      · rw [hst] at hconn'
        cases hconn'
  · rw [hr] at hconn'
    cases hconn'

theorem LoadInv.connectRto_iff (h : LoadInv s) (hrun : .tcpConnectRto ∈ s.timers)
    (hend : ¬ Ends env s (.timer .tcpConnectRto)) :
    (NoOrphans (tcpStep env s (.timer .tcpConnectRto)) ↔ (s.state.sends → s.writeQueue = [])) ∧
      ((s.state.sends → s.writeQueue = []) → LoadInv (tcpStep env s (.timer .tcpConnectRto))) := by
  by_cases hst : s.state = .synSent
  · have hc := h.flight.reached.connecting hst
    obtain ⟨y, hq, hsyn⟩ := hc.queue
    have hretry : ¬ tcpConnRetries < s.backoff := fun hlt => hend ⟨hrun, hst, hlt⟩
    have heq : tcpStep env s (.timer .tcpConnectRto) = s.resent y := by
      rw [tcpStep_timer hrun]
      exact tcpConnectRto_resent hc hq hsyn hretry
    have hserves : Serves env s (.timer .tcpConnectRto) := by
      refine h.serves (fun _ _ => ?_) fun hr => ?_
      · rw [heq]
        exact ⟨hc.inflight.trans_ne Nat.one_ne_zero, rfl⟩
      · rw [heq] at hr
        exact nomatch hst.symm.trans hr
    have hno : s.state.sends → s.writeQueue = [] := by
      rw [hst]
      nofun
    exact ⟨iff_of_true hserves.2 hno, fun _ => hserves.1⟩
  · have heq : tcpStep env s (.timer .tcpConnectRto) = tcpReleaseRtoTimer s := by
      rw [tcpStep_timer hrun]
      change tcpConnectRto env s = _
      unfold tcpConnectRto
      dsimp only
      rw [if_neg (show (tcpReleaseRtoTimer s).state ≠ .synSent from hst)]
    have hf := @FlightInv.step env s h.flight (.timer .tcpConnectRto)
    rw [heq] at hf ⊢
    rw [hf.noOrphans_iff_served]
    have hiff : (tcpReleaseRtoTimer s).txv.Served ↔ s.writeQueue = [] := by
      constructor
      · intro hs
        by_contra hne
        exact nomatch (hs hne).2
      · exact fun hnil hne => absurd hnil hne
    refine ⟨forall_congr' fun _ => hiff, fun hno => ⟨hf, fun hs => ?_, h.received⟩⟩
    exact hiff.mpr (hno (hs.resolve_right hst))

/-- The event leaves no orphans exactly when it does not strand segments, and then the invariant
is kept. -/
structure Decided (env : Env) (s : TcpSock) (e : TcpEvent) : Prop where
  iff : NoOrphans (tcpStep env s e) ↔ ServesQueue env s e
  keeps : ServesQueue env s e → LoadInv (tcpStep env s e)

theorem Serves.decided {e : TcpEvent} (h : Serves env s e) (hq : ServesQueue env s e) :
    Decided env s e :=
  ⟨iff_of_true h.2 hq, fun _ => h.1⟩

theorem LoadInv.decided_synSent (h : LoadInv s) (hst : s.state = .synSent) {seg : Segment}
    (hend : ¬ Ends env s (.arrive seg)) : Decided env s (.arrive seg) := by
  have hc := h.flight.reached.connecting hst
  have hin : tcpIn env s seg = tcpSynsent env s seg.th := by
    unfold tcpIn tcpInputState
    rw [hst]
    rfl
  have hne : (tcpIn env s seg).state ≠ .closing := fun hcl => hend ⟨.inl hst, hcl⟩
  have hcond : ServesQueue env s (.arrive seg) := by
    unfold ServesQueue
    rw [hst]
    exact ⟨nofun, nofun⟩
  have hserved := h.served (.inr hst)
  refine Serves.decided ?_ hcond
  by_cases hsame : tcpIn env s seg = s
  · have heq : tcpStep env s (.arrive seg) = s := hsame
    refine h.serves_of_same ?_ (by rw [heq])
    rw [heq]
    exact .refl s
  · have hsyn : tcpIn env s seg = tcpSynsentSyn env s seg.th ∧
        (seg.th.ack → s.tcb.iss < seg.th.ackSeq) := by
      rw [hin] at hsame hne ⊢
      unfold tcpSynsent at hsame hne ⊢
      split at hsame
      · exact absurd rfl hsame
      · next hacc =>
        rw [if_neg hacc] at hne ⊢
        refine ⟨?_, fun hack => UInt32.not_le.mp fun hle => hacc ⟨hack, .inl hle⟩⟩
        split_ifs at hsame hne ⊢ with h₁ h₂ h₃
        · exact absurd rfl hsame
        · unfold tcpReset at hne
          rw [hst] at hne
          exact absurd rfl hne
        · rfl
        · exact absurd rfl hsame
    have heq : tcpStep env s (.arrive seg) = tcpSynsentSyn env s seg.th := hsyn.1
    obtain ⟨hafter, hrec⟩ := @Connecting.synsentSyn_serves env s hc hserved seg.th hsyn.2
    rw [← heq] at hafter hrec
    exact h.serves (fun _ => hafter) hrec

theorem LoadInv.decided_synReceived (h : LoadInv s) (hst : s.state = .synReceived)
    (hr : Received s) (seg : Segment) : Decided env s (.arrive seg) := by
  have hinf := h.received hst
  have htakes : s.takesAck env seg = s.reachesAck (tcpInitSegment seg) := by
    unfold TcpSock.takesAck
    rw [hr.fec]
  have heq := @Received.tcpStep_arrive env s hr seg
  have hcond : ServesQueue env s (.arrive seg) ↔ (s.reachesAck (tcpInitSegment seg) →
      s.tcb.sndUna ≤ seg.th.ackSeq ∧ seg.th.ackSeq < s.tcb.sndNxt → s.retransmit.isSome) := by
    unfold ServesQueue
    dsimp only
    rw [htakes, hst]
    exact ⟨fun hc => hc.2 rfl, fun hc => ⟨nofun, fun _ => hc⟩⟩
  by_cases hreach : s.reachesAck (tcpInitSegment seg)
  · by_cases hacc : s.tcb.sndUna ≤ seg.th.ackSeq ∧ seg.th.ackSeq < s.tcb.sndNxt
    · obtain ⟨hsends, hserved⟩ := @Received.taken_serves env s hr hinf _ hreach hacc
      rw [← heq] at hsends hserved
      have hf := @FlightInv.step env s h.flight (.arrive seg)
      have hiff : ServesQueue env s (.arrive seg) ↔ s.retransmit.isSome :=
        hcond.trans ⟨fun hc => hc hreach hacc, fun harmed _ _ => harmed⟩
      refine ⟨?_, fun hc => ⟨hf, fun _ => hserved.mpr (hiff.mp hc), fun hrec => ?_⟩⟩
      · rw [hf.noOrphans_iff_served, forall_prop_of_true hsends, hserved, hiff]
      · rw [hrec] at hsends
        cases hsends
    · refine Serves.decided ?_ (hcond.mpr fun _ hc => absurd hc hacc)
      have hdrop : tcpStep env s (.arrive seg) = s := by
        rw [heq, tcpSegmentArrives_taken hreach]
        unfold tcpTakeAck tcpAckField
        rw [hst]
        dsimp only
        have hacc' : ¬ (s.tcb.sndUna ≤ (tcpInitSegment seg).th.ackSeq ∧
          (tcpInitSegment seg).th.ackSeq < s.tcb.sndNxt) := hacc
        rw [if_neg hacc']
        rfl
      refine h.serves_of_same ?_ (by rw [hdrop])
      rw [hdrop]
      exact .refl s
  · refine Serves.decided ?_ (hcond.mpr fun hc => absurd hc hreach)
    rcases @tcpSegmentArrives_not_taken env s _ hreach with htw | ⟨hst', hload⟩
    · rw [← heq] at htw
      refine h.serves ?_ ?_
      · rw [htw]
        rintro (hc | hc) <;> cases hc
      · rw [htw]
        nofun
    · rw [← heq] at hst' hload
      exact h.serves_of_same hload hst'

theorem LoadInv.decided_sends (h : LoadInv s) (hst : s.state.sends) (seg : Segment) :
    Decided env s (.arrive seg) := by
  have hserves := @tcpIn_serves env s hst (h.served (.inl hst)) seg
  have hf := @FlightInv.step env s h.flight (.arrive seg)
  have hconn := @connected_step env s (.arrive seg) (connected_of_sends hst)
  have hno := hf.noOrphans_iff_served.trans hserves
  have hcond : ServesQueue env s (.arrive seg) ↔
      (s.takesAck env seg → Strands s seg.th → (s.state = .established ∨ s.state = .finWait1) ∧
        seg.th.seq = (s.afterFec env seg).tcb.rcvNxt ∧ seg.th.fin = false) := by
    refine ⟨fun hc => hc.1 hst, fun hc => ⟨fun _ => hc, fun hrec => ?_⟩⟩
    rw [hrec] at hst
    cases hst
  refine ⟨hno.trans hcond.symm, fun hc => ⟨hf, fun hafter => ?_, fun hrec => ?_⟩⟩
  · rcases hafter with hafter | hafter
    · exact hserves.mpr (hcond.mp hc) hafter
    · rw [hafter] at hconn
      cases hconn
  · rw [hrec] at hconn
    cases hconn

/-- **An arriving segment** that does not end the connection. -/
theorem LoadInv.decided_arrive (h : LoadInv s) {seg : Segment}
    (hend : ¬ Ends env s (.arrive seg)) : Decided env s (.arrive seg) := by
  have hquiet : (tcpIn env s seg).state = .close ∨ (tcpIn env s seg).state = .finWait2 ∨
      (tcpIn env s seg).state = .timeWait → Serves env s (.arrive seg) := by
    intro hor
    have hor' : (tcpStep env s (.arrive seg)).state = .close ∨
        (tcpStep env s (.arrive seg)).state = .finWait2 ∨
        (tcpStep env s (.arrive seg)).state = .timeWait := hor
    refine h.serves (fun hst => ?_) fun hst => ?_
    all_goals rcases hor' with hc | hc | hc <;> rw [hc] at hst <;> simp [TcpState.sends] at hst
  have hcond : s.state.sends = false → s.state ≠ .synReceived →
      ServesQueue env s (.arrive seg) := by
    intro hsends hrec
    exact ⟨fun hc => absurd (hsends.symm.trans hc) nofun, fun hc => absurd hc hrec⟩
  cases hst : s.state with
  | synSent => exact h.decided_synSent hst hend
  | synReceived =>
    refine h.decided_synReceived hst ?_ seg
    rcases h.flight.reached with hr | hr | hr | hr
    · exact nomatch hr.state.symm.trans hst
    · exact nomatch hr.state.symm.trans hst
    · exact hr
    · rw [hst] at hr
      cases hr
  | close =>
    refine Serves.decided (hquiet (.inl ?_)) (hcond (by rw [hst]; rfl) (by rw [hst]; nofun))
    unfold tcpIn tcpInputState
    rw [hst]
    dsimp only
    unfold tcpClosed
    split
    · exact hst
    · exact (state_eq_of_rcv (rcv_tcpSendReset env s)).trans hst
  | listen =>
    refine Serves.decided ?_ (hcond (by rw [hst]; rfl) (by rw [hst]; nofun))
    have heq : tcpStep env s (.arrive seg) = s := by
      change tcpInputState env s (tcpInitSegment seg) = s
      unfold tcpInputState
      rw [hst]
    refine h.serves_of_same ?_ (by rw [heq])
    rw [heq]
    exact .refl s
  | finWait2 | timeWait =>
    refine Serves.decided (hquiet (.inr ?_)) (hcond (by rw [hst]; rfl) (by simp [hst]))
    have hwait := @waitsFin_arrive env s seg hend (by rw [hst]; rfl)
    have hfin := (@moves_tcpIn env s seg).closed (P := fun st => st.finishing)
      (fun _ _ => finishing_move) (by rw [hst]; rfl)
    revert hwait hfin
    cases (tcpIn env s seg).state <;> simp [TcpState.waitsFin, TcpState.finishing]
  | _ => exact h.decided_sends (by rw [hst]; rfl) seg

/-- **Each event** leaves no orphans exactly when it does not strand segments. -/
theorem LoadInv.decided (h : LoadInv s) {e : TcpEvent} (hend : ¬ Ends env s e) :
    Decided env s e := by
  cases e with
  | connect iss => exact (h.serves_connect iss).decided trivial
  | arrive seg => exact h.decided_arrive hend
  | write buf =>
    refine Serves.decided ?_ trivial
    by_cases hw : s.writable
    · refine h.serves_of_send (sendMoves_tcpWrite env s buf) ?_ fun hr => ?_
      · change (tcpWrite env s buf).1.state = s.state
        rw [tcpWrite_eq, if_pos hw]
        exact state_tcpSend env s buf
      · exact absurd hw (not_writable_of_early (by rw [hr]; rfl))
    · have heq := @tcpStep_write_of_not env s hw buf
      refine h.serves_of_same ?_ (by rw [heq])
      rw [heq]
      exact .refl s
  | read len =>
    have hinf : (tcpRead s len).1.inflight = s.inflight :=
      congrArg SndView.inflight (snd_tcpRead s len)
    refine Serves.decided ?_ trivial
    exact h.serves_of_send (sendMoves_tcpRead s len) (tcpRead_spec s len).1.1 fun _ => hinf
  | wake rd =>
    have hinf : (tcpReceiveStep s rd).1.inflight = s.inflight :=
      congrArg SndView.inflight (snd_tcpReceiveStep s rd)
    refine Serves.decided ?_ trivial
    exact h.serves_of_send (sendMoves_tcpReceiveStep s rd) (tcpReceiveStep_spec s rd).1.1
      fun _ => hinf
  | close => exact (h.serves_close hend).decided trivial
  | abort => exact absurd trivial hend
  | timer handler =>
    by_cases hrun : handler ∈ s.timers
    · cases handler with
      | tcpConnectRto =>
        obtain ⟨hiff, hkeeps⟩ := @LoadInv.connectRto_iff env s h hrun hend
        exact ⟨hiff.trans ⟨fun hc _ => hc, fun hc => hc hrun⟩, fun hc => hkeeps (hc hrun)⟩
      | tcpRetransmissionTimeout => exact (h.serves_timeout hrun hend).decided trivial
      | tcpSendDelack =>
        have heq : tcpStep env s (.timer .tcpSendDelack) = tcpSendDelack env s := tcpStep_timer hrun
        refine Serves.decided (h.serves_of_same ?_ ?_) trivial
        · rw [heq]
          unfold tcpSendDelack
          refine SameLoad.trans ?_ (sameLoad_tcpSendAck _)
          exact ⟨rfl, rfl, rfl⟩
        · rw [heq]
          unfold tcpSendDelack
          exact state_tcpSendAck env _
      | tcpLinger => exact absurd hrun hend
      | tcpUserTimeout => exact absurd hrun hend
    · have heq := @tcpStep_timer_of_not env s handler hrun
      refine Serves.decided (h.serves_of_same ?_ (by rw [heq])) ?_
      · rw [heq]
        exact .refl s
      · cases handler with
        | tcpConnectRto => exact fun hc => absurd hc hrun
        | _ => trivial
  | tick ms =>
    refine Serves.decided (h.serves_of_same ?_ rfl) trivial
    exact ⟨rfl, rfl, rfl⟩

theorem loadInv_tcpAllocSock : LoadInv tcpAllocSock := by
  refine ⟨flightInv_tcpAllocSock, ?_, nofun⟩
  rintro (hc | hc) <;> cases hc

/-- **Waiting segments are not orphaned** in a run in which `tcp_done` has not run, exactly when no
event strands them. -/
theorem noOrphans_iff (env : Env) (events : List TcpEvent)
    (hopen : RunSat env (fun s e => ¬ Ends env s e) tcpAllocSock events) :
    RunSat env (fun s e => NoOrphans (tcpStep env s e)) tcpAllocSock events ↔
      RunSat env (ServesQueue env) tcpAllocSock events :=
  RunSat.iff_of_inv (fun _ _ h hend => (h.decided hend).iff)
    (fun _ _ h hend => (h.decided hend).keeps) loadInv_tcpAllocSock hopen

end Runs

/-- Two bytes are written one after the other, the first one is acknowledged, and the second one
goes out. -/
theorem noOrphans_in_order :
    RunSat quietLink (fun s e => NoOrphans (tcpStep quietLink s e)) tcpAllocSock
      (openAt100 ++ [.write [1], .write [2], .arrive (synAck 102)]) :=
  (noOrphans_iff quietLink _ (by decide +kernel)).mpr (by decide +kernel)

/-- The same, with the acknowledgement in a segment that is out of order. -/
def ackedOutOfOrder : List TcpEvent :=
  openAt100 ++ [.write [1], .write [2], .arrive ⟨{ Tcphdr.zero with
    seq := 1002, ackSeq := 102, hl := 5, ack := true }, [9]⟩]

/-- Then the second byte is left in the queue, with no timer that would send it. -/
theorem not_noOrphans_out_of_order :
    RunSat quietLink (fun s e => ¬ Ends quietLink s e) tcpAllocSock ackedOutOfOrder ∧
      ¬ RunSat quietLink (fun s e => NoOrphans (tcpStep quietLink s e)) tcpAllocSock
        ackedOutOfOrder := by
  refine ⟨by decide +kernel, fun h => ?_⟩
  obtain ⟨-, -, -, -, hlast, -⟩ := h
  exact absurd hlast.inflight (by decide +kernel)

end LvlIp.Tcp
