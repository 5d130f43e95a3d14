import LvlIp.Send.Kept
import LvlIp.Send.Resend
import LvlIp.Lifecycle.Close

/-!
# The acknowledgement of our FIN

`tcp_input_state` takes an empty write queue for the acknowledgement of our FIN. A FIN leaves the
queue when its `end_seq` is covered, which is its own sequence number, so an acknowledgement of the
data before it takes it off as well. As long as every acknowledgement that covers a FIN is the one
for that FIN, a FIN stays in the queue until then, and the states that wait for it are left only
then (`fin_acknowledged`).
-/

namespace LvlIp.Tcp

open Fec Relation

/-- An acknowledgement of `n` has been received. -/
def AckReceived (events : List TcpEvent) (n : UInt32) : Prop :=
  ∃ seg, .arrive seg ∈ events ∧ seg.th.ack ∧ seg.th.ackSeq = n

/-- The FIN in the buffer has gone out, and an acknowledgement of it has been received. -/
def FinReceived (s : TcpSock) (events : List TcpEvent) (y : SkBuff) : Prop :=
  ∃ t, FirstIn s.out t ∧ t.addr = y.addr ∧ t.seg.th.fin ∧ AckReceived events (t.seg.th.seq + 1)

/-- Every FIN that was queued is in the write queue, until it has been acknowledged. -/
def FinsKept (s : TcpSock) (events : List TcpEvent) : Prop :=
  ∀ y ∈ s.queued, y.th.fin → (∃ x ∈ s.writeQueue, x.addr = y.addr ∧ x.th.fin) ∨
    FinReceived s events y

/-- The moves that the acknowledgement of our FIN makes. -/
def TcpState.finMove : TcpState → TcpState → Bool
  | .finWait1, .finWait2 | .finWait1, .timeWait | .closing, .timeWait | .lastAck, .closing => true
  | _, _ => false

/-- The states that wait for the acknowledgement of our FIN. -/
def TcpState.waitsFin : TcpState → Bool
  | .finWait1 | .closing | .lastAck => true
  | _ => false

/-- `tcp_done` runs. From SYN_SENT and LAST_ACK nothing else leads an arriving segment to CLOSING. -/
def Ends (env : Env) (s : TcpSock) : TcpEvent → Prop
  | .arrive seg => (s.state = .synSent ∨ s.state = .lastAck) ∧ (tcpIn env s seg).state = .closing
  | .close => s.state = .listen ∨ s.state = .synSent ∨ s.state = .synReceived
  | .abort => True
  | .timer .tcpConnectRto =>
    .tcpConnectRto ∈ s.timers ∧ s.state = .synSent ∧ tcpConnRetries < s.backoff
  | .timer .tcpRetransmissionTimeout =>
    .tcpRetransmissionTimeout ∈ s.timers ∧ s.writeQueue ≠ [] ∧ 60000 < s.rto
  | .timer .tcpLinger => .tcpLinger ∈ s.timers
  | .timer .tcpUserTimeout => .tcpUserTimeout ∈ s.timers
  | _ => False

instance (env : Env) (s : TcpSock) : DecidablePred (Ends env s)
  | .arrive seg => inferInstanceAs (Decidable
      ((s.state = .synSent ∨ s.state = .lastAck) ∧ (tcpIn env s seg).state = .closing))
  | .close => inferInstanceAs (Decidable
      (s.state = .listen ∨ s.state = .synSent ∨ s.state = .synReceived))
  | .abort => .isTrue trivial
  | .timer .tcpConnectRto => inferInstanceAs (Decidable
      (.tcpConnectRto ∈ s.timers ∧ s.state = .synSent ∧ tcpConnRetries < s.backoff))
  | .timer .tcpRetransmissionTimeout => inferInstanceAs (Decidable
      (.tcpRetransmissionTimeout ∈ s.timers ∧ s.writeQueue ≠ [] ∧ 60000 < s.rto))
  | .timer .tcpLinger => inferInstanceAs (Decidable (.tcpLinger ∈ s.timers))
  | .timer .tcpUserTimeout => inferInstanceAs (Decidable (.tcpUserTimeout ∈ s.timers))
  | .timer .tcpSendDelack | .connect _ | .write _ | .read _ | .wake _ | .tick _ => .isFalse id

/-- An acknowledgement that covers a FIN of ours is the acknowledgement of that FIN. -/
def AcksFinWhole (env : Env) (s : TcpSock) : TcpEvent → Prop
  | .arrive seg => s.takesAck env seg →
      ∀ y ∈ s.writeQueue, y.th.fin → Covers s seg.th y → seg.th.ackSeq = y.seq + 1
  | _ => True

instance (env : Env) (s : TcpSock) : DecidablePred (AcksFinWhole env s)
  | .arrive seg => inferInstanceAs (Decidable (s.takesAck env seg →
      ∀ y ∈ s.writeQueue, y.th.fin → Covers s seg.th y → seg.th.ackSeq = y.seq + 1))
  | .connect _ | .write _ | .read _ | .wake _ | .close | .abort | .timer _ | .tick _ =>
    .isTrue trivial

/-! ## The states that wait for the acknowledgement -/

section States

variable {env : Env} {s : TcpSock}

theorem state_tcpPending (s : TcpSock) (skb : SkBuff) (expected : Bool) :
    (tcpPending env s skb expected).state = s.state :=
  state_eq_of_rcv (rcv_tcpPending env s skb expected)

theorem state_tcpDeliver (s : TcpSock) (skb : SkBuff) : (tcpDeliver env s skb).state =
    (tcpFin env (tcpText env s skb) skb.th (skb.seq == s.tcb.rcvNxt)).state :=
  state_tcpPending _ skb _

theorem waitsFin_tcpFin (h : s.state.waitsFin = false) (th : Tcphdr) (expected : Bool) :
    (tcpFin env s th expected).state.waitsFin = false := by
  unfold tcpFin
  split
  · have hst := state_tcpSendAck env { s with tcb.rcvNxt := s.tcb.rcvNxt + 1, finFlag := true }
    generalize tcpSendAck env { s with tcb.rcvNxt := s.tcb.rcvNxt + 1, finFlag := true } = s₁ at hst
    have hst₁ : s₁.state.waitsFin = false := hst ▸ h
    unfold tcpFinState
    split
    · rfl
    · rfl
    · next hfw =>
      rw [hfw] at hst₁
      cases hst₁
    · rfl
    · exact hst₁
  · exact h

theorem waitsFin_tcpDeliver (h : s.state.waitsFin = false) (skb : SkBuff) :
    (tcpDeliver env s skb).state.waitsFin = false := by
  rw [state_tcpDeliver]
  refine waitsFin_tcpFin ?_ skb.th _
  rwa [state_tcpText]

theorem waitsFin_tcpAckField (h : s.state.waitsFin = false) (th : Tcphdr) :
    (tcpAckField s th).1.state.waitsFin = false := by
  unfold tcpAckField
  split
  · split
    · rw [state_tcpAck, state_tcpFecResolve]
      rfl
    · exact h
  all_goals first
    | exact (congrArg TcpState.waitsFin (state_tcpAck s th.ackSeq)).trans h
    | exact h

theorem waitsFin_tcpFinAcked (h : s.state.waitsFin = false) (th : Tcphdr) :
    (tcpFinAcked env s th).1.state.waitsFin = false := by
  unfold tcpFinAcked
  split
  · split
    · rfl
    · rfl
    · next hst =>
      rw [hst] at h
      cases h
    · split
      · exact (congrArg TcpState.waitsFin (state_tcpSendAck env _)).trans h
      · exact h
    · exact h
  · exact h

theorem waitsFin_tcpSegmentArrives (h : s.state.waitsFin = false) (skb : SkBuff) :
    (tcpSegmentArrives env s skb).state.waitsFin = false := by
  have hack := waitsFin_tcpAckField h skb.th
  have hfin := @waitsFin_tcpFinAcked env _ hack skb.th
  unfold tcpSegmentArrives
  split
  · split
    · exact h
    · exact (congrArg TcpState.waitsFin (state_tcpSendAck env s)).trans h
  · split
    · rfl
    · split
      · exact h
      · split
        · exact h
        · dsimp only
          split
          · exact hack
          · split
            · exact hfin
            · exact waitsFin_tcpDeliver hfin skb

/-- **A segment that does not end the connection** does not lead to a state that waits for the
acknowledgement of a FIN. -/
theorem waitsFin_arrive {seg : Segment} (hend : ¬ Ends env s (.arrive seg))
    (h : s.state.waitsFin = false) : (tcpIn env s seg).state.waitsFin = false := by
  cases hst : s.state with
  | synSent =>
    have hin : tcpIn env s seg = tcpSynsent env s seg.th := by
      unfold tcpIn tcpInputState
      rw [hst]
      rfl
    have hne : (tcpIn env s seg).state ≠ .closing := fun hc => hend ⟨.inl hst, hc⟩
    rw [hin] at hne ⊢
    unfold tcpSynsent at hne ⊢
    split at hne
    · next hc => rw [if_pos hc]; exact h
    · next hc =>
      rw [if_neg hc]
      split at hne
      · next hc' => rw [if_pos hc']; exact h
      · next hc' =>
        rw [if_neg hc']
        split at hne
        · unfold tcpReset at hne
          rw [hst] at hne
          exact absurd rfl hne
        · next hrst =>
          rw [if_neg hrst]
          split
          · exact h
          · rw [state_tcpSynsentSyn]
            split_ifs <;> rfl
  | close =>
    unfold tcpIn tcpInputState
    rw [hst]
    dsimp only
    unfold tcpClosed
    split
    · exact h
    · exact (congrArg TcpState.waitsFin (state_eq_of_rcv (rcv_tcpSendReset env s))).trans h
  | listen =>
    unfold tcpIn tcpInputState
    rw [hst]
    exact h
  | _ =>
    unfold tcpIn tcpInputState
    rw [hst]
    dsimp only
    split
    · exact waitsFin_tcpSegmentArrives h _
    · next fec _ =>
      have hin : (tcpFecInput env s fec (tcpInitSegment seg)).1.state.waitsFin = false :=
        (congrArg TcpState.waitsFin (state_tcpFecInput s fec _)).trans h
      split
      · exact hin
      · exact waitsFin_tcpSegmentArrives hin _

/-! ## Leaving them -/

theorem writeQueue_tcpDeliver_nil (h : s.writeQueue = []) (skb : SkBuff) :
    (tcpDeliver env s skb).writeQueue = [] := by
  have hsame := @same_tcpDeliver env s skb
  rw [h] at hsame
  exact List.forall₂_nil_right_iff.mp hsame

/-- With something left in the queue the FIN of the peer moves FIN_WAIT_1 to CLOSING, and nothing
else moves. -/
theorem state_tcpDeliver_unacked (h : s.state.waitsFin) (hq : s.writeQueue ≠ []) (skb : SkBuff) :
    (tcpDeliver env s skb).state = s.state ∨
      s.state = .finWait1 ∧ (tcpDeliver env s skb).state = .closing := by
  rw [state_tcpDeliver]
  have htext : (tcpText env s skb).state = s.state := state_tcpText s skb
  have hqtext : (tcpText env s skb).writeQueue = s.writeQueue :=
    congrArg SndView.writeQueue (snd_tcpText env s skb)
  generalize tcpText env s skb = s₁ at htext hqtext
  unfold tcpFin
  split
  · have hst := state_tcpSendAck env { s₁ with tcb.rcvNxt := s₁.tcb.rcvNxt + 1, finFlag := true }
    have hqa := writeQueue_tcpSendAck env
      { s₁ with tcb.rcvNxt := s₁.tcb.rcvNxt + 1, finFlag := true }
    generalize tcpSendAck env { s₁ with tcb.rcvNxt := s₁.tcb.rcvNxt + 1, finFlag := true } = s₂
      at hst hqa
    have hst₂ : s₂.state = s.state := hst.trans htext
    have hne : s₂.writeQueue ≠ [] := by
      rw [hqa]
      exact hqtext ▸ hq
    unfold tcpFinState
    rw [hst₂]
    cases hs : s.state with
    | finWait1 =>
      dsimp only
      rw [if_neg hne]
      exact .inr ⟨rfl, rfl⟩
    | closing | lastAck => exact .inl (hst₂.trans hs)
    | _ =>
      rw [hs] at h
      cases h
  · exact .inl htext

/-- **Unless the queue is emptied** the states are left only by a reset. -/
theorem tcpSegmentArrives_unacked (h : s.state.waitsFin) {skb : SkBuff} (hrst : skb.th.rst = false)
    (hq : (tcpSegmentArrives env s skb).writeQueue ≠ []) :
    (tcpSegmentArrives env s skb).state = s.state ∨
      s.state = .finWait1 ∧ (tcpSegmentArrives env s skb).state = .closing := by
  have hack : (tcpAckField s skb.th).1.state = s.state := by
    unfold tcpAckField
    cases hs : s.state with
    | finWait1 | closing | lastAck => exact (state_tcpAck s _).trans hs
    | _ =>
      rw [hs] at h
      cases h
  unfold tcpSegmentArrives at hq ⊢
  split at hq
  · next hver =>
    rw [if_pos hver]
    split
    · exact .inl rfl
    · exact .inl (state_tcpSendAck env s)
  · next hver =>
    rw [if_neg hver]
    rw [if_neg (by rw [hrst]; nofun)] at hq ⊢
    split at hq
    · next hsyn => rw [if_pos hsyn]; exact .inl rfl
    · next hsyn =>
      rw [if_neg hsyn]
      split at hq
      · next hno => rw [if_pos hno]; exact .inl rfl
      · next hno =>
        rw [if_neg hno]
        dsimp only at hq ⊢
        generalize tcpAckField s skb.th = a at hack hq
        split at hq
        · next hgo => rw [if_pos hgo]; exact .inl hack
        · next hgo =>
          rw [if_neg hgo]
          by_cases hnil : a.1.writeQueue = []
          · -- the queue has been emptied, and stays so
            have hfin : (tcpFinAcked env a.1 skb.th).1.writeQueue = [] :=
              (writeQueue_tcpFinAcked env skb.th).trans hnil
            split at hq
            · exact absurd hfin hq
            · exact absurd (writeQueue_tcpDeliver_nil hfin skb) hq
          · have hfin : tcpFinAcked env a.1 skb.th = (a.1, true) := by
              unfold tcpFinAcked
              rw [if_neg hnil]
            rw [hfin]
            rw [← hack]
            exact state_tcpDeliver_unacked (hack ▸ h) hnil skb

theorem connected_of_waitsFin {st : TcpState} (h : st.waitsFin) : st.connected := by
  revert h
  cases st <;> simp [TcpState.waitsFin, TcpState.connected]

/-- The FEC section of `tcp_input_state` comes before its checks. -/
theorem tcpIn_of_connected (h : s.state.connected) (seg : Segment) : tcpIn env s seg =
    match s.fec with
    | none => tcpSegmentArrives env s (tcpInitSegment seg)
    | some fec =>
      let r := tcpFecInput env s fec (tcpInitSegment seg)
      if r.2 then r.1 else tcpSegmentArrives env r.1 (tcpInitSegment seg) := by
  unfold tcpIn tcpInputState
  cases hs : s.state with
  | close | listen | synSent | synReceived =>
    refine absurd h ?_
    rw [hs]
    nofun
  | _ => rfl

theorem waitsFin_of_finMove {st st' : TcpState} (h : TcpState.finMove st st') : st.waitsFin := by
  revert h
  cases st <;> cases st' <;> simp [TcpState.finMove, TcpState.waitsFin]

theorem finMove_emptied {seg : Segment} (hrst : seg.th.rst = false)
    (hmove : TcpState.finMove s.state (tcpIn env s seg).state) :
    (tcpIn env s seg).writeQueue = [] := by
  have hwait := waitsFin_of_finMove hmove
  by_contra hq
  have hstay : (tcpIn env s seg).state = s.state ∨
      s.state = .finWait1 ∧ (tcpIn env s seg).state = .closing := by
    have hin := @tcpIn_of_connected env s (connected_of_waitsFin hwait) seg
    rw [hin] at hq ⊢
    cases hfec : s.fec with
    | none =>
      rw [hfec] at hq
      exact tcpSegmentArrives_unacked hwait hrst hq
    | some fec =>
      rw [hfec] at hq
      dsimp only at hq ⊢
      have hst := @state_tcpFecInput env s fec (tcpInitSegment seg)
      split at hq
      · next hr => rw [if_pos hr]; exact .inl hst
      · next hr =>
        rw [if_neg hr]
        rw [← hst] at hwait ⊢
        exact tcpSegmentArrives_unacked hwait hrst hq
  revert hmove
  rcases hstay with heq | ⟨hfw, hc⟩
  · rw [heq]
    cases s.state <;> simp [TcpState.finMove]
  · rw [hfw, hc]
    simp [TcpState.finMove]

end States

/-! ## Runs -/

/-- The invariant of a socket after the given events. -/
structure FinInv (events : List TcpEvent) (s : TcpSock) : Prop where
  flight : FlightInv s
  kept : FinsKept s events
  back : ∀ x ∈ s.writeQueue, x.th.fin → ∃ y ∈ s.queued, y.th.fin
  early : s.state.early → ∀ y ∈ s.queued, y.th.fin = false
  waits : s.state.waitsFin → ∃ y ∈ s.queued, y.th.fin

section Runs

variable {env : Env} {s : TcpSock} {events : List TcpEvent}

theorem TxMove.out {v v' : TxView} (h : TxMove v v') : ∃ ts, v'.out = v.out ++ ts := by
  cases h with
  | send h => exact h.keeps.out
  | clean | disarm => exact ⟨[], (List.append_nil _).symm⟩
  | pending | resend => exact ⟨_, rfl⟩

theorem TxMoves.out {s' : TcpSock} (h : TxMoves s s') : ∃ ts, s'.out = s.out ++ ts := by
  have hsteps := h.steps
  change ∃ ts, s'.txv.out = s.txv.out ++ ts
  generalize s'.txv = v at hsteps ⊢
  induction hsteps with
  | refl => exact ⟨[], (List.append_nil _).symm⟩
  | tail _ hmove ih =>
    obtain ⟨ts, hts⟩ := ih
    obtain ⟨ts', hts'⟩ := hmove.out
    exact ⟨ts ++ ts', by rw [hts', hts, List.append_assoc]⟩

theorem FinReceived.mono {s' : TcpSock} {y : SkBuff} (h : FinReceived s events y)
    (hout : ∃ ts, s'.out = s.out ++ ts) (more : List TcpEvent) :
    FinReceived s' (events ++ more) y := by
  obtain ⟨t, ht, haddr, hfin, seg, hseg, hack⟩ := h
  obtain ⟨ts, hts⟩ := hout
  exact ⟨t, hts ▸ ht.append ts, haddr, hfin, seg, List.mem_append_left _ hseg, hack⟩

theorem FinsKept.of_keeps {s' : TcpSock} (h : FinsKept s events) (hk : QueueKept s.txv s'.txv)
    (more : List TcpEvent) : FinsKept s' (events ++ more) := by
  intro y hy hfin
  obtain ⟨ys, hys, hnew⟩ := hk.queued
  change s'.queued = s.queued ++ ys at hys
  rw [hys] at hy
  rcases List.mem_append.mp hy with hy | hy
  · rcases h y hy hfin with ⟨x, hx, haddr, hxfin⟩ | hrec
    · obtain ⟨x', hx', haddr', hfin'⟩ := hk.queue x hx
      exact .inl ⟨x', hx', haddr'.trans haddr, hfin'.trans hxfin⟩
    · exact .inr (hrec.mono hk.out more)
  · obtain ⟨x, hx, haddr, hxfin⟩ := hnew y hy
    exact .inl ⟨x, hx, haddr, hxfin.trans hfin⟩

theorem takesAck_ack {seg : Segment} (h : s.takesAck env seg) : seg.th.ack := by
  have hreach : ∀ s₁ : TcpSock, s₁.reachesAck (tcpInitSegment seg) → seg.th.ack := by
    intro s₁ h₁
    unfold TcpSock.reachesAck at h₁
    simp only [Bool.and_eq_true] at h₁
    exact h₁.2
  unfold TcpSock.takesAck at h
  dsimp only at h
  split at h
  · exact hreach s h
  · rw [Bool.and_eq_true] at h
    exact hreach _ h.2

/-- **A FIN that leaves the queue** has been acknowledged. -/
theorem FinsKept.arrive (h : FinsKept s events) (hf : FlightInv s) (hconn : s.state.connected)
    {seg : Segment} (hwhole : AcksFinWhole env s (.arrive seg)) :
    FinsKept (tcpStep env s (.arrive seg)) (events ++ [.arrive seg]) := by
  have hout := (@FlightInv.moves env s hf (.arrive seg)).out
  have hclean := cleaned_tcpIn env hconn seg
  intro y hy hfin
  rw [hf.reached.queued_arrive] at hy
  rcases h y hy hfin with ⟨x, hx, haddr, hxfin⟩ | hrec
  · by_cases hcov : s.takesAck env seg ∧ Covers s seg.th x
    · refine .inr ?_
      have hack : seg.th.ackSeq = x.seq + 1 := hwhole hcov.1 x hx hxfin hcov.2
      have hsent : SentAs s.out x := by
        refine (hf.flight.sent x hx).resolve_right fun hwait => ?_
        have hpos := hcov.2.2.1
        rw [hwait.1] at hpos
        exact UInt32.lt_irrefl _ hpos
      obtain ⟨t, ht, htaddr, htseq, -, htfin⟩ := hsent
      obtain ⟨ts, hts⟩ := hout
      refine ⟨t, hts ▸ ht.append ts, htaddr.trans haddr, htfin.trans hxfin, seg, ?_,
        takesAck_ack hcov.1, ?_⟩
      · exact List.mem_append_right _ List.mem_cons_self
      · rw [hack, htseq]
    · obtain ⟨x', hx', hsame⟩ := hclean.exists_same hx hcov
      exact .inl ⟨x', hx', hsame.addr.trans haddr, hsame.header.fin.trans hxfin⟩
  · exact .inr (hrec.mono hout _)

theorem not_connected_iff_early (st : TcpState) : st.connected = false ↔ st.early := by
  cases st <;> decide

/-- **The FINs are kept by every event.** -/
theorem FinInv.kept_step (h : FinInv events s) {e : TcpEvent} (hwhole : AcksFinWhole env s e) :
    FinsKept (tcpStep env s e) (events ++ [e]) := by
  by_cases he : ∃ seg, e = .arrive seg
  · obtain ⟨seg, rfl⟩ := he
    cases hconn : s.state.connected with
    | true => exact h.kept.arrive h.flight hconn hwhole
    | false =>
      -- there is no FIN before the handshake is over
      intro y hy hfin
      rw [h.flight.reached.queued_arrive] at hy
      rw [h.early ((not_connected_iff_early _).mp hconn) y hy] at hfin
      cases hfin
  · exact h.kept.of_keeps (keeps_tcpStep h.flight.reached fun seg hseg => he ⟨seg, hseg⟩) [e]

/-- A FIN in the queue has been queued. -/
theorem TxMove.back {v v' : TxView} (hm : TxMove v v')
    (h : ∀ x ∈ v.snd.writeQueue, x.th.fin → ∃ y ∈ v.snd.queued, y.th.fin) :
    ∀ x ∈ v'.snd.writeQueue, x.th.fin → ∃ y ∈ v'.snd.queued, y.th.fin := by
  intro x hx hfin
  cases hm with
  | send hs =>
    rcases hs.keeps.back x hx with ⟨x₀, hx₀, hfin₀⟩ | ⟨y, hy, hyfin⟩
    · obtain ⟨y, hy, hyfin⟩ := h x₀ hx₀ (hfin₀.trans hfin)
      obtain ⟨ys, hys, -⟩ := hs.keeps.queued
      exact ⟨y, hys ▸ List.mem_append_left _ hy, hyfin⟩
    · exact ⟨y, hy, hyfin.trans hfin⟩
  | clean una _ => exact h x (mem_tcpCleanLoop hx) hfin
  | pending _ _ hsends =>
    obtain ⟨i, hi⟩ := List.mem_iff_getElem?.mp hx
    obtain ⟨x₀, hx₀, hsame⟩ := forall₂_getElem? hsends.same hi
    exact h x₀ (List.mem_of_getElem? hx₀) (hsame.header.fin ▸ hfin)
  | @resend skb q seq th armed hq _ hth _ =>
    rcases List.mem_cons.mp hx with rfl | hx
    · exact h skb (hq ▸ List.mem_cons_self) (hth.fin ▸ hfin)
    · exact h x (hq ▸ List.mem_cons_of_mem _ hx) hfin
  | disarm => exact h x hx hfin

theorem FinInv.back_step (h : FinInv events s) (e : TcpEvent) :
    ∀ x ∈ (tcpStep env s e).writeQueue, x.th.fin → ∃ y ∈ (tcpStep env s e).queued, y.th.fin := by
  have hsteps := (@FlightInv.moves env s h.flight e).steps
  change ∀ x ∈ (tcpStep env s e).txv.snd.writeQueue, x.th.fin →
    ∃ y ∈ (tcpStep env s e).txv.snd.queued, y.th.fin
  generalize (tcpStep env s e).txv = v at hsteps ⊢
  induction hsteps with
  | refl => exact h.back
  | tail _ hmove ih => exact hmove.back ih

/-- The buffer that `inet_stream_connect` queues is no FIN. -/
theorem Closed.queued_connect (h : Closed s) (iss : UInt32) (hno : ∀ y ∈ s.queued, y.th.fin = false) :
    ∀ y ∈ (tcpStep env s (.connect iss)).queued, y.th.fin = false := by
  have heq : tcpStep env s (.connect iss) = { tcpSendSyn env (s.starting iss) with
      tcb.sndNxt := (tcpSendSyn env (s.starting iss)).tcb.sndNxt + 1, err := eInprogress } :=
    if_neg (not_not.2 h.state)
  rw [heq, tcpSendSyn_starting h]
  intro y hy
  rcases List.mem_append.mp hy with hy | hy
  · exact hno y hy
  · rw [List.mem_singleton.mp hy]
    rfl

theorem queued_tcpConnectRto (s : TcpSock) : (tcpConnectRto env s).queued = s.queued := by
  unfold tcpConnectRto
  dsimp only
  split
  · split
    · rfl
    · split
      · rfl
      · refine (congrArg SndView.queued (snd_tcpRearmRtoTimer _)).trans ?_
        exact congrArg SndView.queued (snd_tcpTransmitSkb env (tcpReleaseRtoTimer s) _ _)
  · rfl

theorem FinInv.early_step (h : FinInv events s) (e : TcpEvent)
    (hst : (tcpStep env s e).state.early) : ∀ y ∈ (tcpStep env s e).queued, y.th.fin = false := by
  have hconn : s.state.connected = false := by
    cases hc : s.state.connected with
    | false => rfl
    | true =>
      have hstep := @connected_step env s e hc
      rw [(not_connected_iff_early _).mpr hst] at hstep
      cases hstep
  have hearly := (not_connected_iff_early _).mp hconn
  have hno := h.early hearly
  have hsame : (tcpStep env s e).queued = s.queued →
      ∀ y ∈ (tcpStep env s e).queued, y.th.fin = false := fun heq => heq ▸ hno
  cases e with
  | connect iss =>
    by_cases hcl : s.state = .close
    · refine Closed.queued_connect ?_ iss hno
      rcases h.flight.reached with hr | hr | hr | hr
      · exact hr
      · exact nomatch hr.state.symm.trans hcl
      · exact nomatch hr.state.symm.trans hcl
      · rw [hr] at hconn
        cases hconn
    · exact hsame (by rw [show tcpStep env s (.connect iss) = { s with err := eIsconn } from if_pos hcl])
  | arrive seg => exact hsame (h.flight.reached.queued_arrive seg)
  | write buf => exact hsame (by rw [tcpStep_write_of_not (not_writable_of_early hearly)])
  | read len => exact hsame (congrArg SndView.queued (snd_tcpRead s len))
  | wake rd => exact hsame (congrArg SndView.queued (snd_tcpReceiveStep s rd))
  | close =>
    refine hsame ?_
    change (tcpClose env s).queued = s.queued
    unfold tcpClose
    cases hs : s.state with
    | established | closeWait => rw [hs] at hearly; cases hearly
    | _ => rfl
  | abort => cases hst
  | timer handler =>
    by_cases hrun : handler ∈ s.timers
    · rw [tcpStep_timer hrun] at hst ⊢
      rw [tcpStep_timer hrun] at hsame
      cases handler with
      | tcpConnectRto =>
        exact hsame (queued_tcpConnectRto s)
      | tcpRetransmissionTimeout =>
        rw [h.flight.reached.connected_of_rtoArmed hrun] at hconn
        cases hconn
      | tcpSendDelack => exact hsame (queued_tcpSendAck _)
      | tcpLinger => cases hst
      | tcpUserTimeout => cases hst
    · exact hsame (by rw [tcpStep_timer_of_not hrun])
  | tick ms => exact hno

/-- `tcp_close` in ESTABLISHED queues a FIN. -/
theorem exists_fin_tcpClose (hst : s.state = .established) :
    ∃ y ∈ (tcpClose env s).queued, y.th.fin := by
  unfold tcpClose
  rw [hst]
  dsimp only
  unfold tcpQueueFin
  dsimp only
  generalize tcpFecFlush env { s with state := .finWait1 } = s₁
  obtain ⟨y, hsame, hqueued, -⟩ := exists_queued env
    (tcpAllocSkb s₁ none { Tcphdr.zero with fin := true, ack := true } []).1
    (tcpAllocSkb s₁ none { Tcphdr.zero with fin := true, ack := true } []).2
  refine ⟨y, ?_, hsame.header.fin⟩
  change y ∈ (tcpQueueTransmitSkb env _ _).1.snd.queued
  rw [hqueued]
  exact List.mem_append_right _ List.mem_cons_self

theorem state_tcpConnectRto (h : ¬ (s.state = .synSent ∧ tcpConnRetries < s.backoff)) :
    (tcpConnectRto env s).state = s.state := by
  unfold tcpConnectRto
  dsimp only
  split
  · next hst =>
    have hretry : ¬ tcpConnRetries < (tcpReleaseRtoTimer s).backoff := fun hlt => h ⟨hst, hlt⟩
    rw [if_neg hretry]
    split
    · rfl
    · refine (state_eq_of_rcv (rcv_tcpRearmRtoTimer _)).trans ?_
      exact state_eq_of_rcv (rcv_tcpTransmitSkb env (tcpReleaseRtoTimer s) _ _)
  · rfl

theorem rto_tcpTransmitSkb (s : TcpSock) (skb : SkBuff) (seq : UInt32) :
    (tcpTransmitSkb env s skb seq).1.rto = s.rto := by
  unfold tcpTransmitSkb tcpFillOptions tcpWriteOptions
  split_ifs <;> rfl

/-- The expiry of the retransmission timer moves the connection only when a FIN goes out again. -/
theorem waitsFin_timeout (hrun : .tcpRetransmissionTimeout ∈ s.timers)
    (hend : ¬ Ends env s (.timer .tcpRetransmissionTimeout)) (h : s.state.waitsFin = false)
    (hwait : (tcpRetransmissionTimeout env s).state.waitsFin) : ∃ x ∈ s.writeQueue, x.th.fin := by
  cases hq : s.writeQueue with
  | nil =>
    have hst : (tcpRetransmissionTimeout env s).state = s.state := by
      unfold tcpRetransmissionTimeout
      dsimp only
      rw [show (tcpReleaseRtoTimer s).writeQueue = [] from hq]
      rfl
    rw [hst, h] at hwait
    cases hwait
  | cons skb q =>
    refine ⟨skb, List.mem_cons_self, ?_⟩
    by_contra hfin
    have hrto : ¬ 60000 < s.rto := fun hlt => hend ⟨hrun, by rw [hq]; nofun, hlt⟩
    have hrcv := rcv_tcpTransmitSkb env (tcpReleaseRtoTimer s) skb (tcpReleaseRtoTimer s).tcb.sndUna
    have hst : (tcpTransmitSkb env (tcpReleaseRtoTimer s) skb
        (tcpReleaseRtoTimer s).tcb.sndUna).1.state = s.state := state_eq_of_rcv hrcv
    have hrto' : (tcpTransmitSkb env (tcpReleaseRtoTimer s) skb
        (tcpReleaseRtoTimer s).tcb.sndUna).1.rto = s.rto := rto_tcpTransmitSkb _ skb _
    unfold tcpRetransmissionTimeout tcpArmRtoTimer at hwait
    dsimp only at hwait
    rw [show (tcpReleaseRtoTimer s).writeQueue = skb :: q from hq] at hwait
    dsimp only at hwait
    rw [hrto', if_neg hrto, if_neg hfin, hst, h] at hwait
    cases hwait

theorem FinInv.waits_step (h : FinInv events s) {e : TcpEvent} (hend : ¬ Ends env s e)
    (hwait : (tcpStep env s e).state.waitsFin) : ∃ y ∈ (tcpStep env s e).queued, y.th.fin := by
  have hmono : (∃ y ∈ s.queued, y.th.fin) → ∃ y ∈ (tcpStep env s e).queued, y.th.fin := by
    rintro ⟨y, hy, hfin⟩
    refine ⟨y, ?_, hfin⟩
    by_cases he : ∃ seg, e = .arrive seg
    · obtain ⟨seg, rfl⟩ := he
      rwa [h.flight.reached.queued_arrive]
    · have hk := @keeps_tcpStep env s h.flight.reached e fun seg hseg => he ⟨seg, hseg⟩
      obtain ⟨ys, hys, -⟩ := hk.queued
      change (tcpStep env s e).queued = s.queued ++ ys at hys
      exact hys ▸ List.mem_append_left _ hy
  cases hst : s.state.waitsFin with
  | true => exact hmono (h.waits hst)
  | false =>
    have hsame : (tcpStep env s e).state ≠ s.state := by
      intro heq
      rw [heq, hst] at hwait
      cases hwait
    cases e with
    | connect iss =>
      by_cases hcl : s.state = .close
      · rcases h.flight.reached with hr | hr | hr | hr
        · rw [show (tcpStep env s (.connect iss)).state = .synSent from (hr.connect iss).1.state] at hwait
          cases hwait
        · exact nomatch hr.state.symm.trans hcl
        · exact nomatch hr.state.symm.trans hcl
        · rw [hcl] at hr
          cases hr
      · exact absurd (by rw [show tcpStep env s (.connect iss) = { s with err := eIsconn } from
          if_pos hcl]) hsame
    | arrive seg =>
      rw [show (tcpStep env s (.arrive seg)).state.waitsFin = false from waitsFin_arrive hend hst]
        at hwait
      cases hwait
    | write buf =>
      refine absurd ?_ hsame
      change (tcpWrite env s buf).1.state = s.state
      unfold tcpWrite
      split
      · rfl
      · split
        · exact state_tcpSend env s buf
        · exact state_tcpSend env s buf
        · rfl
    | read len => exact absurd (tcpRead_spec s len).1.1 hsame
    | wake rd => exact absurd (tcpReceiveStep_spec s rd).1.1 hsame
    | close =>
      cases hs : s.state with
      | established => exact exists_fin_tcpClose hs
      | closeWait => exact absurd ((state_tcpClose_closeWait hs).trans hs.symm) hsame
      | listen => exact absurd (.inl hs) hend
      | synSent => exact absurd (.inr (.inl hs)) hend
      | synReceived => exact absurd (.inr (.inr hs)) hend
      | _ =>
        refine absurd ?_ hsame
        change (tcpClose env s).state = s.state
        unfold tcpClose
        rw [hs]
    | abort => exact absurd trivial hend
    | timer handler =>
      by_cases hrun : handler ∈ s.timers
      · rw [tcpStep_timer hrun] at hwait hsame
        cases handler with
        | tcpConnectRto =>
          refine absurd (state_tcpConnectRto fun hretry => ?_) hsame
          exact hend ⟨hrun, hretry⟩
        | tcpRetransmissionTimeout =>
          obtain ⟨x, hx, hfin⟩ := waitsFin_timeout hrun hend hst hwait
          exact hmono (h.back x hx hfin)
        | tcpSendDelack => exact absurd (state_tcpSendAck env _) hsame
        | tcpLinger => exact absurd hrun hend
        | tcpUserTimeout => exact absurd hrun hend
      · exact absurd (by rw [tcpStep_timer_of_not hrun]) hsame
    | tick ms => exact absurd rfl hsame

theorem FinInv.step (h : FinInv events s) {e : TcpEvent} (hend : ¬ Ends env s e)
    (hwhole : AcksFinWhole env s e) : FinInv (events ++ [e]) (tcpStep env s e) :=
  ⟨h.flight.step e, h.kept_step hwhole, h.back_step e, h.early_step e, h.waits_step hend⟩

theorem finInv_tcpAllocSock : FinInv [] tcpAllocSock :=
  ⟨flightInv_tcpAllocSock, nofun, nofun, nofun, nofun⟩

theorem finInv_run {es : List TcpEvent} (h : FinInv events s)
    (hopen : RunSat env (fun s e => ¬ Ends env s e) s es)
    (hwhole : RunSat env (AcksFinWhole env) s es) :
    FinInv (events ++ es) (es.foldl (tcpStep env) s) := by
  induction es generalizing s events with
  | nil =>
    rw [List.append_nil]
    exact h
  | cons e es ih =>
    have hnext := ih (h.step hopen.1 hwhole.1) hopen.2 hwhole.2
    rwa [List.append_assoc] at hnext

/-- **The acknowledgement of our FIN.** In a run in which every acknowledgement that covers a FIN of
ours is the one for that FIN, a FIN stays in the write queue until an acknowledgement of its sequence
number plus one has been received, and a socket that has not been ended by `tcp_done` leaves
FIN_WAIT_1, CLOSING and LAST_ACK for the states after it only then, other than by a reset. -/
theorem fin_acknowledged (env : Env) (events : List TcpEvent) (e : TcpEvent)
    (hopen : RunSat env (fun s e => ¬ Ends env s e) tcpAllocSock events)
    (hwhole : RunSat env (AcksFinWhole env) tcpAllocSock (events ++ [e])) :
    let s := events.foldl (tcpStep env) tcpAllocSock
    let s' := tcpStep env s e
    FinsKept s' (events ++ [e]) ∧
      ∀ seg, e = .arrive seg → seg.th.rst = false → TcpState.finMove s.state s'.state →
        (∃ y ∈ s.queued, y.th.fin) ∧
          ∀ y ∈ s.queued, y.th.fin → FinReceived s' (events ++ [e]) y := by
  have hsplit := runSat_iff.mp hwhole
  have hfirst : RunSat env (AcksFinWhole env) tcpAllocSock events := by
    refine runSat_iff.mpr fun pre e' post heq => hsplit pre e' (post ++ [e]) ?_
    rw [heq, List.append_assoc]
    rfl
  have h : FinInv ([] ++ events) (events.foldl (tcpStep env) tcpAllocSock) :=
    finInv_run finInv_tcpAllocSock hopen hfirst
  rw [List.nil_append] at h
  have hkept := h.kept_step (hsplit events e [] rfl)
  refine ⟨hkept, ?_⟩
  rintro seg rfl hrst hmove
  have hqueue := finMove_emptied hrst hmove
  refine ⟨h.waits ?_, fun y hy hfin => ?_⟩
  · exact waitsFin_of_finMove hmove
  · have hy' : y ∈ (tcpStep env (events.foldl (tcpStep env) tcpAllocSock) (.arrive seg)).queued := by
      rwa [h.flight.reached.queued_arrive]
    rcases hkept y hy' hfin with ⟨x, hx, -⟩ | hrec
    · rw [show (tcpStep env _ (.arrive seg)).writeQueue = [] from hqueue] at hx
      cases hx
    · exact hrec

end Runs

/-- The socket is closed. -/
def closedAlone : List TcpEvent := openAt100 ++ [.close]

/-- Its FIN goes out at 101, and is acknowledged. -/
theorem fin_acknowledged_closed :
    let s := closedAlone.foldl (tcpStep quietLink) tcpAllocSock
    let s' := tcpStep quietLink s (.arrive (synAck 102))
    s.state = .finWait1 ∧ s'.state = .finWait2 ∧
      ∀ y ∈ s.queued, y.th.fin → FinReceived s' (closedAlone ++ [.arrive (synAck 102)]) y :=
  ⟨by decide +kernel, by decide +kernel,
    ((fin_acknowledged quietLink closedAlone (.arrive (synAck 102)) (by decide +kernel)
      (by decide +kernel)).2 (synAck 102) rfl rfl (by decide +kernel)).2⟩

/-- Two bytes are written, the socket is closed, and the first byte is acknowledged: the second byte
and the FIN, at 103, go out together. -/
def closedWithData : List TcpEvent :=
  openAt100 ++ [.write [1], .write [2], .close, .arrive (synAck 102)]

/-- The acknowledgement of the second byte takes the FIN off the queue, and the socket moves to
FIN_WAIT_2, although the FIN has not been acknowledged. -/
theorem not_fin_acknowledged :
    let s := closedWithData.foldl (tcpStep quietLink) tcpAllocSock
    let s' := tcpStep quietLink s (.arrive (synAck 103))
    RunSat quietLink (fun s e => ¬ Ends quietLink s e) tcpAllocSock closedWithData ∧
      s.state = .finWait1 ∧ s'.state = .finWait2 ∧ s'.writeQueue = [] ∧
        ∃ y ∈ s.queued, y.th.fin ∧
          ¬ FinReceived s' (closedWithData ++ [.arrive (synAck 103)]) y := by
  refine ⟨by decide +kernel, by decide +kernel, by decide +kernel, by decide +kernel, ?_⟩
  obtain ⟨y, hy, hfin⟩ : ∃ y ∈ (closedWithData.foldl (tcpStep quietLink) tcpAllocSock).queued,
      y.th.fin := by decide +kernel
  refine ⟨y, hy, hfin, ?_⟩
  rintro ⟨t, ⟨pre, post, hout, -⟩, -, htfin, seg, hseg, -, hack⟩
  have hfins : ∀ t ∈ (tcpStep quietLink (closedWithData.foldl (tcpStep quietLink) tcpAllocSock)
      (.arrive (synAck 103))).out, t.seg.th.fin → t.seg.th.seq = 103 := by decide +kernel
  rw [hfins t (hout ▸ List.mem_append_right _ List.mem_cons_self) htfin] at hack
  simp only [closedWithData, openAt100, List.cons_append, List.nil_append, List.mem_cons,
    List.not_mem_nil, TcpEvent.arrive.injEq, reduceCtorEq, or_false, false_or] at hseg
  rcases hseg with rfl | rfl | rfl
  all_goals exact absurd hack (by decide)

end LvlIp.Tcp
