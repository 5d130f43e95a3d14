import LvlIp.Timers.RtoMoves
import LvlIp.Send.Moves
import LvlIp.Send.Order

/-!
# Giving up

`tcp_retransmission_timeout` doubles `rto` at every expiry and gives up once it is above a minute, so
it gives up after ten expiries when `rto` is at least 200 to begin with. `tcp_synsent` sets `rto` when
our SYN is answered, and every measurement keeps it at 200 or above (`backsOff_run`). A connection
that is opened by both sides at the same time never sets it: `rto` is zero there, and stays zero when
it is doubled (`not_backsOff_simultaneousOpen`).
-/

namespace LvlIp.Tcp

open Relation

/-! ## How small `rto` can be -/

/-- The retransmission timer is not added with a small `rto`. -/
structure Paced (v : RtoView) : Prop where
  data : v.state.transfers → 200 ≤ v.rto
  armed : v.armed = some .tcpRetransmissionTimeout → 200 ≤ v.rto ∧ v.state.opened
  received : v.state ≠ .synReceived

/-- No move leaves the states of a connection. -/
theorem TcpState.Move.opened {st st' : TcpState} (h : st.Move st') (hst : st.opened) :
    st'.opened := by
  cases h with
  | connect => exact hst
  | _ => rfl

namespace Paced

variable {acks opens : Prop} {v v' : RtoView}

theorem stop (h : Paced v) : Paced v.stop :=
  ⟨h.data, fun harmed => absurd harmed (Option.some_ne_none _).symm, h.received⟩

/-- A timer is added in a state in which data is sent, or for a SYN. -/
theorem rearm (h : Paced v) (hst : v.state = .synSent ∨ v.state.transfers) (expire : ℕ) :
    Paced (v.rearm expire) := by
  refine ⟨h.data, fun harmed => ?_, h.received⟩
  rcases hst with hsyn | hdata
  · have hhandler : v.state.rtoHandler = .tcpRetransmissionTimeout := Option.some.inj harmed
    rw [hsyn] at hhandler
    exact TimerHandler.noConfusion hhandler
  · refine ⟨h.data hdata, ?_⟩
    change v.state.opened
    revert hdata
    cases v.state <;> decide

/-- **One move**, unless it is part of a simultaneous open. -/
theorem move (h : Paced v) (hopens : ¬ opens) (hmove : RtoMove acks opens v v') : Paced v' := by
  cases hmove with
  | @state st hst hsyn =>
    have hkeep : v.state ≠ .synSent → st.transfers → v.state.transfers := by
      intro hne hdata
      generalize hv : v.state = w at hst hne
      cases hst with
      | complete => exact absurd hv h.received
      | peerFinEarly => exact absurd hv h.received
      | greet => exact absurd rfl hne
      | close => rfl
      | peerFin => rfl
      | finAcked => rfl
      | _ => exact Bool.noConfusion hdata
    refine ⟨fun hdata => ?_, fun harmed => ?_, fun hrec => ?_⟩
    · by_cases hst' : v.state = .synSent
      · rw [show st = .closing from hsyn hst'] at hdata
        exact Bool.noConfusion hdata
      · exact h.data (hkeep hst' hdata)
    · exact ⟨(h.armed harmed).1, hst.opened (h.armed harmed).2⟩
    · rw [show st = .synReceived from hrec] at hst hsyn
      generalize hv : v.state = w at hst
      cases hst with
      | accept => exact TcpState.noConfusion (hsyn hv)
  | accept hopen hst => exact absurd hopen hopens
  | greet hack hst =>
    have h200 : 200 ≤ 1000 := by decide
    exact ⟨fun _ => h200, fun _ => ⟨h200, rfl⟩, TcpState.noConfusion⟩
  | stop => exact h.stop
  | rtt hack hrto => exact ⟨fun _ => hrto, fun harmed => ⟨hrto, (h.armed harmed).2⟩, h.received⟩
  | clean hack hn =>
    unfold RtoView.clean
    dsimp only
    have hsame : ∀ q f : ℕ, Paced { v with queue := q, inflight := f } :=
      fun _ _ => ⟨h.data, h.armed, h.received⟩
    split
    · exact (hsame _ _).stop
    · exact hsame _ _
  | queue expire hst =>
    have hsend : v.state = .synSent ∨ v.state.transfers := by
      revert hst
      cases v.state <;> decide
    have hfirst : Paced (if v.queue = 0 then v.rearm expire else v) := by
      split
      · exact h.rearm hsend expire
      · exact h
    exact ⟨hfirst.data, hfirst.armed, hfirst.received⟩
  | @pending n expire hst h0 hpos hn =>
    have hsame : Paced { v with inflight := n } := ⟨h.data, h.armed, h.received⟩
    refine hsame.rearm (.inr ?_) expire
    change v.state.transfers
    revert hst
    cases v.state <;> decide

end Paced

section Run

variable {env : Env} {s : TcpSock}

/-- The retransmission timer runs only from its own slot. -/
theorem armed_of_timers (hside : s.NoSideRto) (h : .tcpRetransmissionTimeout ∈ s.timers) :
    s.rtv.armed = some .tcpRetransmissionTimeout := by
  rw [mem_timers] at h
  rcases h with ⟨t, ht, hh⟩ | ⟨t, ht, hh⟩ | ⟨t, ht, hh⟩
  · change s.retransmit.map Timer.handler = _
    rw [ht, Option.map_some, hh]
  · exact absurd hh (hside t (.inl ht))
  · exact absurd hh (hside t (.inr ht))

/-- **One event**, unless it opens the connection from both sides. -/
theorem Paced.step (h : Paced s.rtv) (hside : s.NoSideRto) {e : TcpEvent} (hopens : ¬ Opens s e) :
    Paced (tcpStep env s e).rtv := by
  by_cases he : ∀ handler, e = .timer handler → handler.isRto = false
  · exact (rtoMoves_tcpStep env s he).induction (fun v v' hmove hv => hv.move hopens hmove) h
  · have hrel : Paced s.rtv.release :=
      ⟨h.data, fun harmed => absurd harmed (Option.some_ne_none _).symm, h.received⟩
    have hdone : Paced s.rtv.release.done :=
      ⟨fun hd => Bool.noConfusion hd, fun harmed => absurd harmed (Option.some_ne_none _).symm,
        TcpState.noConfusion⟩
    simp only [not_forall, Bool.not_eq_false, exists_prop] at he
    obtain ⟨handler, rfl, hrto⟩ := he
    by_cases hrun : handler ∈ s.timers
    · rw [tcpStep_timer hrun]
      cases handler with
      | tcpConnectRto =>
        change Paced (tcpConnectRto env s).rtv
        rcases rtv_tcpConnectRto env s with heq | ⟨hst, heq⟩ | ⟨hst, -, expire, heq⟩
        · exact heq ▸ hrel
        · exact heq ▸ hdone
        · exact heq ▸ hrel.rearm (.inl hst) expire
      | tcpRetransmissionTimeout =>
        change Paced (tcpRetransmissionTimeout env s).rtv
        obtain ⟨h200, hopened⟩ := h.armed (armed_of_timers hside hrun)
        rcases rtv_tcpRetransmissionTimeout env s with ⟨-, heq⟩ | ⟨-, -, heq⟩ | ⟨-, -, st, hst, heq⟩
        · exact heq ▸ hrel
        · exact heq ▸ hdone
        · have hdouble : 200 ≤ s.rto * 2 := le_trans h200 (Nat.le_mul_of_pos_right _ (by decide))
          have hst' : st.opened ∧ st ≠ .synReceived := by
            rcases hst with rfl | ⟨hmove, hdata⟩
            · exact ⟨hopened, h.received⟩
            · refine ⟨hmove.opened hopened, fun hrec => ?_⟩
              rw [hrec] at hmove
              generalize s.state = w at hmove hdata
              cases hmove with
              | accept => exact Bool.noConfusion hdata
          rw [heq]
          exact ⟨fun _ => hdouble, fun _ => ⟨hdouble, hst'.1⟩, hst'.2⟩
      | _ => exact Bool.noConfusion hrto
    · rw [tcpStep_timer_of_not hrun]
      exact h

theorem Paced.run (h : Paced s.rtv) (hf : FlightInv s) {events : List TcpEvent}
    (hrun : RunSat env (fun s e => ¬ Opens s e) s events) :
    Paced (events.foldl (tcpStep env) s).rtv := by
  induction events generalizing s with
  | nil => exact h
  | cons e events ih => exact ih (h.step hf.side hrun.1) (hf.step e) hrun.2

end Run

/-! ## The end of the back-off -/

/-- A segment acknowledges new data. -/
def AcksNew (s : TcpSock) : TcpEvent → Prop
  | .arrive seg => seg.th.ack ∧ s.tcb.sndUna < seg.th.ackSeq ∧ seg.th.ackSeq ≤ s.tcb.sndNxt
  | _ => False

/-- The event is an expiry of the retransmission timer, which runs. -/
def isExpiry (s : TcpSock) : TcpEvent → Bool
  | .timer .tcpRetransmissionTimeout => decide (.tcpRetransmissionTimeout ∈ s.timers)
  | _ => false

/-- How often the retransmission timer expires in a run. -/
def expiries (env : Env) : TcpSock → List TcpEvent → ℕ
  | _, [] => 0
  | s, e :: events => (isExpiry s e).toNat + expiries env (tcpStep env s e) events

/-- The next expiry calls `tcp_done`, with the error of a connection that timed out. -/
def GivesUp (env : Env) (s : TcpSock) : Prop :=
  .tcpRetransmissionTimeout ∈ s.timers ∧ ∃ s', tcpStep env s (.timer .tcpRetransmissionTimeout) =
    { tcpDone s' with err := eTimedout }

/-- Something is queued, and `rto` was doubled `n` times. -/
structure Backed (n : ℕ) (v : RtoView) : Prop where
  rto : 200 * 2 ^ n ≤ v.rto
  queue : 0 < v.queue
  opened : v.state.opened

section GivingUp

variable {env : Env} {s : TcpSock} {n : ℕ}

theorem givesUp_of_rto (hrun : .tcpRetransmissionTimeout ∈ s.timers) (hq : s.writeQueue ≠ [])
    (hrto : 60000 < s.rto) : GivesUp env s := by
  refine ⟨hrun, ?_⟩
  rw [tcpStep_timer hrun]
  change ∃ s', tcpRetransmissionTimeout env s = _
  obtain ⟨skb, q, hcons⟩ := List.exists_cons_of_ne_nil hq
  have ht := rtv_tcpTransmitSkb env (tcpReleaseRtoTimer s) skb (tcpReleaseRtoTimer s).tcb.sndUna
  unfold tcpRetransmissionTimeout
  dsimp only
  rw [show (tcpReleaseRtoTimer s).writeQueue = skb :: q from hcons]
  dsimp only
  generalize tcpTransmitSkb env (tcpReleaseRtoTimer s) skb (tcpReleaseRtoTimer s).tcb.sndUna = t
    at ht
  have hsame : t.1.rto = s.rto := congrArg RtoView.rto ht
  rw [if_pos (hsame ▸ hrto)]
  exact ⟨_, rfl⟩

/-- **One move** that acknowledges nothing keeps `rto` and what is queued. -/
theorem Backed.move {acks opens : Prop} {v v' : RtoView} (h : Backed n v) (hacks : ¬ acks)
    (hmove : RtoMove acks opens v v') : Backed n v' := by
  cases hmove with
  | state hst hsyn => exact ⟨h.rto, h.queue, hst.opened h.opened⟩
  | accept hopen hst =>
    have hopened := h.opened
    rw [hst] at hopened
    exact Bool.noConfusion hopened
  | greet hack hst => exact absurd hack hacks
  | stop => exact ⟨h.rto, h.queue, h.opened⟩
  | rtt hack hrto => exact absurd hack hacks
  | clean hack hn => exact absurd hack hacks
  | queue expire hst =>
    have hfirst : Backed n (if v.queue = 0 then v.rearm expire else v) := by
      split
      · exact ⟨h.rto, h.queue, h.opened⟩
      · exact h
    exact ⟨hfirst.rto, Nat.succ_pos _, hfirst.opened⟩
  | pending expire hst h0 hpos hn => exact ⟨h.rto, h.queue, h.opened⟩

/-- Outside the handshake, what acknowledges is an acknowledgement of new data. -/
theorem not_acks (hopen : s.state.opened) {e : TcpEvent} (h : ¬ AcksNew s e) : ¬ Acks s e := by
  cases e with
  | arrive seg =>
    rintro (hsyn | hack)
    · rw [hsyn] at hopen
      exact Bool.noConfusion hopen
    · exact h hack
  | _ => exact id

/-- Every event but the expiry of the timer keeps `rto` and what is queued. -/
theorem Backed.step (h : Backed n s.rtv) {e : TcpEvent} (hacks : ¬ AcksNew s e)
    (he : isExpiry s e = false) : Backed n (tcpStep env s e).rtv := by
  by_cases hrto : ∀ handler, e = .timer handler → handler.isRto = false
  · exact (rtoMoves_tcpStep env s hrto).induction
      (fun v v' hmove hv => hv.move (not_acks h.opened hacks) hmove) h
  · simp only [not_forall, Bool.not_eq_false, exists_prop] at hrto
    obtain ⟨handler, rfl, hrto⟩ := hrto
    by_cases hrun : handler ∈ s.timers
    · rw [tcpStep_timer hrun]
      have hsyn : s.state ≠ .synSent := by
        intro hst
        have hopened : s.state.opened := h.opened
        rw [hst] at hopened
        exact Bool.noConfusion hopened
      cases handler with
      | tcpConnectRto =>
        change Backed n (tcpConnectRto env s).rtv
        rcases rtv_tcpConnectRto env s with heq | ⟨hst, -⟩ | ⟨hst, -⟩
        · exact heq ▸ ⟨h.rto, h.queue, h.opened⟩
        · exact absurd hst hsyn
        · exact absurd hst hsyn
      | tcpRetransmissionTimeout => exact absurd hrun (of_decide_eq_false he)
      | _ => exact Bool.noConfusion hrto
    · rw [tcpStep_timer_of_not hrun]
      exact h

theorem eq_of_isExpiry {e : TcpEvent} (h : isExpiry s e) :
    e = .timer .tcpRetransmissionTimeout ∧ .tcpRetransmissionTimeout ∈ s.timers := by
  unfold isExpiry at h
  split at h
  · exact ⟨rfl, of_decide_eq_true h⟩
  · exact Bool.noConfusion h

/-- **One expiry** gives up, or doubles `rto` and adds the timer again. -/
theorem Backed.expire (env : Env) (h : Backed n s.rtv) (hrun : .tcpRetransmissionTimeout ∈ s.timers) :
    GivesUp env s ∨ n < 9 ∧
      Backed (n + 1) (tcpStep env s (.timer .tcpRetransmissionTimeout)).rtv ∧
      .tcpRetransmissionTimeout ∈ (tcpStep env s (.timer .tcpRetransmissionTimeout)).timers := by
  have hq : s.writeQueue ≠ [] := List.ne_nil_of_length_pos h.queue
  rcases rtv_tcpRetransmissionTimeout env s with ⟨hnil, -⟩ | ⟨-, hgive, -⟩ | ⟨-, hgo, st, hst, heq⟩
  · exact absurd hnil hq
  · exact .inl (givesUp_of_rto hrun hq hgive)
  · right
    have hstep : tcpStep env s (.timer .tcpRetransmissionTimeout) =
        tcpRetransmissionTimeout env s := tcpStep_timer hrun
    rw [hstep]
    have hrto : 200 * 2 ^ n ≤ s.rto := h.rto
    refine ⟨?_, ?_, ?_⟩
    · by_contra hn
      have h9 : 2 ^ 9 ≤ 2 ^ n := Nat.pow_le_pow_right (by decide) (not_lt.mp hn)
      omega
    · have hopened : st.opened := by
        rcases hst with rfl | ⟨hmove, -⟩
        · exact h.opened
        · exact hmove.opened h.opened
      have hdouble : 200 * 2 ^ (n + 1) ≤ s.rto * 2 := by
        rw [pow_succ, ← mul_assoc]
        exact Nat.mul_le_mul_right 2 hrto
      exact heq ▸ ⟨hdouble, h.queue, hopened⟩
    · have harmed : (tcpRetransmissionTimeout env s).retransmit.map Timer.handler =
          some .tcpRetransmissionTimeout := congrArg RtoView.armed heq
      obtain ⟨t, ht, hh⟩ := Option.map_eq_some_iff.mp harmed
      exact mem_timers.mpr (.inl ⟨t, ht, hh⟩)

/-- **Ten expiries are enough**, if nothing new is acknowledged between them. -/
theorem Backed.givesUp {events : List TcpEvent} (h : Backed n s.rtv)
    (hrun : RunSat env (fun s e => ¬ AcksNew s e) s events) (hn : n < 10)
    (hcount : 10 ≤ n + expiries env s events) :
    ∃ pre post, events = pre ++ .timer .tcpRetransmissionTimeout :: post ∧
      n + expiries env s pre < 10 ∧ GivesUp env (pre.foldl (tcpStep env) s) := by
  induction events generalizing s n with
  | nil => exact absurd hcount (not_le.mpr hn)
  | cons e events ih =>
    cases he : isExpiry s e with
    | false =>
      have hskip : ∀ es, expiries env s (e :: es) = expiries env (tcpStep env s e) es := by
        intro es
        rw [expiries, he, Bool.toNat_false, zero_add]
      rw [hskip] at hcount
      obtain ⟨pre, post, rfl, hlt, hgive⟩ := ih (h.step hrun.1 he) hrun.2 hn hcount
      refine ⟨e :: pre, post, rfl, ?_, hgive⟩
      rwa [hskip]
    | true =>
      obtain ⟨rfl, harmed⟩ := eq_of_isExpiry he
      rcases h.expire env harmed with hgive | ⟨hn9, hnext, -⟩
      · exact ⟨[], events, rfl, hn, hgive⟩
      · have hcons : ∀ es, n + expiries env s (.timer .tcpRetransmissionTimeout :: es) = n + 1 +
            expiries env (tcpStep env s (.timer .tcpRetransmissionTimeout)) es := by
          intro es
          rw [expiries, he, Bool.toNat_true, add_assoc]
        rw [hcons] at hcount
        obtain ⟨pre, post, rfl, hlt, hgive⟩ := ih hnext hrun.2 (Nat.succ_lt_succ hn9) hcount
        refine ⟨_ :: pre, post, rfl, ?_, hgive⟩
        rwa [hcons]

/-- Expiries one after the other end the connection. -/
theorem Backed.consecutive (k : ℕ) (hk : n + k = 9) (h : Backed n s.rtv)
    (hrun : .tcpRetransmissionTimeout ∈ s.timers) :
    ∃ i ≤ k, GivesUp env ((List.replicate i (.timer .tcpRetransmissionTimeout)).foldl
      (tcpStep env) s) := by
  induction k generalizing s n with
  | zero =>
    rcases h.expire env hrun with hgive | ⟨hn, -⟩
    · exact ⟨0, le_rfl, hgive⟩
    · omega
  | succ k ih =>
    rcases h.expire env hrun with hgive | ⟨-, hnext, hagain⟩
    · exact ⟨0, Nat.zero_le _, hgive⟩
    · obtain ⟨i, hi, hgive⟩ := ih (by omega) hnext hagain
      exact ⟨i + 1, Nat.succ_le_succ hi, hgive⟩

end GivingUp

/-! ## Every run -/

/-- If the retransmission timer runs and something is queued, then `rto` is at least 200, and a run
in which nothing new is acknowledged calls `tcp_done` at the tenth expiry of the timer at the latest;
so do expiries one after the other. -/
def BacksOff (env : Env) (s : TcpSock) : Prop :=
  .tcpRetransmissionTimeout ∈ s.timers → s.writeQueue ≠ [] →
    200 ≤ s.rto ∧
      (∀ more, RunSat env (fun s e => ¬ AcksNew s e) s more → 10 ≤ expiries env s more →
        ∃ pre post, more = pre ++ .timer .tcpRetransmissionTimeout :: post ∧
          expiries env s pre < 10 ∧ GivesUp env (pre.foldl (tcpStep env) s)) ∧
      ∃ i < 10, GivesUp env ((List.replicate i (.timer .tcpRetransmissionTimeout)).foldl
        (tcpStep env) s)

theorem paced_tcpAllocSock : Paced tcpAllocSock.rtv :=
  ⟨fun h => Bool.noConfusion h, fun h => absurd h (Option.some_ne_none _).symm,
    TcpState.noConfusion⟩

theorem Paced.backsOff {env : Env} {s : TcpSock} (h : Paced s.rtv) (hside : s.NoSideRto) :
    BacksOff env s := by
  intro hrun hq
  obtain ⟨h200, hopened⟩ := h.armed (armed_of_timers hside hrun)
  have hback : Backed 0 s.rtv := ⟨h200, List.length_pos_iff.mpr hq, hopened⟩
  refine ⟨h200, fun more hmore hcount => ?_, ?_⟩
  · obtain ⟨pre, post, hsplit, hlt, hgive⟩ :=
      hback.givesUp hmore (by decide) (by rwa [zero_add])
    exact ⟨pre, post, hsplit, by rwa [zero_add] at hlt, hgive⟩
  · obtain ⟨i, hi, hgive⟩ := hback.consecutive 9 rfl hrun
    exact ⟨i, Nat.lt_succ_of_le hi, hgive⟩

/-- **The back-off ends** in every state of a run in which no SYN without an acknowledgement arrives
in SYN_SENT. -/
theorem backsOff_run (env : Env) (events : List TcpEvent)
    (h : RunSat env (fun s e => ¬ Opens s e) tcpAllocSock events) :
    BacksOff env (events.foldl (tcpStep env) tcpAllocSock) :=
  (paced_tcpAllocSock.run flightInv_tcpAllocSock h).backsOff (flightInv_run events).side

/-- A segment without data. -/
def bareSegment (syn : Bool) (seq : UInt32) (ackSeq : Option UInt32) : Segment where
  th := { Tcphdr.zero with
    syn, seq, ack := ackSeq.isSome, ackSeq := ackSeq.getD 0, hl := 5 }
  payload := []

/-- A connection that our SYN opened, after `close`. -/
def ordinaryOpen : List TcpEvent :=
  [.connect 1000, .arrive (bareSegment true 5000 (some 1001)), .close]

/-- A connection that both sides open at the same time, after `close`. -/
def simultaneousOpen : List TcpEvent :=
  [.connect 1000, .arrive (bareSegment true 5000 none),
    .arrive (bareSegment false 5001 (some 1000)), .arrive (bareSegment false 5001 (some 1001)), .close]

theorem backsOff_ordinaryOpen :
    let s := ordinaryOpen.foldl (tcpStep quietLink) tcpAllocSock
    BacksOff quietLink s ∧ .tcpRetransmissionTimeout ∈ s.timers ∧ s.writeQueue.length = 1 :=
  ⟨backsOff_run quietLink ordinaryOpen ⟨id, fun h => h.2.2.1 rfl, id, trivial⟩, by decide, by decide⟩

/-- The timer of a zero `rto` runs, and something is queued. -/
structure Endless (s : TcpSock) : Prop where
  runs : .tcpRetransmissionTimeout ∈ s.timers
  queue : s.writeQueue ≠ []
  rto : s.rto = 0

theorem Endless.view {s : TcpSock} (h : Endless s) (env : Env) :
    (tcpStep env s (.timer .tcpRetransmissionTimeout)).rtv.armed = some .tcpRetransmissionTimeout ∧
      (tcpStep env s (.timer .tcpRetransmissionTimeout)).rtv.queue = s.rtv.queue ∧
      (tcpStep env s (.timer .tcpRetransmissionTimeout)).rtv.rto = 0 := by
  rw [tcpStep_timer h.runs]
  change (tcpRetransmissionTimeout env s).rtv.armed = _ ∧
    (tcpRetransmissionTimeout env s).rtv.queue = _ ∧ (tcpRetransmissionTimeout env s).rtv.rto = 0
  rcases rtv_tcpRetransmissionTimeout env s with ⟨hnil, -⟩ | ⟨-, hgive, -⟩ | ⟨-, -, st, -, heq⟩
  · exact absurd hnil h.queue
  · rw [h.rto] at hgive
    exact absurd hgive (by decide)
  · rw [heq, h.rto]
    exact ⟨rfl, rfl, rfl⟩

/-- Twice zero is zero: the timer is added again, -/
theorem Endless.step {s : TcpSock} (h : Endless s) (env : Env) :
    Endless (tcpStep env s (.timer .tcpRetransmissionTimeout)) := by
  obtain ⟨harmed, hqueue, hrto⟩ := h.view env
  obtain ⟨t, ht, hh⟩ := Option.map_eq_some_iff.mp harmed
  refine ⟨mem_timers.mpr (.inl ⟨t, ht, hh⟩), List.ne_nil_of_length_pos ?_, hrto⟩
  change 0 < (tcpStep env s (.timer .tcpRetransmissionTimeout)).rtv.queue
  rw [hqueue]
  exact List.length_pos_iff.mpr h.queue

/-- and `tcp_done` is not called. -/
theorem Endless.not_givesUp {s : TcpSock} (h : Endless s) (env : Env) : ¬ GivesUp env s := by
  rintro ⟨-, s', heq⟩
  have harmed := (h.view env).1
  rw [heq] at harmed
  exact absurd harmed (Option.some_ne_none _).symm

theorem Endless.expiries {s : TcpSock} (h : Endless s) (env : Env) (n : ℕ) :
    Endless ((List.replicate n (.timer .tcpRetransmissionTimeout)).foldl (tcpStep env) s) := by
  induction n generalizing s with
  | zero => exact h
  | succ n ih => exact ih (h.step env)

/-- **A simultaneous open never sets `rto`**: it is zero when the FIN is sent, and no number of
expiries ends the connection. -/
theorem not_backsOff_simultaneousOpen :
    let s := simultaneousOpen.foldl (tcpStep quietLink) tcpAllocSock
    .tcpRetransmissionTimeout ∈ s.timers ∧ s.writeQueue ≠ [] ∧ s.rto = 0 ∧
      (∀ n, ¬ GivesUp quietLink ((List.replicate n (.timer .tcpRetransmissionTimeout)).foldl
        (tcpStep quietLink) s)) ∧
      ¬ BacksOff quietLink s := by
  intro s
  have hend : Endless s := by
    refine ⟨by decide, List.ne_nil_of_length_pos ?_, by decide⟩
    decide
  refine ⟨hend.runs, hend.queue, hend.rto,
    fun n => (hend.expiries quietLink n).not_givesUp quietLink, fun hback => ?_⟩
  have h200 := (hback hend.runs hend.queue).1
  rw [hend.rto] at h200
  exact absurd h200 (by decide)

end LvlIp.Tcp
