import LvlIp.Lifecycle.Close

/-!
# After the end

`tcp_done` stops the timers and sets the state to CLOSING, which is also the state of a connection
whose FINs have crossed. Until the socket is freed, segments that arrive are processed as in such a
connection: a reset or an acknowledgement leads to TIME_WAIT, and a segment outside of the window or
a FIN is answered. The handler of a timer that expired before, whose thread gets the lock of the socket
only now, does what it always does. `Harmless` lists what a socket that is done can take, and
`tcpDone_terminal_iff` says that in a run the socket stays as it was exactly as long as nothing else
happens.
-/

namespace LvlIp.Tcp

open Fec

/-- A socket after `tcp_done`. -/
structure Done (s : TcpSock) : Prop where
  state : s.state = .closing
  retransmit : s.retransmit = none
  delack : s.delack = none
  linger : s.linger = none
  fec : s.fec = none

/-- Nothing has happened to a socket that is done: no timer runs, its state is the same and it has
sent nothing. -/
structure Undisturbed (s s' : TcpSock) : Prop where
  timers : s'.timers = []
  state : s'.state = s.state
  out : s'.out = s.out

/-- An acknowledgement is out of range, or leaves something in the write queue. -/
def TcpSock.StillOpen (s : TcpSock) (ackSeq : UInt32) : Prop :=
  ∃ y ∈ s.writeQueue, s.tcb.sndUna < ackSeq → ¬ (0 < y.seq ∧ y.endSeq ≤ ackSeq)

/-- A segment that a socket that is done ignores: a reset outside of the window, and inside of it
one that is dropped early, or has an acknowledgement number that is out of range, or one that
leaves something unacknowledged and comes without a FIN. -/
def HarmlessSegment (s : TcpSock) (skb : SkBuff) : Prop :=
  if tcpVerifySegment s skb then
    skb.th.rst = false ∧ (skb.th.syn ∨ skb.th.ack = false ∨ skb.th.ackSeq < s.tcb.sndUna ∨
      s.tcb.sndNxt < skb.th.ackSeq ∨
      (s.StillOpen skb.th.ackSeq ∧ ¬ (skb.th.fin ∧ skb.seq = s.tcb.rcvNxt)))
  else skb.th.rst

/-- A read that is woken does not return, but goes on waiting or fails. -/
def WaitsOn (s : TcpSock) (rd : Reader) : Prop :=
  let d := tcpDequeueLoop s.receiveQueue rd.room
  rd.room ≠ 0 ∧ ¬ (s.pshFlag || d.2.2) ∧ ¬ (s.finFlag ∨ rd.room = d.1.length) ∧
    (s.nonblock → rd.got ++ d.1 = [])

/-- The handler of a timer that has been stopped finds nothing to do: `tcp_connect_rto` looks at the
state, and `tcp_linger` ends a connection that has ended. -/
def TimerHandler.Harmless (s : TcpSock) : TimerHandler → Prop
  | .tcpConnectRto => True
  | .tcpRetransmissionTimeout => s.writeQueue = []
  | .tcpLinger => True
  | .tcpSendDelack => False
  | .tcpUserTimeout => False

/-- An event that a socket that is done ignores. -/
def Harmless (s : TcpSock) : ThreadEvent → Prop
  | .event (.arrive seg) => HarmlessSegment s (tcpInitSegment seg)
  | .event (.wake rd) => WaitsOn s rd
  | .event .abort => False
  | .event _ => True
  | .late handler => handler.Harmless s

section Done

variable {env : Env} {s s' : TcpSock}

theorem Done.timers (h : Done s) : s.timers = [] := by
  unfold TcpSock.timers
  rw [h.retransmit, h.delack, h.linger]
  rfl

theorem Done.undisturbed (h : Done s) : Undisturbed s s := ⟨h.timers, rfl, rfl⟩

theorem timers_eq_nil (s : TcpSock) :
    s.timers = [] ↔ s.retransmit = none ∧ s.delack = none ∧ s.linger = none := by
  unfold TcpSock.timers
  cases s.retransmit <;> cases s.delack <;> cases s.linger <;> simp

theorem Undisturbed.done (h : Undisturbed s s') (hs : Done s) (hfec : s'.fec = none) : Done s' := by
  obtain ⟨h1, h2, h3⟩ := (timers_eq_nil s').mp h.timers
  exact ⟨h.state.trans hs.state, h1, h2, h3, hfec⟩

/-- A segment goes out. -/
theorem out_tcpSendAck (hst : s.state ≠ .close) : ∃ t, (tcpSendAck env s).out = s.out ++ [t] := by
  unfold tcpSendAck
  rw [if_neg hst]
  obtain ⟨th, -, -, hview⟩ := exists_tcpTransmitSkb env _ _ _
  exact ⟨_, congrArg TxView.out hview⟩

/-- The head of the write queue goes out. -/
theorem out_tcpRetransmissionTimeout {skb : SkBuff} {q : List SkBuff}
    (hq : s.writeQueue = skb :: q) :
    ∃ t, (tcpRetransmissionTimeout env s).out = s.out ++ [t] := by
  obtain ⟨th, -, -, hview⟩ := exists_tcpTransmitSkb env (tcpReleaseRtoTimer s) skb s.tcb.sndUna
  have hout := congrArg TxView.out hview
  refine ⟨_, Eq.trans ?_ hout⟩
  unfold tcpRetransmissionTimeout
  dsimp only
  rw [show (tcpReleaseRtoTimer s).writeQueue = skb :: q from hq]
  dsimp only
  split
  · rfl
  · split
    · unfold tcpHandleFinState
      split <;> rfl
    · rfl

/-! ## Arrival -/

theorem Done.tcpStep_arrive (h : Done s) (seg : Segment) :
    tcpStep env s (.arrive seg) = tcpSegmentArrives env s (tcpInitSegment seg) := by
  change tcpInputState env s (tcpInitSegment seg) = _
  unfold tcpInputState
  rw [h.state, h.fec]

theorem tcpCleanLoop_eq_nil {una : UInt32} {q : List SkBuff} {n : ℕ} :
    (tcpCleanLoop una q n).1 = [] ↔ ∀ y ∈ q, 0 < y.seq ∧ y.endSeq ≤ una := by
  refine ⟨fun h => ?_, tcpCleanLoop_of_all n⟩
  induction q generalizing n with
  | nil => nofun
  | cons skb q ih =>
    unfold tcpCleanLoop at h
    split at h
    · next hskb =>
      intro y hy
      rcases List.mem_cons.mp hy with rfl | hy
      · exact hskb
      · exact ih h y hy
    · cases h

/-- The write queue after an acknowledgement in range. -/
theorem writeQueue_tcpAck {ackSeq : UInt32}
    (hrange : ¬ (ackSeq < s.tcb.sndUna ∨ s.tcb.sndNxt < ackSeq)) :
    (tcpAck s ackSeq).1.writeQueue = [] ↔ ¬ s.StillOpen ackSeq := by
  have hsnd : (tcpAck s ackSeq).1.writeQueue = (s.snd.ack ackSeq).writeQueue :=
    congrArg SndView.writeQueue (snd_tcpAck s ackSeq)
  obtain ⟨hlow, hhigh⟩ := not_or.mp hrange
  rw [hsnd]
  unfold TcpSock.StillOpen
  by_cases hlt : s.tcb.sndUna < ackSeq
  · rw [SndView.ack_of_acceptable ⟨hlt, UInt32.not_lt.mp hhigh⟩]
    refine tcpCleanLoop_eq_nil.trans ?_
    push Not
    exact forall₂_congr fun y _ => ⟨fun h => ⟨hlt, h⟩, And.right⟩
  · have hsame : s.snd.ack ackSeq = s.snd := if_neg fun h => hlt h.1
    rw [hsame]
    push Not
    constructor
    · intro hq y hy
      rw [show s.writeQueue = [] from hq] at hy
      cases hy
    · intro h
      exact List.eq_nil_iff_forall_not_mem.mpr fun y hy => hlt (h y hy).1

theorem tcpAck_out_of_range {ackSeq : UInt32}
    (h : ackSeq < s.tcb.sndUna ∨ s.tcb.sndNxt < ackSeq) : (tcpAck s ackSeq).2 = false := by
  have hsame : s.snd.ack ackSeq = s.snd := by
    refine if_neg fun hacc => ?_
    rcases h with h | h
    · exact UInt32.lt_asymm h hacc.1
    · exact UInt32.not_lt.mpr hacc.2 h
  rw [tcpAck_snd, hsame]
  exact decide_eq_false (not_not.mpr h)

theorem tcpAck_in_range {ackSeq : UInt32}
    (h : ¬ (ackSeq < s.tcb.sndUna ∨ s.tcb.sndNxt < ackSeq)) : (tcpAck s ackSeq).2 := by
  by_cases hlt : s.tcb.sndUna < ackSeq
  · exact tcpAck_through ⟨hlt, UInt32.not_lt.mp (not_or.mp h).2⟩
  · have hsame : s.snd.ack ackSeq = s.snd := if_neg fun hacc => hlt hacc.1
    rw [tcpAck_snd, hsame]
    exact decide_eq_true h

/-- An acknowledgement starts no timer and sends nothing. -/
theorem Done.ack (h : Done s) (ackSeq : UInt32) :
    Undisturbed s (tcpAck s ackSeq).1 ∧ (tcpAck s ackSeq).1.fec = none := by
  have hst := state_tcpAck s ackSeq
  have hfec : (tcpAck s ackSeq).1.fec = s.fec := congrArg RcvView.fec (rcv_tcpAck s ackSeq)
  refine ⟨?_, hfec.trans h.fec⟩
  have hrtt : tcpRtt { s with tcb.sndUna := ackSeq } = { s with tcb.sndUna := ackSeq } := by
    unfold tcpRtt
    rw [h.retransmit]
    exact ite_self _
  unfold tcpAck at hst ⊢
  dsimp only at hst ⊢
  split
  · rw [hrtt]
    unfold tcpCleanRtoQueue
    dsimp only
    split
    · exact ⟨(timers_eq_nil _).mpr ⟨rfl, h.delack, h.linger⟩, rfl, rfl⟩
    · exact ⟨(timers_eq_nil _).mpr ⟨h.retransmit, h.delack, h.linger⟩, rfl, rfl⟩
  · exact h.undisturbed

/-- **The end of the processing of a segment** in CLOSING and TIME_WAIT. -/
theorem tcpDeliver_of_over (h : s.state = .closing ∨ s.state = .timeWait) (skb : SkBuff) :
    tcpDeliver env s skb =
      if skb.th.fin ∧ skb.seq = s.tcb.rcvNxt then
        tcpSendAck env { s with tcb.rcvNxt := s.tcb.rcvNxt + 1, finFlag := true }
      else s := by
  have hreceives : ∀ {s' : TcpSock}, s'.state = s.state → ¬ s'.state.receives := by
    intro s' hst
    rw [hst]
    rcases h with h | h <;> rw [h] <;> nofun
  have htext : tcpText env s skb = s := if_neg fun hr => hreceives rfl hr.1
  have hpending : ∀ {s' : TcpSock} (expected : Bool), s'.state = s.state →
      tcpPending env s' skb expected = s' := fun _ hst => if_neg fun hr => hreceives hst hr.1
  unfold tcpDeliver
  rw [htext]
  dsimp only
  unfold tcpFin
  have hcond : (skb.th.fin ∧ (skb.seq == s.tcb.rcvNxt)) ↔
      (skb.th.fin ∧ skb.seq = s.tcb.rcvNxt) := by rw [beq_iff_eq]
  split
  · next hfin =>
    rw [if_pos (hcond.mp hfin)]
    have hst := state_tcpSendAck env { s with tcb.rcvNxt := s.tcb.rcvNxt + 1, finFlag := true }
    generalize tcpSendAck env { s with tcb.rcvNxt := s.tcb.rcvNxt + 1, finFlag := true } = s₁
      at hst
    have hst₁ : s₁.state = s.state := hst
    have hfs : tcpFinState s₁ = s₁ := by
      unfold tcpFinState
      rcases h with h | h <;> rw [hst₁, h]
    rw [hfs, hpending _ hst₁]
  · next hfin => rw [if_neg fun h' => hfin (hcond.mpr h'), hpending _ rfl]

/-- An acknowledgement goes out. -/
theorem not_undisturbed_tcpSendAck (hst : s'.state = .closing) (hout : s'.out = s.out) :
    ¬ Undisturbed s (tcpSendAck env s') := by
  intro hrest
  obtain ⟨t, hack⟩ := @out_tcpSendAck env s' (by rw [hst]; nofun)
  have hlen := congrArg List.length (hack.symm.trans hrest.out)
  rw [hout, List.length_append] at hlen
  simp at hlen

/-- **What follows an acknowledgement in range** leaves the socket alone exactly when something stays
unacknowledged and no FIN comes in order. -/
theorem Done.arrive_acked (h : Done s) (skb : SkBuff)
    (hrange : ¬ (skb.th.ackSeq < s.tcb.sndUna ∨ s.tcb.sndNxt < skb.th.ackSeq)) :
    let f := tcpFinAcked env (tcpAck s skb.th.ackSeq).1 skb.th
    let t := if ¬ f.2 then f.1 else tcpDeliver env f.1 skb
    (s.StillOpen skb.th.ackSeq ∧ ¬ (skb.th.fin ∧ skb.seq = s.tcb.rcvNxt) →
      Undisturbed s t ∧ t.fec = none) ∧
    (Undisturbed s t → s.StillOpen skb.th.ackSeq ∧ ¬ (skb.th.fin ∧ skb.seq = s.tcb.rcvNxt)) := by
  have hst := h.state
  obtain ⟨hrest, hfec⟩ := h.ack skb.th.ackSeq
  have hqueue := writeQueue_tcpAck hrange
  have hnxt : (tcpAck s skb.th.ackSeq).1.tcb.rcvNxt = s.tcb.rcvNxt :=
    congrArg RcvView.rcvNxt (rcv_tcpAck s _)
  dsimp only
  generalize (tcpAck s skb.th.ackSeq).1 = s₁ at hrest hfec hqueue hnxt
  have hst₁ : s₁.state = .closing := hrest.state.trans hst
  by_cases hopen : s.StillOpen skb.th.ackSeq
  · have hfin : tcpFinAcked env s₁ skb.th = (s₁, true) := if_neg fun hq => hqueue.mp hq hopen
    rw [hfin, if_neg (not_not.mpr rfl), tcpDeliver_of_over (.inl hst₁), hnxt]
    split
    · next hf =>
      exact ⟨fun hh => absurd hf hh.2,
        fun hrest' => absurd hrest' (not_undisturbed_tcpSendAck hst₁ hrest.out)⟩
    · next hf => exact ⟨fun _ => ⟨hrest, hfec⟩, fun _ => ⟨hopen, hf⟩⟩
  · -- the acknowledgement of everything leads to TIME_WAIT
    have hfin : tcpFinAcked env s₁ skb.th = ({ s₁ with state := .timeWait }, true) := by
      unfold tcpFinAcked
      rw [if_pos (hqueue.mpr hopen), hst₁]
    refine ⟨fun hh => absurd hh.1 hopen, fun hrest' => ?_⟩
    have hstate := hrest'.state
    rw [hfin, if_neg (not_not.mpr rfl), tcpDeliver_of_over (.inr rfl), hst] at hstate
    split at hstate
    · rw [state_tcpSendAck] at hstate
      cases hstate
    · cases hstate

/-- **A segment that arrives at a socket that is done** leaves it alone exactly when it is
harmless. -/
theorem Done.arrive (h : Done s) (skb : SkBuff) :
    (HarmlessSegment s skb →
      Undisturbed s (tcpSegmentArrives env s skb) ∧ (tcpSegmentArrives env s skb).fec = none) ∧
    (Undisturbed s (tcpSegmentArrives env s skb) → HarmlessSegment s skb) := by
  have hst := h.state
  have hsame : Undisturbed s s ∧ s.fec = none := ⟨h.undisturbed, h.fec⟩
  unfold HarmlessSegment tcpSegmentArrives
  by_cases hver : tcpVerifySegment s skb
  swap
  · rw [if_pos hver, if_neg hver]
    cases skb.th.rst with
    | true => exact ⟨fun _ => hsame, fun _ => rfl⟩
    | false => exact ⟨nofun, fun hrest => absurd hrest (not_undisturbed_tcpSendAck hst rfl)⟩
  rw [if_neg (not_not.mpr hver), if_pos hver]
  cases skb.th.rst with
  | true =>
    refine ⟨fun hh => (nomatch hh.1), fun hrest => ?_⟩
    exact nomatch hst.symm.trans hrest.state.symm
  | false =>
    rw [if_neg Bool.false_ne_true]
    by_cases hearly : skb.th.syn ∨ skb.th.ack = false
    · have hdrop : ∀ s' : TcpSock, (if skb.th.syn then s else if ¬ skb.th.ack then s else s') = s := by
        intro s'
        rcases hearly with hsyn | hack
        · exact if_pos hsyn
        · rw [hack]
          exact ite_self _
      dsimp only
      rw [hdrop]
      exact ⟨fun _ => hsame, fun _ => ⟨rfl, hearly.imp_right .inl⟩⟩
    · obtain ⟨hsyn, hack⟩ := not_or.mp hearly
      rw [Bool.not_eq_false] at hack
      have hfield : tcpAckField s skb.th = tcpAck s skb.th.ackSeq := by
        unfold tcpAckField
        rw [hst]
      have hcases : (skb.th.syn ∨ skb.th.ack = false ∨ skb.th.ackSeq < s.tcb.sndUna ∨
          s.tcb.sndNxt < skb.th.ackSeq ∨
          (s.StillOpen skb.th.ackSeq ∧ ¬ (skb.th.fin ∧ skb.seq = s.tcb.rcvNxt))) ↔
          ((skb.th.ackSeq < s.tcb.sndUna ∨ s.tcb.sndNxt < skb.th.ackSeq) ∨
            (s.StillOpen skb.th.ackSeq ∧ ¬ (skb.th.fin ∧ skb.seq = s.tcb.rcvNxt))) := by
        rw [or_iff_right hsyn, or_iff_right (by rw [hack]; nofun), or_assoc]
      rw [if_neg hsyn, if_neg (not_not.mpr hack), hfield, hcases]
      dsimp only
      by_cases hrange : skb.th.ackSeq < s.tcb.sndUna ∨ s.tcb.sndNxt < skb.th.ackSeq
      · rw [if_pos (by rw [tcpAck_out_of_range hrange]; nofun)]
        exact ⟨fun _ => h.ack skb.th.ackSeq, fun _ => ⟨rfl, .inl hrange⟩⟩
      · obtain ⟨hkeep, honly⟩ := @Done.arrive_acked env _ h skb hrange
        rw [if_neg (not_not.mpr (tcpAck_in_range hrange)), or_iff_right hrange]
        exact ⟨fun hh => hkeep hh.2, fun hrest => ⟨rfl, honly hrest⟩⟩

/-! ## Calls and timers -/

/-- A read that returns starts the user timer. -/
theorem not_undisturbed_tcpReceiveReturn (hst : s'.state = .closing) (got : List UInt8) :
    ¬ Undisturbed s (tcpReceiveReturn s' got).1 := by
  intro h
  have hlinger := ((timers_eq_nil _).mp h.timers).2.2
  unfold tcpReceiveReturn tcpRearmUserTimeout at hlinger
  rw [if_neg (by rw [hst]; nofun)] at hlinger
  cases hlinger

theorem Done.wake (h : Done s) (rd : Reader) :
    (WaitsOn s rd → Undisturbed s (tcpReceiveStep s rd).1 ∧ (tcpReceiveStep s rd).1.fec = none) ∧
    (Undisturbed s (tcpReceiveStep s rd).1 → WaitsOn s rd) := by
  have hret : ∀ (s' : TcpSock) (got : List UInt8), s'.state = s.state →
      ¬ Undisturbed s (tcpReceiveReturn s' got).1 :=
    fun s' got hst => not_undisturbed_tcpReceiveReturn (hst.trans h.state) got
  unfold WaitsOn tcpReceiveStep tcpDataDequeue
  generalize tcpDequeueLoop s.receiveQueue rd.room = d
  dsimp only
  have hrest : Undisturbed s { s with receiveQueue := d.2.1, pshFlag := s.pshFlag || d.2.2 } ∧
      s.fec = none := ⟨⟨h.timers, rfl, rfl⟩, h.fec⟩
  split
  · next h0 =>
    exact ⟨fun hw => absurd h0 hw.1, fun hr => absurd hr (hret _ _ rfl)⟩
  · next h0 =>
    split
    · next hpsh =>
      exact ⟨fun hw => absurd hpsh hw.2.1, fun hr => absurd hr (hret _ _ rfl)⟩
    · next hpsh =>
      split
      · next hfin =>
        exact ⟨fun hw => absurd hfin hw.2.2.1,
          fun hr => absurd hr (hret _ _ rfl)⟩
      · next hfin =>
        split
        · next hnb =>
          split
          · next hgot => exact ⟨fun _ => hrest, fun _ => ⟨h0, hpsh, hfin, fun _ => hgot⟩⟩
          · next hgot =>
            exact ⟨fun hw => absurd (hw.2.2.2 hnb) hgot,
              fun hr => absurd hr (hret _ _ rfl)⟩
        · next hnb => exact ⟨fun _ => hrest, fun _ => ⟨h0, hpsh, hfin, fun hn => absurd hn hnb⟩⟩

/-- A reset goes out. -/
theorem not_undisturbed_tcpAbort (hout : s'.out = s.out) : ¬ Undisturbed s (tcpAbort env s') := by
  intro hrest
  obtain ⟨th, -, -, hview⟩ := exists_tcpTransmitSkb env
    { (tcpAllocSkb s' none { Tcphdr.zero with rst := true } []).1 with
      tcb.sndUna := s'.tcb.sndNxt }
    (tcpAllocSkb s' none { Tcphdr.zero with rst := true } []).2 s'.tcb.sndNxt
  have hlen := congrArg List.length ((congrArg TxView.out hview).symm.trans hrest.out)
  change (s'.out ++ [_]).length = s.out.length at hlen
  rw [hout, List.length_append] at hlen
  simp at hlen

/-- **A thread that comes late** leaves the socket alone exactly when it finds nothing to do. -/
theorem Done.late (h : Done s) (handler : TimerHandler) :
    (handler.Harmless s → Undisturbed s (handler.run env s) ∧ (handler.run env s).fec = none) ∧
    (Undisturbed s (handler.run env s) → handler.Harmless s) := by
  have hst := h.state
  cases handler with
  | tcpConnectRto =>
    have hrun : TimerHandler.run env s .tcpConnectRto = tcpReleaseRtoTimer s :=
      if_neg (by rw [show (tcpReleaseRtoTimer s).state = s.state from rfl, hst]; nofun)
    rw [hrun]
    exact ⟨fun _ => ⟨⟨(timers_eq_nil _).mpr ⟨rfl, h.delack, h.linger⟩, rfl, rfl⟩, h.fec⟩,
      fun _ => trivial⟩
  | tcpRetransmissionTimeout =>
    change (s.writeQueue = [] → Undisturbed s (tcpRetransmissionTimeout env s) ∧
        (tcpRetransmissionTimeout env s).fec = none) ∧
      (Undisturbed s (tcpRetransmissionTimeout env s) → s.writeQueue = [])
    cases hq : s.writeQueue with
    | nil =>
      have hrun : tcpRetransmissionTimeout env s =
          { tcpReleaseRtoTimer s with backoff := 0 } := by
        unfold tcpRetransmissionTimeout
        dsimp only
        rw [show (tcpReleaseRtoTimer s).writeQueue = [] from hq]
      rw [hrun]
      exact ⟨fun _ => ⟨⟨(timers_eq_nil _).mpr ⟨rfl, h.delack, h.linger⟩, rfl, rfl⟩, h.fec⟩,
        fun _ => rfl⟩
    | cons skb q =>
      refine ⟨nofun, fun hrest => ?_⟩
      obtain ⟨t, hout⟩ := @out_tcpRetransmissionTimeout env s skb q hq
      have hlen := congrArg List.length (hout.symm.trans hrest.out)
      rw [List.length_append] at hlen
      simp at hlen
  | tcpSendDelack =>
    refine ⟨nofun, fun hrest => ?_⟩
    obtain ⟨t, hack⟩ := @out_tcpSendAck env (tcpReleaseDelackTimer { s with delacks := 0 })
      (by rw [show (tcpReleaseDelackTimer { s with delacks := 0 }).state = s.state from rfl, hst]; nofun)
    have hlen := congrArg List.length (hack.symm.trans hrest.out)
    change (s.out ++ [t]).length = s.out.length at hlen
    rw [List.length_append] at hlen
    simp at hlen
  | tcpLinger => 
    exact ⟨fun _ => ⟨⟨rfl, hst.symm, rfl⟩, rfl⟩, fun _ => trivial⟩
  | tcpUserTimeout => exact ⟨nofun, not_undisturbed_tcpAbort rfl⟩

/-- **An event of a socket that is done** leaves it alone exactly when it is harmless. -/
theorem Done.step (h : Done s) (e : TcpEvent) :
    (Harmless s (.event e) → Undisturbed s (tcpStep env s e) ∧ (tcpStep env s e).fec = none) ∧
    (Undisturbed s (tcpStep env s e) → Harmless s (.event e)) := by
  have hst := h.state
  have hsame : ∀ {P : Prop}, P →
      (P → Undisturbed s s ∧ s.fec = none) ∧ (Undisturbed s s → P) :=
    fun hp => ⟨fun _ => ⟨h.undisturbed, h.fec⟩, fun _ => hp⟩
  have herr : ∀ err : ℤ, (True → Undisturbed s { s with err } ∧ s.fec = none) ∧
      (Undisturbed s { s with err } → True) :=
    fun err => ⟨fun _ => ⟨⟨h.timers, rfl, rfl⟩, h.fec⟩, fun _ => trivial⟩
  cases e with
  | connect iss =>
    have hcon : tcpStep env s (.connect iss) = { s with err := eIsconn } :=
      if_pos (by rw [hst]; nofun)
    rw [hcon]
    exact herr eIsconn
  | arrive seg =>
    rw [h.tcpStep_arrive]
    exact h.arrive (tcpInitSegment seg)
  | write buf =>
    rw [tcpStep_write_of_not (by unfold TcpSock.writable; rw [hst]; simp)]
    exact hsame trivial
  | read len =>
    have hread : tcpStep env s (.read len) = s := by
      change (tcpRead s len).1 = s
      unfold tcpRead
      rw [hst]
    rw [hread]
    exact hsame trivial
  | wake rd => exact h.wake rd
  | close =>
    have hclose : tcpStep env s .close = { s with err := eBadf } := by
      change tcpClose env s = _
      unfold tcpClose
      rw [hst]
    rw [hclose]
    exact herr eBadf
  | abort => exact ⟨nofun, not_undisturbed_tcpAbort rfl⟩
  | timer handler =>
    rw [tcpStep_timer_of_not (by rw [h.timers]; nofun)]
    exact hsame trivial
  | tick ms => exact ⟨fun _ => ⟨⟨h.timers, rfl, rfl⟩, h.fec⟩, fun _ => trivial⟩

theorem Undisturbed.trans {s'' : TcpSock} (h : Undisturbed s s') (h' : Undisturbed s' s'') :
    Undisturbed s s'' :=
  ⟨h'.timers, h'.state.trans h.state, h'.out.trans h.out⟩

/-- **An event with late threads** leaves it alone exactly when it is harmless. -/
theorem Done.threadStep (h : Done s) (e : ThreadEvent) :
    (Harmless s e → Undisturbed s (threadStep env s e) ∧ (threadStep env s e).fec = none) ∧
    (Undisturbed s (threadStep env s e) → Harmless s e) := by
  cases e with
  | event e => exact h.step e
  | late handler => exact h.late handler

theorem Done.run (h : Done s) (events : List ThreadEvent) :
    (∀ pre, pre <+: events → Undisturbed s (pre.foldl (Tcp.threadStep env) s)) ↔
      ThreadSat env Harmless s events := by
  induction events generalizing s with
  | nil =>
    refine iff_of_true (fun pre hpre => ?_) trivial
    rw [List.prefix_nil.mp hpre]
    exact h.undisturbed
  | cons e es ih =>
    obtain ⟨hrest, hharm⟩ := @Done.threadStep env s h e
    constructor
    · intro hall
      have hfirst := hall [e] ⟨es, rfl⟩
      have he := hharm hfirst
      have hdone := hfirst.done h (hrest he).2
      refine ⟨he, (ih hdone).mp fun pre hpre => ?_⟩
      have hnext := hall (e :: pre) (List.prefix_cons_inj e |>.mpr hpre)
      exact ⟨hnext.timers, hnext.state.trans hfirst.state.symm, hnext.out.trans hfirst.out.symm⟩
    · rintro ⟨he, hes⟩ pre hpre
      obtain ⟨hfirst, hfec⟩ := hrest he
      rcases List.prefix_cons_iff.mp hpre with rfl | ⟨pre', rfl, hpre'⟩
      · exact h.undisturbed
      · exact hfirst.trans ((ih (hfirst.done h hfec)).mpr hes pre' hpre')

end Done

end LvlIp.Tcp
