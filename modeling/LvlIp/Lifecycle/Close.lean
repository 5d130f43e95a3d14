import LvlIp.Lifecycle.Moves

/-!
# Closing

After a call of `tcp_close` in ESTABLISHED the connection is in FIN_WAIT_1 and never again in a
state in which data or a FIN is queued. In CLOSE_WAIT the call leaves the state as it is, although
the comment there says to enter LAST_ACK, so nothing keeps the user from writing or closing once
more (`closeDiscipline_iff`).
-/

namespace LvlIp.Tcp

open Fec

/-- A FIN has been queued between `s` and `s'`. -/
def QueuesFin (s s' : TcpSock) : Prop := ∃ skb, skb.th.fin ∧ s'.queued = s.queued ++ [skb]

/-- The calls that may queue a buffer. -/
def TcpEvent.queues : TcpEvent → Bool
  | .write _ | .close => true
  | _ => false

/-- Closing in a run: a call that queues a FIN is the last one that queues anything, and in
CLOSE_WAIT it leads to LAST_ACK. -/
structure CloseDiscipline (env : Env) (s : TcpSock) (events : List TcpEvent) : Prop where
  last : ∀ a b c e, events = a ++ .close :: (b ++ e :: c) →
    QueuesFin (a.foldl (tcpStep env) s) ((a ++ [.close]).foldl (tcpStep env) s) → e.queues →
    ((a ++ .close :: (b ++ [e])).foldl (tcpStep env) s).queued =
      ((a ++ .close :: b).foldl (tcpStep env) s).queued
  lastAck : ∀ a b, events = a ++ .close :: b → (a.foldl (tcpStep env) s).state = .closeWait →
    ((a ++ [.close]).foldl (tcpStep env) s).state = .lastAck

/-- Our side of the connection has been closed. -/
def TcpState.finishing : TcpState → Bool
  | .finWait1 | .finWait2 | .closing | .lastAck | .timeWait => true
  | _ => false

section Close

variable {env : Env} {s : TcpSock}

theorem finishing_move {st st' : TcpState} (h : TcpState.Move st st') (hst : st.finishing) :
    st'.finishing := by
  cases h <;> first
    | rfl
    | cases hst

/-- Once our side is closed, it stays closed. -/
theorem finishing_run (events : List TcpEvent) (hst : s.state.finishing) :
    (events.foldl (tcpStep env) s).state.finishing :=
  closed_run (P := fun st => st.finishing) (fun _ _ => finishing_move) events hst

/-- Nothing is queued any more then. -/
theorem queued_of_finishing (hst : s.state.finishing) {e : TcpEvent} (he : e.queues) :
    (tcpStep env s e).queued = s.queued := by
  cases e with
  | write buf =>
    rw [tcpStep_write_of_not]
    intro hw
    unfold TcpSock.writable at hw
    revert hw hst
    cases s.state <;> simp [TcpState.finishing]
  | close =>
    change (tcpClose env s).queued = s.queued
    unfold tcpClose
    cases h : s.state with
    | finWait1 | finWait2 | closing | lastAck | timeWait => rfl
    | _ => cases h ▸ hst
  | _ => cases he

/-- The states in which `tcp_close` queues a FIN. -/
theorem queuesFin_close (h : QueuesFin s (tcpClose env s)) :
    s.state = .established ∨ s.state = .closeWait := by
  obtain ⟨skb, -, hq⟩ := h
  have hsame : (tcpClose env s).queued ≠ s.queued := by
    rw [hq]
    simp
  revert hsame
  unfold tcpClose
  cases s.state with
  | established => exact fun _ => .inl rfl
  | closeWait => exact fun _ => .inr rfl
  | _ => exact fun hne => absurd rfl hne

theorem state_tcpClose_established (hst : s.state = .established) :
    (tcpClose env s).state = .finWait1 := by
  unfold tcpClose
  rw [hst]
  exact state_tcpQueueFin env _

theorem state_tcpClose_closeWait (hst : s.state = .closeWait) :
    (tcpClose env s).state = .closeWait := by
  unfold tcpClose
  rw [hst]
  exact (state_tcpQueueFin env s).trans hst

theorem tcpCleanLoop_of_all {una : UInt32} {q : List SkBuff} (n : ℕ)
    (h : ∀ y ∈ q, 0 < y.seq ∧ y.endSeq ≤ una) : (tcpCleanLoop una q n).1 = [] := by
  induction q generalizing n with
  | nil => rfl
  | cons skb q ih =>
    unfold tcpCleanLoop
    rw [if_pos (h skb List.mem_cons_self)]
    exact ih (n - 1) fun y hy => h y (List.mem_cons_of_mem _ hy)

/-- A segment that acknowledges everything in the write queue. -/
structure CoversAll (s : TcpSock) (skb : SkBuff) : Prop where
  verified : tcpVerifySegment s skb
  rst : skb.th.rst = false
  syn : skb.th.syn = false
  ack : skb.th.ack
  acceptable : s.tcb.sndUna < skb.th.ackSeq ∧ skb.th.ackSeq ≤ s.tcb.sndNxt
  covers : ∀ y ∈ s.writeQueue, 0 < y.seq ∧ y.endSeq ≤ skb.th.ackSeq

/-- **In LAST_ACK the acknowledgement of everything ends the connection.** -/
theorem tcpSegmentArrives_lastAck (hst : s.state = .lastAck) {skb : SkBuff}
    (h : CoversAll s skb) :
    tcpSegmentArrives env s skb = tcpDone (tcpAck s skb.th.ackSeq).1 := by
  have hfield : tcpAckField s skb.th = tcpAck s skb.th.ackSeq := by
    unfold tcpAckField
    rw [hst]
  have hsnd : (tcpAck s skb.th.ackSeq).1.snd = _ :=
    (snd_tcpAck s _).trans (SndView.ack_of_acceptable h.acceptable)
  have hqueue : (tcpAck s skb.th.ackSeq).1.writeQueue = [] :=
    (congrArg SndView.writeQueue hsnd).trans (tcpCleanLoop_of_all s.inflight h.covers)
  have hst' : (tcpAck s skb.th.ackSeq).1.state = .lastAck := (state_tcpAck s _).trans hst
  unfold tcpSegmentArrives
  rw [if_neg (not_not.mpr h.verified), if_neg (by rw [h.rst]; nofun),
    if_neg (by rw [h.syn]; nofun), if_neg (not_not.mpr h.ack), hfield]
  dsimp only
  rw [if_neg (not_not.mpr (tcpAck_through h.acceptable))]
  unfold tcpFinAcked
  rw [if_pos hqueue, hst']
  rfl

/-- **The discipline of closing holds exactly in the runs without a call of `tcp_close` in
CLOSE_WAIT**; and where LAST_ACK is reached, the acknowledgement of everything ends the
connection. -/
theorem closeDiscipline_iff (env : Env) (s : TcpSock) (events : List TcpEvent) :
    (CloseDiscipline env s events ↔
      RunSat env (fun s e => e = .close → s.state ≠ .closeWait) s events) ∧
    ∀ (s' : TcpSock) (skb : SkBuff), s'.state = .lastAck → CoversAll s' skb →
      tcpSegmentArrives env s' skb = tcpDone (tcpAck s' skb.th.ackSeq).1 := by
  refine ⟨?_, fun s' skb hst h => tcpSegmentArrives_lastAck hst h⟩
  rw [runSat_iff]
  constructor
  · rintro h a e b heq rfl hcw
    have hlast := h.lastAck a b heq hcw
    rw [List.foldl_append] at hlast
    exact nomatch (state_tcpClose_closeWait hcw).symm.trans hlast
  · intro h
    refine ⟨fun a b c e heq hfin he => ?_, fun a b heq hcw => absurd hcw (h a .close b heq rfl)⟩
    rw [List.foldl_append] at hfin
    have hst : (a.foldl (tcpStep env) s).state = .established :=
      (queuesFin_close hfin).resolve_right (h a .close _ heq rfl)
    have hclosed : (tcpClose env (a.foldl (tcpStep env) s)).state.finishing := by
      rw [state_tcpClose_established hst]
      rfl
    have hafter := @finishing_run env _ b hclosed
    have hrun : (a ++ .close :: b).foldl (tcpStep env) s =
        b.foldl (tcpStep env) (tcpClose env (a.foldl (tcpStep env) s)) := List.foldl_append
    have hnext : (a ++ .close :: (b ++ [e])).foldl (tcpStep env) s =
        tcpStep env ((a ++ .close :: b).foldl (tcpStep env) s) e := by
      rw [show a ++ .close :: (b ++ [e]) = (a ++ .close :: b) ++ [e] by simp]
      exact List.foldl_append
    rw [hnext, hrun]
    exact queued_of_finishing hafter he

end Close

/-- A connection is closed, and what is written afterwards is not queued. -/
theorem closeDiscipline_established :
    CloseDiscipline quietLink sockAt200 [.close, .write [1], .close] :=
  (closeDiscipline_iff quietLink sockAt200 [.close, .write [1], .close]).1.mpr
    ⟨fun _ => nofun, nofun, fun _ => by decide +kernel, trivial⟩

/-- The peer has closed: our FIN is queued and the state stays CLOSE_WAIT, so that a second call
queues a second FIN. -/
theorem not_closeDiscipline_closeWait :
    ¬ CloseDiscipline quietLink sockAt200 [.arrive (ackSegment 101 true), .close, .close] := by
  intro h
  have hfin : QueuesFin ([.arrive (ackSegment 101 true)].foldl (tcpStep quietLink) sockAt200)
      ([.arrive (ackSegment 101 true), .close].foldl (tcpStep quietLink) sockAt200) :=
    ⟨_, by decide, rfl⟩
  have hsame := congrArg List.length
    (h.last [.arrive (ackSegment 101 true)] [] [] .close rfl hfin rfl)
  revert hsame
  decide +kernel

end LvlIp.Tcp
