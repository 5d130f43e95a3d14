import LvlIp.Receive.Stream
import LvlIp.Lifecycle.Moves

/-!
# The end of the stream, as a reader sees it

`tcp_read` reports the end of the stream by returning 0. Whether it does depends on two marks of the
socket, TCP_PSH and TCP_FIN, and on who clears them (`zero_tcpReceiveStep`): a reader that finds
no byte gets 0 as soon as one of them is set. TCP_PSH is also set by a segment that carries the flag
and no text, and TCP_FIN is cleared by the first call that reports the end. A run reports the end
of the stream exactly where it is when every call that finds no byte finds the marks in order
(`eof_iff`).
-/

namespace LvlIp.Tcp

open Fec

/-! ## One step of a read -/

section Dequeue

variable {q : List SkBuff} {n : ℕ}

theorem length_tcpDequeueLoop_le (q : List SkBuff) (n : ℕ) : (tcpDequeueLoop q n).1.length ≤ n := by
  induction q generalizing n with
  | nil => exact Nat.zero_le n
  | cons skb q ih =>
    rw [tcpDequeueLoop]
    split
    · exact Nat.zero_le n
    · split
      · exact (List.length_take_le n skb.payload)
      · next hle =>
        rw [List.length_append]
        have := ih (n - skb.dlen)
        change skb.dlen + _ ≤ n
        omega

theorem tcpDequeueLoop_eq_nil_iff (hn : 0 < n) : (tcpDequeueLoop q n).1 = [] ↔ bytesOf q = [] := by
  induction q generalizing n with
  | nil => exact iff_of_true rfl rfl
  | cons skb q ih =>
    rw [tcpDequeueLoop, if_neg hn.ne', bytesOf_cons]
    split
    · next hlt =>
      have hpos : 0 < skb.payload.length := (Nat.zero_le n).trans_lt hlt
      have hne : skb.payload ≠ [] := List.ne_nil_of_length_pos hpos
      refine iff_of_false ?_ ?_
      · simp [List.take_eq_nil_iff, hne, hn.ne']
      · exact fun h => hne (List.append_eq_nil_iff.mp h).1
    · dsimp only
      rw [List.append_eq_nil_iff, List.append_eq_nil_iff]
      refine and_congr_right fun hnil => ih ?_
      change 0 < n - skb.payload.length
      rwa [hnil, List.length_nil, Nat.sub_zero]

/-- A read that finds only empty buffers takes them all. -/
theorem psh_tcpDequeueLoop_of_empty (hn : 0 < n) (h : bytesOf q = []) :
    (tcpDequeueLoop q n).2.2 = q.any fun skb => skb.th.psh := by
  induction q with
  | nil => rfl
  | cons skb q ih =>
    rw [bytesOf_cons, List.append_eq_nil_iff] at h
    have hlen : skb.dlen = 0 := congrArg List.length h.1
    rw [tcpDequeueLoop, if_neg hn.ne', hlen, if_neg (Nat.not_lt_zero n), Nat.sub_zero]
    rw [List.any_cons, ← ih h.2]

end Dequeue

/-- The call returned 0. -/
def ReadResult.zero : ReadResult → Bool
  | .done ret _ => ret == 0
  | .wait _ => false

/-- TCP_PSH is set, or will be once the queue is empty. -/
def TcpSock.pushed (s : TcpSock) : Bool := s.pshFlag || s.receiveQueue.any fun skb => skb.th.psh

theorem zero_tcpReceiveReturn (s : TcpSock) (got : List UInt8) :
    (tcpReceiveReturn s got).2.zero ↔ got = [] := by
  unfold tcpReceiveReturn ReadResult.zero
  simp [List.length_eq_zero_iff]

/-- **A step of a read returns 0** when there is no byte to return and one of the marks is set. -/
theorem zero_tcpReceiveStep (s : TcpSock) {rd : Reader} (hroom : 0 < rd.room) :
    (tcpReceiveStep s rd).2.zero ↔
      (rd.got = [] ∧ bytesOf s.receiveQueue = []) ∧ (s.pushed ∨ s.finFlag) := by
  unfold tcpReceiveStep
  rw [if_neg hroom.ne']
  have hnil : rd.got ++ (tcpDataDequeue s rd.room).2 = [] ↔
      rd.got = [] ∧ bytesOf s.receiveQueue = [] := by
    rw [List.append_eq_nil_iff]
    exact and_congr_right fun _ => tcpDequeueLoop_eq_nil_iff hroom
  dsimp only
  by_cases hempty : rd.got = [] ∧ bytesOf s.receiveQueue = []
  · have hpsh : (tcpDataDequeue s rd.room).1.pshFlag = s.pushed := by
      unfold TcpSock.pushed
      rw [← psh_tcpDequeueLoop_of_empty hroom hempty.2]
      rfl
    have hgot := hnil.mpr hempty
    have hnone : (tcpDataDequeue s rd.room).2 = [] := (List.append_eq_nil_iff.mp hgot).2
    have hfin : (tcpDataDequeue s rd.room).1.finFlag = s.finFlag := rfl
    rw [hpsh, hfin, hgot, and_iff_right hempty]
    by_cases hpushed : s.pushed
    · rw [if_pos hpushed, zero_tcpReceiveReturn]
      exact iff_of_true rfl (.inl hpushed)
    · rw [if_neg hpushed, hnone, List.length_nil]
      by_cases hf : s.finFlag
      · rw [if_pos (.inl hf), zero_tcpReceiveReturn]
        exact iff_of_true rfl (.inr hf)
      · rw [if_neg (not_or.mpr ⟨hf, hroom.ne'⟩)]
        refine iff_of_false ?_ (not_or.mpr ⟨hpushed, hf⟩)
        split
        · exact Bool.false_ne_true
        · exact Bool.false_ne_true
  · refine iff_of_false ?_ fun h => hempty h.1
    have hgot := mt hnil.mp hempty
    generalize rd.got ++ (tcpDataDequeue s rd.room).2 = got at hgot
    split
    · rwa [zero_tcpReceiveReturn]
    · split
      · rwa [zero_tcpReceiveReturn]
      · split
        · rwa [zero_tcpReceiveReturn]
        · exact Bool.false_ne_true

/-- A read that sleeps still has room. -/
theorem room_of_tcpReceiveStep {s : TcpSock} {rd rd' : Reader}
    (h : (tcpReceiveStep s rd).2 = .wait rd') : 0 < rd'.room := by
  unfold tcpReceiveStep at h
  split at h
  · exact nomatch h
  · have hle := length_tcpDequeueLoop_le s.receiveQueue rd.room
    have hlen : (tcpDataDequeue s rd.room).2.length ≤ rd.room := hle
    dsimp only at h
    split at h
    · exact nomatch h
    · split at h
      · exact nomatch h
      · next hstop =>
        split at h
        · split at h <;> exact nomatch h
        · injection h with h
          rw [← h]
          change 0 < rd.room - _
          have := (not_or.mp hstop).2
          omega

theorem room_of_tcpRead {s : TcpSock} {len : ℕ} {rd : Reader}
    (h : (tcpRead s len).2 = .wait rd) : 0 < rd.room := by
  unfold tcpRead at h
  cases hst : s.state with rw [hst] at h
  | close | closing | lastAck | timeWait => exact nomatch h
  | listen | synSent | synReceived | established | finWait1 | finWait2 =>
    exact room_of_tcpReceiveStep h
  | closeWait =>
    dsimp only at h
    split at h
    · exact nomatch h
    · exact room_of_tcpReceiveStep h

/-- **A call of `tcp_read`** on an open connection decides as its first step does. -/
theorem zero_tcpRead {s : TcpSock} {len : ℕ} (hlen : 0 < len)
    (hst : s.state = .established ∨ s.state = .closeWait) :
    (tcpRead s len).2.zero ↔ bytesOf s.receiveQueue = [] ∧ (s.pushed ∨ s.finFlag) := by
  have hstep := @zero_tcpReceiveStep s ⟨[], len⟩ hlen
  rw [and_iff_right rfl] at hstep
  unfold tcpRead
  rcases hst with h | h <;> rw [h]
  · exact hstep
  · dsimp only
    split
    · next heof =>
      refine iff_of_true rfl ⟨?_, .inr heof.2⟩
      rw [heof.1, bytesOf_nil]
    · exact hstep

/-! ## The marks while segments arrive -/

section Marks

variable {env : Env} {s : TcpSock}

theorem finFlag_tcpTransmitSkb (s : TcpSock) (skb : SkBuff) (seq : UInt32) :
    (tcpTransmitSkb env s skb seq).1.finFlag = s.finFlag := by
  change (tcpFillOptions s _).1.finFlag = s.finFlag
  unfold tcpFillOptions tcpWriteOptions
  split
  · dsimp only
    split
    · rfl
    · split <;> rfl
  · rfl

theorem finFlag_tcpSendAck (s : TcpSock) : (tcpSendAck env s).finFlag = s.finFlag := by
  unfold tcpSendAck
  split
  · rfl
  · exact finFlag_tcpTransmitSkb _ _ _

theorem finFlag_tcpDataQueue (s : TcpSock) (skb : SkBuff) :
    (tcpDataQueue env s skb).finFlag = s.finFlag := by
  unfold tcpDataQueue
  split
  · rfl
  · split
    · rfl
    · rw [finFlag_tcpSendAck]
      split <;> rfl

theorem finFlag_tcpFecInput (s : TcpSock) (fec : TcpFec) (skb : SkBuff) :
    (tcpFecInput env s fec skb).1.finFlag = s.finFlag := by
  have hfold : ∀ (sps : List Splice) (s : TcpSock),
      (sps.foldl (tcpFecSplice env) s).finFlag = s.finFlag := by
    intro sps
    induction sps with
    | nil => exact fun _ => rfl
    | cons sp sps ih => exact fun s => (ih _).trans (finFlag_tcpDataQueue s sp.skb)
  unfold tcpFecInput
  dsimp only
  split
  · exact hfold _ _
  · rw [finFlag_tcpSendAck]
    exact hfold _ _

theorem finFlag_tcpAck (s : TcpSock) (ackSeq : UInt32) :
    (tcpAck s ackSeq).1.finFlag = s.finFlag := by
  have hrtt : ∀ s : TcpSock, (tcpRtt s).finFlag = s.finFlag := by
    intro s
    simp only [tcpRtt]
    split
    · rfl
    · split
      · rfl
      · split <;> rfl
  unfold tcpAck
  dsimp only
  split
  · unfold tcpCleanRtoQueue
    dsimp only
    split <;> exact hrtt _
  · rfl

theorem finFlag_tcpSendNextLoop (n : ℕ) (s : TcpSock) (q : List SkBuff) :
    (tcpSendNextLoop env n s q).1.finFlag = s.finFlag := by
  induction n generalizing s q with
  | zero => rfl
  | succ n ih =>
    cases q with
    | nil => rfl
    | cons skb q => exact (ih _ q).trans (@finFlag_tcpTransmitSkb env s skb _)

theorem finFlag_tcpPending (s : TcpSock) (skb : SkBuff) (expected : Bool) :
    (tcpPending env s skb expected).finFlag = s.finFlag := by
  unfold tcpPending
  split
  · dsimp only
    split
    · have hrearm : ∀ s : TcpSock, (tcpRearmRtoTimer s).finFlag = s.finFlag := by
        intro s
        simp only [tcpRearmRtoTimer]
        split <;> rfl
      exact (hrearm _).trans (@finFlag_tcpSendNextLoop env _ _ _)
    · unfold tcpAckOrDelay
      dsimp only
      split
      · exact finFlag_tcpSendAck _
      · split <;> rfl
  · rfl

theorem finFlag_tcpFin (hst : s.state = .established) (th : Tcphdr) (expected : Bool)
    (hst' : (tcpFin env s th expected).state = .established) :
    (tcpFin env s th expected).finFlag = s.finFlag := by
  by_cases hfin : th.fin ∧ expected
  · have hrcv := congrArg RcvView.state (rcv_tcpFin_established env th expected hst)
    rw [if_pos hfin] at hrcv
    exact nomatch hrcv.symm.trans hst'
  · unfold tcpFin
    rw [if_neg hfin]

theorem finFlag_tcpDeliver (hst : s.state = .established) (skb : SkBuff)
    (hst' : (tcpDeliver env s skb).state = .established) :
    (tcpDeliver env s skb).finFlag = s.finFlag := by
  unfold tcpDeliver at hst' ⊢
  dsimp only at hst' ⊢
  rw [state_eq_of_rcv (rcv_tcpPending env _ skb _)] at hst'
  rw [finFlag_tcpPending]
  have htext : (tcpText env s skb).state = .established := (state_tcpText s skb).trans hst
  refine (finFlag_tcpFin htext skb.th _ hst').trans ?_
  unfold tcpText
  split
  · exact finFlag_tcpDataQueue s skb
  · rfl

/-- A segment that leaves an established connection established does not set TCP_FIN. -/
theorem finFlag_tcpSegmentArrives (hst : s.state = .established) (skb : SkBuff)
    (hst' : (tcpSegmentArrives env s skb).state = .established) :
    (tcpSegmentArrives env s skb).finFlag = s.finFlag := by
  have hack : (tcpAck s skb.th.ackSeq).1.state = .established :=
    (state_eq_of_rcv (rcv_tcpAck s _)).trans hst
  unfold tcpSegmentArrives at hst' ⊢
  rw [tcpAckField_established hst] at hst' ⊢
  dsimp only at hst' ⊢
  rw [tcpFinAcked_of_state env (.inl hack)] at hst' ⊢
  by_cases hv : tcpVerifySegment s skb
  · rw [if_neg (not_not.mpr hv)] at hst' ⊢
    by_cases hr : skb.th.rst
    · rw [if_pos hr] at hst'
      exact nomatch hst'
    · rw [if_neg hr] at hst' ⊢
      by_cases hok : ¬ skb.th.syn ∧ skb.th.ack ∧ (tcpAck s skb.th.ackSeq).2
      · rw [if_neg hok.1, if_neg (not_not.mpr hok.2.1), if_neg (not_not.mpr hok.2.2),
          if_neg (not_not.mpr rfl)] at hst' ⊢
        exact (finFlag_tcpDeliver hack skb hst').trans (finFlag_tcpAck s _)
      · split
        · rfl
        · next hsyn =>
          split
          · rfl
          · next ha =>
            rw [if_pos fun h => hok ⟨hsyn, not_not.mp ha, h⟩]
            exact finFlag_tcpAck s _
  · rw [if_pos hv]
    split
    · rfl
    · exact finFlag_tcpSendAck s

/-- **A segment arrives at an established connection**: it stays so, with TCP_FIN as it was, or the
peer has finished. -/
theorem tcpIn_established (hst : s.state = .established) (seg : Segment) :
    (tcpIn env s seg).state.peerDone ∨
      ((tcpIn env s seg).state = .established ∧ (tcpIn env s seg).finFlag = s.finFlag) := by
  have hplain : ∀ s : TcpSock, s.state = .established → ∀ skb,
      (tcpSegmentArrives env s skb).state.peerDone ∨
        ((tcpSegmentArrives env s skb).state = .established ∧
          (tcpSegmentArrives env s skb).finFlag = s.finFlag) := by
    intro s hst skb
    have hrcv := congrArg RcvView.state (rcv_tcpSegmentArrives_established env skb hst)
    by_cases hst' : (tcpSegmentArrives env s skb).state = .established
    · exact .inr ⟨hst', finFlag_tcpSegmentArrives hst skb hst'⟩
    · have hqueue : (if skb.th.psh ∨ 0 < skb.dlen then s.rcv.dataQueue skb else s.rcv).state =
          .established := by
        split
        · exact (state_dataQueue _ _).trans hst
        · exact hst
      dsimp only at hrcv
      change (tcpSegmentArrives env s skb).state = _ at hrcv
      refine .inl ?_
      split at hrcv
      · split at hrcv
        · exact .inl hrcv
        · exact absurd (hrcv.trans hqueue) hst'
      · split at hrcv
        · exact .inr hrcv
        · exact absurd (hrcv.trans hst) hst'
  unfold tcpIn tcpInputState
  rw [hst]
  dsimp only
  split
  · exact hplain s hst _
  · next fec _ =>
    have hfst : (tcpFecInput env s fec (tcpInitSegment seg)).1.state = .established :=
      (state_tcpFecInput s fec _).trans hst
    have hfin := @finFlag_tcpFecInput env s fec (tcpInitSegment seg)
    split
    · exact .inr ⟨hfst, hfin⟩
    · rw [← hfin]
      exact hplain _ hfst _

theorem spliced_of_late {v : RcvView} {sps : List Splice} (h : ∀ sp ∈ sps, sp.seq ≠ v.rcvNxt) :
    (v.spliced sps).receiveQueue = v.receiveQueue ∧ (v.spliced sps).state = v.state := by
  induction sps generalizing v with
  | nil => exact ⟨rfl, rfl⟩
  | cons sp sps ih =>
    have hq : (v.dataQueue sp.skb).rcvNxt = v.rcvNxt ∧
        (v.dataQueue sp.skb).receiveQueue = v.receiveQueue := by
      unfold RcvView.dataQueue
      split
      · exact ⟨rfl, rfl⟩
      · rw [if_neg (show sp.skb.seq ≠ v.rcvNxt from h sp List.mem_cons_self)]
        exact ⟨rfl, rfl⟩
    obtain ⟨hrq, hst⟩ := @ih (v.dataQueue sp.skb) fun x hx => by
      rw [hq.1]
      exact h x (List.mem_cons_of_mem _ hx)
    exact ⟨hrq.trans hq.2, hst.trans (state_dataQueue v sp.skb)⟩

/-- The segments that an arrival makes the FEC section reconstruct do not continue the stream. -/
def NoLateText (s : TcpSock) (seg : Segment) : Prop :=
  s.state = .closeWait → ∀ fec, s.fec = some fec →
    ∀ sp ∈ (tcpFecRx fec (tcpInitSegment seg)).2.1, sp.seq ≠ s.tcb.rcvNxt

/-- **A segment arrives after the peer has finished**: the queue stays as it is. -/
theorem tcpIn_closeWait (hst : s.state = .closeWait) {seg : Segment} (h : NoLateText s seg) :
    (tcpIn env s seg).state.peerDone ∧ (tcpIn env s seg).receiveQueue = s.receiveQueue := by
  have hplain : ∀ s : TcpSock, s.state = .closeWait → ∀ skb,
      (tcpSegmentArrives env s skb).state.peerDone ∧
        (tcpSegmentArrives env s skb).receiveQueue = s.receiveQueue := by
    intro s hst skb
    have hset := settled_tcpSegmentArrives env skb (.inl hst)
    exact ⟨hset.1, hset.2.2⟩
  unfold tcpIn tcpInputState
  rw [hst]
  dsimp only
  split
  · exact hplain s hst _
  · next fec hfec =>
    have hrcv := rcv_tcpFecInput env s fec (tcpInitSegment seg)
    obtain ⟨hrq, hsst⟩ := spliced_of_late (v := s.rcv) (h hst fec hfec)
    have hfst : (tcpFecInput env s fec (tcpInitSegment seg)).1.state = .closeWait :=
      (congrArg RcvView.state hrcv).trans (hsst.trans hst)
    have hfrq : (tcpFecInput env s fec (tcpInitSegment seg)).1.receiveQueue = s.receiveQueue :=
      (congrArg RcvView.receiveQueue hrcv).trans hrq
    split
    · exact ⟨.inl hfst, hfrq⟩
    · rw [← hfrq]
      exact hplain _ hfst _

/-- The connection is over. -/
def TcpState.over (st : TcpState) : Prop := st = .timeWait ∨ st = .closing

theorem over_of_move {st st' : TcpState} (hmove : TcpState.Move st st') (h : st.over) :
    st'.over := by
  cases hmove with
  | reset => exact .inl rfl
  | done => exact .inr rfl
  | crossedAcked => exact .inl rfl
  | _ => rcases h with h | h <;> exact nomatch h

end Marks

/-! ## Runs -/

/-- What the call that makes a step in an event returns, if one does. -/
def RxRun.result (r : RxRun) : RxEvent → Option ReadResult
  | .arrive _ => none
  | .read len =>
    match r.reader with
    | some _ => none
    | none => some (tcpRead r.sock len).2
  | .wake => r.reader.map fun rd => (tcpReceiveStep r.sock rd).2

/-- A run that remembers how many bytes came before the FIN, once it has been processed, and
whether a call has returned 0. -/
structure EofRun extends RxRun where
  before : Option ℕ
  zero : Bool

/-- The start of a run. -/
def EofRun.start (s : TcpSock) : EofRun where
  sock := s
  returned := []
  reader := none
  closed := false
  before := none
  zero := false

/-- One step. The FIN is what leads from ESTABLISHED to CLOSE_WAIT. -/
def EofRun.step (env : Env) (r : EofRun) (e : RxEvent) : EofRun :=
  let next := r.toRxRun.step env e
  { next with
    before := if r.sock.state = .established ∧ next.sock.state = .closeWait then
        some next.bytes.length
      else r.before
    zero := r.zero || (r.toRxRun.result e).any ReadResult.zero }

/-- The condition `C` holds at every event of a run. -/
def EofRun.Along (env : Env) (C : EofRun → RxEvent → Prop) : EofRun → List RxEvent → Prop
  | _, [] => True
  | r, e :: es => C r e ∧ EofRun.Along env C (r.step env e) es

/-- The FIN has been processed, and every byte before it has been returned. -/
def EofRun.AtEnd (r : EofRun) : Prop := ∃ n, r.before = some n ∧ n ≤ r.returned.length

/-- **The end of the stream is reported where it is**, and stays reported. -/
def EofSound (r : EofRun) (e : RxEvent) : Prop :=
  ∀ res, r.result e = some res → (r.sock.state = .established ∨ r.sock.state = .closeWait) →
    (res.zero ↔ r.AtEnd) ∧ (r.zero → r.sock.state = .closeWait → res.zero)

/-- A call that finds no byte finds TCP_PSH clear while the connection is established, and TCP_FIN
or TCP_PSH set once the FIN has been processed. -/
def MarksOk (r : EofRun) (e : RxEvent) : Prop :=
  (r.result e).isSome → (r.reader.map Reader.got).getD [] = [] → bytesOf r.sock.receiveQueue = [] →
    (r.sock.state = .established → ¬ r.sock.pushed) ∧
    (r.sock.state = .closeWait → r.sock.finFlag ∨ r.sock.pushed)

/-- The calls of `tcp_read` have room, and no text is reconstructed behind the FIN. -/
def EofEvent (r : EofRun) : RxEvent → Prop
  | .arrive seg => NoLateText r.sock seg
  | .read len => 0 < len
  | .wake => True

/-- The invariant of a run. -/
structure EofInv (r : EofRun) : Prop where
  room : ∀ rd, r.reader = some rd → 0 < rd.room
  main : (r.sock.state = .established ∧ r.sock.finFlag = false ∧ r.before = none) ∨
    (r.sock.state = .closeWait ∧ r.before = some r.bytes.length) ∨ r.sock.state.over
  zero : r.zero → r.AtEnd ∨ r.sock.state.over

section Run

variable {env : Env} {r : EofRun} {e : RxEvent}

/-- What a reader holds. -/
theorem length_bytes (r : RxRun) : r.bytes.length = r.returned.length +
    ((r.reader.map Reader.got).getD []).length + (bytesOf r.sock.receiveQueue).length := by
  unfold RxRun.bytes
  rw [List.length_append, List.length_append]

theorem EofInv.atEnd_iff (h : EofInv r)
    (hst : r.sock.state = .established ∨ r.sock.state = .closeWait) :
    r.AtEnd ↔ r.sock.state = .closeWait ∧ (r.reader.map Reader.got).getD [] = [] ∧
      bytesOf r.sock.receiveQueue = [] := by
  unfold EofRun.AtEnd
  rcases h.main with ⟨hest, -, hbefore⟩ | ⟨hcw, hbefore⟩ | hover
  · rw [hbefore, hest]
    simp
  · rw [hbefore, hcw, and_iff_right rfl]
    have hlen := length_bytes r.toRxRun
    constructor
    · rintro ⟨n, hn, hle⟩
      injection hn with hn
      exact ⟨List.length_eq_zero_iff.mp (by omega), List.length_eq_zero_iff.mp (by omega)⟩
    · rintro ⟨hgot, hq⟩
      rw [hgot, hq] at hlen
      exact ⟨_, rfl, hlen.le⟩
  · rcases hst with hst | hst <;> rw [hst] at hover <;> rcases hover with h | h <;> exact nomatch h

/-- What a step of a read returns, in terms of the marks. -/
theorem EofInv.zero_iff (h : EofInv r) (he : EofEvent r e)
    (hst : r.sock.state = .established ∨ r.sock.state = .closeWait) {res : ReadResult}
    (hres : r.result e = some res) :
    res.zero ↔ ((r.reader.map Reader.got).getD [] = [] ∧ bytesOf r.sock.receiveQueue = []) ∧
      (r.sock.pushed ∨ r.sock.finFlag) := by
  cases e with
  | arrive seg => exact nomatch hres
  | read len =>
    unfold RxRun.result at hres
    dsimp only at hres
    split at hres
    · exact nomatch hres
    · next hnone =>
      injection hres with hres
      rw [← hres, zero_tcpRead he hst, hnone]
      exact and_congr_left fun _ => (and_iff_right rfl).symm
  | wake =>
    unfold RxRun.result at hres
    obtain ⟨rd, hrd, hres⟩ := Option.map_eq_some_iff.mp hres
    rw [← hres, zero_tcpReceiveStep _ (h.room rd hrd), hrd]
    rfl

/-- **A step reports the end of the stream where it is** exactly when the marks are in order. -/
theorem EofInv.sound_iff (h : EofInv r) (he : EofEvent r e) : EofSound r e ↔ MarksOk r e := by
  constructor
  · intro hs hsome hgot hq
    obtain ⟨res, hres⟩ := Option.isSome_iff_exists.mp hsome
    constructor
    · intro hst hpushed
      have hz := (h.zero_iff he (.inl hst) hres).mpr ⟨⟨hgot, hq⟩, .inl hpushed⟩
      have hend := (hs res hres (.inl hst)).1.mp hz
      exact nomatch hst.symm.trans ((h.atEnd_iff (.inl hst)).mp hend).1
    · intro hst
      have hend := (h.atEnd_iff (.inr hst)).mpr ⟨hst, hgot, hq⟩
      have hz := (hs res hres (.inr hst)).1.mpr hend
      exact ((h.zero_iff he (.inr hst) hres).mp hz).2.symm
  · intro hm res hres hst
    have hsome : (r.result e).isSome := by rw [hres]; rfl
    have hiff : res.zero ↔ r.AtEnd := by
      rw [h.zero_iff he hst hres, h.atEnd_iff hst]
      constructor
      · rintro ⟨⟨hgot, hq⟩, hmark⟩
        refine ⟨?_, hgot, hq⟩
        rcases hst with hest | hcw
        · have hfin : r.sock.finFlag = false := by
            rcases h.main with ⟨-, hfin, -⟩ | ⟨hcw, -⟩ | hover
            · exact hfin
            · exact nomatch hest.symm.trans hcw
            · rw [hest] at hover
              rcases hover with h | h <;> exact nomatch h
          rcases hmark with hp | hf
          · exact absurd hp ((hm hsome hgot hq).1 hest)
          · exact absurd (hfin.symm.trans hf) Bool.false_ne_true
        · exact hcw
      · rintro ⟨hcw, hgot, hq⟩
        exact ⟨⟨hgot, hq⟩, ((hm hsome hgot hq).2 hcw).symm⟩
    refine ⟨hiff, fun hzero hcw => ?_⟩
    rcases h.zero hzero with hend | hover
    · exact hiff.mpr hend
    · rw [hcw] at hover
      rcases hover with h | h <;> exact nomatch h

/-- A step of a read: what the rest of the run sees of it. -/
structure ReadStep (r r' : RxRun) (res : ReadResult) : Prop where
  state : r'.sock.state = r.sock.state
  finFlag : r.sock.state = .established → r'.sock.finFlag = r.sock.finFlag
  bytes : r'.bytes = r.bytes
  returned : r.returned <+: r'.returned
  room : ∀ rd, r'.reader = some rd → 0 < rd.room

theorem ReadStep.afterRead {r : RxRun} {out : TcpSock × ReadResult}
    (hframe : ReadFrame r.sock out.1) (hbytes : r.returned ++ readBytes out = r.bytes)
    (hfin : r.sock.state = .established → out.1.finFlag = r.sock.finFlag)
    (hroom : ∀ rd, out.2 = .wait rd → 0 < rd.room) : ReadStep r (r.afterRead out) out.2 where
  state := by rw [r.sock_afterRead, hframe.1]
  finFlag := by rwa [r.sock_afterRead]
  bytes := RxRun.bytes_afterRead hbytes
  returned := by
    unfold RxRun.afterRead
    split
    · exact List.prefix_append _ _
    · exact List.prefix_rfl
  room := by
    unfold RxRun.afterRead
    split
    · exact fun rd hrd => nomatch hrd
    · next rd' hout =>
      intro rd hrd
      injection hrd with hrd
      rw [← hrd]
      exact hroom rd' hout

theorem finFlag_tcpReceiveStep (s : TcpSock) (rd : Reader) :
    (tcpReceiveStep s rd).1.finFlag = s.finFlag := by
  have hreturn : ∀ (s : TcpSock) (got : List UInt8),
      (tcpReceiveReturn s got).1.finFlag = s.finFlag := by
    intro s got
    unfold tcpReceiveReturn tcpRearmUserTimeout
    dsimp only
    split <;> rfl
  unfold tcpReceiveStep
  split
  · exact hreturn _ _
  · dsimp only
    split
    · exact hreturn _ _
    · split
      · exact hreturn _ _
      · split
        · split
          · rfl
          · exact hreturn _ _
        · rfl

theorem readStep_of_result {r : RxRun} {res : ReadResult} (hres : r.result e = some res) :
    ReadStep r (r.step env e) res := by
  cases e with
  | arrive seg => exact nomatch hres
  | read len =>
    unfold RxRun.result at hres
    unfold RxRun.step
    dsimp only at hres ⊢
    cases hnone : r.reader with
    | some rd =>
      rw [hnone] at hres
      exact nomatch hres
    | none =>
      rw [hnone] at hres
      injection hres with hres
      obtain ⟨hframe, hbytes⟩ := tcpRead_spec r.sock len
      rw [← hres]
      refine .afterRead hframe ?_ (fun hst => ?_) fun rd hrd => room_of_tcpRead hrd
      · rw [hbytes, RxRun.bytes, hnone]
        simp
      · unfold tcpRead
        rw [hst]
        exact finFlag_tcpReceiveStep _ _
  | wake =>
    unfold RxRun.result at hres
    obtain ⟨rd, hrd, hres⟩ := Option.map_eq_some_iff.mp hres
    obtain ⟨hframe, hbytes⟩ := tcpReceiveStep_spec r.sock rd
    unfold RxRun.step
    dsimp only
    rw [hrd, ← hres]
    refine .afterRead hframe ?_ (fun _ => finFlag_tcpReceiveStep _ _) fun rd' hrd' =>
      room_of_tcpReceiveStep hrd'
    rw [hbytes, RxRun.bytes, hrd]
    simp

/-- An event in which nothing arrives and no read makes a step. -/
theorem step_of_no_result {r : RxRun} (hres : r.result e = none) (he : ∀ seg, e ≠ .arrive seg) :
    r.step env e = r := by
  cases e with
  | arrive seg => exact absurd rfl (he seg)
  | read len =>
    unfold RxRun.result at hres
    unfold RxRun.step
    dsimp only at hres ⊢
    cases hrd : r.reader with
    | some rd => rfl
    | none =>
      rw [hrd] at hres
      exact nomatch hres
  | wake =>
    unfold RxRun.result at hres
    unfold RxRun.step
    rw [Option.map_eq_none_iff.mp hres]

theorem over_ne {st : TcpState} (h : st.over) : st ≠ .established ∧ st ≠ .closeWait := by
  rcases h with h | h <;> rw [h] <;> exact ⟨nofun, nofun⟩

/-- The number of bytes before the FIN is recorded once. -/
theorem EofInv.atEnd_step (h : EofInv r) (hend : r.AtEnd)
    (hret : r.returned <+: (r.step env e).returned) : (r.step env e).AtEnd := by
  obtain ⟨n, hn, hle⟩ := hend
  refine ⟨n, ?_, hle.trans hret.length_le⟩
  have hne : r.sock.state ≠ .established := by
    rcases h.main with ⟨-, -, hnone⟩ | ⟨hcw, -⟩ | hover
    · exact nomatch hnone.symm.trans hn
    · rw [hcw]
      exact nofun
    · exact (over_ne hover).1
  change (if _ then _ else r.before) = some n
  rw [if_neg fun h => hne h.1, hn]

/-- **A step of a read keeps the invariant.** -/
theorem EofInv.read (h : EofInv r) (he : EofEvent r e) (hm : MarksOk r e) {res : ReadResult}
    (hres : r.result e = some res) : EofInv (r.step env e) := by
  have hstep := @readStep_of_result env e r.toRxRun res hres
  have hst : (r.step env e).sock.state = r.sock.state := hstep.state
  have hbefore : (r.step env e).before = r.before := by
    change (if _ then _ else r.before) = r.before
    refine if_neg fun hc => ?_
    have hclash := hc.2
    rw [hstep.state, hc.1] at hclash
    exact nomatch hclash
  refine ⟨hstep.room, ?_, fun hzero => ?_⟩
  · rw [hst, hbefore]
    refine h.main.imp (fun hest => ⟨hest.1, ?_, hest.2.2⟩) (.imp_left fun hcw => ⟨hcw.1, ?_⟩)
    · exact (hstep.finFlag hest.1).trans hest.2.1
    · rw [hcw.2]
      exact congrArg (some ∘ List.length) hstep.bytes.symm
  · have hkeep : r.AtEnd → (r.step env e).AtEnd := fun hend => h.atEnd_step hend hstep.returned
    rw [hst]
    change (r.zero || (r.result e).any ReadResult.zero) = true at hzero
    rcases Bool.or_eq_true_iff.mp hzero with hz | hz
    · exact (h.zero hz).imp_left hkeep
    · rw [hres] at hz
      by_cases hopen : r.sock.state = .established ∨ r.sock.state = .closeWait
      · exact .inl (hkeep (((h.sound_iff he).mpr hm res hres hopen).1.mp hz))
      · rcases h.main with hest | hcw | hover
        · exact absurd (.inl hest.1) hopen
        · exact absurd (.inr hcw.1) hopen
        · exact .inr hover

/-- **An arriving segment keeps the invariant.** -/
theorem EofInv.arrive (h : EofInv r) {seg : Segment} (hlate : NoLateText r.sock seg) :
    EofInv (r.step env (.arrive seg)) := by
  have hzero : (r.step env (.arrive seg)).zero = r.zero := Bool.or_false _
  have hbefore : (r.step env (.arrive seg)).before =
      if r.sock.state = .established ∧ (tcpIn env r.sock seg).state = .closeWait then
        some (r.step env (.arrive seg)).bytes.length
      else r.before := rfl
  refine ⟨h.room, ?_, fun hz => ?_⟩
  · change ((tcpIn env r.sock seg).state = _ ∧ (tcpIn env r.sock seg).finFlag = false ∧ _) ∨
      ((tcpIn env r.sock seg).state = _ ∧ _) ∨ (tcpIn env r.sock seg).state.over
    rw [hbefore]
    rcases h.main with ⟨hest, hfin, hnone⟩ | ⟨hcw, hsome⟩ | hover
    · rcases @tcpIn_established env _ hest seg with (hcw' | htw) | ⟨hest', hfin'⟩
      · exact .inr (.inl ⟨hcw', if_pos ⟨hest, hcw'⟩⟩)
      · exact .inr (.inr (.inl htw))
      · have hne : (tcpIn env r.sock seg).state ≠ .closeWait := by
          rw [hest']
          exact nofun
        refine .inl ⟨hest', hfin'.trans hfin, ?_⟩
        rw [if_neg fun hc => hne hc.2, hnone]
    · obtain ⟨hcw' | htw, hrq⟩ := @tcpIn_closeWait env _ hcw _ hlate
      · have hne : r.sock.state ≠ .established := by
          rw [hcw]
          exact nofun
        refine .inr (.inl ⟨hcw', ?_⟩)
        rw [if_neg fun hc => hne hc.1, hsome, length_bytes, length_bytes]
        change _ = some (_ + _ + (bytesOf (tcpIn env r.sock seg).receiveQueue).length)
        rw [hrq]
        rfl
      · exact .inr (.inr (.inl htw))
    · exact .inr (.inr ((moves_tcpIn r.sock seg).closed (fun _ _ => over_of_move) hover))
  · rw [hzero] at hz
    exact (h.zero hz).imp (fun hend => h.atEnd_step hend List.prefix_rfl)
      ((moves_tcpIn r.sock seg).closed fun _ _ => over_of_move)

theorem EofInv.step (h : EofInv r) (he : EofEvent r e) (hm : MarksOk r e) :
    EofInv (r.step env e) := by
  cases hres : r.result e with
  | some res => exact h.read he hm hres
  | none =>
    by_cases harrive : ∃ seg, e = .arrive seg
    · obtain ⟨seg, rfl⟩ := harrive
      exact h.arrive he
    · have hsame := @step_of_no_result env e r.toRxRun hres fun seg hseg => harrive ⟨seg, hseg⟩
      have hr : r.step env e = r := by
        unfold EofRun.step
        rw [hsame, hres]
        dsimp only
        rw [if_neg fun hc => TcpState.noConfusion (hc.1.symm.trans hc.2), Option.any_none,
          Bool.or_false]
      rwa [hr]

/-- A run reports the end of the stream where it is when it does so at every event. -/
theorem EofInv.along_iff (h : EofInv r) {events : List RxEvent}
    (he : EofRun.Along env EofEvent r events) :
    EofRun.Along env EofSound r events ↔ EofRun.Along env MarksOk r events := by
  induction events generalizing r with
  | nil => exact Iff.rfl
  | cons e es ih =>
    unfold EofRun.Along at he ⊢
    rw [h.sound_iff he.1]
    exact and_congr_right fun hm => ih (h.step he.1 hm) he.2

end Run

theorem eofInv_start {s : TcpSock} (hst : s.state = .established) (hfin : s.finFlag = false) :
    EofInv (EofRun.start s) where
  room := fun _ h => nomatch h
  main := .inl ⟨hst, hfin, rfl⟩
  zero := fun h => nomatch h

/-- **End-of-file is reported exactly at the FIN, and stays**, in a run of segments and reads on an
established socket, exactly when every call that finds no byte finds TCP_PSH clear in ESTABLISHED,
and TCP_FIN or TCP_PSH set in CLOSE_WAIT. -/
theorem eof_iff (env : Env) (s : TcpSock) (hst : s.state = .established)
    (hfin : s.finFlag = false) (events : List RxEvent)
    (he : EofRun.Along env EofEvent (EofRun.start s) events) :
    EofRun.Along env EofSound (EofRun.start s) events ↔
      EofRun.Along env MarksOk (EofRun.start s) events :=
  (eofInv_start hst hfin).along_iff he

/-- A segment with the text `payload` and a FIN. -/
def finAt (seq : UInt32) (payload : List UInt8) : Segment :=
  ⟨{ (segmentAt seq payload).th with fin := true }, payload⟩

/-- A segment with PSH and no text. -/
def pushAt (seq : UInt32) : Segment := ⟨{ (segmentAt seq []).th with psh := true }, []⟩

/-- The text before the FIN, then the end of the stream. -/
theorem eof_iff_text :
    EofRun.Along ⟨fun _ => 0, fun _ _ => []⟩ EofSound (EofRun.start sockAt200)
      [.arrive (finAt 201 [1, 2]), .read 8, .read 8] := by
  refine (eof_iff _ sockAt200 rfl rfl _ ?_).mpr ⟨?_, ?_, ?_, trivial⟩
  · have hlen : 0 < 8 := by decide
    exact ⟨fun h => (nomatch h), hlen, hlen, trivial⟩
  · exact fun h => nomatch h
  · exact fun _ _ _ => ⟨by decide +kernel, by decide +kernel⟩
  · exact fun _ _ _ => ⟨by decide +kernel, by decide +kernel⟩

/-- **The end of the stream is reported once, and before it is reached**: the second call after the
FIN gets `-EAGAIN`, and a segment with PSH and no text makes a call return 0 while the connection is
established. -/
theorem eof_twice :
    ¬ EofRun.Along ⟨fun _ => 0, fun _ _ => []⟩ EofSound
        (EofRun.start { sockAt200 with nonblock := true })
        [.arrive (finAt 201 []), .read 8, .read 8] ∧
      ¬ EofRun.Along ⟨fun _ => 0, fun _ _ => []⟩ EofSound
        (EofRun.start { sockAt200 with nonblock := true }) [.arrive (pushAt 201), .read 8] := by
  constructor
  · intro h
    have hlast := h.2.2.1 (.done eAgain []) (by decide +kernel) (.inr (by decide +kernel))
    exact absurd (hlast.2 (by decide +kernel) (by decide +kernel)) (by decide)
  · intro h
    have hzero := (h.2.1 (.done 0 []) (by decide +kernel) (.inl (by decide +kernel))).1.mp rfl
    obtain ⟨n, hn, -⟩ := hzero
    have hnone : (EofRun.step ⟨fun _ => 0, fun _ _ => []⟩
        (EofRun.start { sockAt200 with nonblock := true }) (.arrive (pushAt 201))).before =
        none := by decide +kernel
    exact nomatch hnone.symm.trans hn

end LvlIp.Tcp
