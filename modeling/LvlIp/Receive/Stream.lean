import LvlIp.Foundations.Stream
import LvlIp.Receive.View

/-!
# The plain receive path delivers the stream

A socket without FEC receives segments of a fixed stream, in any order and cut in any way, while a
reader takes bytes from the receive queue. The bytes already taken, followed by the bytes in the
queue, are a prefix of the stream: the part up to `rcv_nxt` until a FIN or an RST is processed.

The invariant (`RxInv`) says nothing about the order of the out-of-order queue. Its buffers may
overlap and be stale; all that matters is that each holds the stream's bytes at its sequence
number, so that whatever `tcp_consume_ofo_queue` moves extends the prefix.
-/

namespace LvlIp.Tcp

open Fec Foundations

/-- The bytes held by a queue. -/
def bytesOf (q : List SkBuff) : List UInt8 := q.flatMap SkBuff.payload

@[simp]
theorem bytesOf_nil : bytesOf [] = [] := rfl

@[simp]
theorem bytesOf_cons (skb : SkBuff) (q : List SkBuff) :
    bytesOf (skb :: q) = skb.payload ++ bytesOf q := rfl

@[simp]
theorem bytesOf_append (p q : List SkBuff) : bytesOf (p ++ q) = bytesOf p ++ bytesOf q :=
  List.flatMap_append

/-! ## The queues -/

section Queues

variable {stream : List UInt8} {base : UInt32}

/-- The buffer holds the stream's bytes at its sequence number. -/
def TrueAt (stream : List UInt8) (base : UInt32) (skb : SkBuff) : Prop :=
  SliceAt stream (seqOff base skb.seq) skb.payload

theorem TrueAt.extend {skb : SkBuff} {n : ℕ} (h : TrueAt stream base skb)
    (hL : stream.length < 2 ^ 32) (hn : n ≤ stream.length) (hseq : skb.seq = seqAt base n) :
    n + skb.dlen ≤ stream.length ∧
      stream.take n ++ skb.payload = stream.take (n + skb.dlen) := by
  unfold TrueAt at h
  rw [hseq, seqOff_seqAt base (by omega)] at h
  refine ⟨?_, h.take_append⟩
  by_cases hne : skb.payload = []
  · simpa [SkBuff.dlen, hne] using hn
  · exact h.length_le hne

/-- **Draining the out-of-order queue extends the prefix.** -/
theorem tcpConsumeLoop_extends (hL : stream.length < 2 ^ 32) {n : ℕ} (hn : n ≤ stream.length)
    {ofo : List SkBuff} (hofo : ∀ skb ∈ ofo, TrueAt stream base skb) :
    ∃ n' ≤ stream.length, (tcpConsumeLoop (seqAt base n) ofo).2.2 = seqAt base n' ∧
      stream.take n ++ bytesOf (tcpConsumeLoop (seqAt base n) ofo).1 = stream.take n' ∧
      ∀ skb ∈ (tcpConsumeLoop (seqAt base n) ofo).2.1, skb ∈ ofo := by
  induction ofo generalizing n with
  | nil => exact ⟨n, hn, rfl, by simp [tcpConsumeLoop], by simp [tcpConsumeLoop]⟩
  | cons skb q ih =>
    rw [tcpConsumeLoop]
    split
    · next hseq =>
      have hskb := hofo skb List.mem_cons_self
      obtain ⟨hle, htake⟩ := hskb.extend hL hn hseq.symm
      obtain ⟨n', hn', hnxt, hbytes, hmem⟩ := ih hle fun x hx => hofo x (List.mem_cons_of_mem _ hx)
      rw [seqAt_add]
      refine ⟨n', hn', hnxt, ?_, fun x hx => List.mem_cons_of_mem _ (hmem x hx)⟩
      rw [bytesOf_cons, ← List.append_assoc, htake, hbytes]
    · exact ⟨n, hn, rfl, by simp, fun x hx => hx⟩

theorem mem_tcpDataInsertOrdered {q : List SkBuff} {skb x : SkBuff}
    (h : x ∈ tcpDataInsertOrdered q skb) : x = skb ∨ x ∈ q := by
  induction q with
  | nil => exact .inl (List.mem_singleton.mp h)
  | cons next q ih =>
    have hstep : x ∈ next :: tcpDataInsertOrdered q skb → x = skb ∨ x ∈ next :: q := by
      intro h
      rcases List.mem_cons.mp h with rfl | h
      · exact .inr List.mem_cons_self
      · exact (ih h).imp_right (List.mem_cons_of_mem _)
    rw [tcpDataInsertOrdered] at h
    split at h
    · split at h
      · exact hstep h
      · exact List.mem_cons.mp h
    · split at h
      · exact .inr h
      · exact hstep h

/-- **Queueing a true segment** extends the prefix and keeps the out-of-order queue true. -/
theorem dataQueue_extends (hL : stream.length < 2 ^ 32) {v : RcvView} {pre : List UInt8} {n : ℕ}
    (hn : n ≤ stream.length) (hnxt : v.rcvNxt = seqAt base n)
    (hpre : pre ++ bytesOf v.receiveQueue = stream.take n)
    (hofo : ∀ skb ∈ v.ofoQueue, TrueAt stream base skb) {skb : SkBuff}
    (hskb : TrueAt stream base skb) :
    ∃ n' ≤ stream.length, (v.dataQueue skb).rcvNxt = seqAt base n' ∧
      pre ++ bytesOf (v.dataQueue skb).receiveQueue = stream.take n' ∧
      ∀ x ∈ (v.dataQueue skb).ofoQueue, TrueAt stream base x := by
  unfold RcvView.dataQueue
  split
  · exact ⟨n, hn, hnxt, hpre, hofo⟩
  · split
    · next hseq =>
      obtain ⟨hle, htake⟩ := hskb.extend hL hn (hseq.trans hnxt)
      obtain ⟨n', hn', hnxt', hbytes, hmem⟩ := tcpConsumeLoop_extends hL hle hofo
      rw [hnxt, seqAt_add]
      refine ⟨n', hn', hnxt', ?_, fun x hx => hofo x (hmem x hx)⟩
      rw [bytesOf_append, bytesOf_cons, ← List.append_assoc, hpre, ← List.append_assoc, htake,
        hbytes]
    · refine ⟨n, hn, hnxt, hpre, fun x hx => ?_⟩
      rcases mem_tcpDataInsertOrdered hx with rfl | hx
      · exact hskb
      · exact hofo x hx

theorem bytesOf_tcpDequeueLoop (q : List SkBuff) (userlen : ℕ) :
    (tcpDequeueLoop q userlen).1 ++ bytesOf (tcpDequeueLoop q userlen).2.1 = bytesOf q := by
  induction q generalizing userlen with
  | nil => rfl
  | cons skb q ih =>
    rw [tcpDequeueLoop]
    split
    · rfl
    · split
      · rw [bytesOf_cons, ← List.append_assoc, List.take_append_drop, bytesOf_cons]
      · rw [List.append_assoc, ih, bytesOf_cons]

end Queues

/-! ## Runs -/

/-- A socket, its reader, and what the reader has been given. `closed` records that a FIN or an
RST has been processed. -/
structure RxRun where
  sock : TcpSock
  returned : List UInt8
  reader : Option Reader
  closed : Bool

/-- What can happen: a segment arrives, `tcp_read` is called, a sleeping `tcp_read` is woken. -/
inductive RxEvent
  | arrive (seg : Segment)
  | read (len : ℕ)
  | wake

/-- The outcome of a step of `tcp_read`. -/
def RxRun.afterRead (r : RxRun) (res : TcpSock × ReadResult) : RxRun :=
  match res.2 with
  | .done _ bytes => { r with sock := res.1, returned := r.returned ++ bytes, reader := none }
  | .wait rd => { r with sock := res.1, reader := some rd }

/-- One step. A socket has one reader: a call while another one sleeps waits outside. -/
def RxRun.step (env : Env) (r : RxRun) : RxEvent → RxRun
  | .arrive seg => { r with
      sock := tcpIn env r.sock seg
      closed := r.closed || tcpProcessesClose env r.sock (tcpInitSegment seg) }
  | .read len =>
    match r.reader with
    | some _ => r
    | none => r.afterRead (tcpRead r.sock len)
  | .wake =>
    match r.reader with
    | some rd => r.afterRead (tcpReceiveStep r.sock rd)
    | none => r

/-- The bytes taken so far, those a sleeping reader holds, and those in the receive queue. -/
def RxRun.bytes (r : RxRun) : List UInt8 :=
  r.returned ++ (r.reader.map Reader.got).getD [] ++ bytesOf r.sock.receiveQueue

/-- A segment of the stream: true bytes, and a FIN only at the end. -/
def SegmentOf (stream : List UInt8) (irs : UInt32) (seg : Segment) : Prop :=
  SliceAt stream (seqOff (irs + 1) seg.th.seq) seg.payload ∧
    (seg.th.fin → seqOff (irs + 1) seg.th.seq + seg.payload.length = stream.length)

/-- The invariant of the receive path. -/
structure RxInv (stream : List UInt8) (irs : UInt32) (r : RxRun) : Prop where
  fec : r.sock.fec = none
  main : (r.closed = false ∧ r.sock.state = .established ∧
      (∃ n ≤ stream.length, r.sock.tcb.rcvNxt = seqAt (irs + 1) n ∧ r.bytes = stream.take n) ∧
      ∀ skb ∈ r.sock.ofoQueue, TrueAt stream (irs + 1) skb) ∨
    (r.closed = true ∧ r.sock.state.peerDone ∧ r.bytes <+: stream)

section Reading

/-- What a step of `tcp_read` leaves alone. -/
def ReadFrame (s s' : TcpSock) : Prop :=
  s'.state = s.state ∧ s'.fec = s.fec ∧ s'.tcb = s.tcb ∧ s'.ofoQueue = s.ofoQueue

theorem readFrame_refl (s : TcpSock) : ReadFrame s s := ⟨rfl, rfl, rfl, rfl⟩

theorem readFrame_tcpRearmUserTimeout (s : TcpSock) : ReadFrame s (tcpRearmUserTimeout s) := by
  unfold tcpRearmUserTimeout
  split <;> exact ⟨rfl, rfl, rfl, rfl⟩

theorem receiveQueue_tcpRearmUserTimeout (s : TcpSock) :
    (tcpRearmUserTimeout s).receiveQueue = s.receiveQueue :=
  congrArg RcvView.receiveQueue (rcv_tcpRearmUserTimeout s)

/-- The bytes a step of a read accounts for: those it returns or holds, and those left queued. -/
def readBytes (res : TcpSock × ReadResult) : List UInt8 :=
  (match res.2 with
    | .done _ bytes => bytes
    | .wait rd => rd.got) ++ bytesOf res.1.receiveQueue

theorem tcpDataDequeue_spec (s : TcpSock) (userlen : ℕ) :
    ReadFrame s (tcpDataDequeue s userlen).1 ∧
      (tcpDataDequeue s userlen).2 ++ bytesOf (tcpDataDequeue s userlen).1.receiveQueue =
        bytesOf s.receiveQueue :=
  ⟨⟨rfl, rfl, rfl, rfl⟩, bytesOf_tcpDequeueLoop s.receiveQueue userlen⟩

theorem tcpReceiveReturn_spec {s s' : TcpSock} (h : ReadFrame s s') (got : List UInt8) :
    ReadFrame s (tcpReceiveReturn s' got).1 ∧
      readBytes (tcpReceiveReturn s' got) = got ++ bytesOf s'.receiveQueue := by
  obtain ⟨h1, h2, h3, h4⟩ := readFrame_tcpRearmUserTimeout s'
  refine ⟨⟨h1.trans h.1, h2.trans h.2.1, h3.trans h.2.2.1, h4.trans h.2.2.2⟩, ?_⟩
  simp only [tcpReceiveReturn, readBytes, receiveQueue_tcpRearmUserTimeout]

/-- **A step of a read** moves bytes from the queue to the reader, in order. -/
theorem tcpReceiveStep_spec (s : TcpSock) (rd : Reader) :
    ReadFrame s (tcpReceiveStep s rd).1 ∧
      readBytes (tcpReceiveStep s rd) = rd.got ++ bytesOf s.receiveQueue := by
  unfold tcpReceiveStep
  split
  · exact tcpReceiveReturn_spec (readFrame_refl s) rd.got
  · obtain ⟨hframe, hbytes⟩ := tcpDataDequeue_spec s rd.room
    generalize tcpDataDequeue s rd.room = d at hframe hbytes
    obtain ⟨s', bytes⟩ := d
    dsimp only at hframe hbytes ⊢
    rw [← hbytes, ← List.append_assoc]
    split
    · have hframe' : ReadFrame s { s' with pshFlag := false } := hframe
      exact tcpReceiveReturn_spec hframe' _
    · split
      · exact tcpReceiveReturn_spec hframe _
      · split
        · split
          · next hnil => exact ⟨hframe, by simp [readBytes, hnil]⟩
          · exact tcpReceiveReturn_spec hframe _
        · exact ⟨hframe, rfl⟩

theorem tcpRead_spec (s : TcpSock) (len : ℕ) :
    ReadFrame s (tcpRead s len).1 ∧ readBytes (tcpRead s len) = bytesOf s.receiveQueue := by
  unfold tcpRead
  split
  · exact ⟨readFrame_refl s, rfl⟩
  all_goals first
    | exact tcpReceiveStep_spec s { got := [], room := len }
    | exact ⟨readFrame_refl s, rfl⟩
    | skip
  split
  · exact ⟨⟨rfl, rfl, rfl, rfl⟩, rfl⟩
  · exact tcpReceiveStep_spec s { got := [], room := len }

end Reading

section Run

variable {stream : List UInt8} {irs : UInt32} {env : Env}

theorem RxRun.sock_afterRead (r : RxRun) (res : TcpSock × ReadResult) :
    (r.afterRead res).sock = res.1 := by
  unfold RxRun.afterRead
  split <;> rfl

theorem RxRun.bytes_afterRead {r : RxRun} {res : TcpSock × ReadResult}
    (h : r.returned ++ readBytes res = r.bytes) : (r.afterRead res).bytes = r.bytes := by
  rw [← h]
  unfold RxRun.afterRead RxRun.bytes readBytes
  split <;> simp

theorem RxInv.afterRead {r : RxRun} (h : RxInv stream irs r) {res : TcpSock × ReadResult}
    (hframe : ReadFrame r.sock res.1)
    (hbytes : r.returned ++ readBytes res = r.bytes) : RxInv stream irs (r.afterRead res) := by
  obtain ⟨hstate, hfec, htcb, hofo⟩ := hframe
  have hclosed : (r.afterRead res).closed = r.closed := by
    unfold RxRun.afterRead
    split <;> rfl
  have hsock := r.sock_afterRead res
  refine ⟨by rw [hsock, hfec, h.fec], ?_⟩
  rw [hsock, hclosed, RxRun.bytes_afterRead hbytes, hstate, htcb, hofo]
  exact h.main

theorem RxInv.read {r : RxRun} (h : RxInv stream irs r) (len : ℕ) :
    RxInv stream irs (r.step env (.read len)) := by
  simp only [RxRun.step]
  split
  · exact h
  · next hnone =>
    obtain ⟨hframe, hbytes⟩ := tcpRead_spec r.sock len
    refine h.afterRead hframe ?_
    rw [hbytes, RxRun.bytes, hnone]
    simp

theorem RxInv.wake {r : RxRun} (h : RxInv stream irs r) :
    RxInv stream irs (r.step env .wake) := by
  simp only [RxRun.step]
  split
  · next rd hrd =>
    obtain ⟨hframe, hbytes⟩ := tcpReceiveStep_spec r.sock rd
    refine h.afterRead hframe ?_
    rw [hbytes, RxRun.bytes, hrd]
    simp
  · exact h

theorem tcpIn_eq_tcpSegmentArrives {s : TcpSock} (hfec : s.fec = none)
    (hst : s.state = .established ∨ s.state.peerDone) (seg : Segment) :
    tcpIn env s seg = tcpSegmentArrives env s (tcpInitSegment seg) := by
  unfold tcpIn tcpInputState
  rw [hfec]
  rcases hst with h | h | h <;> rw [h]

theorem tcpProcessesClose_established {s : TcpSock} (hst : s.state = .established)
    (skb : SkBuff) :
    tcpProcessesClose env s skb = (tcpVerifySegment s skb && skb.th.rst ||
      tcpProcessesText s skb && skb.th.fin && skb.seq == s.tcb.rcvNxt) := by
  have hst' : (tcpAck s skb.th.ackSeq).1.state = .established :=
    (state_eq_of_rcv (rcv_tcpAck s _)).trans hst
  unfold tcpProcessesClose tcpProcessesText
  dsimp only
  rw [tcpAckField_established hst, tcpFinAcked_of_state env (.inl hst')]
  cases tcpVerifySegment s skb <;> cases skb.th.rst <;> cases skb.th.syn <;> simp

/-- The invariant while the peer has not finished, read off the receive side. -/
theorem RxInv.of_rcv {r : RxRun} {v : RcvView} (hv : r.sock.rcv = v) (hfec : v.fec = none)
    (hc : r.closed = false) (hst : v.state = .established) {n : ℕ} (hn : n ≤ stream.length)
    (hnxt : v.rcvNxt = seqAt (irs + 1) n)
    (hbytes : r.returned ++ (r.reader.map Reader.got).getD [] ++ bytesOf v.receiveQueue =
      stream.take n) (hofo : ∀ skb ∈ v.ofoQueue, TrueAt stream (irs + 1) skb) :
    RxInv stream irs r := by
  subst hv
  exact ⟨hfec, .inl ⟨hc, hst, ⟨n, hn, hnxt, hbytes⟩, hofo⟩⟩

/-- The invariant once the peer has finished, read off the receive side. -/
theorem RxInv.of_settled {r : RxRun} {v : RcvView} (hv : r.sock.rcv = v) (hfec : v.fec = none)
    (hc : r.closed = true) (hst : v.state.peerDone)
    (hbytes : r.returned ++ (r.reader.map Reader.got).getD [] ++ bytesOf v.receiveQueue <+:
      stream) : RxInv stream irs r := by
  subst hv
  exact ⟨hfec, .inr ⟨hc, hst, hbytes⟩⟩

/-- **An arriving segment of the stream keeps the invariant.** -/
theorem RxInv.arrive (hL : stream.length < 2 ^ 32) {r : RxRun} (h : RxInv stream irs r)
    {seg : Segment} (hseg : SegmentOf stream irs seg) :
    RxInv stream irs (r.step env (.arrive seg)) := by
  set skb := tcpInitSegment seg with hskb
  have htrue : TrueAt stream (irs + 1) skb := hseg.1
  obtain ⟨hfec, ⟨hc, hst, ⟨n, hn, hnxt, hbytes⟩, hofo⟩ | ⟨hc, hst, hbytes⟩⟩ := h
  · have hrcv := rcv_tcpSegmentArrives_established env skb hst
    rw [hskb, ← tcpIn_eq_tcpSegmentArrives hfec (.inl hst) seg, ← hskb] at hrcv
    have hclosed : (r.step env (.arrive seg)).closed = tcpProcessesClose env r.sock skb := by
      simp only [RxRun.step, hc, Bool.false_or, hskb]
    rw [tcpProcessesClose_established hst] at hclosed
    -- the text of the segment, if it is processed at all
    obtain ⟨n', hn', hnxt', hbytes', hofo'⟩ : ∃ n' ≤ stream.length,
        (if skb.th.psh ∨ 0 < skb.dlen then r.sock.rcv.dataQueue skb else r.sock.rcv).rcvNxt =
          seqAt (irs + 1) n' ∧
        r.returned ++ (r.reader.map Reader.got).getD [] ++ bytesOf
          (if skb.th.psh ∨ 0 < skb.dlen then r.sock.rcv.dataQueue skb
            else r.sock.rcv).receiveQueue = stream.take n' ∧
        ∀ x ∈ (if skb.th.psh ∨ 0 < skb.dlen then r.sock.rcv.dataQueue skb
          else r.sock.rcv).ofoQueue, TrueAt stream (irs + 1) x := by
      split
      · exact dataQueue_extends hL hn hnxt hbytes hofo htrue
      · exact ⟨n, hn, hnxt, hbytes, hofo⟩
    have hview : ∀ v, v = (if skb.th.psh ∨ 0 < skb.dlen then r.sock.rcv.dataQueue skb
        else r.sock.rcv) → v.fec = none ∧ v.state = .established := by
      rintro v rfl
      split
      · exact ⟨(fec_dataQueue _ _).trans hfec, (state_dataQueue _ _).trans hst⟩
      · exact ⟨hfec, hst⟩
    generalize (if skb.th.psh ∨ 0 < skb.dlen then r.sock.rcv.dataQueue skb
      else r.sock.rcv) = v at *
    obtain ⟨hvfec, hvst⟩ := hview v rfl
    by_cases htext : tcpProcessesText r.sock skb
    · rw [if_pos htext] at hrcv
      by_cases hfin : skb.th.fin ∧ skb.seq = r.sock.tcb.rcvNxt
      · rw [if_pos hfin] at hrcv
        refine RxInv.of_settled hrcv hvfec ?_ (.inl rfl) ?_
        · simp [hclosed, htext, hfin.1, hfin.2]
        · exact hbytes' ▸ List.take_prefix n' stream
      · rw [if_neg hfin] at hrcv
        refine RxInv.of_rcv hrcv hvfec ?_ hvst hn' hnxt' hbytes' hofo'
        simp only [hclosed, htext, Bool.true_and]
        have hrst : skb.th.rst = false := by
          simp only [tcpProcessesText, Bool.and_eq_true, Bool.not_eq_true'] at htext
          exact htext.1.1.1.2
        simpa [hrst] using hfin
    · rw [if_neg htext] at hrcv
      by_cases hrst : tcpVerifySegment r.sock skb ∧ skb.th.rst
      · rw [if_pos hrst] at hrcv
        have hpre : r.bytes <+: stream := hbytes ▸ List.take_prefix n stream
        refine RxInv.of_settled hrcv hfec ?_ (.inr rfl) hpre
        simp [hclosed, hrst.1, hrst.2]
      · rw [if_neg hrst] at hrcv
        refine RxInv.of_rcv hrcv hfec ?_ hst hn hnxt hbytes hofo
        simp only [hclosed, htext, Bool.false_and, Bool.or_false]
        simpa using hrst
  · have hset := settled_tcpSegmentArrives env skb hst
    rw [hskb, ← tcpIn_eq_tcpSegmentArrives hfec (.inr hst) seg] at hset
    refine RxInv.of_settled rfl (hset.2.1.trans hfec) ?_ hset.1 ?_
    · simp only [RxRun.step, hc, Bool.true_or]
    · change r.returned ++ _ ++ bytesOf (tcpIn env r.sock seg).rcv.receiveQueue <+: stream
      rw [hset.2.2]
      exact hbytes

theorem RxInv.step (hL : stream.length < 2 ^ 32) {r : RxRun} (h : RxInv stream irs r)
    (e : RxEvent) (he : ∀ seg, e = .arrive seg → SegmentOf stream irs seg) :
    RxInv stream irs (r.step env e) := by
  cases e with
  | arrive seg => exact h.arrive hL (he seg rfl)
  | read len => exact h.read len
  | wake => exact h.wake

theorem RxInv.run (env : Env) (hL : stream.length < 2 ^ 32) (events : List RxEvent) {r : RxRun}
    (h : RxInv stream irs r) (he : ∀ seg, .arrive seg ∈ events → SegmentOf stream irs seg) :
    RxInv stream irs (events.foldl (RxRun.step env) r) := by
  induction events generalizing r with
  | nil => exact h
  | cons e es ih =>
    refine ih (h.step hL e fun seg heq => he seg ?_) fun seg hs =>
      he seg (List.mem_cons_of_mem _ hs)
    rw [heq]
    exact List.mem_cons_self

end Run

/-- **The plain receive path delivers only the true stream.** Whatever segments of the stream
arrive at an established socket, in whatever order, and however they interleave with reads, the
bytes read and queued are a prefix of the stream; until a FIN or an RST is processed they are its
first `rcv_nxt - irs - 1` bytes. -/
theorem received_isPrefix (env : Env) (stream : List UInt8) (hL : stream.length < 2 ^ 32)
    (s : TcpSock) (hst : s.state = .established) (hfec : s.fec = none)
    (hnxt : s.tcb.rcvNxt = s.tcb.irs + 1) (hrq : s.receiveQueue = []) (hofo : s.ofoQueue = [])
    (events : List RxEvent)
    (hseg : ∀ seg, .arrive seg ∈ events → SegmentOf stream s.tcb.irs seg) :
    let r := events.foldl (RxRun.step env)
      { sock := s, returned := [], reader := none, closed := false }
    r.bytes <+: stream ∧ (r.closed = false →
      seqOff (s.tcb.irs + 1) r.sock.tcb.rcvNxt ≤ stream.length ∧
      r.bytes = stream.take (seqOff (s.tcb.irs + 1) r.sock.tcb.rcvNxt)) := by
  have hinit : RxInv stream s.tcb.irs
      { sock := s, returned := [], reader := none, closed := false } := by
    refine RxInv.of_rcv rfl hfec rfl hst (Nat.zero_le _) ?_ ?_ ?_
    · rw [seqAt_zero]
      exact hnxt
    · simp [TcpSock.rcv, hrq]
    · simp [TcpSock.rcv, hofo]
  have hinv := hinit.run env hL events hseg
  intro r
  rcases hinv.main with ⟨-, -, ⟨n, hn, hnxt', hbytes⟩, -⟩ | ⟨hc, -, hbytes⟩
  · refine ⟨hbytes ▸ List.take_prefix n stream, fun _ => ?_⟩
    rw [hnxt', seqOff_seqAt _ (by omega)]
    exact ⟨hn, hbytes⟩
  · exact ⟨hbytes, fun h => absurd (hc.symm.trans h) (by simp)⟩

/-- An established socket of a connection with initial sequence numbers 100 and 200. -/
def sockAt200 : TcpSock :=
  { tcpAllocSock with
    state := .established
    tcb := { sndUna := 101, sndNxt := 101, iss := 100, rcvNxt := 201, rcvWnd := 44477, irs := 200 } }

/-- A data segment of that connection. -/
def segmentAt (seq : UInt32) (payload : List UInt8) : Segment :=
  ⟨{ Tcphdr.zero with seq, ackSeq := 101, hl := 5, ack := true }, payload⟩

/-- Two overlapping segments in the wrong order, a lost prefix, and a read in between. -/
theorem received_isPrefix_overlap :
    let r := [RxEvent.arrive (segmentAt 203 [3]), .read 8, .arrive (segmentAt 202 [2, 3]),
        .arrive (segmentAt 201 [1, 2]), .wake].foldl (RxRun.step ⟨fun _ => 0, fun _ _ => []⟩)
      { sock := sockAt200, returned := [], reader := none, closed := false }
    r.bytes <+: [1, 2, 3] ∧ (r.closed = false →
      seqOff 201 r.sock.tcb.rcvNxt ≤ 3 ∧
      r.bytes = [1, 2, 3].take (seqOff 201 r.sock.tcb.rcvNxt)) := by
  refine received_isPrefix _ [1, 2, 3] (by decide) sockAt200 rfl rfl (by decide) rfl rfl _ ?_
  intro seg hseg
  simp only [List.mem_cons, RxEvent.arrive.injEq, reduceCtorEq, List.not_mem_nil, or_false,
    false_or] at hseg
  rcases hseg with rfl | rfl | rfl <;> exact ⟨by decide, nofun⟩

end LvlIp.Tcp
