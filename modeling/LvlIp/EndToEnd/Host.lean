import LvlIp.EndToEnd.Acks
import LvlIp.EndToEnd.Flow
import LvlIp.Lifecycle.Done
import LvlIp.Send.Moves

/-!
# One side of a connection

A socket together with what its user has written and read (`Host`). While it is established it sends
pieces of what it has written and stands at a cut of what its peer has written; once it has been reset,
has given up or has been aborted, it sends no data and takes none (`HostInv`). Every event keeps this,
if the segments that arrive are pieces of the peer's stream that acknowledge cuts of one's own
(`HostInv.step`).
-/

namespace LvlIp.Tcp

open Fec Foundations Relation

/-! ## Hosts -/

/-- A socket, what its user has written and has been given, and a call of `tcp_read` that sleeps. -/
structure Host where
  sock : TcpSock
  written : List UInt8
  returned : List UInt8
  reader : Option Reader

namespace Host

/-- The outcome of a step of `tcp_read`. -/
def afterRead (h : Host) (res : TcpSock × ReadResult) : Host :=
  match res.2 with
  | .done _ bytes => { h with sock := res.1, returned := h.returned ++ bytes, reader := none }
  | .wait rd => { h with sock := res.1, reader := some rd }

/-- One event; a socket has one reader, and it is the one that is woken. -/
def step (env : Env) (h : Host) : TcpEvent → Host
  | .write buf =>
    { h with
      sock := tcpStep env h.sock (.write buf)
      written := if h.sock.writable then h.written ++ buf else h.written }
  | .read len =>
    match h.reader with
    | some _ => h
    | none => h.afterRead (tcpRead h.sock len)
  | .wake _ =>
    match h.reader with
    | some rd => h.afterRead (tcpReceiveStep h.sock rd)
    | none => h
  | e => { h with sock := tcpStep env h.sock e }

/-- One event, or the handler of a thread that is late. -/
def threadStep (env : Env) (h : Host) : ThreadEvent → Host
  | .event e => h.step env e
  | .late handler => { h with sock := handler.run env h.sock }

/-- The bytes that the user has been given, and those that a sleeping reader holds. -/
def taken (h : Host) : List UInt8 := h.returned ++ (h.reader.map Reader.got).getD []

/-- All the bytes that have been received in order. -/
def bytes (h : Host) : List UInt8 := h.taken ++ bytesOf h.sock.receiveQueue

/-- The user has not closed the socket, and no write is accepted while buffers wait with nothing in
flight. -/
def Ready (h : Host) : TcpEvent → Prop
  | .close => False
  | .write buf => h.sock.writable → buf ≠ [] → h.sock.inflight = 0 → h.sock.writeQueue = []
  | _ => True

instance (h : Host) : ∀ e, Decidable (h.Ready e)
  | .close => .isFalse id
  | .write buf => inferInstanceAs
      (Decidable (h.sock.writable → buf ≠ [] → h.sock.inflight = 0 → h.sock.writeQueue = []))
  | .connect _ | .arrive _ | .read _ | .wake _ | .abort | .timer _ | .tick _ => .isTrue trivial

/-- A late handler of the retransmission timer finds that timer running, or nothing to send: it does
not look, and when the socket has been aborted it would send old bytes at `snd_nxt`. -/
def OnTime (h : Host) : ThreadEvent → Prop
  | .event e => h.Ready e
  | .late handler =>
    handler = .tcpRetransmissionTimeout → handler ∈ h.sock.timers ∨ h.sock.writeQueue = []

instance (h : Host) : ∀ e, Decidable (h.OnTime e)
  | .event e => inferInstanceAs (Decidable (h.Ready e))
  | .late handler => inferInstanceAs (Decidable (handler = .tcpRetransmissionTimeout →
      handler ∈ h.sock.timers ∨ h.sock.writeQueue = []))

end Host

/-! ## Invariants -/

/-- The connection is over for the socket. -/
def TcpState.Over (st : TcpState) : Prop := st = .closing ∨ st = .timeWait

/-- One host, whose peer has written `u`. -/
structure HostInv (w u : Journal) (h : Host) : Prop where
  queued : h.sock.queued = w.queue
  sndNxt : h.sock.tcb.sndNxt = seqAt w.base (w.off w.sent)
  out : ∀ t ∈ h.sock.out, w.Piece t.seg.th.seq t.seg.payload
  nxt : u.Cut h.sock.tcb.rcvNxt
  bytes : h.bytes <+: u.stream
  acking : Acking u.Cut h.sock
  fec : h.sock.fec = none
  side : h.sock.NoSideRto
  mss : h.sock.smss ≠ 0
  written : w.stream = h.written
  phase : (h.sock.state = .established ∧ Flow w h.sock.txv ∧ Receives u h.taken h.sock.rcv) ∨
    (h.sock.state.Over ∧ h.sock.txv.armed = false)

section Phases

variable {w u : Journal} {h : Host}

/-- What the peer writes does not matter. -/
theorem HostInv.mono {u' : Journal} (hi : HostInv w u h) (hg : u.Grows u') : HostInv w u' h where
  queued := hi.queued
  sndNxt := hi.sndNxt
  out := hi.out
  nxt := hi.nxt.mono hg
  bytes := hi.bytes.trans hg.stream
  acking := hi.acking.mono fun _ hq => hq.mono hg
  fec := hi.fec
  side := hi.side
  mss := hi.mss
  written := hi.written
  phase := hi.phase.imp_left fun hl => ⟨hl.1, hl.2.1, hl.2.2.mono hg⟩

/-- The send side is in order. -/
theorem HostInv.of_flow (hflow : Flow w h.sock.txv) (hnxt : u.Cut h.sock.tcb.rcvNxt)
    (hbytes : h.bytes <+: u.stream) (hack : Acking u.Cut h.sock) (hfec : h.sock.fec = none)
    (hside : h.sock.NoSideRto) (hmss : h.sock.smss ≠ 0) (hwritten : w.stream = h.written)
    (hphase : (h.sock.state = .established ∧ Receives u h.taken h.sock.rcv) ∨
      (h.sock.state.Over ∧ h.sock.txv.armed = false)) : HostInv w u h := by
  obtain ⟨a, hq, -⟩ := hflow.queue
  refine ⟨hflow.queued, ?_, hflow.out.pieces, hnxt, hbytes, hack, hfec, hside, hmss, hwritten,
    hphase.imp_left fun hl => ⟨hl.1, hflow, hl.2⟩⟩
  refine hq.sndNxt.trans ?_
  rw [hflow.queued]
  rfl

/-- The socket is established. -/
theorem HostInv.of_live (hst : h.sock.state = .established) (hflow : Flow w h.sock.txv)
    (hrcv : Receives u h.taken h.sock.rcv) (hack : Acking u.Cut h.sock) (hfec : h.sock.fec = none)
    (hside : h.sock.NoSideRto) (hmss : h.sock.smss ≠ 0) (hwritten : w.stream = h.written) :
    HostInv w u h := by
  obtain ⟨j, -, -, hbytes⟩ := hrcv.nxt
  have hpre : h.taken ++ bytesOf h.sock.rcv.receiveQueue <+: u.stream := by
    rw [hbytes]
    exact List.take_prefix _ _
  exact .of_flow hflow hrcv.cut hpre hack hfec hside hmss hwritten (.inl ⟨hst, hrcv⟩)

end Phases

/-! ## When the connection is over -/

/-- The socket goes over to its end, or stays there: it may send segments without data. -/
structure Rests (s s' : TcpSock) : Prop where
  state : s'.state.Over
  armed : s'.txv.armed = false
  out : ∃ ts, s'.out = s.out ++ ts ∧ ∀ t ∈ ts, t.seg.payload = []
  queued : s'.queued = s.queued
  sndNxt : s'.tcb.sndNxt = s.tcb.sndNxt
  rcvNxt : s'.tcb.rcvNxt = s.tcb.rcvNxt
  receiveQueue : s'.receiveQueue = s.receiveQueue
  fec : s.fec = none → s'.fec = none
  smss : s'.smss = s.smss

namespace Rests

variable (env : Env) {s s' s'' : TcpSock}

theorem refl (hst : s.state.Over) (harmed : s.txv.armed = false) : Rests s s :=
  ⟨hst, harmed, ⟨[], (List.append_nil _).symm, List.forall_mem_nil _⟩, rfl, rfl, rfl, rfl, id, rfl⟩

theorem trans (h : Rests s s') (h' : Rests s' s'') : Rests s s'' := by
  obtain ⟨ts, hout, hts⟩ := h.out
  obtain ⟨ts', hout', hts'⟩ := h'.out
  refine ⟨h'.state, h'.armed, ⟨ts ++ ts', ?_, List.forall_mem_append.mpr ⟨hts, hts'⟩⟩,
    h'.queued.trans h.queued, h'.sndNxt.trans h.sndNxt, h'.rcvNxt.trans h.rcvNxt,
    h'.receiveQueue.trans h.receiveQueue, h'.fec ∘ h.fec, h'.smss.trans h.smss⟩
  rw [hout', hout, List.append_assoc]

/-- A segment without data goes out. -/
theorem sendAck (hst : s.state.Over) (harmed : s.txv.armed = false) : Rests s (tcpSendAck env s) := by
  have hrcv := rcv_tcpSendAck env s
  have hsnd := snd_tcpSendAck env s
  have hclose : s.state ≠ .close := by
    intro heq
    rcases hst with h | h <;> rw [h] at heq <;> cases heq
  obtain ⟨ts, htxv, hts⟩ : ∃ ts : List Transmission, (tcpSendAck env s).txv =
      { s.txv with out := s.out ++ ts, nextAddr := s.nextAddr + 1 } ∧ ∀ t ∈ ts, t.seg.payload = [] := by
    obtain ⟨th, -, -, hview⟩ := exists_tcpTransmitSkb env
      (tcpAllocSkb s none { Tcphdr.zero with
        ack := true, hl := tcpDoffset + tcpOptionsLen s / 4
        data := List.replicate (tcpOptionsLen s) 0 } []).1
      (tcpAllocSkb s none { Tcphdr.zero with
        ack := true, hl := tcpDoffset + tcpOptionsLen s / 4
        data := List.replicate (tcpOptionsLen s) 0 } []).2 s.tcb.sndNxt
    unfold tcpSendAck
    rw [if_neg hclose]
    exact ⟨_, hview, List.forall_mem_singleton.mpr rfl⟩
  refine ⟨?_, (congrArg TxView.armed htxv).trans harmed, ⟨ts, congrArg TxView.out htxv, hts⟩,
    congrArg SndView.queued hsnd, congrArg SndView.sndNxt hsnd, congrArg RcvView.rcvNxt hrcv,
    congrArg RcvView.receiveQueue hrcv, fun hfec => (congrArg RcvView.fec hrcv).trans hfec,
    congrArg SndView.smss hsnd⟩
  rw [state_tcpSendAck]
  exact hst

/-- `tcp_done` on any socket. -/
theorem done (s : TcpSock) : Rests s (tcpDone s) :=
  ⟨.inl rfl, rfl, ⟨[], (List.append_nil _).symm, List.forall_mem_nil _⟩, rfl, rfl, rfl, rfl,
    fun _ => rfl, rfl⟩

theorem enterTimeWait (s : TcpSock) : Rests s (tcpEnterTimeWait s) :=
  ⟨.inr rfl, rfl, ⟨[], (List.append_nil _).symm, List.forall_mem_nil _⟩, rfl, rfl, rfl, rfl, id, rfl⟩

/-- `tcp_abort` on any socket. -/
theorem abort (s : TcpSock) : Rests s (tcpAbort env s) := by
  obtain ⟨th, -, -, hview⟩ := exists_tcpTransmitSkb env
    (tcpAllocSkb { s with tcb.sndUna := s.tcb.sndNxt } none { Tcphdr.zero with rst := true } []).1
    (tcpAllocSkb { s with tcb.sndUna := s.tcb.sndNxt } none { Tcphdr.zero with rst := true } []).2
    s.tcb.sndNxt
  have hrcv := rcv_tcpTransmitSkb env
    (tcpAllocSkb { s with tcb.sndUna := s.tcb.sndNxt } none { Tcphdr.zero with rst := true } []).1
    (tcpAllocSkb { s with tcb.sndUna := s.tcb.sndNxt } none { Tcphdr.zero with rst := true } []).2
    s.tcb.sndNxt
  have hsnd := congrArg TxView.snd hview
  exact ⟨.inl rfl, rfl, ⟨_, congrArg TxView.out hview, List.forall_mem_singleton.mpr rfl⟩,
    congrArg SndView.queued hsnd, congrArg SndView.sndNxt hsnd, congrArg RcvView.rcvNxt hrcv,
    congrArg RcvView.receiveQueue hrcv, fun _ => rfl, congrArg SndView.smss hsnd⟩

theorem cleanRtoQueue (hst : s.state.Over) (harmed : s.txv.armed = false) (una : UInt32) :
    Rests s (tcpCleanRtoQueue s una) := by
  have hnone : s.txv.out = s.out ++ [] := (List.append_nil _).symm
  unfold tcpCleanRtoQueue
  dsimp only
  split
  · exact ⟨hst, rfl, ⟨[], hnone, List.forall_mem_nil _⟩, rfl, rfl, rfl, rfl, id, rfl⟩
  · exact ⟨hst, harmed, ⟨[], hnone, List.forall_mem_nil _⟩, rfl, rfl, rfl, rfl, id, rfl⟩

theorem ack (hst : s.state.Over) (harmed : s.txv.armed = false) (ackSeq : UInt32) :
    Rests s (tcpAck s ackSeq).1 := by
  unfold tcpAck
  dsimp only
  split
  · have hrtt := txv_tcpRtt { s with tcb.sndUna := ackSeq }
    have hrcv := rcv_tcpRtt { s with tcb.sndUna := ackSeq }
    generalize tcpRtt { s with tcb.sndUna := ackSeq } = s₁ at hrtt hrcv
    have hsnd := congrArg TxView.snd hrtt
    have hst₁ : s₁.state.Over := (state_eq_of_rcv hrcv).symm ▸ hst
    have harmed₁ : s₁.txv.armed = false := (congrArg TxView.armed hrtt).trans harmed
    have hout : s₁.out = s.out ++ [] := (congrArg TxView.out hrtt).trans (List.append_nil _).symm
    have h₁ : Rests s s₁ :=
      ⟨hst₁, harmed₁, ⟨[], hout, List.forall_mem_nil _⟩, congrArg SndView.queued hsnd,
        congrArg SndView.sndNxt hsnd, congrArg RcvView.rcvNxt hrcv, congrArg RcvView.receiveQueue hrcv,
        fun hfec => (congrArg RcvView.fec hrcv).trans hfec, congrArg SndView.smss hsnd⟩
    exact h₁.trans (cleanRtoQueue hst₁ harmed₁ ackSeq)
  · exact refl hst harmed

theorem ackField (hst : s.state.Over) (harmed : s.txv.armed = false) (th : Tcphdr) :
    Rests s (tcpAckField s th).1 := by
  unfold tcpAckField
  rcases hst with h | h
  · rw [h]
    exact ack (.inl h) harmed th.ackSeq
  · rw [h]
    exact refl (.inr h) harmed

theorem finAcked (hst : s.state.Over) (harmed : s.txv.armed = false) (th : Tcphdr) :
    Rests s (tcpFinAcked env s th).1 := by
  have hrefl := refl hst harmed
  unfold tcpFinAcked
  split
  · split
    · next hs => rcases hst with h | h <;> rw [hs] at h <;> cases h
    · exact ⟨.inr rfl, harmed, hrefl.out, rfl, rfl, rfl, rfl, id, rfl⟩
    · exact done s
    · split
      · have hflag : Rests s { s with finFlag := true } := { hrefl with }
        exact hflag.trans (sendAck env hst harmed)
      · exact hrefl
    · exact hrefl
  · exact hrefl

/-- **A segment without a FIN** that arrives when the connection is over. -/
theorem segmentArrives (hst : s.state.Over) (harmed : s.txv.armed = false) {skb : SkBuff}
    (hfin : skb.th.fin = false) : Rests s (tcpSegmentArrives env s skb) := by
  have hrefl := refl hst harmed
  unfold tcpSegmentArrives
  split
  · split
    · exact hrefl
    · exact sendAck env hst harmed
  · split
    · exact enterTimeWait s
    · split
      · exact hrefl
      · split
        · exact hrefl
        · have hack := ackField hst harmed skb.th
          dsimp only
          split
          · exact hack
          · have hacked := hack.trans (finAcked env hack.state hack.armed skb.th)
            split
            · exact hacked
            · rw [tcpDeliver_of_over hacked.state, if_neg (fun hc => by simp [hfin] at hc)]
              exact hacked

end Rests

/-- **The invariant when the connection is over.** -/
theorem HostInv.rests {w u : Journal} {h : Host} (hi : HostInv w u h) {s' : TcpSock}
    (hr : Rests h.sock s') (hack : Acking u.Cut s') (hside : s'.NoSideRto) :
    HostInv w u { h with sock := s' } where
  queued := hr.queued.trans hi.queued
  sndNxt := hr.sndNxt.trans hi.sndNxt
  out := by
    obtain ⟨ts, hout, hts⟩ := hr.out
    change ∀ t ∈ s'.out, _
    rw [hout]
    exact List.forall_mem_append.mpr ⟨hi.out, fun t ht => .inl (hts t ht)⟩
  nxt := by
    change u.Cut s'.tcb.rcvNxt
    rw [hr.rcvNxt]
    exact hi.nxt
  bytes := by
    change h.taken ++ bytesOf s'.receiveQueue <+: u.stream
    rw [hr.receiveQueue]
    exact hi.bytes
  acking := hack
  fec := hr.fec hi.fec
  side := hside
  mss := hr.smss.symm ▸ hi.mss
  written := hi.written
  phase := .inr ⟨hr.state, hr.armed⟩

/-! ## The events of a host -/

section Events

variable {env : Env} {w u : Journal} {h : Host}

theorem HostInv.connected (hi : HostInv w u h) : h.sock.state.connected := by
  rcases hi.phase with ⟨hst, -⟩ | ⟨hst | hst, -⟩ <;> rw [hst] <;> rfl

theorem TxStep.smss {v v' : TxView} (hs : TxStep v v') : v'.snd.smss = v.snd.smss := by
  cases hs with
  | ack ackSeq hacc =>
    change (v.snd.ack ackSeq).smss = _
    rw [SndView.ack_of_acceptable hacc]
  | control | pending | disarm | release => rfl

theorem smss_of_steps {v v' : TxView} (hs : ReflTransGen TxStep v v') : v'.snd.smss = v.snd.smss := by
  induction hs with
  | refl => rfl
  | tail _ hstep ih => exact hstep.smss.trans ih

theorem HostInv.tcpIn_eq (hi : HostInv w u h) (seg : Segment) :
    tcpIn env h.sock seg = tcpSegmentArrives env h.sock (tcpInitSegment seg) := by
  unfold tcpIn tcpInputState
  rw [hi.fec]
  rcases hi.phase with ⟨hst, -⟩ | ⟨hst | hst, -⟩ <;> rw [hst]

/-- A segment that a peer sends: a piece of its stream that acknowledges a cut of ours. -/
structure FromPeer (w u : Journal) (seg : Segment) : Prop where
  piece : u.Piece seg.th.seq seg.payload
  cut : w.Cut seg.th.ackSeq
  plain : seg.th.Plain

/-- **The arrival of a segment from the peer** at an established socket. -/
theorem HostInv.arrive_live (hi : HostInv w u h) (hw : w.Short) (hu : u.Short) (hpos : 0 < w.base)
    (hst : h.sock.state = .established) (hflow : Flow w h.sock.txv)
    (hrcv : Receives u h.taken h.sock.rcv) {seg : Segment} (hseg : FromPeer w u seg) :
    ∃ w', Advances w w' ∧
      HostInv w' u { h with sock := tcpSegmentArrives env h.sock (tcpInitSegment seg) } := by
  have hconn := hi.connected
  have hside : (tcpSegmentArrives env h.sock (tcpInitSegment seg)).NoSideRto :=
    (txMoves_tcpSegmentArrives env (.inr hconn) _).side hi.side
  obtain ⟨w', hadv, hflow'⟩ := @Flow.arrive env _ w hflow hw hpos hconn (tcpInitSegment seg) hseg.cut
  have hmss : (tcpSegmentArrives env h.sock (tcpInitSegment seg)).smss = h.sock.smss :=
    smss_of_steps (txSteps_tcpSegmentArrives env hconn (tcpInitSegment seg)).2
  have hview := rcv_tcpSegmentArrives_established env (tcpInitSegment seg) hst
  by_cases hrst : tcpVerifySegment h.sock (tcpInitSegment seg) ∧ (tcpInitSegment seg).th.rst
  · -- the connection is reset
    have heq : tcpSegmentArrives env h.sock (tcpInitSegment seg) = tcpEnterTimeWait h.sock := by
      unfold tcpSegmentArrives
      rw [if_neg (not_not_intro hrst.1), if_pos hrst.2]
    rw [heq] at hside ⊢
    exact ⟨w, .refl w, hi.rests (.enterTimeWait h.sock) (hi.acking.of_eq _ rfl rfl) hside⟩
  · -- the text of the segment is processed, or nothing of it
    have hfin : ¬ ((tcpInitSegment seg).th.fin ∧ (tcpInitSegment seg).seq = h.sock.tcb.rcvNxt) :=
      fun hc => by
        have := hseg.plain.2
        exact absurd hc.1 (by change ¬ seg.th.fin = true; rw [this]; exact Bool.false_ne_true)
    rw [if_neg hrst, if_neg hfin] at hview
    have hlive : ∃ v : RcvView, (tcpSegmentArrives env h.sock (tcpInitSegment seg)).rcv = v ∧
        v.state = .established ∧ v.fec = none ∧ Receives u h.taken v := by
      refine ⟨_, hview, ?_⟩
      have hdata : Receives u h.taken (h.sock.rcv.dataQueue (tcpInitSegment seg)) :=
        hrcv.dataQueue hu hseg.piece
      have hdst := (state_dataQueue h.sock.rcv (tcpInitSegment seg)).trans hst
      have hdfec := (fec_dataQueue h.sock.rcv (tcpInitSegment seg)).trans hi.fec
      split
      · split
        · exact ⟨hdst, hdfec, hdata⟩
        · exact ⟨hst, hi.fec, hrcv⟩
      · exact ⟨hst, hi.fec, hrcv⟩
    obtain ⟨v, hv, hvst, hvfec, hvrcv⟩ := hlive
    have hnxt : u.Cut (tcpSegmentArrives env h.sock (tcpInitSegment seg)).tcb.rcvNxt := by
      change u.Cut (TcpSock.rcv _).rcvNxt
      rw [hv]
      exact hvrcv.cut
    have hack := hi.acking.segmentArrives env hconn hi.nxt (tcpInitSegment seg) hnxt
    refine ⟨w', hadv, .of_live ((congrArg RcvView.state hv).trans hvst) hflow' ?_ hack
      ((congrArg RcvView.fec hv).trans hvfec) hside (hmss.symm ▸ hi.mss) ?_⟩
    · change Receives u h.taken (tcpSegmentArrives env h.sock (tcpInitSegment seg)).rcv
      rw [hv]
      exact hvrcv
    · rw [← hi.written]
      exact congrArg bytesOf hadv.same

/-- **The arrival of a segment from the peer.** -/
theorem HostInv.arrive (hi : HostInv w u h) (hw : w.Short) (hu : u.Short) (hpos : 0 < w.base)
    {seg : Segment} (hseg : FromPeer w u seg) :
    ∃ w', Advances w w' ∧ HostInv w' u { h with sock := tcpIn env h.sock seg } := by
  rw [hi.tcpIn_eq]
  rcases hi.phase with ⟨hst, hflow, hrcv⟩ | ⟨hst, harmed⟩
  · exact hi.arrive_live hw hu hpos hst hflow hrcv hseg
  · have hrests := @Rests.segmentArrives env _ hst harmed (tcpInitSegment seg) hseg.plain.2
    have hack := hi.acking.segmentArrives env hi.connected hi.nxt (tcpInitSegment seg)
      (hrests.rcvNxt.symm ▸ hi.nxt)
    have hside := (txMoves_tcpSegmentArrives env (.inr hi.connected) (tcpInitSegment seg)).side hi.side
    exact ⟨w, .refl w, hi.rests hrests hack hside⟩

/-- An event that touches neither side of the connection; it may stop the retransmission timer. -/
theorem HostInv.of_views (hi : HostInv w u h) (s' : TcpSock) {armed : Bool}
    (htxv : s'.txv = { h.sock.txv with armed }) (harmed : armed → h.sock.txv.armed)
    (hrcv : s'.rcv = h.sock.rcv) (hside : s'.NoSideRto) : HostInv w u { h with sock := s' } where
  queued := (congrArg (fun v => v.snd.queued) htxv).trans hi.queued
  sndNxt := (congrArg (fun v => v.snd.sndNxt) htxv).trans hi.sndNxt
  out := by
    change ∀ t ∈ s'.txv.out, _
    rw [htxv]
    exact hi.out
  nxt := by
    change u.Cut s'.rcv.rcvNxt
    rw [hrcv]
    exact hi.nxt
  bytes := by
    change h.taken ++ bytesOf s'.rcv.receiveQueue <+: u.stream
    rw [hrcv]
    exact hi.bytes
  acking := hi.acking.of_eq s' (congrArg TxView.out htxv) (congrArg (fun v => v.snd.writeQueue) htxv)
  fec := (congrArg RcvView.fec hrcv).trans hi.fec
  side := hside
  mss := by
    change s'.txv.snd.smss ≠ 0
    rw [htxv]
    exact hi.mss
  written := hi.written
  phase := by
    change (s'.rcv.state = _ ∧ Flow w s'.txv ∧ Receives u h.taken s'.rcv) ∨
      (s'.rcv.state.Over ∧ s'.txv.armed = false)
    rw [htxv, hrcv]
    rcases hi.phase with ⟨hst, hflow, hrcv'⟩ | ⟨hst, hoff⟩
    · exact .inl ⟨hst, { hflow with armed := fun ha => hflow.armed (harmed ha) }, hrcv'⟩
    · exact .inr ⟨hst, Bool.eq_false_iff.mpr fun ha => Bool.false_ne_true (hoff.symm.trans (harmed ha))⟩

/-- An event that touches neither side of the connection. -/
theorem HostInv.of_same (hi : HostInv w u h) (s' : TcpSock) (htxv : s'.txv = h.sock.txv)
    (hrcv : s'.rcv = h.sock.rcv) (hside : s'.NoSideRto) : HostInv w u { h with sock := s' } :=
  hi.of_views s' htxv id hrcv hside

/-- **A write** that is accepted finds an established socket. -/
theorem HostInv.write (hi : HostInv w u h) {buf : List UInt8} (hready : h.Ready (.write buf)) :
    ∃ w', w.Grows w' ∧ HostInv w' u (h.step env (.write buf)) := by
  have heq : h.step env (.write buf) =
      { h with
        sock := if h.sock.writable then tcpSend env h.sock buf else h.sock
        written := if h.sock.writable then h.written ++ buf else h.written } := by
    unfold Host.step
    dsimp only [tcpStep]
    rw [tcpWrite_eq]
  rw [heq]
  split
  · next hok =>
    rcases hi.phase with ⟨hst, hflow, hrcv⟩ | ⟨hst, -⟩
    · obtain ⟨w', hg, hflow', hstream, hrcv', hmss⟩ :=
        hflow.send env hi.fec hi.mss (hready hok)
      have hside := (sendMoves_tcpSend env h.sock buf).side hi.side
      refine ⟨w', hg, .of_live ((state_eq_of_rcv hrcv').trans hst) hflow' ?_
        (hi.acking.send env hi.fec hi.nxt buf) ((congrArg RcvView.fec hrcv').trans hi.fec) hside
        (hmss.symm ▸ hi.mss) ?_⟩
      · change Receives u h.taken (tcpSend env h.sock buf).rcv
        rw [hrcv']
        exact hrcv
      · rw [hstream, hi.written]
    · refine absurd hok ?_
      unfold TcpSock.writable
      rcases hst with hst | hst <;> rw [hst] <;> simp
  · exact ⟨w, .refl w, hi⟩

theorem txv_tcpReceiveStep (s : TcpSock) (rd : Reader) : (tcpReceiveStep s rd).1.txv = s.txv := by
  have hreturn : ∀ (s₁ : TcpSock) (got : List UInt8), (tcpReceiveReturn s₁ got).1.txv = s₁.txv :=
    fun s₁ _ => txv_tcpRearmUserTimeout s₁
  unfold tcpReceiveStep
  dsimp only
  split
  · exact hreturn s _
  · split
    · exact hreturn _ _
    · split
      · exact hreturn _ _
      · split
        · split
          · rfl
          · exact hreturn _ _
        · rfl

theorem txv_tcpRead (s : TcpSock) (len : ℕ) : (tcpRead s len).1.txv = s.txv := by
  unfold tcpRead
  cases s.state with
  | closeWait =>
    dsimp only
    split
    · rfl
    · exact txv_tcpReceiveStep s _
  | close | closing | lastAck | timeWait => rfl
  | _ => exact txv_tcpReceiveStep s _

theorem Host.sock_afterRead (h : Host) (res : TcpSock × ReadResult) : (h.afterRead res).sock = res.1 := by
  unfold Host.afterRead
  split <;> rfl

theorem Host.written_afterRead (h : Host) (res : TcpSock × ReadResult) :
    (h.afterRead res).written = h.written := by
  unfold Host.afterRead
  split <;> rfl

theorem Host.bytes_afterRead {res : TcpSock × ReadResult} (hres : h.returned ++ readBytes res = h.bytes) :
    (h.afterRead res).bytes = h.bytes := by
  rw [← hres]
  obtain ⟨s', res⟩ := res
  unfold Host.afterRead Host.bytes Host.taken readBytes
  cases res with
  | done ret bytes => simp
  | wait rd => simp

/-- **A step of a read** moves bytes from the queue to the user. -/
theorem HostInv.afterRead (hi : HostInv w u h) {res : TcpSock × ReadResult}
    (hframe : ReadFrame h.sock res.1) (htxv : res.1.txv = h.sock.txv) (hside : res.1.NoSideRto)
    (hres : h.returned ++ readBytes res = h.bytes) : HostInv w u (h.afterRead res) := by
  obtain ⟨hst, hfec, htcb, hofo⟩ := hframe
  have hsock := h.sock_afterRead res
  have hbytes := Host.bytes_afterRead hres
  have hnxt : (h.afterRead res).sock.tcb.rcvNxt = h.sock.tcb.rcvNxt := by rw [hsock, htcb]
  have htxv' : (h.afterRead res).sock.txv = h.sock.txv := by rw [hsock, htxv]
  have hout : (h.afterRead res).sock.out = h.sock.out := congrArg TxView.out htxv'
  have hofo' : res.1.rcv.ofoQueue = h.sock.rcv.ofoQueue := hofo
  refine ⟨(congrArg (fun v => v.snd.queued) htxv').trans hi.queued,
    (congrArg (fun v => v.snd.sndNxt) htxv').trans hi.sndNxt,
    hout.symm ▸ hi.out, hnxt.symm ▸ hi.nxt, hbytes.symm ▸ hi.bytes,
    hi.acking.of_txv htxv', (hsock ▸ hfec).trans hi.fec, hsock.symm ▸ hside, ?_,
    hi.written.trans (h.written_afterRead res).symm, ?_⟩
  · change (h.afterRead res).sock.txv.snd.smss ≠ 0
    rw [htxv']
    exact hi.mss
  · rw [htxv', hsock, hst]
    refine hi.phase.imp_left fun hl => ⟨hl.1, hl.2.1, ?_⟩
    obtain ⟨j, hj, hj', htake⟩ := hl.2.2.nxt
    refine ⟨⟨j, hj, (congrArg Tcb.rcvNxt htcb).trans hj', ?_⟩, hofo'.symm ▸ hl.2.2.ofo⟩
    change (h.afterRead res).taken ++ bytesOf res.1.receiveQueue = _
    rw [← htake, ← hsock]
    exact hbytes

theorem HostInv.read (hi : HostInv w u h) (len : ℕ) : HostInv w u (h.step env (.read len)) := by
  unfold Host.step
  dsimp only
  split
  · exact hi
  · next hnone =>
    obtain ⟨hframe, hbytes⟩ := tcpRead_spec h.sock len
    refine hi.afterRead hframe (txv_tcpRead h.sock len) ((sendMoves_tcpRead h.sock len).side hi.side) ?_
    rw [hbytes, Host.bytes, Host.taken, hnone]
    simp

theorem HostInv.wake (hi : HostInv w u h) (rd : Reader) : HostInv w u (h.step env (.wake rd)) := by
  unfold Host.step
  dsimp only
  split
  · next rd hrd =>
    obtain ⟨hframe, hbytes⟩ := tcpReceiveStep_spec h.sock rd
    refine hi.afterRead hframe (txv_tcpReceiveStep h.sock rd)
      ((sendMoves_tcpReceiveStep h.sock rd).side hi.side) ?_
    rw [hbytes, Host.bytes, Host.taken, hrd]
    simp
  · exact hi

/-- **An acknowledgement goes out.** -/
theorem HostInv.sendAck (hi : HostInv w u h) (hw : w.Short) (hpos : 0 < w.base) :
    ∃ w', Advances w w' ∧ HostInv w' u { h with sock := tcpSendAck env h.sock } := by
  have hack := hi.acking.sendAck env hi.nxt
  have hside := (sendMoves_tcpSendAck env h.sock).side hi.side
  rcases hi.phase with ⟨hst, hflow, hrcv⟩ | ⟨hst, harmed⟩
  · have hview := rcv_tcpSendAck env h.sock
    obtain ⟨w', hadv, hflow'⟩ := hflow.sendAck env hw hpos hi.connected
    refine ⟨w', hadv, .of_live ((state_eq_of_rcv hview).trans hst) hflow' ?_ hack
      ((congrArg RcvView.fec hview).trans hi.fec) hside ?_ ?_⟩
    · change Receives u h.taken (tcpSendAck env h.sock).rcv
      rw [hview]
      exact hrcv
    · change (tcpSendAck env h.sock).snd.smss ≠ 0
      rw [snd_tcpSendAck]
      exact hi.mss
    · rw [← hi.written]
      exact congrArg bytesOf hadv.same
  · exact ⟨w, .refl w, hi.rests (.sendAck env hst harmed) hack hside⟩

theorem HostInv.done (hi : HostInv w u h) : HostInv w u { h with sock := tcpDone h.sock } :=
  hi.rests (.done h.sock) (hi.acking.of_eq _ rfl rfl) ((txMoves_tcpDone h.sock).side hi.side)

theorem HostInv.abort (hi : HostInv w u h) : HostInv w u { h with sock := tcpAbort env h.sock } :=
  hi.rests (.abort env h.sock) (hi.acking.abort env hi.nxt) ((txMoves_tcpAbort h.sock).side hi.side)

/-- A timer that expires in an established socket leaves the receive side alone, or ends the
connection. -/
theorem rcv_tcpRetransmissionTimeout (env : Env) {s : TcpSock}
    (hplain : ∀ x ∈ s.writeQueue, x.th.Plain) :
    (tcpRetransmissionTimeout env s).rcv = s.rcv ∨
      ((tcpRetransmissionTimeout env s).state = .closing ∧
        (tcpRetransmissionTimeout env s).txv.armed = false ∧
        (tcpRetransmissionTimeout env s).fec = none ∧
        (tcpRetransmissionTimeout env s).tcb.rcvNxt = s.tcb.rcvNxt ∧
        (tcpRetransmissionTimeout env s).receiveQueue = s.receiveQueue) := by
  unfold tcpRetransmissionTimeout
  dsimp only
  split
  · exact .inl rfl
  · next skb q hq =>
    have hfin : skb.th.fin = false :=
      (hplain skb (by rw [show s.writeQueue = skb :: q from hq]; exact List.mem_cons_self)).2
    have hview := rcv_tcpTransmitSkb env (tcpReleaseRtoTimer s) skb (tcpReleaseRtoTimer s).tcb.sndUna
    generalize tcpTransmitSkb env (tcpReleaseRtoTimer s) skb (tcpReleaseRtoTimer s).tcb.sndUna = t
      at hview
    split
    · exact .inr ⟨rfl, rfl, rfl, congrArg RcvView.rcvNxt hview, congrArg RcvView.receiveQueue hview⟩
    · rw [hfin, if_neg Bool.false_ne_true]
      exact .inl hview

/-- **The retransmission timer expires.** -/
theorem HostInv.timeout (hi : HostInv w u h) (hw : w.Short) (hpos : 0 < w.base)
    (harmed : h.sock.rtoArmed) :
    ∃ w', Advances w w' ∧ HostInv w' u { h with sock := tcpRetransmissionTimeout env h.sock } := by
  have harmed' := armed_of_rtoArmed hi.side harmed
  rcases hi.phase with ⟨hst, hflow, hrcv⟩ | ⟨-, hoff⟩
  · obtain ⟨w', hadv, hflow'⟩ := hflow.timeout env hw hpos hi.connected harmed'
    have hack := hi.acking.timeout env hi.nxt
    have hside : (tcpRetransmissionTimeout env h.sock).NoSideRto := side_tcpRetransmissionTimeout hi.side
    have hmss : (tcpRetransmissionTimeout env h.sock).txv.snd.smss ≠ 0 := by
      obtain ⟨-, ⟨-, hview⟩ | ⟨skb, q, th, -, -, hview | hstep⟩⟩ :=
        exists_tcpRetransmissionTimeout env hi.connected
      · rw [hview]
        exact hi.mss
      · rw [hview]
        exact hi.mss
      · rw [hstep.smss]
        exact hi.mss
    have hwritten : w'.stream = h.written := by
      rw [← hi.written]
      exact congrArg bytesOf hadv.same
    refine ⟨w', hadv, ?_⟩
    rcases rcv_tcpRetransmissionTimeout env hi.acking.queue with hview |
      ⟨hover, hoff, hfec, hnxt, hqueue⟩
    · refine .of_live ((state_eq_of_rcv hview).trans hst) hflow' ?_ hack
        ((congrArg RcvView.fec hview).trans hi.fec) hside hmss hwritten
      change Receives u h.taken (tcpRetransmissionTimeout env h.sock).rcv
      rw [hview]
      exact hrcv
    · refine .of_flow hflow' (hnxt.symm ▸ hi.nxt) ?_ hack hfec hside hmss hwritten
        (.inr ⟨.inl hover, hoff⟩)
      change h.taken ++ bytesOf (tcpRetransmissionTimeout env h.sock).receiveQueue <+: u.stream
      rw [hqueue]
      exact hi.bytes
  · exact absurd (hoff.symm.trans harmed') Bool.false_ne_true

/-- **The handler of a timer**, with something to send only while the timer runs. -/
theorem HostInv.handler (hi : HostInv w u h) (hw : w.Short) (hpos : 0 < w.base)
    {handler : TimerHandler} (hrun : handler = .tcpRetransmissionTimeout →
      handler ∈ h.sock.timers ∨ h.sock.writeQueue = []) :
    ∃ w', Advances w w' ∧ HostInv w' u { h with sock := handler.run env h.sock } := by
  have hlinger : HostInv w u { h with sock := { h.sock with linger := none } } := by
    refine hi.of_same _ rfl rfl fun t ht => ?_
    exact hi.side t (ht.imp_right fun hl => absurd hl (Option.some_ne_none _).symm)
  cases handler with
  | tcpConnectRto =>
    refine ⟨w, .refl w, ?_⟩
    have hst : (tcpReleaseRtoTimer h.sock).state ≠ .synSent := by
      intro heq
      have hconn := hi.connected
      rw [show h.sock.state = .synSent from heq] at hconn
      cases hconn
    unfold TimerHandler.run tcpConnectRto
    dsimp only
    rw [if_neg hst]
    exact hi.of_views _ rfl (fun hf => absurd hf Bool.false_ne_true) rfl (hi.side.of_eq _ rfl rfl)
  | tcpRetransmissionTimeout =>
    rcases hrun rfl with harmed | hnil
    · exact hi.timeout hw hpos harmed
    · refine ⟨w, .refl w, ?_⟩
      have heq : tcpRetransmissionTimeout env h.sock =
          { tcpReleaseRtoTimer h.sock with backoff := 0 } := by
        unfold tcpRetransmissionTimeout
        dsimp only
        rw [show (tcpReleaseRtoTimer h.sock).writeQueue = [] from hnil]
      unfold TimerHandler.run
      rw [heq]
      exact hi.of_views _ rfl (fun hf => absurd hf Bool.false_ne_true) rfl (hi.side.of_eq _ rfl rfl)
  | tcpSendDelack =>
    have hrel : HostInv w u { h with sock := tcpReleaseDelackTimer { h.sock with delacks := 0 } } := by
      refine hi.of_same _ rfl rfl fun t ht => ?_
      exact hi.side t (ht.imp_left fun hl => absurd hl (Option.some_ne_none _).symm)
    exact hrel.sendAck hw hpos
  | tcpLinger => exact ⟨w, .refl w, hlinger.done⟩
  | tcpUserTimeout => exact ⟨w, .refl w, hlinger.abort⟩

/-- **Every event keeps the invariant**, as long as the user does not close the socket and does not
write while buffers wait with nothing in flight. -/
theorem HostInv.step (hi : HostInv w u h) (hw : w.Short) (hu : u.Short) (hpos : 0 < w.base)
    {e : TcpEvent} (hready : h.Ready e) (hseg : ∀ seg, e = .arrive seg → FromPeer w u seg) :
    ∃ w', w.Grows w' ∧ HostInv w' u (h.step env e) := by
  have hsame : ∀ {h' : Host}, (∃ w', Advances w w' ∧ HostInv w' u h') →
      ∃ w', w.Grows w' ∧ HostInv w' u h' := by
    intro h' hex
    obtain ⟨w', hadv, hi'⟩ := hex
    exact ⟨w', hadv.toGrows, hi'⟩
  cases e with
  | connect iss =>
    have hst : h.sock.state ≠ .close := by
      intro heq
      have hconn := hi.connected
      rw [heq] at hconn
      cases hconn
    refine ⟨w, .refl w, ?_⟩
    unfold Host.step
    dsimp only [tcpStep]
    unfold inetStreamConnect
    rw [if_pos hst]
    exact hi.of_same _ rfl rfl (hi.side.of_eq _ rfl rfl)
  | arrive seg => exact hsame (hi.arrive hw hu hpos (hseg seg rfl))
  | write buf => exact hi.write hready
  | read len => exact ⟨w, .refl w, hi.read len⟩
  | wake rd => exact ⟨w, .refl w, hi.wake rd⟩
  | close => exact absurd hready id
  | abort => exact ⟨w, .refl w, hi.abort⟩
  | timer handler =>
    unfold Host.step
    dsimp only [tcpStep]
    split
    · next hrun => exact hsame (hi.handler hw hpos fun _ => .inl hrun)
    · exact ⟨w, .refl w, hi⟩
  | tick ms =>
    exact ⟨w, .refl w, hi.of_same _ rfl rfl (hi.side.of_eq _ rfl rfl)⟩

/-- **Every event keeps it**, also when threads of timers are late. -/
theorem HostInv.threadStep (hi : HostInv w u h) (hw : w.Short) (hu : u.Short) (hpos : 0 < w.base)
    {e : ThreadEvent} (htime : h.OnTime e)
    (hseg : ∀ seg, e = .event (.arrive seg) → FromPeer w u seg) :
    ∃ w', w.Grows w' ∧ HostInv w' u (h.threadStep env e) := by
  cases e with
  | event e => exact hi.step hw hu hpos htime fun seg he => hseg seg (congrArg _ he)
  | late handler =>
    obtain ⟨w', hadv, hi'⟩ := @HostInv.handler env _ _ _ hi hw hpos _ htime
    exact ⟨w', hadv.toGrows, hi'⟩

end Events

end LvlIp.Tcp
