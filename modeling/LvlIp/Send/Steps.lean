import LvlIp.Send.View
import Mathlib.Logic.Relation

/-!
# What an arriving segment does to the send side

The send side together with the transmissions made so far (`TxView`) changes in few ways when a
segment arrives at a socket whose handshake is over: segments without data go out, an
acknowledgement number is processed, pending segments go out when nothing is in flight, timers are
stopped, and the FEC state is released at the end. `TxStep` lists them, and `txSteps_tcpIn` says
that every arrival is a sequence of them. Invariants of the send side are proved against `TxStep`.
-/

namespace LvlIp.Tcp

open Fec Relation

/-- The send side of a socket and what it has transmitted. -/
structure TxView where
  snd : SndView
  out : List Transmission
  nextAddr : ℕ
  armed : Bool

/-- The send side of a socket and what it has transmitted. -/
def TcpSock.txv (s : TcpSock) : TxView where
  snd := s.snd
  out := s.out
  nextAddr := s.nextAddr
  armed := s.retransmit.isSome

/-! ## Transmission -/

/-- The header `th'` is `th` after some transmissions: flags and a coding option stay. -/
structure HeaderFrom (th th' : Tcphdr) : Prop where
  fin : th'.fin = th.fin
  syn : th'.syn = th.syn
  rst : th'.rst = th.rst
  ack : th'.ack = th.ack
  coded : th.data.getD 0 0 = tcpOptFec → th'.data = th.data
  hl : th.hl ≠ 0 → th'.hl = th.hl

theorem HeaderFrom.refl (th : Tcphdr) : HeaderFrom th th :=
  ⟨rfl, rfl, rfl, rfl, fun _ => rfl, fun _ => rfl⟩

theorem HeaderFrom.trans {th₁ th₂ th₃ : Tcphdr} (h : HeaderFrom th₁ th₂)
    (h' : HeaderFrom th₂ th₃) : HeaderFrom th₁ th₃ where
  fin := h'.fin.trans h.fin
  syn := h'.syn.trans h.syn
  rst := h'.rst.trans h.rst
  ack := h'.ack.trans h.ack
  coded := fun hc => (h'.coded (by rwa [h.coded hc])).trans (h.coded hc)
  hl := fun hl => (h'.hl (by rwa [h.hl hl])).trans (h.hl hl)

/-- The header `th'` is `th`, filled in for a transmission at `seq`. -/
structure FilledFrom (th : Tcphdr) (seq : UInt32) (th' : Tcphdr) : Prop
    extends HeaderFrom th th' where
  seq : th'.seq = seq

theorem filledFrom_tcpFillOptions (s : TcpSock) (skb : SkBuff) (seq : UInt32) :
    FilledFrom skb.th seq (tcpFillOptions s (tcpFillHeader s skb seq)).2 := by
  have hhl : ∀ h : ℕ, h ≠ 0 → (if h = 0 then tcpDoffset else h) = h := fun h hne => if_neg hne
  unfold tcpFillOptions tcpWriteOptions
  split
  · split
    · exact ⟨⟨rfl, rfl, rfl, rfl, fun _ => rfl, hhl _⟩, rfl⟩
    · next hdata =>
      split
      · exact ⟨⟨rfl, rfl, rfl, rfl, fun _ => rfl, hhl _⟩, rfl⟩
      · exact ⟨⟨rfl, rfl, rfl, rfl, fun h => absurd h hdata, hhl _⟩, rfl⟩
  · exact ⟨⟨rfl, rfl, rfl, rfl, fun _ => rfl, hhl _⟩, rfl⟩

/-- The transmission of a buffer. -/
def SkBuff.transmission (skb : SkBuff) (th : Tcphdr) : Transmission :=
  { addr := skb.addr, tag := skb.tag, seg := ⟨th, skb.payload⟩ }

/-- The buffer with its header filled in. -/
def SkBuff.withHeader (skb : SkBuff) (th : Tcphdr) : SkBuff := { skb with th }

/-- A segment goes out. -/
def TxView.emit (v : TxView) (t : Transmission) : TxView := { v with out := v.out ++ [t] }

/-- **Transmitting a buffer** fills its header and changes nothing else of the send side. -/
theorem exists_tcpTransmitSkb (env : Env) (s : TcpSock) (skb : SkBuff) (seq : UInt32) :
    ∃ th, FilledFrom skb.th seq th ∧ (tcpTransmitSkb env s skb seq).2.1 = skb.withHeader th ∧
      (tcpTransmitSkb env s skb seq).1.txv = s.txv.emit (skb.transmission th) := by
  refine ⟨_, filledFrom_tcpFillOptions s skb seq, rfl, ?_⟩
  unfold tcpTransmitSkb tcpFillOptions tcpWriteOptions
  split_ifs <;> rfl

/-- The sequence number after a buffer that is sent at `nxt`. -/
def SkBuff.after (skb : SkBuff) (nxt : UInt32) : UInt32 :=
  let endSeq := nxt + UInt32.ofNat skb.dlen
  if skb.th.fin then endSeq + 1 else endSeq

/-- The first buffers of a queue go out one after the other from `nxt` on: the next sequence
number, the queue and the transmissions. -/
inductive SendsNext : UInt32 → List SkBuff → ℕ → UInt32 → List SkBuff → List Transmission → Prop
  | nil (nxt : UInt32) (q : List SkBuff) : SendsNext nxt q 0 nxt q []
  | cons {nxt nxt' : UInt32} {skb : SkBuff} {q q' : List SkBuff} {n : ℕ} {th : Tcphdr}
      {ts : List Transmission} (hth : FilledFrom skb.th nxt th)
      (h : SendsNext (skb.after nxt) q n nxt' q' ts) :
      SendsNext nxt (skb :: q) (n + 1) nxt' ((skb.withHeader th).at nxt :: q')
        (skb.transmission th :: ts)

/-! ## Steps -/

/-- An atomic change of the send side on the arrival of a segment. -/
inductive TxStep : TxView → TxView → Prop
  | control (v : TxView) (th : Tcphdr) :
      TxStep v { v with
        out := v.out ++ [{ addr := v.nextAddr, tag := none, seg := ⟨th, []⟩ }]
        nextAddr := v.nextAddr + 1 }
  | ack (v : TxView) (ackSeq : UInt32) (hacc : v.snd.sndUna < ackSeq ∧ ackSeq ≤ v.snd.sndNxt)
      {armed : Bool} (harmed : armed → v.armed ∧ (v.snd.ack ackSeq).inflight ≠ 0) :
      TxStep v { v with snd := v.snd.ack ackSeq, armed }
  | pending (v : TxView) {n : ℕ} {nxt : UInt32} {q : List SkBuff} {ts : List Transmission}
      (h0 : v.snd.inflight = 0) (hpos : 0 < n) (h : SendsNext v.snd.sndNxt v.snd.writeQueue n nxt q ts) :
      TxStep v { v with
        snd := { v.snd with sndNxt := nxt, writeQueue := q, inflight := n }
        out := v.out ++ ts, armed := true }
  | disarm (v : TxView) : TxStep v { v with armed := false }
  | release (v : TxView) : TxStep v { v with snd := { v.snd with tx := none }, armed := false }

/-- The socket's handshake is over and it has not been closed. -/
def TcpState.connected : TcpState → Bool
  | .listen | .synSent | .synReceived | .close => false
  | _ => true

/-- The socket goes through steps of the send side and stays connected. -/
def TxSteps (s s' : TcpSock) : Prop :=
  s'.state.connected ∧ ReflTransGen TxStep s.txv s'.txv

theorem TxSteps.refl {s : TcpSock} (h : s.state.connected) : TxSteps s s := ⟨h, .refl⟩

theorem TxSteps.trans {s₁ s₂ s₃ : TcpSock} (h₁ : TxSteps s₁ s₂) (h₂ : TxSteps s₂ s₃) :
    TxSteps s₁ s₃ :=
  ⟨h₂.1, h₁.2.trans h₂.2⟩

theorem TxSteps.of_eq {s : TcpSock} (s' : TcpSock) (hst : s'.state.connected) (h : s'.txv = s.txv) :
    TxSteps s s' :=
  ⟨hst, h ▸ .refl⟩

theorem TxSteps.single {s s' : TcpSock} (hst : s'.state.connected) (h : TxStep s.txv s'.txv) :
    TxSteps s s' :=
  ⟨hst, .single h⟩

section Arrival

variable (env : Env) {s : TcpSock}

theorem state_tcpSendAck (s : TcpSock) : (tcpSendAck env s).state = s.state :=
  congrArg RcvView.state (rcv_tcpSendAck env s)

theorem txSteps_tcpSendAck (h : s.state.connected) : TxSteps s (tcpSendAck env s) := by
  refine ⟨by rwa [state_tcpSendAck], ?_⟩
  unfold tcpSendAck
  split
  · exact .refl
  · obtain ⟨th, -, -, hview⟩ := exists_tcpTransmitSkb env
      (tcpAllocSkb s none { Tcphdr.zero with
        ack := true, hl := tcpDoffset + tcpOptionsLen s / 4
        data := List.replicate (tcpOptionsLen s) 0 } []).1
      (tcpAllocSkb s none { Tcphdr.zero with
        ack := true, hl := tcpDoffset + tcpOptionsLen s / 4
        data := List.replicate (tcpOptionsLen s) 0 } []).2 s.tcb.sndNxt
    exact .single (hview ▸ TxStep.control s.txv th)

theorem txSteps_tcpDataQueue (h : s.state.connected) (skb : SkBuff) :
    TxSteps s (tcpDataQueue env s skb) := by
  unfold tcpDataQueue
  split
  · exact .refl h
  · split
    · exact .of_eq _ h rfl
    · dsimp only
      split
      · exact (TxSteps.of_eq (tcpCalculateSacks _) h rfl).trans (txSteps_tcpSendAck env h)
      · exact (TxSteps.of_eq { s with ofoQueue := _ } h rfl).trans (txSteps_tcpSendAck env h)

theorem txSteps_tcpEnterTimeWait (s : TcpSock) : TxSteps s (tcpEnterTimeWait s) :=
  .single rfl (.disarm s.txv)

theorem txSteps_tcpDone (s : TcpSock) : TxSteps s (tcpDone s) := .single rfl (.release s.txv)

/-! ## The ACK field -/

theorem txv_tcpRtt (s : TcpSock) : (tcpRtt s).txv = s.txv := by
  simp only [tcpRtt]
  split
  · rfl
  · split
    · rfl
    · split <;> rfl

theorem exists_tcpCleanRtoQueue (s : TcpSock) (una : UInt32) :
    ∃ armed : Bool, (armed → s.txv.armed ∧ (tcpCleanRtoQueue s una).snd.inflight ≠ 0) ∧
      (tcpCleanRtoQueue s una).txv =
        { s.txv with snd := (tcpCleanRtoQueue s una).snd, armed } := by
  unfold tcpCleanRtoQueue
  dsimp only
  split
  · exact ⟨false, by simp, rfl⟩
  · next h => exact ⟨s.txv.armed, fun ha => ⟨ha, fun h0 => h (.inr h0)⟩, rfl⟩

theorem state_tcpAck (s : TcpSock) (ackSeq : UInt32) : (tcpAck s ackSeq).1.state = s.state :=
  congrArg RcvView.state (rcv_tcpAck s ackSeq)

theorem txSteps_tcpAck (h : s.state.connected) (ackSeq : UInt32) :
    TxSteps s (tcpAck s ackSeq).1 := by
  refine ⟨by rwa [state_tcpAck], ?_⟩
  have hsnd := snd_tcpAck s ackSeq
  unfold tcpAck at hsnd ⊢
  dsimp only at hsnd ⊢
  split
  · next hacc =>
    rw [if_pos hacc] at hsnd
    have hrtt := txv_tcpRtt { s with tcb.sndUna := ackSeq }
    generalize tcpRtt { s with tcb.sndUna := ackSeq } = s₁ at hsnd hrtt ⊢
    obtain ⟨armed, harmed, hview⟩ := exists_tcpCleanRtoQueue s₁ ackSeq
    rw [hsnd, hrtt] at hview
    rw [hsnd, hrtt] at harmed
    rw [hview]
    exact .single (TxStep.ack s.txv ackSeq hacc harmed)
  · exact .refl

theorem txSteps_tcpAckField (h : s.state.connected) (th : Tcphdr) :
    TxSteps s (tcpAckField s th).1 := by
  unfold tcpAckField
  split
  · next hst => rw [hst] at h; cases h
  all_goals first
    | exact txSteps_tcpAck h th.ackSeq
    | exact .refl h

theorem txSteps_tcpFinAcked (h : s.state.connected) (th : Tcphdr) :
    TxSteps s (tcpFinAcked env s th).1 := by
  unfold tcpFinAcked
  split
  · split
    · exact .of_eq _ rfl rfl
    · exact .of_eq _ rfl rfl
    · exact txSteps_tcpDone s
    · split
      · exact (TxSteps.of_eq { s with finFlag := true } h rfl).trans (txSteps_tcpSendAck env h)
      · exact .refl h
    · exact .refl h
  · exact .refl h

/-! ## Text and FIN -/

theorem txSteps_tcpText (h : s.state.connected) (skb : SkBuff) : TxSteps s (tcpText env s skb) := by
  unfold tcpText
  split
  · exact txSteps_tcpDataQueue env h skb
  · exact .refl h

theorem txSteps_tcpFinState (h : s.state.connected) : TxSteps s (tcpFinState s) := by
  unfold tcpFinState
  split
  · exact .of_eq _ rfl rfl
  · exact .of_eq _ rfl rfl
  · split
    · exact txSteps_tcpEnterTimeWait s
    · exact .of_eq _ rfl rfl
  · exact txSteps_tcpEnterTimeWait s
  · exact .refl h

theorem txSteps_tcpFin (h : s.state.connected) (th : Tcphdr) (expected : Bool) :
    TxSteps s (tcpFin env s th expected) := by
  unfold tcpFin
  split
  · have hack : TxSteps s (tcpSendAck env
        { s with tcb.rcvNxt := s.tcb.rcvNxt + 1, finFlag := true }) :=
      (TxSteps.of_eq { s with tcb.rcvNxt := s.tcb.rcvNxt + 1, finFlag := true } h rfl).trans
        (txSteps_tcpSendAck env h)
    exact hack.trans (txSteps_tcpFinState hack.1)
  · exact .refl h

/-! ## Pending segments -/

/-- Transmissions go out and `snd_nxt` moves to `nxt`. -/
def TxView.sendAll (v : TxView) (nxt : UInt32) (ts : List Transmission) : TxView :=
  { v with snd := { v.snd with sndNxt := nxt }, out := v.out ++ ts }

theorem TxView.sendAll_emit (v : TxView) (t : Transmission) (nxt : UInt32)
    (ts : List Transmission) : (v.emit t).sendAll nxt ts = v.sendAll nxt (t :: ts) := by
  simp [TxView.sendAll, TxView.emit]

/-- **`tcp_send_next`** sends the first buffers of the queue. -/
theorem sendsNext_tcpSendNextLoop (n : ℕ) (s : TcpSock) (q : List SkBuff) (hn : n ≤ q.length) :
    ∃ ts, SendsNext s.tcb.sndNxt q n (tcpSendNextLoop env n s q).1.tcb.sndNxt
        (tcpSendNextLoop env n s q).2 ts ∧
      (tcpSendNextLoop env n s q).1.txv =
        s.txv.sendAll (tcpSendNextLoop env n s q).1.tcb.sndNxt ts := by
  induction n generalizing s q with
  | zero => exact ⟨[], .nil _ _, by rw [TxView.sendAll, List.append_nil]; rfl⟩
  | succ n ih =>
    cases q with
    | nil => cases hn
    | cons skb q =>
      obtain ⟨th, hth, hskb, hview⟩ := exists_tcpTransmitSkb env s skb s.tcb.sndNxt
      rw [tcpSendNextLoop]
      dsimp only
      rw [hskb]
      generalize (tcpTransmitSkb env s skb s.tcb.sndNxt).1 = s₁ at hview ⊢
      have hnxt : s₁.tcb.sndNxt = s.tcb.sndNxt := congrArg (fun v => v.snd.sndNxt) hview
      have hafter : (tcpAdvanceNxt s₁ (skb.withHeader th)).tcb.sndNxt =
          skb.after s.tcb.sndNxt := by
        rw [← hnxt, SkBuff.after, ← hth.fin]
        rfl
      obtain ⟨ts, hsends, hrest⟩ := ih (tcpAdvanceNxt s₁ (skb.withHeader th)) q (by simpa using hn)
      rw [hafter] at hsends
      refine ⟨skb.transmission th :: ts, ?_, ?_⟩
      · rw [hnxt]
        exact .cons hth hsends
      · rw [hrest, ← TxView.sendAll_emit, ← hview]
        rfl

theorem txSteps_tcpSendPending (h : s.state.connected) (h0 : s.inflight = 0) {n : ℕ} (hpos : 0 < n)
    (hn : n ≤ s.writeQueue.length) : TxSteps s (tcpSendPending env s n) := by
  have hst : (tcpSendPending env s n).state = s.state :=
    congrArg RcvView.state (rcv_tcpSendPending env s n)
  refine ⟨by rwa [hst], .single ?_⟩
  obtain ⟨ts, hsends, hview⟩ := sendsNext_tcpSendNextLoop env n s s.writeQueue hn
  unfold tcpSendPending tcpSendNext
  dsimp only
  generalize tcpSendNextLoop env n s s.writeQueue = l at hsends hview ⊢
  obtain ⟨s₁, q⟩ := l
  dsimp only at hsends hview ⊢
  have hinflight : s₁.inflight = 0 := (congrArg (fun v => v.snd.inflight) hview).trans h0
  have harm : ∀ s : TcpSock, (tcpRearmRtoTimer s).txv = { s.txv with armed := true } := by
    intro s
    unfold tcpRearmRtoTimer
    dsimp only
    split <;> rfl
  rw [harm]
  have hfinal : TxView.mk { s₁.txv.snd with writeQueue := q, inflight := s₁.inflight + n }
      s₁.txv.out s₁.txv.nextAddr true =
      { s.txv with
        snd := { s.txv.snd with sndNxt := s₁.tcb.sndNxt, writeQueue := q, inflight := n }
        out := s.txv.out ++ ts, armed := true } := by
    rw [hview, hinflight, Nat.zero_add]
    rfl
  exact hfinal ▸ TxStep.pending s.txv h0 hpos hsends

theorem txSteps_tcpAckOrDelay (h : s.state.connected) (skb : SkBuff) :
    TxSteps s (tcpAckOrDelay env s skb) := by
  unfold tcpAckOrDelay
  dsimp only
  split
  · exact (TxSteps.of_eq { s with delacks := 0 } h rfl).trans (txSteps_tcpSendAck env h)
  · split
    · exact .of_eq _ h rfl
    · exact .of_eq _ h rfl

theorem txSteps_tcpPending (h : s.state.connected) (skb : SkBuff) (expected : Bool) :
    TxSteps s (tcpPending env s skb expected) := by
  unfold tcpPending
  split
  · have hstop : TxSteps s (tcpStopDelackTimer s) := .of_eq _ h rfl
    dsimp only
    split
    · next hp =>
      exact hstop.trans (txSteps_tcpSendPending env hstop.1 hp.1 hp.2 (Nat.min_le_left _ _))
    · exact hstop.trans (txSteps_tcpAckOrDelay env hstop.1 skb)
  · exact .refl h

/-! ## The whole arrival -/

theorem txSteps_tcpDeliver (h : s.state.connected) (skb : SkBuff) :
    TxSteps s (tcpDeliver env s skb) := by
  have htext := txSteps_tcpText env h skb
  have hfin := htext.trans (txSteps_tcpFin env htext.1 skb.th (skb.seq == s.tcb.rcvNxt))
  exact hfin.trans (txSteps_tcpPending env hfin.1 skb _)

theorem txSteps_tcpSegmentArrives (h : s.state.connected) (skb : SkBuff) :
    TxSteps s (tcpSegmentArrives env s skb) := by
  unfold tcpSegmentArrives
  split
  · split
    · exact .refl h
    · exact txSteps_tcpSendAck env h
  · split
    · exact txSteps_tcpEnterTimeWait s
    · split
      · exact .refl h
      · split
        · exact .refl h
        · have hack := txSteps_tcpAckField h skb.th
          dsimp only
          split
          · exact hack
          · have hfin := hack.trans (txSteps_tcpFinAcked env hack.1 skb.th)
            split
            · exact hfin
            · exact hfin.trans (txSteps_tcpDeliver env hfin.1 skb)

theorem tx_tcpFecRx (fec : TcpFec) (skb : SkBuff) : (tcpFecRx fec skb).1.tx = fec.tx := by
  unfold tcpFecRx
  split
  · dsimp only
    split
    · split <;> rfl
    · split
      · split <;> rfl
      · rfl
  · rfl

theorem txSteps_tcpFecInput (h : s.state.connected) {fec : TcpFec} (hfec : s.fec = some fec)
    (skb : SkBuff) : TxSteps s (tcpFecInput env s fec skb).1 := by
  have hput : TxSteps s { s with fec := some (tcpFecRx fec skb).1 } := by
    refine .of_eq _ h ?_
    have hsnd : TcpSock.snd { s with fec := some (tcpFecRx fec skb).1 } = s.snd := by
      simp only [TcpSock.snd, Option.map_some, tx_tcpFecRx, hfec]
    simp only [TcpSock.txv, hsnd]
  have hsplice : ∀ (sps : List Splice) {s' : TcpSock}, TxSteps s s' →
      TxSteps s (sps.foldl (tcpFecSplice env) s') := by
    intro sps
    induction sps with
    | nil => exact fun h' => h'
    | cons sp sps ih => exact fun h' => ih (h'.trans (txSteps_tcpDataQueue env h'.1 sp.skb))
  have hall := hsplice (tcpFecRx fec skb).2.1 hput
  unfold tcpFecInput
  dsimp only
  split
  · exact hall
  · exact hall.trans (txSteps_tcpSendAck env hall.1)

/-- **An arriving segment takes the send side through steps.** -/
theorem txSteps_tcpIn (h : s.state.connected) (seg : Segment) : TxSteps s (tcpIn env s seg) := by
  unfold tcpIn tcpInputState
  split
  · next hst => rw [hst] at h; cases h
  · exact .refl h
  · next hst => rw [hst] at h; cases h
  · split
    · exact txSteps_tcpSegmentArrives env h _
    · next fec hfec =>
      have hin := txSteps_tcpFecInput env h hfec (tcpInitSegment seg)
      dsimp only
      split
      · exact hin
      · exact hin.trans (txSteps_tcpSegmentArrives env hin.1 _)

end Arrival

end LvlIp.Tcp
