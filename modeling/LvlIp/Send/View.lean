import LvlIp.Receive.View

/-!
# What the send path changes

The send side of a socket is its sequence numbers, its write queue with the number of segments in
flight, and the transmit half of the FEC state (`SndView`). Receiving leaves it alone, except for
the two places where an arriving segment does send-side work: the ACK field (`snd_tcpAck`) and
the transmission of pending segments (`snd_tcpPending`).
-/

namespace LvlIp.Tcp

open Fec

/-- The FEC state without its receive ring. -/
def TcpFec.tx (fec : TcpFec) : TcpFec := { fec with rx := [] }

/-- The send side of a socket. -/
structure SndView where
  sndUna : UInt32
  sndNxt : UInt32
  iss : UInt32
  writeQueue : List SkBuff
  inflight : ℕ
  queued : List SkBuff
  smss : UInt16
  tx : Option TcpFec

/-- The send side of a socket. -/
def TcpSock.snd (s : TcpSock) : SndView where
  sndUna := s.tcb.sndUna
  sndNxt := s.tcb.sndNxt
  iss := s.tcb.iss
  writeQueue := s.writeQueue
  inflight := s.inflight
  queued := s.queued
  smss := s.smss
  tx := s.fec.map TcpFec.tx

/-! ## Receiving leaves the send side alone -/

variable (env : Env) (s : TcpSock)

@[simp]
theorem snd_tcpRearmRtoTimer : (tcpRearmRtoTimer s).snd = s.snd := by
  simp only [tcpRearmRtoTimer]
  split <;> rfl

@[simp]
theorem snd_tcpRearmUserTimeout : (tcpRearmUserTimeout s).snd = s.snd := by
  simp only [tcpRearmUserTimeout]
  split <;> rfl

@[simp]
theorem snd_tcpRtt : (tcpRtt s).snd = s.snd := by
  simp only [tcpRtt]
  split
  · rfl
  · split
    · rfl
    · split <;> rfl

@[simp]
theorem snd_tcpFillOptions (th : Tcphdr) : (tcpFillOptions s th).1.snd = s.snd := by
  simp only [tcpFillOptions, tcpWriteOptions]
  split_ifs <;> rfl

@[simp]
theorem snd_tcpTransmitSkb (skb : SkBuff) (seq : UInt32) :
    (tcpTransmitSkb env s skb seq).1.snd = s.snd :=
  snd_tcpFillOptions s _

@[simp]
theorem snd_tcpSendAck : (tcpSendAck env s).snd = s.snd := by
  simp only [tcpSendAck]
  split
  · rfl
  · exact snd_tcpTransmitSkb env _ _ _

@[simp]
theorem snd_tcpDataQueue (skb : SkBuff) : (tcpDataQueue env s skb).snd = s.snd := by
  simp only [tcpDataQueue]
  split
  · rfl
  · split
    · rfl
    · rw [snd_tcpSendAck]
      split <;> rfl

@[simp]
theorem snd_tcpText (skb : SkBuff) : (tcpText env s skb).snd = s.snd := by
  simp only [tcpText]
  split
  · exact snd_tcpDataQueue env s skb
  · rfl

@[simp]
theorem snd_tcpFinState : (tcpFinState s).snd = s.snd := by
  simp only [tcpFinState]
  split
  · rfl
  · rfl
  · split <;> rfl
  · rfl
  · rfl

@[simp]
theorem snd_tcpFin (th : Tcphdr) (expected : Bool) :
    (tcpFin env s th expected).snd = s.snd := by
  simp only [tcpFin]
  split
  · rw [snd_tcpFinState, snd_tcpSendAck]
    rfl
  · rfl

/-! ## The ACK field -/

/-- An acceptable acknowledgement on the send side. -/
def SndView.ack (v : SndView) (ackSeq : UInt32) : SndView :=
  if v.sndUna < ackSeq ∧ ackSeq ≤ v.sndNxt then
    let r := tcpCleanLoop ackSeq v.writeQueue v.inflight
    { v with sndUna := ackSeq, writeQueue := r.1, inflight := r.2 }
  else v

theorem snd_tcpCleanRtoQueue (una : UInt32) :
    (tcpCleanRtoQueue s una).snd =
      { s.snd with
        writeQueue := (tcpCleanLoop una s.writeQueue s.inflight).1
        inflight := (tcpCleanLoop una s.writeQueue s.inflight).2 } := by
  simp only [tcpCleanRtoQueue]
  split <;> rfl

theorem snd_tcpAck (ackSeq : UInt32) : (tcpAck s ackSeq).1.snd = s.snd.ack ackSeq := by
  have hrtt := snd_tcpRtt { s with tcb.sndUna := ackSeq }
  simp only [tcpAck, SndView.ack]
  change _ = if s.tcb.sndUna < ackSeq ∧ ackSeq ≤ s.tcb.sndNxt then _ else _
  split
  · rw [snd_tcpCleanRtoQueue, hrtt]
    have hq := congrArg SndView.writeQueue hrtt
    have hi := congrArg SndView.inflight hrtt
    simp only [TcpSock.snd] at hq hi
    rw [hq, hi]
    rfl
  · rfl

/-- The acknowledgement lets the segment through. -/
theorem tcpAck_snd (ackSeq : UInt32) : (tcpAck s ackSeq).2 =
    decide ¬ (ackSeq < (s.snd.ack ackSeq).sndUna ∨ (s.snd.ack ackSeq).sndNxt < ackSeq) := by
  rw [← snd_tcpAck]
  rfl

theorem SndView.ack_of_acceptable {v : SndView} {ackSeq : UInt32}
    (h : v.sndUna < ackSeq ∧ ackSeq ≤ v.sndNxt) : v.ack ackSeq =
      { v with
        sndUna := ackSeq
        writeQueue := (tcpCleanLoop ackSeq v.writeQueue v.inflight).1
        inflight := (tcpCleanLoop ackSeq v.writeQueue v.inflight).2 } :=
  if_pos h

/-- A segment with an acceptable acknowledgement goes on. -/
theorem tcpAck_through {s : TcpSock} {ackSeq : UInt32}
    (h : s.tcb.sndUna < ackSeq ∧ ackSeq ≤ s.tcb.sndNxt) : (tcpAck s ackSeq).2 := by
  have hack : s.snd.ack ackSeq = _ := SndView.ack_of_acceptable h
  rw [tcpAck_snd, hack]
  refine decide_eq_true ?_
  rintro (hlt | hlt)
  · exact UInt32.lt_irrefl _ hlt
  · exact UInt32.not_lt.mpr h.2 hlt

/-! ## Pending segments -/

@[simp]
theorem snd_tcpAckOrDelay (skb : SkBuff) : (tcpAckOrDelay env s skb).snd = s.snd := by
  simp only [tcpAckOrDelay]
  split
  · exact snd_tcpSendAck env _
  · split <;> rfl

theorem snd_tcpPending_of_inflight (skb : SkBuff) (expected : Bool)
    (h : ¬ (s.inflight = 0 ∧ s.writeQueue ≠ [])) :
    (tcpPending env s skb expected).snd = s.snd := by
  have hpend : ¬ ((tcpStopDelackTimer s).inflight = 0 ∧
      0 < min (tcpStopDelackTimer s).writeQueue.length 3) := by
    rintro ⟨h0, hlen⟩
    exact h ⟨h0, fun hnil => by simp [tcpStopDelackTimer, hnil] at hlen⟩
  simp only [tcpPending]
  split
  · exact snd_tcpAckOrDelay env _ skb
  · rfl

end LvlIp.Tcp
