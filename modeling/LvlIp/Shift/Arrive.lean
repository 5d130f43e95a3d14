import LvlIp.Shift.Queue
import LvlIp.Shift.Range

/-!
# Arriving segments under a translation

What `tcp_input_state` does with a segment depends on comparisons of sequence numbers by size. As
long as the numbers that are compared are all moved by the same amount, without a wrap between them
(`Keeps`), the comparisons come out the same: this is asked of the send side by `SndOk`, and of
the receive side by the agreement on the window check and by `DataOk`.
-/

namespace LvlIp.Tcp

open Fec Foundations

/-! ## Acknowledgements -/

section Ack

variable {σ : Shift} {s s' : TcpSock}

theorem shift_tcpCleanLoop {una : UInt32} {q : List SkBuff} (n : ℕ)
    (h : ∀ y ∈ q, y.seq ≠ 0 →
      y.seq + σ.snd ≠ 0 ∧ (y.endSeq + σ.snd ≤ una + σ.snd ↔ y.endSeq ≤ una)) :
    tcpCleanLoop (una + σ.snd) (q.map (SkBuff.shiftOut σ)) n =
      ((tcpCleanLoop una q n).1.map (SkBuff.shiftOut σ), (tcpCleanLoop una q n).2) := by
  induction q generalizing n with
  | nil => rfl
  | cons skb q ih =>
    have hih := fun n => ih n fun y hy => h y (List.mem_cons_of_mem _ hy)
    have hpos : ∀ x : UInt32, 0 < x ↔ x ≠ 0 := fun x => UInt32.pos_iff_ne_zero
    have hcond : 0 < (skb.shiftOut σ).seq ∧ (skb.shiftOut σ).endSeq ≤ una + σ.snd ↔
        0 < skb.seq ∧ skb.endSeq ≤ una := by
      rw [hpos, hpos]
      unfold SkBuff.shiftOut
      dsimp only
      rcases eq_or_ne skb.seq 0 with h0 | h0
      · simp [h0]
      · obtain ⟨hne, hle⟩ := h skb List.mem_cons_self h0
        simp [h0, hne, hle]
    rw [List.map_cons]
    unfold tcpCleanLoop
    rw [if_congr hcond rfl rfl, hih]
    split <;> rfl

theorem Shifted.cleanRtoQueue (h : Shifted σ s s') {una : UInt32}
    (hq : ∀ y ∈ s.writeQueue, y.seq ≠ 0 →
      y.seq + σ.snd ≠ 0 ∧ (y.endSeq + σ.snd ≤ una + σ.snd ↔ y.endSeq ≤ una)) :
    Shifted σ (tcpCleanRtoQueue s una) (tcpCleanRtoQueue s' (una + σ.snd)) := by
  have hloop := shift_tcpCleanLoop s.inflight hq
  have hset : Shifted σ
      { s with
        writeQueue := (tcpCleanLoop una s.writeQueue s.inflight).1
        inflight := (tcpCleanLoop una s.writeQueue s.inflight).2 }
      { s' with
        writeQueue := (tcpCleanLoop una s.writeQueue s.inflight).1.map (SkBuff.shiftOut σ)
        inflight := (tcpCleanLoop una s.writeQueue s.inflight).2 } :=
    h.of (by rw [h.eq]; rfl) ⟨rfl, rfl, rfl⟩
  have hq' : s'.writeQueue = s.writeQueue.map (SkBuff.shiftOut σ) := by rw [h.eq]; rfl
  have hi : s'.inflight = s.inflight := by rw [h.eq]; rfl
  unfold tcpCleanRtoQueue
  rw [hq', hi, hloop]
  dsimp only
  rw [if_congr (or_congr_left (List.map_eq_nil_iff (f := SkBuff.shiftOut σ))) rfl rfl]
  split
  · exact hset.stopRtoTimer
  · exact hset

/-- **An acknowledgement number.** -/
theorem Shifted.ack (h : Shifted σ s s') (hsnd : SndOk σ.snd s.snd) (ackSeq : UInt32) :
    Shifted σ (tcpAck s ackSeq).1 (tcpAck s' (ackSeq + σ.snd)).1 ∧
      (tcpAck s' (ackSeq + σ.snd)).2 = (tcpAck s ackSeq).2 := by
  obtain ⟨-, hnew, -⟩ := hsnd.mem_iff ackSeq
  have hsnd₁ := hsnd.ack ackSeq
  rw [← snd_tcpAck] at hsnd₁
  have hsock : Shifted σ (tcpAck s ackSeq).1 (tcpAck s' (ackSeq + σ.snd)).1 := by
    have hcond : s'.tcb.sndUna < ackSeq + σ.snd ∧ ackSeq + σ.snd ≤ s'.tcb.sndNxt ↔
        s.tcb.sndUna < ackSeq ∧ ackSeq ≤ s.tcb.sndNxt := by
      rw [h.eq]
      exact hnew
    unfold tcpAck
    dsimp only
    rw [if_congr hcond rfl rfl]
    split
    · next hmem =>
      have hset : Shifted σ { s with tcb.sndUna := ackSeq }
          { s' with tcb.sndUna := ackSeq + σ.snd } := h.of (by rw [h.eq]; rfl) ⟨rfl, rfl, rfl⟩
      have hq : (tcpRtt { s with tcb.sndUna := ackSeq }).writeQueue = s.writeQueue :=
        congrArg SndView.writeQueue (snd_tcpRtt { s with tcb.sndUna := ackSeq })
      refine hset.rtt.cleanRtoQueue ?_
      rw [hq]
      exact hsnd.acked ⟨UInt32.le_of_lt hmem.1, hmem.2⟩
    · exact h
  refine ⟨hsock, ?_⟩
  have huna : (tcpAck s' (ackSeq + σ.snd)).1.tcb.sndUna =
      (tcpAck s ackSeq).1.tcb.sndUna + σ.snd := by rw [hsock.eq]; rfl
  have hnxt : (tcpAck s' (ackSeq + σ.snd)).1.tcb.sndNxt =
      (tcpAck s ackSeq).1.tcb.sndNxt + σ.snd := by rw [hsock.eq]; rfl
  change (decide ¬ (_ < (tcpAck s' (ackSeq + σ.snd)).1.tcb.sndUna ∨
    (tcpAck s' (ackSeq + σ.snd)).1.tcb.sndNxt < _)) =
      decide ¬ (_ < (tcpAck s ackSeq).1.tcb.sndUna ∨ (tcpAck s ackSeq).1.tcb.sndNxt < _)
  rw [decide_not_outside, decide_not_outside, huna, hnxt]
  exact decide_eq_decide.2 (hsnd₁.mem_iff ackSeq).1

end Ack

/-! ## The stages -/

/-- An arriving buffer, moved. -/
def SkBuff.arrived (σ : Shift) (skb : SkBuff) : SkBuff :=
  { skb with th := skb.th.shiftIn σ, seq := skb.seq + σ.rcv, endSeq := skb.endSeq + σ.rcv }

theorem arrived_eq_shiftIn {σ : Shift} {skb : SkBuff} (h : skb.th.ack) :
    skb.arrived σ = skb.shiftIn σ := by
  unfold SkBuff.arrived SkBuff.shiftIn
  rw [if_pos h]

section Stages

variable {σ : Shift} {s s' : TcpSock} (env : Env)

theorem Shifted.fecResolve (h : Shifted σ s s') :
    Shifted σ (tcpFecResolve s) (tcpFecResolve s') := by
  have hok : s'.fecok = s.fecok := by rw [h.eq]; rfl
  have hfec : some (s'.fec.getD tcpFecFresh) =
      (some (s.fec.getD tcpFecFresh)).map (TcpFec.shift σ.snd) := by
    rw [h.eq]
    change some ((s.fec.map _).getD tcpFecFresh) = _
    cases s.fec <;> rfl
  rw [tcpFecResolve_eq, tcpFecResolve_eq, hok, hfec]
  split
  · exact h.of (by rw [h.eq]; rfl) ⟨rfl, rfl, rfl⟩
  · exact h

theorem SndRange.fecResolve {c : UInt32} {d : ℤ} (h : SndRange c d s.snd) :
    SndRange c d (tcpFecResolve s).snd := by
  rw [tcpFecResolve_eq]
  split
  · refine { h with pinned := fun fec hfec hpos => ?_ }
    change some (s.fec.getD tcpFecFresh).tx = some fec at hfec
    rw [← Option.some.inj hfec] at hpos ⊢
    cases hs : s.fec with
    | none =>
      rw [hs] at hpos
      exact absurd hpos (Nat.lt_irrefl 0)
    | some fec₀ =>
      rw [hs] at hpos
      refine h.pinned fec₀.tx ?_ hpos
      change s.fec.map TcpFec.tx = _
      rw [hs]
      rfl
  · exact h

theorem SndInv.fecResolve {c : UInt32} (h : SndInv c s.snd) : SndInv c (tcpFecResolve s).snd := by
  obtain ⟨⟨d, hd⟩, hroom⟩ := h
  refine ⟨⟨d, hd.fecResolve⟩, ?_⟩
  rw [tcpFecResolve_eq]
  split
  · exact ⟨hroom.room, hroom.room_add⟩
  · exact hroom

theorem SndInv.ackField {c : UInt32} (h : SndInv c s.snd) (th : Tcphdr) :
    SndInv c (tcpAckField s th).1.snd := by
  unfold tcpAckField
  split
  · split
    · rw [snd_tcpAck]
      exact SndInv.ack (SndInv.fecResolve (s := { s with state := .established }) h) _
    · exact h
  · rw [snd_tcpAck]
    exact h.ack _
  · rw [snd_tcpAck]
    exact h.ack _
  · rw [snd_tcpAck]
    exact h.ack _
  · rw [snd_tcpAck]
    exact h.ack _
  · rw [snd_tcpAck]
    exact h.ack _
  · rw [snd_tcpAck]
    exact h.ack _
  · exact h

/-- **Fifth, the ACK field.** -/
theorem Shifted.ackField (h : Shifted σ s s') (hsnd : SndOk σ.snd s.snd) (th : Tcphdr) :
    Shifted σ (tcpAckField s th).1 (tcpAckField s' (th.shiftIn σ)).1 ∧
      (tcpAckField s' (th.shiftIn σ)).2 = (tcpAckField s th).2 := by
  have hst : s'.state = s.state := by rw [h.eq]; rfl
  have hack : (th.shiftIn σ).ackSeq = th.ackSeq + σ.snd := rfl
  obtain ⟨-, -, hmem⟩ := hsnd.mem_iff th.ackSeq
  unfold tcpAckField
  rw [hst, hack]
  cases s.state with
  | synReceived =>
    have hcond : s'.tcb.sndUna ≤ th.ackSeq + σ.snd ∧ th.ackSeq + σ.snd < s'.tcb.sndNxt ↔
        s.tcb.sndUna ≤ th.ackSeq ∧ th.ackSeq < s.tcb.sndNxt := by
      rw [h.eq]
      exact hmem
    have hset : Shifted σ { s with state := .established } { s' with state := .established } :=
      h.of (by rw [h.eq]; rfl) ⟨rfl, rfl, rfl⟩
    dsimp only
    rw [if_congr hcond rfl rfl]
    split
    · refine hset.fecResolve.ack (hsnd.imp_right fun hinv => ?_) _
      exact SndInv.fecResolve (s := { s with state := .established }) hinv
    · exact ⟨h, rfl⟩
  | established | finWait1 | finWait2 | closeWait | closing | lastAck => exact h.ack hsnd _
  | _ => exact ⟨h, rfl⟩

/-- What an acknowledged FIN means. -/
theorem Shifted.finAcked (h : Shifted σ s s') (th : Tcphdr) :
    Shifted σ (tcpFinAcked env s th).1 (tcpFinAcked env s' (th.shiftIn σ)).1 ∧
      (tcpFinAcked env s' (th.shiftIn σ)).2 = (tcpFinAcked env s th).2 := by
  have hst : s'.state = s.state := by rw [h.eq]; rfl
  have hnil : s'.writeQueue = [] ↔ s.writeQueue = [] := by
    rw [h.eq]
    exact List.map_eq_nil_iff
  have hseq : s'.tcb.rcvNxt = (th.shiftIn σ).seq ↔ s.tcb.rcvNxt = th.seq := by
    rw [h.eq]
    exact add_left_inj σ.rcv
  have hack : ∀ state, Shifted σ (tcpSendAck env { s with state, finFlag := true })
      (tcpSendAck env { s' with state, finFlag := true }) := by
    intro state
    refine Shifted.sendAck env ?_
    exact h.of (by rw [h.eq]; rfl) ⟨rfl, rfl, rfl⟩
  unfold tcpFinAcked
  rw [hst, if_congr hnil rfl rfl, if_congr hseq rfl rfl]
  split
  · cases s.state with
    | timeWait =>
      dsimp only
      split
      · exact ⟨hack .timeWait, rfl⟩
      · exact ⟨h, rfl⟩
    | lastAck => exact ⟨h.done, rfl⟩
    | finWait1 | closing => exact ⟨h.of (by rw [h.eq]; rfl) ⟨rfl, rfl, rfl⟩, rfl⟩
    | _ => exact ⟨h, rfl⟩
  · exact ⟨h, rfl⟩

theorem SndInv.done {c : UInt32} (h : SndInv c s.snd) : SndInv c (tcpDone s).snd := by
  obtain ⟨⟨d, hd⟩, hroom⟩ := h
  exact ⟨⟨d, { hd with pinned := nofun }⟩, hroom.room, hroom.room_add⟩

theorem SndInv.finAcked {c : UInt32} (h : SndInv c s.snd) (th : Tcphdr) :
    SndInv c (tcpFinAcked env s th).1.snd := by
  unfold tcpFinAcked
  split
  · split
    · exact h
    · exact h
    · exact h.done
    · split
      · rw [snd_tcpSendAck]
        exact h
      · exact h
    · exact h
  · exact h

/-- **Seventh, the segment text.** -/
theorem Shifted.text (h : Shifted σ s s') {skb : SkBuff} (hack : skb.th.ack)
    (hok : σ.rcv = 0 ∨ (s.state.receives → DataOk σ.rcv s skb)) :
    Shifted σ (tcpText env s skb) (tcpText env s' (skb.arrived σ)) := by
  have hst : s'.state = s.state := by rw [h.eq]; rfl
  unfold tcpText
  rw [hst]
  change Shifted σ _ (if s.state.receives ∧ (skb.th.psh ∨ 0 < skb.dlen) then _ else _)
  split
  · next hrec =>
    rw [arrived_eq_shiftIn hack]
    refine h.dataQueue env (fun hcl => ?_) (hok.imp_right fun ho => ho hrec.1)
    rw [hcl] at hrec
    cases hrec.1
  · exact h

theorem Shifted.finState (h : Shifted σ s s') : Shifted σ (tcpFinState s) (tcpFinState s') := by
  have hst : s'.state = s.state := by rw [h.eq]; rfl
  have hnil : s'.writeQueue = [] ↔ s.writeQueue = [] := by
    rw [h.eq]
    exact List.map_eq_nil_iff
  unfold tcpFinState
  rw [hst]
  cases s.state with
  | finWait1 =>
    dsimp only
    rw [if_congr hnil rfl rfl]
    split
    · exact h.enterTimeWait
    · exact h.of (by rw [h.eq]; rfl) ⟨rfl, rfl, rfl⟩
  | finWait2 => exact h.enterTimeWait
  | synReceived | established => exact h.of (by rw [h.eq]; rfl) ⟨rfl, rfl, rfl⟩
  | _ => exact h

/-- **Eighth, the FIN bit.** -/
theorem Shifted.fin (h : Shifted σ s s') (th : Tcphdr) (expected : Bool) :
    Shifted σ (tcpFin env s th expected) (tcpFin env s' (th.shiftIn σ) expected) := by
  unfold tcpFin
  change Shifted σ _ (if th.fin ∧ expected then _ else _)
  split
  · refine Shifted.finState (Shifted.sendAck env (h.of ?_ ⟨rfl, rfl, rfl⟩))
    rw [h.eq]
    unfold TcpSock.shift Tcb.shift
    dsimp only
    rw [add_right_comm]
  · exact h

/-- What waits can be sent, none of it at 0. -/
theorem nextOk_of_room (n : ℕ) {nxt : UInt32} {q : List SkBuff} (hne : nxt ≠ 0)
    (hunsent : ∀ y ∈ q, y.seq = 0) (hroom : nxt.toNat + unsentLen q < 2 ^ 32) :
    NextOk n nxt q := by
  induction n generalizing nxt q with
  | zero => trivial
  | succ n ih =>
    cases q with
    | nil => trivial
    | cons skb q =>
      have hlen : unsentLen (skb :: q) = skb.dlen + (if skb.th.fin then 1 else 0) + unsentLen q := by
        rw [unsentLen, List.map_cons, List.sum_cons, if_pos (hunsent skb List.mem_cons_self)]
        rfl
      have hpos : 0 < nxt.toNat := by
        rw [Nat.pos_iff_ne_zero]
        exact fun h0 => hne (UInt32.toNat_inj.1 h0)
      have hval : (nxt + UInt32.ofNat skb.dlen + if skb.th.fin then 1 else 0).toNat =
          nxt.toNat + skb.dlen + if skb.th.fin then 1 else 0 := by
        rw [hlen] at hroom
        rw [UInt32.toNat_add, UInt32.toNat_add, UInt32.toNat_ofNat']
        split
        · next hfin =>
          rw [if_pos hfin] at hroom
          change (_ + 1) % _ = _
          omega
        · next hfin =>
          rw [if_neg hfin] at hroom
          change (_ + 0) % _ = _
          omega
      refine ⟨hne, ih (fun h0 => ?_) (fun y hy => hunsent y (List.mem_cons_of_mem _ hy)) ?_⟩
      · rw [h0] at hval
        change 0 = _ at hval
        omega
      · omega

/-- **Pending segments** go out when nothing is in flight. -/
theorem Shifted.pending (h : Shifted σ s s') (hsnd : SndOk σ.snd s.snd) (skb : SkBuff)
    (expected : Bool) :
    Shifted σ (tcpPending env s skb expected) (tcpPending env s' (skb.arrived σ) expected) := by
  have hst : s'.state = s.state := by rw [h.eq]; rfl
  have hstop : Shifted σ (tcpStopDelackTimer s) (tcpStopDelackTimer s') :=
    h.of (by rw [h.eq]; rfl) ⟨rfl, rfl, rfl⟩
  have hnext : s.inflight = 0 →
      (σ.snd = 0 ∨ NextOk (min s.writeQueue.length 3) s.tcb.sndNxt s.writeQueue) := fun h0 =>
    hsnd.imp_right fun ⟨⟨_, hd⟩, hroom⟩ => nextOk_of_room _ hd.nxt_ne (hd.unsent h0) hroom.room
  unfold tcpPending
  rw [hst]
  dsimp only
  split
  · have hi : (tcpStopDelackTimer s').inflight = (tcpStopDelackTimer s).inflight := by
      rw [h.eq]
      rfl
    have hlen : (tcpStopDelackTimer s').writeQueue.length =
        (tcpStopDelackTimer s).writeQueue.length := by
      rw [h.eq]
      exact List.length_map _
    rw [hi, hlen]
    split
    · next hpend =>
      have hsent := hstop.sendNext env _ (hsnd.source σ rfl) (hnext hpend.1)
      unfold tcpSendPending
      dsimp only
      refine Shifted.rearmRtoTimer (hsent.of ?_ ⟨rfl, rfl, rfl⟩)
      exact congrArg (fun x : TcpSock => { x with
        inflight := x.inflight + min (tcpStopDelackTimer s).writeQueue.length 3 }) hsent.eq
    · have hde : (tcpStopDelackTimer s').delacks = (tcpStopDelackTimer s).delacks := by
        rw [h.eq]
        rfl
      generalize tcpStopDelackTimer s = s₁ at hstop hde
      generalize tcpStopDelackTimer s' = s₁' at hstop hde
      have hcount : tcpCountDelacks s₁' (skb.arrived σ) = tcpCountDelacks s₁ skb := by
        unfold tcpCountDelacks
        rw [hde]
        rfl
      unfold tcpAckOrDelay
      dsimp only
      rw [hcount]
      change Shifted σ _ (if skb.th.psh = true ∨ 1000 < skb.dlen ∧ 1 < tcpCountDelacks s₁ skb then _
        else if 0 < skb.dlen then _ else _)
      split
      · refine Shifted.sendAck env ?_
        exact hstop.of (by rw [hstop.eq]; rfl) ⟨rfl, rfl, rfl⟩
      · split
        · exact hstop.of (by rw [hstop.eq]; rfl) ⟨rfl, rfl, rfl⟩
        · exact hstop.of (by rw [hstop.eq]; rfl) ⟨rfl, rfl, rfl⟩
  · exact h

/-- **From the sixth check on.** -/
theorem Shifted.deliver (h : Shifted σ s s') (hsnd : SndOk σ.snd s.snd) {skb : SkBuff}
    (hack : skb.th.ack) (hok : σ.rcv = 0 ∨ (s.state.receives → DataOk σ.rcv s skb)) :
    Shifted σ (tcpDeliver env s skb) (tcpDeliver env s' (skb.arrived σ)) := by
  have hexp : ((skb.arrived σ).seq == s'.tcb.rcvNxt) = (skb.seq == s.tcb.rcvNxt) := by
    rw [h.eq, Bool.eq_iff_iff, beq_iff_eq, beq_iff_eq]
    exact add_left_inj σ.rcv
  unfold tcpDeliver
  dsimp only
  rw [hexp]
  refine Shifted.pending env ?_ ?_ skb _
  · exact (h.text env hack hok).fin env skb.th _
  · rw [snd_tcpFin, snd_tcpText]
    exact hsnd

/-- The text of a segment that passes the checks can be queued. -/
def TextOk (c : UInt32) (s : TcpSock) (skb : SkBuff) : Prop :=
  tcpVerifySegment s skb → ∀ s₁ : TcpSock, SameQueues s.rcv s₁.rcv → Calm s.rcv s₁.rcv →
    s₁.state.receives → DataOk c s₁ skb

/-- **A segment on a synchronized connection.** -/
theorem Shifted.segmentArrives (h : Shifted σ s s') (hsnd : SndOk σ.snd s.snd) {skb : SkBuff}
    (hv : tcpVerifySegment s' (skb.arrived σ) = tcpVerifySegment s skb)
    (hok : σ.rcv = 0 ∨ TextOk σ.rcv s skb) :
    Shifted σ (tcpSegmentArrives env s skb) (tcpSegmentArrives env s' (skb.arrived σ)) := by
  obtain ⟨hack, hgo⟩ := h.ackField hsnd skb.th
  obtain ⟨hfin, hgo'⟩ := hack.finAcked env skb.th
  have hsnd₁ := hsnd.imp_right fun hinv => (hinv.ackField skb.th).finAcked env skb.th
  have hsame₁ : SameQueues s.rcv (tcpAckField s skb.th).1.rcv := by
    rw [← tcpAckFieldOr_true]
    exact sameQueues_tcpAckFieldOr true s skb.th
  have hcalm := (calm_tcpAckField s skb.th).trans
    (calm_tcpFinAcked env (tcpAckField s skb.th).1 skb.th)
  have hrst : (skb.arrived σ).th.rst = skb.th.rst := rfl
  have hsyn : (skb.arrived σ).th.syn = skb.th.syn := rfl
  have hset : (skb.arrived σ).th.ack = skb.th.ack := rfl
  have hth : (skb.arrived σ).th = skb.th.shiftIn σ := rfl
  unfold tcpSegmentArrives
  dsimp only
  rw [hv, hrst, hsyn, hset, hth, hgo, hgo']
  split
  · split
    · exact h
    · exact h.sendAck env
  · next hverify =>
    split
    · exact h.enterTimeWait
    · split
      · exact h
      · split
        · exact h
        · next hflag =>
          split
          · exact hack
          · split
            · exact hfin
            · next hpass =>
              have hpass := not_not.1 hpass
              refine hfin.deliver env hsnd₁ (not_not.1 hflag) (hok.imp_right fun htext => ?_)
              exact htext (not_not.1 hverify) _
                (hsame₁.trans (sameQueues_tcpFinAcked _ _ hpass)) hcalm

/-! ## The other states -/

theorem Shifted.closed (h : Shifted σ s s') (th : Tcphdr) :
    Shifted σ (tcpClosed env s th) (tcpClosed env s' (th.shiftIn σ)) := by
  unfold tcpClosed
  change Shifted σ _ (if th.rst then _ else _)
  split
  · exact h
  · exact h.sendReset env

theorem Shifted.reset (h : Shifted σ s s') : Shifted σ (tcpReset s) (tcpReset s') := by
  have hst : s'.state = s.state := by rw [h.eq]; rfl
  have herr : ∀ err state, Shifted σ { s with err, state } { s' with err, state } :=
    fun err state => h.of (by rw [h.eq]; rfl) ⟨rfl, rfl, rfl⟩
  unfold tcpReset
  rw [hst]
  cases s.state with
  | close => exact h
  | _ => exact (herr _ _).done

theorem Shifted.applyOpts (h : Shifted σ s s') (opts : TcpParsedOpts) :
    Shifted σ (tcpApplyOpts s opts) (tcpApplyOpts s' opts) := by
  unfold tcpApplyOpts
  have h₁ : Shifted σ (if opts.mss ≠ 0 then { s with smss := opts.mss } else s)
      (if opts.mss ≠ 0 then { s' with smss := opts.mss } else s') := by
    split
    · exact h.of (by rw [h.eq]; rfl) ⟨rfl, rfl, rfl⟩
    · exact h
  generalize (if opts.mss ≠ 0 then { s with smss := opts.mss } else s) = s₁ at h₁ ⊢
  generalize (if opts.mss ≠ 0 then { s' with smss := opts.mss } else s') = s₁' at h₁ ⊢
  have h₂ : Shifted σ (if ¬ opts.tsSeen then { s₁ with tsopt := 0 } else s₁)
      (if ¬ opts.tsSeen then { s₁' with tsopt := 0 } else s₁') := by
    split
    · exact h₁.of (by rw [h₁.eq]; rfl) ⟨rfl, rfl, rfl⟩
    · exact h₁
  dsimp only
  generalize (if ¬ opts.tsSeen then { s₁ with tsopt := 0 } else s₁) = s₂ at h₂ ⊢
  generalize (if ¬ opts.tsSeen then { s₁' with tsopt := 0 } else s₁') = s₂' at h₂ ⊢
  have hsack : s₂'.sackok = s₂.sackok := by rw [h₂.eq]; rfl
  have hts : s₂'.tsopt = s₂.tsopt := by rw [h₂.eq]; rfl
  have hfec : s₂'.fecok = s₂.fecok := by rw [h₂.eq]; rfl
  have hfour : (if s₂.tsopt ≠ 0 then 3 else 4) ≤ 4 := by split <;> decide
  rw [hsack, hts]
  split
  · have h₃ : Shifted σ { s₂ with sacksAllowed := if s₂.tsopt ≠ 0 then 3 else 4 }
        { s₂' with sacksAllowed := if s₂.tsopt ≠ 0 then 3 else 4 } := by
      refine ⟨by rw [h₂.eq]; rfl, h₂.rest.imp_right fun hrest => ?_⟩
      exact ⟨hrest.sacklen, hrest.sacks, hfour⟩
    dsimp only
    rw [hfec]
    split
    · exact h₃.of (by rw [h₂.eq]; rfl) ⟨rfl, rfl, rfl⟩
    · exact h₃.of (by rw [h₂.eq]; rfl) ⟨rfl, rfl, rfl⟩
  · dsimp only
    rw [hfec]
    split
    · exact h₂.of (by rw [h₂.eq]; rfl) ⟨rfl, rfl, rfl⟩
    · exact h₂.of (by rw [h₂.eq]; rfl) ⟨rfl, rfl, rfl⟩

theorem Shifted.parseOpts (h : Shifted σ s s') (th : Tcphdr) :
    Shifted σ (tcpParseOpts s th) (tcpParseOpts s' (th.shiftIn σ)) := by
  rw [tcpParseOpts_eq, tcpParseOpts_eq]
  exact h.applyOpts _

theorem Shifted.connected (h : Shifted σ s s') :
    Shifted σ (sockConnected s) (sockConnected s') := h.of (by rw [h.eq]; rfl) ⟨rfl, rfl, rfl⟩

theorem Shifted.synsentAcked (h : Shifted σ s s') (hsnd : SndOk σ.snd s.snd) {th : Tcphdr}
    (hmem : th.ack → s.tcb.sndUna ≤ th.ackSeq ∧ th.ackSeq ≤ s.tcb.sndNxt) :
    Shifted σ (tcpSynsentAcked s th) (tcpSynsentAcked s' (th.shiftIn σ)) := by
  have hset : Shifted σ { s with tcb.rcvNxt := th.seq + 1, tcb.irs := th.seq }
      { s' with tcb.rcvNxt := th.seq + σ.rcv + 1, tcb.irs := th.seq + σ.rcv } := by
    refine h.of ?_ ⟨rfl, rfl, rfl⟩
    rw [h.eq, add_right_comm]
    rfl
  unfold tcpSynsentAcked
  change Shifted σ _ (if th.ack then _ else _)
  split
  · next hack =>
    have huna : Shifted σ
        { s with tcb.rcvNxt := th.seq + 1, tcb.irs := th.seq, tcb.sndUna := th.ackSeq }
        { s' with
          tcb.rcvNxt := th.seq + σ.rcv + 1, tcb.irs := th.seq + σ.rcv
          tcb.sndUna := th.ackSeq + σ.snd } := by
      refine hset.of ?_ ⟨rfl, rfl, rfl⟩
      rw [h.eq, add_right_comm]
      rfl
    exact huna.cleanRtoQueue (hsnd.acked (hmem hack))
  · exact hset

/-- **An acceptable SYN.** -/
theorem Shifted.synsentSyn (h : Shifted σ s s') (hsnd : SndOk σ.snd s.snd) {th : Tcphdr}
    (hmem : th.ack → s.tcb.sndUna ≤ th.ackSeq ∧ th.ackSeq ≤ s.tcb.sndNxt) :
    Shifted σ (tcpSynsentSyn env s th) (tcpSynsentSyn env s' (th.shiftIn σ)) := by
  have hacked := h.synsentAcked hsnd hmem
  have hlt : (tcpSynsentAcked s' (th.shiftIn σ)).tcb.iss <
      (tcpSynsentAcked s' (th.shiftIn σ)).tcb.sndUna ↔
        (tcpSynsentAcked s th).tcb.iss < (tcpSynsentAcked s th).tcb.sndUna := by
    rw [hacked.eq]
    change (tcpSynsentAcked s th).tcb.iss + σ.snd < (tcpSynsentAcked s th).tcb.sndUna + σ.snd ↔ _
    obtain ⟨hiss, huna⟩ := tcb_tcpSynsentAcked s th
    rw [hiss, huna]
    rcases hsnd with hzero | ⟨⟨d, hrange⟩, -⟩
    · rw [hzero, UInt32.add_zero, UInt32.add_zero]
    · refine hrange.iss.lt_iff ?_
      split
      · next hack => exact hrange.una.of_between hrange.nxt (hmem hack).1 (hmem hack).2
      · exact hrange.una
  rw [tcpSynsentSyn_eq, tcpSynsentSyn_eq]
  dsimp only
  rw [if_congr hlt rfl rfl]
  generalize tcpSynsentAcked s th = s₁ at hacked
  generalize tcpSynsentAcked s' (th.shiftIn σ) = s₁' at hacked
  split
  · have hest : Shifted σ
        { s₁ with state := .established, tcb.sndUna := s₁.tcb.sndNxt, backoff := 0, rto := 1000 }
        { s₁' with
          state := .established, tcb.sndUna := s₁'.tcb.sndNxt, backoff := 0, rto := 1000 } :=
      hacked.of (by rw [hacked.eq]; rfl) ⟨rfl, rfl, rfl⟩
    exact ((hest.sendAck env).rearmUserTimeout.parseOpts th).fecResolve.connected
  · have hrcvd : Shifted σ { s₁ with state := .synReceived, tcb.sndUna := s₁.tcb.iss }
        { s₁' with state := .synReceived, tcb.sndUna := s₁'.tcb.iss } :=
      hacked.of (by rw [hacked.eq]; rfl) ⟨rfl, rfl, rfl⟩
    have hne : ∀ s₂ : TcpSock, s₂.state = .synReceived → ∀ th,
        tcpSendSynack env (tcpParseOpts s₂ th) = tcpParseOpts s₂ th := by
      intro s₂ hs₂ th
      refine tcpSendSynack_of_ne env ?_
      rw [state_tcpParseOpts, hs₂]
      decide
    rw [hne _ rfl, hne _ rfl]
    exact hrcvd.parseOpts th

/-- **A segment in SYN_SENT.** -/
theorem Shifted.synsent (h : Shifted σ s s') (hsnd : SndOk σ.snd s.snd) (th : Tcphdr) :
    Shifted σ (tcpSynsent env s th) (tcpSynsent env s' (th.shiftIn σ)) := by
  have hiss : (th.shiftIn σ).ack ∧ ((th.shiftIn σ).ackSeq ≤ s'.tcb.iss ∨
      s'.tcb.sndNxt < (th.shiftIn σ).ackSeq) ↔
        th.ack ∧ (th.ackSeq ≤ s.tcb.iss ∨ s.tcb.sndNxt < th.ackSeq) := by
    refine and_congr_right fun _ => ?_
    rw [← not_iff_not, not_or, not_or, UInt32.not_le, UInt32.not_lt, UInt32.not_le, UInt32.not_lt,
      h.eq]
    exact hsnd.mem_iss_iff th.ackSeq
  have huna : (th.shiftIn σ).ack ∧ ((th.shiftIn σ).ackSeq < s'.tcb.sndUna ∨
      s'.tcb.sndNxt < (th.shiftIn σ).ackSeq) ↔
        th.ack ∧ (th.ackSeq < s.tcb.sndUna ∨ s.tcb.sndNxt < th.ackSeq) := by
    refine and_congr_right fun _ => ?_
    rw [← not_iff_not, not_or, not_or, UInt32.not_lt, UInt32.not_lt, UInt32.not_lt, UInt32.not_lt,
      h.eq]
    exact (hsnd.mem_iff th.ackSeq).1
  have hrst : (th.shiftIn σ).rst = th.rst := rfl
  have hsyn : (th.shiftIn σ).syn = th.syn := rfl
  unfold tcpSynsent
  rw [if_congr hiss rfl rfl, if_congr huna rfl rfl, hrst, hsyn]
  split
  · exact h
  · split
    · exact h
    · next hin =>
      split
      · exact h.reset
      · split
        · exact h
        · refine h.synsentSyn env hsnd fun hack => ?_
          have hmem := not_and.1 hin hack
          rw [not_or, UInt32.not_lt, UInt32.not_lt] at hmem
          exact hmem

theorem tcpVerifySegment_iff (s : TcpSock) (skb : SkBuff) :
    tcpVerifySegment s skb ↔ (0 < skb.dlen → s.tcb.rcvWnd ≠ 0) ∧ s.tcb.rcvNxt ≤ skb.th.seq ∧
      skb.th.seq ≤ s.tcb.rcvNxt + s.tcb.rcvWnd := by
  unfold tcpVerifySegment
  simp only [Bool.and_eq_true, Bool.not_eq_true', Bool.or_eq_false_iff, Bool.and_eq_false_imp,
    decide_eq_true_eq, decide_eq_false_iff_not, UInt32.not_lt, beq_eq_false_iff_ne]

/-- The window check comes out the same, and what passes it can be queued. -/
def RcvOk (σ : Shift) (s : TcpSock) (skb : SkBuff) : Prop :=
  σ.rcv = 0 ∨ (s.state.synchronized →
    tcpVerifySegment (s.shift σ) (skb.arrived σ) = tcpVerifySegment s skb ∧ TextOk σ.rcv s skb)

theorem tcpInitSegment_shift (seg : Segment) :
    tcpInitSegment (seg.shift σ) = (tcpInitSegment seg).arrived σ := by
  unfold tcpInitSegment SkBuff.arrived
  dsimp only
  rw [add_right_comm]
  rfl

/-! ## The FEC section -/

/-- The receive half of the FEC state does not depend on the transmit half. -/
theorem shift_tcpFecRx (hzero : σ.rcv = 0) (fec : TcpFec) (skb : SkBuff) :
    tcpFecRx (fec.shift σ.snd) (skb.arrived σ) =
      ((tcpFecRx fec skb).1.shift σ.snd, (tcpFecRx fec skb).2) := by
  have hseq : (skb.arrived σ).seq = skb.seq := by
    change skb.seq + σ.rcv = _
    rw [hzero, UInt32.add_zero]
  have hfec : hasFecOption (skb.arrived σ).th = hasFecOption skb.th := rfl
  have hopt : TcpOptFec.read (skb.arrived σ).th.data = TcpOptFec.read skb.th.data := rfl
  have hsource : ∀ blk idx, TcpFecBlockRx.addSource blk (fec.shift σ.snd) idx (skb.arrived σ) =
      blk.addSource fec idx skb := by
    intro blk idx
    unfold TcpFecBlockRx.addSource
    rw [hseq]
    rfl
  have hrepair : ∀ blk idx, TcpFecBlockRx.addRepair blk (fec.shift σ.snd) idx (skb.arrived σ) =
      blk.addRepair fec idx skb := fun blk idx => rfl
  have hslot : ∀ id, tcpFecRxSlot (fec.shift σ.snd) id = tcpFecRxSlot fec id := fun id => rfl
  have hrec : ∀ blk, tcpFecRxRecover (fec.shift σ.snd) blk = tcpFecRxRecover fec blk :=
    fun blk => rfl
  have hk : (fec.shift σ.snd).k = fec.k := rfl
  have hr : (fec.shift σ.snd).r = fec.r := rfl
  have hlen : (fec.shift σ.snd).symLen = fec.symLen := rfl
  have hdlen : (skb.arrived σ).dlen = skb.dlen := rfl
  unfold tcpFecRx
  dsimp only
  rw [hfec, hopt, hslot, hsource, hrepair, hrec, hrec, hk, hr, hlen, hdlen]
  split
  · split
    · split <;> rfl
    · split
      · split <;> rfl
      · rfl
  · rfl

/-- A spliced buffer is the same in both runs. -/
theorem shiftIn_splice (hzero : σ.rcv = 0) (sp : Splice) : sp.skb.shiftIn σ = sp.skb := by
  unfold SkBuff.shiftIn
  rw [hzero, UInt32.add_zero, UInt32.add_zero]
  rfl

theorem Shifted.splices (hzero : σ.rcv = 0) (sps : List Splice) (h : Shifted σ s s')
    (hst : s.state ≠ .close) :
    Shifted σ (sps.foldl (tcpFecSplice env) s) (sps.foldl (tcpFecSplice env) s') := by
  induction sps generalizing s s' with
  | nil => exact h
  | cons sp sps ih =>
    have hsp : Shifted σ (tcpDataQueue env s sp.skb) (tcpDataQueue env s' (sp.skb.shiftIn σ)) :=
      h.dataQueue env hst (.inl hzero)
    rw [shiftIn_splice hzero] at hsp
    refine ih hsp ?_
    have hkeep : (tcpDataQueue env s sp.skb).state = s.state :=
      (congrArg RcvView.state (rcv_tcpDataQueue env s sp.skb)).trans (state_dataQueue _ _)
    change (tcpDataQueue env s sp.skb).state ≠ .close
    rwa [hkeep]

/-- **The FEC section.** -/
theorem Shifted.fecInput (h : Shifted σ s s') (hzero : σ.rcv = 0) (hst : s.state ≠ .close)
    (fec : TcpFec) (skb : SkBuff) :
    Shifted σ (tcpFecInput env s fec skb).1
        (tcpFecInput env s' (fec.shift σ.snd) (skb.arrived σ)).1 ∧
      (tcpFecInput env s' (fec.shift σ.snd) (skb.arrived σ)).2 = (tcpFecInput env s fec skb).2 := by
  have hput : Shifted σ { s with fec := some (tcpFecRx fec skb).1 }
      { s' with fec := some ((tcpFecRx fec skb).1.shift σ.snd) } :=
    h.of (by rw [h.eq]; rfl) ⟨rfl, rfl, rfl⟩
  have hsplice := hput.splices env hzero (tcpFecRx fec skb).2.1 hst
  unfold tcpFecInput
  dsimp only
  rw [shift_tcpFecRx hzero]
  refine ⟨?_, rfl⟩
  dsimp only
  split
  · exact hsplice
  · exact hsplice.sendAck env

/-- **An arriving segment.** -/
theorem Shifted.arrive (h : Shifted σ s s') (hplain : σ.rcv = 0 ∨ s.fec = none)
    (hsnd : SndOk σ.snd s.snd) {seg : Segment} (hok : RcvOk σ s (tcpInitSegment seg)) :
    Shifted σ (tcpIn env s seg) (tcpIn env s' (seg.shift σ)) := by
  have hst : s'.state = s.state := by rw [h.eq]; rfl
  have hskb : tcpInitSegment (seg.shift σ) = (tcpInitSegment seg).arrived σ :=
    tcpInitSegment_shift seg
  unfold tcpIn tcpInputState
  rw [hskb, hst]
  generalize tcpInitSegment seg = skb at hok
  have hverify : ∀ {s₁ s₁' : TcpSock}, Shifted σ s₁ s₁' → σ.rcv = 0 →
      tcpVerifySegment s₁' (skb.arrived σ) = tcpVerifySegment s₁ skb := by
    intro s₁ s₁' h₁ hzero
    rw [h₁.eq, Bool.eq_iff_iff, tcpVerifySegment_iff, tcpVerifySegment_iff]
    change (0 < skb.dlen → s₁.tcb.rcvWnd ≠ 0) ∧ s₁.tcb.rcvNxt + σ.rcv ≤ skb.th.seq + σ.rcv ∧
      skb.th.seq + σ.rcv ≤ s₁.tcb.rcvNxt + σ.rcv + s₁.tcb.rcvWnd ↔ _
    rw [hzero, UInt32.add_zero, UInt32.add_zero]
  have hnone : s.state.synchronized → s.fec = none → Shifted σ (tcpSegmentArrives env s skb)
      (tcpSegmentArrives env s' (skb.arrived σ)) := by
    intro hs hfec
    refine h.segmentArrives env hsnd ?_ (hok.imp_right fun ho => (ho hs).2)
    rcases hok with hzero | hok
    · exact hverify h hzero
    · rw [h.eq]
      exact (hok hs).1
  have hsome : ∀ fec, s.state.synchronized → s.fec = some fec → Shifted σ
      (if (tcpFecInput env s fec skb).2 then (tcpFecInput env s fec skb).1
        else tcpSegmentArrives env (tcpFecInput env s fec skb).1 skb)
      (if (tcpFecInput env s' (fec.shift σ.snd) (skb.arrived σ)).2 then
        (tcpFecInput env s' (fec.shift σ.snd) (skb.arrived σ)).1
        else tcpSegmentArrives env (tcpFecInput env s' (fec.shift σ.snd) (skb.arrived σ)).1
          (skb.arrived σ)) := by
    intro fec hs hfec
    have hzero := hplain.resolve_right (by simp [hfec])
    have hne : s.state ≠ .close := fun hcl => by rw [hcl] at hs; cases hs
    obtain ⟨hin, hconsumed⟩ := h.fecInput env hzero hne fec skb
    rw [hconsumed]
    split
    · exact hin
    · refine hin.segmentArrives env ?_ (hverify hin hzero) (.inl hzero)
      rw [snd_tcpFecInput env hfec]
      exact hsnd
  cases hs : s.state with
  | close => exact h.closed env skb.th
  | listen => exact h
  | synSent => exact h.synsent env hsnd skb.th
  | _ =>
    dsimp only
    cases hfec : s.fec with
    | none =>
      rw [h.fec_none hfec]
      exact hnone (by rw [hs]; rfl) hfec
    | some fec =>
      rw [h.fec_some hfec]
      exact hsome fec (by rw [hs]; rfl) hfec

end Stages

/-! ## Events -/

/-- An event, moved. -/
def TcpEvent.shift (σ : Shift) : TcpEvent → TcpEvent
  | .connect iss => .connect (iss + σ.snd)
  | .arrive seg => .arrive (seg.shift σ)
  | e => e

/-- The event does not notice the translation. -/
def EventOk (env : Env) (σ : Shift) (s : TcpSock) : TcpEvent → Prop
  | .connect _ => False
  | .arrive seg => RcvOk σ s (tcpInitSegment seg)
  | .write buf => σ.snd = 0 ∨ WriteOk env s buf
  | _ => True

section Events

variable {σ : Shift} {s s' : TcpSock} {env : Env}

theorem SndOk.pinned (h : SndOk σ.snd s.snd) : σ.snd = 0 ∨ Pinned s := by
  refine h.imp_right fun ⟨⟨d, hd⟩, _⟩ fec hfec hpos => ?_
  refine hd.pinned fec.tx ?_ hpos
  change s.fec.map TcpFec.tx = _
  rw [hfec]
  rfl

theorem Shifted.abort (h : Shifted σ s s') : Shifted σ (tcpAbort env s) (tcpAbort env s') :=
  (h.sendReset env).done

theorem Shifted.timer (h : Shifted σ s s') (hsnd : SndOk σ.snd s.snd) (handler : TimerHandler) :
    Shifted σ (handler.run env s) (handler.run env s') := by
  have hlinger : Shifted σ { s with linger := none } { s' with linger := none } :=
    h.of (by rw [h.eq]; rfl) ⟨rfl, rfl, rfl⟩
  have hsrc : ∀ y ∈ s.writeQueue, SourceBuf σ y := hsnd.source σ rfl
  have huna : σ.snd = 0 ∨ s.tcb.sndUna ≠ 0 := hsnd.imp_right fun ⟨⟨_, hd⟩, _⟩ => hd.una_ne
  cases handler with
  | tcpConnectRto => exact h.connectRto env hsrc huna
  | tcpRetransmissionTimeout => exact h.retransmissionTimeout env hsrc huna
  | tcpSendDelack => exact h.sendDelack env
  | tcpLinger => exact hlinger.done
  | tcpUserTimeout => exact hlinger.abort

/-- **One event** of the two runs. -/
theorem Shifted.step (h : Shifted σ s s') (hplain : σ.rcv = 0 ∨ s.fec = none)
    (hsnd : SndOk σ.snd s.snd) {e : TcpEvent} (hok : EventOk env σ s e) :
    Shifted σ (tcpStep env s e) (tcpStep env s' (e.shift σ)) := by
  cases e with
  | connect iss => cases hok
  | arrive seg => exact h.arrive env hplain hsnd hok
  | write buf => exact h.write env hplain buf (or_and_left.2 ⟨hsnd.pinned, hok⟩)
  | read len => exact (h.read len).1
  | wake rd => exact (h.receiveStep rd).1
  | close =>
    exact h.close env hsnd.pinned (hsnd.imp_right fun ⟨⟨_, hd⟩, _⟩ => hd.nxt_ne)
  | abort => exact h.abort
  | timer handler =>
    have htimers : s'.timers = s.timers := by rw [h.eq]; rfl
    change Shifted σ (if handler ∈ s.timers then _ else _) (if handler ∈ s'.timers then _ else _)
    rw [htimers]
    split
    · exact h.timer hsnd handler
    · exact h
  | tick ms => exact h.of (by rw [h.eq]; rfl) ⟨rfl, rfl, rfl⟩

end Events

end LvlIp.Tcp
