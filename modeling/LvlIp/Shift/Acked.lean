import LvlIp.Shift.Send

/-!
# Where a connection starts its sequence numbers

Two runs of a connecting socket, from `iss` and from `iss + c`, with acknowledgement numbers that
differ by `c`, are the same up to `c` as long as the numbers of what has been written stay between
the two ends of the sequence space in both (`run_shift_snd`). In such runs an acknowledgement number
that lies beyond `snd_una` and not beyond `snd_nxt` modulo 2 ^ 32 does so as a number, and so it is
taken (`AcksTaken`).
-/

namespace LvlIp.Tcp

open Fec Foundations

/-! ## What an acknowledgement takes off the queue -/

/-- All numbers that the buffer has taken are acknowledged, the one of its FIN included. -/
def SkBuff.Covered (ack : UInt32) (y : SkBuff) : Prop :=
  y.seq ≠ 0 ∧ y.seq.toNat + y.seqLen ≤ ack.toNat

instance (ack : UInt32) (y : SkBuff) : Decidable (y.Covered ack) :=
  inferInstanceAs (Decidable (_ ∧ _))

/-- The queue is fit for the acknowledgement: no buffer that has been sent stands behind one that
has not, and no FIN has the number `ack`. -/
structure FitsAck (ack : UInt32) (q : List SkBuff) : Prop where
  sentFirst : q.Pairwise fun x y => y.seq ≠ 0 → x.seq ≠ 0
  noFin : ∀ y ∈ q, y.seq ≠ 0 → y.th.fin → y.endSeq ≠ ack

/-- In the states in which acknowledgements are processed, and in SYN_RECEIVED below `snd_nxt`. -/
def TakesAck (s : TcpSock) (ack : UInt32) : Prop :=
  match s.state with
  | .synReceived => ack ≠ s.tcb.sndNxt
  | .established | .finWait1 | .finWait2 | .closeWait | .closing | .lastAck => True
  | _ => False

/-- An acknowledgement number beyond `snd_una`, and not beyond `snd_nxt`, is taken: it becomes
`snd_una`, the segment goes on, and exactly the buffers that it covers leave the queue. -/
def AcksTaken (s : TcpSock) : Prop :=
  ∀ th : Tcphdr, 0 < th.ackSeq - s.tcb.sndUna →
    th.ackSeq - s.tcb.sndUna ≤ s.tcb.sndNxt - s.tcb.sndUna → TakesAck s th.ackSeq →
      (tcpAckField s th).1.tcb.sndUna = th.ackSeq ∧ (tcpAckField s th).2 = true ∧
        (FitsAck th.ackSeq s.writeQueue → (tcpAckField s th).1.writeQueue =
          s.writeQueue.filter fun y => ¬ y.Covered th.ackSeq)

section Acked

variable {c : UInt32} {s : TcpSock} {v : SndView} {ack : UInt32} {q : List SkBuff}

/-- A number in the range modulo 2 ^ 32 is in the range. -/
theorem mem_of_sub_le {una nxt : UInt32} (hle : una.toNat ≤ nxt.toNat) (hpos : 0 < ack - una)
    (hsub : ack - una ≤ nxt - una) : una < ack ∧ ack ≤ nxt := by
  have ha := ack.toNat_lt
  have hu := una.toNat_lt
  have hn := nxt.toNat_lt
  rw [UInt32.lt_iff_toNat_lt, UInt32.toNat_sub] at hpos
  rw [UInt32.le_iff_toNat_le, UInt32.toNat_sub, UInt32.toNat_sub] at hsub
  rw [UInt32.lt_iff_toNat_lt, UInt32.le_iff_toNat_le]
  change 0 < _ at hpos
  omega

/-- The condition of `tcp_clean_rto_queue` and the one that counts the FIN agree. -/
theorem covered_iff {y : SkBuff} (hend : y.seq ≠ 0 → y.endSeq.toNat = y.seq.toNat + y.dlen)
    (hfin : y.seq ≠ 0 → y.th.fin → y.endSeq ≠ ack) :
    (0 < y.seq ∧ y.endSeq ≤ ack) ↔ y.Covered ack := by
  unfold SkBuff.Covered SkBuff.seqLen
  rw [UInt32.pos_iff_ne_zero, UInt32.le_iff_toNat_le]
  refine and_congr_right fun hne => ?_
  rw [hend hne]
  split
  · next hf =>
    have hlast : y.endSeq.toNat ≠ ack.toNat := fun h => hfin hne hf (UInt32.toNat_inj.mp h)
    rw [hend hne] at hlast
    omega
  · rw [Nat.add_zero]

/-- **Exactly the covered buffers** are taken off. -/
theorem tcpCleanLoop_eq_filter (hfits : FitsAck ack q)
    (hends : ∀ y ∈ q, y.seq ≠ 0 → y.endSeq.toNat = y.seq.toNat + y.dlen)
    (hasc : q.Pairwise fun x y => x.seq ≠ 0 → y.seq ≠ 0 → x.seq.toNat + x.seqLen ≤ y.seq.toNat)
    (n : ℕ) : (tcpCleanLoop ack q n).1 = q.filter fun y => ¬ y.Covered ack := by
  induction q generalizing n with
  | nil => rfl
  | cons skb q ih =>
    obtain ⟨hfirst, hfirsts⟩ := List.pairwise_cons.mp hfits.sentFirst
    obtain ⟨hfin, hfins⟩ := List.forall_mem_cons.mp hfits.noFin
    obtain ⟨hend, hends⟩ := List.forall_mem_cons.mp hends
    obtain ⟨hbelow, hasc⟩ := List.pairwise_cons.mp hasc
    rw [tcpCleanLoop]
    by_cases hcov : skb.Covered ack
    · rw [if_pos ((covered_iff hend hfin).mpr hcov), ih ⟨hfirsts, hfins⟩ hends hasc,
        List.filter_cons_of_neg (by simpa using hcov)]
    · rw [if_neg fun h => hcov ((covered_iff hend hfin).mp h)]
      -- what stands behind a buffer that is not covered is not covered either
      have hrest : ∀ y ∈ skb :: q, ¬ y.Covered ack := by
        intro y hy hy'
        rcases List.mem_cons.mp hy with rfl | hy
        · exact hcov hy'
        · have hskb := hfirst y hy hy'.1
          have hle := hbelow y hy hskb hy'.1
          have hyle := hy'.2
          exact hcov ⟨hskb, by omega⟩
      exact (List.filter_eq_self.mpr fun y hy => by simpa using hrest y hy).symm

theorem SndInv.order (h : SndInv c v) : SndOrder v := by
  obtain ⟨⟨d, hd⟩, -⟩ := h
  exact hd.toSndOrder

/-- **`tcp_ack`** of a number in the range. -/
theorem SndOrder.tcpAck (h : SndOrder s.snd) (hpos : 0 < ack - s.tcb.sndUna)
    (hsub : ack - s.tcb.sndUna ≤ s.tcb.sndNxt - s.tcb.sndUna) :
    (tcpAck s ack).1.tcb.sndUna = ack ∧ (tcpAck s ack).2 = true ∧
      (FitsAck ack s.writeQueue →
        (tcpAck s ack).1.writeQueue = s.writeQueue.filter fun y => ¬ y.Covered ack) := by
  have hmem : s.tcb.sndUna < ack ∧ ack ≤ s.tcb.sndNxt := mem_of_sub_le h.una_le hpos hsub
  have hsnd : (Tcp.tcpAck s ack).1.snd = _ :=
    (snd_tcpAck s ack).trans (SndView.ack_of_acceptable hmem)
  refine ⟨congrArg SndView.sndUna hsnd, tcpAck_through hmem, fun hfits => ?_⟩
  refine (congrArg SndView.writeQueue hsnd).trans ?_
  exact tcpCleanLoop_eq_filter hfits (fun y hy hne => (h.ends y hy hne).1) h.ascending _

/-- **In range** every acknowledgement is taken. -/
theorem SndOrder.acksTaken (h : SndOrder s.snd) : AcksTaken s := by
  intro th hpos hsub htakes
  have htaken := h.tcpAck hpos hsub
  unfold TakesAck at htakes
  unfold tcpAckField
  cases hst : s.state with
  | synReceived =>
    rw [hst] at htakes
    have hmem := mem_of_sub_le h.una_le hpos hsub
    have hlt : th.ackSeq < s.tcb.sndNxt := UInt32.lt_of_le_of_ne hmem.2 htakes
    dsimp only
    rw [if_pos ⟨UInt32.le_of_lt hmem.1, hlt⟩, tcpFecResolve_eq]
    split
    · exact SndOrder.tcpAck (s := { s with
        state := .established, fec := some (s.fec.getD tcpFecFresh) }) { h with } hpos hsub
    · exact SndOrder.tcpAck (s := { s with state := .established }) { h with } hpos hsub
  | close | listen | synSent | timeWait =>
    rw [hst] at htakes
    exact htakes.elim
  | _ => exact htaken

/-! ## Runs -/

theorem Shifted.sndRun {env : Env} {s' : TcpSock} (h : Shifted ⟨c, 0⟩ s s') (hinv : SndInv c s.snd)
    {events : List TcpEvent} (haway : RunSat env (SndAway c) s events) :
    ∀ pre, pre <+: events → Shifted ⟨c, 0⟩ (pre.foldl (tcpStep env) s)
        ((pre.map (TcpEvent.shift ⟨c, 0⟩)).foldl (tcpStep env) s') ∧
      SndInv c (pre.foldl (tcpStep env) s).snd := by
  induction events generalizing s s' with
  | nil =>
    intro pre hpre
    rw [List.prefix_nil.mp hpre]
    exact ⟨h, hinv⟩
  | cons e es ih =>
    intro pre hpre
    rcases List.prefix_cons_iff.mp hpre with rfl | ⟨pre', rfl, hpre'⟩
    · exact ⟨h, hinv⟩
    · exact ih (h.sndStep hinv haway.1) (hinv.step haway.1) haway.2 pre' hpre'

end Acked

/-- **Moving the send sequence space.** Take a run of a socket that connects with `iss`, in which
what is written and the FIN fit below the end of the sequence space, with `iss` as it is and moved by
`c`. Then the run in which `iss` and all acknowledgement numbers are moved by `c` is the same, moved
by `c`, after every event: the same state, the same buffers in the write queue and in flight, the
same segments sent. And in each of its states every acknowledgement beyond `snd_una` and not beyond
`snd_nxt` is taken. -/
theorem run_shift_snd (env : Env) (c : UInt32) (s : TcpSock) (hs : Unused s) (iss : UInt32)
    (hiss : IssOk c iss) (events : List TcpEvent)
    (haway : RunSat env (SndAway c) (inetStreamConnect env s iss) events) :
    ∀ pre, pre <+: events →
      (pre.map (TcpEvent.shift ⟨c, 0⟩)).foldl (tcpStep env) (inetStreamConnect env s (iss + c)) =
          (pre.foldl (tcpStep env) (inetStreamConnect env s iss)).shift ⟨c, 0⟩ ∧
        AcksTaken (pre.foldl (tcpStep env) (inetStreamConnect env s iss)) := by
  intro pre hpre
  obtain ⟨hshift, hinv⟩ := (hs.connect hiss).sndRun (hs.sndInv hiss) haway pre hpre
  exact ⟨hshift.eq, hinv.order.acksTaken⟩

theorem unused_tcpAllocSock : Unused tcpAllocSock := ⟨rfl, rfl, rfl, rfl, rfl, rfl, rfl, rfl⟩

/-- The peer's SYN-ACK for `iss` 100, a write, and its acknowledgement. -/
def writeAt100 : List TcpEvent :=
  [.arrive ⟨{ Tcphdr.zero with
      seq := 1000, ackSeq := 101, hl := 5, syn := true, ack := true }, []⟩,
    .write [1, 2, 3],
    .arrive ⟨{ Tcphdr.zero with seq := 1001, ackSeq := 104, hl := 5, ack := true }, []⟩]

/-- A socket that starts at 100, and one that starts at 5000. -/
theorem run_shift_snd_small :
    (writeAt100.map (TcpEvent.shift ⟨4900, 0⟩)).foldl (tcpStep quietLink)
        (inetStreamConnect quietLink tcpAllocSock 5000) =
      (writeAt100.foldl (tcpStep quietLink) (inetStreamConnect quietLink tcpAllocSock 100)).shift
        ⟨4900, 0⟩ :=
  (run_shift_snd quietLink 4900 tcpAllocSock unused_tcpAllocSock 100
    ⟨by decide, by decide, by decide, by decide⟩ writeAt100 (by decide +kernel) writeAt100
    (List.prefix_refl _)).1

/-- A socket that starts at the last number never takes the acknowledgement of its SYN: its
`snd_nxt` is 0. -/
theorem not_run_shift_snd_last :
    let s := inetStreamConnect quietLink tcpAllocSock 100
    let s' := inetStreamConnect quietLink tcpAllocSock (100 + 4294967195)
    (writeAt100.foldl (tcpStep quietLink) s).state = .established ∧
      ((writeAt100.map (TcpEvent.shift ⟨4294967195, 0⟩)).foldl (tcpStep quietLink) s').state =
        .synSent ∧
      (writeAt100.foldl (tcpStep quietLink) s).tcb.sndUna = 104 ∧
      ((writeAt100.map (TcpEvent.shift ⟨4294967195, 0⟩)).foldl (tcpStep quietLink) s').tcb.sndUna =
        100 + 4294967195 := by
  decide +kernel

end LvlIp.Tcp
