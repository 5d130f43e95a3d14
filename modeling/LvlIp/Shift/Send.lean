import LvlIp.Shift.Arrive
import LvlIp.Handshake.Connecting

/-!
# The send sequence space may be moved

Where a connecting socket starts its sequence numbers should not matter either. It does at the ends
of the sequence space: 0 marks a buffer that has not been transmitted, and `snd_una`, `snd_nxt` and
acknowledgement numbers are compared by size. As long as the numbers of what has been written stay
between the two ends (`SndRoom`), in both of two runs that start at `iss` and at `iss + c`, the runs
are the same up to `c`.
-/

namespace LvlIp.Tcp

open Fec Foundations

/-! ## The queue -/

section View

variable {c : UInt32} {d : ℤ} {v : SndView} {skb : SkBuff}

theorem unsentLen_append (q : List SkBuff) (skb : SkBuff) :
    unsentLen (q ++ [skb]) = unsentLen q + if skb.seq = 0 then skb.seqLen else 0 := by
  unfold unsentLen
  rw [List.map_append, List.sum_append, List.map_singleton, List.sum_singleton]

theorem SkBuff.after_eq_add (skb : SkBuff) (nxt : UInt32) :
    skb.after nxt = nxt + UInt32.ofNat skb.seqLen := by
  unfold SkBuff.after SkBuff.seqLen
  split
  · rw [UInt32.ofNat_add, ← UInt32.add_assoc]
    rfl
  · rw [Nat.add_zero]

/-- The numbers from `nxt` on are left, in both runs. -/
theorem toNat_add_of_room {x : UInt32} {n : ℕ} (h : x.toNat + n < 2 ^ 32) :
    (x + UInt32.ofNat n).toNat = x.toNat + n := by
  rw [UInt32.toNat_add, UInt32.toNat_ofNat']
  omega

theorem add_ofNat_ne_zero {x : UInt32} (hne : x ≠ 0) {n : ℕ} (h : x.toNat + n < 2 ^ 32) :
    x + UInt32.ofNat n ≠ 0 := by
  intro h0
  have hval := toNat_add_of_room h
  rw [h0] at hval
  have hzero : x.toNat = 0 := by
    change 0 = _ at hval
    omega
  exact hne (UInt32.toNat_inj.1 hzero)

theorem SkBuff.seqLen_withHeader {th : Tcphdr} (hfin : th.fin = skb.th.fin) :
    (skb.withHeader th).seqLen = skb.seqLen := by
  unfold SkBuff.seqLen
  change skb.dlen + (if th.fin then 1 else 0) = _
  rw [hfin]

theorem SndRange.enqueue (h : SndRange c d v) (hseq : skb.seq = 0)
    (hsrc : repairTag skb.tag = false) : SndRange c d (v.enqueue skb) := by
  have hmem : ∀ y ∈ v.writeQueue ++ [skb], y ∈ v.writeQueue ∨ y = skb := by
    intro y hy
    simpa using hy
  refine { h with
    ends := fun y hy hne => ?_, ascending := ?_
    sent := fun y hy hne => ?_, source := fun y hy => ?_, flight := ?_ }
  · rcases hmem y hy with hy | rfl
    · exact h.ends y hy hne
    · exact absurd hseq hne
  · refine List.pairwise_append.mpr ⟨h.ascending, List.pairwise_singleton _ _, fun x _ y hy _ hne => ?_⟩
    rw [List.mem_singleton.mp hy] at hne
    exact absurd hseq hne
  · rcases hmem y hy with hy | rfl
    · exact h.sent y hy hne
    · exact absurd hseq hne
  · rcases hmem y hy with hy | rfl
    · exact h.source y hy
    · exact hsrc
  · change (v.writeQueue ++ [skb]).countP _ ≤ v.inflight
    rw [List.countP_append, List.countP_singleton, if_neg (by simp [hseq]), Nat.add_zero]
    exact h.flight

theorem SndRoom.enqueue {n : ℕ} (h : SndRoom c v (skb.seqLen + n)) (hseq : skb.seq = 0) :
    SndRoom c (v.enqueue skb) n := by
  have hlen : unsentLen (v.enqueue skb).writeQueue = unsentLen v.writeQueue + skb.seqLen := by
    change unsentLen (v.writeQueue ++ [skb]) = _
    rw [unsentLen_append, if_pos hseq]
  have h1 := h.room
  have h2 := h.room_add
  refine ⟨?_, ?_⟩
  · rw [hlen]
    change v.sndNxt.toNat + _ + _ < _
    omega
  · rw [hlen]
    change (v.sndNxt + c).toNat + _ + _ < _
    omega

/-- **A buffer that is sent at once** takes the next numbers. -/
theorem SndRange.sendNow (h : SndRange c d v) {n : ℕ} (hroom : SndRoom c v (skb.seqLen + n))
    (hsrc : repairTag skb.tag = false) {th : Tcphdr} (hfin : th.fin = skb.th.fin) :
    SndRange c d (v.sendNow skb ((skb.withHeader th).at v.sndNxt)) := by
  have h1 : v.sndNxt.toNat + skb.seqLen < 2 ^ 32 := by have := hroom.room; omega
  have h2 : (v.sndNxt + c).toNat + skb.seqLen < 2 ^ 32 := by have := hroom.room_add; omega
  have hdlen : skb.dlen ≤ skb.seqLen := Nat.le_add_right _ _
  have hnxt : (v.sendNow skb ((skb.withHeader th).at v.sndNxt)).sndNxt =
      v.sndNxt + UInt32.ofNat skb.seqLen := skb.after_eq_add v.sndNxt
  have hmem : ∀ y ∈ v.writeQueue ++ [(skb.withHeader th).at v.sndNxt],
      y ∈ v.writeQueue ∨ y = (skb.withHeader th).at v.sndNxt := by
    intro y hy
    simpa using hy
  have hval : (v.sndNxt + UInt32.ofNat skb.seqLen).toNat = v.sndNxt.toNat + skb.seqLen :=
    toNat_add_of_room h1
  have hlen : ((skb.withHeader th).at v.sndNxt).seqLen = skb.seqLen := skb.seqLen_withHeader hfin
  refine { h with
    iss_le := ?_, una_le := ?_, ends := fun y hy hne => ?_, ascending := ?_
    nxt := ?_, nxt_ne := ?_, nxt_add_ne := ?_
    sent := fun y hy hne => ?_, source := fun y hy => ?_, flight := ?_ }
  · rw [hnxt, hval]
    exact h.iss_le.trans (Nat.le_add_right _ _)
  · rw [hnxt, hval]
    exact h.una_le.trans (Nat.le_add_right _ _)
  · rw [hnxt, hval]
    rcases hmem y hy with hy | rfl
    · obtain ⟨hend, hle⟩ := h.ends y hy hne
      exact ⟨hend, hle.trans (Nat.le_add_right _ _)⟩
    · rw [hlen]
      exact ⟨toNat_add_of_room (by change _ + skb.dlen < _; omega), Nat.le_refl _⟩
  · refine List.pairwise_append.mpr ⟨h.ascending, List.pairwise_singleton _ _, fun x hx y hy hne _ => ?_⟩
    rw [List.mem_singleton.mp hy]
    exact (h.ends x hx hne).2
  · rw [hnxt]
    exact h.nxt.add h1 h2
  · rw [hnxt]
    exact add_ofNat_ne_zero h.nxt_ne h1
  · rw [hnxt, add_right_comm]
    exact add_ofNat_ne_zero h.nxt_add_ne h2
  · rcases hmem y hy with hy | rfl
    · exact h.sent y hy hne
    · exact ⟨h.nxt_add_ne, h.nxt.add (by change _ + skb.dlen < _; omega)
        (by change _ + skb.dlen < _; omega)⟩
  · rcases hmem y hy with hy | rfl
    · exact h.source y hy
    · exact hsrc
  · change (v.writeQueue ++ [(skb.withHeader th).at v.sndNxt]).countP _ ≤ v.inflight + 1
    rw [List.countP_append]
    exact Nat.add_le_add h.flight List.countP_le_length

theorem SndRoom.sendNow {n : ℕ} (h : SndRoom c v (skb.seqLen + n)) (hne : v.sndNxt ≠ 0)
    (th : Tcphdr) : SndRoom c (v.sendNow skb ((skb.withHeader th).at v.sndNxt)) n := by
  have hnxt : (v.sendNow skb ((skb.withHeader th).at v.sndNxt)).sndNxt =
      v.sndNxt + UInt32.ofNat skb.seqLen := skb.after_eq_add v.sndNxt
  have hlen : unsentLen (v.sendNow skb ((skb.withHeader th).at v.sndNxt)).writeQueue =
      unsentLen v.writeQueue := by
    change unsentLen (v.writeQueue ++ [(skb.withHeader th).at v.sndNxt]) = _
    rw [unsentLen_append]
    exact congrArg (unsentLen v.writeQueue + ·) (if_neg hne)
  have h1 := h.room
  have h2 := h.room_add
  have hmove : v.sndNxt + UInt32.ofNat skb.seqLen + c = v.sndNxt + c + UInt32.ofNat skb.seqLen :=
    add_right_comm _ _ _
  refine ⟨?_, ?_⟩
  · rw [hnxt, hlen, toNat_add_of_room (by omega)]
    omega
  · rw [hnxt, hlen, hmove, toNat_add_of_room (by omega)]
    omega

/-- **A retransmission** changes a header. -/
theorem SndRange.setHead (h : SndRange c d v) {q : List SkBuff} (hq : v.writeQueue = skb :: q)
    {th : Tcphdr} (hfin : th.fin = skb.th.fin) :
    SndRange c d (v.setHead (skb.withHeader th) q) := by
  have hends := h.ends
  have hascending := h.ascending
  have hsent := h.sent
  have hsource := h.source
  have hflight := h.flight
  rw [hq] at hends hascending hsent hsource hflight
  have hlen : (skb.withHeader th).seqLen = skb.seqLen := skb.seqLen_withHeader hfin
  refine { h with
    ends := fun y hy hne => ?_, ascending := ?_
    sent := fun y hy hne => ?_, source := fun y hy => ?_, flight := ?_ }
  · rcases List.mem_cons.mp hy with rfl | hy
    · rw [hlen]
      exact hends skb List.mem_cons_self hne
    · exact hends y (List.mem_cons_of_mem _ hy) hne
  · obtain ⟨hhead, htail⟩ := List.pairwise_cons.mp hascending
    refine List.pairwise_cons.mpr ⟨fun y hy => ?_, htail⟩
    rw [hlen]
    exact hhead y hy
  · rcases List.mem_cons.mp hy with rfl | hy
    · exact hsent skb List.mem_cons_self hne
    · exact hsent y (List.mem_cons_of_mem _ hy) hne
  · rcases List.mem_cons.mp hy with rfl | hy
    · exact hsource skb List.mem_cons_self
    · exact hsource y (List.mem_cons_of_mem _ hy)
  · change (skb.withHeader th :: q).countP _ ≤ v.inflight
    rw [List.countP_cons] at hflight ⊢
    exact hflight

/-- What is sent from `nxt` on. -/
structure NextRange (c : UInt32) (d : ℤ) (nxt : UInt32) (q : List SkBuff) : Prop where
  keeps : Keeps c d nxt
  ne : nxt ≠ 0
  ne_add : nxt + c ≠ 0
  room : nxt.toNat + unsentLen q < 2 ^ 32
  room_add : (nxt + c).toNat + unsentLen q < 2 ^ 32

/-- **Buffers sent one after the other** take the numbers that were left for them. -/
theorem NextRange.sendsNext {nxt nxt' : UInt32} {q q' : List SkBuff} {n : ℕ}
    {ts : List Transmission} (hsend : SendsNext nxt q n nxt' q' ts) (h : NextRange c d nxt q)
    (hunsent : ∀ y ∈ q, y.seq = 0) :
    NextRange c d nxt' q' ∧ (∀ y ∈ q', y.seq ≠ 0 → y.seq + c ≠ 0 ∧ Keeps c d y.endSeq) ∧
      (∀ y ∈ q', ∃ x ∈ q, y.tag = x.tag) ∧ q'.countP (fun y => y.seq ≠ 0) ≤ n := by
  induction hsend with
  | nil nxt q =>
    refine ⟨h, fun y hy hne => absurd (hunsent y hy) hne, fun y hy => ⟨y, hy, rfl⟩, ?_⟩
    rw [Nat.le_zero, List.countP_eq_zero]
    intro y hy
    simp [hunsent y hy]
  | @cons nxt nxt' skb q q' n th ts hth hsend ih =>
    have hlen : unsentLen (skb :: q) = skb.seqLen + unsentLen q := by
      rw [unsentLen, List.map_cons, List.sum_cons, if_pos (hunsent skb List.mem_cons_self)]
      rfl
    have hdlen : skb.dlen ≤ skb.seqLen := Nat.le_add_right _ _
    have h1 := h.room
    have h2 := h.room_add
    rw [hlen] at h1 h2
    have hmove : nxt + UInt32.ofNat skb.seqLen + c = nxt + c + UInt32.ofNat skb.seqLen :=
      add_right_comm _ _ _
    have hafter : NextRange c d (skb.after nxt) q := by
      rw [skb.after_eq_add]
      refine ⟨h.keeps.add (by omega) (by omega), add_ofNat_ne_zero h.ne (by omega), ?_, ?_, ?_⟩
      · rw [hmove]
        exact add_ofNat_ne_zero h.ne_add (by omega)
      · rw [toNat_add_of_room (by omega)]
        omega
      · rw [hmove, toNat_add_of_room (by omega)]
        omega
    obtain ⟨hrange, hsent, htag, hcount⟩ := ih hafter fun y hy =>
      hunsent y (List.mem_cons_of_mem _ hy)
    have hlen' : unsentLen ((skb.withHeader th).at nxt :: q') = unsentLen q' := by
      rw [unsentLen, List.map_cons, List.sum_cons]
      exact (congrArg (· + unsentLen q') (if_neg h.ne)).trans (Nat.zero_add _)
    refine ⟨{ hrange with room := ?_, room_add := ?_ }, ?_, ?_, ?_⟩
    · rw [hlen']
      exact hrange.room
    · rw [hlen']
      exact hrange.room_add
    · intro y hy hne
      rcases List.mem_cons.mp hy with rfl | hy
      · exact ⟨h.ne_add, h.keeps.add (by change _ + skb.dlen < _; omega)
          (by change _ + skb.dlen < _; omega)⟩
      · exact hsent y hy hne
    · intro y hy
      rcases List.mem_cons.mp hy with rfl | hy
      · exact ⟨skb, List.mem_cons_self, rfl⟩
      · obtain ⟨x, hx, heq⟩ := htag y hy
        exact ⟨x, List.mem_cons_of_mem _ hx, heq⟩
    · refine (List.countP_cons ..).le.trans (Nat.add_le_add hcount ?_)
      split <;> decide

/-- Their numbers are in order. -/
theorem SendsNext.ascending {nxt nxt' : UInt32} {q q' : List SkBuff} {n : ℕ}
    {ts : List Transmission} (hsend : SendsNext nxt q n nxt' q' ts)
    (hroom : nxt.toNat + unsentLen q < 2 ^ 32) (hunsent : ∀ y ∈ q, y.seq = 0) :
    nxt.toNat ≤ nxt'.toNat ∧ (∀ y ∈ q', y.seq ≠ 0 → nxt.toNat ≤ y.seq.toNat ∧
        y.endSeq.toNat = y.seq.toNat + y.dlen ∧ y.seq.toNat + y.seqLen ≤ nxt'.toNat) ∧
      q'.Pairwise fun x y => x.seq ≠ 0 → y.seq ≠ 0 → x.seq.toNat + x.seqLen ≤ y.seq.toNat := by
  induction hsend with
  | nil nxt q =>
    refine ⟨Nat.le_refl _, fun y hy hne => absurd (hunsent y hy) hne, ?_⟩
    exact List.pairwise_of_forall_mem_list fun x hx y _ hne => absurd (hunsent x hx) hne
  | @cons nxt nxt' skb q q' n th ts hth hsend ih =>
    obtain ⟨hskb, hunsent⟩ := List.forall_mem_cons.mp hunsent
    have hlen : unsentLen (skb :: q) = skb.seqLen + unsentLen q := by
      rw [unsentLen, List.map_cons, List.sum_cons, if_pos hskb]
      rfl
    rw [hlen] at hroom
    have hdlen : skb.dlen ≤ skb.seqLen := Nat.le_add_right _ _
    have hafter : (skb.after nxt).toNat = nxt.toNat + skb.seqLen := by
      rw [skb.after_eq_add]
      exact toNat_add_of_room (by omega)
    obtain ⟨hle, hends, hasc⟩ := ih (by rw [hafter]; omega) hunsent
    rw [hafter] at hle hends
    have hsame : ((skb.withHeader th).at nxt).seqLen = skb.seqLen :=
      skb.seqLen_withHeader hth.fin
    refine ⟨by omega, fun y hy hne => ?_, List.pairwise_cons.mpr ⟨fun y hy _ hne => ?_, hasc⟩⟩
    · rcases List.mem_cons.mp hy with rfl | hy
      · rw [hsame]
        exact ⟨Nat.le_refl _, toNat_add_of_room (by change _ + skb.dlen < _; omega), hle⟩
      · obtain ⟨hlo, hrest⟩ := hends y hy hne
        exact ⟨by omega, hrest⟩
    · rw [hsame]
      exact (hends y hy hne).1

/-- **Every step of an arrival** keeps the range. -/
theorem SndInv.txStep {v v' : TxView} (h : SndInv c v.snd) (hstep : TxStep v v') :
    SndInv c v'.snd := by
  obtain ⟨⟨d, hd⟩, hroom⟩ := h
  cases hstep with
  | control th => exact ⟨⟨d, hd⟩, hroom⟩
  | ack ackSeq hacc harmed => exact ⟨⟨d, hd.ack ackSeq⟩, hroom.ack ackSeq⟩
  | pending h0 hpos hsend =>
    have hnext : NextRange c d v.snd.sndNxt v.snd.writeQueue :=
      ⟨hd.nxt, hd.nxt_ne, hd.nxt_add_ne, hroom.room, hroom.room_add⟩
    obtain ⟨hrange, hsent, htag, hcount⟩ := hnext.sendsNext hsend (hd.unsent h0)
    obtain ⟨hle, hends, hasc⟩ := hsend.ascending hroom.room (hd.unsent h0)
    refine ⟨⟨d, { hd with
      iss_le := hd.iss_le.trans hle, una_le := hd.una_le.trans hle
      ends := fun y hy hne => (hends y hy hne).2, ascending := hasc
      nxt := hrange.keeps, nxt_ne := hrange.ne, nxt_add_ne := hrange.ne_add, sent := hsent
      source := fun y hy => ?_, flight := hcount }⟩, hrange.room, hrange.room_add⟩
    obtain ⟨x, hx, heq⟩ := htag y hy
    rw [heq]
    exact hd.source x hx
  | disarm => exact ⟨⟨d, hd⟩, hroom⟩
  | release => exact ⟨⟨d, { hd with pinned := nofun }⟩, hroom.room, hroom.room_add⟩

theorem SndInv.txSteps {s s' : TcpSock} (h : SndInv c s.snd) (hsteps : TxSteps s s') :
    SndInv c s'.snd := by
  have hall : ∀ v v' : TxView, Relation.ReflTransGen TxStep v v' → SndInv c v.snd →
      SndInv c v'.snd := by
    intro v v' hrun hv
    induction hrun with
    | refl => exact hv
    | tail _ hstep ih => exact ih.txStep hstep
  exact hall s.txv s'.txv hsteps.2 h

end View

/-! ## Arrivals -/

section Arrivals

variable {c : UInt32} {s : TcpSock} {env : Env}

theorem SndInv.smss {v : SndView} (h : SndInv c v) (smss : UInt16) : SndInv c { v with smss } := by
  obtain ⟨⟨d, hd⟩, hroom⟩ := h
  exact ⟨⟨d, { hd with }⟩, hroom.room, hroom.room_add⟩

theorem exists_snd_tcpParseOpts (s : TcpSock) (th : Tcphdr) :
    ∃ smss, (tcpParseOpts s th).snd = { s.snd with smss } := by
  have hset : ∀ opts : TcpParsedOpts, (tcpApplyOpts s opts).snd =
      { s.snd with smss := if opts.mss ≠ 0 then opts.mss else s.smss } := by
    intro opts
    unfold tcpApplyOpts
    dsimp only
    split_ifs <;> rfl
  exact ⟨_, hset _⟩

/-- A SYN-ACK takes the SYN off the queue. -/
theorem SndInv.synsentAcked (h : SndInv c s.snd) {th : Tcphdr}
    (hmem : th.ack → s.tcb.sndUna ≤ th.ackSeq ∧ th.ackSeq ≤ s.tcb.sndNxt) (hne : th.ack → th.ackSeq ≠ 0) :
    SndInv c (tcpSynsentAcked s th).snd := by
  obtain ⟨⟨d, hd⟩, hroom⟩ := h
  unfold tcpSynsentAcked
  dsimp only
  split
  · next hack =>
    rw [snd_tcpCleanRtoQueue]
    have huna : Keeps c d th.ackSeq := hd.una.of_between hd.nxt (hmem hack).1 (hmem hack).2
    have hlen := unsentLen_tcpCleanLoop th.ackSeq s.writeQueue s.inflight
    refine ⟨⟨d, hd.clean huna (hne hack) (hmem hack).2 th.ackSeq⟩, ?_, ?_⟩
    · dsimp only
      rw [hlen]
      exact hroom.room
    · dsimp only
      rw [hlen]
      exact hroom.room_add
  · exact ⟨⟨d, hd⟩, hroom⟩

theorem SndInv.parseOpts (h : SndInv c s.snd) (th : Tcphdr) : SndInv c (tcpParseOpts s th).snd := by
  obtain ⟨smss, hsnd⟩ := exists_snd_tcpParseOpts s th
  rw [hsnd]
  exact h.smss smss

theorem SndInv.sendAck (h : SndInv c s.snd) : SndInv c (tcpSendAck env s).snd := by
  rw [snd_tcpSendAck]
  exact h

theorem SndInv.rearmUserTimeout (h : SndInv c s.snd) : SndInv c (tcpRearmUserTimeout s).snd := by
  rw [snd_tcpRearmUserTimeout]
  exact h

theorem SndInv.connected (h : SndInv c s.snd) : SndInv c (sockConnected s).snd := h

theorem SndInv.synsentSyn (h : SndInv c s.snd) {th : Tcphdr}
    (hmem : th.ack → s.tcb.sndUna ≤ th.ackSeq ∧ th.ackSeq ≤ s.tcb.sndNxt)
    (hne : th.ack → th.ackSeq ≠ 0) : SndInv c (tcpSynsentSyn env s th).snd := by
  have hacked := h.synsentAcked hmem hne
  rw [tcpSynsentSyn_eq]
  dsimp only
  generalize tcpSynsentAcked s th = s₁ at hacked
  obtain ⟨⟨d, hd⟩, hroom⟩ := hacked
  split
  · have hest : SndInv c (TcpSock.snd { s₁ with
        state := .established, tcb.sndUna := s₁.tcb.sndNxt, backoff := 0, rto := 1000 }) :=
      ⟨⟨d, { hd with una := hd.nxt, una_ne := hd.nxt_ne, una_le := Nat.le_refl _ }⟩,
        hroom.room, hroom.room_add⟩
    exact (hest.sendAck.rearmUserTimeout.parseOpts th).fecResolve.connected
  · have hrcvd : SndInv c (TcpSock.snd { s₁ with state := .synReceived, tcb.sndUna := s₁.tcb.iss }) :=
      ⟨⟨d, { hd with una := hd.iss, una_ne := hd.iss_ne, una_le := hd.iss_le }⟩,
        hroom.room, hroom.room_add⟩
    have hpar := hrcvd.parseOpts th
    have hst : (tcpParseOpts { s₁ with state := .synReceived, tcb.sndUna := s₁.tcb.iss } th).state =
        .synReceived := state_tcpParseOpts _ th
    generalize tcpParseOpts { s₁ with state := .synReceived, tcb.sndUna := s₁.tcb.iss } th = s₂
      at hpar hst
    rw [tcpSendSynack_of_ne env (by rw [hst]; decide)]
    exact hpar

/-- **A segment in SYN_SENT.** -/
theorem SndInv.synsent (h : SndInv c s.snd) (th : Tcphdr) : SndInv c (tcpSynsent env s th).snd := by
  unfold tcpSynsent
  split
  · exact h
  · next hiss =>
    split
    · exact h
    · next hin =>
      split
      · unfold tcpReset
        split
        · exact SndInv.done (s := { s with err := eConnrefused }) h
        · exact SndInv.done (s := { s with err := ePipe }) h
        · exact h
        · exact SndInv.done (s := { s with err := eConnreset }) h
      · split
        · exact h
        · refine h.synsentSyn (fun hack => ?_) fun hack h0 => ?_
          · have hmem := not_and.1 hin hack
            rw [not_or, UInt32.not_lt, UInt32.not_lt] at hmem
            exact hmem
          · have hlt := (not_or.1 (not_and.1 hiss hack)).1
            rw [h0] at hlt
            exact hlt UInt32.zero_le

theorem SndInv.sendReset (h : SndInv c s.snd) : SndInv c (tcpSendReset env s).snd := by
  obtain ⟨⟨d, hd⟩, hroom⟩ := h
  unfold tcpSendReset
  dsimp only
  rw [snd_tcpTransmitSkb]
  exact ⟨⟨d, { hd with una := hd.nxt, una_ne := hd.nxt_ne, una_le := Nat.le_refl _ }⟩,
    hroom.room, hroom.room_add⟩

theorem SndInv.pending (h : SndInv c s.snd) (skb : SkBuff) (expected : Bool) :
    SndInv c (tcpPending env s skb expected).snd := by
  cases hrec : s.state.receives with
  | true =>
    have hconn : s.state.connected := by
      revert hrec
      cases s.state <;> decide
    exact h.txSteps (txSteps_tcpPending env hconn skb expected)
  | false =>
    unfold tcpPending
    rw [hrec, if_neg (fun hc => nomatch hc.1)]
    exact h

theorem SndInv.deliver (h : SndInv c s.snd) (skb : SkBuff) :
    SndInv c (tcpDeliver env s skb).snd := by
  refine SndInv.pending ?_ skb _
  rw [snd_tcpFin, snd_tcpText]
  exact h

theorem SndInv.segmentArrives (h : SndInv c s.snd) (skb : SkBuff) :
    SndInv c (tcpSegmentArrives env s skb).snd := by
  unfold tcpSegmentArrives
  split
  · split
    · exact h
    · exact h.sendAck
  · split
    · exact h
    · split
      · exact h
      · split
        · exact h
        · have hack := h.ackField skb.th
          dsimp only
          split
          · exact hack
          · have hfin := hack.finAcked env skb.th
            split
            · exact hfin
            · exact hfin.deliver skb

/-- **An arriving segment** keeps the range. -/
theorem SndInv.arrive (h : SndInv c s.snd) (seg : Segment) : SndInv c (tcpIn env s seg).snd := by
  unfold tcpIn tcpInputState
  split
  · unfold tcpClosed
    split
    · exact h
    · exact h.sendReset
  · exact h
  · exact h.synsent _
  · split
    · exact h.segmentArrives _
    · next fec hfec =>
      have hsnd := snd_tcpFecInput env hfec (tcpInitSegment seg)
      dsimp only
      split
      · rw [hsnd]
        exact h
      · refine SndInv.segmentArrives ?_ _
        rw [hsnd]
        exact h

end Arrivals

/-! ## Writes -/

/-- The numbers are in range, and there is room for what waits and `n` more. -/
def SndFits (c : UInt32) (v : SndView) (n : ℕ) : Prop := (∃ d, SndRange c d v) ∧ SndRoom c v n

section Writes

variable {c : UInt32} {s : TcpSock} {env : Env} {v : SndView} {n : ℕ}

theorem SndRoom.mono {m : ℕ} (h : SndRoom c v n) (hm : m ≤ n) : SndRoom c v m := by
  have h1 := h.room
  have h2 := h.room_add
  exact ⟨by omega, by omega⟩

/-- The FEC state may change, as long as its block has a base. -/
theorem SndFits.setTx (h : SndFits c v n) (hv : ∃ tx, s.snd = { v with tx }) (hpin : Pinned s) :
    SndFits c s.snd n := by
  obtain ⟨⟨d, hd⟩, hroom⟩ := h
  obtain ⟨tx, hv⟩ := hv
  have htx : s.fec.map TcpFec.tx = tx := congrArg SndView.tx hv
  rw [hv]
  refine ⟨⟨d, { hd with pinned := fun fec hfec hpos => ?_ }⟩, hroom.room, hroom.room_add⟩
  change tx = some fec at hfec
  rw [← htx, Option.map_eq_some_iff] at hfec
  obtain ⟨fec', hs, rfl⟩ := hfec
  exact hpin fec' hs hpos

theorem SndFits.pinned (h : SndFits c s.snd n) : Pinned s := by
  obtain ⟨⟨d, hd⟩, -⟩ := h
  intro fec hfec hpos
  refine hd.pinned fec.tx ?_ hpos
  change s.fec.map TcpFec.tx = _
  rw [hfec]
  rfl

theorem exists_snd_tcpFecEmitBlock (s : TcpSock) (fec : TcpFec) (blkK tailLen : ℕ) :
    ∃ tx, (tcpFecEmitBlock env s fec blkK tailLen).1.snd = { s.snd with tx } := by
  obtain ⟨ts, fec', heq⟩ := tcpFecEmitBlock_frame env s fec blkK tailLen
  exact ⟨fec'.map TcpFec.tx, by rw [heq]; rfl⟩

theorem SndFits.emitBlock (h : SndFits c s.snd n) (fec : TcpFec) (blkK tailLen : ℕ) :
    SndFits c (tcpFecEmitBlock env s fec blkK tailLen).1.snd n :=
  h.setTx (exists_snd_tcpFecEmitBlock s fec blkK tailLen) (h.pinned.emitBlock env fec blkK tailLen)

theorem SndFits.forceFlush (h : SndFits c s.snd n) : SndFits c (tcpFecForceFlush env s).snd n := by
  unfold tcpFecForceFlush
  split
  · exact h
  · split
    · exact h.emitBlock _ _ _
    · exact h

theorem SndFits.emitFull (h : SndFits c s.snd n) : SndFits c (tcpFecEmitFull env s).snd n := by
  unfold tcpFecEmitFull
  split
  · exact h
  · split
    · exact h.emitBlock _ _ _
    · exact h

theorem SndFits.flush (h : SndFits c s.snd n) : SndFits c (tcpFecFlush env s).snd n := by
  unfold tcpFecFlush
  split
  · exact h
  · split
    · exact h
    · exact h.emitBlock _ _ _

/-- **A buffer is queued**, and takes the next numbers, now or later. -/
theorem SndFits.queueTransmit {skb : SkBuff} (h : SndFits c v (skb.seqLen + n))
    (hv : ∃ tx, s.snd = { v with tx }) (hseq : skb.seq = 0) (hsrc : repairTag skb.tag = false)
    (hpin : Pinned (tcpQueueTransmitSkb env s skb).1) :
    SndFits c (tcpQueueTransmitSkb env s skb).1.snd n := by
  obtain ⟨⟨d, hd⟩, hroom⟩ := h
  obtain ⟨tx, hv⟩ := hv
  have hnxt : s.tcb.sndNxt = v.sndNxt := congrArg SndView.sndNxt hv
  rcases exists_tcpQueueTransmitSkb env s skb with ⟨-, hview⟩ | ⟨-, th, hth, hview⟩
  · have hsnd : (tcpQueueTransmitSkb env s skb).1.snd = s.snd.enqueue skb :=
      congrArg TxView.snd hview
    have hfits : SndFits c (v.enqueue skb) n := ⟨⟨d, hd.enqueue hseq hsrc⟩, hroom.enqueue hseq⟩
    exact hfits.setTx ⟨tx, by rw [hsnd, hv]; rfl⟩ hpin
  · have hsnd : (tcpQueueTransmitSkb env s skb).1.snd =
        s.snd.sendNow skb ((skb.withHeader th).at s.tcb.sndNxt) := congrArg TxView.snd hview
    have hfits : SndFits c (v.sendNow skb ((skb.withHeader th).at v.sndNxt)) n :=
      ⟨⟨d, hd.sendNow hroom hsrc hth.fin⟩, hroom.sendNow hd.nxt_ne th⟩
    exact hfits.setTx ⟨tx, by rw [hsnd, hv, hnxt]; rfl⟩ hpin

theorem seqLen_tcpDataBuf (fec : Option TcpFec) (addr : ℕ) (piece : List UInt8 × Bool) :
    (tcpDataBuf fec addr piece).seqLen = piece.1.length := by
  cases fec <;> rfl

/-- **One segment of a write.** -/
theorem SndFits.sendPiece {piece : List UInt8 × Bool} (h : SndFits c s.snd (piece.1.length + n)) :
    SndFits c (tcpSendPiece env s piece).snd n := by
  have hflush : SndFits c (tcpFecForceFlush env s).snd (piece.1.length + n) := h.forceFlush
  rw [tcpSendPiece_eq]
  refine SndFits.emitFull ?_
  generalize tcpFecForceFlush env s = s₁ at hflush
  have hnxt : s₁.tcb.sndNxt ≠ 0 := by
    obtain ⟨⟨d, hd⟩, -⟩ := hflush
    exact hd.nxt_ne
  rw [← seqLen_tcpDataBuf (tcpFecPin s₁).fec s₁.nextAddr piece] at hflush
  exact SndFits.queueTransmit hflush ⟨_, rfl⟩ rfl (repairTag_tcpDataTag _)
    (hflush.pinned.sendQueued env hnxt piece)

/-- The pieces of a write, each in its turn. -/
theorem SndFits.sendPieces {pieces : List (List UInt8 × Bool)}
    (h : SndFits c s.snd (pieces.flatMap Prod.fst).length) :
    PiecesOk env s pieces ∧ SndInv c (pieces.foldl (tcpSendPiece env) s).snd := by
  induction pieces generalizing s with
  | nil => exact ⟨trivial, h⟩
  | cons piece pieces ih =>
    rw [List.flatMap_cons, List.length_append] at h
    have hnxt : s.tcb.sndNxt ≠ 0 := by
      obtain ⟨⟨d, hd⟩, -⟩ := h
      exact hd.nxt_ne
    have hnext : SndFits c (tcpSendPiece env s piece).snd _ := h.sendPiece
    obtain ⟨hok, hinv⟩ := ih hnext
    exact ⟨⟨hnxt, hok⟩, hinv⟩

theorem length_flatMap_tcpPieces (mss n : ℕ) (buf : List UInt8) :
    ((tcpPieces mss n buf).flatMap Prod.fst).length ≤ buf.length := by
  induction n generalizing buf with
  | zero => exact Nat.zero_le _
  | succ n ih =>
    cases buf with
    | nil => exact Nat.le_refl _
    | cons x buf =>
      have hrest := ih ((x :: buf).drop mss)
      rw [List.length_drop] at hrest
      rw [tcpPieces, List.flatMap_cons, List.length_append, List.length_take]
      · omega
      · exact List.cons_ne_nil x buf

/-- **A write** keeps the range, when there is room for it. -/
theorem SndInv.write (h : SndInv c s.snd) {buf : List UInt8}
    (hroom : s.writable → SndRoom c s.snd buf.length) :
    WriteOk env s buf ∧ SndInv c (tcpWrite env s buf).1.snd := by
  have hpieces : s.writable → PiecesOk env s (tcpPieces (tcpSendMss s) buf.length buf) ∧
      SndInv c ((tcpPieces (tcpSendMss s) buf.length buf).foldl (tcpSendPiece env) s).snd :=
    fun hw => SndFits.sendPieces ⟨h.1, (hroom hw).mono (length_flatMap_tcpPieces _ _ _)⟩
  refine ⟨fun hw => (hpieces hw).1, ?_⟩
  rw [tcpWrite_eq]
  split
  · next hw => exact SndInv.rearmUserTimeout (hpieces hw).2
  · exact h

theorem Pinned.queueTransmit (h : Pinned s) (skb : SkBuff) :
    Pinned (tcpQueueTransmitSkb env s skb).1 := by
  have heq : (tcpQueueTransmitSkb env s skb).1.fec = s.fec :=
    congrArg RcvView.fec (rcv_tcpQueueTransmitSkb env s skb)
  exact fun fec hfec => h fec (heq.symm.trans hfec)

/-- **A FIN** takes one number. -/
theorem SndFits.queueFin (h : SndFits c s.snd 1) : SndInv c (tcpQueueFin env s).snd := by
  have hflush : SndFits c (tcpFecFlush env s).snd 1 := h.flush
  unfold tcpQueueFin
  dsimp only
  generalize tcpFecFlush env s = s₁ at hflush
  refine SndFits.queueTransmit (n := 0) hflush ⟨_, rfl⟩ rfl rfl ?_
  exact Pinned.queueTransmit (s := { s₁ with nextAddr := s₁.nextAddr + 1 }) hflush.pinned _

/-- **A close** keeps the range, when there is room for a FIN. -/
theorem SndInv.close (h : SndInv c s.snd)
    (hroom : s.state = .established ∨ s.state = .closeWait → SndRoom c s.snd 1) :
    SndInv c (tcpClose env s).snd := by
  unfold tcpClose
  cases hst : s.state with
  | established =>
    have hfits : SndFits c (TcpSock.snd { s with state := .finWait1 }) 1 := ⟨h.1, hroom (.inl hst)⟩
    exact hfits.queueFin
  | closeWait => exact SndFits.queueFin ⟨h.1, hroom (.inr hst)⟩
  | listen | synSent | synReceived => exact h.done
  | _ => exact h

/-! ## Timers -/

/-- A buffer at the head of the queue goes out once more. -/
theorem SndInv.setHead (h : SndInv c v) {skb : SkBuff} {q : List SkBuff}
    (hq : v.writeQueue = skb :: q) {seq : UInt32} {th : Tcphdr} (hth : FilledFrom skb.th seq th) :
    SndInv c (v.setHead (skb.withHeader th) q) := by
  obtain ⟨⟨d, hd⟩, hroom⟩ := h
  have hlen : unsentLen (skb.withHeader th :: q) = unsentLen v.writeQueue := by
    rw [hq]
    unfold unsentLen SkBuff.seqLen
    rw [List.map_cons, List.map_cons]
    change (List.sum ((if skb.seq = 0 then skb.dlen + if th.fin then 1 else 0 else 0) :: _)) = _
    rw [hth.fin]
  refine ⟨⟨d, hd.setHead hq hth.fin⟩, ?_, ?_⟩
  · change _ + unsentLen (skb.withHeader th :: q) + 0 < _
    rw [hlen]
    exact hroom.room
  · change _ + unsentLen (skb.withHeader th :: q) + 0 < _
    rw [hlen]
    exact hroom.room_add

theorem SndInv.connectRto (h : SndInv c s.snd) : SndInv c (tcpConnectRto env s).snd := by
  unfold tcpConnectRto
  dsimp only
  split
  · split
    · exact SndInv.done (s := { tcpReleaseRtoTimer s with err := eTimedout }) h
    · split
      · exact h
      · next skb q hq =>
        obtain ⟨th, hth, hskb, hview⟩ :=
          exists_tcpTransmitSkb env (tcpReleaseRtoTimer s) skb (tcpReleaseRtoTimer s).tcb.sndUna
        rw [hskb, snd_tcpRearmRtoTimer]
        generalize (tcpTransmitSkb env (tcpReleaseRtoTimer s) skb
          (tcpReleaseRtoTimer s).tcb.sndUna).1 = s₁ at hview
        have hsnd : s₁.snd = s.snd := congrArg TxView.snd hview
        have hset := SndInv.setHead (v := s₁.snd) (hsnd ▸ h) (by rw [hsnd]; exact hq) hth
        exact hset
  · exact h

theorem SndInv.retransmissionTimeout (h : SndInv c s.snd) :
    SndInv c (tcpRetransmissionTimeout env s).snd := by
  unfold tcpRetransmissionTimeout
  dsimp only
  split
  · exact h
  · next skb q hq =>
    obtain ⟨th, hth, hskb, hview⟩ :=
      exists_tcpTransmitSkb env (tcpReleaseRtoTimer s) skb (tcpReleaseRtoTimer s).tcb.sndUna
    rw [hskb]
    generalize (tcpTransmitSkb env (tcpReleaseRtoTimer s) skb
      (tcpReleaseRtoTimer s).tcb.sndUna).1 = s₁ at hview
    have hsnd : s₁.snd = s.snd := congrArg TxView.snd hview
    have hset : SndInv c (TcpSock.snd { s₁ with writeQueue := skb.withHeader th :: q }) :=
      SndInv.setHead (v := s₁.snd) (hsnd ▸ h) (by rw [hsnd]; exact hq) hth
    split
    · exact hset.done
    · split
      · unfold tcpHandleFinState
        split
        · exact hset
        · exact hset
        · exact hset
      · exact hset

theorem SndInv.timer (h : SndInv c s.snd) (handler : TimerHandler) :
    SndInv c (handler.run env s).snd := by
  cases handler with
  | tcpConnectRto => exact h.connectRto
  | tcpRetransmissionTimeout => exact h.retransmissionTimeout
  | tcpSendDelack =>
    exact SndInv.sendAck (s := tcpReleaseDelackTimer { s with delacks := 0 }) h
  | tcpLinger => exact SndInv.done (s := { s with linger := none }) h
  | tcpUserTimeout =>
    have hreset : SndInv c (tcpSendReset env { s with linger := none }).snd :=
      SndInv.sendReset (s := { s with linger := none }) h
    exact hreset.done

end Writes

/-! ## Events -/

instance (c : UInt32) (v : SndView) (n : ℕ) : Decidable (SndRoom c v n) :=
  decidable_of_iff (v.sndNxt.toNat + unsentLen v.writeQueue + n < 2 ^ 32 ∧
      (v.sndNxt + c).toNat + unsentLen v.writeQueue + n < 2 ^ 32)
    ⟨fun h => ⟨h.1, h.2⟩, fun h => ⟨h.room, h.room_add⟩⟩

/-- There is room for what the event sends, in both runs; a socket connects once. -/
def SndAway (c : UInt32) (s : TcpSock) : TcpEvent → Prop
  | .connect _ => s.state ≠ .close
  | .write buf => s.writable → SndRoom c s.snd buf.length
  | .close => s.state = .established ∨ s.state = .closeWait → SndRoom c s.snd 1
  | _ => True

instance (c : UInt32) (s : TcpSock) : ∀ e, Decidable (SndAway c s e)
  | .connect _ => inferInstanceAs (Decidable (s.state ≠ .close))
  | .write _ => inferInstanceAs (Decidable (_ → _))
  | .close => inferInstanceAs (Decidable (_ → _))
  | .arrive _ | .read _ | .wake _ | .abort | .timer _ | .tick _ => .isTrue trivial

section Events

variable {c : UInt32} {s s' : TcpSock} {env : Env} {e : TcpEvent}

theorem inetStreamConnect_again (hst : s.state ≠ .close) (iss : UInt32) :
    inetStreamConnect env s iss = { s with err := eIsconn } := if_pos hst

/-- **Every event** keeps the range. -/
theorem SndInv.step (h : SndInv c s.snd) (haway : SndAway c s e) :
    SndInv c (tcpStep env s e).snd := by
  cases e with
  | connect iss =>
    change SndInv c (inetStreamConnect env s iss).snd
    rw [inetStreamConnect_again haway]
    exact h
  | arrive seg => exact h.arrive seg
  | write buf => exact (h.write haway).2
  | read len =>
    change SndInv c (tcpRead s len).1.snd
    rw [snd_tcpRead]
    exact h
  | wake rd =>
    change SndInv c (tcpReceiveStep s rd).1.snd
    rw [snd_tcpReceiveStep]
    exact h
  | close => exact h.close haway
  | abort =>
    have hreset : SndInv c (tcpSendReset env s).snd := h.sendReset
    exact hreset.done
  | timer handler =>
    change SndInv c (TcpSock.snd (if handler ∈ s.timers then _ else _))
    split
    · exact h.timer handler
    · exact h
  | tick ms => exact h

/-- **One event** of the two runs. -/
theorem Shifted.sndStep (h : Shifted ⟨c, 0⟩ s s') (hinv : SndInv c s.snd) (haway : SndAway c s e) :
    Shifted ⟨c, 0⟩ (tcpStep env s e) (tcpStep env s' (e.shift ⟨c, 0⟩)) := by
  have hgo : EventOk env ⟨c, 0⟩ s e →
      Shifted ⟨c, 0⟩ (tcpStep env s e) (tcpStep env s' (e.shift ⟨c, 0⟩)) :=
    h.step (.inl rfl) (.inr hinv)
  cases e with
  | connect iss =>
    have hst : s'.state ≠ .close := by
      rw [h.eq]
      exact haway
    change Shifted _ (inetStreamConnect env s iss) (inetStreamConnect env s' (iss + c))
    rw [inetStreamConnect_again haway, inetStreamConnect_again hst]
    exact h.of (by rw [h.eq]; rfl) ⟨rfl, rfl, rfl⟩
  | arrive seg => exact hgo (.inl rfl)
  | write buf => exact hgo (.inr (hinv.write haway).1)
  | read | wake | close | abort | timer | tick => exact hgo trivial

/-- A socket that has not been used. -/
structure Unused (s : TcpSock) : Prop where
  state : s.state = .close
  receiveQueue : s.receiveQueue = []
  ofoQueue : s.ofoQueue = []
  writeQueue : s.writeQueue = []
  queued : s.queued = []
  out : s.out = []
  inflight : s.inflight = 0
  fec : s.fec = none

/-- There is room for the SYN. -/
structure IssOk (c iss : UInt32) : Prop where
  ne : iss ≠ 0
  ne_add : iss + c ≠ 0
  room : iss.toNat + 1 < 2 ^ 32
  room_add : (iss + c).toNat + 1 < 2 ^ 32

theorem Unused.starting (h : Unused s) (iss : UInt32) :
    Shifted ⟨c, 0⟩ (s.starting iss) (s.starting (iss + c)) := by
  refine ⟨?_, .inl rfl⟩
  unfold TcpSock.starting TcpSock.shift Tcb.shift
  dsimp only
  rw [h.receiveQueue, h.ofoQueue, h.writeQueue, h.queued, h.out, h.fec,
    UInt32.add_zero s.tcb.irs]
  rfl

theorem Shifted.sendSyn (h : Shifted ⟨c, 0⟩ s s') (hst : s.state = .close)
    (hnxt : s.tcb.sndNxt ≠ 0) (h0 : s.inflight = 0) :
    Shifted ⟨c, 0⟩ (tcpSendSyn env s) (tcpSendSyn env s') := by
  have hst' : s'.state = .close := by
    rw [h.eq]
    exact hst
  have hhdr : tcpSynHeader s' false = tcpSynHeader s false := by
    rw [h.eq]
    rfl
  obtain ⟨halloc, hskb⟩ := h.alloc none (tcpSynHeader s false) []
  have hset : Shifted ⟨c, 0⟩
      { (tcpAllocSkb s none (tcpSynHeader s false) []).1 with state := .synSent }
      { (tcpAllocSkb s' none (tcpSynHeader s false) []).1 with state := .synSent } :=
    halloc.of (by rw [halloc.eq]; rfl) ⟨rfl, rfl, rfl⟩
  unfold tcpSendSyn
  rw [if_neg fun hc => hc.2.1 hst, if_neg fun hc => hc.2.1 hst', hhdr]
  dsimp only
  rw [hskb]
  exact hset.queueTransmit env (sendsSame_self (shiftSack_zero _) (.inr rfl)) (.inr rfl)
    (.inr hnxt) fun hne => absurd h0 hne

/-- **The connection is started**, in both runs. -/
theorem Unused.connect (h : Unused s) {iss : UInt32} (hiss : IssOk c iss) :
    Shifted ⟨c, 0⟩ (inetStreamConnect env s iss) (inetStreamConnect env s (iss + c)) := by
  have hsyn : Shifted ⟨c, 0⟩ (tcpSendSyn env (s.starting iss))
      (tcpSendSyn env (s.starting (iss + c))) :=
    (h.starting iss).sendSyn h.state hiss.ne h.inflight
  have hclosed : ¬ s.state ≠ .close := not_not.2 h.state
  unfold inetStreamConnect
  rw [if_neg hclosed, if_neg hclosed]
  unfold tcpConnect
  change Shifted _
    { tcpSendSyn env (s.starting iss) with
      tcb.sndNxt := (tcpSendSyn env (s.starting iss)).tcb.sndNxt + 1, err := eInprogress }
    { tcpSendSyn env (s.starting (iss + c)) with
      tcb.sndNxt := (tcpSendSyn env (s.starting (iss + c))).tcb.sndNxt + 1, err := eInprogress }
  generalize tcpSendSyn env (s.starting iss) = s₁ at hsyn
  generalize tcpSendSyn env (s.starting (iss + c)) = s₁' at hsyn
  have hnxt : s₁'.tcb.sndNxt + 1 = s₁.tcb.sndNxt + 1 + c := by
    rw [hsyn.eq]
    exact add_right_comm _ _ _
  refine hsyn.of ?_ ⟨rfl, rfl, rfl⟩
  rw [hnxt, hsyn.eq]
  rfl

theorem SndFits.next {v : SndView} {n : ℕ} (h : SndFits c v (n + 1)) :
    SndFits c { v with sndNxt := v.sndNxt + 1 } n := by
  obtain ⟨⟨d, hd⟩, hroom⟩ := h
  have h1 := hroom.room
  have h2 := hroom.room_add
  have hn1 : v.sndNxt.toNat + 1 < 2 ^ 32 := by omega
  have hn2 : (v.sndNxt + c).toNat + 1 < 2 ^ 32 := by omega
  have hmove : v.sndNxt + 1 + c = v.sndNxt + c + 1 := add_right_comm _ _ _
  have hval : (v.sndNxt + 1).toNat = v.sndNxt.toNat + 1 := toNat_add_of_room hn1
  have hval' : (v.sndNxt + c + 1).toNat = (v.sndNxt + c).toNat + 1 := toNat_add_of_room hn2
  have hle : v.sndNxt.toNat ≤ (v.sndNxt + 1).toNat := by omega
  refine ⟨⟨d, { hd with
    iss_le := hd.iss_le.trans hle, una_le := hd.una_le.trans hle
    ends := fun y hy hne => ?_
    nxt := hd.nxt.add hn1 hn2, nxt_ne := add_ofNat_ne_zero hd.nxt_ne hn1, nxt_add_ne := ?_ }⟩, ?_, ?_⟩
  · obtain ⟨hend, hbelow⟩ := hd.ends y hy hne
    exact ⟨hend, hbelow.trans hle⟩
  · change v.sndNxt + 1 + c ≠ 0
    rw [hmove]
    exact add_ofNat_ne_zero hd.nxt_add_ne hn2
  · change (v.sndNxt + 1).toNat + unsentLen v.writeQueue + _ < _
    omega
  · change (v.sndNxt + 1 + c).toNat + unsentLen v.writeQueue + _ < _
    rw [hmove]
    omega

theorem Unused.sndFits (h : Unused s) {iss : UInt32} (hiss : IssOk c iss) :
    SndFits c (s.starting iss).snd 1 := by
  have hkeep : Keeps c ((iss + c).toNat - iss.toNat) iss := by
    unfold Keeps
    omega
  have hq : (s.starting iss).snd.writeQueue = [] := h.writeQueue
  have hlen : unsentLen (s.starting iss).snd.writeQueue = 0 := by
    rw [hq]
    rfl
  have hmem : ∀ y, y ∉ (s.starting iss).snd.writeQueue := by
    intro y hy
    rw [hq] at hy
    cases hy
  have horder : SndOrder (s.starting iss).snd := by
    refine ⟨Nat.le_refl _, Nat.le_refl _, fun y hy => absurd hy (hmem y), ?_⟩
    rw [hq]
    exact List.Pairwise.nil
  refine ⟨⟨_, horder, hkeep, hkeep, hkeep, hiss.ne, hiss.ne, hiss.ne, hiss.ne_add,
    fun y hy => absurd hy (hmem y), fun y hy => absurd hy (hmem y), ?_, ?_⟩, ?_, ?_⟩
  · rw [hq]
    exact Nat.zero_le _
  · intro fec hfec
    change s.fec.map TcpFec.tx = some fec at hfec
    rw [h.fec] at hfec
    cases hfec
  · rw [hlen]
    exact hiss.room
  · rw [hlen]
    exact hiss.room_add

/-- **The range** after the connection has been started. -/
theorem Unused.sndInv (h : Unused s) {iss : UInt32} (hiss : IssOk c iss) :
    SndInv c (inetStreamConnect env s iss).snd := by
  have hstart := h.sndFits hiss
  have hst : (s.starting iss).state = .close := h.state
  have hsyn : SndFits c (tcpSendSyn env (s.starting iss)).snd 1 := by
    generalize s.starting iss = s₁ at hstart hst
    unfold tcpSendSyn
    rw [if_neg fun hc => hc.2.1 hst]
    refine SndFits.queueTransmit hstart ⟨_, rfl⟩ rfl rfl ?_
    exact Pinned.queueTransmit (s := { s₁ with nextAddr := s₁.nextAddr + 1, state := .synSent })
      hstart.pinned _
  unfold inetStreamConnect
  rw [if_neg (not_not.2 h.state)]
  exact hsyn.next

end Events

end LvlIp.Tcp
