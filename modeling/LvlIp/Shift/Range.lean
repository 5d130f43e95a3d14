import LvlIp.Shift.Write
import LvlIp.Handshake.State

/-!
# The range of the send sequence numbers

Sequence numbers are compared by size. As long as the numbers that are compared are all moved by the
same amount, without a wrap between them (`Keeps`), the comparisons come out the same. On the send
side these are `iss`, `snd_una`, `snd_nxt` and the ranges of the transmitted buffers (`SndRange`);
an acknowledgement number may be any number, since it is only ever asked whether it lies between two
of them.
-/

namespace LvlIp.Tcp

open Fec Foundations

/-! ## Numbers that are moved by the same amount -/

/-- The translation by `c` moves the number by `d`. -/
def Keeps (c : UInt32) (d : ℤ) (x : UInt32) : Prop := ((x + c).toNat : ℤ) = x.toNat + d

section Keeps

variable {c x y z : UInt32} {d : ℤ}

theorem Keeps.le_iff (hx : Keeps c d x) (hy : Keeps c d y) : x + c ≤ y + c ↔ x ≤ y := by
  unfold Keeps at hx hy
  rw [UInt32.le_iff_toNat_le, UInt32.le_iff_toNat_le]
  omega

theorem Keeps.lt_iff (hx : Keeps c d x) (hy : Keeps c d y) : x + c < y + c ↔ x < y := by
  unfold Keeps at hx hy
  rw [UInt32.lt_iff_toNat_lt, UInt32.lt_iff_toNat_lt]
  omega

/-- A number between two that are moved by `d` is moved by `d`. -/
theorem Keeps.of_between (hx : Keeps c d x) (hy : Keeps c d y) (hxz : x ≤ z) (hzy : z ≤ y) :
    Keeps c d z := by
  unfold Keeps at hx hy ⊢
  rw [UInt32.toNat_add] at hx hy ⊢
  rw [UInt32.le_iff_toNat_le] at hxz hzy
  have := x.toNat_lt
  have := y.toNat_lt
  have := c.toNat_lt
  omega

/-- **Membership in an interval** is kept, whatever the number. -/
theorem Keeps.mem_iff (hx : Keeps c d x) (hy : Keeps c d y) (z : UInt32) :
    x + c ≤ z + c ∧ z + c ≤ y + c ↔ x ≤ z ∧ z ≤ y := by
  unfold Keeps at hx hy
  simp only [UInt32.le_iff_toNat_le, UInt32.toNat_add] at hx hy ⊢
  have := x.toNat_lt
  have := y.toNat_lt
  have := z.toNat_lt
  have := c.toNat_lt
  omega

theorem Keeps.mem_Ioc_iff (hx : Keeps c d x) (hy : Keeps c d y) (z : UInt32) :
    x + c < z + c ∧ z + c ≤ y + c ↔ x < z ∧ z ≤ y := by
  have hmem := hx.mem_iff hy z
  have hne : x + c = z + c ↔ x = z := add_left_inj c
  simp only [UInt32.lt_iff_le_and_ne, Ne, hne]
  tauto

theorem Keeps.mem_Ico_iff (hx : Keeps c d x) (hy : Keeps c d y) (z : UInt32) :
    x + c ≤ z + c ∧ z + c < y + c ↔ x ≤ z ∧ z < y := by
  have hmem := hx.mem_iff hy z
  have hne : z + c = y + c ↔ z = y := add_left_inj c
  simp only [UInt32.lt_iff_le_and_ne, Ne, hne]
  tauto

/-- A number that is moved by `d`, and one beyond it by `n`, when neither wraps. -/
theorem Keeps.add (hx : Keeps c d x) {n : ℕ} (h : x.toNat + n < 2 ^ 32)
    (h' : (x + c).toNat + n < 2 ^ 32) : Keeps c d (x + UInt32.ofNat n) := by
  unfold Keeps at hx ⊢
  simp only [UInt32.toNat_add, UInt32.toNat_ofNat'] at hx h h' ⊢
  have := x.toNat_lt
  have := c.toNat_lt
  omega

end Keeps

/-! ## The send side -/

/-- The sequence numbers a buffer takes. -/
def SkBuff.seqLen (skb : SkBuff) : ℕ := skb.dlen + if skb.th.fin then 1 else 0

/-- The sequence numbers that the buffers which have not been sent will take. -/
def unsentLen (q : List SkBuff) : ℕ := (q.map fun skb => if skb.seq = 0 then skb.seqLen else 0).sum

/-- `iss` and `snd_una` are not beyond `snd_nxt`, and the buffers that have been sent took their
numbers below it one after the other. -/
structure SndOrder (v : SndView) : Prop where
  iss_le : v.iss.toNat ≤ v.sndNxt.toNat
  una_le : v.sndUna.toNat ≤ v.sndNxt.toNat
  ends : ∀ y ∈ v.writeQueue, y.seq ≠ 0 →
    y.endSeq.toNat = y.seq.toNat + y.dlen ∧ y.seq.toNat + y.seqLen ≤ v.sndNxt.toNat
  ascending : v.writeQueue.Pairwise fun x y =>
    x.seq ≠ 0 → y.seq ≠ 0 → x.seq.toNat + x.seqLen ≤ y.seq.toNat

/-- The send sequence numbers are in order, all moved by `d`, and stay off 0; the buffers that have
been sent are in flight. -/
structure SndRange (c : UInt32) (d : ℤ) (v : SndView) : Prop extends SndOrder v where
  iss : Keeps c d v.iss
  una : Keeps c d v.sndUna
  nxt : Keeps c d v.sndNxt
  iss_ne : v.iss ≠ 0
  una_ne : v.sndUna ≠ 0
  nxt_ne : v.sndNxt ≠ 0
  nxt_add_ne : v.sndNxt + c ≠ 0
  sent : ∀ y ∈ v.writeQueue, y.seq ≠ 0 → y.seq + c ≠ 0 ∧ Keeps c d y.endSeq
  source : ∀ y ∈ v.writeQueue, repairTag y.tag = false
  flight : v.writeQueue.countP (fun y => y.seq ≠ 0) ≤ v.inflight
  pinned : ∀ fec, v.tx = some fec → 0 < fec.txFilled → fec.txBaseSeq ≠ 0

/-- What waits and `extra` more can be sent without reaching the end of the sequence space, in both
runs. -/
structure SndRoom (c : UInt32) (v : SndView) (extra : ℕ) : Prop where
  room : v.sndNxt.toNat + unsentLen v.writeQueue + extra < 2 ^ 32
  room_add : (v.sndNxt + c).toNat + unsentLen v.writeQueue + extra < 2 ^ 32

/-- The numbers are in range, and there is room for what waits. -/
def SndInv (c : UInt32) (v : SndView) : Prop := (∃ d, SndRange c d v) ∧ SndRoom c v 0

/-- The send side does not notice the translation. -/
def SndOk (c : UInt32) (v : SndView) : Prop := c = 0 ∨ SndInv c v

section Range

variable {c : UInt32} {d : ℤ} {v : SndView}

/-- Buffers that have been sent are taken off. -/
theorem unsentLen_tcpCleanLoop (una : UInt32) (q : List SkBuff) (n : ℕ) :
    unsentLen (tcpCleanLoop una q n).1 = unsentLen q := by
  induction q generalizing n with
  | nil => rfl
  | cons skb q ih =>
    unfold tcpCleanLoop
    split
    · next hsent =>
      have hne : ¬ skb.seq = 0 := UInt32.pos_iff_ne_zero.mp hsent.1
      rw [ih, unsentLen, unsentLen, List.map_cons, List.sum_cons, if_neg hne, Nat.zero_add]
    · rfl

theorem countP_tcpCleanLoop {una : UInt32} {q : List SkBuff} {n : ℕ}
    (h : q.countP (fun y => y.seq ≠ 0) ≤ n) :
    (tcpCleanLoop una q n).1.countP (fun y => y.seq ≠ 0) ≤ (tcpCleanLoop una q n).2 := by
  induction q generalizing n with
  | nil => exact h
  | cons skb q ih =>
    unfold tcpCleanLoop
    split
    · next hsent =>
      refine ih ?_
      rw [List.countP_cons_of_pos (by simpa using UInt32.pos_iff_ne_zero.mp hsent.1)] at h
      omega
    · exact h

theorem tcpCleanLoop_sublist (una : UInt32) (q : List SkBuff) (n : ℕ) :
    (tcpCleanLoop una q n).1.Sublist q := by
  obtain ⟨k, -, heq, -⟩ := tcpCleanLoop_spec una q n
  rw [heq]
  exact List.drop_sublist k q

/-- A smaller write queue, with what is gone no longer in flight. -/
theorem SndRange.clean (h : SndRange c d v) {una : UInt32} (huna : Keeps c d una) (hne : una ≠ 0)
    (hle : una ≤ v.sndNxt) (ackSeq : UInt32) :
    SndRange c d { v with
      sndUna := una
      writeQueue := (tcpCleanLoop ackSeq v.writeQueue v.inflight).1
      inflight := (tcpCleanLoop ackSeq v.writeQueue v.inflight).2 } :=
  { h with
    una := huna
    una_ne := hne
    una_le := UInt32.le_iff_toNat_le.mp hle
    ends := fun y hy => h.ends y (mem_tcpCleanLoop hy)
    ascending := h.ascending.sublist (tcpCleanLoop_sublist ackSeq v.writeQueue v.inflight)
    sent := fun y hy => h.sent y (mem_tcpCleanLoop hy)
    source := fun y hy => h.source y (mem_tcpCleanLoop hy)
    flight := countP_tcpCleanLoop h.flight }

theorem SndRange.ack (h : SndRange c d v) (ackSeq : UInt32) : SndRange c d (v.ack ackSeq) := by
  unfold SndView.ack
  split
  · next hmem =>
    refine h.clean (h.una.of_between h.nxt (UInt32.le_of_lt hmem.1) hmem.2) ?_ hmem.2 ackSeq
    rintro rfl
    exact UInt32.not_lt_zero hmem.1
  · exact h

theorem SndRoom.ack {extra : ℕ} (h : SndRoom c v extra) (ackSeq : UInt32) :
    SndRoom c (v.ack ackSeq) extra := by
  unfold SndView.ack
  split
  · have hlen := unsentLen_tcpCleanLoop ackSeq v.writeQueue v.inflight
    refine ⟨?_, ?_⟩
    · dsimp only
      rw [hlen]
      exact h.room
    · dsimp only
      rw [hlen]
      exact h.room_add
  · exact h

theorem SndInv.ack (h : SndInv c v) (ackSeq : UInt32) : SndInv c (v.ack ackSeq) := by
  obtain ⟨⟨d, hd⟩, hroom⟩ := h
  exact ⟨⟨d, hd.ack ackSeq⟩, hroom.ack ackSeq⟩

theorem SndOk.ack (h : SndOk c v) (ackSeq : UInt32) : SndOk c (v.ack ackSeq) :=
  h.imp_right fun hinv => hinv.ack ackSeq

theorem SndOk.source (h : SndOk c v) (σ : Shift) (hσ : σ.snd = c) :
    ∀ y ∈ v.writeQueue, SourceBuf σ y := by
  intro y hy
  unfold SourceBuf
  rw [hσ]
  exact h.imp_right fun ⟨⟨_, hd⟩, _⟩ => hd.source y hy

/-- When nothing is in flight, nothing has been sent. -/
theorem SndRange.unsent (h : SndRange c d v) (h0 : v.inflight = 0) :
    ∀ y ∈ v.writeQueue, y.seq = 0 := by
  have hcount := h.flight
  rw [h0, Nat.le_zero, List.countP_eq_zero] at hcount
  intro y hy
  simpa using hcount y hy

/-- The acknowledgement number lies in the same place between `snd_una` and `snd_nxt`. -/
theorem SndOk.mem_iff (h : SndOk c v) (ackSeq : UInt32) :
    (v.sndUna + c ≤ ackSeq + c ∧ ackSeq + c ≤ v.sndNxt + c ↔
      v.sndUna ≤ ackSeq ∧ ackSeq ≤ v.sndNxt) ∧
    (v.sndUna + c < ackSeq + c ∧ ackSeq + c ≤ v.sndNxt + c ↔
      v.sndUna < ackSeq ∧ ackSeq ≤ v.sndNxt) ∧
    (v.sndUna + c ≤ ackSeq + c ∧ ackSeq + c < v.sndNxt + c ↔
      v.sndUna ≤ ackSeq ∧ ackSeq < v.sndNxt) := by
  rcases h with rfl | ⟨⟨d, h⟩, -⟩
  · simp only [UInt32.add_zero, iff_self, and_self]
  · exact ⟨h.una.mem_iff h.nxt _, h.una.mem_Ioc_iff h.nxt _, h.una.mem_Ico_iff h.nxt _⟩

/-- What is acknowledged does not notice the translation. -/
theorem SndOk.acked (h : SndOk c v) {ackSeq : UInt32}
    (hmem : v.sndUna ≤ ackSeq ∧ ackSeq ≤ v.sndNxt) :
    ∀ y ∈ v.writeQueue, y.seq ≠ 0 →
      y.seq + c ≠ 0 ∧ (y.endSeq + c ≤ ackSeq + c ↔ y.endSeq ≤ ackSeq) := by
  intro y hy h0
  rcases h with rfl | ⟨⟨d, h⟩, -⟩
  · simp [h0]
  · obtain ⟨hne, hend⟩ := h.sent y hy h0
    exact ⟨hne, hend.le_iff (h.una.of_between h.nxt hmem.1 hmem.2)⟩

theorem decide_not_outside (x y z : UInt32) :
    (decide ¬ (z < x ∨ y < z)) = decide (x ≤ z ∧ z ≤ y) := by
  simp only [not_or, UInt32.not_lt]

theorem SndOk.mem_iss_iff (h : SndOk c v) (ackSeq : UInt32) :
    v.iss + c < ackSeq + c ∧ ackSeq + c ≤ v.sndNxt + c ↔ v.iss < ackSeq ∧ ackSeq ≤ v.sndNxt := by
  rcases h with rfl | ⟨⟨d, h⟩, -⟩
  · simp only [UInt32.add_zero]
  · exact h.iss.mem_Ioc_iff h.nxt _

end Range

end LvlIp.Tcp
