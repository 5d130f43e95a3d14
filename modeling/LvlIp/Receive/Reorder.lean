import Mathlib.Data.List.TakeWhile
import LvlIp.Receive.Stream
import LvlIp.Send.View

/-!
# Arrival order

A stretch of the peer's stream, cut into segments that arrive in any order and any number of times
at an established socket without FEC. The socket drops a segment whose acknowledgement number is
below `snd_una`, with its text. So a segment is taken only by an arrival that no earlier arrival
has overtaken with a larger acknowledgement number (`Timely`), and the stretch is delivered exactly
when every segment has such an arrival (`delivered_iff_timely`).

The invariant (`ReorderInv`) splits the cut in two: the segments before the first one not taken are
in the receive queue, and those taken after it are in the out-of-order queue, in order.
-/

namespace LvlIp.Tcp

open Fec Foundations

/-! ## Cuts -/

/-- A segment with text and an acknowledgement, and no other flag that matters. -/
def IsPlain (seg : Segment) : Prop :=
  seg.th.ack ∧ ¬ seg.th.rst ∧ ¬ seg.th.syn ∧ ¬ seg.th.fin ∧ seg.payload ≠ []

/-- The segments follow each other from the sequence number `q` on. -/
def IsCut : UInt32 → List Segment → Prop
  | _, [] => True
  | q, seg :: segs =>
    IsPlain seg ∧ seg.th.seq = q ∧ IsCut (q + UInt32.ofNat seg.payload.length) segs

/-- The stretch of the stream that the segments cover. -/
def textOf (segs : List Segment) : List UInt8 := segs.flatMap Segment.payload

@[simp]
theorem textOf_cons (seg : Segment) (segs : List Segment) :
    textOf (seg :: segs) = seg.payload ++ textOf segs := rfl

@[simp]
theorem textOf_append (A B : List Segment) : textOf (A ++ B) = textOf A ++ textOf B :=
  List.flatMap_append

theorem bytesOf_map_tcpInitSegment (segs : List Segment) :
    bytesOf (segs.map tcpInitSegment) = textOf segs := by
  rw [bytesOf, List.flatMap_map]
  rfl

theorem isCut_append {q : UInt32} {A B : List Segment} :
    IsCut q (A ++ B) ↔ IsCut q A ∧ IsCut (seqAt q (textOf A).length) B := by
  induction A generalizing q with
  | nil => simp [IsCut, textOf, seqAt_zero]
  | cons seg A ih =>
    have hpos : seqAt (q + UInt32.ofNat seg.payload.length) (textOf A).length =
        seqAt q (textOf (seg :: A)).length := by
      rw [textOf_cons, List.length_append, ← seqAt_add q, seqAt, seqAt]
    rw [List.cons_append, IsCut, IsCut, ih, hpos, and_assoc, and_assoc]

theorem IsCut.isPlain {q : UInt32} {segs : List Segment} (h : IsCut q segs) {seg : Segment}
    (hseg : seg ∈ segs) : IsPlain seg := by
  obtain ⟨A, B, rfl⟩ := List.mem_iff_append.mp hseg
  exact (isCut_append.mp h).2.1

/-- A segment of a cut lies inside the stretch. -/
theorem IsCut.exists_offset {q : UInt32} {segs : List Segment} (h : IsCut q segs) {seg : Segment}
    (hseg : seg ∈ segs) :
    ∃ off, seg.th.seq = seqAt q off ∧ off + seg.payload.length ≤ (textOf segs).length ∧
      0 < seg.payload.length := by
  obtain ⟨A, B, rfl⟩ := List.mem_iff_append.mp hseg
  obtain ⟨-, hplain, hseq, -⟩ := isCut_append.mp h
  refine ⟨(textOf A).length, hseq, ?_, List.length_pos_of_ne_nil hplain.2.2.2.2⟩
  simp only [textOf_append, textOf_cons, List.length_append]
  omega

/-- The sequence numbers of the segments after the first one are at least its end. -/
theorem IsCut.endSeq_le {q : UInt32} {b seg : Segment} {B : List Segment} (h : IsCut q (b :: B))
    (hwrap : q.toNat + (textOf (b :: B)).length < 2 ^ 32) (hseg : seg ∈ B) :
    (tcpInitSegment b).seq < (tcpInitSegment seg).seq ∧
      (tcpInitSegment b).endSeq ≤ (tcpInitSegment seg).seq := by
  obtain ⟨hplain, hseq, hcut⟩ := h
  obtain ⟨off, hoff, hle, hpos⟩ := hcut.exists_offset hseg
  have hb := List.length_pos_of_ne_nil hplain.2.2.2.2
  rw [textOf_cons, List.length_append] at hwrap
  have hend : (tcpInitSegment b).endSeq = seqAt q b.payload.length := by
    rw [← hseq]
    rfl
  have hseq' : seg.th.seq = seqAt q (b.payload.length + off) := by
    rw [hoff, ← seqAt_add q, seqAt, seqAt]
  change b.th.seq < seg.th.seq ∧ (tcpInitSegment b).endSeq ≤ seg.th.seq
  rw [hend, hseq', hseq]
  constructor
  · have h0 : seqAt q 0 < seqAt q (b.payload.length + off) := by
      rw [seqAt_lt_iff (by omega) (by omega)]
      omega
    rwa [seqAt_zero] at h0
  · rw [seqAt_le_iff (by omega) (by omega)]
    omega

theorem IsCut.ne_of_mem {q : UInt32} {b seg : Segment} {B : List Segment} (h : IsCut q (b :: B))
    (hwrap : q.toNat + (textOf (b :: B)).length < 2 ^ 32) (hseg : seg ∈ B) : seg ≠ b := by
  rintro rfl
  exact UInt32.lt_irrefl _ (h.endSeq_le hwrap hseg).1

theorem tail_wrap {q : UInt32} {b : Segment} {B : List Segment}
    (hwrap : q.toNat + (textOf (b :: B)).length < 2 ^ 32) :
    (q + UInt32.ofNat b.payload.length).toNat + (textOf B).length < 2 ^ 32 := by
  rw [textOf_cons, List.length_append] at hwrap
  have hq : (seqAt q b.payload.length).toNat = q.toNat + b.payload.length :=
    toNat_seqAt (by omega)
  rw [seqAt] at hq
  omega

/-! ## The out-of-order queue of a cut -/

/-- The buffers of the segments of a cut that have been taken. -/
def takenOf (g : Segment → Bool) (B : List Segment) : List SkBuff :=
  (B.filter g).map tcpInitSegment

theorem takenOf_cons_of_pos {g : Segment → Bool} {b : Segment} (h : g b) (B : List Segment) :
    takenOf g (b :: B) = tcpInitSegment b :: takenOf g B := by
  rw [takenOf, List.filter_cons_of_pos h]
  rfl

theorem takenOf_cons_of_neg {g : Segment → Bool} {b : Segment} (h : ¬ g b) (B : List Segment) :
    takenOf g (b :: B) = takenOf g B := by
  rw [takenOf, List.filter_cons_of_neg h]
  rfl

theorem takenOf_congr {g g' : Segment → Bool} {B : List Segment} (h : ∀ b ∈ B, g b = g' b) :
    takenOf g B = takenOf g' B := by
  rw [takenOf, List.filter_congr h]
  rfl

theorem exists_of_mem_takenOf {g : Segment → Bool} {B : List Segment} {x : SkBuff}
    (h : x ∈ takenOf g B) : ∃ b ∈ B, x = tcpInitSegment b := by
  obtain ⟨b, hb, rfl⟩ := List.mem_map.mp h
  exact ⟨b, List.mem_of_mem_filter hb, rfl⟩

/-- `g` with one more segment taken. -/
def takeAlso (g : Segment → Bool) (seg : Segment) : Segment → Bool := fun x => g x || x == seg

/-- **Ordered insertion** into the queue of a cut takes one more segment. -/
theorem tcpDataInsertOrdered_takenOf {g : Segment → Bool} {q : UInt32} {B : List Segment}
    (hcut : IsCut q B) (hwrap : q.toNat + (textOf B).length < 2 ^ 32) {seg : Segment}
    (hseg : seg ∈ B) :
    tcpDataInsertOrdered (takenOf g B) (tcpInitSegment seg) = takenOf (takeAlso g seg) B := by
  induction B generalizing q with
  | nil => cases hseg
  | cons b B ih =>
    have hlater := fun x (hx : x ∈ B) => hcut.endSeq_le hwrap hx
    rcases List.mem_cons.mp hseg with rfl | hseg
    · have hother : takenOf (takeAlso g seg) B = takenOf g B := by
        refine takenOf_congr fun x hx => ?_
        simp [takeAlso, hcut.ne_of_mem hwrap hx]
      rw [takenOf_cons_of_pos (b := seg) (g := takeAlso g seg) (by simp [takeAlso]), hother]
      by_cases hg : g seg
      · -- a duplicate
        rw [takenOf_cons_of_pos hg, tcpDataInsertOrdered, if_neg (UInt32.lt_irrefl _), if_pos rfl]
      · rw [takenOf_cons_of_neg hg]
        cases hq : takenOf g B with
        | nil => rfl
        | cons next rest =>
          obtain ⟨x, hx, rfl⟩ := exists_of_mem_takenOf (hq ▸ List.mem_cons_self)
          obtain ⟨hlt, hle⟩ := hlater x hx
          rw [tcpDataInsertOrdered, if_pos hlt, if_neg (UInt32.not_lt.mpr hle)]
    · obtain ⟨hlt, -⟩ := hlater seg hseg
      have hb : takeAlso g seg b = g b := by
        have hne : b ≠ seg := fun he => (hcut.ne_of_mem hwrap hseg) he.symm
        simp [takeAlso, hne]
      have hrec := ih hcut.2.2 (tail_wrap hwrap) hseg
      by_cases hg : g b
      · rw [takenOf_cons_of_pos hg, takenOf_cons_of_pos (hb.trans hg), ← hrec,
          tcpDataInsertOrdered, if_neg (UInt32.lt_asymm hlt),
          if_neg (UInt32.ne_of_lt hlt).symm]
      · rw [takenOf_cons_of_neg hg, takenOf_cons_of_neg (by rwa [hb]), hrec]

/-- **Draining** the queue of a cut moves its leading run of taken segments. -/
theorem tcpConsumeLoop_takenOf {g : Segment → Bool} {q : UInt32} {B : List Segment}
    (hcut : IsCut q B) (hwrap : q.toNat + (textOf B).length < 2 ^ 32) :
    tcpConsumeLoop q (takenOf g B) =
      ((B.takeWhile g).map tcpInitSegment, takenOf g (B.dropWhile g),
        seqAt q (textOf (B.takeWhile g)).length) := by
  induction B generalizing q with
  | nil => simp [takenOf, tcpConsumeLoop, textOf, seqAt_zero]
  | cons b B ih =>
    have hbq : (tcpInitSegment b).seq = q := hcut.2.1
    by_cases hg : g b
    · have hrec := ih hcut.2.2 (tail_wrap hwrap)
      rw [takenOf_cons_of_pos hg, tcpConsumeLoop, if_pos hbq.symm, List.takeWhile_cons_of_pos hg,
        List.dropWhile_cons_of_pos hg]
      have hdlen : (tcpInitSegment b).dlen = b.payload.length := rfl
      rw [hdlen, hrec, textOf_cons, List.length_append, ← seqAt_add q, seqAt, seqAt, List.map_cons]
    · rw [takenOf_cons_of_neg hg, List.takeWhile_cons_of_neg hg, List.dropWhile_cons_of_neg hg,
        takenOf_cons_of_neg hg]
      cases hq : takenOf g B with
      | nil => simp [tcpConsumeLoop, textOf, seqAt_zero]
      | cons next rest =>
        obtain ⟨x, hx, rfl⟩ := exists_of_mem_takenOf (hq ▸ List.mem_cons_self)
        have hlt := (hcut.endSeq_le hwrap hx).1
        rw [hbq] at hlt
        rw [tcpConsumeLoop, if_neg (UInt32.ne_of_lt hlt)]
        simp [textOf, seqAt_zero]

/-! ## Taking a segment -/

/-- The receive side after the segments of `g` have been taken from a cut that starts at `q`. -/
def Taken (q : UInt32) (segs : List Segment) (g : Segment → Bool) (v : RcvView) : Prop :=
  ∃ A B, segs = A ++ B ∧ v.receiveQueue = A.map tcpInitSegment ∧
    v.rcvNxt = seqAt q (textOf A).length ∧ (∀ a ∈ A, g a) ∧ (∀ b, B.head? = some b → ¬ g b) ∧
    v.ofoQueue = takenOf g B

variable {q : UInt32} {segs : List Segment} {g : Segment → Bool} {v : RcvView}

/-- **Queueing the text of a segment** that lies after what has been delivered takes it. -/
theorem Taken.dataQueue (hcut : IsCut q segs) (hwrap : q.toNat + (textOf segs).length < 2 ^ 32)
    (h : Taken q segs g v) (hwnd : v.rcvWnd ≠ 0) {seg : Segment} (hseg : seg ∈ segs)
    (hle : v.rcvNxt ≤ seg.th.seq) :
    Taken q segs (takeAlso g seg) (v.dataQueue (tcpInitSegment seg)) := by
  obtain ⟨A, B, rfl, hrq, hnxt, hA, hB, hofo⟩ := h
  obtain ⟨-, hcutB⟩ := isCut_append.mp hcut
  rw [textOf_append, List.length_append] at hwrap
  have hposA : (seqAt q (textOf A).length).toNat = q.toNat + (textOf A).length :=
    toNat_seqAt (by omega)
  have hwrapB : (seqAt q (textOf A).length).toNat + (textOf B).length < 2 ^ 32 := by omega
  have hA' : ∀ a ∈ A, takeAlso g seg a := fun a ha => by simp [takeAlso, hA a ha]
  -- the segment is not among those delivered: they end at `rcv_nxt`
  have hsegB : seg ∈ B := by
    refine (List.mem_append.mp hseg).resolve_left fun hmem => ?_
    obtain ⟨off, hoff, hle', hpos⟩ := (isCut_append.mp hcut).1.exists_offset hmem
    rw [hnxt, hoff, seqAt_le_iff (by omega) (by omega)] at hle
    omega
  unfold RcvView.dataQueue
  rw [if_neg hwnd]
  by_cases hexp : (tcpInitSegment seg).seq = v.rcvNxt
  · -- in order: the segment is the first one not delivered
    rw [if_pos hexp]
    cases B with
    | nil => cases hsegB
    | cons b B =>
      have hb : seg = b := by
        rcases List.mem_cons.mp hsegB with h | h
        · exact h
        · have hlt := (hcutB.endSeq_le hwrapB h).1
          have hbq : (tcpInitSegment b).seq = v.rcvNxt := hcutB.2.1.trans hnxt.symm
          rw [hbq, hexp] at hlt
          exact absurd hlt (UInt32.lt_irrefl _)
      subst hb
      have hg : ¬ g seg := hB seg rfl
      have hsame : ∀ x ∈ B, takeAlso g seg x = g x := fun x hx => by
        simp [takeAlso, hcutB.ne_of_mem hwrapB hx]
      have hloop := tcpConsumeLoop_takenOf (g := g) hcutB.2.2 (tail_wrap hwrapB)
      have hdlen : (tcpInitSegment seg).dlen = seg.payload.length := rfl
      rw [hofo, takenOf_cons_of_neg hg, hnxt, hdlen, hloop]
      refine ⟨A ++ seg :: B.takeWhile g, B.dropWhile g, ?_, ?_, ?_, ?_, ?_, ?_⟩
      · simp [List.takeWhile_append_dropWhile]
      · simp [hrq]
      · simp only [textOf_append, textOf_cons, List.length_append, seqAt_add, seqAt_seqAt,
          Nat.add_assoc]
      · intro a ha
        rcases List.mem_append.mp ha with ha | ha
        · exact hA' a ha
        · rcases List.mem_cons.mp ha with rfl | ha
          · simp [takeAlso]
          · simp [takeAlso, List.mem_takeWhile_imp ha]
      · intro x hx
        have hmem : x ∈ B := (List.dropWhile_sublist g).mem (List.mem_of_mem_head? hx)
        rw [hsame x hmem]
        have hdw := List.head?_dropWhile_not g B
        rw [hx] at hdw
        simpa using hdw
      · exact takenOf_congr fun x hx => (hsame x ((List.dropWhile_sublist g).mem hx)).symm
  · -- out of order
    rw [if_neg hexp]
    refine ⟨A, B, rfl, hrq, hnxt, hA', ?_, ?_⟩
    · intro b hb
      have hne : b ≠ seg := by
        rintro rfl
        cases B with
        | nil => cases hsegB
        | cons c B =>
          cases hb
          exact hexp (hcutB.2.1.trans hnxt.symm)
      simp [takeAlso, hne, hB b hb]
    · rw [hofo]
      exact tcpDataInsertOrdered_takenOf hcutB hwrapB hsegB

/-! ## Arrivals -/

/-- Some arrival of the segment has not been overtaken: its acknowledgement number is at least
`una`, and at least that of every earlier arrival. -/
def Timely (una : UInt32) (arrivals : List Segment) (seg : Segment) : Prop :=
  una ≤ seg.th.ackSeq ∧ ∃ pre post, arrivals = pre ++ seg :: post ∧
    ∀ a ∈ pre, a.th.ackSeq ≤ seg.th.ackSeq

theorem timely_append_singleton {una : UInt32} {done : List Segment} {seg x : Segment} :
    Timely una (done ++ [seg]) x ↔ Timely una done x ∨
      (x = seg ∧ una ≤ x.th.ackSeq ∧ ∀ a ∈ done, a.th.ackSeq ≤ x.th.ackSeq) := by
  constructor
  · rintro ⟨huna, pre, post, heq, hpre⟩
    rcases List.eq_nil_or_concat post with rfl | ⟨post, y, rfl⟩
    · obtain ⟨hdone, hx⟩ := List.append_inj' heq rfl
      have hx : seg = x := by simpa using hx
      exact .inr ⟨hx.symm, huna, hdone ▸ hpre⟩
    · rw [List.concat_eq_append, ← List.cons_append, ← List.append_assoc] at heq
      obtain ⟨hdone, -⟩ := List.append_inj' heq rfl
      exact .inl ⟨huna, pre, post, hdone, hpre⟩
  · rintro (⟨huna, pre, post, rfl, hpre⟩ | ⟨rfl, huna, hdone⟩)
    · exact ⟨huna, pre, post ++ [seg], by simp, hpre⟩
    · exact ⟨huna, done, [], rfl, hdone⟩

theorem Timely.mem {una : UInt32} {arrivals : List Segment} {seg : Segment}
    (h : Timely una arrivals seg) : seg ∈ arrivals := by
  obtain ⟨-, pre, post, rfl, -⟩ := h
  simp

/-- **A plain segment on an established socket** with nothing to send: only the acknowledgement
touches the send side. -/
theorem snd_tcpSegmentArrives_plain (env : Env) {s : TcpSock} (hst : s.state = .established)
    (hwq : s.writeQueue = []) {seg : Segment} (hplain : IsPlain seg) :
    (tcpSegmentArrives env s (tcpInitSegment seg)).snd =
      if tcpVerifySegment s (tcpInitSegment seg) then s.snd.ack seg.th.ackSeq else s.snd := by
  obtain ⟨hack, hrst, hsyn, hfin, -⟩ := hplain
  have hth : (tcpInitSegment seg).th = seg.th := rfl
  unfold tcpSegmentArrives
  rw [hth]
  by_cases hv : tcpVerifySegment s (tcpInitSegment seg)
  · have hst' : (tcpAck s seg.th.ackSeq).1.state = .established :=
      (state_eq_of_rcv (rcv_tcpAck s _)).trans hst
    simp only [hv, hrst, hsyn, hack, not_true_eq_false, if_false, if_true, Bool.false_eq_true,
      tcpAckField_established hst]
    split
    · exact snd_tcpAck s _
    · rw [tcpFinAcked_of_state env (.inl hst')]
      simp only [not_true_eq_false, if_false, tcpDeliver]
      rw [snd_tcpPending_of_inflight, snd_tcpFin, snd_tcpText, snd_tcpAck]
      rintro ⟨-, hne⟩
      refine hne ?_
      have hsnd : (tcpFin env (tcpText env (tcpAck s seg.th.ackSeq).1 (tcpInitSegment seg))
          (tcpInitSegment seg).th ((tcpInitSegment seg).seq ==
            (tcpAck s seg.th.ackSeq).1.tcb.rcvNxt)).snd = s.snd.ack seg.th.ackSeq := by
        rw [snd_tcpFin, snd_tcpText, snd_tcpAck]
      have hq := congrArg SndView.writeQueue hsnd
      refine hq.trans ?_
      unfold SndView.ack
      split
      · change (tcpCleanLoop _ s.writeQueue _).1 = []
        rw [hwq]
        rfl
      · exact hwq
  · simp only [hv, Bool.false_eq_true, not_false_eq_true, if_true, if_false]
    split
    · rfl
    · exact snd_tcpSendAck env s

/-- The socket after some segments of the cut have arrived. -/
structure ReorderInv (s₀ : TcpSock) (segs done : List Segment) (s : TcpSock) : Prop where
  state : s.state = .established
  fec : s.fec = none
  wnd : s.tcb.rcvWnd = s₀.tcb.rcvWnd
  nxt : s.tcb.sndNxt = s₀.tcb.sndNxt
  wq : s.writeQueue = []
  una : ∀ x, s.tcb.sndUna ≤ x ↔ s₀.tcb.sndUna ≤ x ∧ ∀ a ∈ done, a.th.ackSeq ≤ x
  taken : ∃ g : Segment → Bool,
    (∀ seg ∈ segs, g seg ↔ Timely s₀.tcb.sndUna done seg) ∧ Taken s₀.tcb.rcvNxt segs g s.rcv

theorem SndView.ack_sndNxt (w : SndView) (a : UInt32) : (w.ack a).sndNxt = w.sndNxt := by
  unfold SndView.ack
  split <;> rfl

theorem SndView.ack_sndUna_le_iff {w : SndView} {a : UInt32} (ha : a ≤ w.sndNxt) (x : UInt32) :
    (w.ack a).sndUna ≤ x ↔ w.sndUna ≤ x ∧ a ≤ x := by
  unfold SndView.ack
  simp only [UInt32.le_iff_toNat_le, UInt32.lt_iff_toNat_lt] at ha ⊢
  split
  · dsimp only
    omega
  · omega

theorem tcpAck_snd_iff {s : TcpSock} {a : UInt32} (ha : a ≤ s.tcb.sndNxt) :
    (tcpAck s a).2 ↔ s.tcb.sndUna ≤ a := by
  have hle := SndView.ack_sndUna_le_iff (w := s.snd) ha a
  have hnxt := SndView.ack_sndNxt s.snd a
  rw [tcpAck_snd, decide_eq_true_eq, hnxt]
  change ¬ (a < _ ∨ s.tcb.sndNxt < a) ↔ _
  rw [not_or, UInt32.not_lt, UInt32.not_lt, hle]
  change (s.tcb.sndUna ≤ a ∧ a ≤ a) ∧ a ≤ s.tcb.sndNxt ↔ _
  exact ⟨fun h => h.1.1, fun h => ⟨⟨h, UInt32.le_refl a⟩, ha⟩⟩

section Run

variable {s₀ s : TcpSock} {done : List Segment}

/-- Inside the window, a segment passes `tcp_verify_segment` unless it has been delivered. -/
theorem ReorderInv.tcpVerifySegment_iff (h : ReorderInv s₀ segs done s)
    (hcut : IsCut s₀.tcb.rcvNxt segs) (hwin : (textOf segs).length ≤ s₀.tcb.rcvWnd.toNat)
    (hwrap : s₀.tcb.rcvNxt.toNat + (textOf segs).length + s₀.tcb.rcvWnd.toNat < 2 ^ 32)
    {seg : Segment} (hseg : seg ∈ segs) :
    tcpVerifySegment s (tcpInitSegment seg) ↔ s.tcb.rcvNxt ≤ seg.th.seq := by
  obtain ⟨off, hoff, hle, hpos⟩ := hcut.exists_offset hseg
  obtain ⟨g, -, A, B, rfl, -, hnxt, -⟩ := h.taken
  have hnxt : s.tcb.rcvNxt = seqAt s₀.tcb.rcvNxt (textOf A).length := hnxt
  rw [textOf_append, List.length_append] at hwin hwrap hle
  have h1 : (seqAt s₀.tcb.rcvNxt (textOf A).length).toNat =
      s₀.tcb.rcvNxt.toNat + (textOf A).length := toNat_seqAt (by omega)
  have h2 : (seqAt s₀.tcb.rcvNxt off).toNat = s₀.tcb.rcvNxt.toNat + off := toNat_seqAt (by omega)
  have hwnd0 : s₀.tcb.rcvWnd ≠ 0 := by
    rw [← UInt32.toNat_inj.ne]
    simp only [UInt32.toNat_zero]
    omega
  have hth : (tcpInitSegment seg).th.seq = seqAt s₀.tcb.rcvNxt off := hoff
  have hedge : ¬ s.tcb.rcvNxt + s.tcb.rcvWnd < seqAt s₀.tcb.rcvNxt off := by
    rw [UInt32.lt_iff_toNat_lt, UInt32.toNat_add, h.wnd, hnxt, h1, h2, Nat.mod_eq_of_lt (by omega)]
    omega
  unfold tcpVerifySegment
  rw [hth, hoff]
  simp only [h.wnd, beq_eq_false_iff_ne.mpr hwnd0, Bool.and_false, Bool.not_false, Bool.true_and,
    Bool.not_eq_true', Bool.or_eq_false_iff, decide_eq_false_iff_not]
  rw [h.wnd] at hedge
  rw [UInt32.not_lt]
  exact ⟨fun hv => hv.1, fun hv => ⟨hv, hedge⟩⟩

theorem una_append {una una' a : UInt32} {P : UInt32 → Prop} {done : List Segment} {seg : Segment}
    (ha : seg.th.ackSeq = a) (h : ∀ x, una ≤ x ↔ P x ∧ ∀ b ∈ done, b.th.ackSeq ≤ x)
    (h' : ∀ x, una' ≤ x ↔ una ≤ x ∧ a ≤ x) (x : UInt32) :
    una' ≤ x ↔ P x ∧ ∀ b ∈ done ++ [seg], b.th.ackSeq ≤ x := by
  rw [h', h, List.forall_mem_append, List.forall_mem_singleton, ha, and_assoc]

/-- The receive side changes where the segment fits and its ACK is not an old one. -/
theorem ReorderInv.rcv_tcpIn (env : Env) (h : ReorderInv s₀ segs done s) {seg : Segment}
    (hplain : IsPlain seg) (hack : seg.th.ackSeq ≤ s.tcb.sndNxt)
    (hverify : tcpVerifySegment s (tcpInitSegment seg) ↔ s.tcb.rcvNxt ≤ seg.th.seq) :
    (tcpIn env s seg).rcv =
      if s.tcb.rcvNxt ≤ seg.th.seq ∧ s.tcb.sndUna ≤ seg.th.ackSeq then
        s.rcv.dataQueue (tcpInitSegment seg)
      else s.rcv := by
  obtain ⟨hpack, hprst, hpsyn, hpfin, hne⟩ := hplain
  have htext : tcpProcessesText s (tcpInitSegment seg) ↔
      s.tcb.rcvNxt ≤ seg.th.seq ∧ s.tcb.sndUna ≤ seg.th.ackSeq := by
    rw [← hverify, ← tcpAck_snd_iff hack]
    have hth : (tcpInitSegment seg).th = seg.th := rfl
    simp [tcpProcessesText, hth, hpack, hprst, hpsyn]
  have hlen : (tcpInitSegment seg).th.psh ∨ 0 < (tcpInitSegment seg).dlen :=
    .inr (List.length_pos_of_ne_nil hne)
  have hfin : ¬ ((tcpInitSegment seg).th.fin ∧ (tcpInitSegment seg).seq = s.tcb.rcvNxt) :=
    fun hf => hpfin hf.1
  have hrst : ¬ (tcpVerifySegment s (tcpInitSegment seg) ∧ (tcpInitSegment seg).th.rst) :=
    fun hf => hprst hf.2
  rw [tcpIn_eq_tcpSegmentArrives h.fec (.inl h.state),
    rcv_tcpSegmentArrives_established env (tcpInitSegment seg) h.state]
  simp only [if_pos hlen, if_neg hfin, if_neg hrst, htext]

/-- The send side changes where the segment fits. -/
theorem ReorderInv.snd_tcpIn (env : Env) (h : ReorderInv s₀ segs done s) {seg : Segment}
    (hplain : IsPlain seg)
    (hverify : tcpVerifySegment s (tcpInitSegment seg) ↔ s.tcb.rcvNxt ≤ seg.th.seq) :
    (tcpIn env s seg).snd =
      if s.tcb.rcvNxt ≤ seg.th.seq then s.snd.ack seg.th.ackSeq else s.snd := by
  rw [tcpIn_eq_tcpSegmentArrives h.fec (.inl h.state),
    snd_tcpSegmentArrives_plain env h.state h.wq hplain]
  simp only [hverify]

theorem SndView.ack_writeQueue {w : SndView} (hw : w.writeQueue = []) (a : UInt32) :
    (w.ack a).writeQueue = [] := by
  unfold SndView.ack
  split
  · rw [hw]
    rfl
  · exact hw

section Arrive

variable {s' : TcpSock} {seg : Segment}

/-- The segment is queued. -/
theorem ReorderInv.queued (h : ReorderInv s₀ segs done s) (hcut : IsCut s₀.tcb.rcvNxt segs)
    (hwin : (textOf segs).length ≤ s₀.tcb.rcvWnd.toNat)
    (hwrap : s₀.tcb.rcvNxt.toNat + (textOf segs).length < 2 ^ 32) (hseg : seg ∈ segs)
    (hack : seg.th.ackSeq ≤ s.tcb.sndNxt) (hle : s.tcb.rcvNxt ≤ seg.th.seq)
    (hun : s.tcb.sndUna ≤ seg.th.ackSeq) (hrcv : s'.rcv = s.rcv.dataQueue (tcpInitSegment seg))
    (hsnd : s'.snd = s.snd.ack seg.th.ackSeq) : ReorderInv s₀ segs (done ++ [seg]) s' := by
  obtain ⟨g, hg, htaken⟩ := h.taken
  have huna := una_append rfl h.una (SndView.ack_sndUna_le_iff (w := s.snd) hack)
  have hsndUna : s'.tcb.sndUna = (s.snd.ack seg.th.ackSeq).sndUna := congrArg SndView.sndUna hsnd
  have hwnd0 : s.rcv.rcvWnd ≠ 0 := by
    intro h0
    have h0 : s₀.tcb.rcvWnd = 0 := h.wnd.symm.trans h0
    obtain ⟨off, -, hoff, hpos⟩ := hcut.exists_offset hseg
    rw [h0] at hwin
    simp only [UInt32.toNat_zero] at hwin
    omega
  refine ⟨(congrArg RcvView.state hrcv).trans ((state_dataQueue _ _).trans h.state),
    (congrArg RcvView.fec hrcv).trans ((fec_dataQueue _ _).trans h.fec),
    (congrArg RcvView.rcvWnd hrcv).trans ((rcvWnd_dataQueue _ _).trans h.wnd),
    (congrArg SndView.sndNxt hsnd).trans ((SndView.ack_sndNxt _ _).trans h.nxt),
    (congrArg SndView.writeQueue hsnd).trans (SndView.ack_writeQueue h.wq _),
    fun x => hsndUna ▸ huna x, takeAlso g seg, fun x hx => ?_, ?_⟩
  · rw [timely_append_singleton, ← hg x hx]
    simp only [takeAlso, Bool.or_eq_true, beq_iff_eq]
    refine or_congr_right ⟨?_, fun hh => hh.1⟩
    rintro rfl
    exact ⟨rfl, (h.una _).mp hun⟩
  · rw [hrcv]
    exact htaken.dataQueue hcut hwrap hwnd0 hseg hle

/-- The segment fits, and is dropped for its old ACK. -/
theorem ReorderInv.dropped (h : ReorderInv s₀ segs done s) (hack : seg.th.ackSeq ≤ s.tcb.sndNxt)
    (hun : ¬ s.tcb.sndUna ≤ seg.th.ackSeq) (hrcv : s'.rcv = s.rcv)
    (hsnd : s'.snd = s.snd.ack seg.th.ackSeq) : ReorderInv s₀ segs (done ++ [seg]) s' := by
  obtain ⟨g, hg, htaken⟩ := h.taken
  have huna := una_append rfl h.una (SndView.ack_sndUna_le_iff (w := s.snd) hack)
  have hsndUna : s'.tcb.sndUna = (s.snd.ack seg.th.ackSeq).sndUna := congrArg SndView.sndUna hsnd
  refine ⟨(congrArg RcvView.state hrcv).trans h.state, (congrArg RcvView.fec hrcv).trans h.fec,
    (congrArg RcvView.rcvWnd hrcv).trans h.wnd,
    (congrArg SndView.sndNxt hsnd).trans ((SndView.ack_sndNxt _ _).trans h.nxt),
    (congrArg SndView.writeQueue hsnd).trans (SndView.ack_writeQueue h.wq _),
    fun x => hsndUna ▸ huna x, g, fun x hx => ?_, by rwa [hrcv]⟩
  rw [hg x hx, timely_append_singleton]
  refine ⟨.inl, fun hor => hor.resolve_right ?_⟩
  rintro ⟨rfl, hmax⟩
  exact hun ((h.una _).mpr hmax)

/-- The segment was delivered before, and the socket only answers. -/
theorem ReorderInv.again (h : ReorderInv s₀ segs done s) (hcut : IsCut s₀.tcb.rcvNxt segs)
    (hwrap : s₀.tcb.rcvNxt.toNat + (textOf segs).length < 2 ^ 32) (hseg : seg ∈ segs)
    (hle : ¬ s.tcb.rcvNxt ≤ seg.th.seq) (hrcv : s'.rcv = s.rcv) (hsnd : s'.snd = s.snd) :
    ReorderInv s₀ segs (done ++ [seg]) s' := by
  obtain ⟨g, hg, htaken⟩ := h.taken
  have hgseg : g seg := by
    obtain ⟨A, B, rfl, -, hnxt, hA, -⟩ := htaken
    refine hA seg ((List.mem_append.mp hseg).resolve_right fun hmem => hle ?_)
    obtain ⟨off, hoff, hle', -⟩ := (isCut_append.mp hcut).2.exists_offset hmem
    rw [textOf_append, List.length_append] at hwrap
    have hnxt : s.tcb.rcvNxt = _ := hnxt
    rw [hoff, seqAt_seqAt, hnxt, seqAt_le_iff (by omega) (by omega)]
    omega
  have hdone : seg ∈ done := ((hg seg hseg).mp hgseg).mem
  have hsndUna : s'.tcb.sndUna = s.tcb.sndUna := congrArg SndView.sndUna hsnd
  refine ⟨(congrArg RcvView.state hrcv).trans h.state, (congrArg RcvView.fec hrcv).trans h.fec,
    (congrArg RcvView.rcvWnd hrcv).trans h.wnd, (congrArg SndView.sndNxt hsnd).trans h.nxt,
    (congrArg SndView.writeQueue hsnd).trans h.wq, fun x => ?_, g, fun x hx => ?_, by rwa [hrcv]⟩
  · rw [hsndUna, h.una, List.forall_mem_append, List.forall_mem_singleton]
    exact ⟨fun hh => ⟨hh.1, hh.2, hh.2 seg hdone⟩, fun hh => ⟨hh.1, hh.2.1⟩⟩
  · rw [hg x hx, timely_append_singleton]
    refine ⟨.inl, fun hh => hh.elim id ?_⟩
    rintro ⟨rfl, -⟩
    exact (hg x hx).mp hgseg

/-- **One arrival.** -/
theorem ReorderInv.arrive (env : Env) (h : ReorderInv s₀ segs done s) (hcut : IsCut s₀.tcb.rcvNxt segs)
    (hwin : (textOf segs).length ≤ s₀.tcb.rcvWnd.toNat)
    (hwrap : s₀.tcb.rcvNxt.toNat + (textOf segs).length + s₀.tcb.rcvWnd.toNat < 2 ^ 32)
    (hseg : seg ∈ segs) (hack : seg.th.ackSeq ≤ s₀.tcb.sndNxt) :
    ReorderInv s₀ segs (done ++ [seg]) (tcpIn env s seg) := by
  have hplain := hcut.isPlain hseg
  have hverify := h.tcpVerifySegment_iff hcut hwin hwrap hseg
  have hack' : seg.th.ackSeq ≤ s.tcb.sndNxt := by rwa [h.nxt]
  have hrcv := h.rcv_tcpIn env hplain hack' hverify
  have hsnd := h.snd_tcpIn env hplain hverify
  by_cases hle : s.tcb.rcvNxt ≤ seg.th.seq
  · rw [if_pos hle] at hsnd
    by_cases hun : s.tcb.sndUna ≤ seg.th.ackSeq
    · rw [if_pos ⟨hle, hun⟩] at hrcv
      exact h.queued hcut hwin (by omega) hseg hack' hle hun hrcv hsnd
    · rw [if_neg fun hh => hun hh.2] at hrcv
      exact h.dropped hack' hun hrcv hsnd
  · rw [if_neg fun hh => hle hh.1] at hrcv
    rw [if_neg hle] at hsnd
    exact h.again hcut (by omega) hseg hle hrcv hsnd

end Arrive

theorem ReorderInv.run (env : Env) (hcut : IsCut s₀.tcb.rcvNxt segs)
    (hwin : (textOf segs).length ≤ s₀.tcb.rcvWnd.toNat)
    (hwrap : s₀.tcb.rcvNxt.toNat + (textOf segs).length + s₀.tcb.rcvWnd.toNat < 2 ^ 32)
    (hack : ∀ seg ∈ segs, seg.th.ackSeq ≤ s₀.tcb.sndNxt) (arrivals : List Segment)
    (hmem : ∀ seg ∈ arrivals, seg ∈ segs) (h : ReorderInv s₀ segs done s) :
    ReorderInv s₀ segs (done ++ arrivals) (arrivals.foldl (tcpIn env) s) := by
  induction arrivals generalizing done s with
  | nil => rwa [List.append_nil]
  | cons seg arrivals ih =>
    have hseg := hmem seg List.mem_cons_self
    have hstep := h.arrive env hcut hwin hwrap hseg (hack seg hseg)
    have hrest := ih (fun x hx => hmem x (List.mem_cons_of_mem _ hx)) hstep
    rwa [List.append_assoc, List.singleton_append] at hrest

theorem ReorderInv.init (hst : s₀.state = .established) (hfec : s₀.fec = none)
    (hrq : s₀.receiveQueue = []) (hofo : s₀.ofoQueue = []) (hwq : s₀.writeQueue = [])
    (segs : List Segment) : ReorderInv s₀ segs [] s₀ := by
  refine ⟨hst, hfec, rfl, rfl, hwq, fun x => by simp, fun _ => false, fun seg _ => ?_, [], segs,
    rfl, hrq, ?_, by simp, by simp, ?_⟩
  · simp only [Bool.false_eq_true, false_iff]
    exact fun ht => absurd ht.mem (by simp)
  · rw [textOf, List.flatMap_nil, List.length_nil, seqAt_zero]
    rfl
  · simp [takenOf, TcpSock.rcv, hofo]

/-- The stretch has been delivered exactly when every segment of the cut has been taken. -/
theorem ReorderInv.delivered_iff (h : ReorderInv s₀ segs done s) (hcut : IsCut s₀.tcb.rcvNxt segs)
    (hwrap : s₀.tcb.rcvNxt.toNat + (textOf segs).length + s₀.tcb.rcvWnd.toNat < 2 ^ 32) :
    (s.tcb.rcvNxt = seqAt s₀.tcb.rcvNxt (textOf segs).length ∧
      bytesOf s.receiveQueue = textOf segs ∧ s.ofoQueue = []) ↔
    ∀ seg ∈ segs, Timely s₀.tcb.sndUna done seg := by
  obtain ⟨g, hg, A, B, rfl, hrq, hnxt, hA, hB, hofo⟩ := h.taken
  have hnxt : s.tcb.rcvNxt = _ := hnxt
  rw [textOf_append, List.length_append] at hwrap
  constructor
  · rintro ⟨hend, -, -⟩ seg hseg
    rw [hnxt, textOf_append, List.length_append, seqAt_inj (by omega) (by omega)] at hend
    refine (hg seg hseg).mp (hA seg ((List.mem_append.mp hseg).resolve_right fun hmem => ?_))
    obtain ⟨off, -, hle, hpos⟩ := (isCut_append.mp hcut).2.exists_offset hmem
    omega
  · intro hall
    -- the first segment that is not delivered would have been taken
    have hnil : B = [] := by
      cases B with
      | nil => rfl
      | cons b B =>
        have hb : b ∈ A ++ b :: B := by simp
        exact absurd ((hg b hb).mpr (hall b hb)) (hB b rfl)
    subst hnil
    rw [List.append_nil]
    have hrq : s.receiveQueue = _ := hrq
    have hofo : s.ofoQueue = _ := hofo
    exact ⟨hnxt, by rw [hrq, bytesOf_map_tcpInitSegment], hofo⟩

end Run

/-- **When the arrival order does not matter.** From an established socket without FEC and with
empty queues, let the segments of a cut of the window arrive in any order, any number of times.
The stretch is delivered if and only if every segment has an arrival that is not overtaken by a
larger acknowledgement number. -/
theorem delivered_iff_timely (env : Env) (s : TcpSock) (hst : s.state = .established)
    (hfec : s.fec = none) (hrq : s.receiveQueue = []) (hofo : s.ofoQueue = [])
    (hwq : s.writeQueue = []) (segs : List Segment) (hcut : IsCut s.tcb.rcvNxt segs)
    (hwin : (textOf segs).length ≤ s.tcb.rcvWnd.toNat)
    (hwrap : s.tcb.rcvNxt.toNat + (textOf segs).length + s.tcb.rcvWnd.toNat < 2 ^ 32)
    (hack : ∀ seg ∈ segs, s.tcb.iss + 1 ≤ seg.th.ackSeq ∧ seg.th.ackSeq ≤ s.tcb.sndNxt)
    (arrivals : List Segment) (hmem : ∀ seg, seg ∈ arrivals ↔ seg ∈ segs) :
    let final := arrivals.foldl (tcpIn env) s
    (final.tcb.rcvNxt = seqAt s.tcb.rcvNxt (textOf segs).length ∧
      bytesOf final.receiveQueue = textOf segs ∧ final.ofoQueue = []) ↔
    ∀ seg ∈ segs, Timely s.tcb.sndUna arrivals seg := by
  have hinit := ReorderInv.init hst hfec hrq hofo hwq segs
  have hrun := hinit.run env hcut hwin hwrap (fun seg hseg => (hack seg hseg).2) arrivals
    fun seg hseg => (hmem seg).mp hseg
  rw [List.nil_append] at hrun
  exact hrun.delivered_iff hcut hwrap

/-- A socket whose ten bytes of data have been acknowledged, and a segment that the peer sent
before it saw them. -/
def sockAcked : TcpSock :=
  { sockAt200 with tcb := { sockAt200.tcb with sndUna := 111, sndNxt := 111 } }

theorem isCut_segmentAt : IsCut 201 [segmentAt 201 [1, 2]] := by
  simp [IsCut, IsPlain, segmentAt, Tcphdr.zero]

/-- **A segment whose acknowledgement number has been overtaken is lost with its text**: the only
segment of the cut arrives, its acknowledgement number 101 lies between `iss + 1` and `snd_nxt`,
and nothing is delivered. -/
theorem not_delivered_of_overtaken :
    sockAcked.state = .established ∧ sockAcked.fec = none ∧ sockAcked.receiveQueue = [] ∧
      sockAcked.ofoQueue = [] ∧ sockAcked.writeQueue = [] ∧
      IsCut sockAcked.tcb.rcvNxt [segmentAt 201 [1, 2]] ∧
      sockAcked.tcb.iss + 1 ≤ (segmentAt 201 [1, 2]).th.ackSeq ∧
      (segmentAt 201 [1, 2]).th.ackSeq ≤ sockAcked.tcb.sndNxt ∧
      ¬ (([segmentAt 201 [1, 2]].foldl (tcpIn ⟨fun _ => 0, fun _ _ => []⟩) sockAcked).tcb.rcvNxt =
        seqAt sockAcked.tcb.rcvNxt (textOf [segmentAt 201 [1, 2]]).length) :=
  ⟨rfl, rfl, rfl, rfl, rfl, isCut_segmentAt, by decide, by decide, by decide⟩

/-- Two segments in the wrong order, the second one twice, all with the same acknowledgement
number: each has a timely arrival. -/
theorem delivered_iff_timely_swap :
    let arrivals := [segmentAt 203 [3], segmentAt 203 [3], segmentAt 201 [1, 2]]
    let final := arrivals.foldl (tcpIn ⟨fun _ => 0, fun _ _ => []⟩) sockAt200
    (final.tcb.rcvNxt = seqAt 201 3 ∧ bytesOf final.receiveQueue = [1, 2, 3] ∧
      final.ofoQueue = []) ↔
    ∀ seg ∈ [segmentAt 201 [1, 2], segmentAt 203 [3]], Timely 101 arrivals seg := by
  refine delivered_iff_timely _ sockAt200 rfl rfl rfl rfl rfl
    [segmentAt 201 [1, 2], segmentAt 203 [3]] ?_ (by decide) (by decide) ?_ _ ?_
  · simp [IsCut, IsPlain, segmentAt, Tcphdr.zero, sockAt200]
  · decide
  · intro seg
    simp only [List.mem_cons, List.not_mem_nil, or_false]
    tauto

end LvlIp.Tcp
