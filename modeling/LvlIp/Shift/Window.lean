import LvlIp.Shift.Arrive

/-!
# The receive sequence space may be moved

Where the peer starts its sequence numbers should not matter. `tcp_verify_segment` compares the
sequence number of a segment with `rcv_nxt` and with `rcv_nxt + rcv_wnd` as unsigned numbers: when
the window wraps, no number lies between the two and every segment is rejected, the one at `rcv_nxt`
included (`tcpVerifySegment_at_nxt_iff`). Two runs whose receive numbers differ by a constant are
the same up to it as long as no segment arrives in a window that wraps in one of them
(`run_shift_rcv`).
-/

namespace LvlIp.Tcp

open Fec Foundations

/-! ## The window -/

section Window

variable {s : TcpSock} {skb : SkBuff} {c : UInt32}

/-- **The sequence check**: the segment lies in the window, and the window does not wrap. -/
theorem tcpVerifySegment_window_iff (s : TcpSock) (skb : SkBuff) :
    tcpVerifySegment s skb ↔ (0 < skb.dlen → s.tcb.rcvWnd ≠ 0) ∧
      s.tcb.rcvNxt.toNat + s.tcb.rcvWnd.toNat < 2 ^ 32 ∧
        skb.th.seq - s.tcb.rcvNxt ≤ s.tcb.rcvWnd := by
  have h1 := skb.th.seq.toNat_lt
  have h2 := s.tcb.rcvNxt.toNat_lt
  have h3 := s.tcb.rcvWnd.toNat_lt
  rw [tcpVerifySegment_iff]
  refine and_congr_right fun _ => ?_
  rw [UInt32.le_iff_toNat_le, UInt32.le_iff_toNat_le, UInt32.le_iff_toNat_le, UInt32.toNat_add,
    UInt32.toNat_sub]
  omega

/-- The window and the segment end before the sequence space does, when it is moved by `c`. -/
structure BelowWrap (c : UInt32) (s : TcpSock) (seg : Segment) : Prop where
  window : (s.tcb.rcvNxt + c).toNat + s.tcb.rcvWnd.toNat < 2 ^ 32
  segment : (seg.th.seq + c).toNat + seg.payload.length < 2 ^ 32

instance (c : UInt32) (s : TcpSock) (seg : Segment) : Decidable (BelowWrap c s seg) :=
  decidable_of_iff ((s.tcb.rcvNxt + c).toNat + s.tcb.rcvWnd.toNat < 2 ^ 32 ∧
      (seg.th.seq + c).toNat + seg.payload.length < 2 ^ 32)
    ⟨fun h => ⟨h.1, h.2⟩, fun h => ⟨h.window, h.segment⟩⟩

/-- A segment that arrives in the window on a synchronized connection stays below the wrap, in both
runs. -/
def AwayFromWrap (c : UInt32) (s : TcpSock) : TcpEvent → Prop
  | .arrive seg => s.state.synchronized → seg.th.seq - s.tcb.rcvNxt ≤ s.tcb.rcvWnd →
      BelowWrap 0 s seg ∧ BelowWrap c s seg
  | _ => True

instance (c : UInt32) (s : TcpSock) : ∀ e, Decidable (AwayFromWrap c s e)
  | .arrive _ => inferInstanceAs (Decidable (s.state.synchronized → _ → _))
  | .connect _ | .write _ | .read _ | .wake _ | .close | .abort | .timer _ | .tick _ =>
    .isTrue trivial

/-- The check comes out the same. -/
theorem verify_shift {seg : Segment} (h : s.state.synchronized)
    (haway : AwayFromWrap c s (.arrive seg)) :
    tcpVerifySegment (s.shift ⟨0, c⟩) ((tcpInitSegment seg).arrived ⟨0, c⟩) =
      tcpVerifySegment s (tcpInitSegment seg) := by
  have hsub : seg.th.seq + c - (s.tcb.rcvNxt + c) = seg.th.seq - s.tcb.rcvNxt :=
    add_sub_add_right_eq_sub _ _ _
  rw [Bool.eq_iff_iff, tcpVerifySegment_window_iff, tcpVerifySegment_window_iff]
  change (0 < seg.payload.length → s.tcb.rcvWnd ≠ 0) ∧
    (s.tcb.rcvNxt + c).toNat + s.tcb.rcvWnd.toNat < 2 ^ 32 ∧
      seg.th.seq + c - (s.tcb.rcvNxt + c) ≤ s.tcb.rcvWnd ↔
    (0 < seg.payload.length → s.tcb.rcvWnd ≠ 0) ∧
      s.tcb.rcvNxt.toNat + s.tcb.rcvWnd.toNat < 2 ^ 32 ∧
        seg.th.seq - s.tcb.rcvNxt ≤ s.tcb.rcvWnd
  rw [hsub]
  refine and_congr_right fun _ => and_congr_left fun hin => ?_
  obtain ⟨h0, hc⟩ := haway h hin
  have hw := h0.window
  rw [UInt32.add_zero] at hw
  exact iff_of_true hc.window hw

end Window

/-! ## The numbers of the queue -/

/-- A waiting buffer, all of whose numbers are moved by `d`. -/
structure OfoKeeps (c : UInt32) (d : ℤ) (y : SkBuff) : Prop where
  noWrap : y.NoWrap
  seq : Keeps c d y.seq
  endSeq : Keeps c d y.endSeq
  marked : Marked c y

/-- `rcv_nxt` and the numbers of the out-of-order queue are moved by the same amount. -/
structure RcvRange (c : UInt32) (d : ℤ) (v : RcvView) : Prop where
  nxt : Keeps c d v.rcvNxt
  ofo : ∀ y ∈ v.ofoQueue, OfoKeeps c d y

/-- The invariant of a run. -/
structure RangeInv (c : UInt32) (s : TcpSock) : Prop where
  early : s.state.early → s.ofoQueue = []
  range : s.state.receives → ∃ d, RcvRange c d s.rcv

section Range

variable {c : UInt32} {d : ℤ} {s : TcpSock} {v : RcvView}

theorem RangeInv.calm {s' : TcpSock} (h : RangeInv c s) (hcalm : Calm s.rcv s'.rcv) :
    RangeInv c s' := by
  refine ⟨fun he => ?_, fun hr => ?_⟩
  · obtain ⟨he', hq⟩ := hcalm.early he
    exact hq.trans (h.early he')
  · obtain ⟨hq, he' | ⟨hr', hnxt⟩⟩ := hcalm.receives hr
    · have hnil : s'.rcv.ofoQueue = [] := hq.trans (h.early he')
      refine ⟨(s'.tcb.rcvNxt + c).toNat - s'.tcb.rcvNxt.toNat, ?_, ?_⟩
      · change ((s'.tcb.rcvNxt + c).toNat : ℤ) = s'.tcb.rcvNxt.toNat + _
        omega
      · rw [hnil]
        exact fun y hy => nomatch hy
    · obtain ⟨d, hnxt', hofo⟩ := h.range hr'
      exact ⟨d, hnxt ▸ hnxt', hq ▸ hofo⟩

/-- The numbers of a segment in the window are moved as `rcv_nxt` is. -/
theorem keeps_of_window {nxt wnd seq : UInt32} (hnxt : Keeps c d nxt) (hin : seq - nxt ≤ wnd)
    (h0 : nxt.toNat + wnd.toNat < 2 ^ 32) (hc : (nxt + c).toNat + wnd.toNat < 2 ^ 32) :
    Keeps c d seq ∧ nxt ≤ seq ∧ nxt + c ≤ seq + c := by
  have h1 := seq.toNat_lt
  have h2 := nxt.toNat_lt
  have hval : seq = nxt + UInt32.ofNat (seq.toNat - nxt.toNat) ∧
      seq.toNat - nxt.toNat ≤ wnd.toNat ∧ nxt.toNat ≤ seq.toNat := by
    rw [UInt32.le_iff_toNat_le, UInt32.toNat_sub] at hin
    rw [← UInt32.toNat_inj, UInt32.toNat_add, UInt32.toNat_ofNat']
    omega
  obtain ⟨hseq, hle, hge⟩ := hval
  have hkeep : Keeps c d seq := by
    rw [hseq]
    exact hnxt.add (by omega) (by omega)
  have hnxtle : nxt ≤ seq := UInt32.le_iff_toNat_le.mpr hge
  exact ⟨hkeep, hnxtle, (hnxt.le_iff hkeep).mpr hnxtle⟩

theorem ne_zero_of_lt {x y : UInt32} (hle : x ≤ y) (hne : y ≠ x) : y ≠ 0 := by
  rintro rfl
  rw [UInt32.le_iff_toNat_le] at hle
  exact hne (UInt32.toNat_inj.mp (Nat.le_zero.mp hle).symm)

/-- The buffer of a segment that is queued out of order. -/
theorem RcvRange.arrive (h : RcvRange c d s.rcv) {seg : Segment}
    (hin : seg.th.seq - s.tcb.rcvNxt ≤ s.tcb.rcvWnd) (h0 : BelowWrap 0 s seg)
    (hc : BelowWrap c s seg) :
    (tcpInitSegment seg).NoWrap ∧ Keeps c d (tcpInitSegment seg).endSeq ∧
      (seg.th.seq ≠ s.tcb.rcvNxt → OfoKeeps c d (tcpInitSegment seg)) := by
  have hw := h0.window
  have hs := h0.segment
  rw [UInt32.add_zero] at hw hs
  obtain ⟨hseq, hle, hle'⟩ := keeps_of_window h.nxt hin hw hc.window
  have hend : Keeps c d (tcpInitSegment seg).endSeq := hseq.add hs hc.segment
  have hwrap : (tcpInitSegment seg).NoWrap := Segment.NoWrap.skb hs
  refine ⟨hwrap, hend, fun hne => ⟨hwrap, hseq, hend, ?_⟩⟩
  have hne' : seg.th.seq + c ≠ s.tcb.rcvNxt + c := fun heq => hne (add_right_cancel heq)
  have hup : (tcpInitSegment seg).seq ≤ (tcpInitSegment seg).endSeq := hwrap.le
  have h1 : seg.th.seq ≠ 0 := ne_zero_of_lt hle hne
  have h2 : seg.th.seq + c ≠ 0 := ne_zero_of_lt hle' hne'
  refine ⟨h1, fun h0 => ?_, h2, fun h0 => ?_⟩
  · rw [h0] at hup
    exact h1 (UInt32.le_zero_iff.mp hup)
  · have hup' := (hseq.le_iff hend).mpr hup
    rw [h0] at hup'
    exact h2 (UInt32.le_zero_iff.mp hup')

theorem keeps_tcpConsumeLoop {n : UInt32} {q : List SkBuff} (hn : Keeps c d n)
    (hq : ∀ y ∈ q, OfoKeeps c d y) : Keeps c d (tcpConsumeLoop n q).2.2 := by
  induction q generalizing n with
  | nil => exact hn
  | cons skb q ih =>
    have hskb := hq skb List.mem_cons_self
    unfold tcpConsumeLoop
    split
    · next heq =>
      refine ih ?_ fun y hy => hq y (List.mem_cons_of_mem _ hy)
      rw [heq, hskb.noWrap.add_dlen]
      exact hskb.endSeq
    · exact hn

/-- **A call of `tcp_data_queue`** keeps the range. -/
theorem RcvRange.dataQueue (h : RcvRange c d v) {skb : SkBuff} (hwrap : skb.NoWrap)
    (hend : Keeps c d skb.endSeq) (hofo : skb.seq ≠ v.rcvNxt → OfoKeeps c d skb) :
    RcvRange c d (v.dataQueue skb) := by
  unfold RcvView.dataQueue
  split
  · exact h
  · split
    · next hseq =>
      have hnxt : Keeps c d (v.rcvNxt + UInt32.ofNat skb.dlen) := by
        rw [← hseq, hwrap.add_dlen]
        exact hend
      exact ⟨keeps_tcpConsumeLoop hnxt h.ofo, fun y hy => h.ofo y (mem_tcpConsumeLoop hy)⟩
    · next hseq =>
      refine ⟨h.nxt, fun y hy => ?_⟩
      rcases mem_tcpDataInsertOrdered hy with rfl | hy
      · exact hofo hseq
      · exact h.ofo y hy

/-- What waits and what arrives compare as they do after the translation. -/
theorem RcvRange.dataOk {s : TcpSock} (h : RcvRange c d s.rcv) {skb : SkBuff}
    (hofo : skb.seq ≠ s.tcb.rcvNxt → OfoKeeps c d skb) : DataOk c s skb := by
  intro _ hne
  have hskb := hofo hne
  refine ⟨hskb.marked, fun y hy => (h.ofo y hy).marked, fun y hy => ?_, fun y hy => ?_⟩
  · exact (hskb.seq.lt_iff (h.ofo y hy).seq).symm
  · exact ((h.ofo y hy).seq.lt_iff hskb.endSeq).symm

end Range

/-! ## Runs -/

/-- An event of the receive path without FEC: the connection has been started. -/
def ReceiveEvent (s : TcpSock) : TcpEvent → Prop
  | .connect _ => False
  | _ => s.fec = none

instance (s : TcpSock) : ∀ e, Decidable (ReceiveEvent s e)
  | .connect _ => .isFalse id
  | .arrive _ | .write _ | .read _ | .wake _ | .close | .abort | .timer _ | .tick _ =>
    inferInstanceAs (Decidable (s.fec = none))

/-- Which of the arriving segments pass the sequence check. -/
def tcpVerdicts (env : Env) : TcpSock → List TcpEvent → List Bool
  | _, [] => []
  | s, .arrive seg :: es =>
    (s.state.synchronized && tcpVerifySegment s (tcpInitSegment seg)) ::
      tcpVerdicts env (tcpStep env s (.arrive seg)) es
  | s, e :: es => tcpVerdicts env (tcpStep env s e) es

section Run

variable {env : Env} {c : UInt32} {s : TcpSock}

/-- The text of a segment, when it is queued. -/
theorem RangeInv.text (h : RangeInv c s) {seg : Segment} (hsync : s.state.synchronized)
    (haway : AwayFromWrap c s (.arrive seg)) (hv : tcpVerifySegment s (tcpInitSegment seg))
    {s₁ : TcpSock} (hsame : SameQueues s.rcv s₁.rcv) (hcalm : Calm s.rcv s₁.rcv)
    (hrec : s₁.state.receives) :
    ∃ d, RcvRange c d s₁.rcv ∧ (tcpInitSegment seg).NoWrap ∧
      Keeps c d (tcpInitSegment seg).endSeq ∧
        (seg.th.seq ≠ s₁.tcb.rcvNxt → OfoKeeps c d (tcpInitSegment seg)) := by
  obtain ⟨-, -, hin⟩ := (tcpVerifySegment_window_iff _ _).mp hv
  obtain ⟨h0, hc⟩ := haway hsync hin
  obtain ⟨d, hd⟩ := (h.calm hcalm).range hrec
  have hnxt : s₁.tcb.rcvNxt = s.tcb.rcvNxt := hsame.rcvNxt
  have hwnd : s₁.tcb.rcvWnd = s.tcb.rcvWnd := hsame.rcvWnd
  have hmove : ∀ c, BelowWrap c s seg → BelowWrap c s₁ seg := by
    intro c hb
    exact ⟨by rw [hnxt, hwnd]; exact hb.window, hb.segment⟩
  have hin₁ : seg.th.seq - s₁.tcb.rcvNxt ≤ s₁.tcb.rcvWnd := by
    rw [hnxt, hwnd]
    exact hin
  exact ⟨d, hd, hd.arrive hin₁ (hmove 0 h0) (hmove c hc)⟩

/-- **An arriving segment** does not notice the translation. -/
theorem RangeInv.rcvOk (h : RangeInv c s) {seg : Segment}
    (haway : AwayFromWrap c s (.arrive seg)) : RcvOk ⟨0, c⟩ s (tcpInitSegment seg) := by
  refine .inr fun hsync => ⟨verify_shift hsync haway, fun hv s₁ hsame hcalm hrec => ?_⟩
  obtain ⟨d, hd, -, -, hofo⟩ := h.text hsync haway hv hsame hcalm hrec
  exact hd.dataOk hofo

/-- **An arriving segment** keeps the range. -/
theorem RangeInv.arrive (h : RangeInv c s) {seg : Segment} (hfec : s.fec = none)
    (haway : AwayFromWrap c s (.arrive seg)) : RangeInv c (tcpIn env s seg) := by
  cases hsync : s.state.synchronized with
  | false => exact h.calm (calm_tcpIn hsync seg)
  | true =>
    rw [tcpIn_plain hfec hsync]
    unfold tcpSegmentArrivesOr
    cases hs₁ : tcpChecks env true s (tcpInitSegment seg) with
    | error s₁ => exact h.calm ((calm_tcpChecks env s _).1 s₁ hs₁)
    | ok s₁ =>
      obtain ⟨hv, hsame⟩ := tcpChecks_ok hs₁
      have hcalm := (calm_tcpChecks env s _).2 s₁ hs₁
      have htext := fun hrec => h.text hsync haway hv hsame hcalm hrec
      have hseq : (tcpInitSegment seg).seq = seg.th.seq := rfl
      rw [← hseq] at htext
      generalize tcpInitSegment seg = skb at htext
      have hend : ∀ s₂ : TcpSock, RangeInv c s₂ → RangeInv c (tcpPending env (tcpFin env s₂ skb.th
          (skb.seq == s₁.tcb.rcvNxt)) skb (skb.seq == s₁.tcb.rcvNxt)) := by
        intro s₂ h₂
        refine h₂.calm ((calm_tcpFin env s₂ skb.th (skb.seq == s₁.tcb.rcvNxt)).trans ?_)
        exact .of_rcv (rcv_tcpPending env _ _ _)
      refine hend _ ?_
      unfold tcpText
      split
      · next hrec =>
        obtain ⟨d, hd, hwrap, hkeep, hofo⟩ := htext hrec.1
        have hrcv := rcv_tcpDataQueue env s₁ skb
        have hst : (tcpDataQueue env s₁ skb).state = s₁.state :=
          (congrArg RcvView.state hrcv).trans (state_dataQueue _ _)
        refine ⟨fun he => ?_, fun _ => ⟨d, ?_⟩⟩
        · rw [hst] at he
          have hrec := hrec.1
          revert he hrec
          cases s₁.state <;> exact nofun
        · rw [hrcv]
          exact hd.dataQueue hwrap hkeep hofo
      · exact h.calm hcalm

theorem RangeInv.step (h : RangeInv c s) {e : TcpEvent} (he : ReceiveEvent s e)
    (haway : AwayFromWrap c s e) : RangeInv c (tcpStep env s e) := by
  cases e with
  | connect iss => cases he
  | arrive seg => exact h.arrive he haway
  | _ => exact h.calm (calm_tcpStep he nofun)

theorem RangeInv.eventOk (h : RangeInv c s) {e : TcpEvent} (he : ReceiveEvent s e)
    (haway : AwayFromWrap c s e) : EventOk env ⟨0, c⟩ s e := by
  cases e with
  | connect iss => cases he
  | arrive seg => exact h.rcvOk haway
  | write buf => exact .inl rfl
  | _ => trivial

theorem fec_of_receiveEvent {e : TcpEvent} (he : ReceiveEvent s e) : s.fec = none := by
  cases e with
  | connect iss => cases he
  | _ => exact he

theorem tcpVerdicts_cons {s' : TcpSock} (hs' : s' = s.shift ⟨0, c⟩) {e : TcpEvent}
    (haway : AwayFromWrap c s e) {es es' : List TcpEvent}
    (h : tcpVerdicts env (tcpStep env s' (e.shift ⟨0, c⟩)) es' =
      tcpVerdicts env (tcpStep env s e) es) :
    tcpVerdicts env s' (e.shift ⟨0, c⟩ :: es') = tcpVerdicts env s (e :: es) := by
  cases e with
  | arrive seg =>
    have hskb : tcpInitSegment (seg.shift ⟨0, c⟩) = (tcpInitSegment seg).arrived ⟨0, c⟩ :=
      tcpInitSegment_shift seg
    have hst : s'.state = s.state := by rw [hs']; rfl
    have hverdict : (s'.state.synchronized &&
        tcpVerifySegment s' (tcpInitSegment (seg.shift ⟨0, c⟩))) =
          (s.state.synchronized && tcpVerifySegment s (tcpInitSegment seg)) := by
      rw [hst]
      cases hsync : s.state.synchronized with
      | false => rfl
      | true => rw [hskb, hs', verify_shift hsync haway]
    change (_ && _) :: _ = (_ && _) :: _
    rw [hverdict]
    exact congrArg _ h
  | _ => exact h

/-- **Two runs** whose receive numbers differ by `c`. -/
theorem Shifted.run {s' : TcpSock} (h : Shifted ⟨0, c⟩ s s') (hinv : RangeInv c s)
    {events : List TcpEvent} (hrun : RunSat env ReceiveEvent s events)
    (haway : RunSat env (AwayFromWrap c) s events) :
    tcpVerdicts env s' (events.map (TcpEvent.shift ⟨0, c⟩)) = tcpVerdicts env s events ∧
      Shifted ⟨0, c⟩ (events.foldl (tcpStep env) s)
        ((events.map (TcpEvent.shift ⟨0, c⟩)).foldl (tcpStep env) s') := by
  induction events generalizing s s' with
  | nil => exact ⟨rfl, h⟩
  | cons e es ih =>
    obtain ⟨he, hes⟩ := hrun
    obtain ⟨hae, haes⟩ := haway
    have hstep : Shifted ⟨0, c⟩ (tcpStep env s e) (tcpStep env s' (e.shift ⟨0, c⟩)) :=
      h.step (.inr (fec_of_receiveEvent he)) (.inl rfl) (hinv.eventOk he hae)
    obtain ⟨hv, hend⟩ := ih hstep (hinv.step he hae) hes haes
    exact ⟨tcpVerdicts_cons h.eq hae hv, hend⟩

end Run

/-- **Moving the receive sequence space.** Take a run without FEC of a socket on which nothing waits
out of order, in which no segment arrives in the window while the window or the segment reaches the
end of the sequence space, as it is or moved by `c`. Then the run in which all numbers of the peer
are moved by `c` accepts and rejects the same segments, and ends in the same socket moved by `c`:
the same bytes, the same acknowledgements and SACK blocks but for `c`. A segment at `rcv_nxt` is
accepted exactly when the window does not wrap. -/
theorem run_shift_rcv (env : Env) (c : UInt32) (s : TcpSock) (hofo : s.ofoQueue = [])
    (hrest : AtRest s) (events : List TcpEvent) (hrun : RunSat env ReceiveEvent s events)
    (haway : RunSat env (AwayFromWrap c) s events) :
    tcpVerdicts env (s.shift ⟨0, c⟩) (events.map (TcpEvent.shift ⟨0, c⟩)) =
        tcpVerdicts env s events ∧
      (events.map (TcpEvent.shift ⟨0, c⟩)).foldl (tcpStep env) (s.shift ⟨0, c⟩) =
        (events.foldl (tcpStep env) s).shift ⟨0, c⟩ ∧
      ∀ (s₁ : TcpSock) (seg : Segment), seg.th.seq = s₁.tcb.rcvNxt → 0 < s₁.tcb.rcvWnd →
        (tcpVerifySegment s₁ (tcpInitSegment seg) ↔
          s₁.tcb.rcvNxt.toNat + s₁.tcb.rcvWnd.toNat < 2 ^ 32) := by
  have hinv : RangeInv c s := by
    refine ⟨fun _ => hofo, fun _ => ⟨(s.tcb.rcvNxt + c).toNat - s.tcb.rcvNxt.toNat, ?_, ?_⟩⟩
    · change ((s.tcb.rcvNxt + c).toNat : ℤ) = s.tcb.rcvNxt.toNat + _
      omega
    · change ∀ y ∈ s.ofoQueue, _
      rw [hofo]
      exact fun y hy => nomatch hy
  have hshift : Shifted ⟨0, c⟩ s (s.shift ⟨0, c⟩) := ⟨rfl, .inr hrest⟩
  obtain ⟨hv, hend⟩ := hshift.run hinv hrun haway
  refine ⟨hv, hend.eq, fun s₁ seg hseq hwnd => ?_⟩
  have hsub : seg.th.seq - s₁.tcb.rcvNxt ≤ s₁.tcb.rcvWnd := by
    rw [hseq, sub_self]
    exact UInt32.le_of_lt hwnd
  rw [tcpVerifySegment_window_iff]
  refine ⟨fun h => h.2.1, fun h => ⟨fun _ h0 => ?_, h, hsub⟩⟩
  rw [h0] at hwnd
  exact UInt32.lt_irrefl _ hwnd

/-- The socket that has sent its SYN, and the events that connect it to a peer with initial sequence
number `isn` and bring a byte. -/
def greeted (isn : UInt32) : List TcpEvent :=
  [.arrive ⟨{ Tcphdr.zero with
      seq := isn, ackSeq := 101, hl := 5, syn := true, ack := true }, []⟩,
    .arrive (segmentAt (isn + 1) [7])]

/-- A peer that starts at 200, and one that starts at 1000. -/
theorem run_shift_rcv_small :
    let s := inetStreamConnect quietLink tcpAllocSock 100
    tcpVerdicts quietLink (s.shift ⟨0, 800⟩) ((greeted 200).map (TcpEvent.shift ⟨0, 800⟩)) =
      tcpVerdicts quietLink s (greeted 200) :=
  (run_shift_rcv quietLink 800 (inetStreamConnect quietLink tcpAllocSock 100) rfl
    ⟨rfl, rfl, by decide⟩ (greeted 200) (by decide +kernel) (by decide +kernel)).1

/-- The byte of a peer that starts right before the wrap is rejected. -/
theorem not_run_shift_rcv_wrap :
    let s := inetStreamConnect quietLink tcpAllocSock 100
    RunSat quietLink ReceiveEvent s (greeted 200) ∧
      tcpVerdicts quietLink s (greeted 200) = [false, true] ∧
      tcpVerdicts quietLink (s.shift ⟨0, 4294967094⟩)
        ((greeted 200).map (TcpEvent.shift ⟨0, 4294967094⟩)) = [false, false] := by
  decide +kernel

end LvlIp.Tcp
