import LvlIp.Send.Queue

/-!
# Pieces of a written stream

What one side has queued is a list of buffers, and the first `sent` of them have gone out
(`Journal`). A segment that carries one of these buffers at the sequence number of its position is a
piece (`Journal.Piece`), and the sequence numbers between two buffers are cuts (`Journal.Cut`). Both
notions only ever grow (`Journal.Grows`). A receiver that gets pieces alone, in whatever order, always
stands at a cut, and has the bytes before it (`Receives.dataQueue`).
-/

namespace LvlIp.Tcp

open Fec Foundations

/-- What one side of a connection has queued: the first data byte is at `base`, and the first `sent`
buffers have been transmitted. -/
structure Journal where
  base : UInt32
  queue : List SkBuff
  sent : ℕ
  le : sent ≤ queue.length

namespace Journal

/-- The bytes that have been queued. -/
def stream (w : Journal) : List UInt8 := bytesOf w.queue

/-- The stream offset of a position. -/
def off (w : Journal) (j : ℕ) : ℕ := queuedOff w.queue j

/-- No sequence number of the stream wraps. -/
def Short (w : Journal) : Prop := w.base.toNat + w.stream.length < 2 ^ 32

/-- The sequence number stands before a buffer that has been sent, or behind the last of them. -/
def Cut (w : Journal) (seq : UInt32) : Prop := ∃ j ≤ w.sent, seq = seqAt w.base (w.off j)

/-- No bytes, or those of a buffer that has been sent, at its sequence number. -/
def Piece (w : Journal) (seq : UInt32) (bytes : List UInt8) : Prop :=
  bytes = [] ∨ ∃ j < w.sent, ∃ y, w.queue[j]? = some y ∧ bytes = y.payload ∧
    seq = seqAt w.base (w.off j)

/-- More is queued, and more has been sent. -/
structure Grows (w w' : Journal) : Prop where
  base : w'.base = w.base
  queue : w.queue <+: w'.queue
  sent : w.sent ≤ w'.sent

variable {w w' : Journal}

theorem Grows.refl (w : Journal) : Grows w w := ⟨rfl, List.prefix_rfl, le_rfl⟩

theorem Grows.trans {w'' : Journal} (h : Grows w w') (h' : Grows w' w'') : Grows w w'' :=
  ⟨h'.base.trans h.base, h.queue.trans h'.queue, h.sent.trans h'.sent⟩

/-- The positions stay where they are. -/
theorem Grows.off (h : Grows w w') {j : ℕ} (hj : j ≤ w.sent) : w'.off j = w.off j := by
  obtain ⟨more, hmore⟩ := h.queue
  unfold Journal.off
  rw [← hmore]
  exact queuedOff_append (hj.trans w.le) more

theorem Grows.stream (h : Grows w w') : w.stream <+: w'.stream := by
  obtain ⟨more, hmore⟩ := h.queue
  unfold Journal.stream
  rw [← hmore, bytesOf_append]
  exact List.prefix_append _ _

theorem Cut.mono {seq : UInt32} (h : w.Cut seq) (hg : Grows w w') : w'.Cut seq := by
  obtain ⟨j, hj, hseq⟩ := h
  refine ⟨j, hj.trans hg.sent, ?_⟩
  rw [hg.base, hg.off hj, hseq]

theorem Piece.mono {seq : UInt32} {bytes : List UInt8} (h : w.Piece seq bytes) (hg : Grows w w') :
    w'.Piece seq bytes := by
  rcases h with hnil | ⟨j, hj, y, hy, hbytes, hseq⟩
  · exact .inl hnil
  · have hlt : j < w.queue.length := (List.getElem?_eq_some_iff.mp hy).1
    refine .inr ⟨j, hj.trans_le hg.sent, y, ?_, hbytes, ?_⟩
    · obtain ⟨more, hmore⟩ := hg.queue
      rw [← hmore, List.getElem?_append_left hlt]
      exact hy
    · rw [hg.base, hg.off hj.le, hseq]

theorem off_le (w : Journal) (j : ℕ) : w.off j ≤ w.stream.length := queuedOff_le w.queue j

theorem off_mono (w : Journal) {i j : ℕ} (h : i ≤ j) : w.off i ≤ w.off j := queuedOff_mono w.queue h

/-- Positions at one sequence number are at one offset. -/
theorem Short.off_eq (hw : w.Short) {i j : ℕ} (h : seqAt w.base (w.off i) = seqAt w.base (w.off j)) :
    w.off i = w.off j := by
  have hi := w.off_le i
  have hj := w.off_le j
  unfold Short at hw
  exact (seqAt_inj (by omega) (by omega)).mp h

/-- **A piece at a cut leads to a cut**, and brings the bytes in between. -/
theorem Piece.extend (hw : w.Short) {seq : UInt32} {bytes : List UInt8} (h : w.Piece seq bytes)
    {j : ℕ} (hj : j ≤ w.sent) (hseq : seq = seqAt w.base (w.off j)) :
    ∃ j' ≤ w.sent, seq + UInt32.ofNat bytes.length = seqAt w.base (w.off j') ∧
      w.stream.take (w.off j) ++ bytes = w.stream.take (w.off j') := by
  rcases h with rfl | ⟨i, hi, y, hy, rfl, hseq'⟩
  · exact ⟨j, hj, by rw [hseq, seqAt_add]; rfl, List.append_nil _⟩
  · have hoff := hw.off_eq (hseq'.symm.trans hseq)
    have hsucc : w.off (i + 1) = w.off i + y.payload.length := queuedOff_succ hy
    refine ⟨i + 1, hi, ?_, ?_⟩
    · rw [hseq', seqAt_add, hsucc]
    · rw [← hoff, hsucc]
      exact (sliceAt_queued hy).take_append

end Journal

/-! ## The receive side -/

/-- The receiver stands at a cut, with the bytes before it, and holds pieces out of order. -/
structure Receives (w : Journal) (pre : List UInt8) (v : RcvView) : Prop where
  nxt : ∃ j ≤ w.sent, v.rcvNxt = seqAt w.base (w.off j) ∧
    pre ++ bytesOf v.receiveQueue = w.stream.take (w.off j)
  ofo : ∀ skb ∈ v.ofoQueue, w.Piece skb.seq skb.payload

section Receive

variable {w w' : Journal} {pre : List UInt8} {v : RcvView}

theorem Receives.mono (h : Receives w pre v) (hg : w.Grows w') : Receives w' pre v := by
  obtain ⟨j, hj, hnxt, hbytes⟩ := h.nxt
  refine ⟨⟨j, hj.trans hg.sent, ?_, ?_⟩, fun skb hskb => (h.ofo skb hskb).mono hg⟩
  · rw [hg.base, hg.off hj, hnxt]
  · obtain ⟨more, hmore⟩ := hg.stream
    rw [hg.off hj, hbytes, ← hmore, List.take_append_of_le_length (w.off_le j)]

theorem Receives.cut (h : Receives w pre v) : w.Cut v.rcvNxt := by
  obtain ⟨j, hj, hnxt, -⟩ := h.nxt
  exact ⟨j, hj, hnxt⟩

/-- **Draining the out-of-order queue** leads from cut to cut. -/
theorem Journal.consume (hw : w.Short) {ofo : List SkBuff}
    (hofo : ∀ skb ∈ ofo, w.Piece skb.seq skb.payload) {j : ℕ} (hj : j ≤ w.sent) {nxt : UInt32}
    (hnxt : nxt = seqAt w.base (w.off j)) :
    ∃ j' ≤ w.sent, (tcpConsumeLoop nxt ofo).2.2 = seqAt w.base (w.off j') ∧
      w.stream.take (w.off j) ++ bytesOf (tcpConsumeLoop nxt ofo).1 = w.stream.take (w.off j') ∧
      ∀ skb ∈ (tcpConsumeLoop nxt ofo).2.1, skb ∈ ofo := by
  induction ofo generalizing j nxt with
  | nil => exact ⟨j, hj, hnxt, List.append_nil _, fun _ h => h⟩
  | cons skb q ih =>
    obtain ⟨hskb, hq⟩ := List.forall_mem_cons.mp hofo
    rw [tcpConsumeLoop]
    split
    · next hseq =>
      obtain ⟨i, hi, hend, htake⟩ := hskb.extend hw hj (hseq.symm.trans hnxt)
      obtain ⟨j', hj', hnxt', hbytes, hmem⟩ := ih hq hi (hseq ▸ hend)
      refine ⟨j', hj', hnxt', ?_, fun x hx => List.mem_cons_of_mem _ (hmem x hx)⟩
      rw [bytesOf_cons, ← List.append_assoc, htake]
      exact hbytes
    · exact ⟨j, hj, hnxt, List.append_nil _, fun _ h => h⟩

/-- **Queueing a piece** leads from cut to cut. -/
theorem Receives.dataQueue (h : Receives w pre v) (hw : w.Short) {skb : SkBuff}
    (hskb : w.Piece skb.seq skb.payload) : Receives w pre (v.dataQueue skb) := by
  obtain ⟨j, hj, hnxt, hbytes⟩ := h.nxt
  unfold RcvView.dataQueue
  split
  · exact h
  · split
    · next hseq =>
      obtain ⟨i, hi, hend, htake⟩ := hskb.extend hw hj (hseq.trans hnxt)
      rw [hseq] at hend
      obtain ⟨j', hj', hnxt', hbytes', hmem⟩ := Journal.consume hw h.ofo hi hend
      refine ⟨⟨j', hj', hnxt', ?_⟩, fun x hx => h.ofo x (hmem x hx)⟩
      rw [bytesOf_append, bytesOf_cons, ← List.append_assoc, hbytes, ← List.append_assoc, htake]
      exact hbytes'
    · refine ⟨⟨j, hj, hnxt, hbytes⟩, fun x hx => ?_⟩
      rcases mem_tcpDataInsertOrdered hx with rfl | hx
      · exact hskb
      · exact h.ofo x hx

end Receive

end LvlIp.Tcp
