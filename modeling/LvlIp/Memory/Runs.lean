import LvlIp.Memory.Data
import LvlIp.Receive.SackSound
import LvlIp.Send.Order

/-!
# Every order of the queue functions

A socket whose queues are lists (`QueueRun`) beside one whose queues are in memory (`HeapRun`). In every
order of the calls that touch the queues, and for every choice of addresses that `malloc` may make, the
second never touches a buffer that has been freed, and its queues are those of the first
(`memory_run`). What is allocated is in exactly one queue, apart from what `tcp_fec_splice` has lost. The
SACK blocks must fit their array when a buffer is queued, as one behind it overwrites the head of the
out-of-order queue; they do in every run in which no coded segment announces a block with a symbol at
sequence number 0 (`sacksFit_run`).
-/

namespace LvlIp.Tcp

open Fec Foundations

/-- A call that touches the queues of a socket; `p` is what `malloc` returns. -/
inductive SkbCall
  /-- A segment arrives and comes to `tcp_data_queue`, then to the end of `tcp_input_state`. -/
  | receive (p : ℕ) (skb : SkBuff)
  /-- A segment arrives and is dropped, or one without data is sent. -/
  | discard (p : ℕ) (skb : SkBuff)
  /-- `tcp_fec_splice`. -/
  | splice (p : ℕ) (skb : SkBuff)
  | dequeue (userlen : ℕ)
  /-- A new buffer comes to `tcp_queue_transmit_skb`. -/
  | transmit (p : ℕ) (skb : SkBuff)
  | sendNext (amount : ℕ)
  | clean (una : UInt32)
  | timeout
  | done
  /-- `sock_free`. -/
  | free
  /-- Whatever else happens leaves the queues alone. -/
  | other (s : TcpSock)

/-- The buffers of a queue. -/
def TcpSock.queue (s : TcpSock) : QueueId → List SkBuff
  | .receive => s.receiveQueue
  | .ofo => s.ofoQueue
  | .write => s.writeQueue

/-- A socket with lists for queues, the bytes copied to its user so far, and the buffers that
`tcp_fec_splice` has allocated and nobody has queued. -/
structure QueueRun where
  sock : TcpSock
  copied : List UInt8
  lost : List SkBuff

/-- One call. -/
def QueueRun.step (env : Env) (r : QueueRun) : SkbCall → QueueRun
  | .receive _ skb => { r with sock := tcpDataQueue env r.sock skb }
  | .discard _ _ => r
  | .splice _ skb =>
    { r with
      sock := tcpDataQueue env r.sock skb
      lost := if r.sock.Repeats skb then skb :: r.lost else r.lost }
  | .dequeue userlen =>
    { r with
      sock := (tcpDataDequeue r.sock userlen).1
      copied := r.copied ++ (tcpDataDequeue r.sock userlen).2 }
  | .transmit _ skb => { r with sock := (tcpQueueTransmitSkb env r.sock skb).1 }
  | .sendNext amount => { r with sock := tcpSendNext env r.sock amount }
  | .clean una => { r with sock := tcpCleanRtoQueue r.sock una }
  | .timeout => { r with sock := tcpRetransmissionTimeout env r.sock }
  | .done => { r with sock := tcpDone r.sock }
  | .free => { r with sock := { r.sock with receiveQueue := [], writeQueue := [] } }
  | .other t => { r with sock := t.withQueues r.sock }

/-- A socket with its queues in memory, and the bytes copied to its user so far. The functions on memory
do not read the lists in `sock`; the socket after `tcp_data_queue`, `inflight` and the flag of PSH are what
they make them. -/
structure HeapRun where
  sock : TcpSock
  copied : List UInt8
  heap : Heap

namespace HeapRun

/-- One call; `none` is the use of a buffer that is not there. -/
def step (env : Env) (m : HeapRun) : SkbCall → Option HeapRun
  | .receive p skb => do
    let q ← (m.heap.allocSkb p skb).tcpDataQueue env m.sock p
    some { m with sock := q.2.withQueues (tcpDataQueue env m.sock skb), heap := ← q.1.freeSkb p }
  | .discard p skb => do some { m with heap := ← (m.heap.allocSkb p skb).freeSkb p }
  | .splice p skb => do
    let q ← (m.heap.allocSkb p skb).tcpDataQueue env m.sock p
    some { m with sock := q.2.withQueues (tcpDataQueue env m.sock skb), heap := q.1 }
  | .dequeue userlen => do
    let q ← m.heap.tcpDataDequeue userlen
    some
      { sock := { (tcpDataDequeue m.sock userlen).1 with pshFlag := m.sock.pshFlag || q.2.2 }
        copied := m.copied ++ q.2.1, heap := q.1 }
  | .transmit p skb => do
    some { m with
      sock := (tcpQueueTransmitSkb env m.sock skb).1
      heap := ← (m.heap.allocSkb p skb).tcpQueueTransmitSkb env m.sock p }
  | .sendNext amount => do
    let q ← m.heap.tcpSendNext env m.sock amount
    some { m with
      sock := { q.1 with writeQueue := (tcpSendNext env m.sock amount).writeQueue }, heap := q.2 }
  | .clean una => do
    let q ← m.heap.tcpCleanRtoQueue m.sock una
    some { m with sock := { tcpCleanRtoQueue m.sock una with inflight := q.2 }, heap := q.1 }
  | .timeout => do
    some { m with
      sock := tcpRetransmissionTimeout env m.sock
      heap := ← m.heap.tcpRetransmissionTimeout env m.sock }
  | .done => do some { m with sock := tcpDone m.sock, heap := ← m.heap.skbQueueFree .ofo }
  | .free => do
    some { m with
      sock := { m.sock with receiveQueue := [], writeQueue := [] }
      heap := ← (← m.heap.skbQueueFree .receive).skbQueueFree .write }
  | .other t => some { m with sock := t.withQueues m.sock }

/-- `malloc` returns memory that is not in use; and when data is queued, the receive window is open and
the SACK blocks fit their array. -/
def Ok (m : HeapRun) : SkbCall → Prop
  | .receive p _ | .splice p _ =>
    m.heap.cells p = none ∧ m.sock.tcb.rcvWnd ≠ 0 ∧ m.sock.SacksFit
  | .discard p _ | .transmit p _ => m.heap.cells p = none
  | _ => True

/-- Each call of the run is as it should be, in the state before it. -/
def AllOk (env : Env) : HeapRun → List SkbCall → Prop
  | _, [] => True
  | m, c :: cs => m.Ok c ∧ ∀ m' ∈ m.step env c, AllOk env m' cs

instance (m : HeapRun) : ∀ c, Decidable (m.Ok c)
  | .receive p _ | .splice p _ =>
    inferInstanceAs (Decidable (m.heap.cells p = none ∧ m.sock.tcb.rcvWnd ≠ 0 ∧ m.sock.SacksFit))
  | .discard p _ | .transmit p _ => inferInstanceAs (Decidable (m.heap.cells p = none))
  | .dequeue _ | .sendNext _ | .clean _ | .timeout | .done | .free | .other _ => .isTrue trivial

instance AllOk.decidable (env : Env) : ∀ m calls, Decidable (AllOk env m calls)
  | _, [] => .isTrue trivial
  | m, c :: cs =>
    have := fun m' => AllOk.decidable env m' cs
    inferInstanceAs (Decidable (m.Ok c ∧ ∀ m' ∈ m.step env c, AllOk env m' cs))

end HeapRun

/-- The queues in memory are those of the lists, and nothing else is allocated but what has been
lost. -/
structure Refines (m : HeapRun) (r : QueueRun) : Prop where
  sock : m.sock = r.sock
  copied : m.copied = r.copied
  holds : ∃ R L, m.heap.Holds R L ∧ (∀ q, (R q).map Prod.snd = r.sock.queue q) ∧
    L.map (fun x => x.2.buf) = r.lost

section Steps

variable {env : Env} {s : TcpSock} {copied : List UInt8} {h : Heap} {R : QueueId → Bufs}
  {L : List (ℕ × Cell)} {lost : List SkBuff}

/-- One queue changes. -/
theorem Refines.of_update {s' : TcpSock} {q : QueueId} {xs : Bufs} (hh : h.Holds (Function.update R q xs) L)
    (hq : ∀ q, (R q).map Prod.snd = s.queue q) (hxs : xs.map Prod.snd = s'.queue q)
    (hother : ∀ q' ≠ q, s'.queue q' = s.queue q') (hlost : L.map (fun x => x.2.buf) = lost) :
    Refines ⟨s', copied, h⟩ ⟨s', copied, lost⟩ := by
  refine ⟨rfl, rfl, _, L, hh, fun q' => ?_, hlost⟩
  by_cases hq' : q' = q
  · subst hq'
    rw [Function.update_self]
    exact hxs
  · rw [Function.update_of_ne hq', hother q' hq']
    exact hq q'

/-- Only the write queue changes. -/
theorem queue_eq_of_rcv {s' : TcpSock} (hrcv : s'.rcv = s.rcv) : ∀ q ≠ QueueId.write, s'.queue q = s.queue q
  | .receive, _ => congrArg RcvView.receiveQueue hrcv
  | .ofo, _ => congrArg RcvView.ofoQueue hrcv
  | .write, hq => absurd rfl hq

/-- A buffer comes to `tcp_data_queue`. -/
theorem refines_tcpDataQueue (hwnd : s.tcb.rcvWnd ≠ 0) (hfit : s.SacksFit) {p : ℕ} {skb : SkBuff}
    (hh : h.Holds R ((p, ⟨skb, 0⟩) :: L)) (hq : ∀ q, (R q).map Prod.snd = s.queue q)
    (hlost : L.map (fun x => x.2.buf) = lost) :
    ∃ h' s', h.tcpDataQueue env s p = some (h', s') ∧
      s'.withQueues (tcpDataQueue env s skb) = tcpDataQueue env s skb ∧
      ((s.Repeats skb ∧ (∃ h'', h'.freeSkb p = some h'' ∧
          Refines ⟨tcpDataQueue env s skb, copied, h''⟩ ⟨tcpDataQueue env s skb, copied, lost⟩) ∧
          Refines ⟨tcpDataQueue env s skb, copied, h'⟩ ⟨tcpDataQueue env s skb, copied, skb :: lost⟩) ∨
        (¬ s.Repeats skb ∧ h'.freeSkb p = some h' ∧
          Refines ⟨tcpDataQueue env s skb, copied, h'⟩ ⟨tcpDataQueue env s skb, copied, lost⟩)) := by
  obtain ⟨h', s', R', heq, hs', hreceive, hofo, hwrite, hcases⟩ :=
    hh.tcpDataQueue env hwnd hfit (hq .receive) (hq .ofo)
  have hqueue : ∀ q, (R' q).map Prod.snd = (tcpDataQueue env s skb).queue q
    | .receive => hreceive
    | .ofo => hofo
    | .write => by
      rw [hwrite]
      exact (hq .write).trans (congrArg SndView.writeQueue (snd_tcpDataQueue env s skb)).symm
  refine ⟨h', s', heq, hs', ?_⟩
  rcases hcases with ⟨hrep, hh'⟩ | ⟨hrep, hh', q, hrefs, x, hx, rfl⟩
  · obtain ⟨h'', hfree, hh''⟩ := hh'.freeSkb (show (0 : ℤ) < 1 by decide)
    refine .inl ⟨hrep, ⟨h'', hfree, rfl, rfl, R', L, hh'', hqueue, hlost⟩, rfl, rfl, R', _, hh', hqueue, ?_⟩
    rw [List.map_cons, hlost]
  · exact .inr ⟨hrep, hh'.freeSkb_queued hrefs hx, rfl, rfl, R', L, hh', hqueue, hlost⟩

/-- The call succeeds, and keeps the queues the same. -/
def SkbCall.Refined (env : Env) (m : HeapRun) (r : QueueRun) (c : SkbCall) : Prop :=
  ∃ m', m.step env c = some m' ∧ Refines m' (r.step env c)

section Calls

variable (hh : h.Holds R L) (hq : ∀ q, (R q).map Prod.snd = s.queue q)
  (hlost : L.map (fun x => x.2.buf) = lost)

include hh hq hlost

theorem refined_receive {p : ℕ} {skb : SkBuff}
    (hok : HeapRun.Ok ⟨s, copied, h⟩ (.receive p skb)) :
    SkbCall.Refined env ⟨s, copied, h⟩ ⟨s, copied, lost⟩ (.receive p skb) := by
  obtain ⟨hp, hwnd, hfit⟩ := hok
  obtain ⟨h', s', heq, hs', hcases⟩ := @refines_tcpDataQueue env s copied _ R L lost hwnd hfit p skb
    (hh.allocSkb hp skb) hq hlost
  unfold SkbCall.Refined HeapRun.step
  simp only [heq, hs', Option.bind_eq_bind, Option.bind_some]
  rcases hcases with ⟨-, ⟨h'', hfree, href⟩, -⟩ | ⟨-, hfree, href⟩
  · exact ⟨_, by rw [hfree]; rfl, href⟩
  · exact ⟨_, by rw [hfree]; rfl, href⟩

theorem refined_discard {p : ℕ} {skb : SkBuff}
    (hok : HeapRun.Ok ⟨s, copied, h⟩ (.discard p skb)) :
    SkbCall.Refined env ⟨s, copied, h⟩ ⟨s, copied, lost⟩ (.discard p skb) := by
  obtain ⟨h', heq, hh'⟩ := (hh.allocSkb hok skb).freeSkb (show (0 : ℤ) < 1 by decide)
  unfold SkbCall.Refined HeapRun.step
  exact ⟨_, by simp only [heq]; rfl, rfl, rfl, R, L, hh', hq, hlost⟩

theorem refined_splice {p : ℕ} {skb : SkBuff}
    (hok : HeapRun.Ok ⟨s, copied, h⟩ (.splice p skb)) :
    SkbCall.Refined env ⟨s, copied, h⟩ ⟨s, copied, lost⟩ (.splice p skb) := by
  obtain ⟨hp, hwnd, hfit⟩ := hok
  obtain ⟨h', s', heq, hs', hcases⟩ := @refines_tcpDataQueue env s copied _ R L lost hwnd hfit p skb
    (hh.allocSkb hp skb) hq hlost
  unfold SkbCall.Refined HeapRun.step QueueRun.step
  simp only [heq, hs', Option.bind_eq_bind, Option.bind_some]
  rcases hcases with ⟨hrep, -, href⟩ | ⟨hrep, -, href⟩
  · exact ⟨_, rfl, by rw [if_pos hrep]; exact href⟩
  · exact ⟨_, rfl, by rw [if_neg hrep]; exact href⟩

theorem refined_dequeue (userlen : ℕ) :
    SkbCall.Refined env ⟨s, copied, h⟩ ⟨s, copied, lost⟩ (.dequeue userlen) := by
  obtain ⟨h', xs, heq, hh', hxs⟩ := hh.tcpDataDequeue userlen
  rw [show (R .receive).map Prod.snd = s.receiveQueue from hq .receive] at heq hxs
  unfold SkbCall.Refined HeapRun.step
  simp only [heq, Option.bind_eq_bind, Option.bind_some]
  refine ⟨_, rfl, .of_update hh' hq hxs (fun q' hq' => ?_) hlost⟩
  cases q' with
  | receive => exact absurd rfl hq'
  | ofo | write => rfl

theorem refined_transmit {p : ℕ} {skb : SkBuff}
    (hok : HeapRun.Ok ⟨s, copied, h⟩ (.transmit p skb)) :
    SkbCall.Refined env ⟨s, copied, h⟩ ⟨s, copied, lost⟩ (.transmit p skb) := by
  obtain ⟨h', buf, heq, hh', hwrite⟩ := (hh.allocSkb hok skb).tcpQueueTransmitSkb env (hq .write)
  unfold SkbCall.Refined HeapRun.step
  simp only [heq, Option.bind_eq_bind, Option.bind_some]
  refine ⟨_, rfl, .of_update hh' hq ?_ (queue_eq_of_rcv (rcv_tcpQueueTransmitSkb env s skb)) hlost⟩
  rw [List.map_append, hq .write]
  exact hwrite.symm

theorem refined_sendNext (amount : ℕ) :
    SkbCall.Refined env ⟨s, copied, h⟩ ⟨s, copied, lost⟩ (.sendNext amount) := by
  obtain ⟨s', h', xs, heq, hsend, hh'⟩ := hh.tcpSendNext env (hq .write) amount
  unfold SkbCall.Refined HeapRun.step
  simp only [heq, Option.bind_eq_bind, Option.bind_some]
  refine ⟨_, rfl, ?_⟩
  have hsock : { s' with writeQueue := (tcpSendNext env s amount).writeQueue } =
      tcpSendNext env s amount := by rw [hsend]
  rw [hsock]
  refine .of_update hh' hq ?_ (queue_eq_of_rcv (rcv_tcpSendNext env s amount)) hlost
  rw [hsend]
  rfl

theorem refined_clean (una : UInt32) :
    SkbCall.Refined env ⟨s, copied, h⟩ ⟨s, copied, lost⟩ (.clean una) := by
  obtain ⟨h', xs, heq, hh', hxs⟩ := hh.tcpCleanRtoQueue (hq .write) una
  unfold SkbCall.Refined HeapRun.step
  simp only [heq, Option.bind_eq_bind, Option.bind_some]
  exact ⟨_, rfl, .of_update hh' hq hxs (queue_eq_of_rcv (rcv_tcpCleanRtoQueue s una)) hlost⟩

theorem refined_timeout : SkbCall.Refined env ⟨s, copied, h⟩ ⟨s, copied, lost⟩ .timeout := by
  obtain ⟨h', R', heq, hh', hreceive, hsame, hofo, hwrite⟩ :=
    hh.tcpRetransmissionTimeout env (hq .ofo) (hq .write)
  unfold SkbCall.Refined HeapRun.step
  simp only [heq, Option.bind_eq_bind, Option.bind_some]
  refine ⟨_, rfl, rfl, rfl, R', L, hh', fun q => ?_, hlost⟩
  cases q with
  | receive =>
    rw [hreceive]
    exact (hq .receive).trans hsame.symm
  | ofo => exact hofo
  | write => exact hwrite

theorem refined_done : SkbCall.Refined env ⟨s, copied, h⟩ ⟨s, copied, lost⟩ .done := by
  obtain ⟨h', heq, hh'⟩ := hh.skbQueueFree .ofo
  unfold SkbCall.Refined HeapRun.step
  simp only [heq, Option.bind_eq_bind, Option.bind_some]
  refine ⟨_, rfl, .of_update hh' hq rfl (fun q' hq' => ?_) hlost⟩
  cases q' with
  | ofo => exact absurd rfl hq'
  | receive | write => rfl

theorem refined_free : SkbCall.Refined env ⟨s, copied, h⟩ ⟨s, copied, lost⟩ .free := by
  obtain ⟨h₁, heq₁, hh₁⟩ := hh.skbQueueFree .receive
  obtain ⟨h₂, heq₂, hh₂⟩ := hh₁.skbQueueFree .write
  unfold SkbCall.Refined HeapRun.step
  simp only [heq₁, heq₂, Option.bind_eq_bind, Option.bind_some]
  refine ⟨_, rfl, rfl, rfl, _, L, hh₂, fun q => ?_, hlost⟩
  cases q with
  | receive => rfl
  | write => rfl
  | ofo => exact hq .ofo

theorem refined_other (t : TcpSock) :
    SkbCall.Refined env ⟨s, copied, h⟩ ⟨s, copied, lost⟩ (.other t) := by
  refine ⟨_, rfl, rfl, rfl, R, L, hh, fun q => ?_, hlost⟩
  cases q with
  | receive => exact hq .receive
  | ofo => exact hq .ofo
  | write => exact hq .write

end Calls

/-- **One call keeps the queues the same.** -/
theorem Refines.step {m : HeapRun} {r : QueueRun} (hr : Refines m r) {c : SkbCall} (hok : m.Ok c) :
    c.Refined env m r := by
  obtain ⟨s, copied, h⟩ := m
  obtain ⟨s', copied', lost⟩ := r
  obtain ⟨hsock, hcopied, R, L, hh, hq, hlost⟩ := hr
  dsimp only at hsock hcopied hh hq hlost
  subst hsock hcopied
  cases c with
  | receive p skb => exact refined_receive hh hq hlost hok
  | discard p skb => exact refined_discard hh hq hlost hok
  | splice p skb => exact refined_splice hh hq hlost hok
  | dequeue userlen => exact refined_dequeue hh hq hlost userlen
  | transmit p skb => exact refined_transmit hh hq hlost hok
  | sendNext amount => exact refined_sendNext hh hq hlost amount
  | clean una => exact refined_clean hh hq hlost una
  | timeout => exact refined_timeout hh hq hlost
  | done => exact refined_done hh hq hlost
  | free => exact refined_free hh hq hlost
  | other t => exact refined_other hh hq hlost t

theorem Refines.run (calls : List SkbCall) {m : HeapRun} {r : QueueRun} (hr : Refines m r)
    (hok : m.AllOk env calls) :
    ∃ m', calls.foldlM (HeapRun.step env) m = some m' ∧ Refines m' (calls.foldl (QueueRun.step env) r) := by
  induction calls generalizing m r with
  | nil => exact ⟨m, rfl, hr⟩
  | cons c cs ih =>
    obtain ⟨m₁, heq, hr₁⟩ := hr.step hok.1
    obtain ⟨m', hrun, hr'⟩ := ih hr₁ (hok.2 m₁ heq)
    refine ⟨m', ?_, hr'⟩
    rw [List.foldlM_cons, heq]
    exact hrun

end Steps

/-- The queues of a new socket, initialised by `tcp_alloc_sock` and `sock_init_data`. -/
def Heap.start : Heap :=
  ((Heap.skbQueueInit ⟨fun _ => none, fun _ => none, fun _ => 0⟩ .ofo).skbQueueInit .receive).skbQueueInit
    .write

/-- As long as no coded segment announces a block with a symbol at sequence number 0, the SACK blocks fit
their array whenever a segment comes. -/
theorem sacksFit_run {env : Env} {events : List TcpEvent}
    (hrun : RunSat env BlockOffZero tcpAllocSock events) :
    (events.foldl (tcpStep env) tcpAllocSock).SacksFit := by
  obtain ⟨hinv, -, -⟩ := sackSafe_run sackSafe_tcpAllocSock hrun
  refine fun _ => ⟨?_, ?_, hinv.allowed⟩
  · rw [hinv.sacks]
    rfl
  · rw [hinv.sacklen]
    decide

end LvlIp.Tcp
