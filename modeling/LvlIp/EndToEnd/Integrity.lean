import LvlIp.EndToEnd.Host

/-!
# A connection from end to end

Two established sockets without FEC, their users, and a network that loses, repeats, delays and
reorders segments but makes up none (`Hosts.Sat`). Whatever one user has been given is a prefix of what
the other has written, and neither socket acknowledges what the other has not sent (`endToEnd_run`).

The handler of a timer may get the lock of its socket late. Only `tcp_retransmission_timeout` must not
come when its timer has been stopped with something still in the write queue: `tcp_send_reset` has set
`snd_una` to `snd_nxt` then, and the old head would go out as new bytes.
-/

namespace LvlIp.Tcp

open Fec Foundations

/-- The two ends of a connection. -/
abbrev Hosts := Bool → Host

namespace Hosts

/-- Something happens to one of the hosts. -/
def step (env : Bool → Env) (p : Hosts) (e : Bool × ThreadEvent) : Hosts :=
  Function.update p e.1 ((p e.1).threadStep (env e.1) e.2)

/-- A run of the two hosts. -/
def run (env : Bool → Env) (p : Hosts) (events : List (Bool × ThreadEvent)) : Hosts :=
  events.foldl (step env) p

/-- What arrives at one host has been sent by the other. -/
def Delivered (p : Hosts) (x : Bool) : ThreadEvent → Prop
  | .event (.arrive seg) => ∃ t ∈ (p !x).sock.out, t.seg = seg
  | _ => True

/-- Every arrival is one of a segment that has been sent, and every other event finds its host
ready, or is on time. -/
def Sat (env : Bool → Env) : Hosts → List (Bool × ThreadEvent) → Prop
  | _, [] => True
  | p, e :: es => p.Delivered e.1 e.2 ∧ (p e.1).OnTime e.2 ∧ Sat env (p.step env e) es

instance (p : Hosts) (x : Bool) : ∀ e, Decidable (p.Delivered x e)
  | .event (.arrive seg) => inferInstanceAs (Decidable (∃ t ∈ (p !x).sock.out, t.seg = seg))
  | .event (.connect _) | .event (.write _) | .event (.read _) | .event (.wake _) | .event .close
  | .event .abort | .event (.timer _) | .event (.tick _) | .late _ => .isTrue trivial

instance Sat.decidable (env : Bool → Env) : ∀ p events, Decidable (Sat env p events)
  | _, [] => .isTrue trivial
  | p, e :: es =>
    have := Sat.decidable env (p.step env e) es
    inferInstanceAs (Decidable (p.Delivered e.1 e.2 ∧ (p e.1).OnTime e.2 ∧ Sat env (p.step env e) es))

end Hosts

/-- One end of a connection whose handshake is over and has not agreed to FEC: nothing has been written,
sent or received. -/
structure Host.Fresh (h : Host) : Prop extends FreshSender h.sock where
  fec : h.sock.fec = none
  mss : h.sock.smss ≠ 0
  retransmit : h.sock.retransmit = none
  side : h.sock.NoSideRto
  receiveQueue : h.sock.receiveQueue = []
  ofoQueue : h.sock.ofoQueue = []
  written : h.written = []
  returned : h.returned = []
  reader : h.reader = none

/-- Both ends are fresh and without FEC, and agree on the initial sequence numbers. -/
structure Hosts.Fresh (p : Hosts) : Prop where
  fresh : ∀ x, (p x).Fresh
  rcvNxt : ∀ x, (p x).sock.tcb.rcvNxt = (p !x).sock.tcb.iss + 1

/-- The two streams, one for what each host writes. -/
def HostsInv (base : Bool → UInt32) (p : Hosts) : Prop :=
  ∃ w : Bool → Journal, ∀ x, (w x).base = base x ∧ HostInv (w x) (w !x) (p x)

/-! ## The start -/

/-- Nothing has been queued yet. -/
def Journal.start (base : UInt32) : Journal := ⟨base, [], 0, Nat.zero_le _⟩

theorem Host.Fresh.flow {h : Host} (hf : h.Fresh) : Flow (.start (h.sock.tcb.iss + 1)) h.sock.txv := by
  obtain ⟨a, b, hq, -, -⟩ := hf.sendInv fun _ => True
  have hqueued : h.sock.txv.snd.queued = [] := hf.queued
  have hb : b = 0 := by
    have hle := hq.le_length
    rw [hqueued] at hle
    exact Nat.le_zero.mp hle
  subst hb
  have ha : a = 0 := Nat.le_zero.mp hq.le
  subst ha
  refine ⟨hqueued, ⟨0, hq, hf.sndUna.trans (seqAt_zero _).symm⟩, ⟨?_, ?_⟩, List.forall_mem_nil _,
    fun hne => absurd rfl hne, fun harmed => ?_⟩
  · intro t ht
    rw [show h.sock.txv.out = [] from hf.out] at ht
    cases ht
  · exact fun j hj => absurd hj (Nat.not_lt_zero j)
  · change h.sock.retransmit.isSome at harmed
    rw [hf.retransmit] at harmed
    cases harmed

theorem Host.Fresh.inv {h : Host} (hf : h.Fresh) {u : UInt32} (hnxt : h.sock.tcb.rcvNxt = u) :
    HostInv (.start (h.sock.tcb.iss + 1)) (.start u) h := by
  have htaken : h.taken = [] := by
    unfold Host.taken
    rw [hf.returned, hf.reader]
    rfl
  refine .of_live hf.state hf.flow ⟨⟨0, le_rfl, hnxt.trans (seqAt_zero _).symm, ?_⟩, ?_⟩ ⟨?_, ?_⟩
    hf.fec hf.side hf.mss hf.written.symm
  · rw [htaken, show h.sock.rcv.receiveQueue = [] from hf.receiveQueue]
    rfl
  · intro skb hskb
    rw [show h.sock.rcv.ofoQueue = [] from hf.ofoQueue] at hskb
    cases hskb
  · intro t ht
    rw [hf.out] at ht
    cases ht
  · intro x hx
    rw [hf.writeQueue] at hx
    cases hx

theorem Hosts.Fresh.inv {p : Hosts} (hf : p.Fresh) : HostsInv (fun x => (p x).sock.tcb.iss + 1) p :=
  ⟨fun x => .start ((p x).sock.tcb.iss + 1), fun x => ⟨rfl, (hf.fresh x).inv (hf.rcvNxt x)⟩⟩

/-! ## Runs -/

section Runs

variable {env : Bool → Env} {base : Bool → UInt32} {p : Hosts}

theorem Hosts.step_same (e : Bool × ThreadEvent) :
    p.step env e e.1 = (p e.1).threadStep (env e.1) e.2 :=
  Function.update_self e.1 _ p

theorem Hosts.step_other (e : Bool × ThreadEvent) {y : Bool} (hy : y ≠ e.1) : p.step env e y = p y :=
  Function.update_of_ne hy _ p

/-- What a user has written stays written. -/
theorem Host.written_step (env : Env) (h : Host) (e : TcpEvent) :
    h.written <+: (h.step env e).written := by
  have hread : ∀ res, (h.afterRead res).written = h.written := by
    intro res
    unfold Host.afterRead
    split <;> rfl
  cases e with
  | write buf =>
    change h.written <+: if h.sock.writable then h.written ++ buf else h.written
    split
    · exact List.prefix_append _ _
    · exact List.prefix_rfl
  | read len =>
    unfold Host.step
    dsimp only
    split
    · exact List.prefix_rfl
    · rw [hread]
  | wake rd =>
    unfold Host.step
    dsimp only
    split
    · rw [hread]
    · exact List.prefix_rfl
  | connect | arrive | close | abort | timer | tick => exact List.prefix_rfl

theorem Host.written_threadStep (env : Env) (h : Host) (e : ThreadEvent) :
    h.written <+: (h.threadStep env e).written := by
  cases e with
  | event e => exact h.written_step env e
  | late handler => exact List.prefix_rfl

theorem Hosts.written_run (env : Bool → Env) (p : Hosts) (x : Bool)
    (events : List (Bool × ThreadEvent)) : (p x).written <+: (p.run env events x).written := by
  induction events generalizing p with
  | nil => exact List.prefix_rfl
  | cons e es ih =>
    refine List.IsPrefix.trans ?_ (ih (p.step env e))
    by_cases hx : x = e.1
    · subst hx
      rw [Hosts.step_same]
      exact Host.written_threadStep _ _ _
    · rw [Hosts.step_other e hx]

/-- What the other host has sent is a piece of its stream that acknowledges a cut of ours. -/
theorem FromPeer.of_out {w : Bool → Journal} (hw : ∀ x, HostInv (w x) (w !x) (p x)) {x : Bool}
    {t : Transmission} (ht : t ∈ (p !x).sock.out) : FromPeer (w x) (w !x) t.seg := by
  obtain ⟨hplain, hcut⟩ := (hw !x).acking.out t ht
  rw [Bool.not_not] at hcut
  exact ⟨(hw !x).out t ht, hcut, hplain⟩

/-- **One event of the two hosts.** -/
theorem HostsInv.step (h : HostsInv base p) (hpos : ∀ x, 0 < base x)
    (hshort : ∀ x, (base x).toNat + (p x).written.length < 2 ^ 32) {e : Bool × ThreadEvent}
    (hnet : p.Delivered e.1 e.2) (htime : (p e.1).OnTime e.2) : HostsInv base (p.step env e) := by
  obtain ⟨w, hw⟩ := h
  have hs : ∀ x, (w x).Short := by
    intro x
    unfold Journal.Short
    rw [(hw x).1, (hw x).2.written]
    exact hshort x
  obtain ⟨w', hg, hi'⟩ := @HostInv.threadStep (env e.1) _ _ _ (hw e.1).2 (hs e.1) (hs !e.1)
    ((hw e.1).1 ▸ hpos e.1) e.2 htime (by
      intro seg he
      rw [he] at hnet
      obtain ⟨t, ht, rfl⟩ := hnet
      exact .of_out (fun x => (hw x).2) ht)
  refine ⟨Function.update w e.1 w', fun x => ?_⟩
  by_cases hx : x = e.1
  · subst hx
    have hother : (!e.1) ≠ e.1 := by simp
    rw [Function.update_self, Function.update_of_ne hother, Hosts.step_same]
    exact ⟨hg.base.trans (hw e.1).1, hi'⟩
  · have hother : (!x) = e.1 := by
      cases x <;> cases he : e.1 <;> simp_all
    rw [Function.update_of_ne hx, Hosts.step_other e hx, hother, Function.update_self]
    refine ⟨(hw x).1, HostInv.mono ?_ hg⟩
    rw [← hother]
    exact (hw x).2

theorem HostsInv.run (events : List (Bool × ThreadEvent)) (h : HostsInv base p)
    (hpos : ∀ x, 0 < base x)
    (hshort : ∀ x, (base x).toNat + (p.run env events x).written.length < 2 ^ 32)
    (hsat : p.Sat env events) : HostsInv base (p.run env events) := by
  induction events generalizing p with
  | nil => exact h
  | cons e es ih =>
    refine ih (h.step hpos (fun x => ?_) hsat.1 hsat.2.1) hshort hsat.2.2
    have hle := (Hosts.written_run env p x (e :: es)).length_le
    have hx := hshort x
    omega

end Runs

/-- A cut is at most `snd_nxt`. -/
theorem HostInv.cut_le {w u : Journal} {h : Host} (hi : HostInv w u h) (hw : w.Short) {seq : UInt32}
    (hcut : w.Cut seq) : seq ≤ h.sock.tcb.sndNxt := by
  obtain ⟨j, hj, rfl⟩ := hcut
  have hoff : ∀ i, w.base.toNat + w.off i < 2 ^ 32 := by
    intro i
    have hle := w.off_le i
    unfold Journal.Short at hw
    omega
  rw [hi.sndNxt, seqAt_le_iff (hoff _) (hoff _)]
  exact w.off_mono hj

/-- **What one user is given is a prefix of what the other has written.** In every run of two hosts
without FEC, over a network that loses, repeats, delays and reorders segments, in which nobody closes, no
write is accepted while buffers wait with nothing in flight, and a late retransmission handler finds its
timer running or nothing to send, and as long as no sequence number wraps: all that one user has been
given, together with what waits to be read, is a prefix of what the other has written, and neither
socket expects or has acknowledged a byte that the other has not sent. -/
theorem endToEnd_run (env : Bool → Env) (p : Hosts) (hfresh : p.Fresh)
    (events : List (Bool × ThreadEvent)) (hsat : p.Sat env events)
    (hpos : ∀ x, 0 < (p x).sock.tcb.iss + 1)
    (hshort : ∀ x, ((p x).sock.tcb.iss + 1).toNat + (p.run env events x).written.length < 2 ^ 32)
    (x : Bool) :
    (p.run env events x).bytes <+: (p.run env events !x).written ∧
      (p.run env events x).sock.tcb.rcvNxt ≤ (p.run env events !x).sock.tcb.sndNxt ∧
      ∀ t ∈ (p.run env events x).sock.out, t.seg.th.ackSeq ≤ (p.run env events !x).sock.tcb.sndNxt := by
  obtain ⟨w, hw⟩ := hfresh.inv.run events hpos hshort hsat
  have hother : HostInv (w !x) (w x) (p.run env events !x) := by
    have h := (hw !x).2
    rw [Bool.not_not] at h
    exact h
  have hs : (w !x).Short := by
    unfold Journal.Short
    rw [(hw !x).1, hother.written]
    exact hshort !x
  refine ⟨?_, hother.cut_le hs (hw x).2.nxt, fun t ht => hother.cut_le hs ((hw x).2.acking.out t ht).2⟩
  rw [← hother.written]
  exact (hw x).2.bytes

/-- Two hosts at the ends of a connection with initial sequence numbers 100 and 200. -/
def hosts200 : Hosts := fun x =>
  { sock := if x then sockAt200 else
      { sockAt200 with
        tcb := { sndUna := 201, sndNxt := 201, iss := 200, rcvNxt := 101, rcvWnd := 44477, irs := 100 } }
    written := [], returned := [], reader := none }

theorem hosts200_fresh : hosts200.Fresh := by
  refine ⟨fun x => ?_, by decide⟩
  have hside : (hosts200 x).sock.NoSideRto := by
    cases x <;> rintro t (ht | ht) <;> cases ht
  cases x
  · exact ⟨⟨rfl, rfl, rfl, rfl, rfl, rfl, rfl⟩, rfl, by decide, rfl, hside, rfl, rfl, rfl, rfl, rfl⟩
  · exact ⟨⟨rfl, rfl, rfl, rfl, rfl, rfl, rfl⟩, rfl, by decide, rfl, hside, rfl, rfl, rfl, rfl, rfl⟩

/-- The last segment that a host has sent. -/
def Hosts.lastOut (p : Hosts) (x : Bool) : Segment :=
  ((p x).sock.out.getLast?.map Transmission.seg).getD ⟨Tcphdr.zero, []⟩

/-- The first bytes arrive twice, and are answered; a late thread sends them again. -/
def exchange : List (Bool × ThreadEvent) :=
  let asked := [(true, .event (.write [1, 2]))]
  let data := (hosts200.run (fun _ => quietLink) asked).lastOut true
  let answered := asked ++ [(false, .event (.arrive data)), (true, .late .tcpRetransmissionTimeout),
    (false, .event (.arrive data)), (false, .event (.read 5)), (false, .event (.write [7]))]
  answered ++ [(true, .event (.arrive ((hosts200.run (fun _ => quietLink) answered).lastOut false))),
    (true, .event (.read 5))]

theorem endToEnd_run_exchange :
    let p := hosts200.run (fun _ => quietLink) exchange
    (p false).returned = [1, 2] ∧ (p true).returned = [7] ∧
      ∀ x, (p x).bytes <+: (p !x).written ∧ (p x).sock.tcb.rcvNxt ≤ (p !x).sock.tcb.sndNxt := by
  refine ⟨by decide +kernel, by decide +kernel, fun x => ?_⟩
  obtain ⟨hbytes, hnxt, -⟩ := endToEnd_run (fun _ => quietLink) hosts200 hosts200_fresh exchange
    (by decide +kernel) (by decide) (by decide +kernel) x
  exact ⟨hbytes, hnxt⟩

end LvlIp.Tcp
