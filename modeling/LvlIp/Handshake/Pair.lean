import LvlIp.Handshake.Connecting

/-!
# Two sockets that connect to each other

Two sockets and a network that loses, repeats, delays and reorders segments: what arrives at one of
them has been sent by the other (`PairSat`). Since a SYN only ever goes out at `iss`
(`LvlIp.Handshake.Connecting`), whoever accepts one learns the initial sequence number of the other
side (`handshake_agreement`). An attempt that ends, by a reset or because the timer of the SYN has
expired too often, leaves SYN_SENT without having learned anything
(`not_handshake_agreement_of_timeout`).
-/

namespace LvlIp.Tcp

open Fec

/-- Two sockets. -/
abbrev Pair := Bool → TcpSock

/-- Something happens to one of the sockets. -/
def Pair.step (env : Bool → Env) (p : Pair) (e : Bool × TcpEvent) : Pair :=
  Function.update p e.1 (tcpStep (env e.1) (p e.1) e.2)

/-- A run of the two sockets. -/
def Pair.run (env : Bool → Env) (p : Pair) (events : List (Bool × TcpEvent)) : Pair :=
  events.foldl (Pair.step env) p

/-- What arrives at one socket has been sent by the other. -/
def Pair.Delivered (p : Pair) (x : Bool) : TcpEvent → Prop
  | .arrive seg => ∃ t ∈ (p !x).out, t.seg = seg
  | _ => True

/-- Every arrival of the run is one of a segment that has been sent. -/
def PairSat (env : Bool → Env) : Pair → List (Bool × TcpEvent) → Prop
  | _, [] => True
  | p, e :: es => p.Delivered e.1 e.2 ∧ PairSat env (p.step env e) es

/-- The options that a socket offers are still the ones it had at the start. -/
structure Offers (s₀ s : TcpSock) : Prop where
  sackok : s.sackok = s₀.sackok
  fecok : s.fecok = s₀.fecok
  rmss : s.rmss = s₀.rmss

/-- One socket of a run that started with `s₀`. -/
structure SideInv (s₀ s : TcpSock) : Prop where
  phase : (Closed s ∧ Offers s₀ s) ∨ (Connecting s ∧ Offers s₀ s) ∨ Opened s
  syns : SynsOf { s₀ with tcb.iss := s.tcb.iss } s.out

section Side

variable {env : Env} {s₀ s s' : TcpSock}

theorem Offers.of_settled {iss : UInt32} (h : Offers s₀ s)
    (hset : s'.settled = { s.settled with iss }) : Offers s₀ s' :=
  ⟨(congrArg Settled.sackok hset).trans h.sackok, (congrArg Settled.fecok hset).trans h.fecok,
    (congrArg Settled.rmss hset).trans h.rmss⟩

theorem SynsOf.of_new {o : TcpSock} (h : SynsOf o s.out) (hnew : NoNewSyn s s') :
    SynsOf o s'.out :=
  fun t ht hsyn => h t (hnew t ht hsyn) hsyn

theorem synsOf_of_closed (h : Closed s) {o : TcpSock} : SynsOf o s.out := by
  intro t ht hsyn
  rw [h.out t ht] at hsyn
  cases hsyn

theorem Connecting.synsOf (h : Connecting s) (ho : Offers s₀ s) :
    SynsOf { s₀ with tcb.iss := s.tcb.iss } s.out := by
  intro t ht hsyn
  obtain ⟨ackSeq, hseg⟩ := h.out t ht hsyn
  refine ⟨ackSeq, hseg.trans ?_⟩
  unfold TcpSock.synAt tcpSynHeader tcpSynOptions
  rw [ho.sackok, ho.fecok, ho.rmss]

/-- An event that sends no SYN leaves the SYNs those of the socket. -/
theorem SideInv.syns_step (h : SideInv s₀ s) (hiss : s'.tcb.iss = s.tcb.iss)
    (hnew : NoNewSyn s s') : SynsOf { s₀ with tcb.iss := s'.tcb.iss } s'.out := by
  rw [hiss]
  exact SynsOf.of_new h.syns hnew

/-- **One event of a socket.** -/
theorem SideInv.step (h : SideInv s₀ s) (e : TcpEvent) : SideInv s₀ (tcpStep env s e) := by
  rcases h.phase with ⟨hc, ho⟩ | ⟨hc, ho⟩ | hc
  · by_cases hcon : ∃ iss, e = .connect iss
    · obtain ⟨iss, rfl⟩ := hcon
      obtain ⟨hcon, hset⟩ := @Closed.connect env s hc iss
      have ho' := ho.of_settled hset
      exact ⟨.inr (.inl ⟨hcon, ho'⟩), hcon.synsOf ho'⟩
    · obtain ⟨hphase, hset, hnew⟩ := @Closed.step env s hc e (fun iss he => hcon ⟨iss, he⟩)
      refine ⟨?_, h.syns_step (congrArg Settled.iss hset) hnew⟩
      rcases hphase with hc' | hopen
      · exact .inl ⟨hc', ho.of_settled hset⟩
      · exact .inr (.inr hopen)
  · rcases @Connecting.step env s hc e with ⟨hc', hset⟩ | ⟨-, hopen, hset, hnew⟩ |
      ⟨seg, -, -, -, hopen, hset, hnew⟩
    · have ho' := ho.of_settled hset
      exact ⟨.inr (.inl ⟨hc', ho'⟩), hc'.synsOf ho'⟩
    · exact ⟨.inr (.inr hopen), h.syns_step (congrArg Settled.iss hset) hnew⟩
    · exact ⟨.inr (.inr hopen), h.syns_step (congrArg Settled.iss hset) hnew⟩
  · obtain ⟨hopen, hset, hnew⟩ := @Opened.step env s hc e
    exact ⟨.inr (.inr hopen), h.syns_step (congrArg Settled.iss hset) hnew⟩

/-- The initial sequence number is drawn once, by `connect`. -/
theorem SideInv.iss_step (h : SideInv s₀ s) (hne : ¬ Closed s) (e : TcpEvent) :
    (tcpStep env s e).tcb.iss = s.tcb.iss ∧ ¬ Closed (tcpStep env s e) := by
  have hopened : ∀ {s₁ : TcpSock}, Opened s₁ → ¬ Closed s₁ := by
    intro s₁ ho hc
    have hst := ho.state
    rw [hc.state] at hst
    cases hst
  rcases h.phase with ⟨hc, -⟩ | ⟨hc, -⟩ | hc
  · exact absurd hc hne
  · rcases @Connecting.step env s hc e with ⟨hc', hset⟩ | ⟨-, hopen, hset, -⟩ |
      ⟨seg, -, -, -, hopen, hset, -⟩
    · refine ⟨congrArg Settled.iss hset, fun hclosed => ?_⟩
      have hst := hclosed.state
      rw [hc'.state] at hst
      cases hst
    · exact ⟨congrArg Settled.iss hset, hopened hopen⟩
    · exact ⟨congrArg Settled.iss hset, hopened hopen⟩
  · obtain ⟨hopen, hset, -⟩ := @Opened.step env s hc e
    exact ⟨congrArg Settled.iss hset, hopened hopen⟩

end Side

/-! ## Runs of the pair -/

/-- Both sockets of a run that started with `p₀`. -/
def PairInv (p₀ p : Pair) : Prop := ∀ x, SideInv (p₀ x) (p x)

section Runs

variable {env : Bool → Env} {p₀ p : Pair}

theorem Pair.step_same (e : Bool × TcpEvent) : p.step env e e.1 = tcpStep (env e.1) (p e.1) e.2 :=
  Function.update_self e.1 _ p

theorem Pair.step_other (e : Bool × TcpEvent) {y : Bool} (hy : y ≠ e.1) : p.step env e y = p y :=
  Function.update_of_ne hy _ p

/-- What one event keeps of the socket that it happens to, an event of the pair keeps of both. -/
theorem Pair.step_keeps {P : TcpSock → TcpSock → Prop} (e : Bool × TcpEvent) (y : Bool)
    (hrefl : P (p y) (p y)) (hstep : P (p y) (tcpStep (env y) (p y) e.2)) :
    P (p y) (p.step env e y) := by
  by_cases hy : y = e.1
  · subst hy
    rw [Pair.step_same]
    exact hstep
  · rw [Pair.step_other e hy]
    exact hrefl

theorem pairInv_start (h : ∀ x, Closed (p₀ x)) : PairInv p₀ p₀ := by
  intro x
  exact ⟨.inl ⟨h x, rfl, rfl, rfl⟩, synsOf_of_closed (h x)⟩

theorem PairInv.step (h : PairInv p₀ p) (e : Bool × TcpEvent) : PairInv p₀ (p.step env e) := by
  intro y
  exact Pair.step_keeps (P := fun _ s' => SideInv (p₀ y) s') e y (h y) ((h y).step e.2)

theorem PairInv.run (h : PairInv p₀ p) (events : List (Bool × TcpEvent)) :
    PairInv p₀ (p.run env events) := by
  induction events generalizing p with
  | nil => exact h
  | cons e es ih => exact ih (h.step e)

/-- A socket that is not closed keeps its initial sequence number. -/
theorem PairInv.iss_run (h : PairInv p₀ p) {y : Bool} (hne : ¬ Closed (p y))
    (events : List (Bool × TcpEvent)) : (p.run env events y).tcb.iss = (p y).tcb.iss := by
  induction events generalizing p with
  | nil => rfl
  | cons e es ih =>
    obtain ⟨hiss, hne'⟩ := @Pair.step_keeps env p
      (fun s s' => s'.tcb.iss = s.tcb.iss ∧ ¬ Closed s') e y ⟨rfl, hne⟩
      ((h y).iss_step hne e.2)
    exact (ih (h.step e) hne').trans hiss

/-- An open socket keeps what has been settled. -/
theorem settled_run {y : Bool} (hopen : Opened (p y)) (events : List (Bool × TcpEvent)) :
    (p.run env events y).settled = (p y).settled := by
  induction events generalizing p with
  | nil => rfl
  | cons e es ih =>
    obtain ⟨hset, hopen'⟩ := @Pair.step_keeps env p
      (fun s s' => s'.settled = s.settled ∧ Opened s') e y ⟨rfl, hopen⟩ (by
        obtain ⟨ho, hset, -⟩ := @Opened.step (env y) (p y) hopen e.2
        exact ⟨hset, ho⟩)
    exact (ih hopen').trans hset

/-- A SYN that a socket has sent carries its initial sequence number. -/
theorem SideInv.seq_of_syn {s₀ s : TcpSock} (h : SideInv s₀ s) {t : Transmission} (ht : t ∈ s.out)
    (hsyn : t.seg.th.syn) : t.seg.th.seq = s.tcb.iss ∧ ¬ Closed s := by
  obtain ⟨ackSeq, hseg⟩ := h.syns t ht hsyn
  refine ⟨by rw [hseg]; rfl, fun hc => ?_⟩
  rw [hc.out t ht] at hsyn
  cases hsyn

/-- **What takes a socket out of SYN_SENT** without ending the attempt is a SYN of the other. -/
theorem PairInv.accepted (h : PairInv p₀ p) {e : Bool × TcpEvent} (hnet : p.Delivered e.1 e.2)
    {x : Bool} (hsent : (p x).state = .synSent) (hleft : (p.step env e x).state ≠ .synSent)
    (hdone : (p.step env e x).state ≠ .closing) :
    x = e.1 ∧ Offers (p₀ x) (p x) ∧ ∃ t ∈ (p !x).out, t.seg.th.syn ∧
      p.step env e x = tcpSynsentSyn (env x) (p x) t.seg.th ∧ Opened (p.step env e x) ∧
        (p.step env e x).settled = (p x).agreed t.seg.th := by
  have hx : x = e.1 := by
    by_contra hx
    rw [Pair.step_other e hx] at hleft
    exact hleft hsent
  subst hx
  rw [Pair.step_same] at hleft hdone ⊢
  -- in SYN_SENT the socket is connecting, so only a SYN gets it out
  obtain ⟨hc, -⟩ | ⟨hc, ho⟩ | hc := (h e.1).phase
  · rw [hc.state] at hsent
    cases hsent
  · rcases @Connecting.step (env e.1) (p e.1) hc e.2 with ⟨hc', -⟩ | ⟨hst, -⟩ |
      ⟨seg, he, hsyn, heq, hopen, hset, -⟩
    · exact absurd hc'.state hleft
    · exact absurd hst hdone
    · rw [he] at hnet
      obtain ⟨t, ht, rfl⟩ := hnet
      exact ⟨rfl, ho, t, ht, hsyn, heq, hopen, hset⟩
  · have hopened := hc.state
    rw [hsent] at hopened
    cases hopened

end Runs

theorem Pair.run_append (env : Bool → Env) (p : Pair) (es es' : List (Bool × TcpEvent)) :
    p.run env (es ++ es') = (p.run env es).run env es' :=
  List.foldl_append

theorem PairSat.append {env : Bool → Env} {p : Pair} {es es' : List (Bool × TcpEvent)}
    (h : PairSat env p (es ++ es')) : PairSat env (p.run env es) es' := by
  induction es generalizing p with
  | nil => exact h
  | cons e es ih => exact ih h.2

/-- **Whoever leaves SYN_SENT with a connection knows the other's initial sequence number**: in
every run of two sockets that start closed, when an event takes a socket out of SYN_SENT and does
not end the attempt, then it has learned the initial sequence number of the other one, expects the
byte after it, and both numbers stay what they are. -/
theorem handshake_agreement (env : Bool → Env) (p₀ : Pair) (h₀ : ∀ x, Closed (p₀ x))
    (before after : List (Bool × TcpEvent)) (e : Bool × TcpEvent)
    (hsat : PairSat env p₀ (before ++ e :: after)) (x : Bool)
    (hsent : (p₀.run env before x).state = .synSent)
    (hleft : (p₀.run env (before ++ [e]) x).state ≠ .synSent)
    (hdone : (p₀.run env (before ++ [e]) x).state ≠ .closing) :
    (p₀.run env (before ++ [e]) x).tcb.irs = (p₀.run env (before ++ [e]) !x).tcb.iss ∧
      (p₀.run env (before ++ [e]) x).tcb.rcvNxt =
        (p₀.run env (before ++ [e]) !x).tcb.iss + 1 ∧
      (p₀.run env (before ++ e :: after) x).tcb.irs =
        (p₀.run env (before ++ e :: after) !x).tcb.iss := by
  have hinv : PairInv p₀ (p₀.run env before) := (pairInv_start h₀).run before
  have hnet : (p₀.run env before).Delivered e.1 e.2 := (PairSat.append hsat).1
  rw [Pair.run_append] at hleft hdone
  rw [show before ++ e :: after = (before ++ [e]) ++ after by simp, Pair.run_append _ _ _ after,
    Pair.run_append]
  generalize p₀.run env before = p at hinv hnet hsent hleft hdone
  change (p.step env e x).state ≠ _ at hleft hdone
  change (p.step env e x).tcb.irs = (p.step env e !x).tcb.iss ∧
    (p.step env e x).tcb.rcvNxt = (p.step env e !x).tcb.iss + 1 ∧
      ((p.step env e).run env after x).tcb.irs = ((p.step env e).run env after !x).tcb.iss
  obtain ⟨rfl, -, t, ht, hsyn, heq, hopen, hset⟩ := hinv.accepted hnet hsent hleft hdone
  have hother : p.step env e (!e.1) = p (!e.1) := Pair.step_other e (by simp)
  have hinv' : PairInv p₀ (p.step env e) := hinv.step e
  obtain ⟨hseq, hne⟩ := (hinv !e.1).seq_of_syn ht hsyn
  have hirs : (p.step env e e.1).tcb.irs = (p.step env e !e.1).tcb.iss := by
    rw [hother, ← hseq]
    exact congrArg Settled.irs hset
  refine ⟨hirs, ?_, ?_⟩
  · obtain ⟨state, fec, -, hrcv⟩ := rcv_tcpSynsentSyn (env e.1) (p e.1) t.seg.th
    rw [hother, ← hseq, heq]
    exact congrArg RcvView.rcvNxt hrcv
  · have hkept : ((p.step env e).run env after e.1).tcb.irs = (p.step env e e.1).tcb.irs :=
      congrArg Settled.irs (settled_run hopen after)
    rw [hkept, hinv'.iss_run (by rw [hother]; exact hne)]
    exact hirs

/-- Two sockets that have just been allocated. -/
def freshPair : Pair := fun _ => tcpAllocSock

/-- The SYN that a fresh socket sends. -/
def synFrom (iss : UInt32) : Segment := ⟨{ tcpAllocSock with tcb.iss := iss }.synAt 0, []⟩

/-- Both connect, and the SYN of the one reaches the other. -/
theorem handshake_agreement_crossing :
    let before : List (Bool × TcpEvent) := [(true, .connect 100), (false, .connect 1000)]
    let e : Bool × TcpEvent := (true, .arrive (synFrom 1000))
    (freshPair.run (fun _ => quietLink) before true).state = .synSent ∧
      (freshPair.run (fun _ => quietLink) (before ++ [e]) true).state = .synReceived ∧
      (freshPair.run (fun _ => quietLink) (before ++ [e]) true).tcb.irs =
        (freshPair.run (fun _ => quietLink) (before ++ [e]) false).tcb.iss :=
  ⟨by decide +kernel, by decide +kernel,
    (handshake_agreement (fun _ => quietLink) freshPair (fun _ => closed_tcpAllocSock)
      [(true, .connect 100), (false, .connect 1000)] [] (true, .arrive (synFrom 1000))
      ⟨trivial, trivial, ⟨_, List.mem_singleton_self _, by decide +kernel⟩, trivial⟩ true
      (by decide +kernel) (by decide +kernel) (by decide +kernel)).1⟩

/-- The timer of the SYN expires until the attempt is given up. -/
def synTimeouts : List (Bool × TcpEvent) :=
  [(true, .connect 100), (false, .connect 1000)] ++
    List.replicate 5 (true, .timer .tcpConnectRto)

/-- A socket that gives up has left SYN_SENT; nobody has sent a reset, and it has learned nothing
about the other. -/
theorem not_handshake_agreement_of_timeout :
    let p := freshPair.run (fun _ => quietLink) synTimeouts
    PairSat (fun _ => quietLink) freshPair synTimeouts ∧
      (freshPair.run (fun _ => quietLink) [(true, .connect 100)] true).state = .synSent ∧
      (p true).state ≠ .synSent ∧ (∀ x, ∀ t ∈ (p x).out, t.seg.th.rst = false) ∧
      (p true).tcb.irs ≠ (p false).tcb.iss := by
  refine ⟨?_, ?_, ?_, ?_, ?_⟩
  · exact ⟨trivial, trivial, trivial, trivial, trivial, trivial, trivial, trivial⟩
  · decide +kernel
  · decide +kernel
  · decide +kernel
  · decide +kernel

end LvlIp.Tcp
