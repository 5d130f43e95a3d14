import LvlIp.Handshake.Negotiation
import LvlIp.Receive.SackSound

/-!
# What the two sides agree on

Two sockets agree on SACK and FEC exactly when both have offered it, and where data is exchanged the
FEC state is there exactly when FEC has been agreed on (`negotiation_agreement`). Later the flag
`fecok` stays what it is unless a SACK block is stored over it, which takes a coded segment whose block
has a symbol at sequence number 0 (`not_fec_iff_fecok_zero`).
-/

namespace LvlIp.Tcp

open Fec

/-- What a socket offers in its SYN. -/
structure Offer where
  sackok : UInt8
  fecok : UInt8
  rmss : UInt16

/-- A socket as `tcp_alloc_sock` leaves it, with an offer of its own. -/
def Offer.sock (o : Offer) : TcpSock :=
  { tcpAllocSock with sackok := o.sackok, fecok := o.fecok, rmss := o.rmss }

/-- Two sockets with offers of their own. -/
def offerPair (o : Bool → Offer) : Pair := fun x => (o x).sock

/-- The condition `C` holds at every event of a run of two sockets, of the socket it happens to. -/
def PairMeets (env : Bool → Env) (C : TcpSock → TcpEvent → Prop) :
    Pair → List (Bool × TcpEvent) → Prop
  | _, [] => True
  | p, e :: es => C (p e.1) e.2 ∧ PairMeets env C (p.step env e) es

theorem closed_offer (o : Offer) : Closed o.sock :=
  ⟨rfl, rfl, rfl, closed_tcpAllocSock.timer, nofun, rfl, rfl⟩

theorem sackSafe_offer (o : Offer) : SackSafe o.sock :=
  ⟨⟨⟨rfl, rfl, rfl, rfl, Nat.zero_le 4, rfl⟩, fun h => absurd h Bool.false_ne_true⟩,
    fun _ hy => absurd hy List.not_mem_nil, fun _ hfec => nomatch hfec⟩

section Agree

variable {env : Bool → Env} {p : Pair}

/-- The SACK blocks of both sockets stay in their arrays. -/
theorem PairMeets.sackSafe {events : List (Bool × TcpEvent)} (hp : ∀ x, SackSafe (p x))
    (h : PairMeets env BlockOffZero p events) (x : Bool) : SackSafe (p.run env events x) := by
  induction events generalizing p with
  | nil => exact hp x
  | cons e es ih =>
    refine ih (fun y => ?_) h.2
    by_cases hy : y = e.1
    · subst hy
      unfold Pair.step
      rw [Function.update_self]
      exact (hp e.1).step h.1
    · unfold Pair.step
      rw [Function.update_of_ne hy]
      exact hp y

theorem SackSafe.fecokByte {s : TcpSock} (h : SackSafe s) : s.fecokByte = s.fecok := by
  unfold TcpSock.fecokByte
  rw [h.inv.past]

end Agree

/-- **SACK and FEC are agreed on by both sides or by none.** The options of a SYN or SYN-ACK fit,
fill their area and are read back as they were written. In every run of two sockets that have just
been allocated every SYN that goes out carries those that its socket offered at the start. As long as
no coded segment arrives whose block has a symbol at sequence number 0: over a network that loses,
repeats, delays and reorders, once an event has taken a socket out of SYN_SENT without ending the
attempt, the socket has SACK, and FEC, exactly when both sockets offered it at the start; and where
data is exchanged, whatever arrives, the FEC state is there exactly when FEC is agreed on. -/
theorem negotiation_agreement (env : Bool → Env) (o : Bool → Offer)
    (events : List (Bool × TcpEvent)) :
    (∀ s ack, SynOptions s (tcpSynHeader s ack)) ∧
      (∀ x, ∀ t ∈ ((offerPair o).run env events x).out, t.seg.th.syn →
        SynOptions (o x).sock t.seg.th) ∧
      (PairMeets env BlockOffZero (offerPair o) events →
        (PairSat env (offerPair o) events → ∀ before e after, events = before ++ e :: after → ∀ x,
          ((offerPair o).run env before x).state = .synSent →
          ((offerPair o).run env (before ++ [e]) x).state ≠ .synSent →
          ((offerPair o).run env (before ++ [e]) x).state ≠ .closing →
            (((offerPair o).run env events x).sackok ≠ 0 ↔ (o x).sackok ≠ 0 ∧ (o !x).sackok ≠ 0) ∧
              (((offerPair o).run env events x).fecokByte ≠ 0 ↔
                (o x).fecok ≠ 0 ∧ (o !x).fecok ≠ 0)) ∧
        ∀ x, ((offerPair o).run env events x).state.transfers →
          (((offerPair o).run env events x).fec.isSome ↔
            ((offerPair o).run env events x).fecokByte ≠ 0)) := by
  have h₀ : ∀ x, Closed (offerPair o x) := fun x => closed_offer (o x)
  have hinv : ∀ es, PairInv (offerPair o) ((offerPair o).run env es) := fun es =>
    (pairInv_start h₀).run es
  refine ⟨synOptions_tcpSynHeader, fun x t ht hsyn => (hinv events x).synOptions ht hsyn,
    fun hmeets => ?_⟩
  have hsafe : ∀ x, SackSafe ((offerPair o).run env events x) := fun x =>
    PairMeets.sackSafe (p := offerPair o) (fun y => sackSafe_offer (o y)) hmeets x
  refine ⟨?_, fun x hst => ?_⟩
  · rintro hsat before e after rfl x hsent hleft hdone
    have hinv' : PairInv (offerPair o) ((offerPair o).run env before) := hinv before
    have hnet : ((offerPair o).run env before).Delivered e.1 e.2 := (PairSat.append hsat).1
    rw [(hsafe x).fecokByte]
    rw [Pair.run_append] at hleft hdone
    rw [show before ++ e :: after = (before ++ [e]) ++ after by simp, Pair.run_append _ _ _ after,
      Pair.run_append]
    generalize (offerPair o).run env before = p at hinv' hnet hsent hleft hdone
    change (p.step env e x).state ≠ _ at hleft hdone
    change (((p.step env e).run env after x).settled.sackok ≠ 0 ↔ _) ∧
      (((p.step env e).run env after x).settled.fecok ≠ 0 ↔ _)
    obtain ⟨-, hoffers, t, ht, hsyn, -, hopen, hset⟩ := hinv'.accepted hnet hsent hleft hdone
    rw [settled_run hopen, hset]
    exact agreed_of_synOptions hoffers ((hinv' !x).synOptions ht hsyn)
  · rw [(hsafe x).fecokByte]
    exact (hinv events x).fecResolved.transfers hst

/-- A run in which everything happens to one socket is a run of that socket. -/
theorem run_map_one (env : Bool → Env) (p : Pair) (x : Bool) (events : List TcpEvent) :
    p.run env (events.map fun e => (x, e)) x = events.foldl (tcpStep (env x)) (p x) := by
  induction events generalizing p with
  | nil => rfl
  | cons e es ih =>
    rw [List.foldl_cons, ← Function.update_self x (tcpStep (env x) (p x) e) p]
    exact ih _

/-- The offers of two sockets, one of them without FEC. -/
def mixedOffers : Bool → Offer
  | true => ⟨1, 1, 1460⟩
  | false => ⟨1, 0, 1460⟩

/-- The SYN of the socket without FEC. -/
def plainSyn : Segment := ⟨{ (mixedOffers false).sock with tcb.iss := 1000 }.synAt 0, []⟩

/-- The offers of two sockets with SACK and FEC. -/
def fullOffers : Bool → Offer := fun _ => ⟨1, 1, 1460⟩

/-- Both connect, and the SYN of the one without FEC reaches the other. -/
def mixedConnect : List (Bool × TcpEvent) :=
  [(true, .connect 100), (false, .connect 1000), (true, .arrive plainSyn)]

/-- A connection with FEC opens, and a symbol arrives on it. -/
def codedConnect : List (Bool × TcpEvent) :=
  [(true, .connect 100), (true, .arrive synackSackFec), (true, .arrive firstSymbol)]

/-- With an offer of FEC on one side SACK is agreed on, and FEC is not. With an offer on both sides
the flag stays set when a symbol arrives. -/
theorem negotiation_agreement_mixed :
    ((offerPair mixedOffers).run (fun _ => quietLink) mixedConnect true).sackok ≠ 0 ∧
      ((offerPair mixedOffers).run (fun _ => quietLink) mixedConnect true).fecokByte = 0 ∧
      ((offerPair fullOffers).run (fun _ => quietLink) codedConnect true).fecokByte ≠ 0 := by
  obtain ⟨-, -, hmixed⟩ := negotiation_agreement (fun _ => quietLink) mixedOffers mixedConnect
  obtain ⟨-, -, hcoded⟩ := negotiation_agreement (fun _ => quietLink) fullOffers codedConnect
  obtain ⟨hsack, hfec⟩ := (hmixed ⟨trivial, trivial, fun _ h => (nomatch h), trivial⟩).1
    ⟨trivial, trivial, ⟨_, List.mem_singleton_self _, by decide +kernel⟩, trivial⟩
    [(true, .connect 100), (false, .connect 1000)] (true, .arrive plainSyn) [] rfl true
    (by decide +kernel) (by decide +kernel) (by decide +kernel)
  refine ⟨hsack.mpr ⟨by decide, by decide⟩, ?_, ?_⟩
  · by_contra hne
    exact (hfec.mp hne).2 rfl
  · have hmeets : PairMeets (fun _ => quietLink) BlockOffZero (offerPair fullOffers) codedConnect := by
      refine ⟨trivial, fun _ h => (nomatch h), fun fec hfec _ => ?_, trivial⟩
      obtain rfl : tcpFecFresh = fec := Option.some_inj.mp hfec
      exact offZero_firstSymbol
    exact ((hcoded hmeets).2 true (by decide +kernel)).mp (by decide +kernel)

/-- **The flag is lost** on an open connection that has agreed on FEC and has its FEC state: the
symbol at sequence number 0 fills the array with blocks that are never sent, and one is stored over
`fecok`. -/
theorem not_fec_iff_fecok_zero :
    ¬ ∀ (env : Bool → Env) (o : Bool → Offer) (events : List (Bool × TcpEvent)) (x : Bool),
      ((offerPair o).run env events x).state.transfers →
        (((offerPair o).run env events x).fec.isSome ↔
          ((offerPair o).run env events x).fecokByte ≠ 0) := by
  intro h
  have hx := h (fun _ => quietLink) fullOffers (zeroEvents.map fun e => (true, e)) true
  rw [run_map_one] at hx
  obtain ⟨hstate, hfec, hbyte⟩ := fecokByte_zeroEvents
  change (zeroEvents.foldl (tcpStep quietLink) tcpAllocSock).state.transfers → _ at hx
  rw [hstate] at hx
  exact (hx rfl).mp hfec hbyte

end LvlIp.Tcp
