import LvlIp.Timers.Tick
import LvlIp.Timers.Backoff

/-!
# One live retransmission timer

The socket and `src/timer.c` side by side. `timers_tick` starts the handler of an expired timer in a
thread of its own, and the thread waits for the lock of the socket; whatever else happens to the
socket happens under the lock too, before or after it. `tsk->retransmit` is followed from call to
call.

As long as a handler that gets the lock finds its own timer in `tsk->retransmit`, or nothing there
and nothing to do, at most one timer is live, and a handler that was cancelled in time does nothing
(`oneLive_run`). A handler does not look: when it comes late it gives back the timer that was added
after its own, retransmits, and adds another one (`not_oneLive_late`).
-/

namespace LvlIp.Tcp

open Timers

/-! ## The code -/

/-- The timers of `src/timer.c` that were added for `tsk->retransmit`, and what it points to. -/
structure RtoSlot where
  clock : Clock TimerHandler
  retransmit : Option ℕ

/-- One call. `tcp_release_rto_timer` and `tcp_stop_rto_timer` clear the pointer. -/
def RtoSlot.call (r : RtoSlot) : RtoCall → RtoSlot
  | .timerAdd expire handler =>
    let added := r.clock.timerAdd (UInt32.ofNat expire) handler
    { clock := added.1, retransmit := some added.2 }
  | .timerRelease => { clock := r.clock.timerRelease r.retransmit, retransmit := none }
  | .timerCancel => { clock := r.clock.timerCancel r.retransmit, retransmit := none }

/-- A socket, its retransmission timers, and the threads of their handlers that have not got the lock
of the socket yet. -/
structure RtoWorld where
  sock : TcpSock
  slot : RtoSlot
  threads : List (ℕ × TimerHandler)

/-- What can happen. -/
inductive RtoEvent
  /-- Ten milliseconds pass. -/
  | advance
  /-- `timers_tick`. -/
  | tick (busy : ℕ → Bool)
  /-- Something else happens to the socket, under its lock. -/
  | socket (e : TcpEvent)
  /-- The `i`-th thread gets the lock, and runs its handler. -/
  | handle (i : ℕ)

/-- An event under the lock of the socket that is none of the retransmission timer. -/
def TcpEvent.locked : TcpEvent → Bool
  | .timer handler => !handler.isRto
  | .tick _ => false
  | _ => true

namespace RtoWorld

def init : RtoWorld where
  sock := tcpAllocSock
  slot := { clock := .init, retransmit := none }
  threads := []

/-- The socket becomes `s`, with the calls into `src/timer.c` that this takes. -/
def become (w : RtoWorld) (s : TcpSock) : RtoWorld :=
  { w with
    sock := s
    slot := (s.rtoCalls.drop w.sock.rtoCalls.length).foldl RtoSlot.call w.slot }

/-- The handlers that `timers_tick` starts. -/
def fired (w : RtoWorld) (busy : ℕ → Bool) : List (ℕ × TimerHandler) :=
  (w.slot.clock.timers.filter fun t => !busy t.ptr && w.slot.clock.due t).map fun t =>
    (t.ptr, t.handler)

/-- One event. -/
def step (env : Env) (w : RtoWorld) : RtoEvent → RtoWorld
  | .advance =>
    { w with sock := tcpStep env w.sock (.tick 10), slot.clock := w.slot.clock.advance }
  | .tick busy =>
    { w with slot.clock := w.slot.clock.timersTick busy, threads := w.threads ++ w.fired busy }
  | .socket e => if e.locked then w.become (tcpStep env w.sock e) else w
  | .handle i =>
    match w.threads[i]? with
    | none => w
    | some th => { w.become (th.2.run env w.sock) with threads := w.threads.eraseIdx i }

/-- At most one retransmission timer is pending and not cancelled. -/
def OneLive (w : RtoWorld) : Prop := (w.slot.clock.timers.filter fun t => !t.cancelled).length ≤ 1

instance (w : RtoWorld) : Decidable w.OneLive := inferInstanceAs (Decidable (_ ≤ 1))

/-- A handler that gets the lock after its timer was cancelled neither retransmits nor changes
`rto`. -/
def Tame (env : Env) (w : RtoWorld) : RtoEvent → Prop
  | .handle i => ∀ th ∈ w.threads[i]?, .cancel th.1 ∈ w.slot.clock.log →
      (th.2.run env w.sock).out = w.sock.out ∧ (th.2.run env w.sock).rto = w.sock.rto
  | _ => True

end RtoWorld

/-- The handler would find nothing to do. -/
def TimerHandler.idle (s : TcpSock) : TimerHandler → Prop
  | .tcpConnectRto => s.state ≠ .synSent
  | .tcpRetransmissionTimeout => s.writeQueue = []
  | _ => False

instance (s : TcpSock) : ∀ handler : TimerHandler, Decidable (handler.idle s)
  | .tcpConnectRto => inferInstanceAs (Decidable (s.state ≠ .synSent))
  | .tcpRetransmissionTimeout => inferInstanceAs (Decidable (s.writeQueue = []))
  | .tcpSendDelack => .isFalse id
  | .tcpLinger => .isFalse id
  | .tcpUserTimeout => .isFalse id

/-- A handler that gets the lock finds its own timer in `tsk->retransmit`, or no timer and nothing to
do. -/
def RtoWorld.OnTime (w : RtoWorld) : RtoEvent → Prop
  | .handle i => ∀ th ∈ w.threads[i]?,
      w.slot.retransmit = some th.1 ∨ w.slot.retransmit = none ∧ th.2.idle w.sock
  | _ => True

instance (w : RtoWorld) : ∀ e : RtoEvent, Decidable (w.OnTime e)
  | .handle i => inferInstanceAs (Decidable (∀ th ∈ w.threads[i]?,
      w.slot.retransmit = some th.1 ∨ w.slot.retransmit = none ∧ th.2.idle w.sock))
  | .advance => .isTrue trivial
  | .tick _ => .isTrue trivial
  | .socket _ => .isTrue trivial

/-- Every handler of a run is on time. -/
def RtoWorld.RunOnTime (env : Env) : RtoWorld → List RtoEvent → Prop
  | _, [] => True
  | w, e :: events => w.OnTime e ∧ RunOnTime env (w.step env e) events

instance RtoWorld.RunOnTime.decidable (env : Env) :
    ∀ w events, Decidable (RtoWorld.RunOnTime env w events)
  | _, [] => .isTrue trivial
  | w, e :: events =>
    have := RunOnTime.decidable env (w.step env e) events
    inferInstanceAs (Decidable (w.OnTime e ∧ RunOnTime env (w.step env e) events))

/-! ## One call -/

/-- The timers, the pointer to them and the socket belong together. -/
structure Live (v : RtoView) (r : RtoSlot) : Prop where
  flight : v.inflight ≤ v.queue
  armed : v.armed ≠ none → 0 < v.inflight
  agree : v.armed = none ↔ r.retransmit = none
  sound : r.clock.Sound
  /-- Only the timer in `tsk->retransmit` can be live, -/
  mine : ∀ t ∈ r.clock.timers, t.cancelled = false → r.retransmit = some t.ptr
  /-- and it was not cancelled. -/
  kept : ∀ ptr, r.retransmit = some ptr → ptr < r.clock.next ∧ .cancel ptr ∉ r.clock.log
  handlers : ∀ t ∈ r.clock.timers, t.handler.isRto

/-- No timer is live. -/
def RtoSlot.Dead (r : RtoSlot) : Prop := ∀ t ∈ r.clock.timers, t.cancelled = true

section Calls

variable {v v' : RtoView} {r : RtoSlot}

theorem Live.dead (h : Live v r) (hnone : v.armed = none) : r.Dead := by
  intro t ht
  by_contra hlive
  have hptr := h.mine t ht (Bool.not_eq_true _ ▸ hlive)
  exact absurd hptr (h.agree.mp hnone ▸ (Option.some_ne_none _).symm)

/-- What the timers do not depend on. -/
theorem Live.congr (h : Live v r) (harmed : v'.armed = v.armed) (hflight : v'.inflight ≤ v'.queue)
    (hpos : v.armed ≠ none → 0 < v'.inflight) : Live v' r :=
  ⟨hflight, harmed ▸ hpos, harmed ▸ h.agree, h.sound, h.mine, h.kept, h.handlers⟩

/-- **The timer is cancelled**. -/
theorem Live.cancel (h : Live v r) : Live v.stop (r.call .timerCancel) := by
  have hagree : v.stop.armed = none ↔ (r.call .timerCancel).retransmit = none := iff_of_true rfl rfl
  have harmed : v.stop.armed ≠ none → 0 < v.stop.inflight := fun hne => absurd rfl hne
  have hkept : ∀ ptr, (r.call .timerCancel).retransmit = some ptr →
      ptr < (r.call .timerCancel).clock.next ∧ .cancel ptr ∉ (r.call .timerCancel).clock.log :=
    fun ptr hptr => absurd hptr (Option.some_ne_none _).symm
  cases hptr : r.retransmit with
  | none =>
    have hclock : (r.call .timerCancel).clock = r.clock := by
      simp only [RtoSlot.call, hptr, Clock.timerCancel]
    refine ⟨h.flight, harmed, hagree, hclock ▸ h.sound, fun t ht hlive => ?_, hkept, hclock ▸ h.handlers⟩
    rw [hclock] at ht
    exact absurd (h.mine t ht hlive) (hptr ▸ (Option.some_ne_none _).symm)
  | some ptr =>
    have hclock : (r.call .timerCancel).clock = r.clock.timerCancel (some ptr) := by
      simp only [RtoSlot.call, hptr]
    refine ⟨h.flight, harmed, hagree, hclock ▸ h.sound.timerCancel (h.kept ptr hptr).1, ?_, hkept, ?_⟩
    · intro t ht hlive
      rw [hclock] at ht
      obtain ⟨t', ht', rfl⟩ := List.mem_map.mp ht
      split at hlive
      · exact Bool.noConfusion hlive
      · next hne => exact absurd (Option.some.inj (hptr.symm.trans (h.mine t' ht' hlive))).symm hne
    · intro t ht
      rw [hclock] at ht
      obtain ⟨t', ht', rfl⟩ := List.mem_map.mp ht
      split
      · exact h.handlers t' ht'
      · exact h.handlers t' ht'

/-- **The timer is given back**, after it fired. -/
theorem Live.release (h : Live v r) (hdead : r.Dead) : Live v.release (r.call .timerRelease) := by
  have htimer : ∀ t ∈ (r.call .timerRelease).clock.timers,
      ∃ t' ∈ r.clock.timers, t.cancelled = t'.cancelled ∧ t.handler = t'.handler := by
    intro t ht
    cases hptr : r.retransmit with
    | none =>
      simp only [RtoSlot.call, hptr, Clock.timerRelease] at ht
      exact ⟨t, ht, rfl, rfl⟩
    | some ptr =>
      simp only [RtoSlot.call, hptr, Clock.timerRelease] at ht
      obtain ⟨t', ht', rfl⟩ := List.mem_map.mp ht
      refine ⟨t', ht', ?_, ?_⟩
      · split <;> rfl
      · split <;> rfl
  refine ⟨h.flight, fun hne => absurd rfl hne, iff_of_true rfl rfl, h.sound.timerRelease _, ?_, ?_, ?_⟩
  · intro t ht hlive
    obtain ⟨t', ht', hc, -⟩ := htimer t ht
    exact Bool.noConfusion ((hdead t' ht').symm.trans (hc.symm.trans hlive))
  · exact fun ptr hptr => absurd hptr (Option.some_ne_none _).symm
  · intro t ht
    obtain ⟨t', ht', -, hh⟩ := htimer t ht
    exact hh ▸ h.handlers t' ht'

/-- **A timer is added** when there is none. -/
theorem Live.arm (h : Live v r) (hnone : v.armed = none) (hpos : 0 < v.inflight) (expire : ℕ)
    {handler : TimerHandler} (hrto : handler.isRto) :
    Live (v.arm expire handler) (r.call (.timerAdd expire handler)) := by
  have hdead := h.dead hnone
  refine ⟨h.flight, fun _ => hpos, iff_of_false (Option.some_ne_none _) (Option.some_ne_none _),
    h.sound.insert 1 _ handler, ?_, ?_, ?_⟩
  · intro t ht hlive
    rcases List.mem_append.mp ht with ht | ht
    · exact Bool.noConfusion ((hdead t ht).symm.trans hlive)
    · rw [List.mem_singleton.mp ht]
      rfl
  · intro ptr hptr
    obtain rfl : r.clock.next = ptr := Option.some.inj hptr
    refine ⟨Nat.lt_succ_self _, fun hcancel => ?_⟩
    rcases List.mem_append.mp hcancel with hold | hnew
    · exact absurd (h.sound.past _ hold) (lt_irrefl _)
    · exact Entry.noConfusion (List.mem_singleton.mp hnew)
  · intro t ht
    rcases List.mem_append.mp ht with ht | ht
    · exact h.handlers t ht
    · rw [List.mem_singleton.mp ht]
      exact hrto

theorem log_subset_call (r : RtoSlot) (c : RtoCall) : r.clock.log ⊆ (r.call c).clock.log := by
  cases c with
  | timerAdd expire handler => exact List.subset_append_left _ _
  | timerRelease =>
    cases hptr : r.retransmit with
    | none => simp only [RtoSlot.call, hptr, Clock.timerRelease, List.Subset.refl]
    | some ptr => simp only [RtoSlot.call, hptr, Clock.timerRelease, Clock.modify, List.Subset.refl]
  | timerCancel =>
    cases hptr : r.retransmit with
    | none => simp only [RtoSlot.call, hptr, Clock.timerCancel, List.Subset.refl]
    | some ptr =>
      simp only [RtoSlot.call, hptr, Clock.timerCancel]
      exact List.subset_append_left _ _

theorem log_subset_calls (cs : List RtoCall) (r : RtoSlot) :
    r.clock.log ⊆ (cs.foldl RtoSlot.call r).clock.log := by
  induction cs generalizing r with
  | nil => exact List.Subset.refl _
  | cons c cs ih => exact List.Subset.trans (log_subset_call r c) (ih (r.call c))

end Calls

/-! ## One event -/

/-- The calls since `calls`, when the timers were as in `r`, have led to what belongs to `v`. -/
def Traced (calls : List RtoCall) (r : RtoSlot) (v : RtoView) : Prop :=
  ∃ cs, v.calls = calls ++ cs ∧ Live v (cs.foldl RtoSlot.call r)

namespace Traced

variable {calls : List RtoCall} {r : RtoSlot} {v v' : RtoView}

/-- One more call. -/
theorem call (h : Traced calls r v) {c : RtoCall} (hc : v'.calls = v.calls ++ [c])
    (hlive : ∀ r, Live v r → Live v' (r.call c)) : Traced calls r v' := by
  obtain ⟨cs, hcs, h⟩ := h
  refine ⟨cs ++ [c], ?_, ?_⟩
  · rw [hc, hcs, List.append_assoc]
  · rw [List.foldl_append]
    exact hlive _ h

/-- No call. -/
theorem same (h : Traced calls r v) (hcalls : v'.calls = v.calls)
    (hlive : ∀ r, Live v r → Live v' r) : Traced calls r v' := by
  obtain ⟨cs, hcs, h⟩ := h
  exact ⟨cs, hcalls.trans hcs, hlive _ h⟩

theorem inflight_pos (h : Traced calls r v) (hne : v.armed ≠ none) : 0 < v.inflight := by
  obtain ⟨cs, -, h⟩ := h
  exact h.armed hne

theorem inflight_le (h : Traced calls r v) : v.inflight ≤ v.queue := by
  obtain ⟨cs, -, h⟩ := h
  exact h.flight

theorem stop (h : Traced calls r v) : Traced calls r v.stop := h.call rfl fun _ => Live.cancel

theorem arm (h : Traced calls r v) (hnone : v.armed = none) (hpos : 0 < v.inflight) (expire : ℕ)
    {handler : TimerHandler} (hrto : handler.isRto) : Traced calls r (v.arm expire handler) :=
  h.call rfl fun _ hlive => hlive.arm hnone hpos expire hrto

theorem rtoHandler_isRto (st : TcpState) : st.rtoHandler.isRto := by
  cases st <;> rfl

/-- **The timer is added again** when there is none. -/
theorem rearm (h : Traced calls r v) (hnone : v.armed = none) (hpos : 0 < v.inflight)
    (expire : ℕ) : Traced calls r (v.rearm expire) := by
  have hrel : Traced calls r v.release :=
    h.call rfl fun r hlive => hlive.release (hlive.dead hnone)
  exact hrel.arm rfl hpos expire (rtoHandler_isRto v.state)

theorem done (h : Traced calls r v) : Traced calls r v.done := by
  have hclosing : Traced calls r { v with state := .closing } :=
    h.same rfl fun _ hlive => hlive.congr rfl hlive.flight hlive.armed
  exact hclosing.stop

/-- **One move**. A timer is added when the queue was empty, or when nothing was in flight: then
there is none. -/
theorem move {acks opens : Prop} (h : Traced calls r v) (hmove : RtoMove acks opens v v') :
    Traced calls r v' := by
  have hframe : ∀ v', v'.calls = v.calls → v'.armed = v.armed → v'.inflight = v.inflight →
      v'.queue = v.queue → Traced calls r v' := by
    intro v' hcalls harmed hinf hqueue
    refine h.same hcalls fun _ hlive => hlive.congr harmed ?_ ?_
    · rw [hinf, hqueue]
      exact hlive.flight
    · rw [hinf]
      exact hlive.armed
  have hunarmed : v.inflight = 0 → v.armed = none := by
    intro h0
    by_contra hne
    exact absurd h0 (h.inflight_pos hne).ne'
  cases hmove with
  | state hst hsyn => exact hframe _ rfl rfl rfl rfl
  | accept hopen hst => exact hframe _ rfl rfl rfl rfl
  | greet hack hst => exact hframe _ rfl rfl rfl rfl
  | stop => exact h.stop
  | rtt hack hrto => exact hframe _ rfl rfl rfl rfl
  | @clean n hack hn =>
    unfold RtoView.clean
    dsimp only
    have hle : v.inflight - n ≤ v.queue - n := Nat.sub_le_sub_right h.inflight_le n
    split
    · obtain ⟨cs, hcs, hlive⟩ := h.stop
      exact ⟨cs, hcs, hlive.congr rfl hle fun hne => absurd rfl hne⟩
    · next hkeep =>
      have hpos : 0 < v.inflight - n := Nat.pos_of_ne_zero fun h0 => hkeep (.inr h0)
      exact h.same rfl fun _ hlive => hlive.congr rfl hle fun _ => hpos
  | queue expire hst =>
    unfold RtoView.enqueue
    dsimp only
    have hle := h.inflight_le
    by_cases hq : v.queue = 0
    · rw [if_pos hq]
      have h0 : v.inflight = 0 := Nat.le_zero.mp (hq ▸ hle)
      have hone : Traced calls r { v with queue := v.queue + 1, inflight := 1 } :=
        h.same rfl fun _ hlive => hlive.congr rfl (Nat.le_add_left _ _) fun _ => Nat.one_pos
      have hnew := hone.rearm (hunarmed h0) Nat.one_pos expire
      rwa [if_pos (show (v.rearm expire).inflight = 0 from h0)]
    · rw [if_neg hq]
      refine h.same rfl fun _ hlive => hlive.congr rfl ?_ fun _ => ?_
      · dsimp only
        split <;> omega
      · dsimp only
        split <;> omega
  | @pending n expire hst h0 hpos hn =>
    have hall : Traced calls r { v with inflight := n } :=
      h.same rfl fun _ hlive => hlive.congr rfl hn fun _ => hpos
    exact hall.rearm (hunarmed h0) hpos expire

end Traced

section Handlers

variable (env : Env) {s : TcpSock} {r : RtoSlot}

theorem Live.traced (h : Live s.rtv r) : Traced s.rtoCalls r s.rtv :=
  ⟨[], (List.append_nil _).symm, h⟩

/-- **Every event but those of the timer itself**. -/
theorem Live.tcpStep (h : Live s.rtv r) {e : TcpEvent}
    (he : ∀ handler, e = .timer handler → handler.isRto = false) :
    Traced s.rtoCalls r (tcpStep env s e).rtv :=
  (rtoMoves_tcpStep env s he).induction (fun _ _ hmove hv => hv.move hmove) h.traced

/-- **A handler runs** when no timer is live, and its timer was the one in `tsk->retransmit` or it
has nothing to do. -/
theorem Live.handler (h : Live s.rtv r) (hdead : r.Dead) {handler : TimerHandler}
    (hrto : handler.isRto) (hturn : s.rtv.armed ≠ none ∨ handler.idle s) :
    Traced s.rtoCalls r (handler.run env s).rtv := by
  have hrel : Traced s.rtoCalls r s.rtv.release := by
    refine ⟨[.timerRelease], rfl, ?_⟩
    exact h.release hdead
  cases handler with
  | tcpConnectRto =>
    change Traced _ _ (tcpConnectRto env s).rtv
    rcases rtv_tcpConnectRto env s with heq | ⟨-, heq⟩ | ⟨hst, -, expire, heq⟩
    · exact heq ▸ hrel
    · exact heq ▸ hrel.done
    · have hpos : 0 < s.rtv.inflight := by
        rcases hturn with harmed | hidle
        · exact h.armed harmed
        · exact absurd hst hidle
      exact heq ▸ hrel.rearm rfl hpos expire
  | tcpRetransmissionTimeout =>
    change Traced _ _ (tcpRetransmissionTimeout env s).rtv
    rcases rtv_tcpRetransmissionTimeout env s with ⟨-, heq⟩ | ⟨-, -, heq⟩ | ⟨hq, -, st, -, heq⟩
    · exact heq ▸ hrel
    · exact heq ▸ hrel.done
    · have hpos : 0 < s.rtv.inflight := by
        rcases hturn with harmed | hidle
        · exact h.armed harmed
        · exact absurd hidle hq
      have hdouble : Traced s.rtoCalls r { s.rtv.release with state := st, rto := s.rto * 2 } :=
        hrel.same rfl fun _ hlive => hlive.congr rfl hlive.flight hlive.armed
      exact heq ▸ hdouble.arm rfl hpos (s.rto * 2) rfl
  | _ => exact Bool.noConfusion hrto

/-- A handler that has nothing to do sends nothing. -/
theorem run_of_idle {handler : TimerHandler} (h : handler.idle s) :
    (handler.run env s).out = s.out ∧ (handler.run env s).rto = s.rto := by
  cases handler with
  | tcpConnectRto =>
    change (tcpConnectRto env s).out = _ ∧ (tcpConnectRto env s).rto = _
    unfold tcpConnectRto
    dsimp only
    rw [if_neg (show (tcpReleaseRtoTimer s).state ≠ .synSent from h)]
    exact ⟨rfl, rfl⟩
  | tcpRetransmissionTimeout =>
    change (tcpRetransmissionTimeout env s).out = _ ∧ (tcpRetransmissionTimeout env s).rto = _
    unfold tcpRetransmissionTimeout
    dsimp only
    rw [show (tcpReleaseRtoTimer s).writeQueue = [] from h]
    exact ⟨rfl, rfl⟩
  | _ => exact absurd h id

end Handlers

/-! ## The two side by side -/

/-- A handler that is started is seen to be. -/
theorem start_mem_pass {st : Clock TimerHandler} {busy : ℕ → Bool}
    {t : Timers.Timer TimerHandler} (hbusy : busy t.ptr = false) (hdue : st.due t = true) :
    .start t.ptr st.uptime ∈ (st.pass busy t).2 := by
  rw [Clock.pass, hbusy]
  rcases st.visit_cases t with ⟨-, -, heq⟩ | ⟨-, -, heq⟩ | ⟨hnot, -⟩ | ⟨hnot, -⟩
  · simp [heq]
  · simp [heq]
  · exact Bool.noConfusion (hnot.symm.trans hdue)
  · exact Bool.noConfusion (hnot.symm.trans hdue)

section Clock

variable {v : RtoView} {r : RtoSlot}

theorem Live.advance (h : Live v r) : Live v { r with clock := r.clock.advance } :=
  ⟨h.flight, h.armed, h.agree, h.sound.advance, h.mine, h.kept, h.handlers⟩

/-- **A pass over the timers**. -/
theorem Live.timersTick (h : Live v r) (busy : ℕ → Bool) :
    Live v { r with clock := r.clock.timersTick busy } := by
  refine ⟨h.flight, h.armed, h.agree, h.sound.timersTick busy, ?_, ?_, ?_⟩
  · intro t' ht' hlive
    obtain ⟨t, ht, hpass⟩ := Clock.mem_timersTick ht'
    have hp := r.clock.passed_pass busy t
    rw [(hp.same t' hpass).1]
    exact h.mine t ht (hp.quiet t' hpass hlive).1
  · intro ptr hptr
    obtain ⟨hlt, hnot⟩ := h.kept ptr hptr
    refine ⟨hlt, fun hcancel => ?_⟩
    rcases List.mem_append.mp hcancel with hold | hnew
    · exact hnot hold
    · obtain ⟨t, -, hmem⟩ := List.mem_flatMap.mp hnew
      rcases Clock.mem_pass hmem with heq | heq
      · exact Entry.noConfusion heq
      · exact Entry.noConfusion heq
  · intro t' ht'
    obtain ⟨t, ht, hpass⟩ := Clock.mem_timersTick ht'
    rw [((r.clock.passed_pass busy t).same t' hpass).2.2]
    exact h.handlers t ht

/-- The timer of a handler that was started is not live. -/
theorem Live.dead_of_start (h : Live v r) {ptr u : ℕ} (hptr : r.retransmit = some ptr)
    (hstart : .start ptr u ∈ r.clock.log) : r.Dead := by
  intro t ht
  by_contra hc
  have hlive : t.cancelled = false := Bool.not_eq_true _ ▸ hc
  obtain rfl : ptr = t.ptr := Option.some.inj (hptr.symm.trans (h.mine t ht hlive))
  obtain ⟨d, u', hhist, -⟩ := (h.sound.known t ht).live hlive
  have hmem : .start t.ptr u ∈ r.clock.history t.ptr :=
    List.mem_filter.mpr ⟨hstart, decide_eq_true rfl⟩
  rw [hhist] at hmem
  exact Entry.noConfusion (List.mem_singleton.mp hmem)

/-- Live timers are the one in `tsk->retransmit`. -/
theorem Live.length_le (h : Live v r) :
    (r.clock.timers.filter fun t => !t.cancelled).length ≤ 1 := by
  have hsub : ((r.clock.timers.filter fun t => !t.cancelled).map Timers.Timer.ptr).Nodup :=
    h.sound.nodup.sublist (List.filter_sublist.map _)
  have hall : ∀ ptr ∈ (r.clock.timers.filter fun t => !t.cancelled).map Timers.Timer.ptr,
      r.retransmit = some ptr := by
    intro ptr hptr
    obtain ⟨t, ht, rfl⟩ := List.mem_map.mp hptr
    obtain ⟨hmem, hlive⟩ := List.mem_filter.mp ht
    exact h.mine t hmem (by simpa using hlive)
  rw [← List.length_map (f := Timers.Timer.ptr)]
  generalize (r.clock.timers.filter fun t => !t.cancelled).map Timers.Timer.ptr = ptrs at hsub hall
  rcases ptrs with _ | ⟨a, _ | ⟨b, ptrs⟩⟩
  · exact Nat.zero_le _
  · exact le_rfl
  · have hab : a = b := Option.some.inj ((hall a (by simp)).symm.trans (hall b (by simp)))
    simp [hab] at hsub

end Clock

namespace RtoWorld

variable {env : Env} {w : RtoWorld}

/-- The invariant: the timers are what the socket needs, and every thread was started. -/
structure Good (w : RtoWorld) : Prop where
  live : Live w.sock.rtv w.slot
  threads : ∀ th ∈ w.threads, th.2.isRto ∧ ∃ u, .start th.1 u ∈ w.slot.clock.log

theorem good_init : init.Good := by
  have hkept : ∀ ptr, init.slot.retransmit = some ptr →
      ptr < init.slot.clock.next ∧ .cancel ptr ∉ init.slot.clock.log :=
    fun ptr h => absurd h (Option.some_ne_none _).symm
  have hlive : Live init.sock.rtv init.slot :=
    ⟨le_rfl, fun h => absurd rfl h, iff_of_true rfl rfl, Clock.sound_init,
      fun _ h => absurd h List.not_mem_nil, hkept, fun _ h => absurd h List.not_mem_nil⟩
  exact ⟨hlive, fun _ h => absurd h List.not_mem_nil⟩

/-- What happens under the lock. -/
theorem Good.become (h : w.Good) {s : TcpSock} (hs : Traced w.sock.rtoCalls w.slot s.rtv) :
    (w.become s).Good := by
  obtain ⟨cs, hcs, hlive⟩ := hs
  have hslot : (w.become s).slot = cs.foldl RtoSlot.call w.slot := by
    have hdrop : s.rtoCalls.drop w.sock.rtoCalls.length = cs := by
      rw [show s.rtoCalls = w.sock.rtoCalls ++ cs from hcs, List.drop_left]
    rw [RtoWorld.become, hdrop]
  refine ⟨?_, fun th hth => ?_⟩
  · rw [hslot]
    exact hlive
  · obtain ⟨hrto, u, hu⟩ := h.threads th hth
    refine ⟨hrto, u, ?_⟩
    rw [hslot]
    exact log_subset_calls cs w.slot hu

/-- **One event**, when a handler is on time. -/
theorem Good.step (h : w.Good) {e : RtoEvent} (he : w.OnTime e) : (w.step env e).Good := by
  cases e with
  | advance => exact ⟨h.live.advance, h.threads⟩
  | tick busy =>
    refine ⟨h.live.timersTick busy, fun th hth => ?_⟩
    rcases List.mem_append.mp hth with hold | hnew
    · obtain ⟨hrto, u, hu⟩ := h.threads th hold
      exact ⟨hrto, u, List.mem_append_left _ hu⟩
    · obtain ⟨t, ht, rfl⟩ := List.mem_map.mp hnew
      obtain ⟨hmem, hfire⟩ := List.mem_filter.mp ht
      obtain ⟨hbusy, hdue⟩ := (Bool.and_eq_true _ _).mp hfire
      refine ⟨h.live.handlers t hmem, w.slot.clock.uptime, List.mem_append_right _ ?_⟩
      exact List.mem_flatMap.mpr ⟨t, hmem, start_mem_pass (by simpa using hbusy) hdue⟩
  | socket e =>
    simp only [RtoWorld.step]
    split
    · next hlock =>
      refine h.become (h.live.tcpStep env fun handler heq => ?_)
      rw [heq] at hlock
      simpa [TcpEvent.locked] using hlock
    · exact h
  | handle i =>
    simp only [RtoWorld.step]
    split
    · exact h
    · next th hth =>
      obtain ⟨hrto, u, hu⟩ := h.threads th (List.mem_of_getElem? hth)
      have hrun : Traced w.sock.rtoCalls w.slot (th.2.run env w.sock).rtv := by
        rcases he th hth with hptr | ⟨hnone, hidle⟩
        · refine h.live.handler env (h.live.dead_of_start hptr hu) hrto (.inl fun harmed => ?_)
          exact absurd (h.live.agree.mp harmed) (hptr ▸ Option.some_ne_none _)
        · exact h.live.handler env (h.live.dead (h.live.agree.mpr hnone)) hrto (.inr hidle)
      have hgood := h.become hrun
      exact ⟨hgood.live, fun th' hth' => hgood.threads th' (List.mem_of_mem_eraseIdx hth')⟩

/-- A handler that was cancelled does nothing, when it is on time. -/
theorem Good.tame (h : w.Good) {e : RtoEvent} (he : w.OnTime e) : w.Tame env e := by
  cases e with
  | handle i =>
    intro th hth hcancel
    rcases he th hth with hptr | ⟨-, hidle⟩
    · exact absurd hcancel (h.live.kept th.1 hptr).2
    · exact run_of_idle env hidle
  | _ => trivial

theorem RunOnTime.append {pre post : List RtoEvent} (h : w.RunOnTime env (pre ++ post)) :
    w.RunOnTime env pre ∧ (pre.foldl (step env) w).RunOnTime env post := by
  induction pre generalizing w with
  | nil => exact ⟨trivial, h⟩
  | cons e pre ih => exact ⟨⟨h.1, (ih h.2).1⟩, (ih h.2).2⟩

theorem Good.run (h : w.Good) {events : List RtoEvent} (hrun : w.RunOnTime env events) :
    (events.foldl (RtoWorld.step env) w).Good := by
  induction events generalizing w with
  | nil => exact h
  | cons e events ih => exact ih (h.step hrun.1) hrun.2

end RtoWorld

/-- **One live retransmission timer** in every state of a run in which the handlers are on time, and
no handler of it does anything after its timer was cancelled. -/
theorem oneLive_run (env : Env) (events : List RtoEvent)
    (h : RtoWorld.init.RunOnTime env events) :
    (∀ pre post, events = pre ++ post → (pre.foldl (RtoWorld.step env) .init).OneLive) ∧
      ∀ pre e post, events = pre ++ e :: post → (pre.foldl (RtoWorld.step env) .init).Tame env e := by
  constructor
  · rintro pre post rfl
    exact (RtoWorld.good_init.run h.append.1).live.length_le
  · rintro pre e post rfl
    exact (RtoWorld.good_init.run h.append.1).tame h.append.2.1

/-- The timer of the SYN expires, and its handler runs. -/
def synExpires : List RtoEvent :=
  .socket (.connect 1000) :: List.replicate 51 .advance ++ [.tick fun _ => false, .handle 0]

theorem oneLive_synExpires :
    (∀ pre post, synExpires = pre ++ post →
        (pre.foldl (RtoWorld.step quietLink) .init).OneLive) ∧
      (∀ pre e post, synExpires = pre ++ e :: post →
        (pre.foldl (RtoWorld.step quietLink) .init).Tame quietLink e) ∧
      (synExpires.foldl (RtoWorld.step quietLink) .init).slot.retransmit = some 1 :=
  have hrun := oneLive_run quietLink synExpires (by decide +kernel)
  ⟨hrun.1, hrun.2, by decide +kernel⟩

/-- The timer of a byte expires; before its handler gets the lock the byte is acknowledged, and
another one written. -/
def lateHandler : List RtoEvent :=
  [.socket (.connect 1000), .socket (.arrive (bareSegment true 5000 (some 1001))),
    .socket (.write [1])] ++ List.replicate 101 .advance ++
    [.tick fun _ => false, .socket (.arrive (bareSegment false 5001 (some 1002))),
      .socket (.write [2])]

/-- **A late handler** gives back the timer that was added after its own and adds another one: two
timers are live. Its own timer was cancelled, and yet it retransmits and doubles `rto`. -/
theorem not_oneLive_late :
    let w := lateHandler.foldl (RtoWorld.step quietLink) .init
    ¬ (w.step quietLink (.handle 0)).OneLive ∧ ¬ w.Tame quietLink (.handle 0) ∧
      (w.step quietLink (.handle 0)).sock.rto = 2 * w.sock.rto ∧
      (w.step quietLink (.handle 0)).sock.out.length = w.sock.out.length + 1 := by
  intro w
  refine ⟨by decide +kernel, fun h => ?_, by decide +kernel, by decide +kernel⟩
  have hth : w.threads[0]? = some (1, .tcpRetransmissionTimeout) := by decide +kernel
  have hsame := (h _ hth (by decide +kernel)).2
  exact absurd hsame (by decide +kernel)

end LvlIp.Tcp
