import LvlIp.Tcp.Api

/-!
# The life of a socket

Everything that can happen to a socket, and what the stack does then: the calls of its user
(`inet_stream_connect` of `src/inet.c`, and those of `LvlIp.Tcp.Api`), the arrival of segments, and
the expiry of the timers that are running. A run is a list of events.
-/

namespace LvlIp.Tcp

/-- `-EINPROGRESS`. -/
def eInprogress : ℤ := -115

/-- `-EISCONN`. -/
def eIsconn : ℤ := -106

/-- `inet_stream_connect`, up to its sleep, on a `struct socket` in `SS_UNCONNECTED`; `iss` is what
`generate_iss` returns. The state of the `struct socket` is not part of `struct tcp_sock`: where it is
no longer `SS_UNCONNECTED` the code leaves the connection alone and only `err` becomes `-EALREADY` or
`-EISCONN`. `LvlIp.Sockets.inetStreamConnect` has the whole function. -/
def inetStreamConnect (env : Env) (s : TcpSock) (iss : UInt32) : TcpSock :=
  if s.state ≠ .close then { s with err := eIsconn }
  else { tcpConnect env s iss with err := eInprogress }

/-- `tcp_abort`. -/
def tcpAbort (env : Env) (s : TcpSock) : TcpSock := tcpDone (tcpSendReset env s)

/-- What a timer does when it expires: `tcp_linger` and `tcp_user_timeout` end the connection. -/
def TimerHandler.run (env : Env) (s : TcpSock) : TimerHandler → TcpSock
  | .tcpConnectRto => Tcp.tcpConnectRto env s
  | .tcpRetransmissionTimeout => Tcp.tcpRetransmissionTimeout env s
  | .tcpSendDelack => Tcp.tcpSendDelack env s
  | .tcpLinger => tcpDone { s with linger := none }
  | .tcpUserTimeout => tcpAbort env { s with linger := none }

/-- The timers of a socket that are running. -/
def TcpSock.timers (s : TcpSock) : List TimerHandler :=
  ([s.retransmit, s.delack, s.linger].filterMap id).map Timer.handler

/-- What can happen to a socket. -/
inductive TcpEvent
  | connect (iss : UInt32)
  | arrive (seg : Segment)
  | write (buf : List UInt8)
  | read (len : ℕ)
  | wake (reader : Reader)
  | close
  | abort
  | timer (handler : TimerHandler)
  | tick (ms : ℕ)

/-- One event. A timer only expires while it runs, and its handler gets the lock of the socket at
once. -/
def tcpStep (env : Env) (s : TcpSock) : TcpEvent → TcpSock
  | .connect iss => inetStreamConnect env s iss
  | .arrive seg => tcpIn env s seg
  | .write buf => (tcpWrite env s buf).1
  | .read len => (tcpRead s len).1
  | .wake reader => (tcpReceiveStep s reader).1
  | .close => tcpClose env s
  | .abort => tcpAbort env s
  | .timer handler => if handler ∈ s.timers then handler.run env s else s
  | .tick ms => { s with tick := s.tick + ms }

/-- What can happen when the threads of timers are late: `timers_tick` starts a thread for the handler
of a timer that expires, and the thread may wait for the lock of the socket while other things happen,
also while the timers of the socket are stopped. -/
inductive ThreadEvent
  | event (e : TcpEvent)
  /-- The thread of a timer that has expired before gets the lock. -/
  | late (handler : TimerHandler)

/-- One event. No handler looks whether its timer is still that of the socket. -/
def threadStep (env : Env) (s : TcpSock) : ThreadEvent → TcpSock
  | .event e => tcpStep env s e
  | .late handler => handler.run env s

/-- The condition `C` holds at every event of a run with late threads. -/
def ThreadSat (env : Env) (C : TcpSock → ThreadEvent → Prop) : TcpSock → List ThreadEvent → Prop
  | _, [] => True
  | s, e :: es => C s e ∧ ThreadSat env C (threadStep env s e) es

/-- The condition `C` holds at every event of a run, of the socket just before it. -/
def RunSat (env : Env) (C : TcpSock → TcpEvent → Prop) : TcpSock → List TcpEvent → Prop
  | _, [] => True
  | s, e :: es => C s e ∧ RunSat env C (tcpStep env s e) es

instance RunSat.decidable (env : Env) (C : TcpSock → TcpEvent → Prop) [∀ s e, Decidable (C s e)] :
    ∀ s events, Decidable (RunSat env C s events)
  | _, [] => .isTrue trivial
  | s, e :: es =>
    have := RunSat.decidable env C (tcpStep env s e) es
    inferInstanceAs (Decidable (C s e ∧ RunSat env C (tcpStep env s e) es))

/-- A condition on a run is one on each of its events. -/
theorem runSat_iff {env : Env} {C : TcpSock → TcpEvent → Prop} {s : TcpSock}
    {events : List TcpEvent} : RunSat env C s events ↔
      ∀ pre e post, events = pre ++ e :: post → C (pre.foldl (tcpStep env) s) e := by
  induction events generalizing s with
  | nil => exact iff_of_true trivial fun pre e post h => absurd h (by simp)
  | cons e es ih =>
    unfold RunSat
    rw [ih]
    constructor
    · rintro ⟨he, hes⟩ pre e' post heq
      rcases List.cons_eq_append_iff.mp heq with ⟨rfl, hcons⟩ | ⟨pre', rfl, hrest⟩
      · rw [List.cons.injEq] at hcons
        rw [hcons.1]
        exact he
      · exact hes pre' e' post hrest
    · intro h
      refine ⟨h [] e es rfl, fun pre e' post heq => ?_⟩
      exact h (e :: pre) e' post (congrArg (e :: ·) heq)

/-- **Two conditions that agree wherever an invariant holds** agree along every run, when the
invariant holds at the start and is kept by the events that meet the second one. -/
theorem RunSat.iff_of_inv {env : Env} {I : TcpSock → Prop} {H P Q : TcpSock → TcpEvent → Prop}
    (hiff : ∀ s e, I s → H s e → (P s e ↔ Q s e))
    (hstep : ∀ s e, I s → H s e → Q s e → I (tcpStep env s e)) {s : TcpSock} (hs : I s)
    {events : List TcpEvent} (hrun : RunSat env H s events) :
    RunSat env P s events ↔ RunSat env Q s events := by
  induction events generalizing s with
  | nil => exact Iff.rfl
  | cons e es ih =>
    obtain ⟨he, hes⟩ := hrun
    unfold RunSat
    rw [hiff s e hs he]
    exact and_congr_right fun hq => ih (hstep s e hs he hq) hes

end LvlIp.Tcp
