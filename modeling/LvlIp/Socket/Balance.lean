import LvlIp.Ipc.Daemon
import LvlIp.Tcp.Events

/-!
# Taking and giving back a socket

The calls of `src/socket.c` on a socket: each takes its lock and a reference to it
(`socket_wr_acquire`, `socket_rd_acquire`) and gives both back (`socket_release`). A blocking
`connect` (`inet_stream_connect` of `src/inet.c`) and a blocking `read` (`tcp_receive` of
`src/tcp_input.c`) give the socket back while they sleep. What the other threads do meanwhile is
arbitrary, except that it leaves the reference counts as they were.

Every call gives back what it took, and never takes what it has, but one: a blocking `connect` takes
the socket once more when it has stopped sleeping (`balanced_iff`).
-/

namespace LvlIp.Sockets

open Tcp Ipc

/-! ## Sockets -/

/-- `enum socket_state`. -/
inductive SocketState
  | free
  | unconnected
  | connecting
  | connected
  | disconnecting
deriving DecidableEq

/-- `struct socket` and its `struct sock`, but for the reference count. -/
structure Socket where
  state : SocketState
  flags : UInt32
  sk : TcpSock
  pollEvents : Int16
  /-- `sk->dport` and `sk->daddr`. -/
  peer : UInt16 × UInt32
  /-- `sk->sport` and `sk->saddr`. -/
  name : UInt16 × UInt32

/-- `O_NONBLOCK`. -/
def oNonblock : UInt32 := 0x800

/-- The TCP socket, which looks at the flags. -/
def Socket.tcp (sock : Socket) : TcpSock := { sock.sk with nonblock := sock.flags &&& oNonblock ≠ 0 }

/-- The functions that touch the lock and the reference count of a socket. -/
inductive LockOp
  | rdAcquire
  | wrAcquire
  | release
deriving DecidableEq

/-- The sockets of the stack, and what the call under way has done to their locks. -/
structure Table where
  sockets : Int32 → Socket
  refcnt : Int32 → ℤ
  /-- The memory of the socket has been freed. -/
  freed : Int32 → Bool
  /-- The socket is in the list. -/
  listed : Int32 → Bool
  trace : List (Int32 × LockOp)

namespace Table

/-- The lock of a socket is taken for writing, and a reference to it. Nobody looks at what
`pthread_rwlock_wrlock` returns. -/
def acquire (st : Table) (fd : Int32) (op : LockOp) : Table :=
  { st with
    refcnt := Function.update st.refcnt fd (st.refcnt fd + 1)
    trace := st.trace ++ [(fd, op)] }

/-- `socket_rd_acquire`. -/
def socketRdAcquire (st : Table) (fd : Int32) : Table := st.acquire fd .rdAcquire

/-- `socket_wr_acquire`. -/
def socketWrAcquire (st : Table) (fd : Int32) : Table := st.acquire fd .wrAcquire

/-- `socket_release`. -/
def socketRelease (st : Table) (fd : Int32) : Table :=
  { st with
    refcnt := Function.update st.refcnt fd (st.refcnt fd - 1)
    freed := Function.update st.freed fd (st.freed fd || st.refcnt fd - 1 = 0)
    trace := st.trace ++ [(fd, .release)] }

/-- A write to a socket. -/
def modify (st : Table) (fd : Int32) (f : Socket → Socket) : Table :=
  { st with sockets := Function.update st.sockets fd (f (st.sockets fd)) }

/-- `sk->err` is set. -/
def setErr (st : Table) (fd : Int32) (err : ℤ) : Table :=
  st.modify fd fun sock => { sock with sk.err := err }

/-- The TCP socket is changed. -/
def setSk (st : Table) (fd : Int32) (sk : TcpSock) : Table :=
  st.modify fd fun sock => { sock with sk }

/-- `socket_free`, with `inet_free`. -/
def socketFree (st : Table) (fd : Int32) : Table :=
  let st := st.socketWrAcquire fd
  let st := { st with listed := Function.update st.listed fd false }
  let st := st.modify fd fun sock => { sock with sk.receiveQueue := [], sk.writeQueue := [] }
  st.socketRelease fd

end Table

/-- What the other threads have done while a call did not hold the lock. -/
structure Meanwhile where
  sockets : Int32 → Socket
  listed : Int32 → Bool

def Table.meanwhile (st : Table) (m : Meanwhile) : Table :=
  { st with sockets := m.sockets, listed := m.listed }

/-- What a call meets on its way: what is done each time it sleeps, and, for `_poll`, before each
socket it looks at, round by round. -/
structure Path where
  sleeps : List Meanwhile
  rounds : List (List Meanwhile)

/-! ## Connecting -/

/-- The arguments of a `connect`, with the port and the initial sequence number it will use. -/
structure ConnectArgs where
  family : UInt16
  port : UInt16
  addr : UInt32
  addrLen : ℤ
  sport : UInt16
  iss : UInt32

/-- `-EINVAL`. -/
def eInval : ℤ := -22

/-- `-EAFNOSUPPORT`. -/
def eAfnosupport : ℤ := -97

/-- `-EALREADY`. -/
def eAlready : ℤ := -114

/-- The address is one that can be connected to. -/
def ConnectArgs.Valid (args : ConnectArgs) : Prop :=
  ¬ (0 ≤ args.addrLen ∧ args.addrLen < 2) ∧ args.family ≠ 0

instance (args : ConnectArgs) : Decidable args.Valid := inferInstanceAs (Decidable (_ ∧ _))

/-- `sk->ops->connect`, and what `inet_stream_connect` writes after it. -/
def Socket.connect (env : Env) (sock : Socket) (args : ConnectArgs) : Socket :=
  { sock with
    state := .connecting
    sk := { tcpConnect env sock.sk args.iss with err := eInprogress }
    peer := (args.port, args.addr)
    name := (args.sport, 0x0A000005) }

/-- The sleep of `inet_stream_connect`. -/
def connectLoop (fd : Int32) : List Meanwhile → Table → Option Table
  | [], st =>
    if (st.sockets fd).state = .connecting ∧ (st.sockets fd).sk.err = eInprogress then none
    else some st
  | m :: others, st =>
    if (st.sockets fd).state = .connecting ∧ (st.sockets fd).sk.err = eInprogress then
      connectLoop fd others (((st.socketRelease fd).meanwhile m).socketWrAcquire fd)
    else some st

/-- `inet_stream_connect` past its sleep. -/
def connectWoken (fd : Int32) (st : Table) : Table × ℤ :=
  let st := st.socketWrAcquire fd
  let err := (st.sockets fd).sk.err
  if err = eTimedout ∨ err = eConnrefused then (st, err)
  else if err ≠ 0 then (st, err)
  else (st.modify fd fun sock => { sock with state := .connected }, err)

/-- `inet_stream_connect`. -/
def inetStreamConnect (env : Env) (fd : Int32) (args : ConnectArgs) (others : List Meanwhile)
    (st : Table) : Option (Table × ℤ) :=
  if 0 ≤ args.addrLen ∧ args.addrLen < 2 then some (st, eInval)
  else if args.family = 0 then some (st, eAfnosupport)
  else
    match (st.sockets fd).state with
    | .connected => some (st.setErr fd eIsconn, eIsconn)
    | .connecting => some (st.setErr fd eAlready, eAlready)
    | .unconnected =>
      if (st.sockets fd).sk.state ≠ .close then some (st.setErr fd eIsconn, eIsconn)
      else
        let st := st.modify fd (·.connect env args)
        if (st.sockets fd).flags &&& oNonblock ≠ 0 then some (st, eInprogress)
        else (connectLoop fd others st).map (connectWoken fd)
    | .free => some (st.setErr fd eInval, eInval)
    | .disconnecting => some (st.setErr fd eInval, eInval)

/-- The end of `_connect`: some errors destroy the socket. -/
def connectDone (fd : Int32) (r : Table × ℤ) : Table × ℤ :=
  if r.2 = eInval ∨ r.2 = eAfnosupport ∨ r.2 = eConnrefused ∨ r.2 = eTimedout then
    ((r.1.socketRelease fd).socketFree fd, r.2)
  else (r.1.socketRelease fd, r.2)

/-- `_connect` on a socket that was found. -/
def connect (env : Env) (fd : Int32) (args : ConnectArgs) (others : List Meanwhile) (st : Table) :
    Option (Table × ℤ) :=
  (inetStreamConnect env fd args others (st.socketWrAcquire fd)).map (connectDone fd)

/-! ## Reading and writing -/

/-- The loop of `tcp_receive`, from the result of an iteration on. -/
def readLoop (fd : Int32) : List Meanwhile → Table → ReadResult → Option (Table × ℤ × List UInt8)
  | _, st, .done ret bytes => some (st, ret, bytes)
  | [], _, .wait _ => none
  | m :: others, st, .wait rd =>
    let st := ((st.socketRelease fd).meanwhile m).socketWrAcquire fd
    let r := tcpReceiveStep (st.sockets fd).tcp rd
    readLoop fd others (st.setSk fd r.1) r.2

/-- `_read` on a socket that was found. -/
def read (fd : Int32) (len : ℕ) (others : List Meanwhile) (st : Table) :
    Option (Table × ℤ × List UInt8) :=
  let st := st.socketWrAcquire fd
  let r := tcpRead (st.sockets fd).tcp len
  (readLoop fd others (st.setSk fd r.1) r.2).map fun r => (r.1.socketRelease fd, r.2)

/-- `_write` on a socket that was found. -/
def write (env : Env) (fd : Int32) (buf : List UInt8) (st : Table) : Table × ℤ :=
  let st := st.socketWrAcquire fd
  let r := tcpWrite env (st.sockets fd).tcp buf
  ((st.setSk fd r.1).socketRelease fd, r.2)

/-! ## Closing -/

/-- `inet_close`: where `tcp_close` ends the connection, `socket_delete` marks the socket. -/
def Socket.close (env : Env) (sock : Socket) : Socket :=
  { sock with
    sk := tcpClose env sock.tcp
    state :=
      match sock.sk.state with
      | .listen | .synSent | .synReceived => .disconnecting
      | _ => sock.state }

/-- What `tcp_close` returns. -/
def Socket.closeRet (sock : Socket) : ℤ :=
  match sock.sk.state with
  | .listen | .synSent | .synReceived | .established | .closeWait => 0
  | _ => -1

/-- `_close` on a socket that was found. -/
def close (env : Env) (fd : Int32) (st : Table) : Table × ℤ :=
  let st := st.socketWrAcquire fd
  let ret := (st.sockets fd).closeRet
  ((st.modify fd (·.close env)).socketRelease fd, ret)

/-! ## Polling -/

/-- A round of `_poll`, with the number of sockets that are ready so far; without a socket it
returns from the call. -/
def pollRound : List Meanwhile → Table → ℕ → List IpcPollfd →
    Option (Table × List IpcPollfd × Option ℕ)
  | _, st, polled, [] => some (st, [], some polled)
  | [], _, _, _ :: _ => none
  | m :: others, st, polled, p :: fds =>
    let st := st.meanwhile m
    if st.listed p.fd = false then some (st, p :: fds, none)
    else
      let st := st.socketRdAcquire p.fd
      let revents := (st.sockets p.fd).pollEvents &&& (p.events ||| pollAlways)
      let st := st.socketRelease p.fd
      (pollRound others st (if revents > 0 then polled + 1 else polled) fds).map fun r =>
        (r.1, { p with revents } :: r.2.1, r.2.2)

/-- What is left of the time after a round of `_poll`. -/
def pollTimeout (timeout : ℤ) : ℤ :=
  if 0 < timeout then if 10 < timeout then timeout - 10 else 0 else timeout

/-- `_poll`. -/
def poll : List (List Meanwhile) → ℤ → Table → List IpcPollfd → Option (Table × List IpcPollfd × ℤ)
  | [], _, _, _ => none
  | others :: rounds, timeout, st, fds =>
    match pollRound others st 0 fds with
    | none => none
    | some (st, fds, none) => some (st, fds, eBadf)
    | some (st, fds, some polled) =>
      if 0 < polled ∨ timeout = 0 then some (st, fds, polled)
      else poll rounds (pollTimeout timeout) st fds

/-! ## The other calls -/

/-- `F_GETFL`. -/
def fGetfl : Int32 := 3

/-- `F_SETFL`. -/
def fSetfl : Int32 := 4

/-- `_fcntl` on a socket that was found. -/
def fcntl (fd cmd : Int32) (arg : UInt32) (st : Table) : Table × ℤ :=
  let st := st.socketWrAcquire fd
  if cmd = fGetfl then (st.socketRelease fd, (st.sockets fd).flags.toNat)
  else if cmd = fSetfl then
    ((st.modify fd fun sock => { sock with flags := arg }).socketRelease fd, 0)
  else (st.socketRelease fd, -1)

/-- `_getsockopt` on a socket that was found: what it returns, and the value of the option. -/
def getsockopt (fd level optname : Int32) (st : Table) : Table × ℤ × Option ℤ :=
  let st := st.socketRdAcquire fd
  if level = solSocket then
    if optname = soError then (st.socketRelease fd, 0, some (st.sockets fd).sk.err)
    else (st.socketRelease fd, -enoprotoopt.toInt, none)
  else (st.socketRelease fd, eInval, none)

/-- `_getpeername` on a socket that was found. -/
def getpeername (fd : Int32) (st : Table) : Table × UInt16 × UInt32 :=
  let st := st.socketRdAcquire fd
  (st.socketRelease fd, (st.sockets fd).peer)

/-- `_getsockname` on a socket that was found. -/
def getsockname (fd : Int32) (st : Table) : Table × UInt16 × UInt32 :=
  let st := st.socketRdAcquire fd
  (st.socketRelease fd, (st.sockets fd).name)

/-- The calls. -/
inductive ApiCall
  | connect (fd : Int32) (args : ConnectArgs)
  | write (fd : Int32) (buf : List UInt8)
  | read (fd : Int32) (len : ℕ)
  | close (fd : Int32)
  | poll (fds : List IpcPollfd) (timeout : ℤ)
  | fcntl (fd cmd : Int32) (arg : UInt32)
  | getsockopt (fd level optname : Int32)
  | getpeername (fd : Int32)
  | getsockname (fd : Int32)

/-- The socket that a call looks up when it begins. -/
def ApiCall.target : ApiCall → Option Int32
  | .connect fd _ => some fd
  | .write fd _ => some fd
  | .read fd _ => some fd
  | .close fd => some fd
  | .poll _ _ => none
  | .fcntl fd _ _ => some fd
  | .getsockopt fd _ _ => some fd
  | .getpeername fd => some fd
  | .getsockname fd => some fd

/-- What a call does once it has found its socket: the sockets when it has returned, if it does on
this path. -/
def ApiCall.body (env : Env) (path : Path) (st : Table) : ApiCall → Option Table
  | .connect fd args => (Sockets.connect env fd args path.sleeps st).map Prod.fst
  | .write fd buf => some (Sockets.write env fd buf st).1
  | .read fd len => (Sockets.read fd len path.sleeps st).map Prod.fst
  | .close fd => some (Sockets.close env fd st).1
  | .poll fds timeout => (Sockets.poll path.rounds timeout st fds).map Prod.fst
  | .fcntl fd cmd arg => some (Sockets.fcntl fd cmd arg st).1
  | .getsockopt fd level optname => some (Sockets.getsockopt fd level optname st).1
  | .getpeername fd => some (Sockets.getpeername fd st).1
  | .getsockname fd => some (Sockets.getsockname fd st).1

/-- A call, `get_socket` on. -/
def ApiCall.run (env : Env) (path : Path) (st : Table) (call : ApiCall) : Option Table :=
  let st := { st with trace := [] }
  if ∃ fd ∈ call.target, st.listed fd = false then some st else call.body env path st

/-! ## Balance -/

/-- How often a socket was taken. -/
def acquires (fd : Int32) (trace : List (Int32 × LockOp)) : ℕ :=
  trace.countP fun o => o.1 = fd ∧ o.2 ≠ .release

/-- How often a socket was given back. -/
def releases (fd : Int32) (trace : List (Int32 × LockOp)) : ℕ :=
  trace.countP fun o => o.1 = fd ∧ o.2 = .release

/-- No socket is taken by a call that has it. -/
def Once (trace : List (Int32 × LockOp)) : Prop :=
  ∀ pre fd op post, trace = pre ++ (fd, op) :: post → op ≠ .release →
    acquires fd pre = releases fd pre

/-- A call gives back what it took, does not take what it has, and leaves the reference counts. -/
structure Balanced (st st' : Table) : Prop where
  calls : ∀ fd, acquires fd st'.trace = releases fd st'.trace
  once : Once st'.trace
  refcnt : ∀ fd, st'.refcnt fd = st.refcnt fd

/-- `inet_stream_connect` gets to its sleep. -/
def Socket.Sleeps (sock : Socket) (args : ConnectArgs) : Prop :=
  args.Valid ∧ sock.state = .unconnected ∧ sock.sk.state = .close ∧ sock.flags &&& oNonblock = 0

/-- A blocking `connect` of a socket that is there, was not connected, and gets a valid address. -/
def ApiCall.SleepsToConnect (st : Table) : ApiCall → Prop
  | .connect fd args => st.listed fd = true ∧ (st.sockets fd).Sleeps args
  | _ => False

section Count

variable {fd x : Int32} {op : LockOp} {trace : List (Int32 × LockOp)}

theorem acquires_concat : acquires x (trace ++ [(fd, op)]) =
    acquires x trace + if fd = x ∧ op ≠ .release then 1 else 0 := by
  rw [acquires, acquires, List.countP_append, List.countP_singleton]
  simp only [decide_eq_true_eq]

theorem releases_concat : releases x (trace ++ [(fd, op)]) =
    releases x trace + if fd = x ∧ op = .release then 1 else 0 := by
  rw [releases, releases, List.countP_append, List.countP_singleton]
  simp only [decide_eq_true_eq]

theorem once_concat : Once (trace ++ [(fd, op)]) ↔
    Once trace ∧ (op ≠ .release → acquires fd trace = releases fd trace) := by
  constructor
  · intro h
    refine ⟨fun pre x op' post heq => h pre x op' (post ++ [(fd, op)]) ?_, h trace fd op [] rfl⟩
    rw [heq, List.append_assoc, List.cons_append]
  · rintro ⟨htrace, hlast⟩ pre x op' post heq
    rcases List.eq_nil_or_concat post with rfl | ⟨post, last, rfl⟩
    · obtain ⟨rfl, hend⟩ := List.append_inj' heq rfl
      obtain ⟨rfl, rfl⟩ := Prod.mk.inj (List.singleton_inj.mp hend)
      exact hlast
    · rw [List.concat_eq_append, ← List.cons_append, ← List.append_assoc] at heq
      exact htrace pre x op' post (List.append_inj' heq rfl).1

end Count

/-- The call has taken `fd` as often as it has given it back, and `n` times more, and no other
socket. -/
structure Held (st₀ st : Table) (fd : Int32) (n : ℕ) : Prop where
  calls : ∀ x, acquires x st.trace = releases x st.trace + if fd = x then n else 0
  refcnt : ∀ x, st.refcnt x = st₀.refcnt x + if fd = x then (n : ℤ) else 0

namespace Held

variable {st₀ st : Table} {fd : Int32} {n : ℕ}

/-- A socket is taken. -/
theorem acquire (h : Held st₀ st fd n) {op : LockOp} (hop : op ≠ .release) :
    Held st₀ (st.acquire fd op) fd (n + 1) where
  calls x := by
    rw [Table.acquire, acquires_concat, releases_concat, h.calls]
    by_cases hx : fd = x
    · simp only [hx, hop, if_true, true_and, ne_eq, not_false_eq_true, if_false]
      ring
    · simp only [hx, false_and, if_false]
  refcnt x := by
    rw [Table.acquire]
    by_cases hx : fd = x
    · subst hx
      simp only [Function.update_self, h.refcnt, if_true]
      push_cast
      ring
    · simp only [Function.update_of_ne (Ne.symm hx), h.refcnt, hx, if_false]

/-- A socket is given back. -/
theorem release (h : Held st₀ st fd (n + 1)) : Held st₀ (st.socketRelease fd) fd n where
  calls x := by
    rw [Table.socketRelease, acquires_concat, releases_concat, h.calls]
    by_cases hx : fd = x
    · simp only [hx, if_true, true_and, ne_eq, not_true_eq_false, and_false, if_false]
      ring
    · simp only [hx, false_and, if_false]
  refcnt x := by
    rw [Table.socketRelease]
    by_cases hx : fd = x
    · subst hx
      simp only [Function.update_self, h.refcnt, if_true]
      push_cast
      ring
    · simp only [Function.update_of_ne (Ne.symm hx), h.refcnt, hx, if_false]

/-- Only the lock and the reference count matter. -/
theorem congr (h : Held st₀ st fd n) {st' : Table} (htrace : st'.trace = st.trace)
    (hrefcnt : st'.refcnt = st.refcnt) : Held st₀ st' fd n :=
  ⟨htrace ▸ h.calls, hrefcnt ▸ h.refcnt⟩

/-- Without a socket it does not matter which one the call is about. -/
theorem other (h : Held st₀ st fd 0) (x : Int32) : Held st₀ st x 0 :=
  ⟨by simpa using h.calls, by simpa using h.refcnt⟩

/-- **The sleep of a `connect`** leaves what the call has. -/
theorem connectLoop {others : List Meanwhile} (h : Held st₀ st fd 1) {st' : Table}
    (hst : connectLoop fd others st = some st') : Held st₀ st' fd 1 := by
  induction others generalizing st with
  | nil =>
    unfold Sockets.connectLoop at hst
    by_cases hsleep : (st.sockets fd).state = .connecting ∧ (st.sockets fd).sk.err = eInprogress
    · rw [if_pos hsleep] at hst
      exact absurd hst (Option.some_ne_none _).symm
    · rw [if_neg hsleep] at hst
      exact Option.some.inj hst ▸ h
  | cons m others ih =>
    unfold Sockets.connectLoop at hst
    by_cases hsleep : (st.sockets fd).state = .connecting ∧ (st.sockets fd).sk.err = eInprogress
    · rw [if_pos hsleep] at hst
      have hasleep : Held st₀ ((st.socketRelease fd).meanwhile m) fd 0 := h.release.congr rfl rfl
      exact ih (hasleep.acquire (by decide)) hst
    · rw [if_neg hsleep] at hst
      exact Option.some.inj hst ▸ h

/-- A socket is freed by a call that may have it. -/
theorem socketFree (h : Held st₀ st fd n) : Held st₀ (st.socketFree fd) fd n := by
  unfold Table.socketFree
  apply Held.release
  have htaken : Held st₀ (st.socketWrAcquire fd) fd (n + 1) := h.acquire (by decide)
  exact htaken.congr rfl rfl

/-- **The end of a `connect`** gives back one reference. -/
theorem connectDone (r : Table × ℤ) (h : Held st₀ r.1 fd (n + 1)) :
    Held st₀ (connectDone fd r).1 fd n := by
  unfold Sockets.connectDone
  split
  · exact h.release.socketFree
  · exact h.release

end Held

/-- The call has one reference more than it has given back, or none, and did nothing wrong so far. -/
structure Fair (st₀ st : Table) (fd : Int32) (n : ℕ) : Prop extends Held st₀ st fd n where
  once : Once st.trace

namespace Fair

variable {st₀ st : Table} {fd : Int32} {n : ℕ}

theorem acquire (h : Fair st₀ st fd 0) {op : LockOp} (hop : op ≠ .release) :
    Fair st₀ (st.acquire fd op) fd 1 := by
  refine ⟨h.toHeld.acquire hop, once_concat.mpr ⟨h.once, fun _ => ?_⟩⟩
  simpa using h.calls fd

theorem release (h : Fair st₀ st fd 1) : Fair st₀ (st.socketRelease fd) fd 0 :=
  ⟨h.toHeld.release, once_concat.mpr ⟨h.once, fun hop => absurd rfl hop⟩⟩

theorem congr (h : Fair st₀ st fd n) {st' : Table} (htrace : st'.trace = st.trace)
    (hrefcnt : st'.refcnt = st.refcnt) : Fair st₀ st' fd n :=
  ⟨h.toHeld.congr htrace hrefcnt, htrace ▸ h.once⟩

theorem other (h : Fair st₀ st fd 0) (x : Int32) : Fair st₀ st x 0 := ⟨h.toHeld.other x, h.once⟩

theorem balanced (h : Fair st₀ st fd 0) : Balanced st₀ st :=
  ⟨by simpa using h.calls, h.once, by simpa using h.refcnt⟩

/-- A call starts with nothing. -/
theorem start (st : Table) (fd : Int32) : Fair st { st with trace := [] } fd 0 :=
  ⟨⟨fun _ => by simp [acquires, releases], fun _ => by simp⟩, fun _ _ _ _ h => absurd h (by simp)⟩

/-- **The sleeps of a `read`** leave what the call has. -/
theorem readLoop {others : List Meanwhile} {rd : ReadResult} (h : Fair st₀ st fd 1)
    {r : Table × ℤ × List UInt8} (hr : readLoop fd others st rd = some r) :
    Fair st₀ r.1 fd 1 := by
  induction others generalizing st rd with
  | nil =>
    cases rd with
    | done ret bytes => exact Option.some.inj hr ▸ h
    | wait rd => exact absurd hr (Option.some_ne_none _).symm
  | cons m others ih =>
    cases rd with
    | done ret bytes => exact Option.some.inj hr ▸ h
    | wait rd =>
      have hasleep : Fair st₀ ((st.socketRelease fd).meanwhile m) fd 0 := h.release.congr rfl rfl
      have hawake : Fair st₀ (((st.socketRelease fd).meanwhile m).socketWrAcquire fd) fd 1 :=
        hasleep.acquire (by decide)
      refine ih ?_ hr
      exact hawake.congr rfl rfl

/-- **A round of `_poll`** takes the sockets one after the other. -/
theorem pollRound {others : List Meanwhile} {polled : ℕ} {fds : List IpcPollfd}
    (h : Fair st₀ st fd 0) {r : Table × List IpcPollfd × Option ℕ}
    (hr : pollRound others st polled fds = some r) : Fair st₀ r.1 fd 0 := by
  induction fds generalizing others st polled r with
  | nil =>
    cases others with
    | nil => exact Option.some.inj hr ▸ h
    | cons m others => exact Option.some.inj hr ▸ h
  | cons p fds ih =>
    cases others with
    | nil => exact absurd hr (Option.some_ne_none _).symm
    | cons m others =>
      have hnow : Fair st₀ (st.meanwhile m) p.fd 0 := (h.other p.fd).congr rfl rfl
      unfold Sockets.pollRound at hr
      dsimp only at hr
      split at hr
      · rw [← Option.some.inj hr]
        exact hnow.other fd
      · obtain ⟨r', hr', rfl⟩ := Option.map_eq_some_iff.mp hr
        have hlooked : Fair st₀ ((st.meanwhile m).socketRdAcquire p.fd) p.fd 1 :=
          hnow.acquire (by decide)
        have hrest : Fair st₀ r'.1 fd 0 := ih (hlooked.release.other fd) hr'
        exact hrest

/-- **The rounds of `_poll`**. -/
theorem poll {rounds : List (List Meanwhile)} {timeout : ℤ} {fds : List IpcPollfd}
    (h : Fair st₀ st fd 0) {r : Table × List IpcPollfd × ℤ}
    (hr : poll rounds timeout st fds = some r) : Fair st₀ r.1 fd 0 := by
  induction rounds generalizing st timeout fds with
  | nil => exact absurd hr (Option.some_ne_none _).symm
  | cons others rounds ih =>
    unfold Sockets.poll at hr
    cases hround : Sockets.pollRound others st 0 fds with
    | none =>
      rw [hround] at hr
      exact absurd hr (Option.some_ne_none _).symm
    | some q =>
      obtain ⟨st', fds', polled⟩ := q
      have hst' : Fair st₀ st' fd 0 := h.pollRound hround
      rw [hround] at hr
      cases polled with
      | none => exact Option.some.inj hr ▸ hst'
      | some polled =>
        dsimp only at hr
        split at hr
        · exact Option.some.inj hr ▸ hst'
        · exact ih hst' hr

/-- The end of a `connect` that has the socket once. -/
theorem connectDone (r : Table × ℤ) (h : Fair st₀ r.1 fd 1) :
    Fair st₀ (connectDone fd r).1 fd 0 := by
  unfold Sockets.connectDone
  split
  · have htaken : Fair st₀ ((r.1.socketRelease fd).socketWrAcquire fd) fd 1 :=
      h.release.acquire (by decide)
    unfold Table.socketFree
    apply Fair.release
    exact htaken.congr rfl rfl
  · exact h.release

end Fair

/-! ## Every call -/

section Connect

variable {env : Env} {fd : Int32} {args : ConnectArgs} {others : List Meanwhile} {st st₀ : Table}
  {r : Table × ℤ}

/-- `inet_stream_connect` without its sleep does not touch the lock. -/
theorem inetStreamConnect_awake (h : ¬ (st.sockets fd).Sleeps args)
    (hr : inetStreamConnect env fd args others st = some r) :
    r.1.trace = st.trace ∧ r.1.refcnt = st.refcnt := by
  unfold inetStreamConnect at hr
  by_cases hlen : 0 ≤ args.addrLen ∧ args.addrLen < 2
  · rw [if_pos hlen] at hr
    exact Option.some.inj hr ▸ ⟨rfl, rfl⟩
  rw [if_neg hlen] at hr
  by_cases hfam : args.family = 0
  · rw [if_pos hfam] at hr
    exact Option.some.inj hr ▸ ⟨rfl, rfl⟩
  rw [if_neg hfam] at hr
  cases hstate : (st.sockets fd).state with
  | connected =>
    rw [hstate] at hr
    exact Option.some.inj hr ▸ ⟨rfl, rfl⟩
  | connecting =>
    rw [hstate] at hr
    exact Option.some.inj hr ▸ ⟨rfl, rfl⟩
  | free =>
    rw [hstate] at hr
    exact Option.some.inj hr ▸ ⟨rfl, rfl⟩
  | disconnecting =>
    rw [hstate] at hr
    exact Option.some.inj hr ▸ ⟨rfl, rfl⟩
  | unconnected =>
    rw [hstate] at hr
    dsimp only at hr
    by_cases hclose : (st.sockets fd).sk.state = .close
    · have hblock : (st.sockets fd).flags &&& oNonblock ≠ 0 := fun hz =>
        h ⟨⟨hlen, hfam⟩, hstate, hclose, hz⟩
      have hflags : ((st.modify fd (·.connect env args)).sockets fd).flags =
          (st.sockets fd).flags := by simp [Table.modify, Socket.connect]
      rw [if_neg (not_not.mpr hclose), hflags, if_pos hblock] at hr
      exact Option.some.inj hr ▸ ⟨rfl, rfl⟩
    · rw [if_pos hclose] at hr
      exact Option.some.inj hr ▸ ⟨rfl, rfl⟩

/-- `inet_stream_connect` with its sleep. -/
theorem inetStreamConnect_sleeps (h : (st.sockets fd).Sleeps args)
    (hr : inetStreamConnect env fd args others st = some r) :
    ∃ st', connectLoop fd others (st.modify fd (·.connect env args)) = some st' ∧
      connectWoken fd st' = r := by
  obtain ⟨⟨hlen, hfam⟩, hstate, hclose, hblock⟩ := h
  have hflags : ((st.modify fd (·.connect env args)).sockets fd).flags =
      (st.sockets fd).flags := by simp [Table.modify, Socket.connect]
  unfold inetStreamConnect at hr
  rw [if_neg hlen, if_neg hfam, hstate] at hr
  dsimp only at hr
  rw [if_neg (not_not.mpr hclose), hflags, if_neg (not_not.mpr hblock)] at hr
  exact Option.map_eq_some_iff.mp hr

/-- **A `connect` that does not sleep** is fair. -/
theorem Fair.connect (h : Fair st₀ st fd 0) (hawake : ¬ (st.sockets fd).Sleeps args)
    (hr : connect env fd args others st = some r) : Fair st₀ r.1 fd 0 := by
  obtain ⟨r', hr', rfl⟩ := Option.map_eq_some_iff.mp hr
  have htaken : Fair st₀ (st.socketWrAcquire fd) fd 1 := h.acquire (by decide)
  obtain ⟨htrace, hrefcnt⟩ :=
    @inetStreamConnect_awake env fd args others (st.socketWrAcquire fd) r' hawake hr'
  exact Fair.connectDone r' (htaken.congr htrace hrefcnt)

/-- **A `connect` that sleeps** keeps a reference. -/
theorem Held.connect (h : Held st₀ st fd 0) (hsleeps : (st.sockets fd).Sleeps args)
    (hr : connect env fd args others st = some r) : Held st₀ r.1 fd 1 := by
  obtain ⟨r', hr', rfl⟩ := Option.map_eq_some_iff.mp hr
  have htaken : Held st₀ (st.socketWrAcquire fd) fd 1 := h.acquire (by decide)
  obtain ⟨st', hloop, rfl⟩ :=
    @inetStreamConnect_sleeps env fd args others (st.socketWrAcquire fd) r' hsleeps hr'
  have hslept : Held st₀ st' fd 1 := by
    refine Held.connectLoop ?_ hloop
    exact htaken.congr rfl rfl
  -- the lock is taken once more after the loop
  have hagain : Held st₀ (st'.socketWrAcquire fd) fd 2 := hslept.acquire (by decide)
  apply Held.connectDone
  unfold connectWoken
  dsimp only
  split
  · exact hagain
  · split
    · exact hagain
    · exact hagain.congr rfl rfl

end Connect

section Body

variable {st₀ st : Table} {fd : Int32}

/-- A call that takes its socket, looks at it and gives it back. -/
theorem Fair.look (h : Fair st₀ st fd 0) {op : LockOp} (hop : op ≠ .release) :
    Fair st₀ ((st.acquire fd op).socketRelease fd) 0 0 := (h.acquire hop).release.other 0

/-- A call that takes its socket, writes to it and gives it back. -/
theorem Fair.change (h : Fair st₀ st fd 0) (f : Socket → Socket) :
    Fair st₀ (((st.socketWrAcquire fd).modify fd f).socketRelease fd) 0 0 := by
  have htaken : Fair st₀ (st.socketWrAcquire fd) fd 1 := h.acquire (by decide)
  have hchanged : Fair st₀ ((st.socketWrAcquire fd).modify fd f) fd 1 := htaken.congr rfl rfl
  exact hchanged.release.other 0

/-- **A call that does not sleep to connect** is fair. -/
theorem Fair.body {env : Env} {path : Path} {st' : Table} {call : ApiCall}
    (h : ∀ fd, Fair st₀ st fd 0)
    (hcall : ∀ fd args, call = .connect fd args → ¬ (st.sockets fd).Sleeps args)
    (hst : call.body env path st = some st') : Fair st₀ st' 0 0 := by
  cases call with
  | connect fd args =>
    obtain ⟨r, hr, rfl⟩ := Option.map_eq_some_iff.mp hst
    exact ((h fd).connect (hcall fd args rfl) hr).other 0
  | write fd buf =>
    rw [← Option.some.inj hst]
    exact (h fd).change _
  | read fd len =>
    obtain ⟨r, hr, rfl⟩ := Option.map_eq_some_iff.mp hst
    obtain ⟨r', hr', rfl⟩ := Option.map_eq_some_iff.mp hr
    have htaken : Fair st₀ (st.socketWrAcquire fd) fd 1 := (h fd).acquire (by decide)
    have hread : Fair st₀ r'.1 fd 1 := by
      refine Fair.readLoop ?_ hr'
      exact htaken.congr rfl rfl
    exact hread.release.other 0
  | close fd =>
    rw [← Option.some.inj hst]
    exact (h fd).change _
  | poll fds timeout =>
    obtain ⟨r, hr, rfl⟩ := Option.map_eq_some_iff.mp hst
    exact (h 0).poll hr
  | fcntl fd cmd arg =>
    rw [← Option.some.inj hst]
    unfold Sockets.fcntl
    dsimp only
    split
    · exact (h fd).look (by decide)
    · split
      · exact (h fd).change _
      · exact (h fd).look (by decide)
  | getsockopt fd level optname =>
    rw [← Option.some.inj hst]
    unfold Sockets.getsockopt
    dsimp only
    split
    · split
      · exact (h fd).look (by decide)
      · exact (h fd).look (by decide)
    · exact (h fd).look (by decide)
  | getpeername fd =>
    rw [← Option.some.inj hst]
    exact (h fd).look (by decide)
  | getsockname fd =>
    rw [← Option.some.inj hst]
    exact (h fd).look (by decide)

end Body

/-- **When a call gives back what it took**: on every path on which it returns, unless it is a
blocking `connect`. -/
theorem balanced_iff (env : Env) (path : Path) (st : Table) (call : ApiCall) {st' : Table}
    (h : call.run env path st = some st') : Balanced st st' ↔ ¬ call.SleepsToConnect st := by
  have hstart : ∀ fd, Fair st { st with trace := [] } fd 0 := Fair.start st
  unfold ApiCall.run at h
  by_cases hmissing : ∃ fd ∈ call.target, st.listed fd = false
  · rw [if_pos hmissing] at h
    rw [← Option.some.inj h]
    refine iff_of_true (hstart 0).balanced fun hsleeps => ?_
    obtain ⟨fd, hfd, hlisted⟩ := hmissing
    cases call with
    | connect fd' args =>
      have heq : fd' = fd := Option.some.inj hfd
      rw [← heq, hsleeps.1] at hlisted
      exact Bool.noConfusion hlisted
    | _ => exact hsleeps
  rw [if_neg hmissing] at h
  constructor
  · intro hbal hsleeps
    cases call with
    | connect fd args =>
      obtain ⟨r, hr, rfl⟩ := Option.map_eq_some_iff.mp h
      have hheld : Held st r.1 fd 1 := (hstart fd).toHeld.connect hsleeps.2 hr
      have hmore := hheld.calls fd
      rw [hbal.calls fd, if_pos rfl] at hmore
      omega
    | _ => exact hsleeps
  · intro hawake
    refine Fair.balanced (Fair.body hstart ?_ h)
    rintro fd args rfl hsleeps
    have hlisted : st.listed fd = true := by
      by_contra hnot
      exact hmissing ⟨fd, rfl, by simpa using hnot⟩
    exact hawake ⟨hlisted, hsleeps⟩

/-- A socket of a connection without an address yet. -/
def Socket.of (state : SocketState) (sk : TcpSock) : Socket where
  state := state
  flags := 2
  sk := sk
  pollEvents := 0
  peer := (0, 0)
  name := (0, 0)

/-- A stack with one kind of socket. -/
def Table.of (sock : Socket) : Table where
  sockets := fun _ => sock
  refcnt := fun _ => 1
  freed := fun _ => false
  listed := fun _ => true
  trace := []

/-- A network that takes every segment. -/
def calmEnv : Env where
  link := fun _ => 0
  freed := fun _ _ => []

/-- A sleep that ends with a connection. -/
def wokenPath (sk : TcpSock) : Path where
  sleeps := [⟨fun _ => .of .connected sk, fun _ => true⟩]
  rounds := []

theorem balanced_iff_read : ∃ st', ApiCall.run calmEnv
      (wokenPath { tcpAllocSock with state := .established, finFlag := true })
      (.of (.of .connected { tcpAllocSock with state := .established })) (.read 4097 8) = some st' ∧
    Balanced (.of (.of .connected { tcpAllocSock with state := .established })) st' :=
  ⟨_, rfl, (balanced_iff calmEnv
    (wokenPath { tcpAllocSock with state := .established, finFlag := true }) _ (.read 4097 8)
    rfl).mpr not_false⟩

/-- A blocking `connect` that is woken when the connection is there. -/
theorem not_balanced_connect : ∃ st', ApiCall.run calmEnv
      (wokenPath { tcpAllocSock with state := .established }) (.of (.of .unconnected tcpAllocSock))
      (.connect 4097 ⟨2, 80, 0x0A000004, 16, 40000, 1000⟩) = some st' ∧
    ¬ Balanced (.of (.of .unconnected tcpAllocSock)) st' :=
  ⟨_, rfl, fun h => absurd (h.calls 4097) (by decide)⟩

end LvlIp.Sockets
