import LvlIp.Ipc.Wire

/-!
# The stack's end

`src/ipc.c`: what the thread of a connection makes of the bytes in its buffer
(`demux_ipc_socket_call` and the handlers behind it), and what the socket layer of `src/socket.c`
answers to a call. What the layer finds when a call reaches it (the socket, the bytes received, the
state of the connection) changes with the network and is a `Layer`, one for each call.

A request of at most `IPC_BUFLEN` bytes is taken for the call it stands for, whatever the buffer held
before (`demuxIpcSocketCall_request`); of a longer one, which only `write` can have, the part in the
buffer gives its head (`demuxIpcSocketCall_take`).
-/

namespace LvlIp.Ipc

open Foundations

/-! ## The socket layer -/

/-- `EBADF`. -/
def ebadf : Int32 := 9

/-- `EINVAL`. -/
def einval : Int32 := 22

/-- `ENOPROTOOPT`. -/
def enoprotoopt : Int32 := 92

/-- `SOL_SOCKET`. -/
def solSocket : Int32 := 1

/-- `SO_ERROR`. -/
def soError : Int32 := 4

/-- `AF_INET`. -/
def afInet : UInt16 := 2

/-- `POLLHUP | POLLERR | POLLNVAL`. -/
def pollAlways : Int16 := 0x10 ||| 0x08 ||| 0x20

/-- What a call meets in the socket layer. -/
structure Layer where
  /-- Whether `get_socket` finds the descriptor. -/
  found : Bool
  /-- What the operation of the socket returns. -/
  rc : Int32
  /-- The bytes there are to read. -/
  received : List UInt8
  /-- `sk->err`. -/
  err : Int32
  /-- The port and the address of the peer or of the socket, if it has a `struct sock`. -/
  sk : Option (UInt16 × UInt32)
  /-- The `poll_events` of the socket of a descriptor when `_poll` last looks, if there is one. -/
  pollEvents : Int32 → Option Int16
  /-- What the stack of the thread holds where the response is allocated. -/
  stack : ℕ → UInt8

namespace Layer

/-- `_connect`, `_write`, `_close` and `_fcntl`. -/
def ret (layer : Layer) : Int32 := if layer.found then layer.rc else -ebadf

/-- `_read` into a buffer of `len` bytes; the operation of the socket takes the length as an `int`. -/
def read (layer : Layer) (sockfd : Int32) (len : UInt64) : Reply :=
  if layer.found = false then .read (-ebadf) sockfd []
  else if layer.rc < 0 then .read layer.rc sockfd []
  else
    let buf := layer.received.take len.toUInt32.toInt32.toInt.toNat
    .read (Int32.ofNat buf.length) sockfd buf

/-- The last round of `_poll`, with the number of descriptors that are ready so far. -/
def pollScan (layer : Layer) (polled : Int32) : List IpcPollfd → Int32 × List IpcPollfd
  | [] => (polled, [])
  | p :: fds =>
    match layer.pollEvents p.fd with
    | none => (-ebadf, p :: fds)
    | some events =>
      let revents := events &&& (p.events ||| pollAlways)
      let rest := layer.pollScan (if revents > 0 then polled + 1 else polled) fds
      (rest.1, { p with revents := revents } :: rest.2)

/-- `_poll`. -/
def poll (layer : Layer) (fds : List IpcPollfd) : Reply :=
  .poll (layer.pollScan 0 fds).1 (layer.pollScan 0 fds).2

/-- `_getsockopt`. -/
def getsockopt (layer : Layer) (fd level optname : Int32) (optval : List UInt8) : Reply :=
  let opt : IpcSockopt := ⟨fd, level, optname, UInt32.ofNat optval.length⟩
  if layer.found = false then .sockopt (-ebadf) opt optval
  else if level = solSocket then
    if optname = soError then .sockopt 0 { opt with optlen := 4 } (int.put layer.err)
    else .sockopt (-enoprotoopt) opt optval
  else .sockopt (-einval) opt optval

/-- `_getpeername` and `_getsockname`, which write into the response itself. -/
def name (layer : Layer) (socket : Int32) : Reply :=
  let unset : IpcSockname := ⟨socket, uint32.get (fill layer.stack uint32.size)⟩
  if layer.found = false then .name (-ebadf) unset (fill layer.stack saDataLen)
  else
    match layer.sk with
    | none => .name (-1) unset (fill layer.stack saDataLen)
    | some (port, addr) =>
      .name 0 ⟨socket, UInt32.ofNat sockaddr.size⟩
        (uint16.put afInet ++ (uint16.put port ++ (uint32.put addr ++ fill layer.stack 120)))

/-- The call, and the reply of its handler. -/
def serve (layer : Layer) : Call → Reply
  | .socket .. => .rc layer.rc
  | .connect .. => .rc layer.ret
  | .write .. => .rc layer.ret
  | .read sockfd len => layer.read sockfd len
  | .close .. => .rc layer.ret
  | .poll _ fds => layer.poll fds
  | .fcntl .. => .rc layer.ret
  | .getsockopt fd level optname optval => layer.getsockopt fd level optname optval
  | .getpeername socket => layer.name socket
  | .getsockname socket => layer.name socket

end Layer

/-- The handlers that return the code of the call, not zero: with `-1` the connection is closed. -/
def Reply.closes : Reply → Bool
  | .sockopt ret _ _ => ret = -1
  | .name ret _ _ => ret = -1
  | _ => false

/-! ## The handlers -/

/-- `IPC_BUFLEN`. -/
def ipcBuflen : ℕ := 8192

/-- `head` in `ipc_write`: how much of a payload fits into the buffer. -/
def ipcHead : ℕ := ipcBuflen - ipcBuf.size - ipcMsg.size

/-- What the thread does about the message in its buffer. -/
inductive Demux
  /-- It hands a call to the socket layer. -/
  | serve (pid : Int32) (c : Call)
  /-- It reads the rest of a payload first. -/
  | tail (pid sockfd : Int32) (len : ℕ) (head : List UInt8)
  /-- It answers by itself. -/
  | refuse (pid : Int32) (type : IpcType) (r : Reply)
  /-- It does nothing. -/
  | skip
  /-- It leaves its buffer or its stack. -/
  | fault
deriving DecidableEq

/-- `ipc_write`. A length that no `int` holds is one that no array on the stack has. -/
def ipcWrite (pid : Int32) (data : List UInt8) : Demux :=
  let payload := ipcBuf.get data
  let buf := data.drop ipcBuf.size
  if 2 ^ 31 ≤ payload.len.toNat then .fault
  else if ipcHead < payload.len.toNat then
    .tail pid payload.sockfd payload.len.toNat (buf.take ipcHead)
  else .serve pid (.write payload.sockfd (buf.take payload.len.toNat))

/-- `ipc_read`. -/
def ipcRead (pid : Int32) (data : List UInt8) : Demux :=
  let requested := ipcBuf.get data
  if 2 ^ 31 ≤ requested.len.toNat then .fault
  else .serve pid (.read requested.sockfd requested.len)

/-- `ipc_poll`. -/
def ipcPollCall (pid : Int32) (data : List UInt8) : Demux :=
  let poll := ipcPoll.get data
  if data.length < ipcPoll.size + ipcPollfd.size * poll.nfds.toNat then .fault
  else .serve pid (.poll poll.timeout (ipcPollfd.getAll poll.nfds.toNat (data.drop ipcPoll.size)))

/-- `ipc_fcntl`. -/
def ipcFcntlCall (pid : Int32) (data : List UInt8) : Demux :=
  let fc := ipcFcntl.get data
  if fc.cmd = fGetfl then .serve pid (.fcntl fc.sockfd .getfl)
  else if fc.cmd = fSetfl then
    .serve pid (.fcntl fc.sockfd (.setfl (int.get (data.drop ipcFcntl.size))))
  else .refuse pid .fcntl (.rc (-einval))

/-- `ipc_getsockopt`. -/
def ipcGetsockopt (pid : Int32) (data : List UInt8) : Demux :=
  let opts := ipcSockopt.get data
  if data.length < ipcSockopt.size + opts.optlen.toNat then .fault
  else .serve pid (.getsockopt opts.fd opts.level opts.optname
    ((data.drop ipcSockopt.size).take opts.optlen.toNat))

/-- `demux_ipc_socket_call`. -/
def demuxIpcSocketCall (cmdbuf : List UInt8) : Demux :=
  let msg := ipcMsg.get cmdbuf
  let data := cmdbuf.drop ipcMsg.size
  match IpcType.ofCode msg.type with
  | some .socket =>
    let sock := ipcSocket.get data
    .serve msg.pid (.socket sock.domain sock.type sock.protocol)
  | some .connect =>
    let payload := ipcConnect.get data
    .serve msg.pid (.connect payload.sockfd payload.addr payload.addrlen)
  | some .write => ipcWrite msg.pid data
  | some .read => ipcRead msg.pid data
  | some .close => .serve msg.pid (.close (int.get data))
  | some .poll => ipcPollCall msg.pid data
  | some .fcntl => ipcFcntlCall msg.pid data
  | some .getsockopt => ipcGetsockopt msg.pid data
  | some .getpeername => .serve msg.pid (.getpeername (int.get data))
  | some .getsockname => .serve msg.pid (.getsockname (int.get data))
  | some .setsockopt => .skip
  | none => .skip

/-! ## The requests it is sent -/

/-- A request whose lengths fit into the `int`s that hold them, and of which only the payload of a
`write` reaches beyond the buffer. -/
def Call.Sized : Call → Prop
  | .write sockfd buf => (Call.write sockfd buf).msglen < 2 ^ 31
  | .read sockfd len => (Call.read sockfd len).rlen < 2 ^ 31
  | .poll timeout fds => (Call.poll timeout fds).msglen ≤ ipcBuflen
  | .getsockopt fd level optname optval => (Call.getsockopt fd level optname optval).msglen ≤ ipcBuflen
  | _ => True

instance Call.Sized.decidable : ∀ c : Call, Decidable c.Sized
  | .write .. => inferInstanceAs (Decidable (_ < _))
  | .read .. => inferInstanceAs (Decidable (_ < _))
  | .poll .. => inferInstanceAs (Decidable (_ ≤ _))
  | .getsockopt .. => inferInstanceAs (Decidable (_ ≤ _))
  | .socket .. => .isTrue trivial
  | .connect .. => .isTrue trivial
  | .close .. => .isTrue trivial
  | .fcntl .. => .isTrue trivial
  | .getpeername .. => .isTrue trivial
  | .getsockname .. => .isTrue trivial

section Request

variable {pid : Int32} {stack : ℕ → UInt8}

theorem toNat_ofNat_of_lt {n : ℕ} (h : n < 2 ^ 31) : (UInt64.ofNat n).toNat = n := by
  rw [UInt64.toNat_ofNat', Nat.mod_eq_of_lt (by omega)]

theorem ipcWrite_put {sockfd : Int32} {buf : List UInt8} (rest : List UInt8)
    (h : (Call.write sockfd buf).Sized) :
    ipcWrite pid (ipcBuf.put ⟨sockfd, UInt64.ofNat buf.length⟩ ++ rest) =
      if ipcHead < buf.length then .tail pid sockfd buf.length (rest.take ipcHead)
      else .serve pid (.write sockfd (rest.take buf.length)) := by
  have hlt : buf.length < 2 ^ 31 := by simp only [Call.Sized, Call.msglen] at h; omega
  unfold ipcWrite
  simp only [ipcBuf.get_put, ipcBuf.drop_put, toNat_ofNat_of_lt hlt]
  rw [if_neg (by omega)]

/-- **A request in the buffer is taken for its call**, whatever lies behind it. -/
theorem demuxIpcSocketCall_request {c : Call} (h : c.Sized)
    (hlen : c.msglen ≤ ipcBuflen) (rest : List UInt8) :
    demuxIpcSocketCall (c.request pid stack ++ rest) = .serve pid c := by
  unfold demuxIpcSocketCall Call.request
  simp only [List.append_assoc, ipcMsg.get_put, ipcMsg.drop_put, IpcType.ofCode_code]
  cases c with
  | socket domain type protocol => simp only [Call.type, Call.data, ipcSocket.get_put]
  | connect sockfd addr addrlen => simp only [Call.type, Call.data, ipcConnect.get_put]
  | write sockfd buf =>
    have hhead : ¬ ipcHead < buf.length := by
      rw [Call.msglen] at hlen
      have : ipcHead + ipcBuf.size + ipcMsg.size = ipcBuflen := rfl
      omega
    simp only [Call.type, Call.data, List.append_assoc]
    rw [ipcWrite_put _ h, if_neg hhead, List.take_left]
  | read sockfd len =>
    have hlt : ¬ 2 ^ 31 ≤ len.toNat := by simp only [Call.Sized, Call.rlen] at h; omega
    simp only [Call.type, Call.data, ipcRead, ipcBuf.get_put]
    rw [if_neg hlt]
  | close sockfd => simp only [Call.type, Call.data, int.get_put]
  | poll timeout fds =>
    have hlt : fds.length < 2 ^ 31 := by
      have hsize : ipcPollfd.size = 8 := rfl
      simp only [Call.Sized, Call.msglen, ipcBuflen, hsize] at h
      omega
    simp only [Call.type, Call.data, ipcPollCall, List.append_assoc, ipcPoll.get_put,
      ipcPoll.drop_put, toNat_ofNat_of_lt hlt, ipcPollfd.getAll_putAll, List.length_append,
      ipcPoll.length_put, ipcPollfd.length_putAll]
    rw [if_neg (by omega)]
  | fcntl sockfd cmd =>
    cases cmd with
    | getfl => simp only [Call.type, Call.data, ipcFcntlCall, List.append_assoc, ipcFcntl.get_put, if_pos]
    | setfl flags =>
      have hne : fSetfl ≠ fGetfl := by decide
      simp only [Call.type, Call.data, ipcFcntlCall, List.append_assoc, ipcFcntl.get_put,
        ipcFcntl.drop_put, int.get_put, if_pos, if_neg hne]
  | getsockopt fd level optname optval =>
    have hlt : (UInt32.ofNat optval.length).toNat = optval.length := by
      simp only [Call.Sized, Call.msglen, ipcBuflen] at h
      rw [UInt32.toNat_ofNat', Nat.mod_eq_of_lt (by omega)]
    simp only [Call.type, Call.data, ipcGetsockopt, List.append_assoc, ipcSockopt.get_put,
      ipcSockopt.drop_put, hlt, List.length_append, ipcSockopt.length_put, List.take_left]
    rw [if_neg (by omega)]
  | getpeername fd => simp only [Call.type, Call.data, List.append_assoc, int.get_put]
  | getsockname fd => simp only [Call.type, Call.data, List.append_assoc, int.get_put]

/-- Of a request that the buffer does not hold, the part that is there gives the head of the
payload. -/
theorem demuxIpcSocketCall_take {sockfd : Int32} {buf : List UInt8}
    (h : (Call.write sockfd buf).Sized) (hlong : ipcHead < buf.length) :
    demuxIpcSocketCall (((Call.write sockfd buf).request pid stack).take ipcBuflen) =
      .tail pid sockfd buf.length (buf.take ipcHead) := by
  have htake : ((Call.write sockfd buf).request pid stack).take ipcBuflen =
      ipcMsg.put ⟨IpcType.write.code, pid⟩ ++
        (ipcBuf.put ⟨sockfd, UInt64.ofNat buf.length⟩ ++ buf.take ipcHead) := by
    rw [Call.request, List.take_append, ipcMsg.length_put, Call.data, List.take_append,
      ipcBuf.length_put, List.take_of_length_le (by rw [ipcMsg.length_put]; decide),
      List.take_of_length_le (by rw [ipcBuf.length_put]; decide)]
    rfl
  rw [htake]
  unfold demuxIpcSocketCall
  simp only [ipcMsg.get_put, ipcMsg.drop_put, IpcType.ofCode_code]
  rw [ipcWrite_put _ h, if_pos hlong, List.take_take, Nat.min_self]

/-- The rest of the request is the rest of the payload. -/
theorem drop_request (sockfd : Int32) (buf : List UInt8) :
    ((Call.write sockfd buf).request pid stack).drop ipcBuflen = buf.drop ipcHead := by
  rw [Call.request, List.drop_append, ipcMsg.length_put, Call.data, List.drop_append,
    ipcBuf.length_put, List.drop_eq_nil_of_le (by rw [ipcMsg.length_put]; decide),
    List.drop_eq_nil_of_le (by rw [ipcBuf.length_put]; decide)]
  rfl

end Request

end LvlIp.Ipc
