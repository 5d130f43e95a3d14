import LvlIp.Foundations.Layout
import Mathlib.Data.List.OfFn

/-!
# The messages between an application and the stack

An application reaches the stack through `tools/liblevelip.c`, which turns each socket call into a
message on a UNIX stream socket and waits for the message that answers it (`include/ipc.h`). This
module has the structs of both messages, the calls and the replies as values, and the bytes they
are on the socket. `alloca` does not clear what it returns: the bytes of a message that no one
assigns come from the stack, and `fill` stands for them.
-/

namespace LvlIp.Ipc

open Foundations

/-! ## The structs -/

/-- `uint16_t`. -/
def uint16 : Layout UInt16 := .number 2 UInt16.toNat UInt16.ofNat fun x => by simp

/-- `uint32_t` and `socklen_t`. -/
def uint32 : Layout UInt32 := .number 4 UInt32.toNat UInt32.ofNat fun x => by simp

/-- `size_t` and `nfds_t`. -/
def size_t : Layout UInt64 := .number 8 UInt64.toNat UInt64.ofNat fun x => by simp

/-- `short`. -/
def short : Layout Int16 :=
  .number 2 (fun x => x.toUInt16.toNat) (fun n => (UInt16.ofNat n).toInt16) fun x => by simp

/-- `int` and `pid_t`. -/
def int : Layout Int32 :=
  .number 4 (fun x => x.toUInt32.toNat) (fun n => (UInt32.ofNat n).toInt32) fun x => by simp

/-- `struct ipc_msg`, the head of every message. -/
structure IpcMsg where
  type : UInt16
  pid : Int32

def ipcMsg : Layout IpcMsg :=
  (uint16.prod int).of (fun m => (m.type, m.pid)) (fun p => ⟨p.1, p.2⟩) fun _ => rfl

/-- `struct ipc_err`, the head of the data of every response. -/
structure IpcErr where
  rc : Int32
  err : Int32

def ipcErr : Layout IpcErr :=
  (int.prod int).of (fun e => (e.rc, e.err)) (fun p => ⟨p.1, p.2⟩) fun _ => rfl

/-- `struct ipc_socket`. -/
structure IpcSocket where
  domain : Int32
  type : Int32
  protocol : Int32

def ipcSocket : Layout IpcSocket :=
  (int.prod (int.prod int)).of (fun s => (s.domain, s.type, s.protocol))
    (fun p => ⟨p.1, p.2.1, p.2.2⟩) fun _ => rfl

/-- The sixteen bytes of a `struct sockaddr`, by the fields of `struct sockaddr_in`. -/
structure Sockaddr where
  family : UInt16
  port : UInt16
  addr : UInt32
  zero : UInt64
deriving DecidableEq

def sockaddr : Layout Sockaddr :=
  (uint16.prod (uint16.prod (uint32.prod size_t))).of (fun a => (a.family, a.port, a.addr, a.zero))
    (fun p => ⟨p.1, p.2.1, p.2.2.1, p.2.2.2⟩) fun _ => rfl

/-- `struct ipc_connect`. -/
structure IpcConnect where
  sockfd : Int32
  addr : Sockaddr
  addrlen : UInt32

def ipcConnect : Layout IpcConnect :=
  (int.prod (sockaddr.prod uint32)).of (fun c => (c.sockfd, c.addr, c.addrlen))
    (fun p => ⟨p.1, p.2.1, p.2.2⟩) fun _ => rfl

/-- `struct ipc_write` and `struct ipc_read`, up to the bytes that follow. -/
structure IpcBuf where
  sockfd : Int32
  len : UInt64

def ipcBuf : Layout IpcBuf :=
  (int.prod size_t).of (fun b => (b.sockfd, b.len)) (fun p => ⟨p.1, p.2⟩) fun _ => rfl

/-- `struct ipc_pollfd`. -/
structure IpcPollfd where
  fd : Int32
  events : Int16
  revents : Int16
deriving DecidableEq

def ipcPollfd : Layout IpcPollfd :=
  (int.prod (short.prod short)).of (fun f => (f.fd, f.events, f.revents))
    (fun p => ⟨p.1, p.2.1, p.2.2⟩) fun _ => rfl

/-- `struct ipc_poll`, up to the descriptors that follow. -/
structure IpcPoll where
  nfds : UInt64
  timeout : Int32

def ipcPoll : Layout IpcPoll :=
  (size_t.prod int).of (fun p => (p.nfds, p.timeout)) (fun p => ⟨p.1, p.2⟩) fun _ => rfl

/-- `struct ipc_fcntl`, up to its argument. -/
structure IpcFcntl where
  sockfd : Int32
  cmd : Int32

def ipcFcntl : Layout IpcFcntl :=
  (int.prod int).of (fun f => (f.sockfd, f.cmd)) (fun p => ⟨p.1, p.2⟩) fun _ => rfl

/-- `struct ipc_sockopt`, up to the value that follows. -/
structure IpcSockopt where
  fd : Int32
  level : Int32
  optname : Int32
  optlen : UInt32
deriving DecidableEq

def ipcSockopt : Layout IpcSockopt :=
  (int.prod (int.prod (int.prod uint32))).of (fun o => (o.fd, o.level, o.optname, o.optlen))
    (fun p => ⟨p.1, p.2.1, p.2.2.1, p.2.2.2⟩) fun _ => rfl

/-- `struct ipc_sockname`, up to its `sa_data`. -/
structure IpcSockname where
  socket : Int32
  addressLen : UInt32
deriving DecidableEq

def ipcSockname : Layout IpcSockname :=
  (int.prod uint32).of (fun n => (n.socket, n.addressLen)) (fun p => ⟨p.1, p.2⟩) fun _ => rfl

/-- The length of `sa_data`. -/
def saDataLen : ℕ := 128

/-- Some bytes of the stack that nobody assigned. -/
def fill (stack : ℕ → UInt8) (n : ℕ) : List UInt8 := List.ofFn fun i : Fin n => stack i

@[simp]
theorem length_fill (stack : ℕ → UInt8) (n : ℕ) : (fill stack n).length = n := by simp [fill]

/-! ## The types of message -/

/-- The `IPC_*` types of message. -/
inductive IpcType
  | socket
  | connect
  | write
  | read
  | close
  | poll
  | fcntl
  | getsockopt
  | setsockopt
  | getpeername
  | getsockname
deriving DecidableEq

def IpcType.code : IpcType → UInt16
  | .socket => 1
  | .connect => 2
  | .write => 3
  | .read => 4
  | .close => 5
  | .poll => 6
  | .fcntl => 7
  | .getsockopt => 8
  | .setsockopt => 9
  | .getpeername => 10
  | .getsockname => 11

def IpcType.all : List IpcType :=
  [.socket, .connect, .write, .read, .close, .poll, .fcntl, .getsockopt, .setsockopt, .getpeername,
    .getsockname]

/-- The type of a message with a given code. -/
def IpcType.ofCode (code : UInt16) : Option IpcType := IpcType.all.find? fun t => t.code = code

@[simp]
theorem IpcType.ofCode_code (t : IpcType) : IpcType.ofCode t.code = some t := by
  cases t <;> rfl

/-! ## Calls -/

/-- `F_GETFL`. -/
def fGetfl : Int32 := 3

/-- `F_SETFL`. -/
def fSetfl : Int32 := 4

/-- The commands of `fcntl` that go to the stack; `liblevelip` answers the others itself. -/
inductive FcntlCmd
  | getfl
  | setfl (flags : Int32)
deriving DecidableEq

/-- The socket calls that `liblevelip` hands to the stack. The length of a buffer that is written,
of an array that is polled and of an option's value is that of the list; `poll` has the descriptors
of lvl-ip only, those of the kernel are not sent. -/
inductive Call
  | socket (domain type protocol : Int32)
  | connect (sockfd : Int32) (addr : Sockaddr) (addrlen : UInt32)
  | write (sockfd : Int32) (buf : List UInt8)
  | read (sockfd : Int32) (len : UInt64)
  | close (sockfd : Int32)
  | poll (timeout : Int32) (fds : List IpcPollfd)
  | fcntl (sockfd : Int32) (cmd : FcntlCmd)
  | getsockopt (fd level optname : Int32) (optval : List UInt8)
  | getpeername (socket : Int32)
  | getsockname (socket : Int32)
deriving DecidableEq

namespace Call

def type : Call → IpcType
  | .socket .. => .socket
  | .connect .. => .connect
  | .write .. => .write
  | .read .. => .read
  | .close .. => .close
  | .poll .. => .poll
  | .fcntl .. => .fcntl
  | .getsockopt .. => .getsockopt
  | .getpeername .. => .getpeername
  | .getsockname .. => .getsockname

/-- `sizeof(struct flock)`. -/
def flockLen : ℕ := 32

/-- The data of the request for a call. -/
def data (stack : ℕ → UInt8) : Call → List UInt8
  | .socket domain type protocol => ipcSocket.put ⟨domain, type, protocol⟩
  | .connect sockfd addr addrlen => ipcConnect.put ⟨sockfd, addr, addrlen⟩
  | .write sockfd buf => ipcBuf.put ⟨sockfd, UInt64.ofNat buf.length⟩ ++ buf
  | .read sockfd len => ipcBuf.put ⟨sockfd, len⟩
  | .close sockfd => int.put sockfd
  | .poll timeout fds => ipcPoll.put ⟨UInt64.ofNat fds.length, timeout⟩ ++ ipcPollfd.putAll fds
  | .fcntl sockfd .getfl => ipcFcntl.put ⟨sockfd, fGetfl⟩ ++ fill stack (flockLen + int.size)
  | .fcntl sockfd (.setfl flags) =>
    ipcFcntl.put ⟨sockfd, fSetfl⟩ ++ (int.put flags ++ fill stack flockLen)
  | .getsockopt fd level optname optval =>
    ipcSockopt.put ⟨fd, level, optname, UInt32.ofNat optval.length⟩ ++ optval
  | .getpeername fd => int.put fd ++ fill stack (uint32.size + saDataLen)
  | .getsockname fd => int.put fd ++ fill stack (uint32.size + saDataLen)

/-- The request for a call. -/
def request (pid : Int32) (stack : ℕ → UInt8) (c : Call) : List UInt8 :=
  ipcMsg.put ⟨c.type.code, pid⟩ ++ c.data stack

/-- `msglen` in the wrapper of a call. -/
def msglen : Call → ℕ
  | .socket .. => ipcMsg.size + ipcSocket.size
  | .connect .. => ipcMsg.size + ipcConnect.size
  | .write _ buf => ipcMsg.size + ipcBuf.size + buf.length
  | .read .. => ipcMsg.size + ipcBuf.size
  | .close .. => ipcMsg.size + int.size
  | .poll _ fds => ipcMsg.size + ipcPoll.size + ipcPollfd.size * fds.length
  | .fcntl .. => ipcMsg.size + ipcFcntl.size + flockLen + int.size
  | .getsockopt _ _ _ optval => ipcMsg.size + ipcSockopt.size + optval.length
  | .getpeername _ => ipcMsg.size + (ipcSockname.size + saDataLen)
  | .getsockname _ => ipcMsg.size + (ipcSockname.size + saDataLen)

/-- A request is as long as its wrapper says. -/
theorem length_request (pid : Int32) (stack : ℕ → UInt8) (c : Call) :
    (c.request pid stack).length = c.msglen := by
  rw [request, List.length_append, ipcMsg.length_put]
  cases c with
  | socket domain type protocol => rw [data, ipcSocket.length_put, msglen]
  | connect sockfd addr addrlen => rw [data, ipcConnect.length_put, msglen]
  | write sockfd buf => rw [data, List.length_append, ipcBuf.length_put, msglen, Nat.add_assoc]
  | read sockfd len => rw [data, ipcBuf.length_put, msglen]
  | close sockfd => rw [data, int.length_put, msglen]
  | poll timeout fds =>
    rw [data, List.length_append, ipcPoll.length_put, ipcPollfd.length_putAll, msglen, Nat.add_assoc]
  | fcntl sockfd cmd =>
    cases cmd with
    | getfl =>
      rw [data, List.length_append, ipcFcntl.length_put, length_fill, msglen]
      omega
    | setfl flags =>
      rw [data, List.length_append, List.length_append, ipcFcntl.length_put, int.length_put,
        length_fill, msglen]
      omega
  | getsockopt fd level optname optval =>
    rw [data, List.length_append, ipcSockopt.length_put, msglen, Nat.add_assoc]
  | getpeername socket =>
    rw [data, List.length_append, int.length_put, length_fill]
    rfl
  | getsockname socket =>
    rw [data, List.length_append, int.length_put, length_fill]
    rfl

/-- How many bytes of the response a call asks the socket for: `RCBUF_LEN` in `transmit_lvlip`, the
size of the expected response elsewhere. -/
def rlen : Call → ℕ
  | .read _ len => ipcMsg.size + ipcErr.size + ipcBuf.size + len.toNat
  | .poll _ fds => ipcMsg.size + ipcErr.size + ipcPollfd.size * fds.length
  | .getsockopt _ _ _ optval => ipcMsg.size + ipcErr.size + ipcSockopt.size + optval.length
  | .getpeername _ => ipcMsg.size + ipcErr.size + (ipcSockname.size + saDataLen)
  | .getsockname _ => ipcMsg.size + ipcErr.size + (ipcSockname.size + saDataLen)
  | _ => 512

end Call

/-! ## Replies -/

/-- What a response tells: the return code of the call, and what the call has written. -/
inductive Reply
  | rc (ret : Int32)
  | read (rlen sockfd : Int32) (buf : List UInt8)
  | poll (ret : Int32) (fds : List IpcPollfd)
  | sockopt (ret : Int32) (opt : IpcSockopt) (optval : List UInt8)
  | name (ret : Int32) (name : IpcSockname) (saData : List UInt8)
deriving DecidableEq

namespace Reply

def code : Reply → Int32
  | .rc ret => ret
  | .read rlen _ _ => rlen
  | .poll ret _ => ret
  | .sockopt ret _ _ => ret
  | .name ret _ _ => ret

/-- The `struct ipc_err` for a return code. -/
def err (r : Reply) : IpcErr := if r.code < 0 then ⟨-1, -r.code⟩ else ⟨r.code, 0⟩

/-- The data of a response, after its `struct ipc_err`. -/
def data : Reply → List UInt8
  | .rc _ => []
  | .read rlen sockfd buf => ipcBuf.put ⟨sockfd, rlen.toInt64.toUInt64⟩ ++ buf
  | .poll _ fds => ipcPollfd.putAll fds
  | .sockopt _ opt optval => ipcSockopt.put opt ++ optval
  | .name _ n saData => ipcSockname.put n ++ saData

/-- The response with a reply. -/
def response (type : IpcType) (pid : Int32) (r : Reply) : List UInt8 :=
  ipcMsg.put ⟨type.code, pid⟩ ++ (ipcErr.put r.err ++ r.data)

end Reply

end LvlIp.Ipc
