import LvlIp.Ipc.Daemon

/-!
# The application's end

`tools/liblevelip.c`: what a call makes of the bytes it has read. `Call.finish` is the code that
follows the `read(2)` of each wrapper, from the buffer it reads into to the value it returns;
`Call.answer` says what the application is to get for a reply, with no bytes in between. On the
response to a call that fits, and whatever the buffer holds behind it, the two agree
(`finish_response`).
-/

namespace LvlIp.Ipc

open Foundations

/-- What a call writes for its caller. -/
inductive Out
  | none
  | buf (bytes : List UInt8)
  | fds (fds : List IpcPollfd)
  | optval (val : Int32) (optlen : UInt32)
  | address (len : UInt32) (bytes : List UInt8)
deriving DecidableEq

/-- What a call gives its caller: the value it returns, what it stores into `errno`, if it does,
and what it writes. -/
structure Result where
  ret : ℤ
  errno : Option Int32
  out : Out
deriving DecidableEq

/-- A call that fails, or the answer to one, with nothing written. -/
def Result.failed (ret : Int32) (errno : Option Int32) : Result := ⟨ret.toInt, errno, .none⟩

/-! ## The buffer after the read -/

/-- The end of `transmit_lvlip`. -/
def transmitLvlip (rbuf : List UInt8) : Result :=
  let err := ipcErr.get rbuf
  .failed err.rc (if err.rc = -1 then some err.err else none)

/-- The end of `read`: the whole buffer of the caller is cleared first. -/
def finishRead (len : UInt64) (rbuf : List UInt8) : Result :=
  let error := ipcErr.get rbuf
  if error.rc < 0 then .failed error.rc (some error.err)
  else
    let data := ipcBuf.get (rbuf.drop ipcErr.size)
    if len < data.len then .failed (-1) none
    else
      let bytes := ((rbuf.drop ipcErr.size).drop ipcBuf.size).take data.len.toNat
      ⟨data.len.toInt64.toInt, none, .buf (bytes ++ List.replicate (len.toNat - data.len.toNat) 0)⟩

/-- What `poll` copies for one descriptor. -/
def updatePollfd (p returned : IpcPollfd) : IpcPollfd :=
  { p with events := returned.events, revents := returned.revents }

/-- The end of `poll`. -/
def finishPoll (fds : List IpcPollfd) (rbuf : List UInt8) : Result :=
  let error := ipcErr.get rbuf
  if error.rc < 0 then .failed error.rc (some error.err)
  else
    let returned := ipcPollfd.getAll fds.length (rbuf.drop ipcErr.size)
    ⟨error.rc.toInt, none, .fds (List.zipWith updatePollfd fds returned)⟩

/-- The end of `getsockopt`. -/
def finishGetsockopt (rbuf : List UInt8) : Result :=
  let error := ipcErr.get rbuf
  if error.rc ≠ 0 then .failed error.rc (some error.err)
  else
    let optres := ipcSockopt.get (rbuf.drop ipcErr.size)
    let val := int.get ((rbuf.drop ipcErr.size).drop ipcSockopt.size)
    ⟨0, none, .optval (-val) optres.optlen⟩

/-- The end of `getpeername` and `getsockname`. -/
def finishName (rbuf : List UInt8) : Result :=
  let error := ipcErr.get rbuf
  if error.rc ≠ 0 then .failed error.rc (some error.err)
  else
    let nameres := ipcSockname.get (rbuf.drop ipcErr.size)
    let saData := (rbuf.drop ipcErr.size).drop ipcSockname.size
    ⟨0, none, .address nameres.addressLen (saData.take nameres.addressLen.toNat)⟩

/-- The wrappers after their `read(2)`: a response of another type or for another process is an
error. -/
def Call.finish (pid : Int32) (rbuf : List UInt8) (c : Call) : Result :=
  let response := ipcMsg.get rbuf
  let data := rbuf.drop ipcMsg.size
  if response.type ≠ c.type.code ∨ response.pid ≠ pid then .failed (-1) none
  else
    match c with
    | .read _ len => finishRead len data
    | .poll _ fds => finishPoll fds data
    | .getsockopt .. => finishGetsockopt data
    | .getpeername _ => finishName data
    | .getsockname _ => finishName data
    | _ => transmitLvlip data

/-! ## What the caller is to get -/

/-- The result of a call for a reply to it: the return code, or `-1` with `errno` for a negative
one, and what the call has read. -/
def Call.answer (c : Call) (r : Reply) : Result :=
  if r.code < 0 then .failed (-1) (some (-r.code))
  else
    match c, r with
    | .read _ len, .read rlen _ buf =>
      ⟨rlen.toInt, none, .buf (buf ++ List.replicate (len.toNat - buf.length) 0)⟩
    | .poll _ fds, .poll ret polled => ⟨ret.toInt, none, .fds (List.zipWith updatePollfd fds polled)⟩
    | .getsockopt .., .sockopt ret opt optval => ⟨ret.toInt, none, .optval (-int.get optval) opt.optlen⟩
    | .getpeername _, .name ret name saData =>
      ⟨ret.toInt, none, .address name.addressLen (saData.take name.addressLen.toNat)⟩
    | .getsockname _, .name ret name saData =>
      ⟨ret.toInt, none, .address name.addressLen (saData.take name.addressLen.toNat)⟩
    | _, _ => .failed r.code none

/-! ## Reading a response -/

theorem toUInt64_ofNat {n : ℕ} (h : n < 2 ^ 31) :
    (Int32.ofNat n).toInt64.toUInt64 = UInt64.ofNat n := by
  have hlong : (Int32.ofNat n).toInt64 = Int64.ofNat n := by
    apply Int64.toInt_inj.mp
    rw [Int32.toInt_toInt64, Int32.toInt_ofNat_of_lt h, Int64.toInt_ofNat_of_lt (by omega)]
  rw [hlong, Int64.toUInt64_ofNat']

theorem ofNat_nonneg {n : ℕ} (h : n < 2 ^ 31) : ¬ Int32.ofNat n < 0 := by
  rw [Int32.lt_iff_toInt_lt, Int32.toInt_ofNat_of_lt h]
  simp

theorem toInt_toInt64_ofNat {n : ℕ} (h : n < 2 ^ 31) : (UInt64.ofNat n).toInt64.toInt = n := by
  rw [← Int64.toUInt64_ofNat', Int64.toInt64_toUInt64, Int64.toInt_ofNat_of_lt (by omega)]

theorem userlen_eq {len : UInt64} (h : len.toNat < 2 ^ 31) :
    len.toUInt32.toInt32.toInt.toNat = len.toNat := by
  have hofNat : len.toUInt32 = (Int32.ofNat len.toNat).toUInt32 := by
    apply UInt32.toNat_inj.mp
    simp
  rw [hofNat, Int32.toInt32_toUInt32, Int32.toInt_ofNat_of_lt h, Int.toNat_natCast]

theorem neg_one_lt : (-1 : Int32) < 0 := by decide

theorem neg_one_ne : (-1 : Int32) ≠ 0 := by decide

namespace Reply

variable {r : Reply}

theorem err_of_neg (h : r.code < 0) : r.err = ⟨-1, -r.code⟩ := if_pos h

theorem err_of_nonneg (h : ¬ r.code < 0) : r.err = ⟨r.code, 0⟩ := if_neg h

end Reply

theorem transmitLvlip_put (r : Reply) (rest : List UInt8) :
    transmitLvlip (ipcErr.put r.err ++ rest) =
      if r.code < 0 then .failed (-1) (some (-r.code)) else .failed r.code none := by
  unfold transmitLvlip
  simp only [ipcErr.get_put]
  by_cases h : r.code < 0
  · rw [Reply.err_of_neg h, if_pos h]
    rfl
  · have hne : r.code ≠ -1 := by
      intro heq
      rw [heq] at h
      exact h neg_one_lt
    rw [Reply.err_of_nonneg h, if_neg h, if_neg hne]

/-- What `_read` replies: an error, or as many bytes as it says, which the buffer holds. -/
theorem exists_read (layer : Layer) (sockfd : Int32) {len : UInt64} (h : len.toNat < 2 ^ 31) :
    ∃ rlen buf, layer.read sockfd len = .read rlen sockfd buf ∧
      (rlen < 0 ∧ buf = [] ∨ rlen = Int32.ofNat buf.length ∧ buf.length ≤ len.toNat) := by
  unfold Layer.read
  split
  · exact ⟨_, _, rfl, .inl ⟨by decide, rfl⟩⟩
  split
  · next hneg => exact ⟨_, _, rfl, .inl ⟨hneg, rfl⟩⟩
  · rw [userlen_eq h]
    exact ⟨_, _, rfl, .inr ⟨rfl, List.length_take_le _ _⟩⟩

theorem finishRead_put (layer : Layer) (sockfd : Int32) {len : UInt64} (h : len.toNat < 2 ^ 31)
    (rest : List UInt8) :
    let r := layer.read sockfd len
    finishRead len (ipcErr.put r.err ++ (r.data ++ rest)) = (Call.read sockfd len).answer r := by
  obtain ⟨rlen, buf, hr, hcases⟩ := exists_read layer sockfd h
  rw [hr]
  dsimp only
  unfold finishRead Call.answer
  simp only [ipcErr.get_put, ipcErr.drop_put, Reply.data, List.append_assoc, ipcBuf.get_put,
    ipcBuf.drop_put]
  rcases hcases with ⟨hneg, -⟩ | ⟨rfl, hle⟩
  · have hcode : (Reply.read rlen sockfd buf).code < 0 := hneg
    rw [Reply.err_of_neg hcode, if_pos neg_one_lt, if_pos hcode]
  · have hlt : buf.length < 2 ^ 31 := by omega
    have hcode : ¬ (Reply.read (Int32.ofNat buf.length) sockfd buf).code < 0 := ofNat_nonneg hlt
    have hnlt : ¬ len < UInt64.ofNat buf.length := by
      rw [UInt64.lt_iff_toNat_lt, toNat_ofNat_of_lt hlt]
      omega
    rw [Reply.err_of_nonneg hcode, if_neg hcode, if_neg hcode, toUInt64_ofNat hlt, if_neg hnlt,
      toNat_ofNat_of_lt hlt, toInt_toInt64_ofNat hlt, List.take_left, Int32.toInt_ofNat_of_lt hlt]

theorem length_pollScan (layer : Layer) (polled : Int32) (fds : List IpcPollfd) :
    (layer.pollScan polled fds).2.length = fds.length := by
  induction fds generalizing polled with
  | nil => rfl
  | cons p fds ih =>
    unfold Layer.pollScan
    cases layer.pollEvents p.fd with
    | none => rfl
    | some events => exact congrArg (· + 1) (ih _)

theorem finishPoll_put (layer : Layer) (timeout : Int32) (fds : List IpcPollfd) (rest : List UInt8) :
    let r := layer.poll fds
    finishPoll fds (ipcErr.put r.err ++ (r.data ++ rest)) = (Call.poll timeout fds).answer r := by
  have hlen := length_pollScan layer 0 fds
  unfold Layer.poll finishPoll Call.answer
  generalize layer.pollScan 0 fds = scan at hlen ⊢
  dsimp only
  simp only [ipcErr.get_put, ipcErr.drop_put, Reply.data]
  by_cases hcode : (Reply.poll scan.1 scan.2).code < 0
  · rw [Reply.err_of_neg hcode, if_pos neg_one_lt, if_pos hcode]
  · rw [Reply.err_of_nonneg hcode, if_neg hcode, if_neg hcode, ← hlen, ipcPollfd.getAll_putAll]
    rfl

theorem finishGetsockopt_put (layer : Layer) (fd level optname : Int32) (optval rest : List UInt8) :
    let r := layer.getsockopt fd level optname optval
    finishGetsockopt (ipcErr.put r.err ++ (r.data ++ rest)) =
      (Call.getsockopt fd level optname optval).answer r := by
  have hfail : ∀ ret opt, ret < 0 → finishGetsockopt
      (ipcErr.put (Reply.sockopt ret opt optval).err ++ ((Reply.sockopt ret opt optval).data ++ rest)) =
        (Call.getsockopt fd level optname optval).answer (.sockopt ret opt optval) := by
    intro ret opt hneg
    have hcode : (Reply.sockopt ret opt optval).code < 0 := hneg
    unfold finishGetsockopt Call.answer
    simp only [ipcErr.get_put, Reply.err_of_neg hcode]
    rw [if_pos (by decide), if_pos hcode]
  unfold Layer.getsockopt
  dsimp only
  split
  · exact hfail _ _ (by decide)
  split
  · split
    · unfold finishGetsockopt Call.answer
      simp only [ipcErr.get_put, ipcErr.drop_put, Reply.data, List.append_assoc, ipcSockopt.get_put,
        ipcSockopt.drop_put, int.get_put]
      have hval : int.get (int.put layer.err) = layer.err := by
        simpa using int.get_put layer.err []
      rw [hval]
      rfl
    · exact hfail _ _ (by decide)
  · exact hfail _ _ (by decide)

/-- What `_getpeername` and `_getsockname` reply: an error, or an address of sixteen bytes. -/
theorem exists_name (layer : Layer) (socket : Int32) :
    ∃ ret name saData, layer.name socket = .name ret name saData ∧ saData.length = saDataLen ∧
      (ret < 0 ∨ ret = 0 ∧ name.addressLen = 16) := by
  unfold Layer.name
  dsimp only
  split
  · exact ⟨_, _, _, rfl, length_fill _ _, .inl (by decide)⟩
  cases layer.sk with
  | none => exact ⟨_, _, _, rfl, length_fill _ _, .inl (by decide)⟩
  | some peer =>
    refine ⟨_, _, _, rfl, ?_, .inr ⟨rfl, rfl⟩⟩
    simp only [List.length_append, uint16.length_put, uint32.length_put, length_fill]
    rfl

theorem finishName_put (layer : Layer) {c : Call} {socket : Int32}
    (hc : c = .getpeername socket ∨ c = .getsockname socket) (rest : List UInt8) :
    let r := layer.name socket
    finishName (ipcErr.put r.err ++ (r.data ++ rest)) = c.answer r := by
  obtain ⟨ret, name, saData, hr, hlen, hcases⟩ := exists_name layer socket
  rw [hr]
  dsimp only
  unfold finishName Call.answer
  simp only [ipcErr.get_put, ipcErr.drop_put, Reply.data, List.append_assoc, ipcSockname.get_put,
    ipcSockname.drop_put]
  rcases hcases with hneg | ⟨rfl, hlen16⟩
  · have hcode : (Reply.name ret name saData).code < 0 := hneg
    rw [Reply.err_of_neg hcode, if_pos neg_one_ne, if_pos hcode]
  · have htake : (saData ++ rest).take name.addressLen.toNat =
        saData.take name.addressLen.toNat := by
      apply List.take_append_of_le_length
      rw [hlen, hlen16]
      decide
    rw [htake]
    rcases hc with rfl | rfl <;> rfl

/-- **A call understands the response to it.** -/
theorem finish_response {c : Call} (h : c.Sized) (layer : Layer) (pid : Int32) (rest : List UInt8) :
    c.finish pid ((layer.serve c).response c.type pid ++ rest) = c.answer (layer.serve c) := by
  unfold Call.finish Reply.response
  simp only [List.append_assoc, ipcMsg.get_put, ipcMsg.drop_put, ne_eq, not_true_eq_false, or_self,
    if_false]
  cases c with
  | socket domain type protocol => exact transmitLvlip_put (.rc layer.rc) rest
  | connect sockfd addr addrlen => exact transmitLvlip_put (.rc layer.ret) rest
  | write sockfd buf => exact transmitLvlip_put (.rc layer.ret) rest
  | read sockfd len =>
    have hlt : len.toNat < 2 ^ 31 := by simp only [Call.Sized, Call.rlen] at h; omega
    exact finishRead_put layer sockfd hlt rest
  | close sockfd => exact transmitLvlip_put (.rc layer.ret) rest
  | poll timeout fds => exact finishPoll_put layer timeout fds rest
  | fcntl sockfd cmd => exact transmitLvlip_put (.rc layer.ret) rest
  | getsockopt fd level optname optval => exact finishGetsockopt_put layer fd level optname optval rest
  | getpeername socket => exact finishName_put layer (.inl rfl) rest
  | getsockname socket => exact finishName_put layer (.inr rfl) rest

/-! ## The size of a response -/

/-- What the layer holds when it serves a call: a socket has a `struct sock`, and the value of
`SO_ERROR` has room where the caller wants it. -/
def Layer.Suits (layer : Layer) : Call → Prop
  | .getsockopt _ level optname optval =>
    layer.found → level = solSocket → optname = soError → int.size ≤ optval.length
  | .getpeername _ => layer.found → layer.sk ≠ none
  | .getsockname _ => layer.found → layer.sk ≠ none
  | _ => True

section Suits

variable {layer : Layer} {c : Call}

theorem length_data_getsockopt {fd level optname : Int32} {optval : List UInt8}
    (hs : layer.Suits (.getsockopt fd level optname optval)) :
    (layer.getsockopt fd level optname optval).data.length ≤ ipcSockopt.size + optval.length := by
  unfold Layer.getsockopt
  dsimp only
  split
  · rw [Reply.data, List.length_append, ipcSockopt.length_put]
  next hfound =>
  split
  next hlevel =>
    split
    next hname =>
      have := hs (by simpa using hfound) hlevel hname
      rw [Reply.data, List.length_append, ipcSockopt.length_put, int.length_put]
      omega
    · rw [Reply.data, List.length_append, ipcSockopt.length_put]
  · rw [Reply.data, List.length_append, ipcSockopt.length_put]

theorem length_data_name (layer : Layer) (socket : Int32) :
    (layer.name socket).data.length = ipcSockname.size + saDataLen := by
  obtain ⟨ret, name, saData, hr, hlen, -⟩ := exists_name layer socket
  rw [hr, Reply.data, List.length_append, ipcSockname.length_put, hlen]

/-- The response to a call is no longer than what the call reads of it. -/
theorem length_response_le (h : c.Sized) (hs : layer.Suits c) (pid : Int32) :
    ((layer.serve c).response c.type pid).length ≤ c.rlen := by
  unfold Reply.response
  rw [List.length_append, List.length_append, ipcMsg.length_put, ipcErr.length_put]
  have hplain : ipcMsg.size + (ipcErr.size + ([] : List UInt8).length) ≤ 512 := by decide
  cases c with
  | socket domain type protocol => exact hplain
  | connect sockfd addr addrlen => exact hplain
  | write sockfd buf => exact hplain
  | read sockfd len =>
    have hlt : len.toNat < 2 ^ 31 := by simp only [Call.Sized, Call.rlen] at h; omega
    obtain ⟨rlen, buf, hr, hcases⟩ := exists_read layer sockfd hlt
    have hle : buf.length ≤ len.toNat := by
      rcases hcases with ⟨-, rfl⟩ | ⟨-, hle⟩
      · exact Nat.zero_le _
      · exact hle
    rw [Layer.serve, hr, Reply.data, List.length_append, ipcBuf.length_put, Call.rlen]
    omega
  | close sockfd => exact hplain
  | poll timeout fds =>
    rw [Layer.serve, Layer.poll, Reply.data, ipcPollfd.length_putAll, length_pollScan, Call.rlen]
    omega
  | fcntl sockfd cmd => exact hplain
  | getsockopt fd level optname optval =>
    have := length_data_getsockopt hs
    rw [Layer.serve, Call.rlen]
    omega
  | getpeername socket =>
    rw [Layer.serve, length_data_name, Call.rlen]
    omega
  | getsockname socket =>
    rw [Layer.serve, length_data_name, Call.rlen]
    omega

theorem closes_name {socket : Int32} (hs : layer.found → layer.sk ≠ none) :
    (layer.name socket).closes = false := by
  unfold Layer.name
  dsimp only
  split
  · rfl
  next hfound =>
  have hsk := hs (by simpa using hfound)
  revert hsk
  cases layer.sk with
  | none => exact fun hsk => absurd rfl hsk
  | some peer => exact fun _ => rfl

/-- The connection stays open after the call. -/
theorem closes_serve (hs : layer.Suits c) : (layer.serve c).closes = false := by
  cases c with
  | read sockfd len =>
    rw [Layer.serve, Layer.read]
    split
    · rfl
    split
    · rfl
    · rfl
  | getsockopt fd level optname optval =>
    rw [Layer.serve, Layer.getsockopt]
    dsimp only
    split
    · rfl
    split
    · split
      · rfl
      · rfl
    · rfl
  | getpeername socket => exact closes_name hs
  | getsockname socket => exact closes_name hs
  | _ => rfl

end Suits

end LvlIp.Ipc
