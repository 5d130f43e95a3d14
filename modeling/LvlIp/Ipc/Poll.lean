import LvlIp.Ipc.Client
import Mathlib.Data.List.TakeWhile

/-!
# Polling both kinds of descriptor

`poll` of `tools/liblevelip.c`, which splits an array into the descriptors of the kernel and those of
lvl-ip, asks the two and puts the answers together. The kernel takes an array: it is handed the one
that starts at the first of its descriptors, and is as long as there are such descriptors. That is
the right part of the array exactly when no descriptor of lvl-ip stands between two of the kernel
(`Contiguous`), and what goes to the stack is understood there as long as it fits into the buffer of
`socket_ipc_open`. Under these two conditions, and only then, `poll` does what its caller wants
(`poll_demuxed_iff`).
-/

namespace LvlIp.Ipc

open Foundations

/-! ## The two sides -/

/-- The kernel, as one `poll(2)` finds it: whether the call fails, and what it reports of a
descriptor with the events that are asked for. -/
structure Kernel where
  fails : Bool
  revents : Int32 → Int16 → Int16

/-- `poll(2)` on an array. -/
def Kernel.poll (k : Kernel) (fds : List IpcPollfd) : List IpcPollfd :=
  fds.map fun p => { p with revents := k.revents p.fd p.events }

/-- How many descriptors have something to report. -/
def readyCount (fds : List IpcPollfd) : ℕ := fds.countP fun p => p.revents ≠ 0

/-- What a round of `poll` meets: the kernel, the socket layer, and what the buffer of the thread
held before. -/
structure PollEnv where
  kernel : Kernel
  layer : Layer
  buf : List UInt8
  length_buf : buf.length = ipcBuflen

/-- The exchange with the stack: what the stack is asked, if it understands the request, and what
`poll` makes of its answer. -/
def daemonPoll (pid timeout : Int32) (env : PollEnv) (fds : List IpcPollfd) :
    Option (List IpcPollfd) × Result :=
  let c := Call.poll timeout fds
  let request := c.request pid fun _ => 0
  let cmdbuf := request.take ipcBuflen ++ env.buf.drop request.length
  match demuxIpcSocketCall cmdbuf with
  | .serve _ (.poll _ got) =>
    let response := (env.layer.poll got).response .poll pid
    (some got, c.finish pid (response ++ (List.replicate c.rlen 0).drop response.length))
  | _ => (none, c.finish pid (List.replicate c.rlen 0))

/-! ## The code -/

section Code

variable (lvlip : Int32 → Bool)

/-- The descriptors of lvl-ip. -/
def lvlipFds (fds : List IpcPollfd) : List IpcPollfd := fds.filter fun p => lvlip p.fd

/-- The descriptors of the kernel. -/
def kernelFds (fds : List IpcPollfd) : List IpcPollfd := fds.filter fun p => !lvlip p.fd

/-- The array the kernel is handed: it starts at `kernel_fds[0]`. -/
def kernelAsks (fds : List IpcPollfd) : List IpcPollfd :=
  (fds.dropWhile fun p => lvlip p.fd).take (kernelFds lvlip fds).length

/-- The array after the kernel has answered. -/
def afterKernel (k : Kernel) (fds : List IpcPollfd) : List IpcPollfd :=
  (fds.takeWhile fun p => lvlip p.fd) ++ (k.poll (kernelAsks lvlip fds) ++
    (fds.dropWhile fun p => lvlip p.fd).drop (kernelFds lvlip fds).length)

/-- The descriptors of lvl-ip take what the stack has returned. -/
def writeBack : List IpcPollfd → List IpcPollfd → List IpcPollfd
  | [], _ => []
  | p :: fds, returned =>
    if lvlip p.fd then
      match returned with
      | [] => p :: fds
      | r :: returned => updatePollfd p r :: writeBack fds returned
    else p :: writeBack fds returned

/-- A call of `poll` that has returned: what it returned, the array, what it asked in its rounds, and
what the last round met. -/
structure PollTrace where
  ret : ℤ
  fds : List IpcPollfd
  kernelAsked : List (List IpcPollfd)
  daemonAsked : List (Option (List IpcPollfd))
  last : PollEnv

/-- The descriptors in the answer of the stack. -/
def Out.pollfds : Out → List IpcPollfd
  | .fds returned => returned
  | _ => []

/-- The rounds of `poll`. -/
def pollRounds (pid timeout : Int32) (blocking : Bool) :
    List PollEnv → List IpcPollfd → Option PollTrace
  | [], _ => none
  | env :: envs, fds =>
    let asked := kernelAsks lvlip fds
    if 0 < (kernelFds lvlip fds).length ∧ env.kernel.fails then some ⟨-1, fds, [asked], [], env⟩
    else
      let events := readyCount (env.kernel.poll asked)
      let fds := afterKernel lvlip env.kernel fds
      if (lvlipFds lvlip fds).length < 1 then some ⟨events, fds, [asked], [], env⟩
      else
        let got := daemonPoll pid timeout env (lvlipFds lvlip fds)
        if got.2.ret < 0 then some ⟨got.2.ret, fds, [asked], [got.1], env⟩
        else
          let fds := writeBack lvlip fds got.2.out.pollfds
          let result := events + got.2.ret
          if 0 < result ∨ blocking = false then some ⟨result, fds, [asked], [got.1], env⟩
          else
            (pollRounds pid timeout blocking envs fds).map fun t =>
              { t with
                kernelAsked := asked :: t.kernelAsked
                daemonAsked := got.1 :: t.daemonAsked }

/-- `poll`: with both kinds of descriptor it does not sleep for ever in one of the two calls. -/
def pollCall (pid timeout : Int32) (envs : List PollEnv) (fds : List IpcPollfd) :
    Option PollTrace :=
  if 0 < (kernelFds lvlip fds).length ∧ 0 < (lvlipFds lvlip fds).length ∧ timeout = -1 then
    pollRounds lvlip pid 100 true envs fds
  else pollRounds lvlip pid timeout false envs fds

/-! ## What its caller wants -/

/-- What is asked about a descriptor. -/
def IpcPollfd.key (p : IpcPollfd) : Int32 × Int16 := (p.fd, p.events)

/-- What the backend of a descriptor reports of it. -/
def ownRevents (env : PollEnv) (p : IpcPollfd) : Int16 :=
  if lvlip p.fd then (env.layer.pollEvents p.fd).getD 0 &&& (p.events ||| pollAlways)
  else env.kernel.revents p.fd p.events

/-- The descriptor with the report of its own backend. -/
def reported (env : PollEnv) (p : IpcPollfd) : IpcPollfd :=
  { p with revents := ownRevents lvlip env p }

/-- Both sides are asked about their own descriptors, each descriptor has the report of its own side,
and the number returned is that of the descriptors with something to report. -/
structure Demuxed (fds : List IpcPollfd) (t : PollTrace) : Prop where
  kernel : ∀ asked ∈ t.kernelAsked, asked.map (·.key) = (kernelFds lvlip fds).map (·.key)
  daemon : ∀ asked ∈ t.daemonAsked,
    asked.map (List.map (·.key)) = some ((lvlipFds lvlip fds).map (·.key))
  revents : 0 ≤ t.ret → t.fds = fds.map (reported lvlip t.last)
  count : 0 ≤ t.ret → t.ret = readyCount t.fds

/-- No descriptor of lvl-ip stands between two of the kernel. -/
def Contiguous (fds : List IpcPollfd) : Prop :=
  ∃ pre ker post, fds = pre ++ (ker ++ post) ∧ (∀ p ∈ pre, lvlip p.fd = true) ∧
    (∀ p ∈ ker, lvlip p.fd = false) ∧ ∀ p ∈ post, lvlip p.fd = true

end Code

/-- The flags that `sk->poll_events` has are all positive numbers. -/
def Layer.Flags (layer : Layer) : Prop := ∀ fd events, layer.pollEvents fd = some events → 0 ≤ events

/-- How many descriptors a request has room for. -/
def pollMax : ℕ := (ipcBuflen - ipcMsg.size - ipcPoll.size) / ipcPollfd.size

/-! ## The stack's answer -/

theorem and_nonneg {x : Int16} (h : 0 ≤ x) (y : Int16) : 0 ≤ x &&& y := by
  rw [Int16.le_iff_toInt_le, Int16.toInt_zero] at h ⊢
  have hmsb : x.toBitVec.msb = false := by
    by_contra hneg
    exact absurd (BitVec.toInt_neg_of_msb_true (Bool.not_eq_false _ ▸ hneg)) (Int.not_lt.mpr h)
  apply BitVec.toInt_nonneg_of_msb_false
  rw [Int16.toBitVec_and, BitVec.msb_and, hmsb, Bool.false_and]

theorem pos_iff_ne_zero {x : Int16} (h : 0 ≤ x) : x > 0 ↔ x ≠ 0 := by
  rw [Int16.le_iff_toInt_le, Int16.toInt_zero] at h
  rw [gt_iff_lt, Int16.lt_iff_toInt_lt, Ne, ← Int16.toInt_inj, Int16.toInt_zero]
  omega

theorem readyCount_cons (p : IpcPollfd) (fds : List IpcPollfd) :
    readyCount (p :: fds) = (if p.revents ≠ 0 then 1 else 0) + readyCount fds := by
  rw [readyCount, List.countP_cons, Nat.add_comm]
  simp [readyCount]

/-- What the stack reports of a descriptor. -/
def polledFd (layer : Layer) (p : IpcPollfd) : IpcPollfd :=
  { p with revents := (layer.pollEvents p.fd).getD 0 &&& (p.events ||| pollAlways) }

/-- `_poll` fails, or reports of every descriptor and counts those with something to report. -/
theorem pollScan_cases {layer : Layer} (hflags : layer.Flags) (fds : List IpcPollfd) (n : ℕ) :
    (layer.pollScan (Int32.ofNat n) fds).1 < 0 ∨
      layer.pollScan (Int32.ofNat n) fds =
        (Int32.ofNat (n + readyCount (fds.map (polledFd layer))), fds.map (polledFd layer)) := by
  induction fds generalizing n with
  | nil => exact .inr rfl
  | cons p fds ih =>
    unfold Layer.pollScan
    rw [List.map_cons, readyCount_cons]
    unfold polledFd
    cases hev : layer.pollEvents p.fd with
    | none => exact .inl (show -ebadf < 0 by decide)
    | some events =>
      dsimp only [Option.getD_some]
      have hiff := pos_iff_ne_zero (and_nonneg (hflags p.fd events hev) (p.events ||| pollAlways))
      by_cases hready : events &&& (p.events ||| pollAlways) ≠ 0
      · have hsucc : Int32.ofNat n + 1 = Int32.ofNat (n + 1) := (Int32.ofNat_add n 1).symm
        rw [if_pos (hiff.mpr hready), if_pos hready, ← Nat.add_assoc, hsucc]
        rcases ih (n + 1) with hneg | heq
        · exact .inl hneg
        · exact .inr (by rw [heq]; rfl)
      · rw [if_neg fun hpos => hready (hiff.mp hpos), if_neg hready, Nat.zero_add]
        rcases ih n with hneg | heq
        · exact .inl hneg
        · exact .inr (by rw [heq]; rfl)

theorem zipWith_updatePollfd (layer : Layer) (fds : List IpcPollfd) :
    List.zipWith updatePollfd fds (fds.map (polledFd layer)) = fds.map (polledFd layer) := by
  induction fds with
  | nil => rfl
  | cons p fds ih => exact congrArg (polledFd layer p :: ·) ih

/-- **The exchange with the stack**, for as many descriptors as a request has room for. -/
theorem daemonPoll_eq {env : PollEnv} {fds : List IpcPollfd} (hfits : fds.length ≤ pollMax)
    (pid timeout : Int32) :
    daemonPoll pid timeout env fds =
      (some fds, (Call.poll timeout fds).answer (env.layer.poll fds)) := by
  have hfit : (Call.poll timeout fds).Sized := by
    have hmax : pollMax = 1021 := by decide
    have hsizes : ipcMsg.size + ipcPoll.size = 18 ∧ ipcPollfd.size = 8 ∧ ipcBuflen = 8192 := by
      decide
    simp only [Call.Sized, Call.msglen, hsizes]
    omega
  have hlen : ((Call.poll timeout fds).request pid fun _ => 0).length ≤ ipcBuflen := by
    rw [Call.length_request]
    exact hfit
  unfold daemonPoll
  dsimp only
  rw [List.take_of_length_le hlen, demuxIpcSocketCall_request hfit hfit]
  exact congrArg (Prod.mk _) (finish_response hfit env.layer pid _)

/-- With more descriptors than that the stack leaves its buffer. -/
theorem daemonPoll_long {env : PollEnv} {fds : List IpcPollfd} (hlong : pollMax < fds.length)
    (hn : fds.length < 2 ^ 64) (pid timeout : Int32) :
    daemonPoll pid timeout env fds = (none, .failed (-1) none) := by
  have hsizes : ipcMsg.size = 6 ∧ ipcPoll.size = 12 ∧ ipcBuflen = 8192 ∧ pollMax = 1021 := by
    decide
  have hsize : ipcPollfd.size = 8 := rfl
  have hnat : (UInt64.ofNat fds.length).toNat = fds.length := by
    rw [UInt64.toNat_ofNat', Nat.mod_eq_of_lt hn]
  have hbuf : env.buf.drop ((Call.poll timeout fds).request pid fun _ => 0).length = [] := by
    apply List.drop_eq_nil_of_le
    rw [env.length_buf, Call.length_request, Call.msglen, hsize]
    omega
  have htake : ((Call.poll timeout fds).request pid fun _ => 0).take ipcBuflen =
      ipcMsg.put ⟨IpcType.poll.code, pid⟩ ++ (ipcPoll.put ⟨UInt64.ofNat fds.length, timeout⟩ ++
        (ipcPollfd.putAll fds).take 8174) := by
    rw [Call.request, List.take_append, ipcMsg.length_put, Call.data, List.take_append,
      ipcPoll.length_put, List.take_of_length_le (by rw [ipcMsg.length_put]; decide),
      List.take_of_length_le (by rw [ipcPoll.length_put]; decide)]
    rfl
  have hdemux : demuxIpcSocketCall (ipcMsg.put ⟨IpcType.poll.code, pid⟩ ++
      (ipcPoll.put ⟨UInt64.ofNat fds.length, timeout⟩ ++ (ipcPollfd.putAll fds).take 8174)) =
        .fault := by
    unfold demuxIpcSocketCall
    simp only [ipcMsg.get_put, ipcMsg.drop_put, IpcType.ofCode_code, ipcPollCall, ipcPoll.get_put,
      hnat, List.length_append, ipcPoll.length_put, List.length_take, hsize]
    rw [if_pos (by omega)]
  have hzero : ∀ n, 14 ≤ n → (ipcMsg.get (List.replicate n 0)).type = 0 := by
    intro n hn
    obtain ⟨m, rfl⟩ := Nat.exists_eq_add_of_le' hn
    rfl
  unfold daemonPoll
  dsimp only
  rw [hbuf, List.append_nil, htake, hdemux]
  have hrlen : 14 ≤ (Call.poll timeout fds).rlen := by
    have hhead : ipcMsg.size + ipcErr.size = 14 := by decide
    rw [Call.rlen, hhead]
    omega
  exact congrArg (Prod.mk none)
    (if_pos (.inl (by rw [hzero _ hrlen]; exact (by decide : (0 : UInt16) ≠ IpcType.poll.code))))

theorem answer_poll {layer : Layer} (hflags : layer.Flags) {fds : List IpcPollfd}
    (hfits : fds.length ≤ pollMax) (timeout : Int32) :
    ((Call.poll timeout fds).answer (layer.poll fds)).ret < 0 ∨
      (Call.poll timeout fds).answer (layer.poll fds) =
        ⟨readyCount (fds.map (polledFd layer)), none, .fds (fds.map (polledFd layer))⟩ := by
  rcases pollScan_cases hflags fds 0 with hneg | heq
  · have hcode : (layer.poll fds).code < 0 := hneg
    refine .inl ?_
    unfold Call.answer
    rw [if_pos hcode]
    exact (by decide : (-1 : Int32).toInt < 0)
  · refine .inr ?_
    have hcount : readyCount (fds.map (polledFd layer)) < 2 ^ 31 := by
      have hle : readyCount (fds.map (polledFd layer)) ≤ (fds.map (polledFd layer)).length :=
        List.countP_le_length
      have hmax : pollMax = 1021 := by decide
      rw [List.length_map] at hle
      omega
    have hpoll : layer.poll fds =
        .poll (Int32.ofNat (readyCount (fds.map (polledFd layer)))) (fds.map (polledFd layer)) := by
      rw [Nat.zero_add] at heq
      unfold Layer.poll
      rw [show (0 : Int32) = Int32.ofNat 0 from rfl, heq]
    have hcode : ¬ (layer.poll fds).code < 0 := by
      rw [hpoll]
      exact ofNat_nonneg hcount
    unfold Call.answer
    rw [if_neg hcode, hpoll]
    dsimp only
    rw [zipWith_updatePollfd, Int32.toInt_ofNat_of_lt hcount]

/-! ## One round -/

section Round

variable {lvlip : Int32 → Bool} {fds : List IpcPollfd}

/-- The kernel's report of its own descriptors. -/
def kernelSide (lvlip : Int32 → Bool) (k : Kernel) (p : IpcPollfd) : IpcPollfd :=
  if lvlip p.fd then p else { p with revents := k.revents p.fd p.events }

theorem kernelFds_append {pre ker post : List IpcPollfd} (hpre : ∀ p ∈ pre, lvlip p.fd = true)
    (hker : ∀ p ∈ ker, lvlip p.fd = false) (hpost : ∀ p ∈ post, lvlip p.fd = true) :
    kernelFds lvlip (pre ++ (ker ++ post)) = ker := by
  have hnone : ∀ l : List IpcPollfd, (∀ p ∈ l, lvlip p.fd = true) →
      l.filter (fun p => !lvlip p.fd) = [] := fun l hl =>
    List.filter_eq_nil_iff.mpr fun p hp => by simp [hl p hp]
  have hall : ker.filter (fun p => !lvlip p.fd) = ker :=
    List.filter_eq_self.mpr fun p hp => by simp [hker p hp]
  rw [kernelFds, List.filter_append, List.filter_append, hnone pre hpre, hnone post hpost, hall,
    List.nil_append, List.append_nil]

theorem map_kernelSide_of_lvlip {l : List IpcPollfd} (hl : ∀ p ∈ l, lvlip p.fd = true)
    (k : Kernel) : l.map (kernelSide lvlip k) = l :=
  (List.map_congr_left fun p hp => if_pos (hl p hp)).trans (List.map_id' l)

theorem map_kernelSide_of_kernel {l : List IpcPollfd} (hl : ∀ p ∈ l, lvlip p.fd = false)
    (k : Kernel) : l.map (kernelSide lvlip k) = k.poll l :=
  List.map_congr_left fun p hp => if_neg (by simp [hl p hp])

/-- **The kernel is handed its own descriptors** when they stand together. -/
theorem Contiguous.kernel (h : Contiguous lvlip fds) (k : Kernel) :
    kernelAsks lvlip fds = kernelFds lvlip fds ∧
      afterKernel lvlip k fds = fds.map (kernelSide lvlip k) := by
  obtain ⟨pre, ker, post, rfl, hpre, hker, hpost⟩ := h
  have hfds := kernelFds_append hpre hker hpost
  rw [List.map_append, List.map_append, map_kernelSide_of_lvlip hpre, map_kernelSide_of_lvlip hpost,
    map_kernelSide_of_kernel hker]
  unfold afterKernel kernelAsks
  rw [hfds, List.dropWhile_append_of_pos hpre, List.takeWhile_append_of_pos hpre]
  cases ker with
  | nil =>
    refine ⟨rfl, ?_⟩
    rw [List.length_nil, List.drop_zero, List.take_zero, List.append_assoc]
    exact congrArg (pre ++ ·) List.takeWhile_append_dropWhile
  | cons p ker =>
    have hp : lvlip p.fd = false := hker p List.mem_cons_self
    have hdrop : (p :: ker ++ post).dropWhile (fun p => lvlip p.fd) = p :: ker ++ post :=
      List.dropWhile_cons_of_neg (by simp [hp])
    have htake : (p :: ker ++ post).takeWhile (fun p => lvlip p.fd) = [] :=
      List.takeWhile_cons_of_neg (by simp [hp])
    rw [hdrop, htake, List.append_nil, List.take_left, List.drop_left]
    exact ⟨rfl, rfl⟩

/-- If the kernel is handed its own descriptors, they stand together. -/
theorem contiguous_of_kernelAsks
    (h : (kernelAsks lvlip fds).map (·.key) = (kernelFds lvlip fds).map (·.key)) :
    Contiguous lvlip fds := by
  have hasked : ∀ p ∈ kernelAsks lvlip fds, lvlip p.fd = false := by
    intro p hp
    have hmem : p.key ∈ (kernelFds lvlip fds).map (·.key) := h ▸ List.mem_map_of_mem hp
    obtain ⟨q, hq, hkey⟩ := List.mem_map.mp hmem
    have hfd : q.fd = p.fd := congrArg Prod.fst hkey
    have hq' := (List.mem_filter.mp hq).2
    rw [hfd] at hq'
    simpa using hq'
  -- as many descriptors of the kernel are left behind as there are beyond those it was handed
  have htotal : (kernelFds lvlip fds).length =
      (fds.dropWhile fun p => lvlip p.fd).countP fun p => !lvlip p.fd := by
    have hpre : (fds.takeWhile fun p => lvlip p.fd).countP (fun p => !lvlip p.fd) = 0 :=
      List.countP_eq_zero.mpr fun p hp => by simp [List.mem_takeWhile_imp hp]
    rw [kernelFds, ← List.countP_eq_length_filter]
    conv_lhs => rw [← @List.takeWhile_append_dropWhile _ (fun p => lvlip p.fd) fds]
    rw [List.countP_append, hpre, Nat.zero_add]
  have hsplit : kernelAsks lvlip fds ++
      (fds.dropWhile fun p => lvlip p.fd).drop (kernelFds lvlip fds).length =
        fds.dropWhile fun p => lvlip p.fd := List.take_append_drop _ _
  have hlen : (kernelAsks lvlip fds).length = (kernelFds lvlip fds).length := by
    rw [← List.length_map (·.key), h, List.length_map]
  refine ⟨fds.takeWhile fun p => lvlip p.fd, _,
    (fds.dropWhile fun p => lvlip p.fd).drop (kernelFds lvlip fds).length, ?_, ?_, hasked, ?_⟩
  · exact ((congrArg (_ ++ ·) hsplit).trans List.takeWhile_append_dropWhile).symm
  · intro p hp
    exact @List.mem_takeWhile_imp _ (fun p => lvlip p.fd) fds p hp
  · have hcount := congrArg (List.countP fun p => !lvlip p.fd) hsplit
    rw [List.countP_append, List.countP_eq_length.mpr fun p hp => by simp [hasked p hp], ← htotal,
      hlen] at hcount
    have hzero := List.countP_eq_zero.mp (Nat.add_eq_left.mp hcount)
    intro p hp
    simpa using hzero p hp

theorem lvlipFds_cons (p : IpcPollfd) (fds : List IpcPollfd) :
    lvlipFds lvlip (p :: fds) =
      if lvlip p.fd then p :: lvlipFds lvlip fds else lvlipFds lvlip fds :=
  List.filter_cons

theorem lvlipFds_kernelSide (k : Kernel) (fds : List IpcPollfd) :
    lvlipFds lvlip (fds.map (kernelSide lvlip k)) = lvlipFds lvlip fds := by
  induction fds with
  | nil => rfl
  | cons p fds ih =>
    rw [List.map_cons, lvlipFds_cons, lvlipFds_cons, ih, kernelSide]
    by_cases hp : lvlip p.fd = true
    · rw [if_pos hp]
    · rw [if_neg hp, if_neg hp, if_neg hp]

theorem writeBack_map (layer : Layer) (fds : List IpcPollfd) :
    writeBack lvlip fds ((lvlipFds lvlip fds).map (polledFd layer)) =
      fds.map fun p => if lvlip p.fd then polledFd layer p else p := by
  induction fds with
  | nil => rfl
  | cons p fds ih =>
    unfold writeBack
    rw [lvlipFds_cons]
    by_cases hp : lvlip p.fd = true
    · rw [if_pos hp, if_pos hp, List.map_cons, List.map_cons, if_pos hp]
      exact congrArg (polledFd layer p :: ·) ih
    · rw [if_neg hp, if_neg hp, List.map_cons, if_neg hp]
      exact congrArg (p :: ·) ih

/-- The array after both have answered. -/
theorem writeBack_kernelSide (env : PollEnv) (fds : List IpcPollfd) :
    writeBack lvlip (fds.map (kernelSide lvlip env.kernel))
      ((lvlipFds lvlip fds).map (polledFd env.layer)) = fds.map (reported lvlip env) := by
  have h := @writeBack_map lvlip env.layer (fds.map (kernelSide lvlip env.kernel))
  rw [lvlipFds_kernelSide, List.map_map] at h
  rw [h]
  apply List.map_congr_left
  intro p _
  unfold kernelSide reported ownRevents polledFd
  by_cases hp : lvlip p.fd = true
  · simp [hp]
  · simp [hp]

/-- The reports of both sides are counted. -/
theorem readyCount_reported (env : PollEnv) (fds : List IpcPollfd) :
    readyCount (fds.map (reported lvlip env)) =
      readyCount (env.kernel.poll (kernelFds lvlip fds)) +
        readyCount ((lvlipFds lvlip fds).map (polledFd env.layer)) := by
  induction fds with
  | nil => rfl
  | cons p fds ih =>
    rw [List.map_cons, readyCount_cons, ih, lvlipFds_cons]
    by_cases hp : lvlip p.fd = true
    · have hkernel : kernelFds lvlip (p :: fds) = kernelFds lvlip fds :=
        List.filter_cons_of_neg (by simp [hp])
      have hown : (reported lvlip env p).revents = (polledFd env.layer p).revents := if_pos hp
      rw [hown, hkernel, if_pos hp, List.map_cons, readyCount_cons]
      omega
    · have hkernel : kernelFds lvlip (p :: fds) = p :: kernelFds lvlip fds :=
        List.filter_cons_of_pos (by simp [hp])
      have hown : (reported lvlip env p).revents = env.kernel.revents p.fd p.events := if_neg hp
      have hpoll : env.kernel.poll (p :: kernelFds lvlip fds) =
          { p with revents := env.kernel.revents p.fd p.events } ::
            env.kernel.poll (kernelFds lvlip fds) := rfl
      rw [hown, hkernel, if_neg hp, hpoll, readyCount_cons]
      dsimp only
      omega

theorem map_kernelSide_of_nil (env : PollEnv) (h : lvlipFds lvlip fds = []) :
    fds.map (kernelSide lvlip env.kernel) = fds.map (reported lvlip env) := by
  apply List.map_congr_left
  intro p hp
  have hne : ¬ lvlip p.fd = true := List.filter_eq_nil_iff.mp h p hp
  unfold kernelSide reported ownRevents
  rw [if_neg hne, if_neg hne]

end Round

/-! ## All rounds -/

section Rounds

variable {lvlip : Int32 → Bool} {fds : List IpcPollfd}

/-- A change of the reports alone. -/
def KeepsKey (g : IpcPollfd → IpcPollfd) : Prop := ∀ p, (g p).key = p.key

theorem KeepsKey.fd {g : IpcPollfd → IpcPollfd} (hg : KeepsKey g) (p : IpcPollfd) :
    (g p).fd = p.fd := congrArg Prod.fst (hg p)

theorem KeepsKey.reported {g : IpcPollfd → IpcPollfd} (hg : KeepsKey g) (env : PollEnv)
    (p : IpcPollfd) : reported lvlip env (g p) = reported lvlip env p := by
  have hevents : (g p).events = p.events := congrArg Prod.snd (hg p)
  unfold Ipc.reported ownRevents
  rw [hg.fd, hevents]

theorem KeepsKey.filter {g : IpcPollfd → IpcPollfd} (hg : KeepsKey g) (q : Int32 → Bool)
    (fds : List IpcPollfd) :
    ((fds.map g).filter fun p => q p.fd).map (·.key) = (fds.filter fun p => q p.fd).map (·.key) := by
  rw [List.filter_map, List.map_map]
  have hq : (fun p : IpcPollfd => q p.fd) ∘ g = fun p => q p.fd := by
    funext p
    exact congrArg q (hg.fd p)
  rw [hq]
  exact List.map_congr_left fun p _ => hg p

theorem Contiguous.map {g : IpcPollfd → IpcPollfd} (hg : KeepsKey g) (h : Contiguous lvlip fds) :
    Contiguous lvlip (fds.map g) := by
  obtain ⟨pre, ker, post, rfl, hpre, hker, hpost⟩ := h
  have hmap : ∀ (b : Bool) (l : List IpcPollfd), (∀ p ∈ l, lvlip p.fd = b) →
      ∀ p ∈ l.map g, lvlip p.fd = b := by
    intro b l hl p hp
    obtain ⟨q, hq, rfl⟩ := List.mem_map.mp hp
    rw [hg.fd]
    exact hl q hq
  exact ⟨pre.map g, ker.map g, post.map g, by rw [List.map_append, List.map_append],
    hmap true pre hpre, hmap false ker hker, hmap true post hpost⟩

/-- The rounds of a `poll` whose descriptors stand well. -/
theorem demuxed_pollRounds (hc : Contiguous lvlip fds)
    (hmax : (lvlipFds lvlip fds).length ≤ pollMax) {pid timeout : Int32} {blocking : Bool}
    {envs : List PollEnv} (hflags : ∀ env ∈ envs, env.layer.Flags) {g : IpcPollfd → IpcPollfd}
    (hg : KeepsKey g) {t : PollTrace}
    (ht : pollRounds lvlip pid timeout blocking envs (fds.map g) = some t) :
    Demuxed lvlip fds t := by
  induction envs generalizing g t with
  | nil => exact absurd ht (by simp [pollRounds])
  | cons env envs ih =>
    obtain ⟨hasks, hafter⟩ := (hc.map hg).kernel env.kernel
    have hkey : (kernelFds lvlip (fds.map g)).map (·.key) = (kernelFds lvlip fds).map (·.key) :=
      hg.filter (fun fd => !lvlip fd) fds
    have hlkey : (lvlipFds lvlip (fds.map g)).map (·.key) = (lvlipFds lvlip fds).map (·.key) :=
      hg.filter lvlip fds
    have hreported : (fds.map g).map (reported lvlip env) = fds.map (reported lvlip env) := by
      rw [List.map_map]
      exact List.map_congr_left fun p _ => hg.reported env p
    have hmax' : (lvlipFds lvlip (fds.map g)).length ≤ pollMax := by
      rwa [← List.length_map (·.key), hlkey, List.length_map]
    have hcount := @readyCount_reported lvlip env (fds.map g)
    rw [hreported] at hcount
    unfold pollRounds at ht
    dsimp only at ht
    rw [hasks, hafter, lvlipFds_kernelSide] at ht
    split at ht
    · -- the kernel fails
      obtain rfl := Option.some.inj ht
      exact
        { kernel := fun asked h => by rw [List.mem_singleton.mp h, hkey]
          daemon := fun asked h => absurd h List.not_mem_nil
          revents := fun h => absurd h (show ¬ (0 : ℤ) ≤ -1 by decide)
          count := fun h => absurd h (show ¬ (0 : ℤ) ≤ -1 by decide) }
    split at ht
    · -- there are descriptors of the kernel only
      next hnone =>
      have hnil : lvlipFds lvlip (fds.map g) = [] := List.length_eq_zero_iff.mp (by omega)
      have hall : (fds.map g).map (kernelSide lvlip env.kernel) = fds.map (reported lvlip env) :=
        (map_kernelSide_of_nil env hnil).trans hreported
      obtain rfl := Option.some.inj ht
      rw [hnil] at hcount
      exact
        { kernel := fun asked h => by rw [List.mem_singleton.mp h, hkey]
          daemon := fun asked h => absurd h List.not_mem_nil
          revents := fun _ => hall
          count := fun _ => by rw [hall, hcount]; rfl }
    rw [daemonPoll_eq hmax'] at ht
    have hasked : (some (lvlipFds lvlip (fds.map g))).map (List.map (·.key)) =
        some ((lvlipFds lvlip fds).map (·.key)) := congrArg some hlkey
    rcases answer_poll (hflags env List.mem_cons_self) hmax' timeout with hneg | heq
    · -- the stack does
      rw [if_pos hneg] at ht
      obtain rfl := Option.some.inj ht
      exact
        { kernel := fun asked h => by rw [List.mem_singleton.mp h, hkey]
          daemon := fun asked h => by rw [List.mem_singleton.mp h, hasked]
          revents := fun h => absurd h (Int.not_le.mpr hneg)
          count := fun h => absurd h (Int.not_le.mpr hneg) }
    rw [heq] at ht
    dsimp only [Out.pollfds] at ht
    rw [if_neg (by omega), writeBack_kernelSide, hreported] at ht
    split at ht
    · obtain rfl := Option.some.inj ht
      exact
        { kernel := fun asked h => by rw [List.mem_singleton.mp h, hkey]
          daemon := fun asked h => by rw [List.mem_singleton.mp h, hasked]
          revents := fun _ => rfl
          count := fun _ => by rw [hcount, Nat.cast_add] }
    · -- nothing to report yet
      obtain ⟨t', ht', rfl⟩ := Option.map_eq_some_iff.mp ht
      have hd := ih (fun e he => hflags e (List.mem_cons_of_mem env he))
        (fun p => rfl : KeepsKey (reported lvlip env)) ht'
      exact
        { kernel := fun asked h => by
            rcases List.mem_cons.mp h with rfl | h
            · exact hkey
            · exact hd.kernel asked h
          daemon := fun asked h => by
            rcases List.mem_cons.mp h with rfl | h
            · exact hasked
            · exact hd.daemon asked h
          revents := hd.revents
          count := hd.count }

/-- A kernel that answers nothing. -/
def failingEnv : PollEnv where
  kernel := ⟨true, fun _ _ => 0⟩
  layer := ⟨true, 0, [], 0, none, fun _ => none, fun _ => 0⟩
  buf := List.replicate ipcBuflen 0
  length_buf := List.length_replicate

/-- A kernel that has nothing to report. -/
def silentEnv : PollEnv where
  kernel := ⟨false, fun _ _ => 0⟩
  layer := ⟨true, 0, [], 0, none, fun _ => none, fun _ => 0⟩
  buf := List.replicate ipcBuflen 0
  length_buf := List.length_replicate

/-- The kernel is asked even when it fails. -/
theorem pollRounds_failing (pid timeout : Int32) (blocking : Bool)
    (h : 0 < (kernelFds lvlip fds).length) :
    pollRounds lvlip pid timeout blocking [failingEnv] fds =
      some ⟨-1, fds, [kernelAsks lvlip fds], [], failingEnv⟩ :=
  if_pos ⟨h, rfl⟩

/-- With too many descriptors the stack is asked nothing it understands. -/
theorem pollRounds_long (hc : Contiguous lvlip fds) (pid timeout : Int32) (blocking : Bool)
    (hlong : pollMax < (lvlipFds lvlip fds).length) (hn : fds.length < 2 ^ 64) :
    ∃ t, pollRounds lvlip pid timeout blocking [silentEnv] fds = some t ∧ none ∈ t.daemonAsked := by
  have hlen : (lvlipFds lvlip fds).length < 2 ^ 64 :=
    lt_of_le_of_lt (List.length_filter_le _ _) hn
  unfold pollRounds
  dsimp only
  rw [if_neg (by simp [silentEnv]), (hc.kernel silentEnv.kernel).2, lvlipFds_kernelSide,
    if_neg (by omega), daemonPoll_long hlong hlen]
  exact ⟨_, rfl, List.mem_singleton.mpr rfl⟩

end Rounds

/-- **When `poll` demultiplexes**: the descriptors of the kernel stand together in the array, and
those of lvl-ip fit into one request. -/
theorem poll_demuxed_iff (lvlip : Int32 → Bool) (pid timeout : Int32) (fds : List IpcPollfd)
    (hn : fds.length < 2 ^ 64) :
    (∀ (envs : List PollEnv) (t : PollTrace), (∀ env ∈ envs, env.layer.Flags) →
      pollCall lvlip pid timeout envs fds = some t → Demuxed lvlip fds t) ↔
    Contiguous lvlip fds ∧ (lvlipFds lvlip fds).length ≤ pollMax := by
  have hflags : ∀ env : PollEnv, env.layer.pollEvents = (fun _ => none) →
      ∀ e ∈ [env], e.layer.Flags := by
    intro env hnone e he fd events hev
    rw [List.mem_singleton.mp he, hnone] at hev
    exact absurd hev (by simp)
  constructor
  · intro h
    have hc : Contiguous lvlip fds := by
      by_cases hker : 0 < (kernelFds lvlip fds).length
      · have hcall : ∃ t, pollCall lvlip pid timeout [failingEnv] fds = some t ∧
            kernelAsks lvlip fds ∈ t.kernelAsked := by
          unfold pollCall
          split
          · exact ⟨_, pollRounds_failing pid _ _ hker, List.mem_singleton.mpr rfl⟩
          · exact ⟨_, pollRounds_failing pid _ _ hker, List.mem_singleton.mpr rfl⟩
        obtain ⟨t, ht, hmem⟩ := hcall
        exact contiguous_of_kernelAsks ((h _ t (hflags failingEnv rfl) ht).kernel _ hmem)
      · have hnil : kernelFds lvlip fds = [] := List.length_eq_zero_iff.mp (by omega)
        refine ⟨fds, [], [], by rw [List.append_nil, List.append_nil], fun p hp => ?_,
          fun p hp => absurd hp List.not_mem_nil, fun p hp => absurd hp List.not_mem_nil⟩
        simpa using List.filter_eq_nil_iff.mp hnil p hp
    refine ⟨hc, Nat.not_lt.mp fun hlong => ?_⟩
    have hcall : ∃ t, pollCall lvlip pid timeout [silentEnv] fds = some t ∧
        none ∈ t.daemonAsked := by
      unfold pollCall
      split
      · exact pollRounds_long hc pid _ _ hlong hn
      · exact pollRounds_long hc pid _ _ hlong hn
    obtain ⟨t, ht, hmem⟩ := hcall
    have hnone := (h _ t (hflags silentEnv rfl) ht).daemon none hmem
    exact absurd hnone (by simp)
  · rintro ⟨hc, hmax⟩ envs t henvs ht
    have hid : fds.map id = fds := List.map_id fds
    unfold pollCall at ht
    split at ht
    · rw [← hid] at ht
      exact demuxed_pollRounds hc hmax henvs (fun _ => rfl) ht
    · rw [← hid] at ht
      exact demuxed_pollRounds hc hmax henvs (fun _ => rfl) ht

/-- Descriptors from 4097 on are those of lvl-ip. -/
def highFds (fd : Int32) : Bool := 4097 ≤ fd

/-- A descriptor that waits for input. -/
def waitIn (fd : Int32) : IpcPollfd := ⟨fd, 1, 0⟩

theorem contiguous_two : Contiguous highFds [waitIn 0, waitIn 4097] :=
  ⟨[], [waitIn 0], [waitIn 4097], rfl, by decide, by decide, by decide⟩

/-- Standard input and one socket. -/
theorem poll_demuxed_two : Contiguous highFds [waitIn 0, waitIn 4097] ∧
    ∀ (envs : List PollEnv) (t : PollTrace), (∀ env ∈ envs, env.layer.Flags) →
      pollCall highFds 7 (-1) envs [waitIn 0, waitIn 4097] = some t →
        Demuxed highFds [waitIn 0, waitIn 4097] t :=
  ⟨contiguous_two, (poll_demuxed_iff highFds 7 (-1) [waitIn 0, waitIn 4097] (by decide)).mpr
    ⟨contiguous_two, by decide⟩⟩

/-- Standard output can be written; what the kernel says of a descriptor it does not know is
`POLLNVAL`. -/
def busyEnv : PollEnv where
  kernel := ⟨false, fun fd _ => if fd = 1 then 4 else if fd = 4097 then 32 else 0⟩
  layer := ⟨true, 0, [], 0, none, fun _ => some 0, fun _ => 0⟩
  buf := List.replicate ipcBuflen 0
  length_buf := List.length_replicate

/-- A socket between standard input and standard output: the kernel is asked about the socket and not
about standard output, one descriptor is said to be ready, and the array shows none. -/
theorem not_demuxed_between : ∃ t,
    pollCall highFds 7 0 [busyEnv] [waitIn 0, waitIn 4097, ⟨1, 4, 0⟩] = some t ∧
      t.ret = 1 ∧ readyCount t.fds = 0 ∧ ¬ Demuxed highFds [waitIn 0, waitIn 4097, ⟨1, 4, 0⟩] t := by
  have hafter : afterKernel highFds busyEnv.kernel [waitIn 0, waitIn 4097, ⟨1, 4, 0⟩] =
      [waitIn 0, ⟨4097, 1, 32⟩, ⟨1, 4, 0⟩] := by decide
  have hlvlip : lvlipFds highFds [waitIn 0, ⟨4097, 1, 32⟩, ⟨1, 4, 0⟩] = [⟨4097, 1, 32⟩] := by decide
  have hgot : daemonPoll 7 0 busyEnv [⟨4097, 1, 32⟩] =
      (some [⟨4097, 1, 32⟩], ⟨0, none, .fds [⟨4097, 1, 0⟩]⟩) := daemonPoll_eq (by decide) 7 0
  have hcall : pollCall highFds 7 0 [busyEnv] [waitIn 0, waitIn 4097, ⟨1, 4, 0⟩] =
      some ⟨1, [waitIn 0, waitIn 4097, ⟨1, 4, 0⟩], [[waitIn 0, waitIn 4097]],
        [some [⟨4097, 1, 32⟩]], busyEnv⟩ := by
    unfold pollCall
    rw [if_neg (by decide)]
    unfold pollRounds
    dsimp only
    rw [if_neg (by decide), hafter, hlvlip, if_neg (by decide), hgot]
    rfl
  refine ⟨_, hcall, rfl, rfl, fun h => ?_⟩
  exact absurd (h.count Int.one_nonneg) (by decide)

end LvlIp.Ipc
