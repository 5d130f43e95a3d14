import LvlIp.Foundations.Lock
import LvlIp.Socket.Notify

/-!
# Sleeping and waking

The threads that work on one socket: one that reads from it, and any others, for the segments that
arrive, the timers and the user's other calls. Each holds the lock of the socket meanwhile
(`socket_wr_acquire`, `socket_release`). A reader that finds too little takes the mutex of
`recv_wait` before it lets go of the lock, and gives the mutex back by falling asleep, so a thread
that brings something cannot call `wait_wakeup` in between. The thread of a timer that has expired runs
its handler when it gets the lock, whatever has happened to the timer meanwhile.

However the threads take turns, they work like one after the other, no wakeup is lost and they never
block each other (`threads_run`). One thing happens without a call of `recv_notify`: in TIME_WAIT the
acknowledgement of everything sets `TCP_FIN`. A reader that was woken by the reset before, found nothing
and sleeps again is not told of it, so a socket whose connection is over counts as quiet with the
mark too (`Host.Quiet`).
-/

namespace LvlIp.Tcp

open Foundations Relation

/-! ## The threads -/

/-- The work that is done under the lock of the socket by other threads than its reader: those of the
segments that arrive, the user's other calls, and the timers. -/
def ThreadEvent.underLock : ThreadEvent → Bool
  | .event (.arrive _) | .event (.write _) | .event .close | .late _ => true
  | _ => false

/-- Such work. -/
def LockedEvent : Type := { e : ThreadEvent // e.underLock }

theorem LockedEvent.ne (e : LockedEvent) :
    (∀ len, e.1 ≠ .event (.read len)) ∧ ∀ rd, e.1 ≠ .event (.wake rd) := by
  obtain ⟨e, he⟩ := e
  refine ⟨fun len heq => ?_, fun rd heq => ?_⟩
  · rw [show e = .event (.read len) from heq] at he
    cases he
  · rw [show e = .event (.wake rd) from heq] at he
    cases he

/-- Where the reader is. -/
inductive ReaderPc
  | out
  /-- In `_read`, before `socket_wr_acquire`. -/
  | enter (len : ℕ)
  /-- Before `tcp_read`. -/
  | begin (len : ℕ)
  /-- In `tcp_receive`, before `pthread_mutex_lock`. -/
  | lock
  /-- Before `socket_release`. -/
  | giveUp
  /-- Before `wait_sleep`. -/
  | sleep
  /-- In `pthread_cond_wait`. -/
  | asleep
  /-- There too, and awake: it needs the mutex again. -/
  | woken
  /-- Before `pthread_mutex_unlock`. -/
  | unlock
  /-- Before `socket_wr_acquire`. -/
  | acquire
  /-- Before the next iteration of the loop. -/
  | resume
  /-- Before the `socket_release` of `_read`. -/
  | leave
deriving DecidableEq

/-- Where another thread is. -/
inductive Pc
  | out
  /-- Before `socket_wr_acquire`. -/
  | enter (e : LockedEvent)
  /-- Before its work on the socket. -/
  | run (e : LockedEvent)
  /-- In `wait_wakeup`, before `pthread_mutex_lock`; `left` more calls follow. -/
  | notify (left : ℕ)
  /-- Before `pthread_cond_signal`. -/
  | signal (left : ℕ)
  /-- Before `pthread_mutex_unlock`. -/
  | unlock (left : ℕ)
  /-- Before `socket_release`. -/
  | leave

namespace ReaderPc

/-- The reader holds the lock of the socket. -/
def inside : ReaderPc → Bool
  | .begin _ | .lock | .giveUp | .resume | .leave => true
  | _ => false

/-- The reader holds the mutex of `recv_wait`. -/
def guards : ReaderPc → Bool
  | .giveUp | .sleep | .unlock => true
  | _ => false

/-- A call of `tcp_receive` waits. -/
def waits : ReaderPc → Bool
  | .out | .enter _ | .begin _ | .leave => false
  | _ => true

/-- The reader has found too little, and has not been woken since. -/
def sleeps : ReaderPc → Bool
  | .lock | .giveUp | .sleep | .asleep => true
  | _ => false

/-- `pthread_cond_signal`. -/
def signalled : ReaderPc → ReaderPc
  | .asleep => .woken
  | pc => pc

end ReaderPc

namespace Pc

/-- The thread holds the lock of the socket. -/
def inside : Pc → Bool
  | .out | .enter _ => false
  | _ => true

/-- The thread holds the mutex of `recv_wait`. -/
def guards : Pc → Bool
  | .signal _ | .unlock _ => true
  | _ => false

/-- The thread is about to wake the reader. -/
def notifies : Pc → Bool
  | .notify _ | .signal _ => true
  | _ => false

/-- What is next when so many calls of `recv_notify` are left. -/
def after : ℕ → Pc
  | 0 => .leave
  | n + 1 => .notify n

end Pc

/-- A socket with its user, its lock and the mutex of its `recv_wait`, and the threads; as an owner
the reader is `none`. -/
structure Threads (T : Type) where
  host : Host
  owner : Option (Option T)
  mutex : Option (Option T)
  reader : ReaderPc
  others : T → Pc

namespace Threads

variable {T : Type}

/-- The reader has called `tcp_read`, or has gone on with it. -/
def look (env : Env) (σ : Threads T) (e : TcpEvent) : Threads T :=
  let host := σ.host.step env e
  { σ with host, reader := if host.reader.isSome then .lock else .leave }

/-- A thread goes on. -/
inductive Work [DecidableEq T] (env : Env) : Threads T → Threads T → Prop
  | readAcquire {σ : Threads T} {len : ℕ} (hpc : σ.reader = .enter len) (hfree : σ.owner = none) :
      Work env σ { σ with owner := some none, reader := .begin len }
  | read {σ : Threads T} {len : ℕ} (hpc : σ.reader = .begin len) :
      Work env σ (σ.look env (.read len))
  | lock {σ : Threads T} (hpc : σ.reader = .lock) (hfree : σ.mutex = none) :
      Work env σ { σ with mutex := some none, reader := .giveUp }
  | giveUp {σ : Threads T} (hpc : σ.reader = .giveUp) :
      Work env σ { σ with owner := none, reader := .sleep }
  | sleep {σ : Threads T} (hpc : σ.reader = .sleep) :
      Work env σ { σ with mutex := none, reader := .asleep }
  | woken {σ : Threads T} (hpc : σ.reader = .woken) (hfree : σ.mutex = none) :
      Work env σ { σ with mutex := some none, reader := .unlock }
  | unlock {σ : Threads T} (hpc : σ.reader = .unlock) :
      Work env σ { σ with mutex := none, reader := .acquire }
  | acquire {σ : Threads T} (hpc : σ.reader = .acquire) (hfree : σ.owner = none) :
      Work env σ { σ with owner := some none, reader := .resume }
  | resume {σ : Threads T} {rd : Reader} (hpc : σ.reader = .resume)
      (hrd : σ.host.reader = some rd) : Work env σ (σ.look env (.wake rd))
  | readRelease {σ : Threads T} (hpc : σ.reader = .leave) :
      Work env σ { σ with owner := none, reader := .out }
  | enter {σ : Threads T} {t : T} {e : LockedEvent} (hpc : σ.others t = .enter e)
      (hfree : σ.owner = none) : Work env σ { σ with
        owner := some (some t), others := Function.update σ.others t (.run e) }
  -- `recv_notify` is called amid the work: nobody else sees the socket before the lock is free
  | run {σ : Threads T} {t : T} {e : LockedEvent} (hpc : σ.others t = .run e) :
      Work env σ { σ with
        host := σ.host.threadStep env e.1
        others := Function.update σ.others t (.after (recvNotifies env σ.host.sock e.1)) }
  | notify {σ : Threads T} {t : T} {n : ℕ} (hpc : σ.others t = .notify n) (hfree : σ.mutex = none) :
      Work env σ { σ with mutex := some (some t), others := Function.update σ.others t (.signal n) }
  | signal {σ : Threads T} {t : T} {n : ℕ} (hpc : σ.others t = .signal n) :
      Work env σ { σ with
        reader := σ.reader.signalled, others := Function.update σ.others t (.unlock n) }
  | wakeupDone {σ : Threads T} {t : T} {n : ℕ} (hpc : σ.others t = .unlock n) :
      Work env σ { σ with mutex := none, others := Function.update σ.others t (.after n) }
  | release {σ : Threads T} {t : T} (hpc : σ.others t = .leave) :
      Work env σ { σ with owner := none, others := Function.update σ.others t .out }

/-- What comes from outside: calls, the time, and wakeups without a reason. -/
inductive Outside [DecidableEq T] (env : Env) : Threads T → Threads T → Prop
  | read {σ : Threads T} (hpc : σ.reader = .out) (len : ℕ) :
      Outside env σ { σ with reader := .enter len }
  | call {σ : Threads T} {t : T} (hpc : σ.others t = .out) (e : LockedEvent) :
      Outside env σ { σ with others := Function.update σ.others t (.enter e) }
  | tick {σ : Threads T} (ms : ℕ) : Outside env σ { σ with host := σ.host.step env (.tick ms) }
  | spurious {σ : Threads T} (hpc : σ.reader = .asleep) : Outside env σ { σ with reader := .woken }

/-- One step of the threads. -/
def Step [DecidableEq T] (env : Env) (σ σ' : Threads T) : Prop := Work env σ σ' ∨ Outside env σ σ'

/-- Nobody works on the socket. -/
structure Start (σ : Threads T) : Prop where
  owner : σ.owner = none
  mutex : σ.mutex = none
  reader : σ.reader = .out
  others : ∀ t, σ.others t = .out
  waiting : σ.host.reader = none

/-- No thread has anything to do. -/
def Idle (σ : Threads T) : Prop :=
  (σ.reader = .out ∨ σ.reader = .asleep) ∧ ∀ t, σ.others t = .out

end Threads

/-! ## What the threads do to the socket -/

/-- There is nothing for a sleeping reader: no text in order, and no mark of the end of the stream unless
the connection is over, in CLOSING or TIME_WAIT. -/
def Host.Quiet (h : Host) : Prop :=
  h.sock.receiveQueue = [] ∧ (h.sock.finFlag → h.sock.state.Over)

section Quiet

variable {env : Env} {s : TcpSock} {h : Host}

/-- A read that leaves room in its buffer has emptied the queue. -/
theorem tcpDequeueLoop_room (q : List SkBuff) (n : ℕ) (hroom : n ≠ (tcpDequeueLoop q n).1.length) :
    (tcpDequeueLoop q n).2.1 = [] := by
  induction q generalizing n with
  | nil => rfl
  | cons skb q ih =>
    unfold tcpDequeueLoop at hroom ⊢
    split
    · next h0 =>
      rw [if_pos h0] at hroom
      exact absurd h0 hroom
    · next h0 =>
      rw [if_neg h0] at hroom
      split
      · next hlt =>
        rw [if_pos hlt] at hroom
        refine absurd ?_ hroom
        rw [List.length_take, Nat.min_eq_left (show n ≤ skb.payload.length from Nat.le_of_lt hlt)]
      · next hle =>
        rw [if_neg hle] at hroom
        refine ih _ fun heq => hroom ?_
        have hlen : skb.dlen = skb.payload.length := rfl
        rw [List.length_append, ← heq, ← hlen]
        omega

/-- **A reader that goes to sleep** has found nothing. -/
theorem tcpReceiveStep_wait {rd rd' : Reader} (hwait : (tcpReceiveStep s rd).2 = .wait rd') :
    (tcpReceiveStep s rd).1.receiveQueue = [] ∧ (tcpReceiveStep s rd).1.finFlag = false := by
  unfold tcpReceiveStep at hwait ⊢
  split
  · next h0 =>
    rw [if_pos h0] at hwait
    cases hwait
  · next h0 =>
    rw [if_neg h0] at hwait
    dsimp only at hwait ⊢
    have hempty := tcpDequeueLoop_room s.receiveQueue rd.room
    split
    · next hpsh =>
      rw [if_pos hpsh] at hwait
      cases hwait
    · next hpsh =>
      rw [if_neg hpsh] at hwait
      split
      · next hstop =>
        rw [if_pos hstop] at hwait
        cases hwait
      · next hstop =>
        rw [if_neg hstop] at hwait
        obtain ⟨hfin, hroom⟩ := not_or.mp hstop
        split
        · next hnon =>
          rw [if_pos hnon] at hwait
          split at hwait
          · cases hwait
          · cases hwait
        · exact ⟨hempty hroom, Bool.eq_false_iff.mpr hfin⟩

theorem tcpRead_wait {len : ℕ} {rd : Reader} (hwait : (tcpRead s len).2 = .wait rd) :
    (tcpRead s len).1.receiveQueue = [] ∧ (tcpRead s len).1.finFlag = false := by
  unfold tcpRead at hwait ⊢
  cases hst : s.state <;> rw [hst] at hwait
  case closeWait =>
    dsimp only at hwait ⊢
    split
    · next heof =>
      rw [if_pos heof] at hwait
      cases hwait
    · next heof =>
      rw [if_neg heof] at hwait
      exact tcpReceiveStep_wait hwait
  any_goals exact tcpReceiveStep_wait hwait
  all_goals cases hwait

theorem Host.quiet_afterRead {res : TcpSock × ReadResult} (hrd : (h.afterRead res).reader.isSome)
    (hwait : ∀ rd, res.2 = .wait rd → res.1.receiveQueue = [] ∧ res.1.finFlag = false) :
    (h.afterRead res).Quiet := by
  unfold Host.afterRead at hrd ⊢
  cases hres : res.2 with
  | done ret bytes =>
    rw [hres] at hrd
    cases hrd
  | wait rd =>
    obtain ⟨hq, hfin⟩ := hwait rd hres
    exact ⟨hq, fun hflag => absurd hflag (Bool.eq_false_iff.mp hfin)⟩

/-- The reader has called `tcp_read`. -/
theorem Host.quiet_read (hrd : h.reader = none) (len : ℕ)
    (hwait : (h.step env (.read len)).reader.isSome) : (h.step env (.read len)).Quiet := by
  have hstep : h.step env (.read len) = h.afterRead (tcpRead h.sock len) := by
    unfold Host.step
    rw [hrd]
  rw [hstep] at hwait ⊢
  exact Host.quiet_afterRead hwait fun rd => tcpRead_wait

/-- The reader has gone on. -/
theorem Host.quiet_wake {rd : Reader} (hrd : h.reader = some rd) (rd' : Reader)
    (hwait : (h.step env (.wake rd')).reader.isSome) : (h.step env (.wake rd')).Quiet := by
  have hstep : h.step env (.wake rd') = h.afterRead (tcpReceiveStep h.sock rd) := by
    unfold Host.step
    rw [hrd]
  rw [hstep] at hwait ⊢
  exact Host.quiet_afterRead hwait fun rd => tcpReceiveStep_wait

theorem TcpState.Over.move {st st' : TcpState} (hmove : TcpState.Move st st') (h : st.Over) :
    st'.Over := by
  rcases h with rfl | rfl
  · cases hmove with
    | crossedAcked => exact .inr rfl
    | reset _ => exact .inr rfl
    | done => exact .inl rfl
  · cases hmove with
    | reset _ => exact .inr rfl
    | done => exact .inl rfl

/-- The other events leave the user of the socket alone, except for what is written. -/
theorem Host.threadStep_other {e : ThreadEvent} (hread : ∀ len, e ≠ .event (.read len))
    (hwake : ∀ rd, e ≠ .event (.wake rd)) :
    (h.threadStep env e).sock = Tcp.threadStep env h.sock e ∧
      (h.threadStep env e).reader = h.reader := by
  cases e with
  | late handler => exact ⟨rfl, rfl⟩
  | event e =>
    cases e with
    | read len => exact absurd rfl (hread len)
    | wake rd => exact absurd rfl (hwake rd)
    | _ => exact ⟨rfl, rfl⟩

/-- **What calls no `recv_notify`** leaves a quiet socket quiet. -/
theorem Host.Quiet.threadStep (hq : h.Quiet) {e : ThreadEvent}
    (hread : ∀ len, e ≠ .event (.read len)) (hwake : ∀ rd, e ≠ .event (.wake rd))
    (hno : recvNotifies env h.sock e = 0) : (h.threadStep env e).Quiet := by
  have hun := unnoticed_threadStep env h.sock hread hwake hno
  have hmoves := @moves_threadStep env h.sock e
  unfold Host.Quiet
  rw [(Host.threadStep_other hread hwake).1]
  refine ⟨hun.queue.trans hq.1, fun hflag => ?_⟩
  rcases hun.fin hflag with hflag' | hover
  · exact hmoves.closed (fun _ _ => TcpState.Over.move) (hq.2 hflag')
  · exact hover

end Quiet

/-! ## Invariant -/

section Insides

variable {T : Type}

/-- The threads that hold the lock of the socket. -/
def insides (r : ReaderPc) (o : T → Pc) : Option T → Bool
  | none => r.inside
  | some t => (o t).inside

/-- The threads that hold the mutex. -/
def guardians (r : ReaderPc) (o : T → Pc) : Option T → Bool
  | none => r.guards
  | some t => (o t).guards

variable [DecidableEq T] {owner : Option (Option T)} {r r' : ReaderPc} {o : T → Pc}

theorem insides_reader (r r' : ReaderPc) (o : T → Pc) :
    insides r' o = Function.update (insides r o) none r'.inside := by
  funext w
  cases w with
  | none => rfl
  | some t => rfl

theorem insides_others (r : ReaderPc) (o : T → Pc) (t : T) (pc : Pc) :
    insides r (Function.update o t pc) = Function.update (insides r o) (some t) pc.inside := by
  funext w
  cases w with
  | none => rfl
  | some v =>
    by_cases hv : v = t
    · rw [hv, Function.update_self]
      exact congrArg Pc.inside (Function.update_self t pc o)
    · rw [Function.update_of_ne (fun h => hv (Option.some.inj h))]
      exact congrArg Pc.inside (Function.update_of_ne hv pc o)

theorem guardians_reader (r r' : ReaderPc) (o : T → Pc) :
    guardians r' o = Function.update (guardians r o) none r'.guards := by
  funext w
  cases w with
  | none => rfl
  | some t => rfl

theorem guardians_others (r : ReaderPc) (o : T → Pc) (t : T) (pc : Pc) :
    guardians r (Function.update o t pc) = Function.update (guardians r o) (some t) pc.guards := by
  funext w
  cases w with
  | none => rfl
  | some v =>
    by_cases hv : v = t
    · rw [hv, Function.update_self]
      exact congrArg Pc.guards (Function.update_self t pc o)
    · rw [Function.update_of_ne (fun h => hv (Option.some.inj h))]
      exact congrArg Pc.guards (Function.update_of_ne hv pc o)

end Insides

namespace Threads

variable {T : Type}

/-- Some thread is about to wake the reader. -/
def Noticed (σ : Threads T) : Prop := ∃ t, (σ.others t).notifies

/-- The lock and the mutex are held by those who are inside, and a reader that sleeps, or is about
to, misses nothing. -/
structure Inv (σ : Threads T) : Prop where
  lock : Held σ.owner (insides σ.reader σ.others)
  mutex : Held σ.mutex (guardians σ.reader σ.others)
  waits : σ.host.reader.isSome = σ.reader.waits
  sleeps : σ.reader.sleeps → σ.host.Quiet ∨ σ.Noticed

theorem Start.inv {σ : Threads T} (h : σ.Start) : σ.Inv where
  lock w := by
    rw [h.owner]
    refine iff_of_false (Option.some_ne_none w).symm ?_
    cases w with
    | none => exact Bool.eq_false_iff.mp (congrArg ReaderPc.inside h.reader)
    | some t => exact Bool.eq_false_iff.mp (congrArg Pc.inside (h.others t))
  mutex w := by
    rw [h.mutex]
    refine iff_of_false (Option.some_ne_none w).symm ?_
    cases w with
    | none => exact Bool.eq_false_iff.mp (congrArg ReaderPc.guards h.reader)
    | some t => exact Bool.eq_false_iff.mp (congrArg Pc.guards (h.others t))
  waits := by
    rw [h.waiting, h.reader]
    rfl
  sleeps hs := by
    rw [h.reader] at hs
    cases hs

/-- The thread that holds the lock is the only one that is about to wake the reader. -/
theorem Inv.noticed {σ : Threads T} (hi : σ.Inv) {t : T} (hin : (σ.others t).inside)
    (hn : σ.Noticed) : (σ.others t).notifies := by
  obtain ⟨v, hv⟩ := hn
  have hv' : (σ.others v).inside := by
    revert hv
    cases σ.others v <;> first
      | exact fun _ => rfl
      | exact fun hv => hv
  have heq : some v = some t := hi.lock.unique hv' hin
  rwa [← Option.some.inj heq]

section Steps

variable [DecidableEq T] {env : Env} {σ σ' : Threads T}

theorem notifies_update {o : T → Pc} {t : T} {pc : Pc} (ht : (o t).notifies = false)
    (h : ∃ v, (o v).notifies) : ∃ v, (Function.update o t pc v).notifies := by
  obtain ⟨v, hv⟩ := h
  refine ⟨v, ?_⟩
  rwa [Function.update_of_ne]
  rintro rfl
  rw [ht] at hv
  cases hv

/-- The reader moves from `pc` to `pc'`, and the socket stays as it is. -/
theorem Inv.reader {owner mutex : Option (Option T)} {pc pc' : ReaderPc} (hi : σ.Inv)
    (hpc : σ.reader = pc) (hlock : Crossing none σ.owner pc.inside owner pc'.inside)
    (hmutex : Crossing none σ.mutex pc.guards mutex pc'.guards) (hwaits : pc'.waits = pc.waits)
    (hsleeps : pc'.sleeps → pc.sleeps) : Inv { σ with owner, mutex, reader := pc' } := by
  subst hpc
  refine ⟨?_, ?_, hi.waits.trans hwaits.symm, fun hs => hi.sleeps (hsleeps hs)⟩
  · rw [insides_reader σ.reader]
    exact hi.lock.cross hlock
  · rw [guardians_reader σ.reader]
    exact hi.mutex.cross hmutex

/-- The reader has looked at the socket. -/
theorem Inv.look (hi : σ.Inv) {e : TcpEvent} {pc : ReaderPc} (hpc : σ.reader = pc)
    (hin : pc.inside = true) (hno : pc.guards = false)
    (hquiet : (σ.host.step env e).reader.isSome → (σ.host.step env e).Quiet) :
    (σ.look env e).Inv := by
  subst hpc
  unfold Threads.look
  dsimp only
  cases hsome : (σ.host.step env e).reader.isSome with
  | false =>
    refine ⟨?_, ?_, hsome, nofun⟩
    · rw [insides_reader σ.reader]
      exact hi.lock.cross (.stay hin.symm)
    · rw [guardians_reader σ.reader]
      exact hi.mutex.cross (.stay hno.symm)
  | true =>
    refine ⟨?_, ?_, hsome, fun _ => .inl (hquiet hsome)⟩
    · rw [insides_reader σ.reader]
      exact hi.lock.cross (.stay hin.symm)
    · rw [guardians_reader σ.reader]
      exact hi.mutex.cross (.stay hno.symm)

/-- Another thread moves from `pc` to `pc'`. -/
theorem Inv.other {owner mutex : Option (Option T)} {t : T} {pc pc' : Pc} (hi : σ.Inv)
    (hpc : σ.others t = pc) (hlock : Crossing (some t) σ.owner pc.inside owner pc'.inside)
    (hmutex : Crossing (some t) σ.mutex pc.guards mutex pc'.guards)
    (hnotice : pc.notifies → pc'.notifies) :
    Inv { σ with owner, mutex, others := Function.update σ.others t pc' } := by
  subst hpc
  refine ⟨?_, ?_, hi.waits, fun hs => (hi.sleeps hs).imp_right fun hn => ?_⟩
  · rw [insides_others]
    exact hi.lock.cross hlock
  · rw [guardians_others]
    exact hi.mutex.cross hmutex
  · cases ht : (σ.others t).notifies with
    | false => exact notifies_update ht hn
    | true =>
      refine ⟨t, ?_⟩
      change (Function.update σ.others t pc' t).notifies
      rw [Function.update_self]
      exact hnotice ht

@[simp]
theorem inside_after (n : ℕ) : (Pc.after n).inside = true := by
  cases n <;> rfl

@[simp]
theorem guards_after (n : ℕ) : (Pc.after n).guards = false := by
  cases n <;> rfl

/-- A thread has worked on the socket. -/
theorem Inv.run (hi : σ.Inv) {t : T} {e : LockedEvent} (hpc : σ.others t = .run e) : Inv { σ with
    host := σ.host.threadStep env e.1
    others := Function.update σ.others t (.after (recvNotifies env σ.host.sock e.1)) } := by
  obtain ⟨hread, hwake⟩ := e.ne
  have hin : (σ.others t).inside = true := congrArg Pc.inside hpc
  have hno : (σ.others t).guards = false := congrArg Pc.guards hpc
  refine ⟨?_, ?_, ?_, fun hs => ?_⟩
  · rw [insides_others, inside_after]
    exact hi.lock.cross (.stay hin.symm)
  · rw [guardians_others, guards_after]
    exact hi.mutex.cross (.stay hno.symm)
  · exact (congrArg Option.isSome (Host.threadStep_other hread hwake).2).trans hi.waits
  · cases hn : recvNotifies env σ.host.sock e.1 with
    | zero =>
      rcases hi.sleeps hs with hq | hnoticed
      · exact .inl (hq.threadStep hread hwake hn)
      · have hnot := hi.noticed hin hnoticed
        rw [hpc] at hnot
        cases hnot
    | succ n =>
      refine .inr ⟨t, ?_⟩
      change (Function.update σ.others t (Pc.after (n + 1)) t).notifies
      rw [Function.update_self]
      rfl

/-- The reader has been woken, if it slept. -/
theorem Inv.signal (hi : σ.Inv) {t : T} {n : ℕ} (hpc : σ.others t = .signal n) : Inv { σ with
    reader := σ.reader.signalled, others := Function.update σ.others t (.unlock n) } := by
  have hin : insides σ.reader σ.others (some t) = true := congrArg Pc.inside hpc
  have hguards : guardians σ.reader σ.others (some t) = true := congrArg Pc.guards hpc
  -- a reader on its way to sleep holds the lock or the mutex, but this thread has both
  have hreader : σ.reader.inside = false := hi.lock.outside hin (Option.some_ne_none t).symm
  have hguard : σ.reader.guards = false := hi.mutex.outside hguards (Option.some_ne_none t).symm
  have hwoken : σ.reader.signalled.sleeps = false := by
    revert hreader hguard
    cases σ.reader <;> simp [ReaderPc.signalled, ReaderPc.sleeps, ReaderPc.inside, ReaderPc.guards]
  have hsame : σ.reader.signalled.inside = σ.reader.inside ∧
      σ.reader.signalled.guards = σ.reader.guards ∧
      σ.reader.signalled.waits = σ.reader.waits := by
    cases σ.reader <;> exact ⟨rfl, rfl, rfl⟩
  have hi' : Inv { σ with reader := σ.reader.signalled } := by
    refine hi.reader rfl (.stay hsame.1) (.stay hsame.2.1) hsame.2.2 fun hs => ?_
    rw [hwoken] at hs
    cases hs
  refine ⟨?_, ?_, hi'.waits, fun hs => ?_⟩
  · rw [insides_others]
    exact hi'.lock.cross (.stay hin.symm)
  · rw [guardians_others]
    exact hi'.mutex.cross (.stay hguards.symm)
  · rw [show σ.reader.signalled.sleeps = false from hwoken] at hs
    cases hs

/-- **A thread that goes on keeps the invariant.** -/
theorem Inv.work (hi : σ.Inv) (h : Work env σ σ') : σ'.Inv := by
  cases h with
  | readAcquire hpc hfree => exact hi.reader hpc (.acquire hfree) (.stay rfl) rfl nofun
  | read hpc =>
    have hrd : σ.host.reader = none := by
      have hwaits := hi.waits.trans (congrArg ReaderPc.waits hpc)
      cases hrd : σ.host.reader with
      | none => rfl
      | some rd =>
        rw [hrd] at hwaits
        cases hwaits
    exact hi.look hpc rfl rfl (Host.quiet_read hrd _)
  | lock hpc hfree => exact hi.reader hpc (.stay rfl) (.acquire hfree) rfl fun _ => rfl
  | giveUp hpc => exact hi.reader hpc .release (.stay rfl) rfl fun _ => rfl
  | sleep hpc => exact hi.reader hpc (.stay rfl) .release rfl fun _ => rfl
  | woken hpc hfree => exact hi.reader hpc (.stay rfl) (.acquire hfree) rfl nofun
  | unlock hpc => exact hi.reader hpc (.stay rfl) .release rfl nofun
  | acquire hpc hfree => exact hi.reader hpc (.acquire hfree) (.stay rfl) rfl nofun
  | resume hpc hrd => exact hi.look hpc rfl rfl (Host.quiet_wake hrd _)
  | readRelease hpc => exact hi.reader hpc .release (.stay rfl) rfl nofun
  | enter hpc hfree => exact hi.other hpc (.acquire hfree) (.stay rfl) nofun
  | run hpc => exact hi.run hpc
  | notify hpc hfree => exact hi.other hpc (.stay rfl) (.acquire hfree) fun _ => rfl
  | signal hpc => exact hi.signal hpc
  | wakeupDone hpc =>
    refine hi.other hpc (.stay (inside_after _)) ?_ nofun
    rw [guards_after]
    exact .release
  | release hpc => exact hi.other hpc .release (.stay rfl) nofun

/-- What comes from outside keeps it too. -/
theorem Inv.outside (hi : σ.Inv) (h : Outside env σ σ') : σ'.Inv := by
  cases h with
  | read hpc len => exact hi.reader hpc (.stay rfl) (.stay rfl) rfl nofun
  | call hpc e => exact hi.other hpc (.stay rfl) (.stay rfl) nofun
  | tick ms =>
    refine ⟨hi.lock, hi.mutex, hi.waits, fun hs => (hi.sleeps hs).imp_left fun hq => ?_⟩
    exact @Host.Quiet.threadStep env _ hq (.event (.tick ms)) nofun nofun rfl
  | spurious hpc => exact hi.reader hpc (.stay rfl) (.stay rfl) rfl nofun

theorem Inv.run_steps (hi : σ.Inv) (h : ReflTransGen (Step env) σ σ') : σ'.Inv := by
  induction h with
  | refl => exact hi
  | tail _ hstep ih => exact hstep.elim ih.work ih.outside

/-! ## Progress -/

/-- The thread that holds the mutex does not wait for anything. -/
theorem Inv.exists_work_of_mutex (hi : σ.Inv) {w : Option T} (hw : σ.mutex = some w) :
    ∃ σ', Work env σ σ' := by
  have hguards := (hi.mutex w).mp hw
  cases w with
  | none =>
    cases hpc : σ.reader with
    | giveUp => exact ⟨_, .giveUp hpc⟩
    | sleep => exact ⟨_, .sleep hpc⟩
    | unlock => exact ⟨_, .unlock hpc⟩
    | _ =>
      have hno : σ.reader.guards = false := by rw [hpc]; rfl
      exact absurd hguards (Bool.eq_false_iff.mp hno)
  | some t =>
    cases hpc : σ.others t with
    | signal n => exact ⟨_, .signal hpc⟩
    | unlock n => exact ⟨_, .wakeupDone hpc⟩
    | _ =>
      have hno : (σ.others t).guards = false := by rw [hpc]; rfl
      exact absurd hguards (Bool.eq_false_iff.mp hno)

/-- The thread that holds the lock waits at most for the mutex. -/
theorem Inv.exists_work_of_owner (hi : σ.Inv) {w : Option T} (hw : σ.owner = some w) :
    ∃ σ', Work env σ σ' := by
  by_cases hfree : σ.mutex = none
  · have hinside := (hi.lock w).mp hw
    cases w with
    | none =>
      cases hpc : σ.reader with
      | begin len => exact ⟨_, .read hpc⟩
      | lock => exact ⟨_, .lock hpc hfree⟩
      | giveUp => exact ⟨_, .giveUp hpc⟩
      | resume =>
        have hwaits := hi.waits
        rw [hpc] at hwaits
        obtain ⟨rd, hrd⟩ := Option.isSome_iff_exists.mp hwaits
        exact ⟨_, .resume hpc hrd⟩
      | leave => exact ⟨_, .readRelease hpc⟩
      | _ =>
        have hno : σ.reader.inside = false := by rw [hpc]; rfl
        exact absurd hinside (Bool.eq_false_iff.mp hno)
    | some t =>
      cases hpc : σ.others t with
      | run e => exact ⟨_, .run hpc⟩
      | notify n => exact ⟨_, .notify hpc hfree⟩
      | signal n => exact ⟨_, .signal hpc⟩
      | unlock n => exact ⟨_, .wakeupDone hpc⟩
      | leave => exact ⟨_, .release hpc⟩
      | _ =>
        have hno : (σ.others t).inside = false := by rw [hpc]; rfl
        exact absurd hinside (Bool.eq_false_iff.mp hno)
  · obtain ⟨v, hv⟩ := Option.ne_none_iff_exists'.mp hfree
    exact hi.exists_work_of_mutex hv

/-- **The threads do not block each other**: some thread can go on, as long as one has anything to
do. -/
theorem Inv.progress (hi : σ.Inv) : (∃ σ', Work env σ σ') ∨ σ.Idle := by
  cases howner : σ.owner with
  | some w => exact .inl (hi.exists_work_of_owner howner)
  | none =>
    cases hmutex : σ.mutex with
    | some w => exact .inl (hi.exists_work_of_mutex hmutex)
    | none =>
      have hreader : σ.reader.inside = false := hi.lock.free howner none
      have hguards : σ.reader.guards = false := hi.mutex.free hmutex none
      by_cases hall : ∀ t, σ.others t = .out
      · cases hpc : σ.reader with
        | out => exact .inr ⟨.inl hpc, hall⟩
        | asleep => exact .inr ⟨.inr hpc, hall⟩
        | enter len => exact .inl ⟨_, .readAcquire hpc howner⟩
        | woken => exact .inl ⟨_, .woken hpc hmutex⟩
        | acquire => exact .inl ⟨_, .acquire hpc howner⟩
        | sleep =>
          rw [hpc] at hguards
          cases hguards
        | unlock =>
          rw [hpc] at hguards
          cases hguards
        | _ =>
          rw [hpc] at hreader
          cases hreader
      · obtain ⟨t, ht⟩ := not_forall.mp hall
        have hout : (σ.others t).inside = false := hi.lock.free howner (some t)
        cases hpc : σ.others t with
        | out => exact absurd hpc ht
        | enter e => exact .inl ⟨_, .enter hpc howner⟩
        | _ =>
          rw [hpc] at hout
          cases hout

/-! ## One after the other -/

/-- A step works on the socket as one event, or not at all. -/
theorem Step.host (h : Step env σ σ') :
    σ'.host = σ.host ∨ ∃ e, σ'.host = σ.host.threadStep env e := by
  rcases h with h | h
  · cases h with
    | read => exact .inr ⟨.event (.read _), rfl⟩
    | @resume rd _ _ => exact .inr ⟨.event (.wake rd), rfl⟩
    | run => exact .inr ⟨_, rfl⟩
    | _ => exact .inl rfl
  · cases h with
    | tick ms => exact .inr ⟨.event (.tick ms), rfl⟩
    | _ => exact .inl rfl

/-- **The threads work like one after the other**. -/
theorem exists_events (h : ReflTransGen (Step env) σ σ') :
    ∃ events : List ThreadEvent, σ'.host = events.foldl (Host.threadStep env) σ.host := by
  induction h with
  | refl => exact ⟨[], rfl⟩
  | tail _ hstep ih =>
    obtain ⟨events, hevents⟩ := ih
    rcases hstep.host with heq | ⟨e, heq⟩
    · exact ⟨events, heq.trans hevents⟩
    · refine ⟨events ++ [e], ?_⟩
      rw [heq, hevents, List.foldl_append]
      rfl

end Steps

end Threads

/-- **However the threads take turns**: what they do to the socket and to its user could have been
done by one thread alone; at most one thread holds the lock; a reader sleeps only while there is no
text in order for it, and no end of the stream unless the connection is over, or while the thread that
holds the lock is about to wake it; and some thread can go on, unless nobody has anything to do. -/
theorem threads_run {T : Type} [DecidableEq T] (env : Env) (σ₀ σ : Threads T) (hstart : σ₀.Start)
    (hrun : ReflTransGen (Threads.Step env) σ₀ σ) :
    (∃ events : List ThreadEvent, σ.host = events.foldl (Host.threadStep env) σ₀.host) ∧
      Held σ.owner (insides σ.reader σ.others) ∧
      (σ.reader = .asleep → ¬ σ.host.Quiet →
        ∃ t, σ.owner = some (some t) ∧ (σ.others t).notifies) ∧
      ((∃ σ', Threads.Work env σ σ') ∨ σ.Idle) := by
  have hi := hstart.inv.run_steps hrun
  refine ⟨Threads.exists_events hrun, hi.lock, fun hasleep hnot => ?_, hi.progress⟩
  have hsleeps : σ.reader.sleeps := congrArg ReaderPc.sleeps hasleep
  obtain ⟨t, ht⟩ := (hi.sleeps hsleeps).resolve_left hnot
  refine ⟨t, hi.lock.owner_eq (w := some t) ?_, ht⟩
  change (σ.others t).inside
  revert ht
  cases σ.others t <;> first
    | exact fun _ => rfl
    | exact fun ht => ht

/-- A socket with a reader and one other thread. -/
def twoThreads : Threads Unit where
  host := { sock := sockAt200, written := [], returned := [], reader := none }
  owner := none
  mutex := none
  reader := .out
  others := fun _ => .out

/-- A segment that arrives while the reader sleeps. -/
theorem threads_run_arrival : ∃ σ, ReflTransGen (Threads.Step quietLink) twoThreads σ ∧
    σ.reader = .asleep ∧ bytesOf σ.host.sock.receiveQueue = [1, 2] ∧
      ∃ t, σ.owner = some (some t) ∧ (σ.others t).notifies := by
  have hread := (ReflTransGen.refl (r := Threads.Step quietLink) (a := twoThreads)).tail
    (.inr (.read rfl 5))
  have hwait := (hread.tail (.inl (.readAcquire rfl rfl))).tail (.inl (.read rfl))
  have hlocked := hwait.tail (.inl (.lock (by decide +kernel) rfl))
  have hsleep := (hlocked.tail (.inl (.giveUp rfl))).tail (.inl (.sleep rfl))
  have hcall := hsleep.tail (.inr (.call (t := ()) rfl ⟨.event (.arrive (segmentAt 201 [1, 2])), rfl⟩))
  have hrun := (hcall.tail (.inl (.enter (t := ()) rfl rfl))).tail (.inl (.run (t := ()) rfl))
  obtain ⟨-, -, hwakes, -⟩ :=
    threads_run quietLink twoThreads _ ⟨rfl, rfl, rfl, fun _ => rfl, rfl⟩ hrun
  refine ⟨_, hrun, rfl, by decide +kernel, hwakes rfl fun hq => ?_⟩
  exact absurd hq.1 (by decide +kernel)

end LvlIp.Tcp
