import Mathlib.Data.List.Nodup
import Mathlib.Tactic.Ring

/-!
# Timers

The list of timers of `src/timer.c`. Its operations are atomic, each under the lock it takes, and
come in any order; every ten milliseconds the clock moves on and `timers_tick` passes over the list.

What the users of the timers see goes to a log. In every run a handler is started at most once and
never after `timer_cancel`, and a timer leaves the list only when it has fired or was cancelled and
nobody refers to it (`orderly_run`). The deadline is a sum of 32 bits. As long as it does not wrap
around no handler is started before its delay is over (`punctual_run`); `timer_add` notices when it
does, and adds the timer all the same (`not_punctual_uptime`).
-/

namespace LvlIp.Timers

/-! ## The code -/

/-- `struct timer`, with the pointer to it. -/
structure Timer (α : Type*) where
  ptr : ℕ
  refcnt : ℤ
  expires : UInt32
  cancelled : Bool
  handler : α
deriving DecidableEq

/-- What the users of the timers see. -/
inductive Entry
  /-- A timer is added, at the time `uptime`. -/
  | add (ptr : ℕ) (delay : UInt32) (uptime : ℕ)
  /-- `timer_cancel` returns. -/
  | cancel (ptr : ℕ)
  /-- The handler of a timer is started. -/
  | start (ptr : ℕ) (uptime : ℕ)
  /-- A timer leaves the list. -/
  | leave (ptr : ℕ) (refcnt : ℤ)
deriving DecidableEq

/-- The timer that an entry is about. -/
def Entry.ptr : Entry → ℕ
  | .add ptr _ _ => ptr
  | .cancel ptr => ptr
  | .start ptr _ => ptr
  | .leave ptr _ => ptr

/-- The state of `src/timer.c`: the list and the clock, and beside it the milliseconds since the
start, which do not wrap. -/
structure Clock (α : Type*) where
  timers : List (Timer α)
  tick : UInt32
  /-- The pointer that `timer_alloc` returns next. -/
  next : ℕ
  uptime : ℕ
  log : List Entry

variable {α : Type*}

namespace Clock

/-- The state at the start. -/
def init : Clock α where
  timers := []
  tick := 0
  next := 0
  uptime := 0
  log := []

/-- What `timer_oneshot` and `timer_add` do. They only report a deadline that wraps around. -/
def insert (st : Clock α) (refcnt : ℤ) (expire : UInt32) (handler : α) : Clock α :=
  { st with
    timers := st.timers ++
      [{ ptr := st.next, refcnt, expires := st.tick + expire, cancelled := false, handler }]
    next := st.next + 1
    log := st.log ++ [.add st.next expire st.uptime] }

/-- `timer_oneshot`. -/
def timerOneshot (st : Clock α) (expire : UInt32) (handler : α) : Clock α :=
  st.insert 0 expire handler

/-- `timer_add`, with the pointer it returns. -/
def timerAdd (st : Clock α) (expire : UInt32) (handler : α) : Clock α × ℕ :=
  (st.insert 1 expire handler, st.next)

/-- A write to the timer behind a pointer. -/
def modify (st : Clock α) (ptr : ℕ) (f : Timer α → Timer α) : Clock α :=
  { st with timers := st.timers.map fun t => if t.ptr = ptr then f t else t }

/-- `timer_release`; `none` is the null pointer. -/
def timerRelease (st : Clock α) : Option ℕ → Clock α
  | none => st
  | some ptr => st.modify ptr fun t => { t with refcnt := t.refcnt - 1 }

/-- `timer_cancel`. -/
def timerCancel (st : Clock α) : Option ℕ → Clock α
  | none => st
  | some ptr =>
    { st.modify ptr fun t => { t with refcnt := t.refcnt - 1, cancelled := true } with
      log := st.log ++ [.cancel ptr] }

/-- A timer that `timers_tick` fires. -/
def due (st : Clock α) (t : Timer α) : Bool := !t.cancelled && t.expires < st.tick

/-- `timers_tick` at one timer: what stays in the list, and what is seen of it. -/
def visit (st : Clock α) (t : Timer α) : Option (Timer α) × List Entry :=
  let t' := if st.due t then { t with cancelled := true } else t
  let log := if st.due t then [.start t.ptr st.uptime] else []
  if t'.cancelled = true ∧ t'.refcnt = 0 then (none, log ++ [.leave t'.ptr t'.refcnt])
  else (some t', log)

/-- A visit to a timer whose lock somebody may hold. -/
def pass (st : Clock α) (busy : ℕ → Bool) (t : Timer α) : Option (Timer α) × List Entry :=
  if busy t.ptr then (some t, []) else st.visit t

/-- `timers_tick`; `busy` are the timers for which `pthread_mutex_trylock` fails. -/
def timersTick (st : Clock α) (busy : ℕ → Bool) : Clock α :=
  { st with
    timers := st.timers.filterMap fun t => (st.pass busy t).1
    log := st.log ++ st.timers.flatMap fun t => (st.pass busy t).2 }

/-- Ten milliseconds pass. -/
def advance (st : Clock α) : Clock α :=
  { st with tick := st.tick + 10, uptime := st.uptime + 10 }

end Clock

/-- What can happen to the timers. -/
inductive TimerEvent (α : Type*)
  | add (expire : UInt32) (handler : α)
  | oneshot (expire : UInt32) (handler : α)
  | release (ptr : ℕ)
  | cancel (ptr : ℕ)
  | advance
  | tick (busy : ℕ → Bool)

/-- One event. Nobody has a pointer that was never returned. -/
def Clock.step (st : Clock α) : TimerEvent α → Clock α
  | .add expire handler => (st.timerAdd expire handler).1
  | .oneshot expire handler => st.timerOneshot expire handler
  | .release ptr => if ptr < st.next then st.timerRelease (some ptr) else st
  | .cancel ptr => if ptr < st.next then st.timerCancel (some ptr) else st
  | .advance => st.advance
  | .tick busy => st.timersTick busy

/-- The timers after some events. -/
def Clock.run (st : Clock α) (events : List (TimerEvent α)) : Clock α := events.foldl Clock.step st

/-! ## What is allowed -/

/-- What may come after some entries, but for the time a handler is started at: it is the time its
deadline has passed on the clock. -/
def Orderly (past : List Entry) : Entry → Prop
  | .add _ _ _ => True
  | .cancel _ => True
  | .start ptr at_ => (∀ u, .start ptr u ∉ past) ∧ .cancel ptr ∉ past ∧
      ∃ d u, .add ptr d u ∈ past ∧ u ≤ at_ ∧ UInt32.ofNat u + d < UInt32.ofNat at_
  | .leave ptr refcnt => refcnt = 0 ∧ (.cancel ptr ∈ past ∨ ∃ u, .start ptr u ∈ past)

/-- What may come after some entries: a handler is started once, not after it was cancelled, and
when its delay is over; a timer leaves the list when it was cancelled or has fired, and nobody
refers to it. -/
def Punctual (past : List Entry) : Entry → Prop
  | .add _ _ _ => True
  | .cancel _ => True
  | .start ptr at_ => (∀ u, .start ptr u ∉ past) ∧ .cancel ptr ∉ past ∧
      ∃ d u, .add ptr d u ∈ past ∧ u + d.toNat ≤ at_
  | .leave ptr refcnt => refcnt = 0 ∧ (.cancel ptr ∈ past ∨ ∃ u, .start ptr u ∈ past)

/-- Every entry of a log is one that the entries before it allow. -/
def Lawful (A : List Entry → Entry → Prop) (log : List Entry) : Prop :=
  ∀ pre e post, log = pre ++ e :: post → A pre e

section Lawful

variable {A : List Entry → Entry → Prop} {log : List Entry}

theorem lawful_nil : Lawful A [] := fun _ _ _ h => absurd h (by simp)

theorem lawful_concat {e : Entry} : Lawful A (log ++ [e]) ↔ Lawful A log ∧ A log e := by
  constructor
  · intro h
    refine ⟨fun pre e' post heq => h pre e' (post ++ [e]) ?_, h log e [] rfl⟩
    rw [heq, List.append_assoc, List.cons_append]
  · rintro ⟨hlog, he⟩ pre e' post heq
    rcases List.eq_nil_or_concat post with rfl | ⟨post, last, rfl⟩
    · obtain ⟨rfl, hlast⟩ := List.append_inj' heq rfl
      rw [← List.singleton_inj.mp hlast]
      exact he
    · rw [List.concat_eq_append, ← List.cons_append, ← List.append_assoc] at heq
      exact hlog pre e' post (List.append_inj' heq rfl).1

end Lawful

/-! ## One timer at a time -/

/-- Whether an entry is allowed depends on the entries about its timer. -/
theorem Orderly.of_filter {past : List Entry} {e : Entry}
    (h : Orderly (past.filter (·.ptr = e.ptr)) e) : Orderly past e := by
  have hmem : ∀ e' : Entry, e'.ptr = e.ptr → (e' ∈ past ↔ e' ∈ past.filter (·.ptr = e.ptr)) :=
    fun e' he' => by simp [he']
  cases e with
  | add ptr d u => trivial
  | cancel ptr => trivial
  | start ptr v =>
    obtain ⟨hstart, hcancel, d, u, hadd, htime⟩ := h
    refine ⟨fun u' hu' => hstart u' ?_, fun hc => hcancel ?_, d, u, ?_, htime⟩
    · exact (hmem (.start ptr u') rfl).mp hu'
    · exact (hmem (.cancel ptr) rfl).mp hc
    · exact (hmem (.add ptr d u) rfl).mpr hadd
  | leave ptr refcnt =>
    refine ⟨h.1, h.2.imp (hmem (.cancel ptr) rfl).mpr ?_⟩
    rintro ⟨u, hu⟩
    exact ⟨u, (hmem (.start ptr u) rfl).mpr hu⟩

/-- A log is lawful when what it says about each timer is. -/
theorem lawful_of_filter {log : List Entry}
    (h : ∀ ptr, Lawful Orderly (log.filter (·.ptr = ptr))) : Lawful Orderly log := by
  intro pre e post heq
  refine Orderly.of_filter (h e.ptr _ e (post.filter (·.ptr = e.ptr)) ?_)
  rw [heq, List.filter_append, List.filter_cons_of_pos (by simp)]

/-- What a log says about one element of a list, when each element makes entries of its own. -/
theorem filter_flatMap {l : List (Timer α)} (hl : (l.map Timer.ptr).Nodup)
    {f : Timer α → List Entry} (hf : ∀ t, ∀ e ∈ f t, e.ptr = t.ptr) {t : Timer α} (ht : t ∈ l) :
    (l.flatMap f).filter (·.ptr = t.ptr) = f t := by
  have hother : ∀ t' : Timer α, t'.ptr ≠ t.ptr → (f t').filter (·.ptr = t.ptr) = [] := by
    intro t' hne
    rw [List.filter_eq_nil_iff]
    intro e he
    simpa [hf t' e he] using hne
  induction l with
  | nil => exact absurd ht List.not_mem_nil
  | cons a l ih =>
    obtain ⟨ha, hl⟩ := List.nodup_cons.mp hl
    rw [List.flatMap_cons, List.filter_append]
    rcases List.mem_cons.mp ht with rfl | ht
    · have hrest : (l.flatMap f).filter (·.ptr = t.ptr) = [] := by
        rw [List.filter_eq_nil_iff]
        intro e he
        obtain ⟨t', ht', he⟩ := List.mem_flatMap.mp he
        have hne : t'.ptr ≠ t.ptr := fun heq => ha (heq ▸ List.mem_map_of_mem ht')
        simpa [hf t' e he] using hne
      rw [hrest, List.append_nil, List.filter_eq_self]
      exact fun e he => by simp [hf t e he]
    · have hne : a.ptr ≠ t.ptr := fun heq => ha (heq ▸ List.mem_map_of_mem ht)
      rw [hother a hne, List.nil_append, ih hl ht]

namespace Clock

/-- What the log says about a timer. -/
def history (st : Clock α) (ptr : ℕ) : List Entry := st.log.filter (·.ptr = ptr)

/-- What the log says about a timer in the list. -/
structure Known (st : Clock α) (t : Timer α) : Prop where
  fresh : t.ptr < st.next
  live : t.cancelled = false → ∃ d u, st.history t.ptr = [.add t.ptr d u] ∧ u ≤ st.uptime ∧
    t.expires = UInt32.ofNat u + d
  dead : t.cancelled = true → .cancel t.ptr ∈ st.history t.ptr ∨
    ∃ u, .start t.ptr u ∈ st.history t.ptr

/-- The list, the clock and the log belong together. -/
structure Sound (st : Clock α) : Prop where
  clock : st.tick = UInt32.ofNat st.uptime
  nodup : (st.timers.map Timer.ptr).Nodup
  past : ∀ e ∈ st.log, e.ptr < st.next
  known : ∀ t ∈ st.timers, st.Known t
  lawful : ∀ ptr, Lawful Orderly (st.history ptr)

theorem sound_init : (init : Clock α).Sound where
  clock := rfl
  nodup := List.nodup_nil
  past := fun _ h => absurd h List.not_mem_nil
  known := fun _ h => absurd h List.not_mem_nil
  lawful := fun _ => lawful_nil

variable {st : Clock α} {t : Timer α}

/-- Nothing is known of a timer that does not exist. -/
theorem Sound.history_next (h : st.Sound) : st.history st.next = [] := by
  rw [history, List.filter_eq_nil_iff]
  intro e he
  simpa using (h.past e he).ne

/-- **A new timer**. -/
theorem Sound.insert (h : st.Sound) (refcnt : ℤ) (expire : UInt32) (handler : α) :
    (st.insert refcnt expire handler).Sound := by
  have hhist : ∀ ptr, (st.insert refcnt expire handler).history ptr =
      st.history ptr ++ if st.next = ptr then [.add st.next expire st.uptime] else [] := by
    intro ptr
    rw [history, history, Clock.insert, List.filter_append]
    by_cases hptr : st.next = ptr
    · simp [Entry.ptr, hptr]
    · simp [Entry.ptr, hptr]
  have hnew : (st.insert refcnt expire handler).history st.next =
      [.add st.next expire st.uptime] := by
    rw [hhist, h.history_next, if_pos rfl, List.nil_append]
  have hold : ∀ ptr, ptr ≠ st.next →
      (st.insert refcnt expire handler).history ptr = st.history ptr := by
    intro ptr hne
    rw [hhist, if_neg (Ne.symm hne), List.append_nil]
  refine ⟨h.clock, ?_, ?_, ?_, ?_⟩
  · rw [Clock.insert, List.map_append, List.map_singleton]
    refine List.nodup_append.mpr ⟨h.nodup, List.nodup_singleton _, fun a ha b hb => ?_⟩
    obtain ⟨t, ht, rfl⟩ := List.mem_map.mp ha
    rw [List.mem_singleton.mp hb]
    exact (h.known t ht).fresh.ne
  · intro e he
    rcases List.mem_append.mp he with he | he
    · exact (h.past e he).trans (Nat.lt_succ_self _)
    · rw [List.mem_singleton.mp he]
      exact Nat.lt_succ_self _
  · intro t ht
    rcases List.mem_append.mp ht with ht | ht
    · have hk := h.known t ht
      refine ⟨hk.fresh.trans (Nat.lt_succ_self _), ?_, ?_⟩
      · rw [hold t.ptr hk.fresh.ne]
        exact hk.live
      · rw [hold t.ptr hk.fresh.ne]
        exact hk.dead
    · rw [List.mem_singleton.mp ht]
      refine ⟨Nat.lt_succ_self _, fun _ => ⟨expire, st.uptime, hnew, le_rfl, ?_⟩, ?_⟩
      · exact congrArg (· + expire) h.clock
      · exact fun hc => Bool.noConfusion hc
  · intro ptr
    by_cases hptr : ptr = st.next
    · rw [hptr, hnew]
      exact lawful_concat.mpr ⟨lawful_nil, trivial⟩
    · rw [hold ptr hptr]
      exact h.lawful ptr

/-- A write to a timer does not change which timers there are. -/
theorem map_ptr_modify (st : Clock α) (ptr : ℕ) {f : Timer α → Timer α}
    (hf : ∀ t, (f t).ptr = t.ptr) :
    (st.modify ptr f).timers.map Timer.ptr = st.timers.map Timer.ptr := by
  rw [modify, List.map_map]
  refine List.map_congr_left fun t _ => ?_
  rw [Function.comp_apply, apply_ite Timer.ptr, hf, ite_self]

/-- **A reference is given back**. -/
theorem Sound.timerRelease (h : st.Sound) (ptr : Option ℕ) : (st.timerRelease ptr).Sound := by
  cases ptr with
  | none => exact h
  | some ptr =>
    refine ⟨h.clock, ?_, h.past, ?_, h.lawful⟩
    · rw [Clock.timerRelease, map_ptr_modify]
      · exact h.nodup
      · exact fun _ => rfl
    · intro t ht
      obtain ⟨t', ht', rfl⟩ := List.mem_map.mp ht
      have hk := h.known t' ht'
      split
      · exact ⟨hk.fresh, hk.live, hk.dead⟩
      · exact ⟨hk.fresh, hk.live, hk.dead⟩

/-- **A timer is cancelled**. -/
theorem Sound.timerCancel (h : st.Sound) {ptr : ℕ} (hptr : ptr < st.next) :
    (st.timerCancel (some ptr)).Sound := by
  have hhist : ∀ p, (st.timerCancel (some ptr)).history p =
      st.history p ++ if ptr = p then [.cancel ptr] else [] := by
    intro p
    rw [history, history, Clock.timerCancel, List.filter_append]
    by_cases hp : ptr = p
    · simp [Entry.ptr, hp]
    · simp [Entry.ptr, hp]
  refine ⟨h.clock, ?_, ?_, ?_, ?_⟩
  · have hptrs := map_ptr_modify st ptr
      (f := fun t => { t with refcnt := t.refcnt - 1, cancelled := true }) fun _ => rfl
    exact hptrs.symm ▸ h.nodup
  · intro e he
    rcases List.mem_append.mp he with he | he
    · exact h.past e he
    · rw [List.mem_singleton.mp he]
      exact hptr
  · intro t ht
    obtain ⟨t', ht', rfl⟩ := List.mem_map.mp ht
    have hk := h.known t' ht'
    split
    · next heq =>
      refine ⟨hk.fresh, fun hc => Bool.noConfusion hc, fun _ => .inl ?_⟩
      rw [hhist, heq, if_pos rfl]
      exact List.mem_append_right _ (List.mem_singleton_self _)
    · next hne =>
      rw [← ne_eq, ne_comm] at hne
      refine ⟨hk.fresh, ?_, ?_⟩
      · rw [hhist, if_neg hne, List.append_nil]
        exact hk.live
      · rw [hhist, if_neg hne, List.append_nil]
        exact hk.dead
  · intro p
    rw [hhist]
    split
    · exact lawful_concat.mpr ⟨h.lawful p, trivial⟩
    · rw [List.append_nil]
      exact h.lawful p

/-- **The clock moves on**. -/
theorem Sound.advance (h : st.Sound) : st.advance.Sound where
  clock := by
    rw [Clock.advance, h.clock, UInt32.ofNat_add]
    rfl
  nodup := h.nodup
  past := h.past
  known := by
    intro t ht
    have hk := h.known t ht
    refine ⟨hk.fresh, fun hc => ?_, hk.dead⟩
    obtain ⟨d, u, hadd, hu, hexp⟩ := hk.live hc
    exact ⟨d, u, hadd, hu.trans (Nat.le_add_right _ _), hexp⟩
  lawful := h.lawful

/-! ## The pass over the list -/

/-- What a visit does to a timer. -/
theorem visit_cases (st : Clock α) (t : Timer α) :
    st.due t = true ∧ t.refcnt = 0 ∧
        st.visit t = (none, [.start t.ptr st.uptime, .leave t.ptr t.refcnt]) ∨
      st.due t = true ∧ t.refcnt ≠ 0 ∧
        st.visit t = (some { t with cancelled := true }, [.start t.ptr st.uptime]) ∨
      st.due t = false ∧ t.cancelled = true ∧ t.refcnt = 0 ∧
        st.visit t = (none, [.leave t.ptr t.refcnt]) ∨
      st.due t = false ∧ st.visit t = (some t, []) := by
  unfold visit
  cases hdue : st.due t with
  | true =>
    by_cases href : t.refcnt = 0
    · exact .inl ⟨rfl, href, by simp [href]⟩
    · exact .inr (.inl ⟨rfl, href, by simp [href]⟩)
  | false =>
    by_cases hgone : t.cancelled = true ∧ t.refcnt = 0
    · exact .inr (.inr (.inl ⟨rfl, hgone.1, hgone.2, by simp [hgone]⟩))
    · exact .inr (.inr (.inr ⟨rfl, by simp [hgone]⟩))

/-- What a timer is after it was passed, and what was seen of it. -/
structure Passed (st : Clock α) (t : Timer α) (r : Option (Timer α) × List Entry) : Prop where
  about : ∀ e ∈ r.2, e.ptr = t.ptr
  same : ∀ t' ∈ r.1, t'.ptr = t.ptr ∧ t'.expires = t.expires ∧ t'.handler = t.handler
  quiet : ∀ t' ∈ r.1, t'.cancelled = false → t.cancelled = false ∧ r.2 = []
  dead : ∀ t' ∈ r.1, t'.cancelled = true → t.cancelled = true ∨ ∃ u, .start t.ptr u ∈ r.2
  lawful : st.Known t → Lawful Orderly (st.history t.ptr) → st.tick = UInt32.ofNat st.uptime →
    Lawful Orderly (st.history t.ptr ++ r.2)

/-- A timer that fires may do so. -/
theorem Known.orderly_start (hk : st.Known t) (hclock : st.tick = UInt32.ofNat st.uptime)
    (hdue : st.due t = true) : Orderly (st.history t.ptr) (.start t.ptr st.uptime) := by
  obtain ⟨hlive, hexp⟩ := (Bool.and_eq_true _ _).mp hdue
  obtain ⟨d, u, hadd, hu, hsum⟩ := hk.live (by simpa using hlive)
  refine ⟨by simp [hadd], by simp [hadd], d, u, by simp [hadd], hu, ?_⟩
  rw [← hsum, ← hclock]
  exact of_decide_eq_true hexp

theorem passed_visit (st : Clock α) (t : Timer α) : st.Passed t (st.visit t) := by
  rcases visit_cases st t with ⟨hdue, href, heq⟩ | ⟨hdue, href, heq⟩ | ⟨hdue, hc, href, heq⟩ |
    ⟨hdue, heq⟩
  · rw [heq]
    refine ⟨by simp [Entry.ptr], by simp, by simp, by simp, fun hk hlaw hclock => ?_⟩
    have hstart := lawful_concat.mpr ⟨hlaw, hk.orderly_start hclock hdue⟩
    have hleave : Orderly (st.history t.ptr ++ [.start t.ptr st.uptime])
        (.leave t.ptr t.refcnt) :=
      ⟨href, .inr ⟨st.uptime, List.mem_append_right _ (List.mem_singleton_self _)⟩⟩
    have hboth := lawful_concat.mpr ⟨hstart, hleave⟩
    rwa [List.append_assoc] at hboth
  · rw [heq]
    refine ⟨by simp [Entry.ptr], by simp, by simp, by simp, fun hk hlaw hclock => ?_⟩
    exact lawful_concat.mpr ⟨hlaw, hk.orderly_start hclock hdue⟩
  · rw [heq]
    refine ⟨by simp [Entry.ptr], by simp, by simp, by simp, fun hk hlaw _ => ?_⟩
    exact lawful_concat.mpr ⟨hlaw, href, hk.dead hc⟩
  · rw [heq]
    refine ⟨by simp, by simp, by simp, ?_, fun _ hlaw _ => ?_⟩
    · exact fun t' ht' hc => .inl (Option.mem_some_iff.mp ht' ▸ hc)
    · rwa [List.append_nil]

theorem passed_pass (st : Clock α) (busy : ℕ → Bool) (t : Timer α) :
    st.Passed t (st.pass busy t) := by
  unfold pass
  split
  · refine ⟨by simp, by simp, by simp, ?_, fun _ hlaw _ => ?_⟩
    · exact fun t' ht' hc => .inl (Option.mem_some_iff.mp ht' ▸ hc)
    · rwa [List.append_nil]
  · exact passed_visit st t

/-- The timers after a pass are some of those before. -/
theorem mem_timersTick {busy : ℕ → Bool} {t' : Timer α} (h : t' ∈ (st.timersTick busy).timers) :
    ∃ t ∈ st.timers, t' ∈ (st.pass busy t).1 :=
  List.mem_filterMap.mp h

theorem nodup_timersTick (h : (st.timers.map Timer.ptr).Nodup) (busy : ℕ → Bool) :
    ((st.timersTick busy).timers.map Timer.ptr).Nodup := by
  refine h.sublist ?_
  show List.Sublist ((st.timers.filterMap fun t => (st.pass busy t).1).map Timer.ptr) _
  induction st.timers with
  | nil => exact List.Sublist.slnil
  | cons t l ih =>
    rw [List.filterMap_cons]
    cases hpass : (st.pass busy t).1 with
    | none => exact ih.cons _
    | some t' =>
      have hsame := ((passed_pass st busy t).same t' hpass).1
      rw [List.map_cons, List.map_cons, hsame]
      exact ih.cons_cons _

/-- **A pass over the list**. -/
theorem Sound.timersTick (h : st.Sound) (busy : ℕ → Bool) : (st.timersTick busy).Sound := by
  have hhist : ∀ ptr, (st.timersTick busy).history ptr = st.history ptr ++
      (st.timers.flatMap fun t => (st.pass busy t).2).filter (·.ptr = ptr) := by
    intro ptr
    rw [history, history, Clock.timersTick, List.filter_append]
  have hmem : ∀ t ∈ st.timers,
      (st.timersTick busy).history t.ptr = st.history t.ptr ++ (st.pass busy t).2 := by
    intro t ht
    rw [hhist, filter_flatMap h.nodup (fun t => (passed_pass st busy t).about) ht]
  refine ⟨h.clock, nodup_timersTick h.nodup busy, ?_, ?_, ?_⟩
  · intro e he
    rcases List.mem_append.mp he with he | he
    · exact h.past e he
    · obtain ⟨t, ht, he⟩ := List.mem_flatMap.mp he
      rw [(passed_pass st busy t).about e he]
      exact (h.known t ht).fresh
  · intro t' ht'
    obtain ⟨t, ht, hpass⟩ := mem_timersTick ht'
    have hk := h.known t ht
    have hp := passed_pass st busy t
    obtain ⟨hptr, hexp, -⟩ := hp.same t' hpass
    refine ⟨hptr ▸ hk.fresh, fun hc => ?_, fun hc => ?_⟩
    · obtain ⟨hlive, hnil⟩ := hp.quiet t' hpass hc
      rw [hptr, hmem t ht, hnil, List.append_nil, hexp]
      exact hk.live hlive
    · rw [hptr, hmem t ht]
      rcases hp.dead t' hpass hc with hdead | ⟨u, hu⟩
      · refine (hk.dead hdead).imp (List.mem_append_left _) ?_
        exact fun ⟨u, hu⟩ => ⟨u, List.mem_append_left _ hu⟩
      · exact .inr ⟨u, List.mem_append_right _ hu⟩
  · intro ptr
    by_cases hptr : ptr ∈ st.timers.map Timer.ptr
    · obtain ⟨t, ht, rfl⟩ := List.mem_map.mp hptr
      rw [hmem t ht]
      exact (passed_pass st busy t).lawful (h.known t ht) (h.lawful t.ptr) h.clock
    · have hnil : (st.timers.flatMap fun t => (st.pass busy t).2).filter (·.ptr = ptr) = [] := by
        rw [List.filter_eq_nil_iff]
        intro e he heq
        obtain ⟨t, ht, he⟩ := List.mem_flatMap.mp he
        rw [(passed_pass st busy t).about e he, decide_eq_true_iff] at heq
        exact hptr (heq ▸ List.mem_map_of_mem ht)
      rw [hhist, hnil, List.append_nil]
      exact h.lawful ptr

/-! ## Every run -/

/-- **One event**. -/
theorem Sound.step (h : st.Sound) (e : TimerEvent α) : (st.step e).Sound := by
  cases e with
  | add expire handler => exact h.insert 1 expire handler
  | oneshot expire handler => exact h.insert 0 expire handler
  | release ptr =>
    simp only [Clock.step]
    split
    · exact h.timerRelease (some ptr)
    · exact h
  | cancel ptr =>
    simp only [Clock.step]
    split
    · next hptr => exact h.timerCancel hptr
    · exact h
  | advance => exact h.advance
  | tick busy => exact h.timersTick busy

theorem Sound.run (h : st.Sound) (events : List (TimerEvent α)) : (st.run events).Sound := by
  induction events generalizing st with
  | nil => exact h
  | cons e events ih => exact ih (h.step e)

end Clock

/-- **Every run is orderly**, whatever the clock. -/
theorem orderly_run (events : List (TimerEvent α)) :
    Lawful Orderly ((Clock.init : Clock α).run events).log :=
  lawful_of_filter (Clock.sound_init.run events).lawful

/-! ## Deadlines -/

/-- The deadline of a new timer does not wrap around. -/
def TimerEvent.Fits (st : Clock α) : TimerEvent α → Prop
  | .add expire _ => st.tick.toNat + expire.toNat < 2 ^ 32
  | .oneshot expire _ => st.tick.toNat + expire.toNat < 2 ^ 32
  | _ => True

instance (st : Clock α) : ∀ e : TimerEvent α, Decidable (e.Fits st)
  | .add expire _ => inferInstanceAs (Decidable (st.tick.toNat + expire.toNat < 2 ^ 32))
  | .oneshot expire _ => inferInstanceAs (Decidable (st.tick.toNat + expire.toNat < 2 ^ 32))
  | .release _ => inferInstanceAs (Decidable True)
  | .cancel _ => inferInstanceAs (Decidable True)
  | .advance => inferInstanceAs (Decidable True)
  | .tick _ => inferInstanceAs (Decidable True)

/-- No deadline wraps around in a run. -/
def Clock.RunFits : Clock α → List (TimerEvent α) → Prop
  | _, [] => True
  | st, e :: events => e.Fits st ∧ RunFits (st.step e) events

namespace Clock

variable {st : Clock α}

/-- The deadlines so far. -/
def Unwrapped (st : Clock α) : Prop :=
  ∀ ptr d u, .add ptr d u ∈ st.log → u % 2 ^ 32 + d.toNat < 2 ^ 32

/-- A pass starts handlers and takes timers off the list, and does nothing else. -/
theorem mem_pass {busy : ℕ → Bool} {t : Timer α} {e : Entry} (h : e ∈ (st.pass busy t).2) :
    e = .start t.ptr st.uptime ∨ e = .leave t.ptr t.refcnt := by
  unfold pass at h
  split at h
  · exact absurd h List.not_mem_nil
  · rcases visit_cases st t with ⟨-, -, heq⟩ | ⟨-, -, heq⟩ | ⟨-, -, -, heq⟩ | ⟨-, heq⟩
    all_goals
      rw [heq] at h
      simp at h
    · exact h
    · exact .inl h
    · exact .inr h

theorem Unwrapped.insert (h : st.Unwrapped) (hclock : st.tick = UInt32.ofNat st.uptime)
    (refcnt : ℤ) {expire : UInt32} (handler : α)
    (hfit : st.tick.toNat + expire.toNat < 2 ^ 32) :
    (st.insert refcnt expire handler).Unwrapped := by
  intro ptr d u hadd
  rcases List.mem_append.mp hadd with hadd | hadd
  · exact h ptr d u hadd
  · obtain ⟨-, rfl, rfl⟩ := Entry.add.injEq .. ▸ List.mem_singleton.mp hadd
    rwa [hclock, UInt32.toNat_ofNat'] at hfit

theorem Unwrapped.step (h : st.Unwrapped) (hclock : st.tick = UInt32.ofNat st.uptime)
    {e : TimerEvent α} (hfit : e.Fits st) : (st.step e).Unwrapped := by
  cases e with
  | add expire handler => exact h.insert hclock 1 handler hfit
  | oneshot expire handler => exact h.insert hclock 0 handler hfit
  | release ptr =>
    simp only [Clock.step]
    split
    · exact h
    · exact h
  | cancel ptr =>
    simp only [Clock.step]
    split
    · intro p d u hadd
      rcases List.mem_append.mp hadd with hadd | hadd
      · exact h p d u hadd
      · exact Entry.noConfusion (List.mem_singleton.mp hadd)
    · exact h
  | advance => exact h
  | tick busy =>
    intro p d u hadd
    rcases List.mem_append.mp hadd with hadd | hadd
    · exact h p d u hadd
    · obtain ⟨t, -, hadd⟩ := List.mem_flatMap.mp hadd
      rcases mem_pass hadd with heq | heq
      · exact Entry.noConfusion heq
      · exact Entry.noConfusion heq

theorem Unwrapped.run (h : st.Unwrapped) (hs : st.Sound) {events : List (TimerEvent α)}
    (hfit : st.RunFits events) : (st.run events).Unwrapped := by
  induction events generalizing st with
  | nil => exact h
  | cons e events ih => exact ih (h.step hs.clock hfit.1) (hs.step e) hfit.2

end Clock

/-- A deadline that has passed on the clock has passed, unless it had wrapped around. -/
theorem le_of_deadline {u v : ℕ} {d : UInt32} (huv : u ≤ v)
    (hlt : UInt32.ofNat u + d < UInt32.ofNat v) (hfit : u % 2 ^ 32 + d.toNat < 2 ^ 32) :
    u + d.toNat ≤ v := by
  rw [UInt32.lt_iff_toNat_lt, UInt32.toNat_add, UInt32.toNat_ofNat', UInt32.toNat_ofNat',
    Nat.mod_eq_of_lt hfit] at hlt
  omega

/-- **Timers are punctual** in every run in which no deadline wraps around. -/
theorem punctual_run (events : List (TimerEvent α)) (h : Clock.init.RunFits events) :
    Lawful Punctual (Clock.init.run events).log := by
  have hfits : (Clock.init.run events).Unwrapped :=
    Clock.Unwrapped.run (fun _ _ _ hadd => absurd hadd List.not_mem_nil) Clock.sound_init h
  intro pre e post heq
  have horder := orderly_run events pre e post heq
  cases e with
  | add ptr d u => trivial
  | cancel ptr => trivial
  | start ptr v =>
    obtain ⟨hstart, hcancel, d, u, hadd, huv, hlt⟩ := horder
    have hlog : .add ptr d u ∈ (Clock.init.run events).log :=
      heq ▸ List.mem_append_left _ hadd
    exact ⟨hstart, hcancel, d, u, hadd, le_of_deadline huv hlt (hfits ptr d u hlog)⟩
  | leave ptr refcnt => exact horder

theorem punctual_run_oneshot : Lawful Punctual
    ((Clock.init : Clock Unit).run [.oneshot 5 (), .advance, .tick fun _ => false]).log :=
  punctual_run _ ⟨by decide, trivial, trivial, trivial⟩

theorem Clock.run_append (st : Clock α) (pre post : List (TimerEvent α)) :
    st.run (pre ++ post) = (st.run pre).run post := List.foldl_append

/-- The clock after some time. -/
theorem Clock.run_advance (n : ℕ) (st : Clock α) : st.run (List.replicate n .advance) =
    { st with tick := st.tick + 10 * UInt32.ofNat n, uptime := st.uptime + 10 * n } := by
  induction n generalizing st with
  | zero => simp [Clock.run]
  | succ n ih =>
    have hcons : st.run (List.replicate (n + 1) .advance) =
        st.advance.run (List.replicate n .advance) := rfl
    rw [hcons, ih, Clock.advance, UInt32.ofNat_add]
    congr 1
    · rw [UInt32.mul_add, UInt32.add_assoc]
      congr 1
      exact UInt32.add_comm _ _
    · ring

/-- After seven weeks, a timer for a fifth of a second fires at once. -/
theorem not_punctual_uptime : ¬ Lawful Punctual ((Clock.init : Clock Unit).run
    (List.replicate 429496729 .advance ++ [.add 200 (), .tick fun _ => false])).log := by
  intro h
  have hsplit := Clock.run_append (Clock.init : Clock Unit) (List.replicate 429496729 .advance)
    [.add 200 (), .tick fun _ => false]
  rw [hsplit, Clock.run_advance] at h
  obtain ⟨-, -, d, u, hadd, hle⟩ :=
    h [.add 0 200 4294967290] (.start 0 4294967290) [] (by decide)
  obtain ⟨-, rfl, rfl⟩ := Entry.add.injEq .. ▸ List.mem_singleton.mp hadd
  exact absurd hle (by decide)

end LvlIp.Timers
