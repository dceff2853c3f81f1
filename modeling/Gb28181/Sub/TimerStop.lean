import Gb28181.Lib.Threads
import Gb28181.Sub.TaskTimer

/-!
# The end of a timer

`TaskTimer` with its detached threads.  `stop` only sets a flag, which a thread reads at the top
of the loop, and the destructor does not wait: what a thread does after the destructor is harmless
in every continuation of a run exactly when every thread has ended by then
(`always_staysFinal_iff`).
-/

namespace Sub.Timer

open Lib Sip

/-- The members of a `TaskTimer` that its thread reads; `timerFun` says whether `m_timerFun` is
set. -/
structure TaskTimer where
  timerFun : Bool
  timeSecond : ℤ
  timerStop : Bool
  deriving DecidableEq, Repr

/-- The constructor. -/
def TaskTimer.new (timeSecond : ℤ) : TaskTimer := ⟨false, timeSecond, false⟩

/-- Where a thread stands in `timer`. -/
inductive Pc where
  | testStop
  /-- Before `gettimeofday`. -/
  | readClock
  | testPeriod
  | testFun
  | invoke
  /-- In the callback. -/
  | running
  /-- In `usleep`. -/
  | sleep
  | ended
  deriving DecidableEq, Repr

/-- The local variables of `timer`, with the history of its invocations. -/
structure Thread where
  pc : Pc
  curTm : ℕ
  lastTm : ℕ
  invoked : List ℕ
  deriving DecidableEq, Repr

def Thread.new : Thread := ⟨.testStop, 0, 0, []⟩

/-- A thread at a point of its loop. -/
def Thread.at (t : Thread) (pc : Pc) : Thread := { t with pc := pc }

/-- A step of a thread: `pthis` is what it finds in the members, `current` what the clock says. -/
def Thread.advance (pthis : TaskTimer) (current : Timeval) (t : Thread) : Option Thread :=
  match t.pc with
  | .testStop => some (t.at (if pthis.timerStop then .ended else .readClock))
  | .readClock => some { t with pc := .testPeriod, curTm := current.curTm }
  | .testPeriod =>
    if due pthis.timeSecond t.curTm t.lastTm then
      some { t with pc := .testFun, lastTm := t.curTm }
    else some (t.at .sleep)
  | .testFun => some (t.at (if pthis.timerFun then .invoke else .testStop))
  | .invoke => some { t with pc := .running, invoked := t.invoked ++ [t.curTm] }
  | .running => some (t.at .testStop)
  | .sleep => some (t.at .testStop)
  | .ended => none

/-- The next step of the thread reads a member. -/
def Thread.readsMember (t : Thread) : Bool :=
  match t.pc with
  | .testStop | .testPeriod | .testFun | .invoke => true
  | .readClock | .running | .sleep | .ended => false

/-- The next step of the thread begins an invocation. -/
def Thread.invokes (t : Thread) : Bool := t.pc == .invoke

/-- How far the owner, a `SipRegister`, has come. -/
inductive Owner where
  | owned
  /-- In `~TaskTimer`, after `stop`. -/
  | destroying
  /-- After `delete m_regTimer`. -/
  | destroyed
  /-- After `~SipRegister`. -/
  | released
  deriving DecidableEq, Repr

/-- The memory of the `TaskTimer` is no longer allocated. -/
def Owner.freed : Owner → Bool
  | .owned | .destroying => false
  | .destroyed | .released => true

/-- A timer with its owner and its threads.  `lateReads` and `lateCalls` are histories: how many
members were read, and how many invocations began, after the destructor had completed. -/
structure State where
  timer : TaskTimer
  owner : Owner
  threads : List Thread
  lateReads : ℕ
  lateCalls : ℕ
  deriving DecidableEq, Repr

def start (timeSecond : ℤ) : State := ⟨.new timeSecond, .owned, [], 0, 0⟩

/-- The atomic steps. -/
inductive Event where
  | setTimerFun
  /-- `start`; `created` says whether there is a new thread. -/
  | start (created : Bool)
  | stop
  /-- `~TaskTimer` up to the end of `stop`. -/
  | destroy
  /-- The end of `delete m_regTimer`. -/
  | free
  /-- The end of `~SipRegister`. -/
  | release
  /-- A step of thread `k`; `seen` is what it finds in members that are no longer there. -/
  | thread (k : ℕ) (current : Timeval) (seen : TaskTimer)
  deriving DecidableEq, Repr

/-- The members as a thread finds them. -/
def State.members (s : State) (seen : TaskTimer) : TaskTimer :=
  if s.owner.freed then seen else s.timer

/-- Thread `k`, which was `t`, has become `t'`. -/
def State.moved (s : State) (k : ℕ) (t t' : Thread) : State :=
  { s with
    threads := s.threads.set k t'
    lateReads := s.lateReads + if s.owner.freed && t.readsMember then 1 else 0
    lateCalls := s.lateCalls + if s.owner.freed && t.invokes then 1 else 0 }

/-- A step of the timer; `none` says that it cannot happen. -/
def step (s : State) : Event → Option State
  | .setTimerFun =>
    if s.owner = .owned then some { s with timer := { s.timer with timerFun := true } } else none
  | .start created =>
    if s.owner = .owned then
      some (if created then { s with threads := s.threads ++ [.new] } else s)
    else none
  | .stop =>
    if s.owner = .owned then some { s with timer := { s.timer with timerStop := true } } else none
  | .destroy =>
    if s.owner = .owned then
      some { s with timer := { s.timer with timerStop := true }, owner := .destroying }
    else none
  | .free => if s.owner = .destroying then some { s with owner := .destroyed } else none
  | .release => if s.owner = .destroyed then some { s with owner := .released } else none
  | .thread k current seen =>
    s.threads[k]?.bind fun t =>
      (t.advance (s.members seen) current).map fun t' => s.moved k t t'

/-! ### One iteration -/

section Iteration

variable (pthis : TaskTimer) (current : Timeval)

/-- The loop of the thread, between two iterations. -/
def Thread.loop (t : Thread) : Loop := ⟨t.lastTm, t.invoked⟩

/-- Some steps of a thread that no one disturbs. -/
inductive Steps : Thread → Thread → Prop
  | refl (t : Thread) : Steps t t
  | head {t u v : Thread} (h : t.advance pthis current = some u) (hs : Steps u v) : Steps t v

/-- A thread that is left alone while the flag is not set comes back to the top of the loop,
having done what `Loop.iterate` does. -/
lemma steps_iterate {t : Thread} (hpc : t.pc = .testStop) (hstop : pthis.timerStop = false) :
    ∃ u, Steps pthis current t u ∧ u.pc = .testStop ∧
      u.loop = t.loop.iterate pthis.timerFun pthis.timeSecond current := by
  obtain ⟨pc, cur, last, invoked⟩ := t
  obtain rfl : pc = .testStop := hpc
  have hread : (Thread.mk .testStop cur last invoked).advance pthis current =
      some ⟨.readClock, cur, last, invoked⟩ := by
    rw [Thread.advance, hstop]
    rfl
  by_cases hdue : due pthis.timeSecond current.curTm last = true
  · have hfun : (Thread.mk .testPeriod current.curTm last invoked).advance pthis current =
        some ⟨.testFun, current.curTm, current.curTm, invoked⟩ := if_pos hdue
    -- the period is over, and the callback is invoked if there is one
    cases hset : pthis.timerFun with
    | true =>
      have hinvoke : (Thread.mk .testFun current.curTm current.curTm invoked).advance pthis
          current = some ⟨.invoke, current.curTm, current.curTm, invoked⟩ := by
        rw [Thread.advance, hset]
        rfl
      refine ⟨⟨.testStop, current.curTm, current.curTm, invoked ++ [current.curTm]⟩,
        .head hread (.head rfl (.head hfun (.head hinvoke (.head rfl (.head rfl (.refl _)))))),
        rfl, ?_⟩
      exact (iterate_of_due (s := ⟨last, invoked⟩) hdue).symm
    | false =>
      have htop : (Thread.mk .testFun current.curTm current.curTm invoked).advance pthis
          current = some ⟨.testStop, current.curTm, current.curTm, invoked⟩ := by
        rw [Thread.advance, hset]
        rfl
      refine ⟨⟨.testStop, current.curTm, current.curTm, invoked⟩,
        .head hread (.head rfl (.head hfun (.head htop (.refl _)))), rfl, ?_⟩
      rw [Loop.iterate, if_pos (by exact hdue)]
      rfl
  · have hsleep : (Thread.mk .testPeriod current.curTm last invoked).advance pthis current =
        some ⟨.sleep, current.curTm, last, invoked⟩ := if_neg hdue
    refine ⟨⟨.testStop, current.curTm, last, invoked⟩,
      .head hread (.head rfl (.head hsleep (.head rfl (.refl _)))), rfl, ?_⟩
    exact (iterate_of_not_due (s := ⟨last, invoked⟩) hdue).symm

end Iteration

/-! ### After the destructor -/

/-- No member was read and no invocation began after the destructor had completed, and no callback
runs on a `SipRegister` that is gone. -/
structure StopIsFinal (s : State) : Prop where
  reads : s.lateReads = 0
  calls : s.lateCalls = 0
  notRunning : s.owner = .released → ∀ t ∈ s.threads, t.pc ≠ .running

/-- So it is in this state and in whatever can follow without another destruction. -/
def StaysFinal (s : State) : Prop :=
  ∀ fs, Event.free ∉ fs → Trace.Always step StopIsFinal s fs

/-- The destructor completes when every thread has ended. -/
def FreedAfterEnd (s : State) (e : Event) : Prop :=
  e = .free → ∀ t ∈ s.threads, t.pc = .ended

/-- Nothing is late before the memory is freed. -/
structure Early (s : State) : Prop where
  reads : s.owner.freed = false → s.lateReads = 0
  calls : s.owner.freed = false → s.lateCalls = 0

variable {s s' u : State} {e : Event} {t t' : Thread} {k : ℕ} {current : Timeval}
  {seen : TaskTimer}

/-- What a step can be. -/
inductive Goes (s : State) : Event → State → Prop
  | owned {e : Event} (timer : TaskTimer) (threads : List Thread) (hfree : e ≠ .free)
      (ho : s.owner = .owned) : Goes s e { s with timer := timer, threads := threads }
  | destroy (timer : TaskTimer) (ho : s.owner = .owned) :
      Goes s .destroy { s with timer := timer, owner := .destroying }
  | free (ho : s.owner = .destroying) : Goes s .free { s with owner := .destroyed }
  | release (ho : s.owner = .destroyed) : Goes s .release { s with owner := .released }
  | thread {k : ℕ} {current : Timeval} {seen : TaskTimer} {t t' : Thread}
      (hk : s.threads[k]? = some t) (hadv : t.advance (s.members seen) current = some t') :
      Goes s (.thread k current seen) (s.moved k t t')

lemma goes_of_step (h : step s e = some s') : Goes s e s' := by
  cases e with
  | setTimerFun | stop =>
    rw [step, Option.ite_none_right_eq_some] at h
    obtain ⟨ho, h⟩ := h
    obtain rfl := Option.some.inj h
    exact .owned _ s.threads (by simp) ho
  | start created =>
    rw [step, Option.ite_none_right_eq_some] at h
    obtain ⟨ho, h⟩ := h
    obtain rfl := Option.some.inj h
    cases created with
    | true => exact Goes.owned (e := .start true) s.timer (s.threads ++ [.new]) (by simp) ho
    | false => exact Goes.owned (e := .start false) s.timer s.threads (by simp) ho
  | destroy =>
    rw [step, Option.ite_none_right_eq_some] at h
    obtain ⟨ho, h⟩ := h
    obtain rfl := Option.some.inj h
    exact .destroy _ ho
  | free =>
    rw [step, Option.ite_none_right_eq_some] at h
    obtain ⟨ho, h⟩ := h
    obtain rfl := Option.some.inj h
    exact .free ho
  | release =>
    rw [step, Option.ite_none_right_eq_some] at h
    obtain ⟨ho, h⟩ := h
    obtain rfl := Option.some.inj h
    exact .release ho
  | thread k current seen =>
    rw [step, Option.bind_eq_some_iff] at h
    obtain ⟨t, hk, h⟩ := h
    rw [Option.map_eq_some_iff] at h
    obtain ⟨t', hadv, rfl⟩ := h
    exact .thread hk hadv

lemma step_thread (hk : s.threads[k]? = some t)
    (hadv : t.advance (s.members seen) current = some t') :
    step s (.thread k current seen) = some (s.moved k t t') := by
  rw [step, hk, Option.bind_some, hadv, Option.map_some]

lemma early_step (hs : Early s) (h : step s e = some s') : Early s' := by
  cases goes_of_step h with
  | owned _ _ _ ho | destroy _ ho =>
    have hfreed : s.owner.freed = false := by rw [ho]; rfl
    exact ⟨fun _ => hs.reads hfreed, fun _ => hs.calls hfreed⟩
  | free | release => exact ⟨fun hf => absurd hf Bool.false_ne_true.symm,
      fun hf => absurd hf Bool.false_ne_true.symm⟩
  | thread hk hadv =>
    constructor
    · intro hf
      have hf' : s.owner.freed = false := hf
      simp [State.moved, hf', hs.reads hf']
    · intro hf
      have hf' : s.owner.freed = false := hf
      simp [State.moved, hf', hs.calls hf']

/-- A thread that has not ended can take a step. -/
lemma exists_advance (pthis : TaskTimer) (current : Timeval) (hpc : t.pc ≠ .ended) :
    ∃ t', t.advance pthis current = some t' := by
  rw [Thread.advance]
  cases h : t.pc with
  | ended => exact absurd h hpc
  | testPeriod => exact ⟨_, (apply_ite some _ _ _).symm⟩
  | testStop | readClock | testFun | invoke | running | sleep => exact ⟨_, rfl⟩

/-- If it does not read a member, it does so next. -/
lemma readsMember_of_advance {pthis : TaskTimer} (h : t.advance pthis current = some t')
    (ht : t.readsMember = false) : t'.readsMember = true ∧ t'.pc ≠ .ended := by
  rw [Thread.advance] at h
  rw [Thread.readsMember] at ht
  cases hpc : t.pc with
  | testStop | testPeriod | testFun | invoke => simp [hpc] at ht
  | ended => simp [hpc] at h
  | readClock | running | sleep =>
    rw [hpc] at h
    obtain rfl := Option.some.inj h
    exact ⟨rfl, by simp [Thread.at]⟩

/-- A thread that has not ended when the memory is freed can read a member afterwards. -/
lemma exists_lateRead (hfreed : s.owner.freed = true) (ht : t ∈ s.threads) (hpc : t.pc ≠ .ended) :
    ∃ fs u, Event.free ∉ fs ∧ Trace.run step s fs = some u ∧ 0 < u.lateReads := by
  obtain ⟨k, hk⟩ := List.mem_iff_getElem?.1 ht
  obtain ⟨t', hadv⟩ := exists_advance (s.members (.new 0)) ⟨0, 0⟩ hpc
  have hstep := step_thread hk hadv
  by_cases hreads : t.readsMember = true
  · refine ⟨[.thread k ⟨0, 0⟩ (.new 0)], s.moved k t t', by simp, ?_, ?_⟩
    · rw [Trace.run_cons, hstep, Option.bind_some, Trace.run_nil]
    · simp [State.moved, hfreed, hreads]
  · obtain ⟨hreads', hpc'⟩ := readsMember_of_advance hadv (Bool.eq_false_iff.2 hreads)
    have hk' : (s.moved k t t').threads[k]? = some t' :=
      List.getElem?_set_self (List.getElem?_eq_some_iff.1 hk).1
    obtain ⟨t'', hadv'⟩ := exists_advance ((s.moved k t t').members (.new 0)) ⟨0, 0⟩ hpc'
    refine ⟨[.thread k ⟨0, 0⟩ (.new 0), .thread k ⟨0, 0⟩ (.new 0)],
      (s.moved k t t').moved k t' t'', by simp, ?_, ?_⟩
    · rw [Trace.run_cons, hstep, Option.bind_some, Trace.run_cons, step_thread hk' hadv',
        Option.bind_some, Trace.run_nil]
    · simp [State.moved, hfreed, hreads']

/-- What holds all along when every thread ends before the destructor does. -/
structure Settled (s : State) : Prop where
  ended : s.owner.freed = true → ∀ t ∈ s.threads, t.pc = .ended
  reads : s.lateReads = 0
  calls : s.lateCalls = 0

lemma stopIsFinal_of_settled (hs : Settled s) : StopIsFinal s := by
  refine ⟨hs.reads, hs.calls, fun ho t ht hpc => ?_⟩
  have hended := hs.ended (by rw [ho]; rfl) t ht
  rw [hpc] at hended
  exact Pc.noConfusion hended

lemma settled_step (hs : Settled s) (hfree : FreedAfterEnd s e) (h : step s e = some s') :
    Settled s' := by
  cases goes_of_step h with
  | owned _ _ _ ho => exact ⟨fun hf => by simp [Owner.freed, ho] at hf, hs.reads, hs.calls⟩
  | destroy => exact ⟨fun hf => by simp [Owner.freed] at hf, hs.reads, hs.calls⟩
  | free => exact ⟨fun _ => hfree rfl, hs.reads, hs.calls⟩
  | release ho => exact ⟨fun _ => hs.ended (by rw [ho]; rfl), hs.reads, hs.calls⟩
  | @thread k current seen t t' hk hadv =>
    -- a thread that moves has not ended
    have hfreed : s.owner.freed = false := by
      by_contra hf
      have hended := hs.ended (by simpa using hf) t (List.mem_of_getElem? hk)
      simp [Thread.advance, hended] at hadv
    refine ⟨fun hf => ?_, ?_, ?_⟩
    · exact absurd (hfreed.symm.trans hf) Bool.false_ne_true
    · simp [State.moved, hfreed, hs.reads]
    · simp [State.moved, hfreed, hs.calls]

lemma staysFinal_of_settled (hs : Settled s) : StaysFinal s :=
  Trace.stays_of_invariant hs (fun _ _ _ hs hfree => settled_step hs fun he => absurd he hfree)
    fun _ => stopIsFinal_of_settled

/-- After the destructor the end is final exactly when every thread had ended. -/
lemma staysFinal_free_iff (hearly : Early s) (h : step s .free = some s') :
    StaysFinal s' ↔ ∀ t ∈ s.threads, t.pc = .ended := by
  cases goes_of_step h with
  | owned _ _ hne => exact absurd rfl hne
  | free ho =>
    have hnot : s.owner.freed = false := by rw [ho]; rfl
    constructor
    · intro hs' t ht
      by_contra hpc
      obtain ⟨fs, u, hfs, hrun, hlate⟩ :=
        exists_lateRead (s := { s with owner := .destroyed }) rfl ht hpc
      have hzero := (hs' fs hfs fs List.prefix_rfl u hrun).reads
      omega
    · intro hended
      exact staysFinal_of_settled ⟨fun _ => hended, hearly.reads hnot, hearly.calls hnot⟩

/-- For every run, stopping the timer is final in every state of it, whatever follows, exactly
when every thread has ended by the time the destructor completes. -/
theorem always_staysFinal_iff (timeSecond : ℤ) (es : List Event) :
    Trace.Always step StaysFinal (start timeSecond) es ↔
      Trace.EachStep step FreedAfterEnd (start timeSecond) es := by
  have hsettled : Settled (start timeSecond) := by
    refine ⟨fun _ t ht => ?_, rfl, rfl⟩
    exact absurd ht List.not_mem_nil
  exact Trace.always_stays_iff (J := Early) ⟨fun _ => rfl, fun _ => rfl⟩
    (staysFinal_of_settled hsettled) (fun _ _ _ => early_step)
    (fun _ _ => staysFinal_free_iff) es

/-- The timer is destroyed, and its `SipRegister` with it, while a thread stands before the
callback. -/
def destroyedInLoop : List Event :=
  [.setTimerFun, .start true] ++ List.replicate 4 (.thread 0 ⟨1700000000, 0⟩ (.new 3)) ++
    [.destroy, .free, .release, .thread 0 ⟨1700000000, 0⟩ (.new 3)]

/-- The callback begins all the same. -/
theorem not_always_stopIsFinal_destroyedInLoop :
    ¬ Trace.Always step StopIsFinal (start 3) destroyedInLoop := by
  intro h
  have hlast := h destroyedInLoop List.prefix_rfl _ rfl
  exact absurd hlast.calls (by decide)

end Sub.Timer
