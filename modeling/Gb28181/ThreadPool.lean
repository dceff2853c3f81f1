import Gb28181.Lib.Progress
import Gb28181.Lib.Threads

/-!
# The thread pool

`ThreadPool` of the two services, with any number of workers in `mainThread` and of threads that
call `postTask`.  A task is pushed under `m_queueLock` before the semaphore is posted, and a
worker is woken before it takes a task under the lock, so the semaphore and the queue agree
only up to the threads that are between the two.
-/

namespace ThreadPool

open Lib

/-- Where a worker stands in the loop of `mainThread`. -/
inductive Worker (τ : Type) where
  /-- In `waitTask`. -/
  | waitTask
  /-- `waitTask` has returned 0, and no task is taken yet. -/
  | woken
  /-- Before `task->run()` and `delete task`. -/
  | run (task : τ)

/-- Where a thread stands that calls `postTask`. -/
inductive Poster where
  | idle
  /-- The task is in the queue, and the semaphore is not posted yet. -/
  | pushed
  deriving DecidableEq

variable {τ : Type}

def Worker.isWoken : Worker τ → Bool
  | .woken => true
  | _ => false

def Poster.isPushed : Poster → Bool
  | .pushed => true
  | .idle => false

/-- The task that a worker has taken and not deleted yet. -/
def Worker.task : Worker τ → Option τ
  | .run task => some task
  | _ => none

/-- The state of a pool, whose tasks are the pointers `τ`.  `posted`, `taken` and `done` are
histories: the tasks that were pushed, those that were taken and those that were run and
deleted, the latter two with the number of the worker. -/
structure State (τ : Type) where
  queue : List τ
  sem : ℕ
  workers : List (Worker τ)
  posters : List Poster
  posted : List τ
  taken : List (ℕ × τ)
  done : List (ℕ × τ)

/-- A pool with `m` workers and `n` threads that post. -/
def start (τ : Type) (m n : ℕ) : State τ :=
  ⟨[], 0, List.replicate m .waitTask, List.replicate n .idle, [], [], []⟩

/-- The atomic steps; `p` and `w` are the numbers of a poster and a worker. -/
inductive Event (τ : Type) where
  /-- `postTask` up to the unlocking of the queue; `none` is a null pointer. -/
  | push (p : ℕ) (task : Option τ)
  | semPost (p : ℕ)
  /-- `sem_wait` returns 0, or an error. -/
  | semWait (w : ℕ) (ok : Bool)
  /-- The part of `mainThread` under the lock. -/
  | pop (w : ℕ)
  /-- `task->run()` and `delete task`. -/
  | finish (w : ℕ)

/-- A step of the pool; `none` says that the thread is elsewhere, or blocked. -/
def step (s : State τ) : Event τ → Option (State τ)
  | .push p task =>
    match s.posters[p]?, task with
    | some .idle, none => some s
    | some .idle, some task => some { s with
        queue := s.queue ++ [task], posters := s.posters.set p .pushed,
        posted := s.posted ++ [task] }
    | _, _ => none
  | .semPost p =>
    match s.posters[p]? with
    | some .pushed => some { s with sem := s.sem + 1, posters := s.posters.set p .idle }
    | _ => none
  | .semWait w ok =>
    match s.workers[w]? with
    | some .waitTask =>
      if ok = false then some s
      else
        match s.sem with
        | 0 => none
        | sem + 1 => some { s with sem := sem, workers := s.workers.set w .woken }
    | _ => none
  | .pop w =>
    match s.workers[w]? with
    | some .woken =>
      match s.queue with
      | [] => some { s with workers := s.workers.set w .waitTask }
      | task :: queue => some { s with
          queue := queue, workers := s.workers.set w (.run task),
          taken := s.taken ++ [(w, task)] }
    | _ => none
  | .finish w =>
    match s.workers[w]? with
    | some (.run task) => some { s with
        workers := s.workers.set w .waitTask, done := s.done ++ [(w, task)] }
    | _ => none

/-- What a step can be. -/
inductive Goes (s : State τ) : State τ → Prop
  | stay : Goes s s
  | push {p : ℕ} {task : τ} (hp : s.posters[p]? = some .idle) : Goes s { s with
      queue := s.queue ++ [task], posters := s.posters.set p .pushed,
      posted := s.posted ++ [task] }
  | semPost {p : ℕ} (hp : s.posters[p]? = some .pushed) :
      Goes s { s with sem := s.sem + 1, posters := s.posters.set p .idle }
  | wake {w sem : ℕ} (hw : s.workers[w]? = some .waitTask) (hsem : s.sem = sem + 1) :
      Goes s { s with sem := sem, workers := s.workers.set w .woken }
  | miss {w : ℕ} (hw : s.workers[w]? = some .woken) (hqueue : s.queue = []) :
      Goes s { s with workers := s.workers.set w .waitTask }
  | pop {w : ℕ} {task : τ} {queue : List τ} (hw : s.workers[w]? = some .woken)
      (hqueue : s.queue = task :: queue) : Goes s { s with
        queue := queue, workers := s.workers.set w (.run task), taken := s.taken ++ [(w, task)] }
  | finish {w : ℕ} {task : τ} (hw : s.workers[w]? = some (.run task)) : Goes s { s with
      workers := s.workers.set w .waitTask, done := s.done ++ [(w, task)] }

variable {s s' : State τ} {e : Event τ}

lemma goes_of_step (h : step s e = some s') : Goes s s' := by
  cases e with
  | push p task =>
    simp only [step] at h
    split at h
    · exact Option.some.inj h ▸ .stay
    · next hp => exact Option.some.inj h ▸ .push hp
    · exact absurd h (by simp)
  | semPost p =>
    simp only [step] at h
    split at h
    · next hp => exact Option.some.inj h ▸ .semPost hp
    · exact absurd h (by simp)
  | semWait w ok =>
    simp only [step] at h
    split at h
    · next hw =>
      split at h
      · exact Option.some.inj h ▸ .stay
      split at h
      · exact absurd h (by simp)
      · next sem hsem => exact Option.some.inj h ▸ .wake hw hsem
    · exact absurd h (by simp)
  | pop w =>
    simp only [step] at h
    split at h
    · next hw =>
      split at h
      · next hqueue => exact Option.some.inj h ▸ .miss hw hqueue
      · next task queue hqueue => exact Option.some.inj h ▸ .pop hw hqueue
    · exact absurd h (by simp)
  | finish w =>
    simp only [step] at h
    split at h
    · next task hw => exact Option.some.inj h ▸ .finish hw
    · exact absurd h (by simp)

/-! ### The balance of the semaphore and the queue -/

/-- The threads that have pushed and not posted yet. -/
def State.pushed (s : State τ) : ℕ := s.posters.countP Poster.isPushed

/-- The workers that are woken and have taken nothing yet. -/
def State.woken (s : State τ) : ℕ := s.workers.countP Worker.isWoken

/-- What a worker has in hand, as its work. -/
def inHand (workers : List (Worker τ)) (w : ℕ) : List (ℕ × τ) :=
  ((workers[w]?.bind Worker.task).map fun task => (w, task)).toList

/-- What every run keeps: the semaphore lags behind the queue by the threads between two steps, the
tasks are taken in the order in which they were posted, and what a worker has taken is what it
has run and deleted and what it has in hand. -/
structure Balanced (s : State τ) : Prop where
  count : s.queue.length = s.sem + s.pushed + s.woken
  order : s.taken.map Prod.snd ++ s.queue = s.posted
  work : ∀ w, (s.taken.filter fun x => x.1 == w) =
    (s.done.filter fun x => x.1 == w) ++ inHand s.workers w

lemma balanced_start (m n : ℕ) : Balanced (start τ m n) := by
  refine ⟨?_, rfl, fun w => ?_⟩
  · have hposters : ∀ x ∈ List.replicate n Poster.idle, ¬ Poster.isPushed x = true := by
      intro x hx
      rw [List.eq_of_mem_replicate hx]
      exact Bool.false_ne_true
    have hworkers : ∀ x ∈ List.replicate m (Worker.waitTask (τ := τ)),
        ¬ Worker.isWoken x = true := by
      intro x hx
      rw [List.eq_of_mem_replicate hx]
      exact Bool.false_ne_true
    rw [State.pushed, State.woken, start, List.countP_eq_zero.2 hposters,
      List.countP_eq_zero.2 hworkers]
    rfl
  · have hnone : inHand (start τ m n).workers w = [] := by
      rw [inHand, start]
      simp only [List.getElem?_replicate]
      split <;> rfl
    rw [hnone]
    rfl

section Set

variable {workers : List (Worker τ)} {pc pc' : Worker τ} {w w' : ℕ}

lemma inHand_of_getElem? (hw : workers[w]? = some pc) :
    inHand workers w = (pc.task.map fun task => (w, task)).toList := by
  rw [inHand, hw, Option.bind_some]

/-- What the workers have in hand after one of them has moved. -/
lemma inHand_set (hw : workers[w']? = some pc) : inHand (workers.set w' pc') w =
    if w = w' then (pc'.task.map fun task => (w, task)).toList else inHand workers w := by
  have hlt := (List.getElem?_eq_some_iff.1 hw).1
  by_cases hww : w = w'
  · subst hww
    rw [if_pos rfl, inHand_of_getElem? (List.getElem?_set_self hlt)]
  · rw [if_neg hww, inHand, inHand, List.getElem?_set_ne (Ne.symm hww)]

/-- A worker without a task that takes none. -/
lemma inHand_set_of_none (hw : workers[w']? = some pc) (hpc : pc.task = none)
    (hpc' : pc'.task = none) : inHand (workers.set w' pc') w = inHand workers w := by
  rw [inHand_set hw]
  split
  · next hww =>
    subst hww
    rw [inHand_of_getElem? hw, hpc, hpc']
  · rfl

end Set

/-- A worker that is woken is counted, so it finds a task in the queue. -/
lemma queue_ne_nil_of_woken {w : ℕ} (hs : Balanced s) (hw : s.workers[w]? = some .woken) :
    s.queue ≠ [] := by
  intro hqueue
  have hcount := hs.count
  have hpos : 0 < s.woken := List.countP_pos_iff.2 ⟨_, List.mem_of_getElem? hw, rfl⟩
  rw [hqueue, List.length_nil] at hcount
  omega

lemma count_step (hs : Balanced s) (h : Goes s s') :
    s'.queue.length = s'.sem + s'.pushed + s'.woken := by
  have hcount := hs.count
  rw [State.pushed, State.woken] at hcount ⊢
  cases h with
  | stay => exact hcount
  | @push p task hp =>
    have hset := countP_set_add Poster.isPushed hp (b := .pushed)
    simp only [Poster.isPushed, if_true, Bool.false_eq_true, if_false] at hset
    show (s.queue ++ [task]).length =
      s.sem + (s.posters.set p .pushed).countP Poster.isPushed + s.workers.countP Worker.isWoken
    rw [List.length_append, List.length_singleton]
    omega
  | @semPost p hp =>
    have hset := countP_set_add Poster.isPushed hp (b := .idle)
    simp only [Poster.isPushed, if_true, Bool.false_eq_true, if_false] at hset
    show s.queue.length =
      s.sem + 1 + (s.posters.set p .idle).countP Poster.isPushed + s.workers.countP Worker.isWoken
    omega
  | @wake w sem hw hsem =>
    have hset := countP_set_add Worker.isWoken hw (b := .woken)
    simp only [Worker.isWoken, if_true, Bool.false_eq_true, if_false] at hset
    show s.queue.length = sem + s.posters.countP Poster.isPushed +
      (s.workers.set w .woken).countP Worker.isWoken
    omega
  | miss hw hqueue => exact absurd hqueue (queue_ne_nil_of_woken hs hw)
  | @pop w task queue hw hqueue =>
    have hset := countP_set_add Worker.isWoken hw (b := .run task)
    simp only [Worker.isWoken, if_true, Bool.false_eq_true, if_false] at hset
    show queue.length = s.sem + s.posters.countP Poster.isPushed +
      (s.workers.set w (.run task)).countP Worker.isWoken
    rw [hqueue, List.length_cons] at hcount
    omega
  | @finish w task hw =>
    have hset := countP_set_add Worker.isWoken hw (b := .waitTask)
    simp only [Worker.isWoken, Bool.false_eq_true, if_false] at hset
    show s.queue.length = s.sem + s.posters.countP Poster.isPushed +
      (s.workers.set w .waitTask).countP Worker.isWoken
    omega

/-- Tasks move from the front of the queue to the end of what was taken. -/
lemma order_step (hs : Balanced s) (h : Goes s s') :
    s'.taken.map Prod.snd ++ s'.queue = s'.posted := by
  cases h with
  | stay | semPost | wake | miss | finish => exact hs.order
  | @push p task =>
    show s.taken.map Prod.snd ++ (s.queue ++ [task]) = s.posted ++ [task]
    rw [← List.append_assoc, hs.order]
  | @pop w task queue hw hqueue =>
    show (s.taken ++ [(w, task)]).map Prod.snd ++ queue = s.posted
    rw [← hs.order, hqueue, List.map_append, List.append_assoc]
    rfl

/-- What a worker takes it has in hand until it is done. -/
lemma work_step (hs : Balanced s) (h : Goes s s') (w' : ℕ) :
    (s'.taken.filter fun x => x.1 == w') =
      (s'.done.filter fun x => x.1 == w') ++ inHand s'.workers w' := by
  have hwork := hs.work w'
  cases h with
  | stay | push | semPost => exact hwork
  | @wake w sem hw =>
    show (s.taken.filter fun x => x.1 == w') =
      (s.done.filter fun x => x.1 == w') ++ inHand (s.workers.set w .woken) w'
    rw [inHand_set_of_none hw rfl rfl]
    exact hwork
  | miss hw hqueue => exact absurd hqueue (queue_ne_nil_of_woken hs hw)
  | @pop w task queue hw =>
    show ((s.taken ++ [(w, task)]).filter fun x => x.1 == w') =
      (s.done.filter fun x => x.1 == w') ++ inHand (s.workers.set w (.run task)) w'
    rw [inHand_set hw, filter_concat, hwork]
    by_cases hww : w' = w
    · -- before, it had nothing in hand
      subst hww
      have hhand : inHand s.workers w' = [] := inHand_of_getElem? hw
      rw [hhand, List.append_nil, if_pos rfl, if_pos rfl]
      rfl
    · rw [if_neg hww, if_neg hww, List.append_nil]
  | @finish w task hw =>
    show (s.taken.filter fun x => x.1 == w') =
      ((s.done ++ [(w, task)]).filter fun x => x.1 == w') ++ inHand (s.workers.set w .waitTask) w'
    rw [inHand_set hw, filter_concat, hwork]
    by_cases hww : w' = w
    · -- the task goes from its hand to what is done
      subst hww
      have hhand : inHand s.workers w' = [(w', task)] := inHand_of_getElem? hw
      rw [hhand, if_pos rfl, if_pos rfl]
      exact (List.append_nil _).symm
    · rw [if_neg hww, if_neg hww, List.append_nil]

lemma balanced_step (hs : Balanced s) (h : Goes s s') : Balanced s' :=
  ⟨count_step hs h, order_step hs h, work_step hs h⟩

/-! ### Nothing is lost or duplicated -/

/-- All posters and all workers are between two tasks, and the semaphore is at 0. -/
def State.Idle (s : State τ) : Prop :=
  (∀ x ∈ s.posters, x = .idle) ∧ (∀ x ∈ s.workers, x = .waitTask) ∧ s.sem = 0

/-- What the pool guarantees in a state. -/
structure NothingLost (s : State τ) : Prop where
  /-- The queue is ahead of the semaphore by the threads that are between two steps. -/
  count : s.queue.length = s.sem + s.pushed + s.woken
  /-- A worker that is woken finds a task. -/
  found : ∀ w : ℕ, s.workers[w]? = some .woken → s.queue ≠ []
  /-- The tasks that were posted are those that were taken, in the order of the posts and by one
  worker each, and those that wait in the queue. -/
  order : s.taken.map Prod.snd ++ s.queue = s.posted
  /-- A worker has run and deleted the tasks that it has taken, each of them once and in this order,
  but for the one that it has in hand. -/
  work : ∀ w, (s.taken.filter fun x => x.1 == w) =
    (s.done.filter fun x => x.1 == w) ++ inHand s.workers w
  /-- When all is quiet, the tasks that were posted are those that were run. -/
  finished : s.Idle → (s.done.map Prod.snd).Perm s.posted

lemma inHand_of_idle (hidle : s.Idle) (w : ℕ) : inHand s.workers w = [] := by
  cases hw : s.workers[w]? with
  | none => rw [inHand, hw]; rfl
  | some pc =>
    have hpc : pc = .waitTask := hidle.2.1 pc (List.mem_of_getElem? hw)
    rw [inHand_of_getElem? hw, hpc]
    rfl

lemma queue_of_idle (hs : Balanced s) (hidle : s.Idle) : s.queue = [] := by
  obtain ⟨hposters, hworkers, hsem⟩ := hidle
  have hpushed : s.pushed = 0 := by
    refine List.countP_eq_zero.2 fun x hx => ?_
    rw [hposters x hx]
    exact Bool.false_ne_true
  have hwoken : s.woken = 0 := by
    refine List.countP_eq_zero.2 fun x hx => ?_
    rw [hworkers x hx]
    exact Bool.false_ne_true
  have hcount := hs.count
  rw [hsem, hpushed, hwoken] at hcount
  exact List.length_eq_zero_iff.1 hcount

lemma nothingLost_of_balanced (hs : Balanced s) : NothingLost s := by
  refine ⟨hs.count, fun w hw hqueue => ?_, hs.order, hs.work, fun hidle => ?_⟩
  · have hcount := hs.count
    have hpos : 0 < s.woken := List.countP_pos_iff.2 ⟨_, List.mem_of_getElem? hw, rfl⟩
    rw [hqueue, List.length_nil] at hcount
    omega
  · have hperm : s.taken.Perm s.done := by
      refine perm_of_filter_eq fun w => ?_
      rw [hs.work w, inHand_of_idle hidle, List.append_nil]
    have horder := hs.order
    rw [queue_of_idle hs hidle, List.append_nil] at horder
    rw [← horder]
    exact (hperm.map Prod.snd).symm

/-- With any number of workers and posters, the pool loses and duplicates nothing in any state of
any run. -/
theorem always_nothingLost (τ : Type) (m n : ℕ) (es : List (Event τ)) :
    Trace.Always step NothingLost (start τ m n) es := by
  intro pre _ s hs
  have hbalanced : Balanced s := Trace.invariant (balanced_start m n)
    (fun s e s' hs h => balanced_step hs (goes_of_step h)) hs
  exact nothingLost_of_balanced hbalanced

/-! ### The pool comes to rest -/

/-- The steps that do not bring a task in; a call of `sem_wait` that fails does nothing. -/
def Event.Work : Event τ → Prop
  | .push _ _ => False
  | .semWait _ ok => ok = true
  | _ => True

/-- The steps that a task still takes, by what the thread that has it has to do. -/
def Poster.rank : Poster → ℕ
  | .pushed => 4
  | .idle => 0

def Worker.rank : Worker τ → ℕ
  | .waitTask => 0
  | .woken => 2
  | .run _ => 1

/-- The steps that are left. -/
def State.left (s : State τ) : ℕ :=
  3 * s.sem + (s.posters.map Poster.rank).sum + (s.workers.map Worker.rank).sum

/-- A balanced pool that has a worker. -/
structure Staffed (s : State τ) : Prop where
  balanced : Balanced s
  staffed : s.workers ≠ []

lemma workers_ne_nil_step (h : step s e = some s') (hs : s.workers ≠ []) : s'.workers ≠ [] := by
  have hset : ∀ (w : ℕ) (pc : Worker τ), s.workers.set w pc ≠ [] := fun w pc hnil =>
    hs ((List.set_eq_nil_iff _ _).1 hnil)
  cases goes_of_step h with
  | stay | push | semPost => exact hs
  | wake | miss | pop | finish => exact hset _ _

/-- Working posts nothing, and leaves less to do. -/
lemma left_step (he : e.Work) (h : step s e = some s') :
    s'.posted = s.posted ∧ s'.left < s.left := by
  cases e with
  | push p task => exact he.elim
  | semPost p =>
    simp only [step] at h
    split at h
    · next hp =>
      obtain rfl := Option.some.inj h
      have hset := sum_map_set_add (b := Poster.idle) Poster.rank hp
      simp only [Poster.rank] at hset
      refine ⟨rfl, ?_⟩
      simp only [State.left]
      omega
    · simp at h
  | semWait w ok =>
    obtain rfl : ok = true := he
    simp only [step] at h
    split at h
    · next hw =>
      split at h
      · next hok => simp at hok
      split at h
      · simp at h
      · next sem hsem =>
        obtain rfl := Option.some.inj h
        have hset := sum_map_set_add (b := Worker.woken) Worker.rank hw
        simp only [Worker.rank] at hset
        refine ⟨rfl, ?_⟩
        simp only [State.left, hsem]
        omega
    · simp at h
  | pop w =>
    simp only [step] at h
    split at h
    · next hw =>
      split at h
      · obtain rfl := Option.some.inj h
        have hset := sum_map_set_add (b := Worker.waitTask) Worker.rank hw
        simp only [Worker.rank] at hset
        refine ⟨rfl, ?_⟩
        simp only [State.left]
        omega
      · next task queue _ =>
        obtain rfl := Option.some.inj h
        have hset := sum_map_set_add (b := Worker.run task) Worker.rank hw
        simp only [Worker.rank] at hset
        refine ⟨rfl, ?_⟩
        simp only [State.left]
        omega
    · simp at h
  | finish w =>
    simp only [step] at h
    split at h
    · next task hw =>
      obtain rfl := Option.some.inj h
      have hset := sum_map_set_add (b := Worker.waitTask) Worker.rank hw
      simp only [Worker.rank] at hset
      refine ⟨rfl, ?_⟩
      simp only [State.left]
      omega
    · simp at h

/-- Somebody can go on unless all is quiet. -/
lemma idle_of_atRest (hstaffed : s.workers ≠ []) (h : Progress.AtRest step Event.Work s) :
    s.Idle := by
  have hposters : ∀ x ∈ s.posters, x = .idle := by
    intro x hx
    obtain ⟨p, hp⟩ := List.mem_iff_getElem?.1 hx
    cases x with
    | idle => rfl
    | pushed => exact absurd (h (.semPost p) trivial) (by simp [step, hp])
  have hworkers : ∀ x ∈ s.workers, x = .waitTask := by
    intro x hx
    obtain ⟨w, hw⟩ := List.mem_iff_getElem?.1 hx
    cases x with
    | waitTask => rfl
    | woken =>
      have hpop := h (.pop w) trivial
      simp only [step, hw] at hpop
      split at hpop <;> simp at hpop
    | run task => exact absurd (h (.finish w) trivial) (by simp [step, hw])
  refine ⟨hposters, hworkers, ?_⟩
  obtain ⟨pc, workers, hcons⟩ := List.exists_cons_of_ne_nil hstaffed
  have hw : s.workers[0]? = some .waitTask := by
    rw [hcons, List.getElem?_cons_zero, hworkers pc (by simp [hcons])]
  have hwait := h (.semWait 0 true) rfl
  simp only [step, hw] at hwait
  split at hwait
  · next hok => simp at hok
  split at hwait
  · next hsem => exact hsem
  · simp at hwait

/-- However its threads are scheduled, a pool with a worker is quiet after the steps that are left,
if nobody posts any more; and then the queue is empty and all the tasks that were posted have been
run. -/
theorem comesToRest_of_run {m n : ℕ} {es : List (Event τ)} (hm : 0 < m)
    (h : Trace.run step (start τ m n) es = some s) :
    Progress.ComesToRest step Event.Work s.left
      (fun t => t.Idle ∧ t.queue = [] ∧ (t.done.map Prod.snd).Perm s.posted) s := by
  have hstart : Staffed (start τ m n) := by
    refine ⟨balanced_start m n, fun hnil => ?_⟩
    have hlen : (start τ m n).workers.length = m := List.length_replicate
    rw [hnil] at hlen
    exact hm.ne hlen
  have hstep : ∀ (s : State τ) e s', Staffed s → step s e = some s' → Staffed s' :=
    fun s e s' hs hstep =>
      ⟨balanced_step hs.balanced (goes_of_step hstep), workers_ne_nil_step hstep hs.staffed⟩
  have hs : Staffed s := Trace.invariant hstart hstep h
  have hshrinks : Progress.Shrinks step Event.Work (fun t => Staffed t ∧ t.posted = s.posted)
      State.left := by
    rintro t e t' ⟨ht, hposted⟩ he hstep'
    obtain ⟨hposted', hlt⟩ := left_step he hstep'
    exact ⟨⟨hstep t e t' ht hstep', hposted'.trans hposted⟩, hlt⟩
  refine hshrinks.comesToRest ⟨hs, rfl⟩ ?_
  rintro t ⟨ht, hposted⟩ hrest
  have hidle := idle_of_atRest ht.staffed hrest
  refine ⟨hidle, queue_of_idle ht.balanced hidle, ?_⟩
  exact hposted ▸ (nothingLost_of_balanced ht.balanced).finished hidle

/-- Two tasks are posted to a pool with one worker before it takes the first. -/
theorem comesToRest_twoTasks : ∃ s : State ℕ,
    Trace.run step (start ℕ 1 1)
      [.push 0 (some 7), .semPost 0, .semWait 0 true, .push 0 (some 8)] = some s ∧
    Progress.ComesToRest step Event.Work s.left
      (fun t => t.Idle ∧ t.queue = [] ∧ (t.done.map Prod.snd).Perm s.posted) s :=
  ⟨_, rfl, comesToRest_of_run (by decide) (rfl : Trace.run step (start ℕ 1 1)
    [.push 0 (some 7), .semPost 0, .semWait 0 true, .push 0 (some 8)] = _)⟩

end ThreadPool
