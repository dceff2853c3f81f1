import Gb28181.Lib.Simulation
import Gb28181.Sup.Answers
import Gb28181.Sup.Registry

/-!
# The registry under its lock

`checkIsExist` and `setExpires` step by step: the constructor of `AutoMutexLock` waits for
`globalLock`, `std::find` goes through the list entry by entry, the entry is written, and the
destructor releases the lock.  Any other thread may run between two of these steps.  The service
in which each of the two functions is one step does the same, so what was shown of it holds of
this one; and the threads never block each other for good.
-/

namespace Sup.Locks

open Lib Sip

/-- Where a thread is in a call of `checkIsExist` or `setExpires`. -/
inductive Call where
  /-- In no call, or in the constructor of `AutoMutexLock`. -/
  | outside
  /-- In `std::find`, before the comparison with the `i`-th entry or with `end()`. -/
  | find (i : ℕ)
  /-- `it` points to the `i`-th entry. -/
  | found (i : ℕ)
  /-- In the destructor of `AutoMutexLock`; `found` is the result of the search. -/
  | unlock (found : Bool)
  /-- `checkIsExist` has returned. -/
  | returned (found : Bool)
  deriving DecidableEq, Repr

/-- The thread holds `globalLock`. -/
def Call.inside : Call → Bool
  | .find _ | .found _ | .unlock _ => true
  | .outside | .returned _ => false

/-- A request with the call that its thread is in. -/
structure Thread where
  task : Task
  call : Call

/-- The state of the service; `globalLock` has the number of the request whose thread holds it. -/
structure State where
  list : List SubDomainInfo
  threads : List Thread
  globalLock : Option ℕ
  fault : Option Fault
  writes : List (ℕ × Text × ℤ)

/-- The service with a registry, before the first request. -/
def start (list : List SubDomainInfo) : State := ⟨list, [], none, none, []⟩

/-- The argument of the call that a thread is in or about to make. -/
def argument : Pc → Option Text
  | .checkIsExist fromId | .setExpires fromId _ => some fromId
  | _ => none

/-- `it->expires = expires`. -/
def writeAt (list : List SubDomainInfo) (i : ℕ) (expires : ℤ) : List SubDomainInfo :=
  list.modify i fun info => { info with expires := expires }

/-- The state in which the thread `k` is `thread`. -/
def State.set (s : State) (k : ℕ) (thread : Thread) : State :=
  { s with threads := s.threads.set k thread }

/-- The history with a call of `setExpires`, if it is one. -/
def noted (writes : List (ℕ × Text × ℤ)) (k : ℕ) : Pc → List (ℕ × Text × ℤ)
  | .setExpires fromId expires => writes ++ [(k, fromId, expires)]
  | _ => writes

/-- A step of the thread `k` in a call with the argument `id`. -/
def State.call (s : State) (k : ℕ) (t : Task) (id : Text) : Call → Option State
  | .outside =>
    -- `pthread_mutex_lock` returns only if nobody holds the lock
    if s.globalLock = none then some { s.set k ⟨t, .find 0⟩ with globalLock := some k } else none
  | .find i =>
    match s.list[i]? with
    | none => some { s.set k ⟨t, .unlock false⟩ with writes := noted s.writes k t.pc }
    | some info =>
      if info.sipId = id then some (s.set k ⟨t, .found i⟩) else some (s.set k ⟨t, .find (i + 1)⟩)
  | .found i =>
    match t.pc with
    | .setExpires _ expires => some { s.set k ⟨t, .unlock true⟩ with
        list := writeAt s.list i expires, writes := noted s.writes k t.pc }
    | _ => some (s.set k ⟨t, .unlock true⟩)
  | .unlock found =>
    match t.pc with
    | .setExpires _ _ =>
      some { s.set k ⟨t.moved (.respond sipSuccess), .outside⟩ with globalLock := none }
    | _ => some { s.set k ⟨t, .returned found⟩ with globalLock := none }
  | .returned found =>
    if !found then some (s.set k ⟨t.moved (.respond sipForbidden), .outside⟩)
    else
      match t.param.data.bind (·.expires) with
      | none => some { s with fault := some .nullDeref }
      | some expires => some (s.set k ⟨t.moved (.setExpires id expires), .outside⟩)

/-- A step of the service; `none` says that it is not possible, or that the thread has to wait. -/
def step (s : State) (e : Event) : Option State :=
  if s.fault.isSome then none
  else
    match e with
    | .rx none _ _ => some s
    | .rx (some msg) cloned threadCreated =>
      some { s with threads := s.threads ++ [⟨newTask msg cloned threadCreated, .outside⟩] }
    | .advance k =>
      match s.threads[k]? with
      | none => none
      | some thread =>
        match argument thread.task.pc with
        | some id => s.call k thread.task id thread.call
        | none =>
          match thread.task.advance s.list with
          | none => none
          | some (.error e) => some { s with fault := some e }
          | some (.ok pc) => some (s.set k ⟨thread.task.moved pc, .outside⟩)

/-! ### What a thread knows -/

/-- What a thread knows of the ids of the list in its call. -/
def Knows (ids : List Text) (id : Text) : Call → Prop
  | .outside => True
  | .find i => i ≤ ids.length ∧ id ∉ ids.take i
  | .found i => id ∉ ids.take i ∧ ids[i]? = some id
  | .unlock found | .returned found => found = true ↔ id ∈ ids

/-- The thread is in a call only where it makes one, and `setExpires` does not return a result. -/
structure Thread.Sound (ids : List Text) (thread : Thread) : Prop where
  knows : ∀ id, argument thread.task.pc = some id → Knows ids id thread.call
  outside : argument thread.task.pc = none → thread.call = .outside
  returned : ∀ id v found, thread.task.pc = .setExpires id v → thread.call ≠ .returned found

/-- What every run keeps: the threads are sound, and the lock is held by the one that is inside. -/
structure Sound (s : State) : Prop where
  threads : ∀ thread ∈ s.threads, thread.Sound (ids s.list)
  owner : ∀ (k : ℕ) thread, s.threads[k]? = some thread →
    (thread.call.inside = true ↔ s.globalLock = some k)
  exists_owner : ∀ k, s.globalLock = some k → k < s.threads.length

variable {s s' : State} {e : Event} {thread thread' : Thread} {list : List SubDomainInfo}
  {t : Task} {call : Call} {id : Text} {k i : ℕ} {v : ℤ}

/-- What a step does with the lock. -/
inductive LockMove (k : ℕ) (call call' : Call) : Option ℕ → Option ℕ → Prop
  | keep (lock : Option ℕ) (hinside : call'.inside = call.inside) : LockMove k call call' lock lock
  | acquire (hinside : call'.inside = true) : LockMove k call call' none (some k)
  | release (hinside : call'.inside = false) : LockMove k call call' (some k) none

/-- One thread moves, and the ids stay. -/
lemma Sound.set (h : Sound s) (hk : s.threads[k]? = some thread)
    (hthreads : s'.threads = s.threads.set k thread') (hids : ids s'.list = ids s.list)
    (hlock : LockMove k thread.call thread'.call s.globalLock s'.globalLock)
    (hsound : thread'.Sound (ids s.list)) : Sound s' where
  threads := by
    rw [hthreads, hids]
    intro th hth
    rcases List.mem_or_eq_of_mem_set hth with hth | rfl
    · exact h.threads th hth
    · exact hsound
  owner := by
    rw [hthreads]
    intro j th hj
    have howner := h.owner k thread hk
    rcases getElem?_set_cases hj with ⟨rfl, rfl⟩ | ⟨hne, hj⟩
    · generalize s.globalLock = lock at hlock howner
      generalize s'.globalLock = lock' at hlock
      cases hlock with
      | keep _ hinside => rw [hinside, howner]
      | acquire hinside => exact iff_of_true hinside rfl
      | release hinside => exact iff_of_false (by simp [hinside]) (by simp)
    · have hother := h.owner j th hj
      generalize s.globalLock = lock at hlock hother
      generalize s'.globalLock = lock' at hlock
      cases hlock with
      | keep => exact hother
      | acquire => exact hother.trans (iff_of_false (by simp) (by simpa using hne.symm))
      | release => exact hother.trans (iff_of_false (by simpa using hne.symm) (by simp))
  exists_owner := by
    have hlt := (List.getElem?_eq_some_iff.1 hk).1
    intro j hj
    rw [hthreads, List.length_set]
    have howner := h.exists_owner j
    generalize s.globalLock = lock at hlock howner
    rw [hj] at hlock
    cases hlock with
    | keep => exact howner rfl
    | acquire => exact hlt

lemma sound_start : Sound (start list) :=
  ⟨by simp [start], by simp [start], by simp [start]⟩

/-- A thread outside of the two functions. -/
lemma sound_outside : Thread.Sound (ids list) ⟨t, .outside⟩ :=
  ⟨fun _ _ => trivial, fun _ => rfl, fun _ _ _ _ => by simp⟩

/-- A thread in a call. -/
lemma sound_call (hid : argument t.pc = some id) (hknows : Knows (ids list) id call)
    (hreturned : ∀ id v found, t.pc = .setExpires id v → call ≠ .returned found) :
    Thread.Sound (ids list) ⟨t, call⟩ where
  knows := by
    intro id' hid'
    rw [hid] at hid'
    exact Option.some.inj hid' ▸ hknows
  outside := fun hnone => absurd (hid.symm.trans hnone) (by simp)
  returned := hreturned

/-- The entry that is found is the first one with the id. -/
lemma setExpires_eq_writeAt (hbefore : id ∉ (ids list).take i) (hi : (ids list)[i]? = some id) :
    setExpires list id v = writeAt list i v := by
  induction list generalizing i with
  | nil => simp [ids] at hi
  | cons info list ih =>
    cases i with
    | zero =>
      have hid : info.sipId = id := Option.some.inj hi
      rw [setExpires, if_pos hid]
      rfl
    | succ i =>
      have hbefore' : id ∉ info.sipId :: (ids list).take i := hbefore
      rw [List.mem_cons, not_or] at hbefore'
      rw [setExpires, if_neg (Ne.symm hbefore'.1), ih hbefore'.2 hi]
      rfl

lemma setExpires_of_notMem (h : id ∉ ids list) : setExpires list id v = list :=
  setExpires_eq_self_iff.2 fun w hw => by
    rw [expiresOf_of_notMem h] at hw
    exact absurd hw (by simp)

lemma getElem?_ids : (ids list)[i]? = list[i]?.map SubDomainInfo.sipId := List.getElem?_map

/-- One more entry has another id. -/
lemma knows_find_succ {info : SubDomainInfo} (hknows : Knows (ids list) id (.find i))
    (hi : list[i]? = some info) (hne : info.sipId ≠ id) :
    Knows (ids list) id (.find (i + 1)) := by
  obtain ⟨-, hbefore⟩ := hknows
  have hget : (ids list)[i]? = some info.sipId := by rw [getElem?_ids, hi]; rfl
  refine ⟨(List.getElem?_eq_some_iff.1 hget).1, ?_⟩
  rw [List.take_add_one, hget, Option.toList_some, List.mem_append, List.mem_singleton]
  exact not_or.2 ⟨hbefore, Ne.symm hne⟩

/-- The search has come to the end. -/
lemma notMem_of_knows_find (hknows : Knows (ids list) id (.find i)) (hi : list[i]? = none) :
    id ∉ ids list := by
  obtain ⟨-, hbefore⟩ := hknows
  have hlen : (ids list).length ≤ i := by
    rw [ids, List.length_map]
    exact List.getElem?_eq_none_iff.1 hi
  rwa [List.take_of_length_le hlen] at hbefore

lemma mem_of_knows_found (hknows : Knows (ids list) id (.found i)) : id ∈ ids list :=
  List.mem_of_getElem? hknows.2

/-! ### The steps of a call -/

/-- What a step in a call can be. -/
inductive Calls (s : State) (k : ℕ) (t : Task) (id : Text) : Call → State → Prop
  | acquire (hfree : s.globalLock = none) :
      Calls s k t id .outside { s.set k ⟨t, .find 0⟩ with globalLock := some k }
  | next {i : ℕ} {info : SubDomainInfo} (hi : s.list[i]? = some info) (hid : info.sipId ≠ id) :
      Calls s k t id (.find i) (s.set k ⟨t, .find (i + 1)⟩)
  | hit {i : ℕ} {info : SubDomainInfo} (hi : s.list[i]? = some info) (hid : info.sipId = id) :
      Calls s k t id (.find i) (s.set k ⟨t, .found i⟩)
  | miss {i : ℕ} (hi : s.list[i]? = none) : Calls s k t id (.find i)
      { s.set k ⟨t, .unlock false⟩ with writes := noted s.writes k t.pc }
  | write {i : ℕ} {id' : Text} {v : ℤ} (hpc : t.pc = .setExpires id' v) : Calls s k t id (.found i)
      { s.set k ⟨t, .unlock true⟩ with
        list := writeAt s.list i v, writes := noted s.writes k t.pc }
  | see {i : ℕ} (hpc : ∀ id' v, t.pc ≠ .setExpires id' v) :
      Calls s k t id (.found i) (s.set k ⟨t, .unlock true⟩)
  | written {found : Bool} {id' : Text} {v : ℤ} (hpc : t.pc = .setExpires id' v) :
      Calls s k t id (.unlock found)
        { s.set k ⟨t.moved (.respond sipSuccess), .outside⟩ with globalLock := none }
  | seen {found : Bool} (hpc : ∀ id' v, t.pc ≠ .setExpires id' v) :
      Calls s k t id (.unlock found) { s.set k ⟨t, .returned found⟩ with globalLock := none }
  | refuse : Calls s k t id (.returned false)
      (s.set k ⟨t.moved (.respond sipForbidden), .outside⟩)
  | crash (hexpires : t.param.data.bind (·.expires) = none) :
      Calls s k t id (.returned true) { s with fault := some .nullDeref }
  | accept {v : ℤ} (hexpires : t.param.data.bind (·.expires) = some v) :
      Calls s k t id (.returned true) (s.set k ⟨t.moved (.setExpires id v), .outside⟩)

lemma calls_of_call (h : s.call k t id call = some s') : Calls s k t id call s' := by
  unfold State.call at h
  split at h
  · split at h
    · next hfree => exact Option.some.inj h ▸ .acquire hfree
    · simp at h
  · split at h
    · next hi => exact Option.some.inj h ▸ .miss hi
    · next info hi =>
      split at h
      · next hid => exact Option.some.inj h ▸ .hit hi hid
      · next hid => exact Option.some.inj h ▸ .next hi hid
  · split at h
    · next hpc => exact Option.some.inj h ▸ .write hpc
    · next hpc => exact Option.some.inj h ▸ .see fun id' v heq => hpc id' v heq
  · split at h
    · next hpc => exact Option.some.inj h ▸ .written hpc
    · next hpc => exact Option.some.inj h ▸ .seen fun id' v heq => hpc id' v heq
  · next found =>
    cases found with
    | false => exact Option.some.inj h ▸ .refuse
    | true =>
      simp only [Bool.not_true, Bool.false_eq_true, if_false] at h
      split at h
      · next hexpires => exact Option.some.inj h ▸ .crash hexpires
      · next v hexpires => exact Option.some.inj h ▸ .accept hexpires

lemma ids_writeAt : ids (writeAt list i v) = ids list := by
  ext1 j
  rw [getElem?_ids, getElem?_ids, writeAt, List.getElem?_modify]
  cases list[j]? with
  | none => rfl
  | some info =>
    show some _ = some _
    split <;> rfl

lemma sound_of_calls (h : Sound s) (hk : s.threads[k]? = some thread)
    (hid : argument thread.task.pc = some id)
    (hcalls : Calls s k thread.task id thread.call s') : Sound s' := by
  have hth := h.threads thread (List.mem_of_getElem? hk)
  have hknows := hth.knows id hid
  have howner := h.owner k thread hk
  have hcall : ∀ call : Call, (∀ found, call ≠ .returned found) → Knows (ids s.list) id call →
      Thread.Sound (ids s.list) ⟨thread.task, call⟩ := fun call hcall hknows =>
    sound_call hid hknows fun _ _ found _ => hcall found
  generalize hc : thread.call = call at hcalls hknows howner
  have hlock : call.inside = true → s.globalLock = some k := howner.1
  cases hcalls with
  | acquire hfree =>
    refine h.set hk rfl rfl (hc ▸ hfree ▸ .acquire rfl) (hcall _ (by simp) ⟨by simp, by simp⟩)
  | next hi hid' =>
    exact h.set hk rfl rfl (.keep _ (by rw [hc]; rfl))
      (hcall _ (by simp) (knows_find_succ hknows hi hid'))
  | @hit i info hi hid' =>
    refine h.set hk rfl rfl (.keep _ (by rw [hc]; rfl)) (hcall _ (by simp) ⟨hknows.2, ?_⟩)
    rw [getElem?_ids, hi, Option.map_some, hid']
  | miss hi =>
    exact h.set hk rfl rfl (.keep _ (by rw [hc]; rfl))
      (hcall _ (by simp) (iff_of_false Bool.false_ne_true (notMem_of_knows_find hknows hi)))
  | write hpc =>
    exact h.set hk rfl ids_writeAt (.keep _ (by rw [hc]; rfl))
      (hcall _ (by simp) (iff_of_true rfl (mem_of_knows_found hknows)))
  | see hpc =>
    exact h.set hk rfl rfl (.keep _ (by rw [hc]; rfl))
      (hcall _ (by simp) (iff_of_true rfl (mem_of_knows_found hknows)))
  | written hpc =>
    refine h.set hk rfl rfl ?_ sound_outside
    rw [hlock rfl]
    exact .release rfl
  | seen hpc =>
    refine h.set hk rfl rfl ?_ (sound_call hid hknows fun id' v _ hpc' => absurd hpc' (hpc id' v))
    rw [hlock rfl]
    exact .release rfl
  | refuse => exact h.set hk rfl rfl (.keep _ (by rw [hc]; rfl)) sound_outside
  | crash hexpires => exact ⟨h.threads, h.owner, h.exists_owner⟩
  | accept hexpires => exact h.set hk rfl rfl (.keep _ (by rw [hc]; rfl)) sound_outside

/-- A request comes in. -/
lemma sound_concat (h : Sound s) (msg : Msg) (cloned created : Bool) :
    Sound { s with threads := s.threads ++ [⟨newTask msg cloned created, .outside⟩] } where
  threads := by
    intro th hth
    rcases List.mem_append.1 hth with hth | hth
    · exact h.threads th hth
    · obtain rfl := List.mem_singleton.1 hth
      exact sound_outside
  owner := by
    intro j th hj
    rcases getElem?_concat_cases hj with hj | ⟨rfl, rfl⟩
    · exact h.owner j th hj
    · refine iff_of_false Bool.false_ne_true fun hlock => ?_
      exact lt_irrefl _ (h.exists_owner _ hlock)
  exists_owner := by
    intro j hj
    have hlt := h.exists_owner j hj
    rw [List.length_append]
    omega

lemma sound_step (h : Sound s) (hstep : step s e = some s') : Sound s' := by
  unfold step at hstep
  split at hstep
  · simp at hstep
  split at hstep
  · exact Option.some.inj hstep ▸ h
  · next msg cloned created =>
    obtain rfl := Option.some.inj hstep
    exact sound_concat h msg cloned created
  · next k =>
    split at hstep
    · simp at hstep
    · next thread hk =>
      split at hstep
      · next id hid => exact sound_of_calls h hk hid (calls_of_call hstep)
      · next hnone =>
        have hout := (h.threads thread (List.mem_of_getElem? hk)).outside hnone
        split at hstep
        · simp at hstep
        · obtain rfl := Option.some.inj hstep
          exact ⟨h.threads, h.owner, h.exists_owner⟩
        · next pc _ =>
          obtain rfl := Option.some.inj hstep
          exact h.set hk rfl rfl (.keep _ (by rw [hout])) sound_outside

/-! ### The service in which each call is one step -/

/-- What has been done of the request: `setExpires` takes its effect at the write, or at the end of
a search that finds nothing. -/
def Thread.abs (thread : Thread) : Task :=
  match thread.task.pc, thread.call with
  | .setExpires _ _, .unlock _ => thread.task.moved (.respond sipSuccess)
  | _, _ => thread.task

/-- The state without the lock and the calls. -/
def State.abs (s : State) : Sup.State := ⟨s.list, s.threads.map Thread.abs, s.fault, s.writes⟩

lemma abs_outside : Thread.abs ⟨t, .outside⟩ = t := by
  unfold Thread.abs
  split
  · next h => cases h
  · rfl

/-- Only `setExpires` has an effect before it returns. -/
lemma abs_of_ne (hpc : ∀ id v, t.pc ≠ .setExpires id v) :
    Thread.abs ⟨t, call⟩ = t := by
  unfold Thread.abs
  split
  · next hpc' _ => exact absurd hpc' (hpc _ _)
  · rfl

lemma abs_of_call (hcall : ∀ found, call ≠ .unlock found) :
    Thread.abs ⟨t, call⟩ = t := by
  unfold Thread.abs
  split
  · next hcall' => exact absurd hcall' (hcall _)
  · rfl

lemma abs_of_setExpires {found : Bool} (hpc : t.pc = .setExpires id v) :
    Thread.abs ⟨t, .unlock found⟩ = t.moved (.respond sipSuccess) := by
  unfold Thread.abs
  split
  · rfl
  · next h => exact absurd hpc fun hpc' => h _ _ _ hpc' rfl

lemma threads_abs (hk : s.threads[k]? = some thread) : s.abs.tasks[k]? = some thread.abs := by
  show (s.threads.map Thread.abs)[k]? = _
  rw [List.getElem?_map, hk, Option.map_some]

/-- A step that the other service does not notice. -/
lemma abs_eq_of_stutter (hk : s.threads[k]? = some thread) (hthread : thread'.abs = thread.abs) :
    (s.set k thread').abs = s.abs := by
  have hset : (s.threads.set k thread').map Thread.abs = s.threads.map Thread.abs := by
    obtain ⟨hlt, rfl⟩ := List.getElem?_eq_some_iff.1 hk
    rw [List.map_set, hthread, ← List.getElem_map Thread.abs (h := by simpa), List.set_getElem_self]
  show Sup.State.mk _ _ _ _ = _
  rw [State.set, hset]
  rfl

/-- A step that the other service takes, too. -/
lemma step_abs {pc : Pc} (hfault : s.fault = none) (hk : s.threads[k]? = some thread)
    (habs : thread.abs = t) (hadv : t.advance s.list = some (.ok pc)) :
    Sup.step s.abs (.advance k) = some (s.abs.move k t pc) := by
  have hnone : s.abs.fault.isSome = false := by rw [State.abs, hfault]; rfl
  have hadv' : t.advance s.abs.list = some (.ok pc) := hadv
  simp only [Sup.step, hnone, Bool.false_eq_true, if_false, threads_abs hk, habs, hadv']

/-- A crash of both. -/
lemma step_abs_error {err : Fault} (hfault : s.fault = none) (hk : s.threads[k]? = some thread)
    (habs : thread.abs = t) (hadv : t.advance s.list = some (.error err)) :
    Sup.step s.abs (.advance k) = some { s with fault := some err }.abs := by
  have hnone : s.abs.fault.isSome = false := by rw [State.abs, hfault]; rfl
  have hadv' : t.advance s.abs.list = some (.error err) := hadv
  simp only [Sup.step, hnone, Bool.false_eq_true, if_false, threads_abs hk, habs, hadv']
  rfl

lemma abs_set : (s.threads.set k thread').map Thread.abs = s.abs.tasks.set k thread'.abs :=
  List.map_set

/-- The thread leaves the pc at which it was, and this is not `setExpires`. -/
lemma move_abs {pc : Pc} (hpc : ∀ id v, t.pc ≠ .setExpires id v) :
    s.abs.move k t pc = (s.set k ⟨t.moved pc, .outside⟩).abs := by
  have htasks : (s.set k ⟨t.moved pc, .outside⟩).abs.tasks = s.abs.tasks.set k (t.moved pc) := by
    show (s.threads.set k _).map Thread.abs = _
    rw [abs_set, abs_outside]
  unfold Sup.State.move
  rw [← htasks]
  split
  · next hpc' => exact absurd hpc' (hpc _ _)
  · rfl

variable (s k) in
/-- What the other service does with `setExpires`. -/
lemma move_abs_setExpires {found : Bool} {list' : List SubDomainInfo} (hpc : t.pc = .setExpires id v)
    (hlist : setExpires s.list id v = list') :
    s.abs.move k t (.respond sipSuccess) =
      { s.set k ⟨t, .unlock found⟩ with
        list := list', writes := noted s.writes k t.pc }.abs := by
  have htasks : (s.set k ⟨t, .unlock found⟩).abs.tasks =
      s.abs.tasks.set k (t.moved (.respond sipSuccess)) := by
    show (s.threads.set k _).map Thread.abs = _
    rw [abs_set, abs_of_setExpires hpc]
  unfold Sup.State.move
  rw [← htasks, hpc, ← hlist]
  rfl

lemma noted_of_ne {writes : List (ℕ × Text × ℤ)} {pc : Pc} (hpc : ∀ id v, pc ≠ .setExpires id v) :
    noted writes k pc = writes := by
  unfold noted
  split
  · exact absurd rfl (hpc _ _)
  · rfl

/-- The two calls. -/
lemma argument_cases {pc : Pc} (hid : argument pc = some id) :
    pc = .checkIsExist id ∨ ∃ v, pc = .setExpires id v := by
  unfold argument at hid
  split at hid
  · next fromId => exact Or.inl (congrArg _ (Option.some.inj hid))
  · next fromId v => exact Or.inr ⟨v, by rw [Option.some.inj hid]⟩
  · simp at hid

/-- What a thread with a result has seen is what `checkIsExist` says. -/
lemma checkIsExist_of_knows {found : Bool} (hknows : Knows (ids list) id (.returned found)) :
    checkIsExist list id = found := by
  rw [Bool.eq_iff_iff, checkIsExist_iff]
  exact hknows.symm

/-- Only `checkIsExist` returns a result. -/
lemma Thread.Sound.pc_of_returned {found : Bool} {ids : List Text}
    (h : Thread.Sound ids ⟨t, .returned found⟩) (hid : argument t.pc = some id) :
    t.pc = .checkIsExist id := by
  rcases argument_cases hid with hpc | ⟨v, hpc⟩
  · exact hpc
  · exact absurd rfl (h.returned id v found hpc)

/-- A step in a call is a step of the other service, or it does not notice. -/
lemma abs_of_calls (h : Sound s) (hfault : s.fault = none) (hk : s.threads[k]? = some ⟨t, call⟩)
    (hid : argument t.pc = some id) (hcalls : Calls s k t id call s') :
    s'.abs = s.abs ∨ Sup.step s.abs (.advance k) = some s'.abs := by
  have hth := h.threads _ (List.mem_of_getElem? hk)
  have hknows := hth.knows id hid
  have hstutter : ∀ thread : Thread, thread.abs = Thread.abs ⟨t, call⟩ →
      (s.set k thread).abs = s.abs := fun thread => abs_eq_of_stutter hk
  cases hcalls with
  | acquire hfree =>
    exact Or.inl (hstutter ⟨t, .find 0⟩ (by rw [abs_of_call, abs_outside]; simp))
  | next hi hid' => exact Or.inl (hstutter _ (by rw [abs_of_call, abs_of_call] <;> simp))
  | hit hi hid' => exact Or.inl (hstutter _ (by rw [abs_of_call, abs_of_call] <;> simp))
  | @miss i hi =>
    have hmem := notMem_of_knows_find hknows hi
    rcases argument_cases hid with hpc | ⟨v, hpc⟩
    · have hne : ∀ id v, t.pc ≠ .setExpires id v := by simp [hpc]
      rw [noted_of_ne hne]
      exact Or.inl (hstutter _ (by rw [abs_of_ne hne, abs_of_ne hne]))
    · have hadv : t.advance s.list = some (.ok (.respond sipSuccess)) := by
        rw [Task.advance, hpc]
      rw [step_abs hfault hk (abs_of_call (by simp)) hadv]
      exact Or.inr (congrArg some (move_abs_setExpires s k hpc (setExpires_of_notMem hmem)))
  | @write i id' v hpc =>
    obtain rfl : id' = id := by simpa [argument, hpc] using hid
    have hadv : t.advance s.list = some (.ok (.respond sipSuccess)) := by rw [Task.advance, hpc]
    have hlist := setExpires_eq_writeAt (v := v) hknows.1 hknows.2
    rw [step_abs hfault hk (abs_of_call (by simp)) hadv]
    exact Or.inr (congrArg some (move_abs_setExpires s k hpc hlist))
  | see hpc => exact Or.inl (hstutter _ (by rw [abs_of_ne hpc, abs_of_ne hpc]))
  | written hpc => exact Or.inl (hstutter _ (by rw [abs_outside, abs_of_setExpires hpc]))
  | seen hpc => exact Or.inl (hstutter _ (by rw [abs_of_ne hpc, abs_of_ne hpc]))
  | refuse =>
    have hpc := hth.pc_of_returned hid
    have hexist := checkIsExist_of_knows hknows
    have hadv : t.advance s.list = some (.ok (.respond sipForbidden)) := by
      simp [Task.advance, hpc, hexist]
    rw [step_abs hfault hk (abs_of_call (by simp)) hadv, move_abs (by simp [hpc])]
    exact Or.inr rfl
  | crash hexpires =>
    have hpc := hth.pc_of_returned hid
    have hexist := checkIsExist_of_knows hknows
    have hadv : t.advance s.list = some (.error .nullDeref) := by
      simp [Task.advance, hpc, hexist, hexpires]
    exact Or.inr (step_abs_error hfault hk (abs_of_call (by simp)) hadv)
  | @accept v hexpires =>
    have hpc := hth.pc_of_returned hid
    have hexist := checkIsExist_of_knows hknows
    have hadv : t.advance s.list = some (.ok (.setExpires id v)) := by
      simp [Task.advance, hpc, hexist, hexpires]
    rw [step_abs hfault hk (abs_of_call (by simp)) hadv, move_abs (by simp [hpc])]
    exact Or.inr rfl

/-- The services with and without the lock: the one is in a sound state, the other in what is left
of it without the lock. -/
def Matches (s : State) (u : Sup.State) : Prop := Sound s ∧ u = s.abs

/-- Outside of the calls the two services do the same. -/
lemma abs_of_outside {pc : Pc} (hfault : s.fault = none)
    (hk : s.threads[k]? = some ⟨t, .outside⟩) (hnone : argument t.pc = none)
    (hadv : t.advance s.list = some (.ok pc)) :
    Sup.step s.abs (.advance k) = some (s.set k ⟨t.moved pc, .outside⟩).abs := by
  have hne : ∀ id v, t.pc ≠ .setExpires id v := by
    intro id v hpc
    simp [argument, hpc] at hnone
  rw [step_abs hfault hk abs_outside hadv, move_abs hne]

lemma forward_abs : Simulation.Forward step Sup.step Matches := by
  rintro s u e s' ⟨hs, rfl⟩ hstep
  have hs' := sound_step hs hstep
  unfold step at hstep
  split at hstep
  · simp at hstep
  · next hfault =>
    have hfault' : s.fault = none := by simpa using hfault
    split at hstep
    · obtain rfl := Option.some.inj hstep
      exact Simulation.exists_run_of_stutter ⟨hs, rfl⟩
    · next msg cloned created =>
      obtain rfl := Option.some.inj hstep
      refine Simulation.exists_run_of_step (f := .rx (some msg) cloned created) ?_ ⟨hs', rfl⟩
      simp [Sup.step, State.abs, hfault', abs_outside]
    · next k =>
      split at hstep
      · simp at hstep
      · next thread hk =>
        split at hstep
        · next id hid =>
          rcases abs_of_calls hs hfault' hk hid (calls_of_call hstep) with habs | habs
          · exact Simulation.exists_run_of_stutter ⟨hs', habs.symm⟩
          · exact Simulation.exists_run_of_step habs ⟨hs', rfl⟩
        · next hnone =>
          have hout := (hs.threads thread (List.mem_of_getElem? hk)).outside hnone
          obtain ⟨t, call⟩ := thread
          obtain rfl : call = .outside := hout
          split at hstep
          · simp at hstep
          · next err hadv =>
            obtain rfl := Option.some.inj hstep
            exact Simulation.exists_run_of_step (step_abs_error hfault' hk abs_outside hadv)
              ⟨hs', rfl⟩
          · next pc hadv =>
            obtain rfl := Option.some.inj hstep
            exact Simulation.exists_run_of_step (abs_of_outside hfault' hk hnone hadv) ⟨hs', rfl⟩

/-- Whatever the threads do between the steps of the two functions, the service is in a state that
the one without the lock reaches, too; no two threads hold the lock, and the registry is what the
calls of `setExpires` have made of it, in the order in which they had their effect. -/
theorem atomic_of_run {es : List Event} (h : Trace.run step (start list) es = some s) :
    (∃ fs, Trace.run Sup.step (Sup.start list) fs = some s.abs) ∧
    (∀ (i j : ℕ) thread thread', s.threads[i]? = some thread → s.threads[j]? = some thread' →
      thread.call.inside = true → thread'.call.inside = true → i = j) ∧
    s.list = updated list s.writes := by
  have hstart : Matches (start list) (Sup.start list) := ⟨sound_start, rfl⟩
  obtain ⟨fs, u, hrun, hs, rfl⟩ := forward_abs.exists_run hstart h
  refine ⟨⟨fs, hrun⟩, ?_, list_of_run hrun⟩
  intro i j thread thread' hi hj hin hin'
  have hlock := (hs.owner i thread hi).1 hin
  exact Option.some.inj (hlock.symm.trans ((hs.owner j thread' hj).1 hin'))

/-- Two requests of one device: the first thread has written, and holds the lock. -/
def twoUpdates : List Event :=
  [.rx (some ⟨.register, some configuredHdr, some 60⟩) true true,
    .rx (some ⟨.register, some configuredHdr, some 0⟩) true true] ++
  List.replicate 9 (.advance 0) ++ [.advance 1]

theorem atomic_twoUpdates : ∃ s, Trace.run step (start oneNode) twoUpdates = some s ∧
    (∃ fs, Trace.run Sup.step (Sup.start oneNode) fs = some s.abs) ∧
    (∀ (i j : ℕ) thread thread', s.threads[i]? = some thread → s.threads[j]? = some thread' →
      thread.call.inside = true → thread'.call.inside = true → i = j) ∧
    s.list = updated oneNode s.writes :=
  ⟨_, rfl, atomic_of_run (rfl : Trace.run step (start oneNode) twoUpdates = _)⟩

/-! ### No thread waits for ever -/

/-- The steps that a thread still takes in its call, in a registry of `n` entries. -/
def Call.rank (n : ℕ) : Call → ℕ
  | .outside => n + 5
  | .find i => n - i + 4
  | .found _ => 3
  | .unlock _ => 2
  | .returned _ => 1

/-- The steps that a thread still takes; each call has less than `n + 6`. -/
def Thread.rank (n : ℕ) (thread : Thread) : ℕ :=
  thread.task.pc.rank * (n + 6) + thread.call.rank n

/-- The steps that are left to all threads, and the crash of the process. -/
def State.left (s : State) : ℕ :=
  if s.fault.isSome then 0 else (s.threads.map (Thread.rank s.list.length)).sum + 1

lemma length_writeAt : (writeAt list i v).length = list.length := List.length_modify ..

/-- One thread moves on. -/
lemma left_lt_of_set {n : ℕ} (hn : s.list.length = n) (hfault : s.fault = none)
    (hk : s.threads[k]? = some thread) (hthreads : s'.threads = s.threads.set k thread')
    (hlist : s'.list.length = n) (hfault' : s'.fault = none) (hlt : thread'.rank n < thread.rank n) :
    s'.left < s.left := by
  have hset := sum_map_set_add (b := thread') (Thread.rank n) hk
  simp only [State.left, hfault, hfault', hthreads, hlist, hn, Option.isSome_none,
    Bool.false_eq_true, if_false]
  omega

/-- A thread that has left its call is at a later pc. -/
lemma rank_lt_of_pc {n : ℕ} {t' : Task} {call' : Call} (hpc : t'.pc.rank < t.pc.rank) :
    Thread.rank n ⟨t', call'⟩ < Thread.rank n ⟨t, call⟩ := by
  have hmul : (t'.pc.rank + 1) * (n + 6) ≤ t.pc.rank * (n + 6) := Nat.mul_le_mul_right _ hpc
  have hcall : call'.rank n < n + 6 := by
    cases call' <;> simp only [Call.rank] <;> omega
  rw [Nat.add_mul] at hmul
  simp only [Thread.rank]
  omega

/-- A thread that goes on in its call. -/
lemma rank_lt_of_call {n : ℕ} {call' : Call} (hcall : call'.rank n < call.rank n) :
    Thread.rank n ⟨t, call'⟩ < Thread.rank n ⟨t, call⟩ := Nat.add_lt_add_left hcall _

lemma left_lt_of_calls (hfault : s.fault = none) (hk : s.threads[k]? = some ⟨t, call⟩)
    (hsound : Thread.Sound (ids s.list) ⟨t, call⟩) (hid : argument t.pc = some id)
    (hcalls : Calls s k t id call s') : s'.left < s.left := by
  cases hcalls with
  | acquire hfree =>
    exact left_lt_of_set rfl hfault hk rfl rfl hfault (rank_lt_of_call (by simp [Call.rank]))
  | @next i info hi hid' =>
    have hlt := (List.getElem?_eq_some_iff.1 hi).1
    refine left_lt_of_set rfl hfault hk rfl rfl hfault (rank_lt_of_call ?_)
    simp only [Call.rank]
    show s.list.length - (i + 1) + 4 < s.list.length - i + 4
    omega
  | hit hi hid' =>
    refine left_lt_of_set rfl hfault hk rfl rfl hfault (rank_lt_of_call ?_)
    simp [Call.rank]
  | miss hi =>
    refine left_lt_of_set rfl hfault hk rfl rfl hfault (rank_lt_of_call ?_)
    simp [Call.rank]
  | write hpc =>
    refine left_lt_of_set rfl hfault hk rfl length_writeAt hfault (rank_lt_of_call ?_)
    simp [Call.rank]
  | see hpc =>
    exact left_lt_of_set rfl hfault hk rfl rfl hfault (rank_lt_of_call (by simp [Call.rank]))
  | written hpc =>
    exact left_lt_of_set rfl hfault hk rfl rfl hfault
      (rank_lt_of_pc (by simp [hpc, Task.moved, Pc.rank]))
  | seen hpc =>
    exact left_lt_of_set rfl hfault hk rfl rfl hfault (rank_lt_of_call (by simp [Call.rank]))
  | refuse =>
    have hpc := hsound.pc_of_returned hid
    exact left_lt_of_set rfl hfault hk rfl rfl hfault
      (rank_lt_of_pc (by simp [hpc, Task.moved, Pc.rank]))
  | crash hexpires => simp [State.left, hfault]
  | accept hexpires =>
    have hpc := hsound.pc_of_returned hid
    exact left_lt_of_set rfl hfault hk rfl rfl hfault
      (rank_lt_of_pc (by simp [hpc, Task.moved, Pc.rank]))

/-- Every step of a thread takes from what is left. -/
lemma left_step (hs : Sound s) (he : e.Work) (h : step s e = some s') : s'.left < s.left := by
  unfold step at h
  split at h
  · simp at h
  · next hfault =>
    have hfault' : s.fault = none := by simpa using hfault
    split at h
    · exact he.elim
    · exact he.elim
    · next k =>
      split at h
      · simp at h
      · next thread hk =>
        have hth := hs.threads thread (List.mem_of_getElem? hk)
        obtain ⟨t, call⟩ := thread
        split at h
        · next id hid => exact left_lt_of_calls hfault' hk hth hid (calls_of_call h)
        · next hnone =>
          split at h
          · simp at h
          · obtain rfl := Option.some.inj h
            simp [State.left, hfault']
          · next pc hadv =>
            obtain rfl := Option.some.inj h
            have hlt := rank_lt_of_goes (Task.goes_of_advance hadv)
            exact left_lt_of_set rfl hfault' hk rfl rfl hfault' (rank_lt_of_pc hlt)

/-- A thread that holds the lock can go on. -/
lemma call_ne_none (h : call ≠ .outside) : s.call k t id call ≠ none := by
  cases call with
  | outside => exact absurd rfl h
  | find i => simp only [State.call]; split <;> [simp; (split <;> simp)]
  | found i => simp only [State.call]; split <;> simp
  | unlock found => simp only [State.call]; split <;> simp
  | returned found =>
    simp only [State.call]
    split
    · simp
    · split <;> simp

/-- If nothing can go on, then nobody waits for the lock. -/
lemma finished_of_atRest (hs : Sound s) (hfault : s.fault = none)
    (hrest : Progress.AtRest step Event.Work s) :
    (∀ thread ∈ s.threads, thread.task.finished = true) ∧ s.globalLock = none := by
  have hstuck : ∀ (k : ℕ) thread id, s.threads[k]? = some thread →
      argument thread.task.pc = some id → s.call k thread.task id thread.call = none := by
    intro k thread id hk hid
    have hstep := hrest (.advance k) trivial
    simpa only [step, hfault, Option.isSome_none, Bool.false_eq_true, if_false, hk, hid] using hstep
  have hout : ∀ (k : ℕ) thread, s.threads[k]? = some thread → thread.call = .outside := by
    intro k thread hk
    cases hid : argument thread.task.pc with
    | none => exact (hs.threads thread (List.mem_of_getElem? hk)).outside hid
    | some id =>
      by_contra hne
      exact call_ne_none hne (hstuck k thread id hk hid)
  have hfree : s.globalLock = none := by
    by_contra hlock
    obtain ⟨k, hlock⟩ := Option.ne_none_iff_exists'.1 hlock
    have hk := List.getElem?_eq_getElem (hs.exists_owner k hlock)
    have hinside := (hs.owner k _ hk).2 hlock
    rw [hout k _ hk] at hinside
    exact absurd hinside Bool.false_ne_true
  refine ⟨fun thread hthread => ?_, hfree⟩
  obtain ⟨k, hk⟩ := List.mem_iff_getElem?.1 hthread
  have hout' := hout k thread hk
  cases hid : argument thread.task.pc with
  | some id =>
    have hwait := hstuck k thread id hk hid
    rw [hout', State.call, if_pos hfree] at hwait
    exact absurd hwait (by simp)
  | none =>
    have hstep := hrest (.advance k) trivial
    simp only [step, hfault, Option.isSome_none, Bool.false_eq_true, if_false, hk, hid] at hstep
    split at hstep
    · next hadv => exact finished_of_advance hadv
    · simp at hstep
    · simp at hstep

/-- Whatever requests have come in and wherever the threads are: if no more come, then after the
steps that are left, in any order, all threads have ended and the lock is free, unless the process
has crashed. -/
theorem deadlockFree_of_run {es : List Event} (h : Trace.run step (start list) es = some s) :
    Progress.ComesToRest step Event.Work s.left
      (fun u => u.fault.isSome = true ∨
        (∀ thread ∈ u.threads, thread.task.finished = true) ∧ u.globalLock = none) s := by
  have hs : Sound s := Trace.invariant sound_start (fun _ _ _ => sound_step) h
  have hshrinks : Progress.Shrinks step Event.Work Sound State.left :=
    fun u e u' hu he hstep => ⟨sound_step hu hstep, left_step hu he hstep⟩
  refine hshrinks.comesToRest hs fun u hu hrest => ?_
  cases hfault : u.fault with
  | some err => exact Or.inl rfl
  | none => exact Or.inr (finished_of_atRest hu hfault hrest)

theorem deadlockFree_twoUpdates : ∃ s, Trace.run step (start oneNode) twoUpdates = some s ∧
    Progress.ComesToRest step Event.Work s.left
      (fun u => u.fault.isSome = true ∨
        (∀ thread ∈ u.threads, thread.task.finished = true) ∧ u.globalLock = none) s :=
  ⟨_, rfl, deadlockFree_of_run (rfl : Trace.run step (start oneNode) twoUpdates = _)⟩

end Sup.Locks
