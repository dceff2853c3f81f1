import Gb28181.Lib.Trace
import Gb28181.Sup.SipRegister

/-!
# SipSupService under concurrent requests

The event thread runs `onRxRequest`, and every request is handled by a detached thread of its
own that runs `dealTaskThread`.  A step of a thread is what it does between two points where
another one can interfere: `checkIsExist` and `setExpires` hold `globalLock`.  The state keeps
all the requests in the order in which they were received, with what became of their
`threadParam`.
-/

namespace Sup

open Lib Sip

/-- Where the handling of a request stands. -/
inductive Pc where
  /-- At the start of `dealTaskThread`. -/
  | entry
  /-- Before the call of `checkIsExist`. -/
  | checkIsExist (fromId : Text)
  /-- Before the call of `setExpires`. -/
  | setExpires (fromId : Text) (expiresValue : ℤ)
  /-- Before the response. -/
  | respond (statusCode : ℤ)
  /-- Before `delete param`. -/
  | deleteParam
  /-- The thread has ended. -/
  | ended
  /-- `createThread` failed and `onRxRequest` deleted the parameter itself. -/
  | noThread
  deriving DecidableEq, Repr

/-- A request that was received, its `threadParam` and how often this was deleted. -/
structure Task where
  msg : Msg
  param : ThreadParam
  pc : Pc
  deletes : ℕ

/-- Neither `onRxRequest` nor a thread is at work on the request. -/
def Task.finished (t : Task) : Bool :=
  match t.pc with
  | .ended | .noThread => true
  | _ => false

/-- The state of the service.  `writes` is a history: the requests, by their numbers, whose
`setExpires` has run, in this order, with its arguments. -/
structure State where
  list : List SubDomainInfo
  tasks : List Task
  fault : Option Fault
  writes : List (ℕ × Text × ℤ)

/-- The service with a registry, before the first request. -/
def start (list : List SubDomainInfo) : State := ⟨list, [], none, []⟩

/-- What can happen: a request is received, or the thread of a request takes a step. -/
inductive Event where
  | rx (msg : Option Msg) (cloned threadCreated : Bool)
  | advance (k : ℕ)

/-- The task of a new request. -/
def newTask (msg : Msg) (cloned threadCreated : Bool) : Task where
  msg := msg
  param := threadParam msg cloned
  pc := if threadCreated then .entry else .noThread
  deletes := if threadCreated then 0 else 1

/-- A step of `dealTaskThread`, as far as it concerns the thread alone; `none` if there is no
thread. -/
def Task.advance (list : List SubDomainInfo) (t : Task) : Option (Except Fault Pc) :=
  match t.pc with
  | .entry =>
    match t.param.base with
    | none => some (.ok .ended)
    | some .sipRegister =>
      match t.param.data with
      | none => some (.error .nullDeref)
      | some msg => some (Pc.checkIsExist <$> parseFromId msg)
  | .checkIsExist fromId =>
    if !checkIsExist list fromId then some (.ok (.respond sipForbidden))
    else
      match t.param.data.bind (·.expires) with
      | none => some (.error .nullDeref)
      | some expiresValue => some (.ok (.setExpires fromId expiresValue))
  | .setExpires _ _ => some (.ok (.respond sipSuccess))
  | .respond _ => some (.ok .deleteParam)
  | .deleteParam => some (.ok .ended)
  | .ended | .noThread => none

/-- The task after its thread has moved on to `pc`. -/
def Task.moved (t : Task) (pc : Pc) : Task :=
  { t with pc := pc, deletes := t.deletes + if t.pc = .deleteParam then 1 else 0 }

/-- The state after the thread of the request `k` has moved on to `pc`. -/
def State.move (s : State) (k : ℕ) (t : Task) (pc : Pc) : State where
  list := match t.pc with
    | .setExpires fromId v => setExpires s.list fromId v
    | _ => s.list
  tasks := s.tasks.set k (t.moved pc)
  fault := s.fault
  writes := match t.pc with
    | .setExpires fromId v => s.writes ++ [(k, fromId, v)]
    | _ => s.writes

/-- A step of the service; a fault ends the process. -/
def step (s : State) (e : Event) : Option State :=
  if s.fault.isSome then none
  else
    match e with
    | .rx none _ _ => some s
    | .rx (some msg) cloned threadCreated =>
      some { s with tasks := s.tasks ++ [newTask msg cloned threadCreated] }
    | .advance k =>
      match s.tasks[k]? with
      | none => none
      | some t =>
        match t.advance s.list with
        | none => none
        | some (.error e) => some { s with fault := some e }
        | some (.ok pc) => some (s.move k t pc)

variable {s s' : State} {e : Event} {list : List SubDomainInfo} {t : Task} {pc : Pc}

/-- What a step can be. -/
lemma step_cases (h : step s e = some s') :
    s' = s ∨
    (∃ msg cloned threadCreated, e = .rx (some msg) cloned threadCreated ∧
      s' = { s with tasks := s.tasks ++ [newTask msg cloned threadCreated] }) ∨
    (∃ k t err, e = .advance k ∧ s.tasks[k]? = some t ∧ t.advance s.list = some (.error err) ∧
      s' = { s with fault := some err }) ∨
    ∃ k t pc, e = .advance k ∧ s.tasks[k]? = some t ∧ t.advance s.list = some (.ok pc) ∧
      s' = s.move k t pc := by
  unfold step at h
  split at h
  · simp at h
  split at h
  · exact Or.inl (Option.some.inj h).symm
  · exact Or.inr (Or.inl ⟨_, _, _, rfl, (Option.some.inj h).symm⟩)
  · next k =>
    split at h
    · simp at h
    · next t hk =>
      split at h
      · simp at h
      · next err hadv =>
        exact Or.inr (Or.inr (Or.inl ⟨k, t, err, rfl, hk, hadv, (Option.some.inj h).symm⟩))
      · next pc hadv =>
        exact Or.inr (Or.inr (Or.inr ⟨k, t, pc, rfl, hk, hadv, (Option.some.inj h).symm⟩))

lemma step_cases_advance {k : ℕ} (h : step s (.advance k) = some s') (hk : s.tasks[k]? = some t) :
    (∃ err, t.advance s.list = some (.error err) ∧ s' = { s with fault := some err }) ∨
      ∃ pc, t.advance s.list = some (.ok pc) ∧ s' = s.move k t pc := by
  unfold step at h
  split at h
  · simp at h
  · simp only [hk] at h
    split at h
    · simp at h
    · next err hadv => exact Or.inl ⟨err, hadv, (Option.some.inj h).symm⟩
    · next pc hadv => exact Or.inr ⟨pc, hadv, (Option.some.inj h).symm⟩

/-- A property of the tasks that new ones have and that threads keep. -/
lemma forall_tasks_of_step {Q : Task → Prop} (h : step s e = some s')
    (hnew : ∀ msg cloned threadCreated, Q (newTask msg cloned threadCreated))
    (hmove : ∀ k t pc, s.tasks[k]? = some t → e = .advance k → t.advance s.list = some (.ok pc) →
      Q t → Q (t.moved pc))
    (hs : ∀ t ∈ s.tasks, Q t) : ∀ t ∈ s'.tasks, Q t := by
  rcases step_cases h with rfl | ⟨msg, cloned, created, rfl, rfl⟩ | ⟨k, t, err, rfl, hk, -, rfl⟩ |
    ⟨k, t, pc, rfl, hk, hadv, rfl⟩
  · exact hs
  · intro t ht
    rcases List.mem_append.1 ht with ht | ht
    · exact hs t ht
    · exact List.mem_singleton.1 ht ▸ hnew msg cloned created
  · exact hs
  · intro t' ht'
    rcases List.mem_or_eq_of_mem_set ht' with ht' | rfl
    · exact hs t' ht'
    · exact hmove k t pc hk rfl hadv (hs t (List.mem_of_getElem? hk))

/-- What a step of a thread can be. -/
inductive Task.Goes (list : List SubDomainInfo) (t : Task) : Pc → Prop
  | noTask (hpc : t.pc = .entry) (hbase : t.param.base = none) : t.Goes list .ended
  | parse {msg : Msg} {fromId : Text} (hpc : t.pc = .entry) (hbase : t.param.base ≠ none)
      (hdata : t.param.data = some msg) (hparse : parseFromId msg = .ok fromId) :
      t.Goes list (.checkIsExist fromId)
  | refuse {fromId : Text} (hpc : t.pc = .checkIsExist fromId)
      (hexist : checkIsExist list fromId = false) : t.Goes list (.respond sipForbidden)
  | accept {fromId : Text} {msg : Msg} {v : ℤ} (hpc : t.pc = .checkIsExist fromId)
      (hexist : checkIsExist list fromId = true) (hdata : t.param.data = some msg)
      (hexpires : msg.expires = some v) : t.Goes list (.setExpires fromId v)
  | write {fromId : Text} {v : ℤ} (hpc : t.pc = .setExpires fromId v) :
      t.Goes list (.respond sipSuccess)
  | respond {code : ℤ} (hpc : t.pc = .respond code) : t.Goes list .deleteParam
  | delete (hpc : t.pc = .deleteParam) : t.Goes list .ended

lemma Task.goes_of_advance (h : t.advance list = some (.ok pc)) : t.Goes list pc := by
  unfold Task.advance at h
  split at h
  · next hpc =>
    split at h
    · next hbase =>
      simp only [Option.some.injEq, Except.ok.injEq] at h
      exact h ▸ .noTask hpc hbase
    · next hbase =>
      split at h
      · simp at h
      · next msg hdata =>
        rcases hparse : parseFromId msg with err | fromId
        · simp [hparse, Functor.map, Except.map] at h
        · simp only [hparse, Functor.map, Except.map, Option.some.injEq, Except.ok.injEq] at h
          exact h ▸ .parse hpc (by simp [hbase]) hdata hparse
  · next fromId hpc =>
    split at h
    · next hexist =>
      simp only [Option.some.injEq, Except.ok.injEq] at h
      exact h ▸ .refuse hpc (by simpa using hexist)
    · next hexist =>
      split at h
      · simp at h
      · next v hv =>
        simp only [Option.some.injEq, Except.ok.injEq] at h
        obtain ⟨msg, hdata, hv⟩ := Option.bind_eq_some_iff.1 hv
        exact h ▸ .accept hpc (by simpa using hexist) hdata hv
  · next fromId v hpc =>
    simp only [Option.some.injEq, Except.ok.injEq] at h
    exact h ▸ .write hpc
  · next code hpc =>
    simp only [Option.some.injEq, Except.ok.injEq] at h
    exact h ▸ .respond hpc
  · next hpc =>
    simp only [Option.some.injEq, Except.ok.injEq] at h
    exact h ▸ .delete hpc
  · simp at h
  · simp at h

/-- A request that nothing interferes with is handled as `process` says. -/
theorem run_alone (endpt : Endpt) (list : List SubDomainInfo) (msg : Msg) (cloned : Bool) :
    ∃ n s, Lib.Trace.run step (start list)
        (.rx (some msg) cloned true :: List.replicate n (.advance 0)) = some s ∧
      match process endpt list (some msg) cloned true with
      | .error e => s.fault = some e
      | .ok r => s.fault = none ∧ s.tasks.map (·.pc) = [.ended] ∧
          s.list = (r.map (·.list)).getD list := by
  by_cases hmethod : msg.method = .register
  swap
  · -- the thread finds no task
    refine ⟨1, ⟨list, [(newTask msg cloned true).moved .ended], none, []⟩, ?_, ?_⟩
    · simp [start, step, newTask, threadParam, hmethod, Task.advance, State.move]
    · simp [process, onRxRequest, dealTaskThread, threadParam, hmethod, Task.moved]
  cases cloned with
  | false =>
    -- there is a task without data
    refine ⟨1, ⟨list, [newTask msg false true], some .nullDeref, []⟩, ?_, ?_⟩
    · simp [start, step, newTask, threadParam, hmethod, Task.advance]
    · simp [process, onRxRequest, dealTaskThread, threadParam, hmethod, run]
  | true =>
    have hprocess : process endpt list (some msg) true true =
        some <$> dealWithRegister endpt list msg := by
      simp [process, onRxRequest, dealTaskThread, threadParam, hmethod, run]
    rw [hprocess]
    rcases hparse : parseFromId msg with err | fromId
    · refine ⟨1, ⟨list, [newTask msg true true], some err, []⟩, ?_, ?_⟩
      · simp [start, step, newTask, threadParam, hmethod, Task.advance, hparse]
      · simp [dealWithRegister, hparse]
    cases hexist : checkIsExist list fromId with
    | false =>
      refine ⟨4, ⟨list, [⟨msg, threadParam msg true, .ended, 1⟩], none, []⟩, ?_, ?_⟩
      · simp [List.replicate_succ, start, step, newTask, threadParam, hmethod, Task.advance, hparse,
          hexist, State.move, Task.moved]
      · simp [dealWithRegister, hparse, hexist]
    | true =>
      rcases hexpires : msg.expires with _ | v
      · -- the Expires header that is read is missing
        refine ⟨2, ⟨list, [⟨msg, threadParam msg true, .checkIsExist fromId, 0⟩],
          some .nullDeref, []⟩, ?_, ?_⟩
        · simp [List.replicate_succ, start, step, newTask, threadParam, hmethod, Task.advance,
            hparse, hexist, hexpires, State.move, Task.moved]
        · simp [dealWithRegister, hparse, hexist, hexpires]
      · refine ⟨5, ⟨setExpires list fromId v, [⟨msg, threadParam msg true, .ended, 1⟩], none,
          [(0, fromId, v)]⟩, ?_, ?_⟩
        · simp [List.replicate_succ, start, step, newTask, threadParam, hmethod, Task.advance,
            hparse, hexist, hexpires, State.move, Task.moved]
        · simp [dealWithRegister, hparse, hexist, hexpires]

end Sup
