import Gb28181.Sup.SipCore

/-!
# The parameters of the threads

Every received request has a `threadParam`, which owns the clone of the request.  It is released
exactly once as long as every thread finds a task object; the thread of a request that is not a
REGISTER ends without deleting its parameter.
-/

namespace Sup

open Lib Sip

/-- How many parameters have not been deleted. -/
def State.liveParams (s : State) : ℕ := s.tasks.countP fun t => t.deletes == 0

/-- How many clones have not been freed. -/
def State.liveClones (s : State) : ℕ :=
  s.tasks.countP fun t => t.deletes == 0 && t.param.data.isSome

/-- How many requests are still being handled. -/
def State.unfinished (s : State) : ℕ := s.tasks.countP fun t => !t.finished

/-- How many of them were cloned. -/
def State.unfinishedCloned (s : State) : ℕ :=
  s.tasks.countP fun t => !t.finished && t.param.data.isSome

/-- Every parameter is deleted exactly once, when its request is finished, and the live ones are
those of the requests that are still being handled. -/
structure ReleasedOnce (s : State) : Prop where
  atMostOnce : ∀ t ∈ s.tasks, t.deletes ≤ 1
  once : ∀ t ∈ s.tasks, t.finished = true → t.deletes = 1
  params : s.liveParams = s.unfinished
  clones : s.liveClones = s.unfinishedCloned

/-- What every run keeps: there is a task object for a REGISTER only, and nothing is deleted
before the end nor twice. -/
structure Task.Booked (t : Task) : Prop where
  base : t.param.base = none ↔ t.msg.method ≠ .register
  working : t.finished = false → t.deletes = 0
  done : t.deletes ≤ 1

/-- Every task is booked. -/
def Booked (s : State) : Prop := ∀ t ∈ s.tasks, t.Booked

/-- A thread that starts finds a task object: its request is a REGISTER. -/
def FindsTask (s : State) (e : Event) : Prop :=
  ∀ k t, e = .advance k → s.tasks[k]? = some t → t.pc = .entry → t.msg.method = .register

variable {s s' : State} {e : Event} {list : List SubDomainInfo} {t : Task} {pc : Pc}

lemma booked_newTask (msg : Msg) (cloned threadCreated : Bool) :
    (newTask msg cloned threadCreated).Booked := by
  refine ⟨?_, ?_, ?_⟩
  · simp [newTask, threadParam]
  · cases threadCreated <;> simp [newTask, Task.finished]
  · cases threadCreated <;> simp [newTask]

/-- A thread that goes on leaves its parameter alone. -/
lemma booked_moved_working (pc : Pc) (ht : t.Booked) (hw : t.finished = false)
    (hpc : t.pc ≠ .deleteParam) :
    (t.moved pc).Booked ∧ (t.moved pc).deletes = 0 := by
  have hzero : (t.moved pc).deletes = 0 := by
    rw [Task.moved, if_neg hpc, Nat.add_zero]
    exact ht.working hw
  exact ⟨⟨ht.base, fun _ => hzero, by omega⟩, hzero⟩

/-- The thread that deletes its parameter does so for the first time. -/
lemma booked_moved_delete (ht : t.Booked) (hpc : t.pc = .deleteParam) :
    (t.moved .ended).Booked ∧ (t.moved .ended).deletes = 1 := by
  have hone : (t.moved .ended).deletes = 1 := by
    rw [Task.moved, if_pos hpc, ht.working (by rw [Task.finished, hpc])]
  exact ⟨⟨ht.base, fun h => by simp [Task.finished, Task.moved] at h, by omega⟩, hone⟩

/-- After a step the thread is still at work, or it has deleted its parameter, or it ended
without a task. -/
lemma booked_moved (h : t.advance list = some (.ok pc)) (ht : t.Booked) :
    (t.moved pc).Booked ∧ ((t.moved pc).finished = true →
      (t.moved pc).deletes = if t.pc = .entry then 0 else 1) := by
  cases Task.goes_of_advance h with
  | noTask hpc hbase =>
    obtain ⟨hbooked, hzero⟩ := booked_moved_working .ended ht
      (by rw [Task.finished, hpc]) (by simp [hpc])
    exact ⟨hbooked, fun _ => by rw [hzero, if_pos hpc]⟩
  | delete hpc =>
    obtain ⟨hbooked, hone⟩ := booked_moved_delete ht hpc
    exact ⟨hbooked, fun _ => by rw [hone, if_neg (by simp [hpc])]⟩
  | parse hpc | refuse hpc | accept hpc | write hpc | respond hpc =>
    refine ⟨(booked_moved_working _ ht (by rw [Task.finished, hpc])
      (by simp [hpc])).1, fun hf => ?_⟩
    simp [Task.finished, Task.moved] at hf

lemma booked_step (hs : Booked s) (h : step s e = some s') : Booked s' :=
  forall_tasks_of_step h booked_newTask (fun _ _ _ _ _ hadv ht => (booked_moved hadv ht).1) hs

/-- Under the bookkeeping nothing can go wrong but a parameter that is not deleted. -/
lemma releasedOnce_iff_once (hs : Booked s) :
    ReleasedOnce s ↔ ∀ t ∈ s.tasks, t.finished = true → t.deletes = 1 := by
  refine ⟨ReleasedOnce.once, fun hone => ?_⟩
  have hlive : ∀ t ∈ s.tasks, (t.deletes == 0) = !t.finished := by
    intro t ht
    cases hf : t.finished with
    | false => simp [(hs t ht).working hf]
    | true => simp [hone t ht hf]
  refine ⟨fun t ht => (hs t ht).done, hone, ?_, ?_⟩
  · exact List.countP_congr fun t ht => by rw [hlive t ht]
  · exact List.countP_congr fun t ht => by rw [hlive t ht]

/-- A step keeps the release of the parameters exactly when the thread that starts, if one does,
finds a task object. -/
lemma releasedOnce_step (hb : Booked s) (hs : ReleasedOnce s) (h : step s e = some s') :
    ReleasedOnce s' ↔ FindsTask s e := by
  rw [releasedOnce_iff_once (booked_step hb h)]
  constructor
  · intro hs' k t he hk hpc
    subst he
    have ht := hb t (List.mem_of_getElem? hk)
    by_contra hmethod
    -- the thread ends at once
    have hadv : t.advance s.list = some (.ok .ended) := by
      simp [Task.advance, hpc, ht.base.2 hmethod]
    have hs₁ : s' = s.move k t .ended := by
      rcases step_cases_advance h hk with ⟨err, herr, -⟩ | ⟨pc, hpc', rfl⟩
      · simp [hadv] at herr
      · rw [hadv, Option.some.injEq, Except.ok.injEq] at hpc'
        rw [hpc']
    have hmem : t.moved .ended ∈ s'.tasks := by
      rw [hs₁]
      exact List.mem_set (List.getElem?_eq_some_iff.1 hk).1 _
    have hzero := (booked_moved_working .ended ht (by rw [Task.finished, hpc])
      (by simp [hpc])).2
    have hone := hs' _ hmem rfl
    omega
  · intro hfinds
    refine forall_tasks_of_step h (fun msg cloned created hf => ?_)
      (fun k t pc hk he hadv _ hf => ?_) hs.once
    · cases created <;> simp_all [newTask, Task.finished]
    · have ht := hb t (List.mem_of_getElem? hk)
      rw [(booked_moved hadv ht).2 hf]
      by_cases hpc : t.pc = .entry
      · have hbase : t.param.base ≠ none := fun hno => ht.base.1 hno (hfinds k t he hk hpc)
        cases Task.goes_of_advance hadv with
        | noTask _ hno => exact absurd hno hbase
        | parse => simp [Task.finished, Task.moved] at hf
        | refuse hpc' | accept hpc' | write hpc' | respond hpc' | delete hpc' => simp [hpc'] at hpc
      · rw [if_neg hpc]

/-- In every run the parameters are released exactly once all along exactly when every thread
that starts is that of a REGISTER. -/
theorem always_releasedOnce_iff (list : List SubDomainInfo) (es : List Event) :
    Lib.Trace.Always step ReleasedOnce (start list) es ↔
      Lib.Trace.EachStep step FindsTask (start list) es := by
  refine Lib.Trace.always_iff_eachStep (J := Booked) (by simp [Booked, start]) ?_
    (fun _ _ _ => booked_step) (fun _ _ _ => releasedOnce_step) es
  exact ⟨by simp [start], by simp [start], rfl, rfl⟩

/-- A request that is no REGISTER. -/
def otherMsg : Msg := ⟨.other, some configuredHdr, none⟩

/-- Its thread ends and its parameter stays. -/
theorem not_always_releasedOnce_otherMsg :
    ¬ Lib.Trace.Always step ReleasedOnce (start [])
      [.rx (some otherMsg) true true, .advance 0] := by
  intro h
  have hlast := h _ List.prefix_rfl _ rfl
  exact absurd (hlast.once _ (List.mem_singleton.2 rfl) rfl) (by decide)

end Sup
