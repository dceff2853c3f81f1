import Gb28181.Lib.Progress
import Gb28181.Sup.LastWrite

/-!
# Every request is answered once

When no more requests come, the threads of SipSupService end after a bounded number of steps, in
whatever order they run.  Unless one of them has brought the process down, each REGISTER that got
a thread has then been answered exactly once, with the code that `dealWithRegister` would choose if
nothing else were going on, if the calls that create and send its response succeed; if one of them
fails it has not been answered.
-/

namespace Sup

open Lib Sip

/-- The response that a step sends, with the number of its request; `endpt k` has the results of the
calls with which the response to the request `k` is made. -/
def answer (endpt : ℕ → Endpt) (s : State) : Event → List (ℕ × ℤ)
  | .rx _ _ _ => []
  | .advance k =>
    match s.tasks[k]?.map Task.pc with
    | some (.respond code) => if respond (endpt k) = 0 then [(k, code)] else []
    | _ => []

/-- The service with a log of its responses. -/
abbrev answering (endpt : ℕ → Endpt) :
    State × List (ℕ × ℤ) → Event → Option (State × List (ℕ × ℤ)) :=
  Trace.logged step (answer endpt)

/-- The steps that do not bring a request in. -/
def Event.Work : Event → Prop
  | .rx _ _ _ => False
  | .advance _ => True

/-- The steps that a thread still takes. -/
def Pc.rank : Pc → ℕ
  | .entry => 5
  | .checkIsExist _ => 4
  | .setExpires _ _ => 3
  | .respond _ => 2
  | .deleteParam => 1
  | .ended | .noThread => 0

/-- The steps that are left to all threads, and the crash of the process. -/
def State.left (s : State) : ℕ :=
  if s.fault.isSome then 0 else (s.tasks.map fun t => t.pc.rank).sum + 1

/-- The response has been sent, or its creation has failed. -/
def Pc.answered : Pc → Bool
  | .deleteParam | .ended => true
  | _ => false

/-- The code that `dealWithRegister` chooses for a request alone. -/
def codeOf (list : List SubDomainInfo) (msg : Msg) : Option ℤ :=
  match dealWithRegister ⟨0, 0, 0⟩ list msg with
  | .ok dealt => some dealt.statusCode
  | .error _ => none

/-- The responses that are due to the request `k`. -/
def due (endpt : ℕ → Endpt) (list : List SubDomainInfo) (k : ℕ) (msg : Msg) : List (ℕ × ℤ) :=
  if msg.method = .register ∧ respond (endpt k) = 0 then
    ((codeOf list msg).map fun code => (k, code)).toList
  else []

/-- What a run keeps about the responses of the request `k`. -/
structure Task.Logged (endpt : ℕ → Endpt) (list₀ : List SubDomainInfo) (log : List (ℕ × ℤ)) (k : ℕ)
    (t : Task) : Prop where
  chosen : ∀ code, t.pc = .respond code → t.msg.method = .register ∧
    codeOf list₀ t.msg = some code
  before : t.pc.answered = false → (log.filter fun x => x.1 == k) = []
  after : t.pc.answered = true → (log.filter fun x => x.1 == k) = due endpt list₀ k t.msg

/-- What a run keeps about the responses. -/
structure Logged (endpt : ℕ → Endpt) (list₀ : List SubDomainInfo) (x : State × List (ℕ × ℤ)) :
    Prop where
  kept : Kept list₀ x.1
  tasks : ∀ k (t : Task), x.1.tasks[k]? = some t → t.Logged endpt list₀ x.2 k
  known : ∀ y ∈ x.2, y.1 < x.1.tasks.length

variable {endpt : ℕ → Endpt} {list₀ : List SubDomainInfo} {s s' : State}
  {x x' : State × List (ℕ × ℤ)} {e : Event} {t : Task} {pc : Pc} {k : ℕ}

lemma codeOf_of_notMem {d : Text} {msg : Msg} (hparse : parseFromId msg = .ok d)
    (hd : d ∉ ids list₀) : codeOf list₀ msg = some sipForbidden := by
  have hexist : checkIsExist list₀ d = false := by
    rw [← Bool.not_eq_true]
    exact mt checkIsExist_iff.1 hd
  simp [codeOf, dealWithRegister, hparse, hexist]

lemma codeOf_of_mem {d : Text} {v : ℤ} {msg : Msg} (hparse : parseFromId msg = .ok d)
    (hd : d ∈ ids list₀) (hv : msg.expires = some v) : codeOf list₀ msg = some sipSuccess := by
  simp [codeOf, dealWithRegister, hparse, checkIsExist_iff.2 hd, hv]

/-- The step that makes the response. -/
lemma answer_of_respond {code : ℤ} (hk : s.tasks[k]? = some t) (hpc : t.pc = .respond code) :
    answer endpt s (.advance k) = if respond (endpt k) = 0 then [(k, code)] else [] := by
  rw [answer, hk, Option.map_some, hpc]

/-- The other steps make none. -/
lemma answer_of_ne (hk : s.tasks[k]? = some t) (hpc : ∀ code, t.pc ≠ .respond code) :
    answer endpt s (.advance k) = [] := by
  rw [answer, hk, Option.map_some]
  split
  · next code hcode => exact absurd (Option.some.inj hcode) (hpc code)
  · rfl

lemma logged_start (list₀ : List SubDomainInfo) : Logged endpt list₀ (start list₀, []) :=
  ⟨kept_start list₀, by simp [start], by simp⟩

/-- Before the response has been chosen there is nothing to know but that there is none. -/
lemma logged_of_nil {log : List (ℕ × ℤ)} (hpc : ∀ code, t.pc ≠ .respond code)
    (hans : t.pc.answered = false) (hnone : (log.filter fun x => x.1 == k) = []) :
    t.Logged endpt list₀ log k where
  chosen := fun code hc => absurd hc (hpc code)
  before := fun _ => hnone
  after := fun ha => absurd ha (by simp [hans])

/-- The response has been chosen. -/
lemma logged_of_respond {log : List (ℕ × ℤ)} {code : ℤ} (hpc : t.pc = .respond code)
    (hmethod : t.msg.method = .register) (hcode : codeOf list₀ t.msg = some code)
    (hnone : (log.filter fun x => x.1 == k) = []) : t.Logged endpt list₀ log k where
  chosen := by
    intro code' hc
    obtain rfl := Pc.respond.inj (hpc.symm.trans hc)
    exact ⟨hmethod, hcode⟩
  before := fun _ => hnone
  after := fun ha => absurd ha (by simp [hpc, Pc.answered])

/-- The response has been made. -/
lemma logged_of_answered {log : List (ℕ × ℤ)} (hans : t.pc.answered = true)
    (hlog : (log.filter fun x => x.1 == k) = due endpt list₀ k t.msg) :
    t.Logged endpt list₀ log k where
  chosen := fun code hc => absurd hans (by simp [hc, Pc.answered])
  before := fun ha => absurd hans (by simp [ha])
  after := fun _ => hlog

/-- A new request has no response. -/
lemma logged_newTask {log : List (ℕ × ℤ)} (hknown : ∀ y ∈ log, y.1 < k) (msg : Msg)
    (cloned threadCreated : Bool) :
    (newTask msg cloned threadCreated).Logged endpt list₀ log k := by
  have hnone : (log.filter fun x => x.1 == k) = [] := by
    refine List.filter_eq_nil_iff.2 fun y hy => ?_
    have hlt := hknown y hy
    simp only [beq_iff_eq]
    omega
  refine logged_of_nil ?_ ?_ hnone <;> cases threadCreated <;> simp [newTask, Pc.answered]

/-- The request of a thread that goes on. -/
lemma logged_moved {log : List (ℕ × ℤ)} (hs : Kept list₀ s) (hk : s.tasks[k]? = some t)
    (ht : t.Logged endpt list₀ log k) (h : t.Goes s.list pc) :
    (t.moved pc).Logged endpt list₀ (log ++ answer endpt s (.advance k)) k := by
  have hcons := hs.tasks k t hk
  cases h with
  | noTask hpc hbase =>
    have hdue : due endpt list₀ k t.msg = [] := if_neg fun hreg => hcons.base.1 hbase hreg.1
    rw [answer_of_ne hk (by simp [hpc]), List.append_nil]
    exact logged_of_answered rfl ((ht.before (by rw [hpc]; rfl)).trans hdue.symm)
  | parse hpc =>
    rw [answer_of_ne hk (by simp [hpc]), List.append_nil]
    exact logged_of_nil (by simp [Task.moved]) rfl (ht.before (by rw [hpc]; rfl))
  | @refuse fromId hpc hexist =>
    obtain ⟨hmethod, hparse⟩ := hcons.check _ hpc
    have hmem : fromId ∉ ids list₀ := by
      rw [← hs.ids_eq, ← checkIsExist_iff, hexist]
      exact Bool.false_ne_true
    rw [answer_of_ne hk (by simp [hpc]), List.append_nil]
    exact logged_of_respond rfl hmethod (codeOf_of_notMem hparse hmem)
      (ht.before (by rw [hpc]; rfl))
  | accept hpc =>
    rw [answer_of_ne hk (by simp [hpc]), List.append_nil]
    exact logged_of_nil (by simp [Task.moved]) rfl (ht.before (by rw [hpc]; rfl))
  | write hpc =>
    obtain ⟨hmethod, hparse, hexpires, hmem⟩ := hcons.set _ _ hpc
    rw [answer_of_ne hk (by simp [hpc]), List.append_nil]
    exact logged_of_respond rfl hmethod (codeOf_of_mem hparse hmem hexpires)
      (ht.before (by rw [hpc]; rfl))
  | @respond code hpc =>
    obtain ⟨hmethod, hcode⟩ := ht.chosen code hpc
    have hdue : due endpt list₀ k t.msg = if respond (endpt k) = 0 then [(k, code)] else [] := by
      rw [due, hcode]
      exact if_congr (and_iff_right hmethod) rfl rfl
    rw [answer_of_respond hk hpc]
    refine logged_of_answered rfl ?_
    rw [List.filter_append, ht.before (by rw [hpc]; rfl), List.nil_append]
    refine Eq.trans ?_ hdue.symm
    split <;> simp
  | delete hpc =>
    rw [answer_of_ne hk (by simp [hpc]), List.append_nil]
    exact logged_of_answered rfl (ht.after (by rw [hpc]; rfl))

/-- A step of another thread does not respond to the request. -/
lemma Task.Logged.append {log log' : List (ℕ × ℤ)} {j : ℕ} (ht : t.Logged endpt list₀ log j)
    (hlog : (log'.filter fun x => x.1 == j) = []) : t.Logged endpt list₀ (log ++ log') j where
  chosen := ht.chosen
  before := fun ha => by rw [List.filter_append, ht.before ha, hlog]; rfl
  after := fun ha => by rw [List.filter_append, ht.after ha, hlog, List.append_nil]

lemma known_answer : ∀ y ∈ answer endpt s (.advance k), y.1 = k := by
  intro y hy
  rw [answer] at hy
  split at hy
  · split at hy
    · rw [List.mem_singleton.1 hy]
    · simp at hy
  · simp at hy

/-- A thread that brings the process down does not respond. -/
lemma pc_of_fault {list : List SubDomainInfo} {err : Fault}
    (hadv : t.advance list = some (.error err)) : ∀ code, t.pc ≠ .respond code := by
  intro code hpc
  simp [Task.advance, hpc] at hadv

lemma logged_rx {log : List (ℕ × ℤ)} (hx : Logged endpt list₀ (s, log)) (msg : Msg)
    (cloned created : Bool) (hkept : Kept list₀
      { s with tasks := s.tasks ++ [newTask msg cloned created] }) :
    Logged endpt list₀ ({ s with tasks := s.tasks ++ [newTask msg cloned created] }, log) := by
  refine ⟨hkept, fun j t hj => ?_, fun y hy => ?_⟩
  · rcases getElem?_concat_cases hj with hj | ⟨rfl, rfl⟩
    · exact hx.tasks j t hj
    · exact logged_newTask hx.known msg cloned created
  · refine (hx.known y hy).trans ?_
    simp

lemma logged_move {log : List (ℕ × ℤ)} (hx : Logged endpt list₀ (s, log))
    (hk : s.tasks[k]? = some t) (h : t.Goes s.list pc) (hkept : Kept list₀ (s.move k t pc)) :
    Logged endpt list₀ (s.move k t pc, log ++ answer endpt s (.advance k)) := by
  refine ⟨hkept, fun j t' hj => ?_, fun y hy => ?_⟩
  · rcases getElem?_set_cases hj with ⟨rfl, rfl⟩ | ⟨hne, hj⟩
    · exact logged_moved hx.kept hk (hx.tasks _ t hk) h
    · refine (hx.tasks j t' hj).append (List.filter_eq_nil_iff.2 fun y hy => ?_)
      rw [known_answer y hy]
      simpa using hne.symm
  · have hlen : (s.move k t pc).tasks.length = s.tasks.length := List.length_set
    rw [hlen]
    rcases List.mem_append.1 hy with hy | hy
    · exact hx.known y hy
    · rw [known_answer y hy]
      exact (List.getElem?_eq_some_iff.1 hk).1

lemma logged_step (hx : Logged endpt list₀ x) (h : answering endpt x e = some x') :
    Logged endpt list₀ x' := by
  obtain ⟨s, log⟩ := x
  obtain ⟨s', log'⟩ := x'
  obtain ⟨hstep, hlog⟩ := Trace.logged_eq_some.1 h
  obtain rfl : log' = log ++ answer endpt s e := hlog
  have hstep' : step s e = some s' := hstep
  have hkept : Kept list₀ s' := kept_step hx.kept hstep'
  cases e with
  | rx msg cloned created =>
    have hnone : log ++ answer endpt s (.rx msg cloned created) = log := List.append_nil log
    rw [hnone]
    rcases step_cases hstep' with rfl | ⟨msg, cloned, created, -, rfl⟩ | ⟨_, _, _, he, -⟩ |
      ⟨_, _, _, he, -⟩
    · exact hx
    · exact logged_rx hx msg cloned created hkept
    · cases he
    · cases he
  | advance k =>
    cases hk : s.tasks[k]? with
    | none =>
      simp only [step, hk] at hstep'
      split at hstep' <;> simp at hstep'
    | some t =>
      rcases step_cases_advance hstep' hk with ⟨err, hadv, rfl⟩ | ⟨pc, hadv, rfl⟩
      · rw [answer_of_ne hk (pc_of_fault hadv), List.append_nil]
        exact ⟨hkept, hx.tasks, hx.known⟩
      · exact logged_move hx hk (Task.goes_of_advance hadv) hkept

/-! ### Rest -/

/-- A thread that goes on has less to do. -/
lemma rank_lt_of_goes {list : List SubDomainInfo} (h : t.Goes list pc) : pc.rank < t.pc.rank := by
  cases h with
  | noTask hpc => simp [hpc, Pc.rank]
  | parse hpc => simp [hpc, Pc.rank]
  | refuse hpc => simp [hpc, Pc.rank]
  | accept hpc => simp [hpc, Pc.rank]
  | write hpc => simp [hpc, Pc.rank]
  | respond hpc => simp [hpc, Pc.rank]
  | delete hpc => simp [hpc, Pc.rank]

lemma fault_of_step (h : step s e = some s') : s.fault = none := by
  unfold step at h
  split at h
  · simp at h
  · next hfault => simpa using hfault

lemma left_step (he : e.Work) (h : step s e = some s') : s'.left < s.left := by
  have hfault := fault_of_step h
  cases e with
  | rx msg cloned created => exact he.elim
  | advance k =>
    cases hk : s.tasks[k]? with
    | none =>
      simp only [step, hk] at h
      split at h <;> simp at h
    | some t =>
      rcases step_cases_advance h hk with ⟨err, hadv, rfl⟩ | ⟨pc, hadv, rfl⟩
      · simp [State.left, hfault]
      · have hset := sum_map_set_add (b := t.moved pc) (fun t : Task => t.pc.rank) hk
        have hlt := rank_lt_of_goes (Task.goes_of_advance hadv)
        have hpc : (t.moved pc).pc.rank = pc.rank := rfl
        simp only [hpc] at hset
        simp only [State.left, State.move, hfault, Option.isSome_none, Bool.false_eq_true, if_false]
        omega

/-- A thread that cannot go on has ended. -/
lemma finished_of_advance {list : List SubDomainInfo} (h : t.advance list = none) :
    t.finished = true := by
  unfold Task.advance at h
  split at h
  · split at h
    · simp at h
    · split at h <;> simp at h
  · split at h
    · simp at h
    · split at h <;> simp at h
  · simp at h
  · simp at h
  · simp at h
  · next hpc => rw [Task.finished, hpc]
  · next hpc => rw [Task.finished, hpc]

/-- Some thread can go on unless all have ended. -/
lemma finished_of_atRest (hfault : s.fault = none) (h : ∀ e : Event, e.Work → step s e = none) :
    ∀ t ∈ s.tasks, t.finished = true := by
  intro t ht
  obtain ⟨k, hk⟩ := List.mem_iff_getElem?.1 ht
  have hstep := h (.advance k) trivial
  simp only [step, hk, hfault, Option.isSome_none, Bool.false_eq_true, if_false] at hstep
  split at hstep
  · next hadv => exact finished_of_advance hadv
  · simp at hstep
  · simp at hstep

/-- The requests stay the same while the threads work. -/
lemma msgs_step (he : e.Work) (h : step s e = some s') :
    s'.tasks.map Task.msg = s.tasks.map Task.msg := by
  cases e with
  | rx msg cloned created => exact he.elim
  | advance k =>
    rcases step_cases h with rfl | ⟨_, _, _, he, -⟩ | ⟨j, t, err, -, -, -, rfl⟩ |
      ⟨j, t, pc, -, hj, -, rfl⟩
    · rfl
    · cases he
    · rfl
    · obtain ⟨hlt, hget⟩ := List.getElem?_eq_some_iff.1 hj
      have hmsg : (t.moved pc).msg = t.msg := rfl
      rw [State.move, List.map_set, hmsg, ← hget, ← List.getElem_map Task.msg (h := by simpa),
        List.set_getElem_self]

/-- What the service has done when all threads have ended. -/
structure AllAnswered (endpt : ℕ → Endpt) (list₀ : List SubDomainInfo) (msgs : List Msg)
    (x : State × List (ℕ × ℤ)) : Prop where
  msgs : x.1.tasks.map Task.msg = msgs
  finished : ∀ t ∈ x.1.tasks, t.finished = true
  answers : ∀ k (t : Task), x.1.tasks[k]? = some t → (x.2.filter fun y => y.1 == k) =
    if t.pc = .noThread then [] else due endpt list₀ k t.msg

lemma allAnswered_of_logged (hx : Logged endpt list₀ x)
    (hfinished : ∀ t ∈ x.1.tasks, t.finished = true) :
    AllAnswered endpt list₀ (x.1.tasks.map Task.msg) x := by
  refine ⟨rfl, hfinished, fun k t hk => ?_⟩
  have hend := hfinished t (List.mem_of_getElem? hk)
  have ht := hx.tasks k t hk
  split
  · next hpc => exact ht.before (by rw [hpc]; rfl)
  · next hpc =>
    refine ht.after ?_
    cases hpc' : t.pc with
    | ended => rfl
    | noThread => exact absurd hpc' hpc
    | _ => simp [Task.finished, hpc'] at hend

/-- Whatever requests have come in and however far the threads are: if no more come, the threads
end after the steps that are left, in any order, and every REGISTER with a thread has then been
answered once, with the code that `dealWithRegister` chooses for it alone, if the calls that make
its response succeed, and no other request has; unless the process has crashed. -/
theorem answeredOnce_of_run {list : List SubDomainInfo} {es : List Event}
    (h : Trace.run (answering endpt) (start list, []) es = some x) :
    Progress.ComesToRest (answering endpt) Event.Work x.1.left
      (fun y => y.1.fault.isSome = true ∨ AllAnswered endpt list (x.1.tasks.map Task.msg) y) x := by
  have hx : Logged endpt list x :=
    Trace.invariant (logged_start list) (fun _ _ _ hs hstep => logged_step hs hstep) h
  have hshrinks : Progress.Shrinks (answering endpt) Event.Work
      (fun y => Logged endpt list y ∧ y.1.tasks.map Task.msg = x.1.tasks.map Task.msg)
      (fun y => y.1.left) := by
    rintro y e y' ⟨hy, hmsgs⟩ he hstep
    have hstep' := (Trace.logged_eq_some.1 hstep).1
    exact ⟨⟨logged_step hy hstep, (msgs_step he hstep').trans hmsgs⟩, left_step he hstep'⟩
  refine hshrinks.comesToRest ⟨hx, rfl⟩ ?_
  rintro y ⟨hy, hmsgs⟩ hrest
  cases hfault : y.1.fault with
  | some err => exact Or.inl rfl
  | none =>
    have hfinished := finished_of_atRest hfault fun e he => Trace.logged_eq_none.1 (hrest e he)
    exact Or.inr (hmsgs ▸ allAnswered_of_logged hy hfinished)

/-- Two requests are under way, one of them of a device that is not configured; the response to it
cannot be sent. -/
theorem answeredOnce_twoRequests : ∃ x, Trace.run (answering fun k => ⟨0, 0, k⟩)
      (start oneNode, []) [.rx (some ⟨.register, some configuredHdr, some 60⟩) true true,
        .advance 0, .rx (some ⟨.register, none, some 60⟩) true true] = some x ∧
    Progress.ComesToRest (answering fun k => ⟨0, 0, k⟩) Event.Work x.1.left
      (fun y => y.1.fault.isSome = true ∨
        AllAnswered (fun k => ⟨0, 0, k⟩) oneNode (x.1.tasks.map Task.msg) y) x :=
  ⟨_, rfl, answeredOnce_of_run (rfl : Trace.run (answering fun k => ⟨0, 0, k⟩) (start oneNode, [])
    [.rx (some ⟨.register, some configuredHdr, some 60⟩) true true, .advance 0,
      .rx (some ⟨.register, none, some 60⟩) true true] = _)⟩

end Sup
