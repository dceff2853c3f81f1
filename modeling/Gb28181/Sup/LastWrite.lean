import Gb28181.Lib.Threads
import Gb28181.Sup.SipCore

/-!
# The expiry of a device

The threads of several requests of one device can overtake each other.  In every interleaving
the expiry in the registry is that of the request whose `setExpires` ran last, which need not
be the one that was received last.
-/

namespace Sup

open Lib Sip

/-- The thread has passed the place where it calls `setExpires`. -/
def Pc.passed : Pc → Bool
  | .respond _ | .deleteParam | .ended => true
  | _ => false

/-- The calls of `setExpires` for a device, in the order in which they ran. -/
def State.writesOf (s : State) (d : Text) : List (ℕ × Text × ℤ) :=
  s.writes.filter fun w => w.2.1 == d

/-- The request is a REGISTER of the device `d` that has a thread. -/
def Task.Registers (t : Task) (d : Text) : Prop :=
  t.msg.method = .register ∧ parseFromId t.msg = .ok d ∧ t.pc ≠ .noThread

/-- What a run keeps about the request `k`: what its thread carries along belongs to the
request, and `setExpires` has run for it once the thread has passed it. -/
structure Task.Consistent (list₀ : List SubDomainInfo) (writes : List (ℕ × Text × ℤ)) (k : ℕ)
    (t : Task) : Prop where
  base : t.param.base = none ↔ t.msg.method ≠ .register
  data : ∀ msg, t.param.data = some msg → msg = t.msg
  check : ∀ d, t.pc = .checkIsExist d → t.msg.method = .register ∧ parseFromId t.msg = .ok d
  set : ∀ d v, t.pc = .setExpires d v → t.msg.method = .register ∧ parseFromId t.msg = .ok d ∧
    t.msg.expires = some v ∧ d ∈ ids list₀
  before : t.pc.passed = false → k ∉ writes.map Prod.fst
  after : t.pc.passed = true → t.msg.method = .register →
    ∀ d, parseFromId t.msg = .ok d → d ∈ ids list₀ → k ∈ writes.map Prod.fst

/-- What a run keeps about the registry. -/
structure Kept (list₀ : List SubDomainInfo) (s : State) : Prop where
  ids_eq : ids s.list = ids list₀
  tasks : ∀ k (t : Task), s.tasks[k]? = some t → t.Consistent list₀ s.writes k
  writes : ∀ w ∈ s.writes, ∃ t : Task, s.tasks[w.1]? = some t ∧ t.Registers w.2.1 ∧
    t.msg.expires = some w.2.2
  nodup : (s.writes.map Prod.fst).Nodup
  expires : ∀ d ∈ ids list₀, ∀ w, (s.writesOf d).getLast? = some w →
    expiresOf s.list d = some w.2.2

variable {s s' : State} {e : Event} {list₀ : List SubDomainInfo} {t : Task} {pc : Pc} {k : ℕ}

lemma kept_start (list₀ : List SubDomainInfo) : Kept list₀ (start list₀) :=
  ⟨rfl, by simp [start], by simp [start], by simp [start], by simp [start, State.writesOf]⟩

/-- A new request. -/
lemma kept_rx (hs : Kept list₀ s) (msg : Msg) (cloned threadCreated : Bool) :
    Kept list₀ { s with tasks := s.tasks ++ [newTask msg cloned threadCreated] } := by
  have hlt : ∀ k ∈ s.writes.map Prod.fst, k < s.tasks.length := by
    intro k hk
    obtain ⟨w, hw, rfl⟩ := List.mem_map.1 hk
    obtain ⟨t, ht, -⟩ := hs.writes w hw
    exact (List.getElem?_eq_some_iff.1 ht).1
  refine ⟨hs.ids_eq, fun k t hk => ?_, fun w hw => ?_, hs.nodup, hs.expires⟩
  · rcases getElem?_concat_cases hk with hk | ⟨rfl, rfl⟩
    · exact hs.tasks k t hk
    · -- the new task is the last one
      have hno : s.tasks.length ∉ s.writes.map Prod.fst := fun hmem => (hlt _ hmem).false
      refine ⟨by simp [newTask, threadParam], ?_, ?_, ?_, fun _ => hno, ?_⟩
      · cases cloned <;> simp [newTask, threadParam, eq_comm]
      · cases threadCreated <;> simp [newTask]
      · cases threadCreated <;> simp [newTask]
      · cases threadCreated <;> simp [newTask, Pc.passed]
  · obtain ⟨t, ht, hreg⟩ := hs.writes w hw
    exact ⟨t, by rw [List.getElem?_append_left (List.getElem?_eq_some_iff.1 ht).1]; exact ht, hreg⟩

/-- A thread that does not call `setExpires` changes its request alone. -/
lemma move_of_ne (hset : ∀ d v, t.pc ≠ .setExpires d v) :
    s.move k t pc = { s with tasks := s.tasks.set k (t.moved pc) } := by
  unfold State.move
  split
  · next d v heq => exact absurd heq (hset d v)
  · rfl

/-- The request `k` moves on and nothing else changes. -/
lemma kept_move (hs : Kept list₀ s) (hk : s.tasks[k]? = some t)
    (hset : ∀ d v, t.pc ≠ .setExpires d v) (hpc : pc ≠ .noThread)
    (ht : (t.moved pc).Consistent list₀ s.writes k) : Kept list₀ (s.move k t pc) := by
  have hlt := (List.getElem?_eq_some_iff.1 hk).1
  rw [move_of_ne hset]
  refine ⟨hs.ids_eq, fun j u hj => ?_, fun w hw => ?_, hs.nodup, hs.expires⟩
  · rcases getElem?_set_cases hj with ⟨rfl, rfl⟩ | ⟨-, hj⟩
    · exact ht
    · exact hs.tasks j u hj
  · obtain ⟨u, hu, hreg, hexp⟩ := hs.writes w hw
    by_cases hwk : k = w.1
    · obtain rfl : t = u := Option.some.inj (hk.symm.trans (hwk ▸ hu))
      refine ⟨t.moved pc, ?_, ⟨hreg.1, hreg.2.1, hpc⟩, hexp⟩
      rw [← hwk]
      exact List.getElem?_set_self hlt
    · exact ⟨u, by rw [List.getElem?_set_ne hwk]; exact hu, hreg, hexp⟩

/-- The request `k` moves on behind the place where `setExpires` is called. -/
lemma kept_passed (hs : Kept list₀ s) (hk : s.tasks[k]? = some t)
    (hset : ∀ d v, t.pc ≠ .setExpires d v) (hpc : pc.passed = true)
    (hafter : t.msg.method = .register → ∀ d, parseFromId t.msg = .ok d → d ∈ ids list₀ →
      k ∈ s.writes.map Prod.fst) : Kept list₀ (s.move k t pc) := by
  have ht := hs.tasks k t hk
  refine kept_move hs hk hset ?_ ⟨ht.base, ht.data, ?_, ?_, ?_, fun _ => hafter⟩
  · rintro rfl
    exact absurd hpc Bool.false_ne_true
  · intro d hd
    rw [show pc = .checkIsExist d from hd] at hpc
    exact absurd hpc Bool.false_ne_true
  · intro d v hd
    rw [show pc = .setExpires d v from hd] at hpc
    exact absurd hpc Bool.false_ne_true
  · intro hbefore
    rw [show pc.passed = false from hbefore] at hpc
    exact absurd hpc Bool.false_ne_true

section Write

variable {d d' : Text} {v : ℤ}

/-- A thread that calls `setExpires`. -/
lemma move_of_setExpires (hpc : t.pc = .setExpires d v) : s.move k t pc =
    ⟨setExpires s.list d v, s.tasks.set k (t.moved pc), s.fault, s.writes ++ [(k, d, v)]⟩ := by
  simp only [State.move, hpc]

/-- What the other requests keep does not depend on a call for the request `k`. -/
lemma Task.Consistent.concat {j : ℕ} (ht : t.Consistent list₀ s.writes j) (hjk : j ≠ k) :
    t.Consistent list₀ (s.writes ++ [(k, d, v)]) j := by
  have hmap : (s.writes ++ [(k, d, v)]).map Prod.fst = s.writes.map Prod.fst ++ [k] := by simp
  refine ⟨ht.base, ht.data, ht.check, ht.set, fun hp hmem => ?_, fun hp hm d' hd' hmem => ?_⟩
  · rcases List.mem_append.1 (hmap ▸ hmem) with hmem | hmem
    · exact ht.before hp hmem
    · exact hjk (List.mem_singleton.1 hmem)
  · rw [hmap]
    exact List.mem_append_left _ (ht.after hp hm d' hd' hmem)

/-- With one call more each expiry is still that of the last call for its id. -/
lemma expiresOf_last (hs : Kept list₀ s) (hd : d ∈ ids list₀) (hd' : d' ∈ ids list₀)
    {w : ℕ × Text × ℤ}
    (hw : ((s.writes ++ [(k, d, v)]).filter fun w => w.2.1 == d').getLast? = some w) :
    expiresOf (setExpires s.list d v) d' = some w.2.2 := by
  have hof : (s.writes ++ [(k, d, v)]).filter (fun w => w.2.1 == d') =
      s.writesOf d' ++ if d = d' then [(k, d, v)] else [] := by
    simp only [State.writesOf, List.filter_append, List.filter_cons, List.filter_nil, beq_iff_eq]
  rw [hof] at hw
  by_cases hdd : d = d'
  · subst hdd
    rw [if_pos rfl, List.getLast?_append, List.getLast?_singleton, Option.some_or,
      Option.some.injEq] at hw
    rw [← hw]
    exact expiresOf_setExpires (hs.ids_eq ▸ hd)
  · rw [if_neg hdd, List.append_nil] at hw
    rw [expiresOf_setExpires_of_ne (Ne.symm hdd)]
    exact hs.expires d' hd' w hw

/-- The request `k` calls `setExpires`. -/
lemma kept_write (hs : Kept list₀ s) (hk : s.tasks[k]? = some t)
    (hpc : t.pc = .setExpires d v) : Kept list₀ (s.move k t (.respond sipSuccess)) := by
  have hlt := (List.getElem?_eq_some_iff.1 hk).1
  have ht := hs.tasks k t hk
  obtain ⟨hmethod, hparse, hexpires, hd⟩ := ht.set d v hpc
  have hnew : k ∉ s.writes.map Prod.fst := ht.before (by rw [hpc]; rfl)
  have hmap : (s.writes ++ [(k, d, v)]).map Prod.fst = s.writes.map Prod.fst ++ [k] := by simp
  rw [move_of_setExpires hpc]
  refine ⟨by rw [ids_setExpires]; exact hs.ids_eq, fun j u hj => ?_, fun w hw => ?_, ?_,
    fun d' hd' w => expiresOf_last hs hd hd'⟩
  · rcases getElem?_set_cases hj with ⟨rfl, rfl⟩ | ⟨hjk, hj⟩
    · exact ⟨ht.base, ht.data, by simp [Task.moved], by simp [Task.moved],
        by simp [Task.moved, Pc.passed], fun _ _ _ _ _ => by simp [hmap]⟩
    · exact (hs.tasks j u hj).concat hjk
  · rcases List.mem_append.1 hw with hw | hw
    · -- an earlier call was for another request
      obtain ⟨u, hu, hreg, hexp⟩ := hs.writes w hw
      have hwk : k ≠ w.1 := fun h => hnew (h ▸ List.mem_map_of_mem hw)
      exact ⟨u, by rw [List.getElem?_set_ne hwk]; exact hu, hreg, hexp⟩
    · obtain rfl := List.mem_singleton.1 hw
      exact ⟨_, List.getElem?_set_self hlt, ⟨hmethod, hparse, by simp [Task.moved]⟩, hexpires⟩
  · rw [hmap]
    refine List.nodup_append.2 ⟨hs.nodup, by simp, fun a ha b hb => ?_⟩
    rintro rfl
    exact hnew (List.mem_singleton.1 hb ▸ ha)

end Write

lemma kept_step (hs : Kept list₀ s) (h : step s e = some s') : Kept list₀ s' := by
  rcases step_cases h with rfl | ⟨msg, cloned, created, rfl, rfl⟩ | ⟨k, t, err, rfl, hk, -, rfl⟩ |
    ⟨k, t, pc, rfl, hk, hadv, rfl⟩
  · exact hs
  · exact kept_rx hs msg cloned created
  · exact ⟨hs.ids_eq, hs.tasks, hs.writes, hs.nodup, hs.expires⟩
  · have ht := hs.tasks k t hk
    cases Task.goes_of_advance hadv with
    | noTask hpc hbase =>
      refine kept_passed hs hk (by simp [hpc]) rfl fun hmethod => ?_
      exact absurd hmethod (ht.base.1 hbase)
    | @parse msg d hpc hbase hdata hparse =>
      obtain rfl := ht.data msg hdata
      have hmethod : t.msg.method = .register := by
        by_contra hm
        exact hbase (ht.base.2 hm)
      refine kept_move hs hk (by simp [hpc]) (by simp) ⟨ht.base, ht.data, fun d' hd' => ?_,
        by simp [Task.moved], fun _ => ht.before (by simp [hpc, Pc.passed]),
        by simp [Task.moved, Pc.passed]⟩
      obtain rfl : d = d' := by simpa [Task.moved] using hd'
      exact ⟨hmethod, hparse⟩
    | @refuse d hpc hexist =>
      refine kept_passed hs hk (by simp [hpc]) rfl fun _ d' hd' hmem => ?_
      -- the id is not configured, so nothing has to be written
      obtain rfl : d = d' := Except.ok.inj ((ht.check d hpc).2.symm.trans hd')
      rw [← hs.ids_eq, ← checkIsExist_iff, hexist] at hmem
      exact absurd hmem Bool.false_ne_true
    | @accept d msg v hpc hexist hdata hexpires =>
      obtain rfl := ht.data msg hdata
      refine kept_move hs hk (by simp [hpc]) (by simp) ⟨ht.base, ht.data, by simp [Task.moved],
        fun d' v' hd' => ?_, fun _ => ht.before (by simp [hpc, Pc.passed]),
        by simp [Task.moved, Pc.passed]⟩
      obtain ⟨rfl, rfl⟩ : d = d' ∧ v = v' := by simpa [Task.moved] using hd'
      obtain ⟨hmethod, hparse⟩ := ht.check d hpc
      exact ⟨hmethod, hparse, hexpires, hs.ids_eq ▸ checkIsExist_iff.1 hexist⟩
    | write hpc => exact kept_write hs hk hpc
    | respond hpc =>
      exact kept_passed hs hk (by simp [hpc]) rfl (ht.after (by simp [hpc, Pc.passed]))
    | delete hpc =>
      exact kept_passed hs hk (by simp [hpc]) rfl (ht.after (by simp [hpc, Pc.passed]))

/-- The calls of `setExpires` for the device are those of its requests, one each, and the
registry has the expiry of the request whose call ran last. -/
structure LastWriteWins (s : State) (d : Text) : Prop where
  once : (s.writesOf d).Pairwise fun w w' => w.1 ≠ w'.1
  requests : ∀ k, (∃ w ∈ s.writesOf d, w.1 = k) ↔ ∃ t, s.tasks[k]? = some t ∧ t.Registers d
  last : ∀ t ∈ s.tasks, t.Registers d → ∃ k u v, (s.writesOf d).getLast? = some (k, d, v) ∧
    s.tasks[k]? = some u ∧ u.Registers d ∧ u.msg.expires = some v ∧ expiresOf s.list d = some v

/-- In every interleaving, once the threads of the requests of a configured device have ended, its
expiry is that of the request whose `setExpires` ran last. -/
theorem lastWriteWins_of_run {list : List SubDomainInfo} {es : List Event} {s : State} {d : Text}
    (h : Lib.Trace.run step (start list) es = some s) (hd : d ∈ ids list)
    (hended : ∀ t ∈ s.tasks, t.Registers d → t.pc = .ended) : LastWriteWins s d := by
  have hs : Kept list s := Lib.Trace.invariant (kept_start list) (fun _ _ _ => kept_step) h
  -- a call of `setExpires` for the device is that of a request of the device
  have hof : ∀ w ∈ s.writesOf d, w.2.1 = d ∧ ∃ t, s.tasks[w.1]? = some t ∧ t.Registers d ∧
      t.msg.expires = some w.2.2 := by
    intro w hw
    obtain ⟨hw, hwd⟩ := List.mem_filter.1 hw
    obtain ⟨t, ht, hreg, hexp⟩ := hs.writes w hw
    exact ⟨beq_iff_eq.1 hwd, t, ht, beq_iff_eq.1 hwd ▸ hreg, hexp⟩
  have hmem : ∀ k t, s.tasks[k]? = some t → t.Registers d → ∃ w ∈ s.writesOf d, w.1 = k := by
    intro k t ht hreg
    have hpc := hended t (List.mem_of_getElem? ht) hreg
    obtain ⟨w, hw, rfl⟩ := List.mem_map.1
      ((hs.tasks k t ht).after (by rw [hpc]; rfl) hreg.1 d hreg.2.1 hd)
    obtain ⟨u, hu, hreg', -⟩ := hs.writes w hw
    obtain rfl : t = u := Option.some.inj (ht.symm.trans hu)
    have hwd : w.2.1 = d := Except.ok.inj (hreg'.2.1.symm.trans hreg.2.1)
    exact ⟨w, List.mem_filter.2 ⟨hw, beq_iff_eq.2 hwd⟩, rfl⟩
  refine ⟨(List.pairwise_map.1 hs.nodup).filter _, fun k => ⟨?_, ?_⟩, fun t ht hreg => ?_⟩
  · rintro ⟨w, hw, rfl⟩
    obtain ⟨-, t, ht, hreg, -⟩ := hof w hw
    exact ⟨t, ht, hreg⟩
  · rintro ⟨t, ht, hreg⟩
    exact hmem k t ht hreg
  · obtain ⟨k, hk⟩ := List.getElem?_of_mem ht
    obtain ⟨w, hw, -⟩ := hmem k t hk hreg
    obtain ⟨⟨j, d', v⟩, hlast⟩ : ∃ w, (s.writesOf d).getLast? = some w :=
      ⟨_, List.getLast?_eq_some_getLast (List.ne_nil_of_mem hw)⟩
    obtain ⟨rfl, u, hu, hreg', hexp⟩ := hof _ (List.mem_of_getLast? hlast)
    exact ⟨j, u, v, hlast, hu, hreg', hexp, hs.expires _ hd _ hlast⟩

/-- Two requests of one device: to register for an hour, and to unregister. -/
def overtakingRun : List Event :=
  [.rx (some ⟨.register, some configuredHdr, some 3600⟩) true true,
    .rx (some ⟨.register, some configuredHdr, some 0⟩) true true] ++
    List.replicate 5 (.advance 1) ++ List.replicate 5 (.advance 0)

/-- What the run leads to. -/
lemma run_overtakingRun : ∃ s, Lib.Trace.run step (start oneNode) overtakingRun = some s ∧
    s.tasks.map (·.pc) = [.ended, .ended] ∧ s.tasks.map (·.msg.expires) = [some 3600, some 0] ∧
    expiresOf s.list "11000000002000000001".toList = some 3600 :=
  ⟨_, rfl, rfl, rfl, rfl⟩

/-- The thread of the second request overtakes that of the first one, and the device stays
registered for an hour. -/
theorem expires_after_overtakingRun :
    ∃ s, Lib.Trace.run step (start oneNode) overtakingRun = some s ∧
      s.tasks.map (·.pc) = [.ended, .ended] ∧
      s.tasks.map (·.msg.expires) = [some 3600, some 0] ∧
      expiresOf s.list "11000000002000000001".toList ≠ some 0 := by
  obtain ⟨s, hrun, hpc, hmsgs, hexp⟩ := run_overtakingRun
  exact ⟨s, hrun, hpc, hmsgs, by rw [hexp]; decide⟩

/-- The requests of this run have ended. -/
theorem lastWriteWins_overtakingRun :
    ∃ s, Lib.Trace.run step (start oneNode) overtakingRun = some s ∧
      LastWriteWins s "11000000002000000001".toList := by
  obtain ⟨s, hrun, hpc, -⟩ := run_overtakingRun
  refine ⟨s, hrun, lastWriteWins_of_run hrun (by decide) fun t ht _ => ?_⟩
  have hmem : t.pc ∈ s.tasks.map (·.pc) := List.mem_map_of_mem ht
  rw [hpc] at hmem
  simpa using hmem

end Sup
