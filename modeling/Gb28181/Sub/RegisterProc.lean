import Gb28181.Lib.Threads
import Gb28181.Lib.Trace
import Gb28181.Sub.SipRegister

/-!
# SipSubService at work

The timer thread runs `RegisterProc` again and again, which calls `gbRegister` for every node
that is not registered; the event thread runs `client_cb` when a REGISTER of a client has got its
final answer, be it the first one or one that the client sends by itself to refresh the
registration.  Everything that is not decided by the service (the results of the calls of the
stack, the answers and when they come) is a part of the events.
-/

namespace Sub

open Lib Conf Sip

/-- Where a client stands. -/
inductive Phase where
  /-- It has sent nothing. -/
  | created
  /-- A REGISTER has no final answer yet. -/
  | outstanding
  /-- The last REGISTER was answered with a 2xx code, and a refresh is scheduled. -/
  | scheduled
  /-- The last REGISTER was answered otherwise, and nothing is scheduled. -/
  | idle
  /-- `pjsip_regc_destroy` was called. -/
  | destroyed
  deriving DecidableEq, Repr

/-- A `pjsip_regc` with the node that is its token. -/
structure Client where
  token : ℕ
  phase : Phase
  deriving DecidableEq, Repr

/-- Where the timer thread stands; `k` is the number of a node and `c` that of a client. -/
inductive Pc where
  /-- Between two calls of `RegisterProc`. -/
  | wait
  /-- Before the test of `registered`. -/
  | visit (k : ℕ)
  /-- Before the result of `pjsip_regc_create`. -/
  | create (k : ℕ)
  /-- Before the result of `pjsip_regc_init`. -/
  | init (k c : ℕ)
  /-- Before the result of `pjsip_regc_register`. -/
  | register (k c : ℕ)
  /-- In `pjsip_regc_send`. -/
  | send (k c : ℕ)
  deriving DecidableEq, Repr

/-- The state of the service.  `succeeded` and `answers` are histories, the last entry first: the
nodes for which `gbRegister` returned 0, and the calls of `client_cb` with node and code. -/
structure State where
  nodes : List SupDomainInfo
  clients : List Client
  pc : Pc
  succeeded : List ℕ
  answers : List (ℕ × ℤ)

/-- The service after `GlobalCtl::init`. -/
def start (gConfig : SipLocalConfig SupNodeInfo) : State :=
  ⟨gConfig.nodeInfoList.map infoOf, [], .wait, [], []⟩

/-- What can happen: the timer calls `RegisterProc`, which goes on to a node or gets the result of
a call of the stack; a final answer comes for a client; a client refreshes its registration. -/
inductive Event where
  | tick
  | visit
  | ret (status : ℤ)
  | callback (c : ℕ) (code : ℤ)
  | refresh (c : ℕ)
  deriving DecidableEq, Repr

/-- `client_cb`. -/
def clientCb (nodes : List SupDomainInfo) (token : ℕ) (code : ℤ) : List SupDomainInfo :=
  if code = 200 then nodes.modify token fun subinfo => { subinfo with registered := true }
  else nodes

/-- What a final answer does to the client. -/
def afterAnswer (code : ℤ) : Phase := if 200 ≤ code ∧ code < 300 then .scheduled else .idle

/-- A client moves on. -/
def State.setPhase (s : State) (k c : ℕ) (phase : Phase) : State :=
  { s with clients := s.clients.set c ⟨k, phase⟩ }

/-- The thread moves on. -/
def State.goto (s : State) (pc : Pc) : State := { s with pc := pc }

/-- `gbRegister` has made a client. -/
def State.create (s : State) (k : ℕ) : State :=
  { s with clients := s.clients ++ [⟨k, .created⟩], pc := .init k s.clients.length }

/-- `gbRegister` destroys its client and returns -1. -/
def State.giveUp (s : State) (k c : ℕ) : State := (s.setPhase k c .destroyed).goto (.visit (k + 1))

/-- `RegisterProc` at the `k`-th node. -/
def State.visit (gConfig : SipLocalConfig SupNodeInfo) (s : State) (k : ℕ) : Option State :=
  match s.nodes[k]? with
  | none => some (s.goto .wait)
  | some node =>
    if node.registered then some (s.goto (.visit (k + 1)))
    else
      match formatMessage gConfig node with
      | .error _ => none
      | .ok _ => some (s.goto (.create k))

/-- The result of a call of the stack. -/
def State.ret (s : State) (status : ℤ) : Option State :=
  match s.pc with
  | .wait | .visit _ => none
  | .create k => if status = 0 then some (s.create k) else some (s.goto (.visit (k + 1)))
  | .init k c => if status = 0 then some (s.goto (.register k c)) else some (s.giveUp k c)
  | .register k c =>
    if status = 0 then some ((s.setPhase k c .outstanding).goto (.send k c))
    else some (s.giveUp k c)
  | .send k c =>
    if status = 0 then some { s with pc := .visit (k + 1), succeeded := k :: s.succeeded }
    else some (s.giveUp k c)

/-- The final answer of an outstanding REGISTER. -/
def State.callback (s : State) (c : ℕ) (code : ℤ) : Option State :=
  match s.clients[c]? with
  | some ⟨k, .outstanding⟩ =>
    some { s.setPhase k c (afterAnswer code) with
      nodes := clientCb s.nodes k code, answers := (k, code) :: s.answers }
  | _ => none

/-- A step of the service; `none` says that the event cannot happen, or that the process
crashes. -/
def step (gConfig : SipLocalConfig SupNodeInfo) (s : State) : Event → Option State
  | .tick => if s.pc = .wait then some (s.goto (.visit 0)) else none
  | .visit =>
    match s.pc with
    | .visit k => s.visit gConfig k
    | _ => none
  | .ret status => s.ret status
  | .callback c code => s.callback c code
  | .refresh c =>
    match s.clients[c]? with
    | some ⟨k, .scheduled⟩ => some (s.setPhase k c .outstanding)
    | _ => none

/-- The node and the client of the call of `gbRegister` that is under way. -/
def Pc.client : Pc → Option (ℕ × ℕ)
  | .init k c | .register k c | .send k c => some (k, c)
  | _ => none

/-- What a step can be. -/
inductive Goes (gConfig : SipLocalConfig SupNodeInfo) (s : State) : Event → State → Prop
  | tick (hpc : s.pc = .wait) : Goes gConfig s .tick (s.goto (.visit 0))
  | done {k : ℕ} (hpc : s.pc = .visit k) (hnode : s.nodes[k]? = none) :
      Goes gConfig s .visit (s.goto .wait)
  | skip {k : ℕ} {node : SupDomainInfo} (hpc : s.pc = .visit k) (hnode : s.nodes[k]? = some node)
      (hreg : node.registered = true) : Goes gConfig s .visit (s.goto (.visit (k + 1)))
  | call {k : ℕ} {node : SupDomainInfo} (hpc : s.pc = .visit k) (hnode : s.nodes[k]? = some node)
      (hreg : node.registered = false) : Goes gConfig s .visit (s.goto (.create k))
  | noClient {k : ℕ} {status : ℤ} (hpc : s.pc = .create k) (hstatus : status ≠ 0) :
      Goes gConfig s (.ret status) (s.goto (.visit (k + 1)))
  | create {k : ℕ} (hpc : s.pc = .create k) : Goes gConfig s (.ret 0) (s.create k)
  | init {k c : ℕ} (hpc : s.pc = .init k c) : Goes gConfig s (.ret 0) (s.goto (.register k c))
  | register {k c : ℕ} (hpc : s.pc = .register k c) :
      Goes gConfig s (.ret 0) ((s.setPhase k c .outstanding).goto (.send k c))
  | send {k c : ℕ} (hpc : s.pc = .send k c) : Goes gConfig s (.ret 0)
      { s with pc := .visit (k + 1), succeeded := k :: s.succeeded }
  | giveUp {k c : ℕ} {status : ℤ} (hpc : s.pc.client = some (k, c)) (hstatus : status ≠ 0) :
      Goes gConfig s (.ret status) (s.giveUp k c)
  | callback {k c : ℕ} {code : ℤ} (hc : s.clients[c]? = some ⟨k, .outstanding⟩) :
      Goes gConfig s (.callback c code)
        { s.setPhase k c (afterAnswer code) with
          nodes := clientCb s.nodes k code, answers := (k, code) :: s.answers }
  | refresh {k c : ℕ} (hc : s.clients[c]? = some ⟨k, .scheduled⟩) :
      Goes gConfig s (.refresh c) (s.setPhase k c .outstanding)

variable {gConfig : SipLocalConfig SupNodeInfo} {s s' : State} {e : Event}

lemma goes_of_visit {k : ℕ} (hpc : s.pc = .visit k) (h : s.visit gConfig k = some s') :
    Goes gConfig s .visit s' := by
  unfold State.visit at h
  split at h
  · next hnode => exact Option.some.inj h ▸ .done hpc hnode
  · next node hnode =>
    split at h
    · next hreg => exact Option.some.inj h ▸ .skip hpc hnode hreg
    · next hreg =>
      split at h
      · simp at h
      · exact Option.some.inj h ▸ .call hpc hnode (by simpa using hreg)

lemma goes_of_ret {status : ℤ} (h : s.ret status = some s') : Goes gConfig s (.ret status) s' := by
  unfold State.ret at h
  split at h
  · simp at h
  · simp at h
  · next k hpc =>
    split at h
    · next hzero => exact hzero ▸ Option.some.inj h ▸ .create hpc
    · next hstatus => exact Option.some.inj h ▸ .noClient hpc hstatus
  · next k c hpc =>
    split at h
    · next hzero => exact hzero ▸ Option.some.inj h ▸ .init hpc
    · next hstatus => exact Option.some.inj h ▸ .giveUp (by rw [hpc, Pc.client]) hstatus
  · next k c hpc =>
    split at h
    · next hzero => exact hzero ▸ Option.some.inj h ▸ .register hpc
    · next hstatus => exact Option.some.inj h ▸ .giveUp (by rw [hpc, Pc.client]) hstatus
  · next k c hpc =>
    split at h
    · next hzero => exact hzero ▸ Option.some.inj h ▸ .send hpc
    · next hstatus => exact Option.some.inj h ▸ .giveUp (by rw [hpc, Pc.client]) hstatus

lemma goes_of_step (h : step gConfig s e = some s') : Goes gConfig s e s' := by
  cases e with
  | tick =>
    simp only [step] at h
    split at h
    · next hpc => exact Option.some.inj h ▸ .tick hpc
    · simp at h
  | visit =>
    simp only [step] at h
    split at h
    · next k hpc => exact goes_of_visit hpc h
    · simp at h
  | ret status => exact goes_of_ret h
  | callback c code =>
    simp only [step, State.callback] at h
    split at h
    · next k hc => exact Option.some.inj h ▸ .callback hc
    · simp at h
  | refresh c =>
    simp only [step] at h
    split at h
    · next k hc => exact Option.some.inj h ▸ .refresh hc
    · simp at h

/-! ### Counting clients -/

/-- How many clients of a node are in a phase with `p`. -/
def State.count (s : State) (p : Phase → Bool) (k : ℕ) : ℕ :=
  s.clients.countP fun cl => cl.token == k && p cl.phase

/-- The client was not destroyed. -/
def Phase.live (phase : Phase) : Bool := phase != .destroyed

variable {p : Phase → Bool} {k c j : ℕ}

@[simp] lemma count_goto (pc : Pc) : (s.goto pc).count p k = s.count p k := rfl

/-- A client that moves on is counted where it stands now. -/
lemma count_setPhase {phase phase' : Phase} (hc : s.clients[c]? = some ⟨k, phase⟩) :
    (s.setPhase k c phase').count p j + (if j = k ∧ p phase = true then 1 else 0) =
      s.count p j + if j = k ∧ p phase' = true then 1 else 0 := by
  have hset := countP_set_add (b := ⟨k, phase'⟩)
    (fun (cl : Client) => cl.token == j && p cl.phase) hc
  simp only [Bool.and_eq_true, beq_iff_eq, eq_comm (a := k)] at hset
  exact hset

/-- A new client is counted. -/
lemma count_create :
    (s.create k).count p j = s.count p j + if j = k ∧ p .created = true then 1 else 0 := by
  rw [State.count, State.create, List.countP_append, List.countP_singleton, State.count]
  simp only [Bool.and_eq_true, beq_iff_eq, eq_comm (b := j)]

lemma count_live_create :
    (s.create k).count Phase.live j = s.count Phase.live j + if j = k then 1 else 0 := by
  have hlive : Phase.created.live = true := rfl
  simp only [count_create, hlive, and_true]

/-- A client that moves on without being destroyed is counted as before. -/
lemma count_live_setPhase {phase phase' : Phase} (hc : s.clients[c]? = some ⟨k, phase⟩)
    (hlive : phase.live = true) (hlive' : phase'.live = true) :
    (s.setPhase k c phase').count Phase.live j = s.count Phase.live j := by
  have h : (s.setPhase k c phase').count Phase.live j + (if j = k ∧ phase.live then 1 else 0) =
      s.count Phase.live j + if j = k ∧ phase'.live then 1 else 0 := count_setPhase hc
  rw [hlive, hlive'] at h
  exact Nat.add_right_cancel h

/-- A client that is given up is not counted any more. -/
lemma count_giveUp {phase : Phase} (hc : s.clients[c]? = some ⟨k, phase⟩)
    (hlive : phase.live = true) :
    (s.giveUp k c).count Phase.live j + (if j = k then 1 else 0) = s.count Phase.live j := by
  have h : (s.setPhase k c .destroyed).count Phase.live j + (if j = k ∧ phase.live then 1 else 0) =
      s.count Phase.live j + if j = k ∧ Phase.destroyed.live then 1 else 0 := count_setPhase hc
  have hdead : Phase.destroyed.live = false := rfl
  simp only [hlive, hdead, Bool.false_eq_true, and_true, and_false, if_false, Nat.add_zero] at h
  exact h

/-- What was counted before a client was made is counted again when it is given up. -/
lemma count_giveUp_of_created {s₀ : State} {phase : Phase}
    (hcount : ∀ j, s.count Phase.live j = s₀.count Phase.live j + if j = k then 1 else 0)
    (hc : s.clients[c]? = some ⟨k, phase⟩) (hlive : phase.live = true) :
    (s.giveUp k c).count Phase.live j = s₀.count Phase.live j := by
  have hgone := count_giveUp (j := j) hc hlive
  have hmade := hcount j
  omega

/-! ### A call that nothing interferes with -/

/-- The results that `gbRegister` gets, up to the first one that is not `PJ_SUCCESS`. -/
def results (regc : Regc) (node : SupDomainInfo) : List ℤ :=
  if regc.create ≠ 0 then [regc.create]
  else if regc.initStatus (toUInt32 node.expires) ≠ 0 then
    [0, regc.initStatus (toUInt32 node.expires)]
  else if regc.register ≠ 0 then [0, 0, regc.register]
  else [0, 0, 0, regc.send]

/-- The state with a client for the node, before `pjsip_regc_init`. -/
def State.made (s : State) (k : ℕ) : State := (s.goto (.create k)).create k

/-- The state in which the request has been handed to `pjsip_regc_send`. -/
def State.handed (s : State) (k : ℕ) : State :=
  (((s.made k).goto (.register k s.clients.length)).setPhase k s.clients.length .outstanding).goto
    (.send k s.clients.length)

lemma getElem?_made : (s.made k).clients[s.clients.length]? = some ⟨k, .created⟩ := by
  simp [State.made, State.create, State.goto]

lemma count_made :
    (s.made k).count Phase.live j = s.count Phase.live j + if j = k then 1 else 0 :=
  count_live_create

lemma getElem?_handed : (s.handed k).clients[s.clients.length]? = some ⟨k, .outstanding⟩ := by
  have hlt : s.clients.length < (s.made k).clients.length :=
    (List.getElem?_eq_some_iff.1 getElem?_made).1
  exact List.getElem?_set_self hlt

lemma count_handed :
    (s.handed k).count Phase.live j = s.count Phase.live j + if j = k then 1 else 0 := by
  have hset : (s.handed k).count Phase.live j = (s.made k).count Phase.live j :=
    count_live_setPhase getElem?_made rfl rfl
  rw [hset, count_made]

/-- If a call fails, the thread gives the client up, if there is one. -/
lemma run_of_not_succeeds {regc : Regc} {node : SupDomainInfo} (hfail : ¬ Succeeds regc node)
    (hvisit : step gConfig s .visit = some (s.goto (.create k))) :
    ∃ s', Lib.Trace.run (step gConfig) s (.visit :: (results regc node).map .ret) = some s' ∧
      s'.nodes = s.nodes ∧ s'.pc = .visit (k + 1) ∧ s'.succeeded = s.succeeded ∧
      ∀ j, s'.count Phase.live j = s.count Phase.live j := by
  rw [Lib.Trace.run_cons, hvisit, Option.bind_some, results]
  by_cases hcreate : regc.create = 0
  swap
  · refine ⟨s.goto (.visit (k + 1)), ?_, rfl, rfl, rfl, fun j => rfl⟩
    simp [hcreate, step, State.ret, State.goto]
  by_cases hinit : regc.initStatus (toUInt32 node.expires) = 0
  swap
  · refine ⟨(s.made k).giveUp k s.clients.length, ?_, rfl, rfl, rfl, fun j => ?_⟩
    · simp [hcreate, hinit, step, State.ret, State.goto, State.create, State.made]
    · exact count_giveUp_of_created (fun _ => count_made) getElem?_made rfl
  by_cases hregister : regc.register = 0
  swap
  · refine ⟨((s.made k).goto (.register k s.clients.length)).giveUp k s.clients.length, ?_, rfl,
      rfl, rfl, fun j => ?_⟩
    · simp [hcreate, hinit, hregister, step, State.ret, State.goto, State.create, State.made]
    · have hcount : ∀ j, ((s.made k).goto (.register k s.clients.length)).count Phase.live j =
          s.count Phase.live j + if j = k then 1 else 0 := fun _ => count_made
      exact count_giveUp_of_created hcount getElem?_made rfl
  -- the call that fails is `pjsip_regc_send`
  have hsend : regc.send ≠ 0 := fun hsend => hfail ⟨hcreate, hinit, hregister, hsend⟩
  refine ⟨(s.handed k).giveUp k s.clients.length, ?_, rfl, rfl, rfl, fun j => ?_⟩
  · simp [hcreate, hinit, hregister, hsend, step, State.ret, State.goto, State.create,
      State.setPhase, State.giveUp, State.made, State.handed]
  · exact count_giveUp_of_created (fun _ => count_handed) getElem?_handed rfl

/-- If all calls succeed, the client is left behind and the node is counted. -/
lemma run_of_succeeds {regc : Regc} {node : SupDomainInfo} (hsucceed : Succeeds regc node)
    (hvisit : step gConfig s .visit = some (s.goto (.create k))) :
    Lib.Trace.run (step gConfig) s (.visit :: (results regc node).map .ret) =
      some { s.handed k with pc := .visit (k + 1), succeeded := k :: s.succeeded } := by
  obtain ⟨hcreate, hinit, hregister, hsend⟩ := hsucceed
  rw [Lib.Trace.run_cons, hvisit, Option.bind_some, results]
  simp [hcreate, hinit, hregister, hsend, step, State.ret, State.goto, State.create,
    State.setPhase, State.made, State.handed]

/-- If nothing interferes, the timer thread does for a node what `gbRegister` says: it goes on
to the next node with the node counted as a success, and with a client left behind, exactly when
`gbRegister` returns so. -/
theorem run_gbRegister {regc : Regc} {node : SupDomainInfo} {r : Registered}
    (hpc : s.pc = .visit k) (hnode : s.nodes[k]? = some node) (hreg : node.registered = false)
    (h : gbRegister regc gConfig node = .ok r) :
    ∃ s', Lib.Trace.run (step gConfig) s (.visit :: (results regc node).map .ret) = some s' ∧
      s'.nodes = s.nodes ∧ s'.pc = .visit (k + 1) ∧
      s'.succeeded = (if r.ret = 0 then [k] else []) ++ s.succeeded ∧
      ∀ j, s'.count Phase.live j =
        s.count Phase.live j + if j = k ∧ r.live = true then 1 else 0 := by
  obtain ⟨msg, hmsg, hr⟩ := gbRegister_cases h
  have hvisit : step gConfig s .visit = some (s.goto (.create k)) := by
    simp [step, hpc, State.visit, hnode, hreg, hmsg]
  rcases hr with ⟨hfail, rfl⟩ | ⟨hsucceed, rfl⟩
  · obtain ⟨s', hrun, hnodes, hpc', hsucceeded, hcount⟩ := run_of_not_succeeds hfail hvisit
    refine ⟨s', hrun, hnodes, hpc', hsucceeded, fun j => ?_⟩
    simp [hcount j, failed]
  · refine ⟨_, run_of_succeeds hsucceed hvisit, rfl, rfl, rfl, fun j => ?_⟩
    have hcount : (s.handed k).count Phase.live j =
        s.count Phase.live j + if j = k then 1 else 0 := count_handed
    simp only [and_true, ← hcount]
    rfl

/-! ### A service with one upper node -/

/-- The configuration of such a service. -/
def oneNode : SipLocalConfig SupNodeInfo where
  localIp := "127.0.0.1".toList
  localPort := 11300
  sipId := "11000000002000000001".toList
  sipIp := "127.0.0.1".toList
  sipPort := 7101
  nodeInfoList := [⟨"10000000002000000001".toList, "127.0.0.1".toList, 5061, 0, 3600⟩]

/-- `RegisterProc` runs once, and every call of the stack succeeds. -/
def pass : List Event := [.tick, .visit, .ret 0, .ret 0, .ret 0, .ret 0, .visit]

end Sub
