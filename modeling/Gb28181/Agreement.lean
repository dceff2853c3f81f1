import Gb28181.Lib.Network
import Gb28181.Lib.Threads
import Gb28181.Registration
import Gb28181.Sub.Registered
import Gb28181.Sup.LastWrite

/-!
# The agreement of the two services

SipSubService and the SipSupService of one of its upper nodes, with an unreliable network between
them.  Several node lines of the lower service may lead to the same upper service, and all of them
register with one id.  If they have one expiry, then in every run a node that is registered at the
lower service has at the upper one the expiry that the lower service asked for (`agrees_of_run`).
What carries this: all the REGISTERs in flight and in the threads of the upper service have that
expiry, and there is a 200 answer only after `setExpires` has run for one of them.  With two
expiries the services disagree (`not_agrees_twoLinesRun`).
-/

namespace Agreement

open Lib Conf Sip Registration

/-- A SipSubService with its `n`-th upper node: its id has 20 characters, and the node has a
positive expiry.  `leads k` says that the address of the `k`-th node line, too, is that of the upper
service. -/
structure Peer where
  gConfig : SipLocalConfig SupNodeInfo
  n : ℕ
  leads : ℕ → Bool
  upper : SupNodeInfo
  accepted_id : Accepted gConfig.sipId
  accepted_ip : Accepted gConfig.sipIp
  length_id : gConfig.sipId.length = 20
  leads_self : leads n = true
  upper_eq : gConfig.nodeInfoList[n]? = some upper
  isInt32_expires : IsInt32 upper.expires
  expires_pos : 0 < upper.expires

/-- Any configuration that `ReadConf` accepts makes one, with such an id and node. -/
def Peer.ofReadConf {file : Option Text} {stack : Stacks} {conf : SipLocalConfig SupNodeInfo}
    {n : ℕ} {upper : SupNodeInfo} (h : readConfSub file stack = .ok (some conf))
    (leads : ℕ → Bool) (hlen : conf.sipId.length = 20) (hleads : leads n = true)
    (hn : conf.nodeInfoList[n]? = some upper) (hpos : 0 < upper.expires) : Peer where
  gConfig := conf
  n := n
  leads := leads
  upper := upper
  accepted_id := (readConf_eq_some h).1
  accepted_ip := (readConf_eq_some h).2.1
  length_id := hlen
  leads_self := hleads
  upper_eq := hn
  isInt32_expires := Conf.isInt32_expires h (List.mem_of_getElem? hn)
  expires_pos := hpos

/-- The node lines that lead to the upper service have one expiry. -/
def Peer.OneExpiry (peer : Peer) : Prop :=
  ∀ (k : ℕ) (line : SupNodeInfo), peer.leads k = true → peer.gConfig.nodeInfoList[k]? = some line →
    line.expires = peer.upper.expires

/-- The two services and the messages between them: REGISTERs with the client that sent them, and
the status codes of responses with the client they are for.  `origins` says from which client a
task of the upper service is, or that it is from another device. -/
structure State where
  sub : Sub.State
  sup : Sup.State
  origins : List (Option ℕ)
  requests : List (ℕ × Msg)
  responses : List (ℕ × ℤ)

variable (peer : Peer)

/-- The beginning, with the registry of the upper service. -/
def start (list : List Sup.SubDomainInfo) : State :=
  ⟨Sub.start peer.gConfig, Sup.start list, [], [], []⟩

/-- What can happen. -/
inductive Event where
  /-- A step of the lower service other than `client_cb`; a REGISTER that it sends has the tag. -/
  | sub (e : Sub.Event) (tag : Tag)
  /-- A response reaches the lower service. -/
  | response (i : ℕ)
  /-- `client_cb` with a code that the stack made itself, or that another upper node sent. -/
  | otherCode (c : ℕ) (code : ℤ)
  /-- A REGISTER reaches the upper service. -/
  | request (i : ℕ) (cloned threadCreated : Bool)
  /-- A request from another device reaches the upper service. -/
  | otherRequest (msg : Msg) (cloned threadCreated : Bool)
  /-- A step of the thread of a request. -/
  | advance (k : ℕ)
  | requestFate (f : Network.Fate)
  | responseFate (f : Network.Fate)

/-- The node and the client for which a step of the lower service sends a REGISTER. -/
def sends (s : Sub.State) : Sub.Event → Option (ℕ × ℕ)
  | .ret status =>
    match s.pc with
    | .register k c => if status = 0 then some (k, c) else none
    | _ => none
  | .refresh c => s.clients[c]?.map fun cl => (cl.token, c)
  | _ => none

/-- The REGISTER for a node, as it arrives: the first one and those that refresh it have the
headers that `gbRegister` gave to the client. -/
def registerMsg (node : Sub.SupDomainInfo) (tag : Tag) : Option Msg :=
  match Sub.gbRegister ⟨0, 0, 0, 0⟩ peer.gConfig node with
  | .ok r => r.sent.map (received (sentFrom peer.accepted_id peer.accepted_ip tag))
  | .error _ => none

/-- What a step of the lower service sends to the upper service, for whichever of its node lines. -/
def emitted (s : Sub.State) (e : Sub.Event) (tag : Tag) : Option (ℕ × Msg) := do
  let (k, c) ← sends s e
  let node ← s.nodes[k]?
  let msg ← registerMsg peer node tag
  if peer.leads k then some (c, msg) else none

/-- The response that a step of the thread of a request sends to the lower service. -/
def answered (s : State) (k : ℕ) : Option (ℕ × ℤ) := do
  let t ← s.sup.tasks[k]?
  let origin ← s.origins[k]?
  let c ← origin
  match t.pc with
  | .respond code => some (c, code)
  | _ => none

/-- A step of the lower service. -/
def subStep (s : State) (e : Sub.Event) (tag : Tag) : Option State :=
  (Sub.step peer.gConfig s.sub e).map fun sub' =>
    { s with sub := sub', requests := s.requests ++ (emitted peer s.sub e tag).toList }

/-- A request reaches the upper service. -/
def supReceives (s : State) (origin : Option ℕ) (msg : Msg) (cloned threadCreated : Bool) :
    Option State :=
  (Sup.step s.sup (.rx (some msg) cloned threadCreated)).map fun sup' =>
    { s with sup := sup', origins := s.origins ++ [origin] }

/-- A step; `none` says that it cannot happen. -/
def step (s : State) : Event → Option State
  | .sub e tag =>
    match e with
    | .callback _ _ => none
    | e => subStep peer s e tag
  | .response i =>
    (Network.deliver s.responses i).map fun (response, responses) =>
      -- a response that no client waits for is dropped
      { s with
        sub := (Sub.step peer.gConfig s.sub (.callback response.1 response.2)).getD s.sub
        responses := responses }
  | .otherCode c code =>
    match s.sub.clients[c]? with
    | none => none
    | some cl =>
      if cl.token = peer.n ∧ code = 200 then none
      else (Sub.step peer.gConfig s.sub (.callback c code)).map fun sub' => { s with sub := sub' }
  | .request i cloned threadCreated =>
    (Network.deliver s.requests i).bind fun (request, requests) =>
      supReceives { s with requests := requests } (some request.1) request.2 cloned threadCreated
  | .otherRequest msg cloned threadCreated =>
    if msg.method = .register ∧ Sup.parseFromId msg = .ok peer.gConfig.sipId then none
    else supReceives s none msg cloned threadCreated
  | .advance k =>
    (Sup.step s.sup (.advance k)).map fun sup' =>
      { s with sup := sup', responses := s.responses ++ (answered s k).toList }
  | .requestFate f => some { s with requests := Network.suffer s.requests f }
  | .responseFate f => some { s with responses := Network.suffer s.responses f }

/-- `setExpires` has run for the id of the lower service. -/
def Written (sup : Sup.State) : Prop := ∃ w ∈ sup.writes, w.2.1 = peer.gConfig.sipId

/-- The two services agree. -/
structure Agrees (s : State) : Prop where
  /-- A registered node has the expiry at the upper service. -/
  registered : ∀ node, s.sub.nodes[peer.n]? = some node → node.registered = true →
    Sup.expiresOf s.sup.list peer.gConfig.sipId = some peer.upper.expires
  /-- There is a 200 response in flight only after the expiry was set. -/
  answered : ∀ (c : ℕ), (c, 200) ∈ s.responses → Written peer s.sup ∧
    Sup.expiresOf s.sup.list peer.gConfig.sipId = some peer.upper.expires

/-! ### What is kept -/

/-- The message is a REGISTER of the lower service, with the expiry of the node. -/
structure Ours (msg : Msg) : Prop where
  method : msg.method = .register
  id : Sup.parseFromId msg = .ok peer.gConfig.sipId
  expires : msg.expires = some peer.upper.expires

/-- What every run keeps. -/
structure Kept (list₀ : List Sup.SubDomainInfo) (s : State) : Prop where
  sup : Sup.Kept list₀ s.sup
  node : ∀ (k : ℕ) (node : Sub.SupDomainInfo), peer.leads k = true → s.sub.nodes[k]? = some node →
    node.expires = peer.upper.expires
  requests : ∀ r ∈ s.requests, Ours peer r.2
  tasks : ∀ t ∈ s.sup.tasks, t.msg.method = .register →
    Sup.parseFromId t.msg = .ok peer.gConfig.sipId → t.msg.expires = some peer.upper.expires
  origins_length : s.origins.length = s.sup.tasks.length
  origins : ∀ (k c : ℕ) (t : Sup.Task), s.origins[k]? = some (some c) →
    s.sup.tasks[k]? = some t → Ours peer t.msg
  responses : ∀ (c : ℕ), (c, 200) ∈ s.responses → Written peer s.sup
  registered : ∀ node, s.sub.nodes[peer.n]? = some node → node.registered = true →
    Written peer s.sup

variable {peer} {s s' : State} {list₀ : List Sup.SubDomainInfo} {sup sup' : Sup.State}
  {sub sub' : Sub.State} {node : Sub.SupDomainInfo} {tag : Tag} {msg : Msg} {k : ℕ}

/-! #### The REGISTER -/

/-- What `gbRegister` sends for the node is a REGISTER of the lower service. -/
lemma ours_registerMsg (hnode : node.expires = peer.upper.expires)
    (h : registerMsg peer node tag = some msg) : Ours peer msg := by
  have hpos := peer.expires_pos
  unfold registerMsg at h
  split at h
  · next r hr =>
    obtain ⟨req, hsent, rfl⟩ := Option.map_eq_some_iff.1 h
    obtain ⟨m, hmsg, -⟩ := Sub.gbRegister_cases hr
    simp only [Sub.formatMessage, bind_eq_ok] at hmsg
    obtain ⟨f, hfits, -⟩ := hmsg
    have hwindow : Sup.idWindow (sentFrom peer.accepted_id peer.accepted_ip tag) =
        peer.gConfig.sipId :=
      Sup.idWindow_eq_user (length_text_sentFrom peer.accepted_id peer.accepted_ip hfits) rfl rfl
        peer.length_id
    have hexpires : req.expires = some peer.upper.expires := by
      rw [(Sub.expires_of_sent hr hsent).2, hnode, setExpiresHdr_toUInt32 peer.isInt32_expires,
        if_neg (by omega)]
    refine ⟨rfl, ?_, ?_⟩
    · rw [received, Sup.parseFromId_eq, hwindow]
    · rw [received, hexpires, Option.map_some, parseIntHdr_printIntHdr peer.isInt32_expires]
  · exact absurd h (by simp)

/-! #### The upper service -/

/-- The expiry of the id is that of its REGISTERs once `setExpires` has run for it. -/
lemma expiresOf_of_written (hs : Sup.Kept list₀ sup) (hmem : peer.gConfig.sipId ∈ Sup.ids list₀)
    (htasks : ∀ t ∈ sup.tasks, t.msg.method = .register →
      Sup.parseFromId t.msg = .ok peer.gConfig.sipId → t.msg.expires = some peer.upper.expires)
    (hw : Written peer sup) :
    Sup.expiresOf sup.list peer.gConfig.sipId = some peer.upper.expires := by
  obtain ⟨w, hw, hid⟩ := hw
  have hne : sup.writesOf peer.gConfig.sipId ≠ [] :=
    List.ne_nil_of_mem (List.mem_filter.2 ⟨hw, beq_iff_eq.2 hid⟩)
  have hlast := List.getLast?_eq_some_getLast hne
  obtain ⟨hw', hid'⟩ := List.mem_filter.1 (List.getLast_mem hne)
  rw [beq_iff_eq] at hid'
  obtain ⟨t, ht, hreg, hexp⟩ := hs.writes _ hw'
  rw [hid'] at hreg
  rw [hs.expires _ hmem _ hlast, ← hexp]
  exact htasks t (List.mem_of_getElem? ht) hreg.1 hreg.2.1

/-- `setExpires` has run for a REGISTER of the lower service that is answered. -/
lemma written_of_passed (hs : Sup.Kept list₀ sup) (hmem : peer.gConfig.sipId ∈ Sup.ids list₀)
    {t : Sup.Task} (hk : sup.tasks[k]? = some t) (ht : Ours peer t.msg)
    (hpassed : t.pc.passed = true) : Written peer sup := by
  obtain ⟨w, hw, rfl⟩ := List.mem_map.1
    ((hs.tasks k t hk).after hpassed ht.method _ ht.id hmem)
  obtain ⟨u, hu, hreg, -⟩ := hs.writes w hw
  obtain rfl : t = u := Option.some.inj (hk.symm.trans hu)
  exact ⟨w, hw, Except.ok.inj (hreg.2.1.symm.trans ht.id)⟩

/-- A received request gets a task of its own. -/
lemma tasks_of_rx {cloned threadCreated : Bool}
    (h : Sup.step sup (.rx (some msg) cloned threadCreated) = some sup') :
    sup'.tasks = sup.tasks ++ [Sup.newTask msg cloned threadCreated] ∧
      sup'.writes = sup.writes := by
  rw [Sup.step] at h
  split at h
  · exact absurd h (by simp)
  · obtain rfl := Option.some.inj h
    exact ⟨rfl, rfl⟩

/-- A thread leaves the requests as they are, and takes back no call of `setExpires`. -/
lemma tasks_of_advance (h : Sup.step sup (.advance k) = some sup') :
    sup'.tasks.length = sup.tasks.length ∧
      (∀ (j : ℕ) (t : Sup.Task), sup'.tasks[j]? = some t →
        ∃ u : Sup.Task, sup.tasks[j]? = some u ∧ t.msg = u.msg) ∧
      ∀ w ∈ sup.writes, w ∈ sup'.writes := by
  rcases Sup.step_cases h with rfl | ⟨_, _, _, he, -⟩ | ⟨_, _, _, -, -, -, rfl⟩ |
    ⟨i, u, pc, -, hi, -, rfl⟩
  · exact ⟨rfl, fun j t hj => ⟨t, hj, rfl⟩, fun w hw => hw⟩
  · exact Sup.Event.noConfusion he
  · exact ⟨rfl, fun j t hj => ⟨t, hj, rfl⟩, fun w hw => hw⟩
  · refine ⟨List.length_set, fun j t hj => ?_, fun w hw => ?_⟩
    · have hj' : (sup.tasks.set i (u.moved pc))[j]? = some t := hj
      rcases getElem?_set_cases hj' with ⟨rfl, rfl⟩ | ⟨-, hj'⟩
      · exact ⟨u, hi, rfl⟩
      · exact ⟨t, hj', rfl⟩
    · unfold Sup.State.move
      split
      · exact List.mem_append_left _ hw
      · exact hw

/-! #### The lower service -/

/-- Only `client_cb` changes a node. -/
lemma nodes_of_step {e : Sub.Event} (he : ∀ c code, e ≠ .callback c code)
    (h : Sub.step peer.gConfig sub e = some sub') : sub'.nodes = sub.nodes := by
  cases Sub.goes_of_step h with
  | callback => exact absurd rfl (he _ _)
  | _ => rfl

lemma nodes_of_callback {c : ℕ} {code : ℤ}
    (h : Sub.step peer.gConfig sub (.callback c code) = some sub') :
    ∃ cl, sub.clients[c]? = some cl ∧ sub'.nodes = Sub.clientCb sub.nodes cl.token code := by
  cases Sub.goes_of_step h with
  | callback hc => exact ⟨_, hc, rfl⟩

/-- `client_cb` sets the flag of its node when the code is 200. -/
lemma node_of_clientCb {nodes : List Sub.SupDomainInfo} {token : ℕ} {code : ℤ}
    (h : (Sub.clientCb nodes token code)[k]? = some node) :
    ∃ node₀, nodes[k]? = some node₀ ∧ node.expires = node₀.expires ∧
      (node.registered = true → node₀.registered = true ∨ token = k ∧ code = 200) := by
  rw [Sub.clientCb] at h
  split at h
  · next hcode =>
    rw [List.getElem?_modify] at h
    obtain ⟨node₀, hnode₀, rfl⟩ := Option.map_eq_some_iff.1 h
    by_cases htoken : token = k
    · refine ⟨node₀, hnode₀, ?_, fun _ => Or.inr ⟨htoken, hcode⟩⟩
      rw [if_pos htoken]
    · rw [if_neg htoken]
      exact ⟨node₀, hnode₀, rfl, Or.inl⟩
  · exact ⟨node, h, rfl, Or.inl⟩

/-- A call of `client_cb` keeps the invariant if it comes with 200 for the node only after the
expiry was set. -/
lemma kept_callback {c : ℕ} {code : ℤ} (hs : Kept peer list₀ s)
    (h : Sub.step peer.gConfig s.sub (.callback c code) = some sub')
    (hcode : ∀ cl, s.sub.clients[c]? = some cl → cl.token = peer.n → code = 200 →
      Written peer s.sup) : Kept peer list₀ { s with sub := sub' } := by
  obtain ⟨cl, hcl, hnodes⟩ := nodes_of_callback h
  refine ⟨hs.sup, fun k node hleads hnode => ?_, hs.requests, hs.tasks, hs.origins_length,
    hs.origins, hs.responses, fun node hnode hreg => ?_⟩
  · have hnode' : (Sub.clientCb s.sub.nodes cl.token code)[k]? = some node := hnodes ▸ hnode
    obtain ⟨node₀, hnode₀, hexp, -⟩ := node_of_clientCb hnode'
    exact hexp.trans (hs.node k node₀ hleads hnode₀)
  · have hnode' : (Sub.clientCb s.sub.nodes cl.token code)[peer.n]? = some node := hnodes ▸ hnode
    obtain ⟨node₀, hnode₀, -, hflag⟩ := node_of_clientCb hnode'
    rcases hflag hreg with hreg₀ | ⟨htoken, hok⟩
    · exact hs.registered node₀ hnode₀ hreg₀
    · exact hcode cl hcl htoken hok

/-! #### One step -/

lemma kept_subStep {e : Sub.Event} (hs : Kept peer list₀ s) (he : ∀ c code, e ≠ .callback c code)
    (h : subStep peer s e tag = some s') : Kept peer list₀ s' := by
  obtain ⟨sub', hstep, rfl⟩ := Option.map_eq_some_iff.1 h
  have hnodes := nodes_of_step he hstep
  refine ⟨hs.sup, fun k node hleads hnode => hs.node k node hleads (hnodes ▸ hnode),
    fun r hr => ?_, hs.tasks, hs.origins_length, hs.origins, hs.responses,
    fun node hnode => hs.registered node (hnodes ▸ hnode)⟩
  rcases List.mem_append.1 hr with hr | hr
  · exact hs.requests r hr
  · -- the request that the step sends
    have hr := Option.mem_toList.1 hr
    simp only [emitted, Option.bind_eq_bind, Option.bind_eq_some_iff] at hr
    obtain ⟨⟨j, c⟩, -, node, hnode, msg, hmsg, hr⟩ := hr
    split at hr
    · next hleads =>
      obtain rfl := Option.some.inj hr
      exact ours_registerMsg (hs.node j node hleads hnode) hmsg
    · exact absurd hr (by simp)

lemma kept_supReceives {origin : Option ℕ} {cloned threadCreated : Bool} (hs : Kept peer list₀ s)
    (hours : ∀ c, origin = some c → Ours peer msg)
    (hother : msg.method = .register → Sup.parseFromId msg = .ok peer.gConfig.sipId →
      msg.expires = some peer.upper.expires)
    (h : supReceives s origin msg cloned threadCreated = some s') : Kept peer list₀ s' := by
  obtain ⟨sup', hstep, rfl⟩ := Option.map_eq_some_iff.1 h
  obtain ⟨htasks, hwrites⟩ := tasks_of_rx hstep
  have hwritten : Written peer s.sup → Written peer sup' := by
    rw [Written, Written, hwrites]
    exact id
  refine ⟨Sup.kept_step hs.sup hstep, hs.node, hs.requests, fun t ht => ?_, ?_,
    fun k c t hk ht => ?_, fun c hc => hwritten (hs.responses c hc),
    fun node hnode hreg => hwritten (hs.registered node hnode hreg)⟩
  · rcases List.mem_append.1 (htasks ▸ ht) with ht | ht
    · exact hs.tasks t ht
    · obtain rfl := List.mem_singleton.1 ht
      exact hother
  · rw [htasks, List.length_append, List.length_append, hs.origins_length]
    rfl
  · rw [htasks] at ht
    rcases getElem?_concat_cases ht with ht | ⟨rfl, rfl⟩
    · have hlt := (List.getElem?_eq_some_iff.1 ht).1
      rw [List.getElem?_append_left (hs.origins_length ▸ hlt)] at hk
      exact hs.origins k c t hk ht
    · -- the new request
      rw [← hs.origins_length, List.getElem?_concat_length] at hk
      exact hours c (Option.some.inj hk)

/-- A 200 response comes from a thread that has called `setExpires`. -/
lemma kept_advance (hs : Kept peer list₀ s) (hmem : peer.gConfig.sipId ∈ Sup.ids list₀)
    (hstep : Sup.step s.sup (.advance k) = some sup') :
    Kept peer list₀ { s with
      sup := sup', responses := s.responses ++ (answered s k).toList } := by
  obtain ⟨hlength, htasks, hwrites⟩ := tasks_of_advance hstep
  have hwritten : Written peer s.sup → Written peer sup' := by
    rintro ⟨w, hw, hid⟩
    exact ⟨w, hwrites w hw, hid⟩
  refine ⟨Sup.kept_step hs.sup hstep, hs.node, hs.requests, fun t ht => ?_,
    hs.origins_length.trans hlength.symm, fun j c t hj ht => ?_, fun c hc => ?_,
    fun node hnode hreg => hwritten (hs.registered node hnode hreg)⟩
  · obtain ⟨j, hj⟩ := List.getElem?_of_mem ht
    obtain ⟨u, hu, hmsg⟩ := htasks j t hj
    rw [hmsg]
    exact hs.tasks u (List.mem_of_getElem? hu)
  · obtain ⟨u, hu, hmsg⟩ := htasks j t ht
    rw [hmsg]
    exact hs.origins j c u hj hu
  · apply hwritten
    rcases List.mem_append.1 hc with hc | hc
    · exact hs.responses c hc
    · -- the response that the step sends
      have hc := Option.mem_toList.1 hc
      simp only [answered, Option.bind_eq_bind, Option.bind_eq_some_iff] at hc
      obtain ⟨t, ht, origin, horigin, d, rfl, hc⟩ := hc
      split at hc
      · next code hpc =>
        refine written_of_passed hs.sup hmem ht (hs.origins k d t horigin ht) ?_
        rw [hpc]
        rfl
      · exact absurd hc (by simp)

/-- A response is taken off the network, and then `client_cb` may be called. -/
lemma kept_response {i : ℕ} (hs : Kept peer list₀ s) (h : step peer s (.response i) = some s') :
    Kept peer list₀ s' := by
  obtain ⟨⟨⟨c, code⟩, rest⟩, hdeliver, rfl⟩ := Option.map_eq_some_iff.1 h
  obtain ⟨hmsg, hrest⟩ := Network.mem_of_deliver hdeliver
  have hs' : Kept peer list₀ { s with responses := rest } :=
    { hs with responses := fun c hc => hs.responses c (hrest _ hc) }
  cases hstep : Sub.step peer.gConfig s.sub (.callback c code) with
  | none =>
    simp only [hstep, Option.getD_none]
    exact hs'
  | some sub' =>
    simp only [hstep, Option.getD_some]
    refine kept_callback hs' hstep fun _ _ _ hcode => ?_
    subst hcode
    exact hs.responses c hmsg

lemma kept_step {e : Event} (hs : Kept peer list₀ s) (hmem : peer.gConfig.sipId ∈ Sup.ids list₀)
    (h : step peer s e = some s') : Kept peer list₀ s' := by
  cases e with
  | sub e tag =>
    cases e with
    | callback c code => exact absurd h (by simp [step])
    | tick => exact kept_subStep hs (by simp) h
    | visit => exact kept_subStep hs (by simp) h
    | ret status => exact kept_subStep hs (by simp) h
    | refresh c => exact kept_subStep hs (by simp) h
  | response i => exact kept_response hs h
  | otherCode c code =>
    simp only [step] at h
    split at h
    · exact absurd h (by simp)
    · next cl hcl =>
      split at h
      · exact absurd h (by simp)
      · -- it is no 200 for a client of the node
        next hnot =>
        obtain ⟨sub', hstep, rfl⟩ := Option.map_eq_some_iff.1 h
        refine kept_callback hs hstep fun cl' hcl' htoken hcode => ?_
        obtain rfl : cl = cl' := Option.some.inj (hcl.symm.trans hcl')
        exact absurd ⟨htoken, hcode⟩ hnot
  | request i cloned threadCreated =>
    obtain ⟨⟨⟨c, msg⟩, rest⟩, hdeliver, h⟩ := Option.bind_eq_some_iff.1 h
    obtain ⟨hmsg, hrest⟩ := Network.mem_of_deliver hdeliver
    have hours : Ours peer msg := hs.requests _ hmsg
    have hs' : Kept peer list₀ { s with requests := rest } :=
      { hs with requests := fun r hr => hs.requests r (hrest r hr) }
    exact kept_supReceives hs' (fun _ _ => hours) (fun _ _ => hours.expires) h
  | otherRequest msg cloned threadCreated =>
    simp only [step] at h
    split at h
    · exact absurd h (by simp)
    · -- it is no REGISTER of this device
      next hnot =>
      refine kept_supReceives hs ?_ (fun hmethod hid => absurd ⟨hmethod, hid⟩ hnot) h
      intro c hc
      exact absurd hc (by simp)
  | advance k =>
    obtain ⟨sup', hstep, rfl⟩ := Option.map_eq_some_iff.1 h
    exact kept_advance hs hmem hstep
  | requestFate f =>
    obtain rfl := Option.some.inj h
    exact { hs with requests := fun r hr => hs.requests r (Network.mem_of_mem_suffer hr) }
  | responseFate f =>
    obtain rfl := Option.some.inj h
    exact { hs with responses := fun c hc => hs.responses c (Network.mem_of_mem_suffer hc) }

/-! #### A run -/

lemma kept_start (hone : peer.OneExpiry) (list : List Sup.SubDomainInfo) :
    Kept peer list (start peer list) := by
  have hnode : ∀ (k : ℕ) (node : Sub.SupDomainInfo), (start peer list).sub.nodes[k]? = some node →
      ∃ line, peer.gConfig.nodeInfoList[k]? = some line ∧ node = Sub.infoOf line := by
    intro k node hnode
    rw [start, Sub.start, List.getElem?_map] at hnode
    obtain ⟨line, hline, rfl⟩ := Option.map_eq_some_iff.1 hnode
    exact ⟨line, hline, rfl⟩
  refine ⟨Sup.kept_start list, fun k node hleads h => ?_, fun r hr => absurd hr List.not_mem_nil,
    fun t ht => absurd ht List.not_mem_nil, rfl, fun k c t hk => absurd hk (by simp [start]),
    fun c hc => absurd hc List.not_mem_nil, fun node h hreg => ?_⟩
  · obtain ⟨line, hline, rfl⟩ := hnode k node h
    exact hone k line hleads hline
  · obtain ⟨line, -, rfl⟩ := hnode peer.n node h
    exact absurd hreg Bool.false_ne_true

/-- If the node lines that lead to the upper service have one expiry, the two services agree in
every run, whatever becomes of the messages between them. -/
theorem agrees_of_run {list : List Sup.SubDomainInfo} {es : List Event} (hone : peer.OneExpiry)
    (hmem : peer.gConfig.sipId ∈ Sup.ids list)
    (h : Lib.Trace.run (step peer) (start peer list) es = some s) : Agrees peer s := by
  have hs : Kept peer list s :=
    Lib.Trace.invariant (kept_start hone list) (fun _ _ _ hs h => kept_step hs hmem h) h
  have hexpires : Written peer s.sup →
      Sup.expiresOf s.sup.list peer.gConfig.sipId = some peer.upper.expires :=
    expiresOf_of_written hs.sup hmem hs.tasks
  refine ⟨fun node hnode hreg => ?_, fun c hc => ?_⟩
  · exact hexpires (hs.registered node hnode hreg)
  · have hwritten := hs.responses c hc
    exact ⟨hwritten, hexpires hwritten⟩

/-! ### Two files -/

/-- The service of the file with an expiry of one minute. -/
def minutePeer : Peer :=
  .ofReadConf (n := 0) (readConfSub_oneSupNode (f := minuteFile) rfl) (fun _ => true) rfl rfl rfl
    (by decide)

/-- Its only node line has one expiry. -/
lemma oneExpiry_minutePeer : minutePeer.OneExpiry := by
  intro k line _ hline
  obtain rfl := List.mem_singleton.1 (List.mem_of_getElem? hline)
  rfl

/-- The next node is visited, and all the calls for its client succeed. -/
def registers : List Event :=
  .sub .visit sampleTag :: List.replicate 4 (.sub (.ret 0) sampleTag)

/-- The first answer is lost, the REGISTER arrives twice, and the second answer arrives. -/
def lossyRun : List Event :=
  .sub .tick sampleTag :: registers ++ [.requestFate (.duplicate 0), .request 0 true true] ++
    List.replicate 4 (.advance 0) ++ [.responseFate (.lose 0), .request 0 true true] ++
    List.replicate 4 (.advance 1) ++ [.response 0]

/-- What the run leads to. -/
lemma run_lossyRun : ∃ s, Lib.Trace.run (step minutePeer) (start minutePeer Sup.oneNode)
    lossyRun = some s ∧ s.sub.nodes.map (·.registered) = [true] :=
  ⟨_, rfl, rfl⟩

/-- The node is registered after this run, and has its minute. -/
theorem agrees_lossyRun : ∃ s, Lib.Trace.run (step minutePeer) (start minutePeer Sup.oneNode)
    lossyRun = some s ∧ s.sub.nodes.map (·.registered) = [true] ∧ Agrees minutePeer s := by
  obtain ⟨s, hrun, hreg⟩ := run_lossyRun
  exact ⟨s, hrun, hreg, agrees_of_run oneExpiry_minutePeer (by decide) hrun⟩

/-- Settings with two lines for one upper service, one with a minute and one with an hour. -/
def twoLinesSettings : Settings :=
  sampleSettings ⟨_, printable_subId⟩ [sampleNode ⟨_, printable_supId⟩ (.ofNat 5061) (.ofNat 60),
    sampleNode ⟨_, printable_supId⟩ (.ofNat 5061) (.ofNat 3600)]

/-- The file with these settings. -/
def twoLinesFile : ConfFile supNodeKeys :=
  .ofLayout supNodeKeys twoLinesSettings (by decide +kernel)

lemma readConfSub_twoLinesFile : readConfSub (some twoLinesFile.text) zeroStacks =
    .ok (some { oneSupConf 60 with nodeInfoList := [supNode 60, supNode 3600] }) := by
  have hnodes : (loadedNodes twoLinesSettings.nodes).map (PeerNode.info SupNodeInfo.mk) =
      [supNode 60, supNode 3600] :=
    (map_loadedNodes_eq_iff PeerNode.sup_injective).2
      (leadingDigitsAgree_of_length_le (show 2 ≤ 9 by decide))
  have hsettings : twoLinesFile.settings = twoLinesSettings := rfl
  rw [readConfSub, twoLinesFile.readConf_eq wellNamed_supNodeKeys, hsettings, hnodes]
  rfl

/-- The service of this file with its first line. -/
def twoLinesPeer : Peer :=
  .ofReadConf (n := 0) readConfSub_twoLinesFile (fun _ => true) rfl rfl rfl (by decide)

/-- The first line is registered, and then the REGISTER of the second one arrives. -/
def twoLinesRun : List Event :=
  .sub .tick sampleTag :: registers ++ .request 0 true true :: List.replicate 4 (.advance 0) ++
    .response 0 :: registers ++ .request 0 true true :: List.replicate 4 (.advance 1)

/-- The upper service has the hour of the second line then, and the first one is registered. -/
theorem not_agrees_twoLinesRun : twoLinesPeer.gConfig.sipId ∈ Sup.ids Sup.oneNode ∧
    ∃ s, Lib.Trace.run (step twoLinesPeer) (start twoLinesPeer Sup.oneNode) twoLinesRun = some s ∧
      ¬ Agrees twoLinesPeer s := by
  refine ⟨by decide, _, rfl, fun h => ?_⟩
  have hexpires := h.registered _ rfl rfl
  exact absurd hexpires (by decide)

end Agreement
