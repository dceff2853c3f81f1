import Gb28181.Sip.RegClient
import Gb28181.Sub.RegisterProc

/-!
# SipSubService with its registration clients

The service as in `Sub.RegisterProc`, but with the clients in full: their transactions, their
timers and what they repeat by themselves are there, instead of a phase.
-/

namespace Sub.Clients

open Lib Conf Sip

/-- A `pjsip_regc` with the node that is its token. -/
structure Binding where
  token : ℕ
  regc : Registrant
  deriving DecidableEq, Repr

/-- Where the timer thread stands; `sent` is the end of `pjsip_regc_send`, with its result. -/
inductive Pc where
  | wait
  | visit (k : ℕ)
  | create (k : ℕ)
  | init (k c : ℕ)
  | register (k c : ℕ)
  | send (k c : ℕ)
  | sent (k c : ℕ) (status : ℤ)
  deriving DecidableEq, Repr

/-- The state of the service, with the same histories. -/
structure State where
  nodes : List SupDomainInfo
  clients : List Binding
  pc : Pc
  succeeded : List ℕ
  answers : List (ℕ × ℤ)

/-- The service after `GlobalCtl::init`. -/
def start (gConfig : SipLocalConfig SupNodeInfo) : State :=
  ⟨gConfig.nodeInfoList.map infoOf, [], .wait, [], []⟩

/-- What can happen: the timer calls `RegisterProc`, which goes on to a node, or gets the result
of a call; the `i`-th transaction of the client `c` ends; its refresh timer fires. -/
inductive Event where
  | tick
  | visit
  | create (status : ℤ)
  | init (status : ℤ) (cseq : ℕ)
  | register (status : ℤ)
  | send (taken : Taken)
  | sent
  | answer (c i : ℕ) (resp : Response) (reinit register : ℤ) (taken : Taken)
  | timer (c : ℕ) (register : ℤ) (taken : Taken)
  deriving DecidableEq

/-- The thread moves on. -/
def State.goto (s : State) (pc : Pc) : State := { s with pc := pc }

/-- A client has changed. -/
def State.set (s : State) (k c : ℕ) (r : Registrant) : State :=
  { s with clients := s.clients.set c ⟨k, r⟩ }

/-- `client_cb` is called for a node. -/
def State.call (s : State) (k : ℕ) (code : ℤ) : State :=
  { s with nodes := clientCb s.nodes k code, answers := (k, code) :: s.answers }

/-- A client has changed and has called its callback with some codes. -/
def State.change (s : State) (k c : ℕ) (r : Registrant × List ℤ) : State :=
  r.2.foldl (fun s code => s.call k code) (s.set k c r.1)

/-- `gbRegister` destroys its client and returns -1. -/
def State.giveUp (s : State) (k c : ℕ) (r : Registrant) : State :=
  (s.set k c r.destroy).goto (.visit (k + 1))

/-- `RegisterProc` at the `k`-th node. -/
def State.visit (gConfig : SipLocalConfig SupNodeInfo) (s : State) (k : ℕ) : Option State :=
  match s.nodes[k]? with
  | none => some (s.goto .wait)
  | some node =>
    if node.registered then some (s.goto (.visit (k + 1)))
    else
      match formatMessage gConfig node with
      | .error _ => none
      | .ok _ => some (s.goto (.create k))

/-- The expiry that `pjsip_regc_init` is called with. -/
def State.expires (s : State) (k : ℕ) : ℕ :=
  toUInt32 ((s.nodes[k]?.map SupDomainInfo.expires).getD 0)

/-- The result of `pjsip_regc_init`; it refuses the expiry 0 at once. -/
def State.initStatus (s : State) (k : ℕ) (status : ℤ) : ℤ :=
  if s.expires k = 0 then einval else status

/-- A step of the service; `none` says that the event cannot happen, or that the process
crashes. -/
def step (gConfig : SipLocalConfig SupNodeInfo) (s : State) : Event → Option State
  | .tick => if s.pc = .wait then some (s.goto (.visit 0)) else none
  | .visit =>
    match s.pc with
    | .visit k => s.visit gConfig k
    | _ => none
  | .create status =>
    match s.pc with
    | .create k =>
      if status = 0 then
        some { s with clients := s.clients ++ [⟨k, .create⟩], pc := .init k s.clients.length }
      else some (s.goto (.visit (k + 1)))
    | _ => none
  | .init status cseq =>
    match s.pc with
    | .init k c =>
      s.clients[c]?.map fun b =>
        if s.initStatus k status = 0 then
          (s.set k c (b.regc.init (s.expires k) cseq)).goto (.register k c)
        else s.giveUp k c b.regc
    | _ => none
  | .register status =>
    match s.pc with
    | .register k c =>
      s.clients[c]?.map fun b =>
        if status = 0 then (s.set k c (b.regc.register true status)).goto (.send k c)
        else s.giveUp k c (b.regc.register true status)
    | _ => none
  | .send taken =>
    match s.pc with
    | .send k c =>
      s.clients[c]?.map fun b =>
        let r := b.regc.sendCall b.regc.request taken false
        (s.change k c (r.1, r.2.1)).goto (.sent k c r.2.2)
    | _ => none
  | .sent =>
    match s.pc with
    | .sent k c status =>
      s.clients[c]?.map fun b =>
        if status = 0 then
          { s.set k c b.regc.sendReturn with
            pc := .visit (k + 1), succeeded := k :: s.succeeded }
        else s.giveUp k c b.regc.sendReturn
    | _ => none
  | .answer c i resp reinit register taken =>
    match s.clients[c]? with
    | none => none
    | some b =>
      match b.regc.tsxs[i]? with
      | none => none
      | some tsx =>
        if 200 ≤ resp.code then
          some (s.change b.token c ({ b.regc with
            tsxs := b.regc.tsxs.eraseIdx i }.tsxCallback tsx resp reinit register taken false))
        else none
  | .timer c register taken =>
    match s.clients[c]? with
    | none => none
    | some b =>
      if b.regc.timer.isSome then
        some (s.change b.token c (b.regc.refreshTimerCb register taken false))
      else none

end Sub.Clients
