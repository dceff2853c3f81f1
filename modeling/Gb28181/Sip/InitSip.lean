import Mathlib.Data.Nat.Notation
import Gb28181.Lib.Stage

/-!
# Bringing up the SIP stack

`SipCore::InitSip` and `SipCore::init_transport_layer`, which are the same in both services.  What
the calls of the SIP library return is an argument; the model records what is up after them.
-/

namespace Sip

open Lib

/-- `PJ_SUCCESS`. -/
def pjSuccess : ℤ := 0

/-! ### The address of the transports -/

/-- `pj_htons`, which is also `pj_ntohs`, on a little-endian machine. -/
def htons (x : UInt16) : UInt16 := .ofNat (x.toNat % 256 * 256 + x.toNat / 256)

/-- `pj_sockaddr_in`. -/
structure SockaddrIn where
  sinFamily : ℕ
  sinAddr : ℕ
  /-- In network byte order. -/
  sinPort : UInt16
  deriving DecidableEq, Repr

/-- `pj_AF_INET`. -/
def afInet : ℕ := 2

/-- The address for which `init_transport_layer` starts the transports. -/
def transportAddr (sipPort : ℤ) : SockaddrIn := ⟨afInet, 0, htons (UInt16.ofInt sipPort)⟩

/-- The port to which a socket with an address is bound. -/
def SockaddrIn.port (addr : SockaddrIn) : ℕ := (htons addr.sinPort).toNat

lemma toNat_htons (x : UInt16) : (htons x).toNat = x.toNat % 256 * 256 + x.toNat / 256 := by
  have hx : x.toNat < 2 ^ 16 := x.toNat_lt
  rw [htons, UInt16.toNat_ofNat']
  exact Nat.mod_eq_of_lt (by omega)

lemma htons_htons (x : UInt16) : htons (htons x) = x := by
  have hx : x.toNat < 2 ^ 16 := x.toNat_lt
  rw [← UInt16.toNat_inj, toNat_htons, toNat_htons]
  omega

/-- The configured port is cut to 16 bits. -/
lemma port_transportAddr (sipPort : ℤ) : ((transportAddr sipPort).port : ℤ) = sipPort % 65536 := by
  rw [SockaddrIn.port, transportAddr, htons_htons, UInt16.ofInt, UInt16.toNat_ofNat']
  omega

/-! ### The calls -/

/-- What the calls of `InitSip` and `init_transport_layer` return. -/
structure Calls where
  pjInit : ℤ
  pjlibUtilInit : ℤ
  endptCreate : ℤ
  tsxLayerInitModule : ℤ
  uaInitModule : ℤ
  udpTransportStart : ℤ
  tcpTransportStart : ℤ
  endptRegisterModule : ℤ
  /-- `pjsip_endpt_create_pool` does not return a null pointer. -/
  endptCreatePool : Bool
  threadCreate : ℤ
  deriving DecidableEq, Repr

/-- The calls when all of them succeed. -/
def Calls.noFailure : Calls where
  pjInit := pjSuccess
  pjlibUtilInit := pjSuccess
  endptCreate := pjSuccess
  tsxLayerInitModule := pjSuccess
  uaInitModule := pjSuccess
  udpTransportStart := pjSuccess
  tcpTransportStart := pjSuccess
  endptRegisterModule := pjSuccess
  endptCreatePool := true
  threadCreate := pjSuccess

/-- What is up. -/
structure Stack where
  pjlib : Bool := false
  pjlibUtil : Bool := false
  endpt : Bool := false
  tsxLayer : Bool := false
  uaLayer : Bool := false
  udp : Option SockaddrIn := none
  tcp : Option SockaddrIn := none
  recvMod : Bool := false
  pool : Bool := false
  eventThread : Bool := false
  deriving DecidableEq, Repr

/-- `SipCore::init_transport_layer`. -/
def initTransportLayer (calls : Calls) (sipPort : ℤ) : Stage Stack :=
  let addr := transportAddr sipPort
  (Stage.call calls.udpTransportStart ({ · with udp := some addr })).andThen
    (Stage.call calls.tcpTransportStart ({ · with tcp := some addr }))

/-- The end of the block of `InitSip`, which a missing pool leaves with the status of the call
before. -/
def startEventThread (calls : Calls) : Stage Stack := fun stack =>
  if calls.endptCreatePool then
    Stage.call calls.threadCreate ({ · with eventThread := true }) { stack with pool := true }
  else (calls.endptRegisterModule, stack)

/-- The block of `InitSip`. -/
def initStages (calls : Calls) (sipPort : ℤ) : Stage Stack :=
  (Stage.call calls.pjInit ({ · with pjlib := true })).andThen <|
  (Stage.call calls.pjlibUtilInit ({ · with pjlibUtil := true })).andThen <|
  (Stage.call calls.endptCreate ({ · with endpt := true })).andThen <|
  (Stage.call calls.tsxLayerInitModule ({ · with tsxLayer := true })).andThen <|
  (Stage.call calls.uaInitModule ({ · with uaLayer := true })).andThen <|
  (initTransportLayer calls sipPort).andThen <|
  (Stage.call calls.endptRegisterModule ({ · with recvMod := true })).andThen <|
  startEventThread calls

/-- `SipCore::InitSip`, with what is up after it. -/
def initSip (calls : Calls) (sipPort : ℤ) : Bool × Stack :=
  let (status, stack) := initStages calls sipPort {}
  (decide (status = pjSuccess), stack)

/-! ### The transports -/

/-- The addresses of the transports. -/
def Stack.transports (stack : Stack) : List SockaddrIn := stack.udp.toList ++ stack.tcp.toList

variable {calls : Calls} {sipPort : ℤ} {stack : Stack}

/-- The transports have the address of `init_transport_layer`. -/
def Stack.Configured (sipPort : ℤ) (stack : Stack) : Prop :=
  (∀ addr, stack.udp = some addr → addr = transportAddr sipPort) ∧
    ∀ addr, stack.tcp = some addr → addr = transportAddr sipPort

lemma configured_initTransportLayer (h : stack.Configured sipPort) :
    (initTransportLayer calls sipPort stack).2.Configured sipPort := by
  refine Stage.andThen_keeps (Stage.call_keeps ?_) (Stage.call_keeps ?_) stack h
  · rintro stack ⟨-, htcp⟩
    exact ⟨fun addr haddr => (Option.some.inj haddr).symm, htcp⟩
  · rintro stack ⟨hudp, -⟩
    exact ⟨hudp, fun addr haddr => (Option.some.inj haddr).symm⟩

lemma configured_startEventThread (h : stack.Configured sipPort) :
    (startEventThread calls stack).2.Configured sipPort := by
  rw [startEventThread]
  split
  · refine Stage.call_keeps (P := Stack.Configured sipPort) ?_ _ h
    exact fun _ h => h
  · exact h

/-- `InitSip` starts no transport with another address. -/
lemma configured_initSip (calls : Calls) (sipPort : ℤ) :
    (initSip calls sipPort).2.Configured sipPort := by
  have hcall : ∀ {status : ℤ} {up : Stack → Stack} {g : Stage Stack},
      (∀ stack, stack.Configured sipPort → (up stack).Configured sipPort) →
      (∀ stack, stack.Configured sipPort → (g stack).2.Configured sipPort) →
      ∀ stack, stack.Configured sipPort →
        (((Stage.call status up).andThen g) stack).2.Configured sipPort :=
    fun hup hg => Stage.andThen_keeps (Stage.call_keeps hup) hg
  have hdown : ({} : Stack).Configured sipPort :=
    ⟨fun _ h => by simp at h, fun _ h => by simp at h⟩
  refine hcall ?_ (hcall ?_ (hcall ?_ (hcall ?_ (hcall ?_ (Stage.andThen_keeps
    (fun _ => configured_initTransportLayer) (hcall ?_ fun _ => configured_startEventThread))))))
    {} hdown
  all_goals exact fun _ h => h

lemma eq_of_mem_transports {addr : SockaddrIn}
    (h : addr ∈ (initSip calls sipPort).2.transports) : addr = transportAddr sipPort := by
  obtain ⟨hudp, htcp⟩ := configured_initSip calls sipPort
  rw [Stack.transports, List.mem_append, Option.mem_toList, Option.mem_toList] at h
  rcases h with h | h
  · exact hudp addr h
  · exact htcp addr h

/-! ### Success -/

/-- Everything is up that the service needs to receive requests. -/
structure StackUp (stack : Stack) : Prop where
  pjlib : stack.pjlib = true
  pjlibUtil : stack.pjlibUtil = true
  endpt : stack.endpt = true
  tsxLayer : stack.tsxLayer = true
  uaLayer : stack.uaLayer = true
  udp : stack.udp.isSome = true
  tcp : stack.tcp.isSome = true
  recvMod : stack.recvMod = true
  pool : stack.pool = true
  eventThread : stack.eventThread = true

/-- The calls before that for the pool succeed. -/
structure Calls.ReachPool (calls : Calls) : Prop where
  pjInit : calls.pjInit = pjSuccess
  pjlibUtilInit : calls.pjlibUtilInit = pjSuccess
  endptCreate : calls.endptCreate = pjSuccess
  tsxLayerInitModule : calls.tsxLayerInitModule = pjSuccess
  uaInitModule : calls.uaInitModule = pjSuccess
  udpTransportStart : calls.udpTransportStart = pjSuccess
  tcpTransportStart : calls.tcpTransportStart = pjSuccess
  endptRegisterModule : calls.endptRegisterModule = pjSuccess

/-- All the calls succeed. -/
structure Calls.Succeed (calls : Calls) : Prop extends calls.ReachPool where
  endptCreatePool : calls.endptCreatePool = true
  threadCreate : calls.threadCreate = pjSuccess

/-- What is up when the pool is asked for. -/
def Stack.beforePool (sipPort : ℤ) : Stack where
  pjlib := true
  pjlibUtil := true
  endpt := true
  tsxLayer := true
  uaLayer := true
  udp := some (transportAddr sipPort)
  tcp := some (transportAddr sipPort)
  recvMod := true

/-- What the block of `InitSip` cannot end with as long as there is no thread holds at its end when
it gets to the pool and its last two calls lead to it. -/
lemma initStages_iff {Q : ℤ × Stack → Prop}
    (hQ : ∀ status stack, status ≠ 0 → stack.eventThread = false → ¬ Q (status, stack)) :
    Q (initStages calls sipPort {}) ↔
      calls.ReachPool ∧ Q (startEventThread calls (.beforePool sipPort)) := by
  have hcall : ∀ {status : ℤ} {up : Stack → Stack} {g : Stage Stack} {stack : Stack},
      stack.eventThread = false →
      (Q ((Stage.call status up).andThen g stack) ↔ status = 0 ∧ Q (g (up stack))) :=
    fun hstack => Stage.call_andThen_iff fun hs => hQ _ _ hs hstack
  rw [initStages, initTransportLayer, Stage.andThen_assoc, hcall rfl, hcall rfl, hcall rfl,
    hcall rfl, hcall rfl, hcall rfl, hcall rfl, hcall rfl]
  constructor
  · rintro ⟨h₁, h₂, h₃, h₄, h₅, h₆, h₇, h₈, h⟩
    exact ⟨⟨h₁, h₂, h₃, h₄, h₅, h₆, h₇, h₈⟩, h⟩
  · rintro ⟨⟨h₁, h₂, h₃, h₄, h₅, h₆, h₇, h₈⟩, h⟩
    exact ⟨h₁, h₂, h₃, h₄, h₅, h₆, h₇, h₈, h⟩

/-- `InitSip` returns `true` when its calls succeed up to the pool and the thread is created, and
also when there is no pool. -/
lemma initSip_eq_true_iff : (initSip calls sipPort).1 = true ↔
    calls.ReachPool ∧ (calls.endptCreatePool = true → calls.threadCreate = pjSuccess) := by
  have hret : (initSip calls sipPort).1 = true ↔ (initStages calls sipPort {}).1 = 0 :=
    decide_eq_true_iff
  rw [hret, initStages_iff (Q := fun r => r.1 = 0) fun _ _ hs _ => hs]
  apply and_congr_right
  intro h
  rw [startEventThread]
  split
  · next hpool => exact ⟨fun h _ => h, fun h => h hpool⟩
  · -- the status is that of the registration of the module
    next hpool => exact ⟨fun _ h => absurd h hpool, fun _ => h.endptRegisterModule⟩

/-- After `InitSip` everything is up exactly when all its calls succeed. -/
lemma stackUp_initSip_iff : StackUp (initSip calls sipPort).2 ↔ calls.Succeed := by
  have hup : StackUp (initSip calls sipPort).2 ↔ StackUp (initStages calls sipPort {}).2 := Iff.rfl
  rw [hup, initStages_iff (Q := fun r => StackUp r.2) fun _ stack _ hno h =>
    Bool.false_ne_true (hno.symm.trans h.eventThread)]
  constructor
  · rintro ⟨hreach, h⟩
    rw [startEventThread] at h
    split at h
    · next hpool =>
      by_cases hthread : calls.threadCreate = pjSuccess
      · exact ⟨hreach, hpool, hthread⟩
      · rw [Stage.call_failure hthread] at h
        exact absurd h.eventThread Bool.false_ne_true
    · exact absurd h.pool Bool.false_ne_true
  · intro h
    refine ⟨h.toReachPool, ?_⟩
    rw [startEventThread, if_pos h.endptCreatePool, h.threadCreate, pjSuccess, Stage.call_success]
    exact ⟨rfl, rfl, rfl, rfl, rfl, rfl, rfl, rfl, rfl, rfl⟩

end Sip
