import Gb28181.Sip.InitSip
import Gb28181.Sup.GlobalCtl

/-!
# The start of SipSupService

`GlobalCtl::init` and `main`.  `init` drops the result of `InitSip`, and `InitSip` takes a missing
pool for success, so the start tells whether the stack is up exactly when nothing fails
(`startUpSound_iff`).
-/

namespace Sup

open Lib Conf Sip

/-- What `GlobalCtl::init` sets up; there is no `gSipServer` before. -/
structure GlobalCtl where
  subDomainInfoList : List SubDomainInfo := []
  gSipServer : Option Stack := none

/-- `GlobalCtl::init`. -/
def GlobalCtl.init (calls : Calls) (gConfig : Option (SipLocalConfig SubNodeInfo))
    (g : GlobalCtl) : Bool × GlobalCtl :=
  match gConfig with
  | none => (false, g)
  | some conf =>
    let list := g.subDomainInfoList ++ conf.nodeInfoList.map infoOf
    let (_, stack) := initSip calls conf.sipPort
    (true, ⟨list, some stack⟩)

/-- Where `main` gets to. -/
inductive Main where
  | exit (ret : ℤ)
  /-- In its last loop. -/
  | running (g : GlobalCtl)

/-- `main` after `ReadConf`; `createThread` is the result of its own call. -/
def mainWith (calls : Calls) (createThread : ℤ) (config : SipLocalConfig SubNodeInfo) : Main :=
  let (re, g) := GlobalCtl.init calls (some config) {}
  if re = false then .exit (-1)
  else if createThread ≠ 0 then .exit (-1)
  else .running g

/-- `main` of SipSupService. -/
def main (file : Option Text) (stack : Stacks) (calls : Calls) (createThread : ℤ) :
    Except Fault Main := do
  match ← readConfSup file stack with
  | none => return .exit (-1)
  | some config => return mainWith calls createThread config

/-- The start tells whether the stack is up, and `main` goes on only with one that is. -/
structure StartUpSound (calls : Calls) (config : SipLocalConfig SubNodeInfo) : Prop where
  initSip : (initSip calls config.sipPort).1 = true ↔ StackUp (initSip calls config.sipPort).2
  init : ∀ g, (GlobalCtl.init calls (some config) g).1 = true →
    (Sip.initSip calls config.sipPort).1 = true
  main : ∀ file stack createThread g, readConfSup file stack = .ok (some config) →
    main file stack calls createThread = .ok (.running g) →
      ∃ stack, g.gSipServer = some stack ∧ StackUp stack

variable {calls : Calls} {config : SipLocalConfig SubNodeInfo}

/-- The list is that of `Sup.init`. -/
lemma init_subDomainInfoList (g : GlobalCtl) :
    Sup.init (some config) g.subDomainInfoList =
      some (GlobalCtl.init calls (some config) g).2.subDomainInfoList := rfl

/-- `InitSip` tells whether the stack is up unless the pool is the first thing that is missing. -/
theorem initSip_sound_iff {sipPort : ℤ} :
    ((initSip calls sipPort).1 = true ↔ StackUp (initSip calls sipPort).2) ↔
      (calls.ReachPool → calls.endptCreatePool = true) := by
  rw [initSip_eq_true_iff, stackUp_initSip_iff]
  constructor
  · intro h hreach
    by_contra hpool
    -- the thread is not asked for, and `InitSip` returns `true`
    exact hpool (h.1 ⟨hreach, fun hpool' => absurd hpool' hpool⟩).endptCreatePool
  · intro h
    constructor
    · rintro ⟨hreach, hthread⟩
      exact ⟨hreach, h hreach, hthread (h hreach)⟩
    · intro hsucceed
      exact ⟨hsucceed.toReachPool, fun _ => hsucceed.threadCreate⟩

/-- `main` gets to its loop with whatever `InitSip` has left. -/
lemma gSipServer_of_running {createThread : ℤ} {g : GlobalCtl}
    (h : mainWith calls createThread config = .running g) :
    g.gSipServer = some (initSip calls config.sipPort).2 := by
  obtain ⟨list, hinit⟩ : ∃ list, GlobalCtl.init calls (some config) {} =
      (true, ⟨list, some (initSip calls config.sipPort).2⟩) := ⟨_, rfl⟩
  simp only [mainWith, hinit, Bool.true_eq_false, if_false] at h
  split at h
  · exact absurd h (by simp)
  · exact Main.running.inj h ▸ rfl

/-- The start tells whether the stack is up exactly when all the calls of `InitSip` succeed. -/
theorem startUpSound_iff (calls : Calls) (config : SipLocalConfig SubNodeInfo) :
    StartUpSound calls config ↔ calls.Succeed := by
  constructor
  · intro h
    exact stackUp_initSip_iff.1 (h.initSip.1 (h.init {} rfl))
  · intro h
    have hup : StackUp (initSip calls config.sipPort).2 := stackUp_initSip_iff.2 h
    have htrue : (initSip calls config.sipPort).1 = true :=
      initSip_eq_true_iff.2 ⟨h.toReachPool, fun _ => h.threadCreate⟩
    refine ⟨⟨fun _ => hup, fun _ => htrue⟩, fun _ _ => htrue, ?_⟩
    intro file stack createThread g hread hmain
    rw [main, hread, ok_bind] at hmain
    exact ⟨_, gSipServer_of_running (Except.ok.inj hmain), hup⟩

/-! ### A pool that is missing, and a port that is in use -/

/-- A configuration with the port of the configuration file of the repository. -/
def portConf : SipLocalConfig SubNodeInfo where
  localIp := "127.0.1".toList
  localPort := 11300
  sipId := "10000000002000000001".toList
  sipIp := "127.0.1".toList
  sipPort := 5061
  nodeInfoList := []

/-- `InitSip` returns `true` without a thread when there is no pool, and `init` returns `true` when
the port of the transports is in use. -/
theorem not_startUpSound :
    ¬ StartUpSound { Calls.noFailure with endptCreatePool := false } portConf ∧
      ¬ StartUpSound { Calls.noFailure with udpTransportStart := 120098 } portConf := by
  constructor
  · intro h
    exact absurd (h.initSip.1 rfl).eventThread (by decide)
  · intro h
    exact absurd (h.init {} rfl) (by decide)

end Sup
