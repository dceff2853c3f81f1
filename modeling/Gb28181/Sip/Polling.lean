import Mathlib.Data.Int.Notation
import Mathlib.Data.Nat.Notation
import Gb28181.Lib.Trace

/-!
# The polling thread and the end of the endpoint

`pollingEvent` against `~SipCore`, which are the same in both services.  The destructor sets
`gStopPool` last and does not wait for the thread, so the thread keeps off the destroyed endpoint,
whatever follows, exactly when it has ended by then (`always_safe_iff`).
-/

namespace Sip.Polling

open Lib

/-- Where the thread stands in `pollingEvent`. -/
inductive Pc where
  | testStop
  /-- Before `pjsip_endpt_handle_events`. -/
  | invoke
  /-- In `pjsip_endpt_handle_events`. -/
  | executing
  | ended
  deriving DecidableEq, Repr

/-- How far `~SipCore` has come. -/
inductive Dtor where
  | alive
  /-- After `pjsip_endpt_destroy`. -/
  | endptDestroyed
  /-- After `pj_caching_pool_destroy`. -/
  | poolDestroyed
  /-- After `pj_shutdown`. -/
  | shutDown
  /-- After the flag was set. -/
  | done
  deriving DecidableEq, Repr

/-- The thread and the endpoint.  `deadCalls` is a history: how many times
`pjsip_endpt_handle_events` was invoked on an endpoint that had been destroyed. -/
structure State where
  pc : Pc
  dtor : Dtor
  gStopPool : Bool
  deadCalls : ℕ
  deriving DecidableEq, Repr

/-- After `InitSip`; `created` says whether it got as far as the thread. -/
def start (created : Bool) : State := ⟨if created then .testStop else .ended, .alive, false, 0⟩

/-- The atomic steps. -/
inductive Event where
  /-- A step of the thread; `status` is what `pjsip_endpt_handle_events` returns when it ends. -/
  | poll (status : ℤ)
  | endptDestroy
  | cachingPoolDestroy
  | shutdown
  | setStopPool
  deriving DecidableEq, Repr

/-- A step of the thread. -/
def State.poll (s : State) (status : ℤ) : Option State :=
  match s.pc with
  | .testStop => some { s with pc := if s.gStopPool then .ended else .invoke }
  | .invoke => some { s with
      pc := .executing
      deadCalls := s.deadCalls + if s.dtor = .alive then 0 else 1 }
  | .executing => some { s with pc := if status ≠ 0 then .ended else .testStop }
  | .ended => none

/-- A step; `none` says that it cannot happen. -/
def step (s : State) : Event → Option State
  | .poll status => s.poll status
  | .endptDestroy => if s.dtor = .alive then some { s with dtor := .endptDestroyed } else none
  | .cachingPoolDestroy =>
    if s.dtor = .endptDestroyed then some { s with dtor := .poolDestroyed } else none
  | .shutdown => if s.dtor = .poolDestroyed then some { s with dtor := .shutDown } else none
  | .setStopPool =>
    if s.dtor = .shutDown then some { s with dtor := .done, gStopPool := true } else none

/-- `pjsip_endpt_handle_events` was not invoked on a destroyed endpoint, and does not execute with
one. -/
structure Safe (s : State) : Prop where
  calls : s.deadCalls = 0
  notExecuting : s.dtor ≠ .alive → s.pc ≠ .executing

/-- So it is in this state and in whatever can follow. -/
def StaysSafe (s : State) : Prop := Trace.Stays step .endptDestroy Safe s

/-- The endpoint is destroyed when the thread has ended. -/
def DestroyedAfterEnd (s : State) (e : Event) : Prop := e = .endptDestroy → s.pc = .ended

/-- As long as the endpoint is there, nothing was invoked on a destroyed one, and the flag is not
set. -/
structure Early (s : State) : Prop where
  calls : s.dtor = .alive → s.deadCalls = 0
  flag : s.dtor = .alive → s.gStopPool = false

variable {s s' : State} {e : Event} {status : ℤ}

/-- What a step can be. -/
inductive Goes (s : State) : Event → State → Prop
  | test (status : ℤ) (hpc : s.pc = .testStop) :
      Goes s (.poll status) { s with pc := if s.gStopPool then .ended else .invoke }
  | invoke (status : ℤ) (hpc : s.pc = .invoke) :
      Goes s (.poll status) { s with
        pc := .executing
        deadCalls := s.deadCalls + if s.dtor = .alive then 0 else 1 }
  | handled (status : ℤ) (hpc : s.pc = .executing) :
      Goes s (.poll status) { s with pc := if status ≠ 0 then .ended else .testStop }
  | endptDestroy (hd : s.dtor = .alive) : Goes s .endptDestroy { s with dtor := .endptDestroyed }
  | destructor {e : Event} (dtor : Dtor) (flag : Bool) (he : e ≠ .endptDestroy)
      (hd : s.dtor ≠ .alive) (hd' : dtor ≠ .alive) :
      Goes s e { s with dtor := dtor, gStopPool := flag }

lemma goes_of_step (h : step s e = some s') : Goes s e s' := by
  cases e with
  | poll status =>
    rw [step, State.poll] at h
    split at h
    · next hpc => exact Option.some.inj h ▸ .test status hpc
    · next hpc => exact Option.some.inj h ▸ .invoke status hpc
    · next hpc => exact Option.some.inj h ▸ .handled status hpc
    · exact absurd h (by simp)
  | endptDestroy =>
    rw [step, Option.ite_none_right_eq_some] at h
    exact Option.some.inj h.2 ▸ .endptDestroy h.1
  | cachingPoolDestroy | shutdown | setStopPool =>
    rw [step, Option.ite_none_right_eq_some] at h
    obtain ⟨hd, h⟩ := h
    exact Option.some.inj h ▸ .destructor _ _ (by simp) (by simp [hd]) (by simp)

lemma early_step (hs : Early s) (h : step s e = some s') : Early s' := by
  cases goes_of_step h with
  | test | handled => exact ⟨hs.calls, hs.flag⟩
  | invoke =>
    refine ⟨fun hd => ?_, hs.flag⟩
    have hd : s.dtor = .alive := hd
    simp only [if_pos hd, hs.calls hd]
  | endptDestroy => exact ⟨fun hd => absurd hd (by simp), fun hd => absurd hd (by simp)⟩
  | destructor _ _ _ _ hd' => exact ⟨fun hd => absurd hd hd', fun hd => absurd hd hd'⟩

/-- The thread has ended if the endpoint is destroyed, and was never late. -/
structure Settled (s : State) : Prop where
  ended : s.dtor ≠ .alive → s.pc = .ended
  calls : s.deadCalls = 0

lemma safe_of_settled (hs : Settled s) : Safe s := by
  refine ⟨hs.calls, fun hd hpc => ?_⟩
  exact Pc.noConfusion ((hs.ended hd).symm.trans hpc)

/-- Only the destruction of the endpoint under a running thread unsettles. -/
lemma settled_step (hs : Settled s) (he : DestroyedAfterEnd s e) (h : step s e = some s') :
    Settled s' := by
  cases goes_of_step h with
  | test _ hpc | handled _ hpc =>
    refine ⟨fun hd => ?_, hs.calls⟩
    exact Pc.noConfusion ((hs.ended hd).symm.trans hpc)
  | invoke _ hpc =>
    -- a thread that has not ended shows that the endpoint is there
    have halive : s.dtor = .alive := by
      by_contra hd
      exact Pc.noConfusion ((hs.ended hd).symm.trans hpc)
    exact ⟨fun hd => absurd halive hd, by simpa [halive] using hs.calls⟩
  | endptDestroy => exact ⟨fun _ => he rfl, hs.calls⟩
  | destructor _ _ _ hd => exact ⟨fun _ => hs.ended hd, hs.calls⟩

lemma staysSafe_of_settled (hs : Settled s) : StaysSafe s :=
  Trace.stays_of_invariant hs (fun _ _ _ hs he => settled_step hs fun he' => absurd he' he)
    fun _ => safe_of_settled

/-- A thread that is about to invoke `pjsip_endpt_handle_events` does so. -/
lemma not_staysSafe_of_invoke (hpc : s.pc = .invoke) (hd : s.dtor ≠ .alive) : ¬ StaysSafe s := by
  intro hs
  have hcall : step s (.poll 0) =
      some { s with pc := .executing, deadCalls := s.deadCalls + 1 } := by
    rw [step, State.poll, hpc]
    simp [hd]
  have hlate := (Trace.stays_step hs (by simp) hcall).holds.calls
  exact Nat.succ_ne_zero _ hlate

/-- After the destruction of the endpoint all is well exactly when the thread had ended. -/
lemma staysSafe_endptDestroy_iff (hearly : Early s) (h : step s .endptDestroy = some s') :
    StaysSafe s' ↔ s.pc = .ended := by
  cases goes_of_step h with
  | destructor _ _ he => exact absurd rfl he
  | endptDestroy hd =>
    constructor
    · intro hs
      cases hpc : s.pc with
      | ended => rfl
      | executing => exact absurd hpc (hs.holds.notExecuting (by simp))
      | invoke => exact absurd hs (not_staysSafe_of_invoke hpc (by simp))
      | testStop =>
        exfalso
        -- the flag is not set yet
        have htest : step { s with dtor := .endptDestroyed } (.poll 0) =
            some { s with dtor := .endptDestroyed, pc := .invoke } := by
          simp [step, State.poll, hpc, hearly.flag hd]
        have hs' : StaysSafe { s with dtor := .endptDestroyed, pc := .invoke } :=
          Trace.stays_step hs (by simp) htest
        exact not_staysSafe_of_invoke rfl (by simp) hs'
    · intro hpc
      exact staysSafe_of_settled ⟨fun _ => hpc, hearly.calls hd⟩

/-- In a run in which the endpoint is destroyed only when the thread has ended, the thread keeps off
the destroyed endpoint; and it does so in every state of a run, whatever follows, exactly when the
run is such a one. -/
theorem always_safe_iff (created : Bool) (es : List Event) :
    (Trace.EachStep step DestroyedAfterEnd (start created) es →
        Trace.Always step Safe (start created) es) ∧
      (Trace.Always step StaysSafe (start created) es ↔
        Trace.EachStep step DestroyedAfterEnd (start created) es) := by
  have hsettled : Settled (start created) := ⟨fun hd => absurd rfl hd, rfl⟩
  constructor
  · intro hsteps pre hpre u hu
    have hall := Trace.always_of_eachStep hsettled (fun _ _ _ => settled_step) hsteps
    exact safe_of_settled (hall pre hpre u hu)
  · exact Trace.always_stays_iff (J := Early) ⟨fun _ => rfl, fun _ => rfl⟩
      (staysSafe_of_settled hsettled) (fun _ _ _ => early_step)
      (fun _ _ => staysSafe_endptDestroy_iff) es

/-! ### While polling succeeds -/

/-- The thread runs as long as the endpoint is there. -/
structure Running (s : State) : Prop where
  flag : s.dtor = .alive → s.gStopPool = false
  notEnded : s.dtor = .alive → s.pc ≠ .ended

/-- The event is no failure of `pjsip_endpt_handle_events`. -/
def Succeeds (e : Event) : Prop := ∀ status, e = .poll status → status = 0

lemma running_step (hs : Running s) (he : Succeeds e) (h : step s e = some s') : Running s' := by
  cases goes_of_step h with
  | test =>
    refine ⟨hs.flag, fun hd => ?_⟩
    have hflag : s.gStopPool = false := hs.flag hd
    simp [hflag]
  | invoke => exact ⟨hs.flag, fun _ => by simp⟩
  | handled status =>
    obtain rfl : status = 0 := he status rfl
    exact ⟨hs.flag, fun _ => by simp⟩
  | endptDestroy => exact ⟨fun hd => absurd hd (by simp), fun hd => absurd hd (by simp)⟩
  | destructor _ _ _ _ hd' => exact ⟨fun hd => absurd hd hd', fun hd => absurd hd hd'⟩

/-- A thread whose calls succeed has not ended when the endpoint is destroyed: the flag that would
end it is set later. -/
theorem not_destroyedAfterEnd {es : List Event} {t : State}
    (hrun : Trace.run step (start true) (es ++ [.endptDestroy]) = some t)
    (hes : ∀ e ∈ es, Succeeds e) :
    ¬ Trace.EachStep step DestroyedAfterEnd (start true) (es ++ [.endptDestroy]) := by
  intro hsteps
  obtain ⟨u, hu, hlast⟩ := Trace.run_concat.1 hrun
  have hstart : Running (start true) := ⟨fun _ => rfl, fun _ => by simp [start]⟩
  have hrunning : Trace.Always step Running (start true) es := by
    refine Trace.always_of_eachStep (C := fun _ e => Succeeds e) hstart
      (fun _ _ _ => running_step) ?_
    intro pre e hpre _ _ _ _
    exact hes e (hpre.subset (List.mem_append_right _ (List.mem_singleton.2 rfl)))
  have halive : u.dtor = .alive := (Option.ite_none_right_eq_some.1 hlast).1
  have hended := hsteps es .endptDestroy List.prefix_rfl u t hu hlast rfl
  exact (hrunning es List.prefix_rfl u hu).notEnded halive hended

/-- The endpoint is destroyed under a thread that has tested the flag. -/
def destroyedWhilePolling : List Event :=
  [.poll 0, .endptDestroy, .cachingPoolDestroy, .shutdown, .setStopPool, .poll 0]

/-- The thread invokes `pjsip_endpt_handle_events` on it. -/
theorem not_always_safe_destroyedWhilePolling :
    ¬ Trace.Always step Safe (start true) destroyedWhilePolling := by
  intro h
  have hlast := h destroyedWhilePolling List.prefix_rfl _ rfl
  exact absurd hlast.calls (by decide)

end Sip.Polling
