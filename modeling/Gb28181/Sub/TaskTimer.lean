import Gb28181.Lib.Trace
import Gb28181.Sip.Regc

/-!
# The timer

The loop of `TaskTimer::timer`: it reads the clock, and when the time since `lastTm` is at least
the period it invokes the callback.  Both sides of the comparison are machine integers: the
difference of two `unsigned long` wraps around when the clock is set back, and the period is a
product of two `int`.  The callback is never early as long as neither happens
(`always_neverEarly_iff`).
-/

namespace Sub.Timer

open Lib Sip

/-- `struct timeval`. -/
structure Timeval where
  tv_sec : ℤ
  tv_usec : ℤ
  deriving DecidableEq, Repr

/-- `curTm`, the milliseconds of a reading. -/
def Timeval.curTm (current : Timeval) : ℕ :=
  toULong (current.tv_sec * 1000 + current.tv_usec.tdiv 1000)

/-- `(m_timeSecond)*1000`, an `int` (here with wrap-around) that is converted for the comparison. -/
def period (timeSecond : ℤ) : ℕ := toULong (wrap32 (timeSecond * 1000))

/-- `curTm-lastTm`. -/
def elapsed (curTm lastTm : ℕ) : ℕ := toULong (curTm - lastTm)

/-- `(curTm-lastTm)>=(m_timeSecond)*1000`. -/
def due (timeSecond : ℤ) (curTm lastTm : ℕ) : Bool :=
  decide (period timeSecond ≤ elapsed curTm lastTm)

/-- The loop between two iterations.  `invoked` is a history: the readings at which the callback
was invoked. -/
structure Loop where
  lastTm : ℕ
  invoked : List ℕ
  deriving DecidableEq, Repr

/-- An iteration of the loop.  `timerFun` says whether `m_timerFun` is set: without a callback
the loop still moves `lastTm`. -/
def Loop.iterate (timerFun : Bool) (timeSecond : ℤ) (s : Loop) (current : Timeval) : Loop :=
  if due timeSecond current.curTm s.lastTm then
    { lastTm := current.curTm
      invoked := if timerFun then s.invoked ++ [current.curTm] else s.invoked }
  else s

/-- The loop as an event system, whose events are the readings of the clock. -/
def loopStep (timerFun : Bool) (timeSecond : ℤ) (s : Loop) (current : Timeval) : Option Loop :=
  some (s.iterate timerFun timeSecond current)

/-- The loop before the first iteration. -/
def loopStart : Loop := ⟨0, []⟩

/-- Between two invocations at least the period has passed. -/
def NeverEarly (timeSecond : ℤ) (s : Loop) : Prop :=
  s.invoked.Pairwise fun (t t' : ℕ) => (t : ℤ) + 1000 * timeSecond ≤ t'

/-- A reading after an invocation is in order: if the clock was not set back since, it does not lie
between the period as it is computed and the period as it is meant, and if it was, then by so
much that the difference stays below the period. -/
def OnTime (timeSecond : ℤ) (s : Loop) (current : Timeval) : Prop :=
  s.invoked ≠ [] →
    (s.lastTm ≤ current.curTm → current.curTm - s.lastTm < period timeSecond ∨
      1000 * timeSecond ≤ (current.curTm : ℤ) - s.lastTm) ∧
    (current.curTm < s.lastTm → 2 ^ 64 < s.lastTm - current.curTm + period timeSecond)

variable {timerFun : Bool} {timeSecond : ℤ} {s s' : Loop} {current : Timeval} {c l : ℕ}

lemma toULong_lt (z : ℤ) : toULong z < 2 ^ 64 := by
  rw [toULong]
  omega

lemma elapsed_of_le (hc : c < 2 ^ 64) (h : l ≤ c) : elapsed c l = c - l := by
  rw [elapsed, toULong]
  omega

lemma elapsed_of_lt (hl : l < 2 ^ 64) (h : c < l) : elapsed c l = 2 ^ 64 - (l - c) := by
  rw [elapsed, toULong]
  omega

/-- The comparison of the loop says that the period has passed exactly when the reading is in
order. -/
lemma due_sound_iff (hT : 0 < timeSecond) (hc : c < 2 ^ 64) (hl : l < 2 ^ 64) :
    (due timeSecond c l = true → (l : ℤ) + 1000 * timeSecond ≤ c) ↔
      (l ≤ c → c - l < period timeSecond ∨ 1000 * timeSecond ≤ (c : ℤ) - l) ∧
        (c < l → 2 ^ 64 < l - c + period timeSecond) := by
  rw [due, decide_eq_true_iff]
  rcases Nat.lt_or_ge c l with hlt | hle
  · -- the clock was set back: the callback cannot be in time
    have hearly : ¬ (l : ℤ) + 1000 * timeSecond ≤ c := by omega
    rw [elapsed_of_lt hl hlt, imp_iff_not hearly, Nat.not_le]
    constructor
    · intro hwait
      exact ⟨fun hle => absurd hle (Nat.not_le.2 hlt), fun _ => by omega⟩
    · intro hwait
      have := hwait.2 hlt
      omega
  · rw [elapsed_of_le hc hle]
    constructor
    · intro hsound
      refine ⟨fun _ => ?_, fun hlt => absurd hle (Nat.not_le.2 hlt)⟩
      rcases Nat.lt_or_ge (c - l) (period timeSecond) with hwait | hdue
      · exact Or.inl hwait
      · have := hsound hdue
        exact Or.inr (by omega)
    · intro hwait hdue
      rcases hwait.1 hle with hearly | hlate
      · exact absurd hdue (Nat.not_le.2 hearly)
      · omega

/-- What the loop remembers is the last invocation. -/
structure Remembers (timerFun : Bool) (s : Loop) : Prop where
  lt : s.lastTm < 2 ^ 64
  timerFun_of_invoked : s.invoked ≠ [] → timerFun = true
  last : s.invoked ≠ [] → s.invoked.getLast? = some s.lastTm

lemma iterate_of_due (hdue : due timeSecond current.curTm s.lastTm = true) :
    s.iterate true timeSecond current = ⟨current.curTm, s.invoked ++ [current.curTm]⟩ := by
  rw [Loop.iterate, if_pos hdue, if_pos rfl]

lemma iterate_of_not_due (hdue : ¬ due timeSecond current.curTm s.lastTm = true) :
    s.iterate timerFun timeSecond current = s := by
  rw [Loop.iterate, if_neg hdue]

/-- Without a callback nothing is invoked. -/
lemma iterate_false_invoked : (s.iterate false timeSecond current).invoked = s.invoked := by
  rw [Loop.iterate]
  split <;> rfl

lemma iterate_lastTm_lt (hs : s.lastTm < 2 ^ 64) :
    (s.iterate timerFun timeSecond current).lastTm < 2 ^ 64 := by
  rw [Loop.iterate]
  split
  · exact toULong_lt _
  · exact hs

lemma remembers_step (hs : Remembers timerFun s)
    (h : loopStep timerFun timeSecond s current = some s') : Remembers timerFun s' := by
  obtain rfl := Option.some.inj h
  refine ⟨iterate_lastTm_lt hs.lt, ?_, ?_⟩
  · intro hne
    cases timerFun with
    | true => rfl
    | false => exact hs.timerFun_of_invoked (iterate_false_invoked ▸ hne)
  · intro hne
    cases timerFun with
    | true =>
      by_cases hdue : due timeSecond current.curTm s.lastTm = true
      · rw [iterate_of_due hdue]
        exact List.getLast?_concat
      · rw [iterate_of_not_due hdue] at hne ⊢
        exact hs.last hne
    | false =>
      rw [iterate_false_invoked] at hne
      exact absurd (hs.timerFun_of_invoked hne) Bool.false_ne_true

/-- No invocation is after the last one. -/
lemma le_lastTm (hT : 0 < timeSecond) (hs : Remembers timerFun s)
    (hnever : NeverEarly timeSecond s) {t : ℕ} (ht : t ∈ s.invoked) : t ≤ s.lastTm := by
  have hlast := hs.last (List.ne_nil_of_mem ht)
  obtain ⟨pre, hpre⟩ := List.getLast?_eq_some_iff.1 hlast
  rw [NeverEarly, hpre, List.pairwise_append] at hnever
  rw [hpre] at ht
  rcases List.mem_append.1 ht with ht | ht
  · have := hnever.2.2 t ht s.lastTm (List.mem_singleton.2 rfl)
    omega
  · exact (List.mem_singleton.1 ht).le

/-- An iteration keeps the invocations apart exactly when its reading is in order. -/
lemma neverEarly_step (hT : 0 < timeSecond) (hs : Remembers timerFun s)
    (hnever : NeverEarly timeSecond s)
    (h : loopStep timerFun timeSecond s current = some s') :
    NeverEarly timeSecond s' ↔ OnTime timeSecond s current := by
  obtain rfl := Option.some.inj h
  have hcur : current.curTm < 2 ^ 64 := toULong_lt _
  rw [OnTime, ← due_sound_iff hT hcur hs.lt]
  cases timerFun with
  | false =>
    rw [NeverEarly, iterate_false_invoked]
    exact iff_of_true hnever fun hne => absurd (hs.timerFun_of_invoked hne) Bool.false_ne_true
  | true =>
    by_cases hdue : due timeSecond current.curTm s.lastTm = true
    · rw [NeverEarly, iterate_of_due hdue, List.pairwise_append]
      constructor
      · rintro ⟨-, -, hall⟩ hne _
        exact hall _ (List.mem_of_getLast? (hs.last hne)) _ (List.mem_singleton.2 rfl)
      · intro hon
        refine ⟨hnever, List.pairwise_singleton _ _, fun t ht t' ht' => ?_⟩
        rw [List.mem_singleton.1 ht']
        have hle := le_lastTm hT hs hnever ht
        have := hon (List.ne_nil_of_mem ht) hdue
        omega
    · rw [iterate_of_not_due hdue]
      exact iff_of_true hnever fun _ hdue' => absurd hdue' hdue

/-- For every positive period and every sequence of readings, the callback is never early exactly
when every reading is in order. -/
theorem always_neverEarly_iff (hT : 0 < timeSecond) (readings : List Timeval) :
    Trace.Always (loopStep timerFun timeSecond) (NeverEarly timeSecond) loopStart readings ↔
      Trace.EachStep (loopStep timerFun timeSecond) (OnTime timeSecond) loopStart readings := by
  have hstart : Remembers timerFun loopStart := by
    refine ⟨?_, fun h => absurd rfl h, fun h => absurd rfl h⟩
    show 0 < 2 ^ 64
    omega
  exact Trace.always_iff_eachStep hstart List.Pairwise.nil (fun _ _ _ => remembers_step)
    (fun _ _ _ => neverEarly_step hT) readings

/-- A period that an `int` can hold in milliseconds is computed as it is meant; then only a clock
that is set back matters. -/
theorem onTime_iff_of_le (hT : 0 < timeSecond) (hle : timeSecond ≤ 2147483) :
    OnTime timeSecond s current ↔
      (s.invoked ≠ [] → current.curTm < s.lastTm →
        2 ^ 64 < s.lastTm - current.curTm + 1000 * timeSecond.toNat) := by
  have hint : IsInt32 (timeSecond * 1000) := ⟨by omega, by omega⟩
  have hmod : timeSecond * 1000 % 2 ^ 64 = timeSecond * 1000 :=
    Int.emod_eq_of_lt (by omega) (by omega)
  have hperiod : period timeSecond = 1000 * timeSecond.toNat := by
    rw [period, wrap32_of_isInt32 hint, toULong, hmod]
    omega
  rw [OnTime, hperiod]
  constructor
  · intro h hne
    exact (h hne).2
  · intro h hne
    refine ⟨fun hle => ?_, h hne⟩
    rcases Nat.lt_or_ge (current.curTm - s.lastTm) (1000 * timeSecond.toNat) with hwait | hdue
    · exact Or.inl hwait
    · exact Or.inr (by omega)

/-- A clock that is set back by a second after an invocation. -/
def setBack : List Timeval := [⟨1700000000, 0⟩, ⟨1699999999, 0⟩]

/-- The callback is invoked again at once. -/
theorem not_always_neverEarly_setBack :
    ¬ Trace.Always (loopStep true 3) (NeverEarly 3) loopStart setBack := by
  intro h
  have hlast : NeverEarly 3 ⟨1699999999000, [1700000000000, 1699999999000]⟩ :=
    h setBack List.prefix_rfl _ (by decide)
  have hpair := List.rel_of_pairwise_cons hlast (List.mem_singleton.2 rfl)
  omega

/-- The same two readings in their order. -/
theorem always_neverEarly_forward :
    (0 : ℤ) < 3 ∧
      (Trace.Always (loopStep true 3) (NeverEarly 3) loopStart setBack.reverse ↔
        Trace.EachStep (loopStep true 3) (OnTime 3) loopStart setBack.reverse) :=
  ⟨by omega, always_neverEarly_iff (by omega) setBack.reverse⟩

end Sub.Timer
