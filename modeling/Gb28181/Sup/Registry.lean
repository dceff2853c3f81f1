import Gb28181.Sup.LastWrite

/-!
# The registry under the requests of many devices

The requests of different devices do not interfere.  After any interleaving the registry has
the entries that it had at first, in the same order; only expiries have changed, only in the
first entry of an id, and there the expiry is that of the request of this id whose
`setExpires` ran last.  So the entry of a device depends on the updates of this device alone.
-/

namespace Sup

open Lib Sip

/-! ### One update -/

/-- An update changes the first entry of its id and no other. -/
lemma getElem?_setExpires (list : List SubDomainInfo) (id : Text) (v : ℤ) (i : ℕ) :
    (setExpires list id v)[i]? = list[i]?.map fun info =>
      if info.sipId = id ∧ id ∉ (ids list).take i then { info with expires := v } else info := by
  induction list generalizing i with
  | nil => rfl
  | cons info list ih =>
    have hids : ids (info :: list) = info.sipId :: ids list := rfl
    rw [setExpires, hids]
    by_cases hid : info.sipId = id
    · rw [if_pos hid]
      cases i with
      | zero => simp [hid]
      | succ i =>
        -- the id stands in front of all these entries
        have hmem : id ∈ (info.sipId :: ids list).take (i + 1) := by simp [hid]
        simp only [List.getElem?_cons_succ, hmem, not_true_eq_false, and_false, if_false,
          Option.map_id']
    · rw [if_neg hid]
      cases i with
      | zero => simp [hid]
      | succ i =>
        have hmem : id ∉ (info.sipId :: ids list).take (i + 1) ↔ id ∉ (ids list).take i := by
          simp [Ne.symm hid]
        simp only [List.getElem?_cons_succ, hmem]
        exact ih i

/-! ### The updates of a run -/

/-- The registry after some calls of `setExpires`. -/
def updated (list₀ : List SubDomainInfo) (writes : List (ℕ × Text × ℤ)) : List SubDomainInfo :=
  writes.foldl (fun list w => setExpires list w.2.1 w.2.2) list₀

/-- The expiry with which `setExpires` was called last for an id. -/
def lastExpires (writes : List (ℕ × Text × ℤ)) (d : Text) : Option ℤ :=
  (writes.filter fun w => w.2.1 == d).getLast?.map fun w => w.2.2

variable {list₀ : List SubDomainInfo} {writes : List (ℕ × Text × ℤ)} {d : Text} {v : ℤ} {i : ℕ}
  {info : SubDomainInfo}

lemma ids_updated : ids (updated list₀ writes) = ids list₀ := by
  induction writes using List.reverseRecOn with
  | nil => rfl
  | append_singleton writes w ih =>
    rw [updated, List.foldl_append]
    exact ids_setExpires.trans ih

lemma lastExpires_append_singleton (w : ℕ × Text × ℤ) :
    lastExpires (writes ++ [w]) d = if w.2.1 = d then some w.2.2 else lastExpires writes d := by
  rw [lastExpires, List.filter_append]
  by_cases hd : w.2.1 = d
  · simp [hd]
  · simp [hd, lastExpires]

/-- What becomes of the `i`-th entry: the first entry of its id takes the expiry that was set last,
and nothing else changes. -/
def entryAfter (list₀ : List SubDomainInfo) (writes : List (ℕ × Text × ℤ)) (i : ℕ)
    (info : SubDomainInfo) : SubDomainInfo :=
  if info.sipId ∈ (ids list₀).take i then info
  else { info with expires := (lastExpires writes info.sipId).getD info.expires }

lemma sipId_entryAfter : (entryAfter list₀ writes i info).sipId = info.sipId := by
  rw [entryAfter]
  split <;> rfl

lemma entryAfter_append_singleton (w : ℕ × Text × ℤ) :
    entryAfter list₀ (writes ++ [w]) i info =
      if info.sipId = w.2.1 ∧ w.2.1 ∉ (ids list₀).take i
      then { entryAfter list₀ writes i info with expires := w.2.2 }
      else entryAfter list₀ writes i info := by
  simp only [entryAfter, lastExpires_append_singleton]
  by_cases hw : info.sipId = w.2.1
  · by_cases hfirst : w.2.1 ∈ (ids list₀).take i
    · simp [hw, hfirst]
    · simp [hw, hfirst]
  · simp [hw, Ne.symm hw]

lemma getElem?_updated (hi : list₀[i]? = some info) :
    (updated list₀ writes)[i]? = some (entryAfter list₀ writes i info) := by
  induction writes using List.reverseRecOn with
  | nil =>
    have hlast : lastExpires [] info.sipId = none := rfl
    rw [updated, List.foldl_nil, hi, entryAfter, hlast, Option.getD_none, ite_self]
  | append_singleton writes w ih =>
    have happ : updated list₀ (writes ++ [w]) =
        setExpires (updated list₀ writes) w.2.1 w.2.2 := by
      rw [updated, List.foldl_append]
      rfl
    rw [happ, getElem?_setExpires, ih, Option.map_some, ids_updated, entryAfter_append_singleton]
    simp only [sipId_entryAfter]

/-- The registry is made by the calls of `setExpires` that have run. -/
def Replays (list₀ : List SubDomainInfo) (s : State) : Prop := s.list = updated list₀ s.writes

lemma replays_step {s s' : State} {e : Event} (hs : Replays list₀ s) (h : step s e = some s') :
    Replays list₀ s' := by
  rcases step_cases h with rfl | ⟨msg, cloned, created, rfl, rfl⟩ | ⟨k, t, err, rfl, -, -, rfl⟩ |
    ⟨k, t, pc, rfl, -, -, rfl⟩
  · exact hs
  · exact hs
  · exact hs
  · unfold Replays State.move
    cases hpc : t.pc with
    | setExpires fromId v =>
      show setExpires s.list fromId v = updated list₀ (s.writes ++ [(k, fromId, v)])
      rw [updated, List.foldl_append, show s.list = updated list₀ s.writes from hs]
      rfl
    | _ => exact hs

lemma list_of_run {es : List Event} {s : State}
    (h : Lib.Trace.run step (start list₀) es = some s) : s.list = updated list₀ s.writes := by
  have hs : Replays list₀ s :=
    Lib.Trace.invariant (show Replays list₀ (start list₀) from rfl) (fun _ _ _ => replays_step) h
  exact hs

/-! ### No interference -/

/-- The devices do not interfere in the registry that a run has made of `list₀`. -/
structure NoInterference (list₀ : List SubDomainInfo) (s : State) : Prop where
  /-- No entry is added, removed or moved. -/
  length_eq : s.list.length = list₀.length
  /-- Only the first entry of an id changes, and only its expiry. -/
  entry : ∀ i info, list₀[i]? = some info →
    s.list[i]? = some (entryAfter list₀ s.writes i info)
  /-- The last call of `setExpires` for an id is that of a REGISTER of the id. -/
  last : ∀ d v, lastExpires s.writes d = some v → ∃ k t, (s.writesOf d).getLast? = some (k, d, v) ∧
    s.tasks[k]? = some t ∧ t.Registers d ∧ t.msg.expires = some v
  /-- Two runs with the same updates of an id leave the same entries of the id. -/
  same : ∀ (es' : List Event) (s' : State), Lib.Trace.run step (start list₀) es' = some s' → ∀ d,
    (s'.writesOf d).map (fun w => w.2.2) = (s.writesOf d).map (fun w => w.2.2) →
    ∀ (i : ℕ) (info : SubDomainInfo), list₀[i]? = some info → info.sipId = d →
      s'.list[i]? = s.list[i]?
  /-- A REGISTER that repeats the last one of its id has no effect. -/
  repeated : ∀ k (t : Task) d v, s.tasks[k]? = some t → t.pc = .setExpires d v →
    lastExpires s.writes d = some v → ∀ s', step s (.advance k) = some s' → s'.list = s.list

lemma lastExpires_congr {writes' : List (ℕ × Text × ℤ)}
    (h : (writes'.filter fun w => w.2.1 == d).map (fun w => w.2.2) =
      (writes.filter fun w => w.2.1 == d).map (fun w => w.2.2)) :
    lastExpires writes' d = lastExpires writes d := by
  rw [lastExpires, lastExpires, ← List.getLast?_map, h, List.getLast?_map]

lemma writesOf_getLast? {s : State} (hlast : lastExpires s.writes d = some v) :
    ∃ k, (s.writesOf d).getLast? = some (k, d, v) ∧ (k, d, v) ∈ s.writes := by
  rw [lastExpires] at hlast
  obtain ⟨⟨k, d', v'⟩, hw, rfl⟩ := Option.map_eq_some_iff.1 hlast
  obtain ⟨hmem, hd⟩ := List.mem_filter.1 (List.mem_of_getLast? hw)
  obtain rfl : d' = d := beq_iff_eq.1 hd
  exact ⟨k, hw, hmem⟩

/-- In every interleaving of requests from any devices the devices do not interfere. -/
theorem noInterference_of_run {list₀ : List SubDomainInfo} {es : List Event} {s : State}
    (h : Lib.Trace.run step (start list₀) es = some s) : NoInterference list₀ s := by
  have hs : Kept list₀ s := Lib.Trace.invariant (kept_start list₀) (fun _ _ _ => kept_step) h
  have hlist := list_of_run h
  refine ⟨?_, fun i info hi => ?_, fun d v hlast => ?_, fun es' s' h' d hsame i info hi hid => ?_,
    fun k t d v hk hpc hlast s' hstep => ?_⟩
  · have hids := congrArg List.length hs.ids_eq
    simpa [ids] using hids
  · rw [hlist]
    exact getElem?_updated hi
  · obtain ⟨k, hget, hmem⟩ := writesOf_getLast? hlast
    obtain ⟨t, ht, hreg, hexp⟩ := hs.writes _ hmem
    exact ⟨k, t, hget, ht, hreg, hexp⟩
  · have hlast : lastExpires s'.writes d = lastExpires s.writes d := lastExpires_congr hsame
    rw [hlist, list_of_run h', getElem?_updated hi, getElem?_updated hi, entryAfter, entryAfter,
      hid, hlast]
  · -- the expiry that is written is the one that is there
    obtain ⟨-, -, -, hd⟩ := (hs.tasks k t hk).set d v hpc
    obtain ⟨j, hget, -⟩ := writesOf_getLast? hlast
    have hexp : expiresOf s.list d = some v := hs.expires d hd _ hget
    rcases step_cases_advance hstep hk with ⟨err, herr, -⟩ | ⟨pc, -, rfl⟩
    · simp [Task.advance, hpc] at herr
    · have hmove : (s.move k t pc).list = setExpires s.list d v := by simp only [State.move, hpc]
      rw [hmove, setExpires_eq_self_iff]
      intro w hw
      exact Option.some.inj (hw.symm.trans hexp)

/-- The run in which two requests of a device overtake each other. -/
theorem noInterference_overtakingRun :
    ∃ s, Lib.Trace.run step (start oneNode) overtakingRun = some s ∧ NoInterference oneNode s := by
  obtain ⟨s, hrun, -⟩ := run_overtakingRun
  exact ⟨s, hrun, noInterference_of_run hrun⟩

end Sup
