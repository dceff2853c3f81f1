import Gb28181.Sip.Registrant

/-!
# The requests of a client

A client sends its requests by itself once it has been told to register: it refreshes, and it
repeats a request that was challenged or asked for too short a time.  All its requests are
numbered in one sequence, and never is there an answer to an earlier one than the last.
-/

namespace Sip.Registrant

open Lib

/-- The requests are numbered from `cseq + 1` on, and the transaction that is pending, if there is
one, is that of the last request. -/
structure Numbered (cseq : ℕ) (s : Registrant) : Prop where
  cseqs : s.requests.map TxData.cseq = (List.range' (cseq + 1) s.requests.length).reverse
  next : s.regc.cseq = cseq + s.requests.length
  last : ∀ tsx ∈ s.tsxs, s.requests.head? = some tsx

variable {s : Registrant} {n cseq : ℕ} {destroys : Bool} {code : ℤ} {taken : Taken} {tdata : TxData}

/-- It does not depend on the other fields. -/
lemma Numbered.congr {s' : Registrant} (h : Numbered cseq s) (htsxs : s'.tsxs ⊆ s.tsxs)
    (hrequests : s'.requests = s.requests) (hcseq : s'.regc.cseq = s.regc.cseq) :
    Numbered cseq s' :=
  ⟨hrequests ▸ h.cseqs, by rw [hcseq, hrequests]; exact h.next,
    fun tsx htsx => hrequests ▸ h.last tsx (htsxs htsx)⟩

lemma Numbered.quiet {s' : Registrant} (h : Numbered cseq s) (hq : Quiet s s') :
    Numbered cseq s' :=
  h.congr (hq.tsxs ▸ List.Subset.refl _) hq.requests hq.cseq

/-- The next request has the next number. -/
lemma Numbered.begin (h : Numbered cseq s) (htsxs : s.tsxs = []) :
    Numbered cseq (s.begin tdata) where
  cseqs := by
    simp only [Registrant.begin, List.map_cons, List.length_cons, h.cseqs, List.range'_1_concat,
      List.reverse_append, List.reverse_cons, List.reverse_nil, List.nil_append, h.next]
    simp only [List.singleton_append, List.cons.injEq, and_true]
    omega
  next := by
    simp only [Registrant.begin, List.length_cons, Registrant.update, h.next]
    omega
  last := by
    intro tsx htsx
    exact absurd (htsxs ▸ htsx) List.not_mem_nil

lemma Numbered.sendBegin (h : Numbered cseq s) (htsxs : s.tsxs = []) :
    Numbered cseq (s.sendBegin tdata taken destroys).1 := by
  have hbegin : Numbered cseq (s.enter.begin tdata) :=
    (h.quiet (quiet_update rfl rfl)).begin htsxs
  have hnil : (s.enter.begin tdata).tsxs = [] := htsxs
  have hfail : ∀ code, Numbered cseq (((s.enter.begin tdata).inCallback
      fun s => s.handle (.ofCode code) destroys).1.setTsx false) := by
    intro code
    have hhandle : ∀ s : Registrant, Quiet s (s.handle (.ofCode code) destroys).1 :=
      fun _ => quiet_handle
    exact (hbegin.quiet (quiet_inCallback hhandle)).quiet (quiet_update rfl rfl)
  cases taken with
  | accepted =>
    refine ⟨hbegin.cseqs, hbegin.next, fun tsx htsx => ?_⟩
    have hmem : tsx ∈ ⟨s.regc.cseq + 1, tdata.expires⟩ :: (s.enter.begin tdata).tsxs := htsx
    rw [hnil, List.mem_singleton] at hmem
    exact congrArg some hmem.symm
  | refused status =>
    have hq : Quiet (s.enter.begin tdata) ((s.enter.begin tdata).setTsx false) :=
      quiet_update rfl rfl
    exact hbegin.quiet hq
  | unresolved status => exact hfail 502
  | transportError status => exact hfail 503

lemma Numbered.send (h : Numbered cseq s) (hs : Held n s) :
    Numbered cseq (s.send tdata taken destroys).1 := by
  rw [Registrant.send]
  split
  · rw [hs.touch]
    exact h
  · next htsx => exact (h.sendBegin (hs.tsxs_eq_nil (by simpa using htsx))).quiet quiet_leave

lemma Numbered.registerSend {autoReg : Bool} {status : ℤ} (h : Numbered cseq s) (hs : Held n s) :
    Numbered cseq (s.registerSend autoReg status taken destroys).1 := by
  rw [Registrant.registerSend]
  split
  · exact (h.quiet quiet_register).send hs.register
  · exact h.quiet quiet_register

lemma Numbered.report {r : Registrant × List ℤ × ℤ} (h : Numbered cseq r.1) :
    Numbered cseq (report r destroys code).1 := by
  rw [Registrant.report]
  split
  · exact h.quiet quiet_callCallback
  · exact h.quiet ⟨rfl, rfl, rfl, rfl, rfl⟩

lemma Numbered.challenged {tsx : TxData} {reinit : ℤ} (h : Numbered cseq s) (hs : Held n s) :
    Numbered cseq (s.challenged tsx code reinit taken destroys).1 := by
  refine Numbered.report ?_
  split
  · exact (h.quiet quiet_idle).send hs.idle
  · exact h.quiet quiet_idle

lemma Numbered.tooBrief {resp : Response} {register : ℤ} (h : Numbered cseq s) (hs : Held n s) :
    Numbered cseq (s.tooBrief resp register taken destroys).1 := by
  rw [Registrant.tooBrief]
  split
  · exact (h.quiet quiet_idle).quiet quiet_handleErr
  · refine Numbered.report (Numbered.registerSend (n := n) ?_ ?_)
    · exact h.congr (List.Subset.refl _) rfl rfl
    · rw [hs.idle.update]
      exact hs.idle.congr rfl rfl rfl rfl rfl

lemma Numbered.tsxCallback {tsx : TxData} {resp : Response} {reinit register : ℤ}
    (h : Numbered cseq s) (hs : Called n s) :
    Numbered cseq (s.tsxCallback tsx resp reinit register taken destroys).1 := by
  have hbody : Numbered cseq ((s.enter.assert s.regc.hasTsx).setTsx false) :=
    h.congr (List.Subset.refl _) rfl rfl
  refine Numbered.quiet ?_ quiet_leave
  dsimp only
  split
  · exact hbody.challenged hs.held
  · split
    · exact hbody.quiet quiet_idle
    · split
      · exact hbody.tooBrief hs.held
      · exact hbody.quiet quiet_handleErr

lemma Numbered.refreshTimerCb {register : ℤ} (h : Numbered cseq s) (hs : Held n s) :
    Numbered cseq (s.refreshTimerCb register taken destroys).1 := by
  have hfire : Numbered cseq s.fire := h.congr (List.Subset.refl _) rfl rfl
  rw [Registrant.refreshTimerCb]
  refine Numbered.quiet ?_ quiet_leave
  split
  · exact (hfire.registerSend hs.fire).quiet quiet_callCallback
  · exact hfire.registerSend hs.fire

lemma numbered_step {e : Event} {s' : Registrant} (hs : Sound s) (hn : Numbered cseq s)
    (h : s.step e = some s') : Numbered cseq s' := by
  cases e with
  | register autoReg status =>
    simp only [step] at h
    split at h
    · obtain rfl := Option.some.inj h
      exact hn.quiet quiet_register
    · simp at h
  | send tdata taken destroys =>
    simp only [step] at h
    split at h
    · next hu =>
      obtain rfl := Option.some.inj h
      rw [sendCall]
      split
      · exact hn.quiet ⟨rfl, rfl, rfl, rfl, rfl⟩
      · next htsx =>
        have hheld := hs.held (Bool.eq_false_iff.2 fun hr => hu.2 (Or.inr hr))
        have hnil : s.tsxs = [] := hheld.tsxs_eq_nil (by simpa using htsx)
        exact (hn.sendBegin hnil).congr (List.Subset.refl _) rfl rfl
    · simp at h
  | sendEnd =>
    simp only [step] at h
    split at h
    · next hsend =>
      obtain rfl := Option.some.inj h
      have hn' : Numbered cseq { s with sending := false } :=
        hn.congr (List.Subset.refl _) rfl rfl
      rw [sendReturn, if_pos hsend]
      exact hn'.quiet quiet_leave
    · simp at h
  | destroy =>
    simp only [step] at h
    split at h
    · obtain rfl := Option.some.inj h
      exact hn.quiet quiet_destroy
    · simp at h
  | answer i resp reinit register taken destroys =>
    simp only [step] at h
    split at h
    · next tsx hi =>
      split at h
      · obtain rfl := Option.some.inj h
        have hn' : Numbered cseq { s with tsxs := s.tsxs.eraseIdx i } :=
          hn.congr (List.eraseIdx_subset) rfl rfl
        exact hn'.tsxCallback (hs.called hi)
      · simp at h
    · simp at h
  | timer register taken destroys =>
    simp only [step] at h
    split at h
    · next ht =>
      obtain rfl := Option.some.inj h
      cases hs with
      | gone _ _ _ timer => exact absurd ht (by simp [timer])
      | live held => exact hn.refreshTimerCb held
    · simp at h

/-- In every run the requests of a client are numbered consecutively, also across refreshes and
automatic repetitions, as long as there are numbers for them, and an answer is only ever taken for
the last of them. -/
theorem numbered_of_run {expires : ℕ} {es : List Event}
    (h : Trace.run step (create.init expires cseq) es = some s)
    (hlt : cseq + s.requests.length < 2 ^ 31) :
    s.requests.map TxData.cseq = (List.range' (cseq + 1) s.requests.length).reverse ∧
      (∀ q ∈ s.requests, IsInt32 q.cseq) ∧ ∀ tsx ∈ s.tsxs, s.requests.head? = some tsx := by
  have hall : Trace.Always step (fun s => Sound s ∧ Numbered cseq s) (create.init expires cseq)
      es :=
    Trace.always_of_eachStep (C := fun _ _ => True)
      ⟨sound_start, rfl, rfl, fun tsx htsx => absurd htsx List.not_mem_nil⟩
      (fun _ _ _ hs _ h => ⟨sound_step hs.1 h, numbered_step hs.1 hs.2 h⟩)
      (fun _ _ _ _ _ _ _ => trivial)
  obtain ⟨-, hs⟩ := hall es List.prefix_rfl s h
  refine ⟨hs.cseqs, fun q hq => ?_, hs.last⟩
  have hmem : q.cseq ∈ (List.range' (cseq + 1) s.requests.length).reverse :=
    hs.cseqs ▸ List.mem_map_of_mem hq
  rw [List.mem_reverse, List.mem_range'_1] at hmem
  constructor <;> omega

/-- A client whose first request meets a 423 response, and is refreshed once. -/
def repeated : List Event :=
  [.register true 0, .send ⟨7, some 60⟩ .accepted false, .sendEnd,
    .answer 0 ⟨423, [], none, some ⟨90, by decide⟩⟩ 0 0 .accepted false,
    .answer 0 (.ofCode 200) 0 0 .accepted false, .timer 0 .accepted false]

theorem numbered_repeated : ∃ s, Trace.run step (create.init 60 7) repeated = some s ∧
    s.requests.map TxData.cseq = (List.range' (7 + 1) s.requests.length).reverse ∧
      (∀ q ∈ s.requests, IsInt32 q.cseq) ∧ ∀ tsx ∈ s.tsxs, s.requests.head? = some tsx :=
  ⟨_, rfl, numbered_of_run (by exact (rfl : Trace.run step (create.init 60 7) repeated = _))
    (by decide)⟩

end Sip.Registrant
