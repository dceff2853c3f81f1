import Gb28181.Sip.ContactRoundTrip

/-!
# Via headers

A Via header is read as it was printed, with the name of its transport in capitals and without its
comment (`reads_hdrVia`).
-/

namespace Sip.Wire

open Lib Lib.Scan

variable {s t : Text} {c : Char} {hdr : ViaHdr} {n : ℕ}

lemma paramSpec_viaParam : ParamSpec viaParamSpec :=
  ⟨readable_spec (by decide), fun _ => visible_spec (by decide), by decide, by decide, by decide⟩

/-- The parameter has no meaning of its own in a Via header. -/
structure Param.ViaExtra (q : Param) : Prop where
  valued : ∀ name ∈ ["branch".toList, "ttl".toList, "maddr".toList, "received".toList],
    stricmp q.name name = true → q.value = []
  rport : stricmp q.name "rport".toList = false

/-- A Via header that is read back. -/
structure ViaHdr.Printable (hdr : ViaHdr) : Prop where
  transport_ne_nil : hdr.transport ≠ []
  transport : ∀ c ∈ hdr.transport, tokenSpec c = true
  host : HostOk hdr.host
  port : 0 ≤ hdr.port ∧ hdr.port ≤ 65535
  ttl_param : -1 ≤ hdr.ttl_param ∧ hdr.ttl_param ≤ 255
  rport_param : -1 ≤ hdr.rport_param ∧ hdr.rport_param ≤ 65535
  maddr_param : ∀ c ∈ hdr.maddr_param, tokenSpec c = true
  recvd_param : ∀ c ∈ hdr.recvd_param, viaParamSpec c = true
  branch_param : Percent.Bytes hdr.branch_param
  other_param : ∀ q ∈ hdr.other_param, q.Printable ∧ q.read.ViaExtra

/-- What is read of a Via header that was printed. -/
def ViaHdr.received (hdr : ViaHdr) : ViaHdr where
  transport := hdr.transport.map Char.toUpper
  host := hdr.host
  port := hdr.port
  ttl_param := hdr.ttl_param
  rport_param := hdr.rport_param
  maddr_param := unescape hdr.maddr_param
  recvd_param := unescape hdr.recvd_param
  branch_param := unescape hdr.branch_param
  other_param := hdr.other_param.map Param.read

/-! ### Parameters -/

/-- A number that is written if it is not negative. -/
def numParams (name : Text) (z : ℤ) : List Param :=
  if 0 ≤ z then [⟨name, utoa (toULong z)⟩] else []

/-- The source port, which may be asked for without a value. -/
def rportParams (z : ℤ) : List Param :=
  if 0 ≤ z then [⟨"rport".toList, if 0 < z then utoa (toULong z) else []⟩] else []

/-- The parameters of a Via header as they are on the wire. -/
def ViaHdr.written (hdr : ViaHdr) : List Param :=
  numParams "ttl".toList hdr.ttl_param ++ (rportParams hdr.rport_param ++
    (pairParams "maddr".toList (hostText hdr.maddr_param) ++
    (pairParams "received".toList hdr.recvd_param ++
    (pairParams "branch".toList (escape tokenSpec hdr.branch_param) ++
    hdr.other_param.map (Param.written tokenSpec)))))

lemma via_value_eq (hdr : ViaHdr) : hdr.value = "SIP/2.0/".toList ++
    (hdr.transport.map Char.toUpper ++ ' ' :: (sentByText hdr.host hdr.port ++
      paramsText hdr.written)) := by
  unfold ViaHdr.value ViaHdr.written numParams rportParams
  rw [paramsText_append, paramsText_append, paramsText_append, paramsText_append,
    paramsText_append, paramsText_ite, paramsText_ite, paramsText_pairParams,
    paramsText_pairParams, paramsText_pairParams, printParams_eq]

lemma reads_addParam_branch {value : Text} (hne : value ≠ []) :
    Reads (hdr.addParam ⟨"branch".toList, value⟩) s { hdr with branch_param := value } s := by
  rw [ViaHdr.addParam, if_pos (stricmp_and_pos rfl hne)]
  exact .pure _ _

lemma reads_addParam_viaTtl (hn : (n : ℤ) ≤ 255) :
    Reads (hdr.addParam ⟨"ttl".toList, utoa n⟩) s { hdr with ttl_param := n } s := by
  rw [ViaHdr.addParam, if_neg (stricmp_and rfl), if_pos (stricmp_and_pos rfl (utoa_ne_nil n))]
  exact (reads_strtoiValidate hn).bind (.pure _ _)

lemma reads_addParam_viaMaddr {value : Text} (hne : value ≠ []) :
    Reads (hdr.addParam ⟨"maddr".toList, value⟩) s { hdr with maddr_param := value } s := by
  rw [ViaHdr.addParam, if_neg (stricmp_and rfl), if_neg (stricmp_and rfl),
    if_pos (stricmp_and_pos rfl hne)]
  exact .pure _ _

lemma reads_addParam_received {value : Text} (hne : value ≠ []) :
    Reads (hdr.addParam ⟨"received".toList, value⟩) s { hdr with recvd_param := value } s := by
  rw [ViaHdr.addParam, if_neg (stricmp_and rfl), if_neg (stricmp_and rfl),
    if_neg (stricmp_and rfl), if_pos (stricmp_and_pos rfl hne)]
  exact .pure _ _

/-- The source port, with a value or without one. -/
lemma reads_addParam_rport (hn : (n : ℤ) ≤ 65535) :
    Reads (hdr.addParam ⟨"rport".toList, if n = 0 then [] else utoa n⟩) s
      { hdr with rport_param := n } s := by
  have hname : stricmp "rport".toList "rport".toList = true := rfl
  rw [ViaHdr.addParam, if_neg (stricmp_and rfl), if_neg (stricmp_and rfl),
    if_neg (stricmp_and rfl), if_neg (stricmp_and rfl), if_pos hname]
  by_cases hzero : n = 0
  · rw [hzero]
    exact .pure _ _
  · simp only [if_neg hzero, if_pos (utoa_ne_nil n)]
    exact (reads_strtoiValidate hn).bind (.pure _ _)

lemma folds_via_other (hdr : ViaHdr) {params : List Param} (h : ∀ q ∈ params, q.ViaExtra) :
    Folds ViaHdr.addParam hdr params
      { hdr with other_param := hdr.other_param ++ params } := by
  induction params generalizing hdr with
  | nil =>
    rw [List.append_nil]
    exact .nil hdr
  | cons q params ih =>
    have hq := h q List.mem_cons_self
    have hskip : ∀ name ∈ ["branch".toList, "ttl".toList, "maddr".toList, "received".toList],
        ¬(stricmp q.name name && decide (q.value ≠ [])) = true := by
      intro name hname hboth
      rw [Bool.and_eq_true, decide_eq_true_eq] at hboth
      exact hboth.2 (hq.valued name hname hboth.1)
    have hrport : ¬stricmp q.name "rport".toList = true := by
      rw [hq.rport]
      exact Bool.false_ne_true
    have htail := ih { hdr with other_param := hdr.other_param ++ [q] }
      fun q' hq' => h q' (List.mem_cons_of_mem _ hq')
    rw [List.append_assoc, List.singleton_append] at htail
    refine .cons (fun s => ?_) htail
    rw [ViaHdr.addParam, if_neg (hskip _ (by simp)), if_neg (hskip _ (by simp)),
      if_neg (hskip _ (by simp)), if_neg (hskip _ (by simp)), if_neg hrport]
    exact .pure _ _

/-- A number without escapes. -/
lemma read_num {name : Text} (hname : '%' ∉ name) :
    (⟨name, utoa n⟩ : Param).read = ⟨name, utoa n⟩ := by
  rw [Param.read, unescape, Percent.decode_of_notMem hname, readValue_utoa]

lemma folds_viaTtl {z : ℤ} (hz : -1 ≤ z ∧ z ≤ 255) (h : hdr.ttl_param = -1) :
    Folds ViaHdr.addParam hdr ((numParams "ttl".toList z).map Param.read)
      { hdr with ttl_param := z } := by
  unfold numParams
  split
  · next hpos =>
    obtain ⟨n, rfl⟩ := Int.eq_ofNat_of_zero_le hpos
    rw [List.map_singleton, toULong_natCast (by omega), read_num (by decide)]
    exact .cons (fun s => reads_addParam_viaTtl hz.2) (.nil _)
  · next hneg =>
    have hval : z = -1 := by omega
    rw [hval, ← h]
    exact .nil _

lemma folds_rport {z : ℤ} (hz : -1 ≤ z ∧ z ≤ 65535) (h : hdr.rport_param = -1) :
    Folds ViaHdr.addParam hdr ((rportParams z).map Param.read) { hdr with rport_param := z } := by
  unfold rportParams
  split
  · next hpos =>
    obtain ⟨n, rfl⟩ := Int.eq_ofNat_of_zero_le hpos
    have hname : '%' ∉ "rport".toList := by decide
    have hval : (if 0 < (n : ℤ) then utoa (toULong n) else []) =
        if n = 0 then [] else utoa n := by
      rw [toULong_natCast (by omega)]
      by_cases hzero : n = 0
      · rw [if_pos hzero, if_neg (by omega)]
      · rw [if_neg hzero, if_pos (by omega)]
    have hread : (⟨"rport".toList, if n = 0 then [] else utoa n⟩ : Param).read =
        ⟨"rport".toList, if n = 0 then [] else utoa n⟩ := by
      by_cases hzero : n = 0
      · rw [if_pos hzero, Param.read, unescape, Percent.decode_of_notMem hname, readValue_nil]
      · rw [if_neg hzero, read_num hname]
    rw [List.map_singleton, hval, hread]
    exact .cons (fun s => reads_addParam_rport hz.2) (.nil _)
  · next hneg =>
    have hval : z = -1 := by omega
    rw [hval, ← h]
    exact .nil _

/-- A host name or an IPv4 address is written as it is. -/
lemma hostText_of_token {host : Text} (h : ∀ c ∈ host, tokenSpec c = true) :
    hostText host = host := by
  have hcolon : ':' ∉ host := fun hmem => absurd (h _ hmem) (by decide)
  rw [hostText, if_neg fun hboth => hcolon hboth.1]

lemma folds_via (h : hdr.Printable) : Folds ViaHdr.addParam
    { transport := hdr.transport.map Char.toUpper, host := hdr.host, port := hdr.port }
    (hdr.written.map Param.read) hdr.received := by
  have hother : (hdr.other_param.map (Param.written tokenSpec)).map Param.read =
      hdr.other_param.map Param.read :=
    map_read_written paramSpec_token fun q hq => (h.other_param q hq).1
  have hmaddr : readValue hdr.maddr_param = unescape hdr.maddr_param :=
    readValue_eq_unescape (cur_ne_quote paramSpec_token h.maddr_param)
  have hrecvd : readValue hdr.recvd_param = unescape hdr.recvd_param :=
    readValue_eq_unescape (cur_ne_quote paramSpec_viaParam h.recvd_param)
  have hbranch : readValue (escape tokenSpec hdr.branch_param) = unescape hdr.branch_param := by
    have hcur : cur (escape tokenSpec hdr.branch_param) ≠ '"' :=
      cur_ne_quote paramSpec_token fun _ hc => paramSpec_token.readable.of_mem_encode hc
    rw [readValue_eq_unescape hcur, unescape_escape paramSpec_token.readable h.branch_param]
  unfold ViaHdr.written ViaHdr.received
  rw [List.map_append, List.map_append, List.map_append, List.map_append, List.map_append, hother,
    hostText_of_token h.maddr_param, ← hmaddr, ← hrecvd, ← hbranch]
  refine (folds_viaTtl h.ttl_param rfl).append ((folds_rport h.rport_param rfl).append ?_)
  refine Folds.append (folds_pairParams (by decide) ?_ fun hne s =>
    reads_addParam_viaMaddr (readValue_ne_nil hne)) ?_
  · intro hnil
    rw [hnil, readValue_nil]
  refine Folds.append (folds_pairParams (by decide) ?_ fun hne s =>
    reads_addParam_received (readValue_ne_nil hne)) ?_
  · intro hnil
    rw [hnil, readValue_nil]
  refine Folds.append (folds_pairParams (by decide) ?_ fun hne s =>
    reads_addParam_branch (readValue_ne_nil hne)) ?_
  · intro hnil
    rw [hnil, readValue_nil]
  refine folds_via_other _ fun q hq => ?_
  obtain ⟨q', hq', rfl⟩ := List.mem_map.1 hq
  exact (h.other_param q' hq').2

/-! ### The header -/

lemma isAlphanum_toUpper (h : c.isAlphanum = true) : c.toUpper.isAlphanum = true := by
  unfold Char.toUpper
  split
  · next hlower =>
    have hA : ('A' : Char).val.toNat = 65 := rfl
    have hZ : ('Z' : Char).val.toNat = 90 := rfl
    have ha : ('a' : Char).val.toNat = 97 := rfl
    have hz : ('z' : Char).val.toNat = 122 := rfl
    simp only [Char.isAlphanum, isAlpha_eq, isUpper_eq, isLower_eq, Char.isDigit,
      Bool.or_eq_true, Bool.and_eq_true, decide_eq_true_eq, ge_iff_le, UInt32.le_iff_toNat_le,
      UInt32.toNat_add, UInt32.toNat_sub] at hlower ⊢
    omega
  · exact h

lemma tokenSpec_toUpper (h : tokenSpec c = true) : tokenSpec c.toUpper = true := by
  rw [tokenSpec, spec, Bool.or_eq_true] at h ⊢
  by_cases halnum : c.isAlphanum = true
  · exact Or.inl (isAlphanum_toUpper halnum)
  · have hsame : c.toUpper = c := by
      unfold Char.toUpper
      split
      · next hlower =>
        refine absurd ?_ halnum
        simp only [Char.isAlphanum, isAlpha_eq, isLower_eq, Bool.or_eq_true, Bool.and_eq_true,
          decide_eq_true_eq]
        exact Or.inl (Or.inr hlower)
      · rfl
    rw [hsame]
    exact h

lemma Reads.scanGetN {ws : Bool} {w : Text} (hskip : autoskip ws s = t) :
    Reads (scanGetN ws w.length) (w ++ s) w t := by
  have hle : ¬(w ++ s).length < w.length := by
    rw [List.length_append]
    omega
  show Wire.scanGetN ws w.length (w ++ s) = _
  rw [Wire.scanGetN, if_neg hle, List.take_left, List.drop_left, hskip]

lemma reads_sipVersion (hs : autoskip true s = t) :
    Reads parseSipVersion ("SIP/2.0".toList ++ s) () t := by
  have hsip : Reads (scanGet true alphaSpec) ("SIP".toList ++ '/' :: ("2.0".toList ++ s)) "SIP".toList
      ('/' :: ("2.0".toList ++ s)) :=
    Reads.scanGet (by decide) (by decide) rfl (settled_cons (by decide))
  have hversion : Reads (scanGetN true 3) ("2.0".toList ++ s) "2.0".toList t := Reads.scanGetN hs
  refine hsip.bind ((reads_expectChar (by decide) (settled_cons (by decide))).bind ?_)
  exact hversion.bind (.pure _ _)

/-- What can follow host and port. -/
structure AfterSentBy (s : Text) : Prop where
  cur : cur s = ';' ∨ cur s = '\r'
  settled : Settled true s

lemma reads_sentBy (h : hdr.Printable) (hs : AfterSentBy s) :
    Reads parseSentBy (sentByText hdr.host hdr.port ++ s) (hdr.host, hdr.port) s := by
  have hstop : hostSpec (cur s) = false ∧ digitSpec (cur s) = false ∧ cur s ≠ ':' := by
    rcases hs.cur with hcur | hcur <;> rw [hcur] <;> decide
  obtain ⟨n, hn⟩ := Int.eq_ofNat_of_zero_le h.port.1
  have hmax := h.port.2
  rw [hn] at hmax
  unfold parseSentBy
  rw [sentByText, hn, toULong_natCast (by omega), List.append_assoc]
  split
  · rw [List.cons_append]
    refine (reads_host h.host rfl (settled_cons (by decide))).bind ((Reads.curChar _).bind ?_)
    rw [cur_cons, if_pos rfl]
    have hvisible : Settled true (utoa n ++ s) := settled_of_visible (utoa_ne_nil n) fun c hc =>
      paramSpec_token.visible c (tokenSpec_of_isDigit (isDigit_of_mem_utoa hc))
    refine (Reads.scanGetChar (by decide) hvisible).bind ?_
    refine (Reads.scanGet (utoa_ne_nil n) (fun c hc => isDigit_of_mem_utoa hc) hstop.2.1
      hs.settled).bind ?_
    exact (reads_strtoiValidate hmax).bind (.pure _ _)
  · next hzero =>
    have hport : (n : ℤ) = 0 := not_not.1 hzero
    rw [hport, List.nil_append]
    refine (reads_host h.host hstop.1 hs.settled).bind ((Reads.curChar _).bind ?_)
    rw [if_neg hstop.2.2]
    exact .pure _ _

lemma written_via (h : hdr.Printable) :
    ∀ q ∈ hdr.written, Written viaParamSpec q.name q.value := by
  have htoken : ∀ c, tokenSpec c = true → viaParamSpec c = true := fun c hc =>
    spec_mono (by decide) hc
  have hdigits : ∀ n, ∀ c ∈ utoa n, viaParamSpec c = true := fun n c hc =>
    htoken c (tokenSpec_of_isDigit (isDigit_of_mem_utoa hc))
  have httl : "ttl".toList ≠ [] ∧ ∀ c ∈ "ttl".toList, viaParamSpec c = true := by decide
  have hrport : "rport".toList ≠ [] ∧ ∀ c ∈ "rport".toList, viaParamSpec c = true := by decide
  have hpair : ∀ name text : Text, name ≠ [] → (∀ c ∈ name, viaParamSpec c = true) →
      (∀ c ∈ text, viaParamSpec c = true) →
      ∀ q ∈ pairParams name text, Written viaParamSpec q.name q.value := by
    intro name text hne hname htext q hq
    unfold pairParams at hq
    split at hq
    · simp at hq
    · obtain rfl := List.mem_singleton.1 hq
      exact ⟨hne, hname, Or.inl htext⟩
  intro q hq
  unfold ViaHdr.written at hq
  simp only [List.mem_append] at hq
  rcases hq with hq | hq | hq | hq | hq | hq
  · unfold numParams at hq
    split at hq
    · obtain rfl := List.mem_singleton.1 hq
      exact ⟨httl.1, httl.2, Or.inl (hdigits _)⟩
    · simp at hq
  · unfold rportParams at hq
    split at hq
    · obtain rfl := List.mem_singleton.1 hq
      refine ⟨hrport.1, hrport.2, Or.inl ?_⟩
      dsimp only
      split
      · exact hdigits _
      · simp
    · simp at hq
  · refine hpair _ _ (by decide) (by decide) ?_ q hq
    rw [hostText_of_token h.maddr_param]
    exact fun c hc => htoken c (h.maddr_param c hc)
  · exact hpair _ _ (by decide) (by decide) h.recvd_param q hq
  · refine hpair _ _ (by decide) (by decide) (fun c hc => htoken c ?_) q hq
    exact paramSpec_token.readable.of_mem_encode hc
  · obtain ⟨q', hq', rfl⟩ := List.mem_map.1 hq
    have hw := (h.other_param q' hq').1.written paramSpec_token
    exact ⟨hw.name_ne_nil, fun c hc => htoken c (hw.name c hc),
      hw.value.imp_left fun hall c hc => htoken c (hall c hc)⟩

/-- A host that is read back can be seen. -/
lemma hostText_visible {host : Text} (h : HostOk host) :
    ∃ c v, hostText host = c :: v ∧ 32 < c.toNat := by
  rw [hostText]
  split
  · exact ⟨'[', _, rfl, by decide⟩
  · next hplain =>
    rcases h with ⟨hne, hall⟩ | ⟨hcolon, -, hcur, -⟩
    · obtain ⟨c, v, rfl⟩ := List.exists_cons_of_ne_nil hne
      exact ⟨c, v, rfl, visible_spec (by decide) (hall c List.mem_cons_self)⟩
    · exact absurd ⟨hcolon, hcur⟩ hplain

/-- A Via header is read as it was written. -/
theorem reads_hdrVia (h : hdr.Printable) (hs : isSpace (cur s) = false) :
    Reads parseHdrVia (hdr.value ++ '\r' :: '\n' :: s) [hdr.received] s := by
  have hcrlf : Settled true ('\r' :: '\n' :: s) := settled_crlf hs
  have hends : EndsParam viaParamSpec true ('\r' :: '\n' :: s) := ⟨rfl, by simp, hcrlf⟩
  have hloop := loops_params paramSpec_viaParam (written_via h) hends (by simp) (folds_via h)
  have hafter : AfterSentBy (paramsText hdr.written ++ '\r' :: '\n' :: s) := by
    cases hdr.written with
    | nil => exact ⟨Or.inr rfl, hcrlf⟩
    | cons q params => exact ⟨Or.inl rfl, settled_cons (by decide)⟩
  have htransport : hdr.transport.map Char.toUpper ≠ [] := by simpa using h.transport_ne_nil
  have htoken : ∀ c ∈ hdr.transport.map Char.toUpper, tokenSpec c = true := by
    intro c hc
    obtain ⟨d, hd, rfl⟩ := List.mem_map.1 hc
    exact tokenSpec_toUpper (h.transport d hd)
  have hblank : autoskip true (' ' :: (sentByText hdr.host hdr.port ++
      (paramsText hdr.written ++ '\r' :: '\n' :: s))) =
      sentByText hdr.host hdr.port ++ (paramsText hdr.written ++ '\r' :: '\n' :: s) := by
    obtain ⟨c, v, hhost, hc⟩ := hostText_visible h.host
    rw [sentByText, hhost]
    exact autoskip_blank hc
  have hvia : Reads parseVia (hdr.value ++ '\r' :: '\n' :: s) hdr.received
      ('\r' :: '\n' :: s) := by
    have htext : hdr.value ++ '\r' :: '\n' :: s = "SIP/2.0".toList ++ '/' ::
        (hdr.transport.map Char.toUpper ++ ' ' :: (sentByText hdr.host hdr.port ++
          (paramsText hdr.written ++ '\r' :: '\n' :: s))) := by
      rw [via_value_eq]
      simp
    rw [htext]
    refine (reads_sipVersion (settled_cons (by decide))).bind ?_
    have hsettled : Settled true (hdr.transport.map Char.toUpper ++ ' ' ::
        (sentByText hdr.host hdr.port ++ (paramsText hdr.written ++ '\r' :: '\n' :: s))) :=
      settled_of_visible htransport fun c hc => paramSpec_token.visible c (htoken c hc)
    refine (reads_expectChar (by decide) hsettled).bind ?_
    refine (Reads.scanGet_skip htransport htoken rfl hblank).bind ?_
    refine (reads_sentBy h hafter).bind (hloop.reads_loop.bind ?_)
    exact (Reads.curChar _).bind (.pure _ _)
  exact (reads_commaList hvia (by simp)).bind ((reads_hdrEnd s).bind (.pure _ _))

end Sip.Wire
