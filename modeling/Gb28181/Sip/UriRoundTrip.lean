import Gb28181.Sip.ParamRoundTrip

/-!
# SIP URIs are read as they were written

What the parser makes of the text of a URI is the URI itself, up to the components that its context
leaves out and to the escapes that stood in it before (`reads_sipUrl`).
-/

namespace Sip.Wire

open Lib Lib.Scan

variable {ws : Bool} {p : Char → Bool} {others others' value w s t : Text} {c : Char}
  {ctx : Context} {url : SipUri}

/-! ### What can be read back -/

/-- A host that is read back: a name or an IPv4 address, or an IPv6 address. -/
def HostOk (host : Text) : Prop :=
  (host ≠ [] ∧ ∀ c ∈ host, hostSpec c = true) ∨
    (':' ∈ host ∧ ']' ∉ host ∧ cur host ≠ '[' ∧ 32 < (cur host).toNat)

/-- The parameter has no meaning of its own in a URI. -/
structure Param.Extra (q : Param) : Prop where
  valued : ∀ name ∈ ["user".toList, "method".toList, "transport".toList, "ttl".toList,
    "maddr".toList], stricmp q.name name = true → q.value = []
  lr : stricmp q.name "lr".toList = false

/-- A URI whose text in a context is read back. -/
structure SipUri.Printable (ctx : Context) (url : SipUri) : Prop where
  user : Percent.Bytes (url.user ++ url.passwd)
  host : HostOk url.host
  port : 0 ≤ url.port ∧ url.port ≤ 65535
  user_param : (∀ c ∈ url.user_param, paramCharSpec c = true) ∨ Quoted url.user_param
  params : Percent.Bytes (url.method_param ++ url.transport_param ++ url.maddr_param)
  ttl_param : -1 ≤ url.ttl_param ∧ url.ttl_param ≤ 255
  maddr_param : ':' ∈ url.maddr_param → ∀ c ∈ url.maddr_param, paramCharSpec c = true
  other_param : ∀ q ∈ url.other_param, q.Printable ∧ q.read.Extra
  header_param : ∀ q ∈ url.header_param, q.Printable ∧ cur q.value ≠ '"'
  probe : url.user = [] → '@' ∉ url.hostPart ctx

/-- What is read of a URI that was written in a context. -/
def SipUri.received (ctx : Context) (url : SipUri) : SipUri where
  secure := url.secure
  user := unescape url.user
  passwd := if url.user = [] then [] else unescape url.passwd
  host := url.host
  port := if ctx = .fromtoHdr then 0 else url.port
  user_param := readValue url.user_param
  method_param := if ctx = .other then unescape url.method_param else []
  transport_param := if ctx = .fromtoHdr then [] else unescape url.transport_param
  ttl_param := if ctx = .fromtoHdr ∨ ctx = .routingHdr then -1 else url.ttl_param
  lr_param := url.lr_param && decide (ctx ≠ .fromtoHdr ∧ ctx ≠ .contactHdr)
  maddr_param :=
    if ctx = .fromtoHdr then []
    else if ':' ∈ url.maddr_param then unescape (hostText url.maddr_param)
    else unescape url.maddr_param
  other_param := url.other_param.map Param.read
  header_param :=
    if ctx = .contactHdr ∨ ctx = .other then url.header_param.map Param.read else []

/-- The text ends a URI. -/
def EndsUri (s : Text) : Prop := cur s = nul ∨ cur s = '>' ∨ cur s = ' '

/-! ### Character sets -/

lemma spec_mono (h : ∀ c ∈ others, c ∈ others') (hc : spec others c = true) :
    spec others' c = true := by
  rw [spec, Bool.or_eq_true, List.contains_iff_mem] at hc ⊢
  exact hc.imp_right (h c)

lemma inverted_of_spec (h : ∀ c ∈ nul :: others', spec others c = false)
    (hc : spec others c = true) : inverted others' c = true := by
  have hne : ∀ d ∈ nul :: others', c ≠ d := by
    rintro d hd rfl
    rw [h c hd] at hc
    exact absurd hc Bool.false_ne_true
  rw [inverted, Bool.and_eq_true, bne_iff_ne, Bool.not_eq_true', ← Bool.not_eq_true,
    List.contains_iff_mem]
  exact ⟨hne nul (by simp), fun hmem => hne c (List.mem_cons_of_mem _ hmem) rfl⟩

lemma readable_userSpec : Percent.Readable userSpec := readable_spec (by decide)

lemma readable_passwdSpec : Percent.Readable passwdSpec := readable_spec (by decide)

lemma readable_hdrCharSpec : Percent.Readable hdrCharSpec := readable_spec (by decide)

/-- The characters that can follow the host. -/
def AfterHost (s : Text) : Prop := cur s = ';' ∨ cur s = '?' ∨ EndsUri s

lemma stop_of_afterHost (hs : AfterHost s) : hostSpec (cur s) = false ∧
    digitSpec (cur s) = false ∧ cur s ≠ ':' := by
  rcases hs with hs | hs | hs | hs | hs <;> rw [hs] <;> decide

/-! ### The scheme -/

lemma reads_expectChar (hc : c ≠ nul) (hs : Settled ws s) :
    Reads (expectChar ws c) (c :: s) () s := by
  refine (Reads.scanGetChar hc hs).bind ?_
  rw [if_pos rfl]
  exact .pure _ _

lemma reads_scheme : Reads parseScheme (url.schemeText ++ s) url.secure s := by
  have hsip : Reads parseScheme ("sip".toList ++ ':' :: s) false s := by
    have hget :
        Reads (scanGet false tokenSpec) ("sip".toList ++ ':' :: s) "sip".toList (':' :: s) :=
      Reads.scanGet (by decide) (by decide) rfl settled_false
    exact hget.bind ((reads_expectChar (by decide) settled_false).bind (.pure _ _))
  have hsips : Reads parseScheme ("sips".toList ++ ':' :: s) true s := by
    have hget : Reads (scanGet false tokenSpec) ("sips".toList ++ ':' :: s) "sips".toList
        (':' :: s) := Reads.scanGet (by decide) (by decide) rfl settled_false
    exact hget.bind ((reads_expectChar (by decide) settled_false).bind (.pure _ _))
  rw [SipUri.schemeText, List.append_assoc]
  cases hsec : url.secure with
  | false => exact hsip
  | true => exact hsips

/-! ### The user -/

/-- What stands before the sign `@`. -/
def SipUri.userPart (url : SipUri) : Text :=
  escape userSpec url.user ++ if url.passwd = [] then [] else ':' :: escape passwdSpec url.passwd

lemma userText_of_ne_nil (h : url.user ≠ []) : url.userText = url.userPart ++ ['@'] := by
  rw [SipUri.userText, if_neg h, SipUri.userPart, List.append_assoc]

lemma probe_userPart : ∀ c ∈ url.userPart, probeUserHostSpec c = true := by
  intro c hc
  rw [SipUri.userPart, List.mem_append] at hc
  rcases hc with hc | hc
  · exact inverted_of_spec (by decide) (readable_userSpec.of_mem_encode hc)
  · split at hc
    · simp at hc
    · rcases List.mem_cons.1 hc with rfl | hc
      · decide
      · exact inverted_of_spec (by decide) (readable_passwdSpec.of_mem_encode hc)

lemma reads_isNextUser (h : url.user ≠ []) :
    Reads isNextUser (url.userText ++ s) true (url.userText ++ s) := by
  have hpeek := Reads.scanPeek (p := probeUserHostSpec) (w := url.userPart) (s := '@' :: s)
    (by simp) probe_userPart rfl
  rw [userText_of_ne_nil h, List.append_assoc]
  exact hpeek.bind (.pure _ _)

lemma cur_dropWhile_of_notMem (hw : c ∉ w) (hs : cur (s.dropWhile p) ≠ c) :
    cur ((w ++ s).dropWhile p) ≠ c := by
  induction w with
  | nil => exact hs
  | cons d w ih =>
    rw [List.mem_cons, not_or] at hw
    rw [List.cons_append, List.dropWhile_cons]
    split
    · exact ih hw.2
    · exact Ne.symm hw.1

/-- Without a user the search for the sign finds something else. -/
lemma reads_isNextUser_of_notMem (hw : '@' ∉ w) (hne : w ++ s ≠ []) (hs : EndsUri s) :
    Reads isNextUser (w ++ s) false (w ++ s) := by
  have hstop : cur (s.dropWhile probeUserHostSpec) ≠ '@' := by
    cases s with
    | nil => decide
    | cons c s =>
      have hc : probeUserHostSpec c = false := by
        rcases hs with hs | hs | hs <;> rw [← cur_cons (c := c) (s := s), hs] <;> decide
      rw [List.dropWhile_cons_of_neg (by simp [hc])]
      rcases hs with hs | hs | hs <;> rw [hs] <;> decide
  have hempty : (w ++ s).isEmpty = false := by simpa using hne
  have hpeek : Reads (scanPeek probeUserHostSpec) (w ++ s)
      ((w ++ s).takeWhile probeUserHostSpec, cur ((w ++ s).dropWhile probeUserHostSpec))
      (w ++ s) := by
    show scanPeek probeUserHostSpec (w ++ s) = _
    rw [scanPeek, hempty]
    rfl
  have hfalse : (cur ((w ++ s).dropWhile probeUserHostSpec) == '@') = false := by
    simpa using cur_dropWhile_of_notMem hw hstop
  refine hpeek.bind ?_
  rw [← hfalse]
  exact .pure _ _

lemma reads_userPass (h : url.user ≠ []) (hbytes : Percent.Bytes (url.user ++ url.passwd)) :
    Reads parseUserPass (url.userText ++ s) (unescape url.user, unescape url.passwd) s := by
  have huser : Percent.Bytes url.user := fun c hc => hbytes c (List.mem_append_left _ hc)
  have hpasswd : Percent.Bytes url.passwd := fun c hc => hbytes c (List.mem_append_right _ hc)
  have hget : ∀ s, userSpecLenient (cur s) = false → Reads (getAndUnescape false userSpecLenient)
      (escape userSpec url.user ++ s) (unescape url.user) s := by
    intro s hs
    rw [← unescape_escape readable_userSpec huser]
    refine reads_getAndUnescape (mt Percent.encode_eq_nil_iff.1 h) (fun c hc => ?_) hs settled_false
    exact spec_mono (by decide) (readable_userSpec.of_mem_encode hc)
  rw [userText_of_ne_nil h, SipUri.userPart, List.append_assoc, List.append_assoc]
  by_cases hnil : url.passwd = []
  · rw [if_pos hnil, hnil]
    refine (hget _ rfl).bind ((Reads.curChar _).bind ?_)
    exact (Reads.scanGetChar (by decide) settled_false).bind (.pure _ _)
  · rw [if_neg hnil]
    have hpass : Reads (getAndUnescape false passwdSpec)
        (escape passwdSpec url.passwd ++ '@' :: s) (unescape url.passwd) ('@' :: s) := by
      rw [← unescape_escape readable_passwdSpec hpasswd]
      exact reads_getAndUnescape (mt Percent.encode_eq_nil_iff.1 hnil)
        (fun c hc => readable_passwdSpec.of_mem_encode hc) rfl settled_false
    refine (hget _ rfl).bind ((Reads.curChar _).bind ?_)
    refine (Reads.scanGetChar (by decide) settled_false).bind ?_
    exact hpass.bind ((Reads.scanGetChar (by decide) settled_false).bind (.pure _ _))

/-! ### Host and port -/

lemma reads_host {host : Text} (h : HostOk host) (hs : hostSpec (cur s) = false)
    (hsettled : Settled ws s) : Reads (parseHost ws) (hostText host ++ s) host s := by
  unfold parseHost
  rcases h with ⟨hne, hall⟩ | ⟨hcolon, hbracket, hcur, hvisible⟩
  · have hnotMem : ':' ∉ host := fun hmem => absurd (hall _ hmem) (by decide)
    have hfirst : cur host ≠ '[' := by
      intro hcur
      exact absurd (hcur ▸ hall _ (mem_of_cur_ne_nil hne)) (by decide)
    rw [hostText, if_neg fun hboth => hnotMem hboth.1]
    refine (Reads.curChar _).bind ?_
    rw [cur_append_of_ne_nil hne, if_neg hfirst]
    exact Reads.scanGet hne hall hs hsettled
  · have hinner : Settled ws (host ++ ']' :: s) := by
      obtain ⟨c, v, rfl⟩ := List.exists_cons_of_ne_nil (List.ne_nil_of_mem hcolon)
      exact settled_cons hvisible
    rw [hostText, if_pos ⟨hcolon, hcur⟩, List.cons_append, List.append_assoc, List.singleton_append]
    refine (Reads.curChar _).bind ?_
    rw [cur_cons, if_pos rfl]
    refine (Reads.scanGetChar (by decide) hinner).bind ?_
    refine (Reads.scanGetUntilCh hbracket (settled_cons (by decide))).bind ?_
    exact (Reads.scanGetChar (by decide) hsettled).bind (.pure _ _)

lemma isDigit_of_mem_utoa {n : ℕ} (h : c ∈ utoa n) : digitSpec c = true := isDigit_of_mem_toDigits h

lemma utoa_ne_nil (n : ℕ) : utoa n ≠ [] := Nat.toDigits_ne_nil

lemma strtoul3_utoa (n : ℕ) : strtoul3 (utoa n) = some n := by
  obtain ⟨d, ds, hd⟩ := List.exists_cons_of_ne_nil (utoa_ne_nil n)
  have hdigit : d.isDigit = true := isDigit_of_mem_utoa (n := n) (by rw [hd]; simp)
  have hdrop : (utoa n).dropWhile isspace = utoa n := by
    rw [hd, List.dropWhile_cons_of_neg (by simp [isspace_of_isDigit hdigit])]
  have hread := leadingNat_toDigits n (s := []) (by simp)
  rw [List.append_nil] at hread
  have hcur : (cur (utoa n)).isDigit = true := by
    rw [hd]
    exact hdigit
  have hval : leadingNat (utoa n) = n := hread
  rw [strtoul3, hdrop]
  simp only [hcur, if_true, hval]

lemma strtol2_utoa (n : ℕ) : strtol2 (utoa n) = some (n : ℤ) := by
  obtain ⟨d, ds, hd⟩ := List.exists_cons_of_ne_nil (utoa_ne_nil n)
  have hdigit : d.isDigit = true := isDigit_of_mem_utoa (n := n) (by rw [hd]; simp)
  have hdrop : (utoa n).dropWhile isspace = utoa n := by
    rw [hd, List.dropWhile_cons_of_neg (by simp [isspace_of_isDigit hdigit])]
  have hminus : ∀ s, utoa n ≠ '-' :: s := fun s heq => by
    rw [hd] at heq
    rw [(List.cons.inj heq).1] at hdigit
    exact absurd hdigit (by decide)
  have hplus : ∀ s, utoa n ≠ '+' :: s := fun s heq => by
    rw [hd] at heq
    rw [(List.cons.inj heq).1] at hdigit
    exact absurd hdigit (by decide)
  rw [strtol2, hdrop]
  split
  · next hnil => exact absurd hnil (utoa_ne_nil n)
  · next s heq => exact absurd heq (hminus s)
  · next s heq => exact absurd heq (hplus s)
  · rw [strtoul3_utoa]
    rfl

lemma reads_strtoiValidate_of_le {n : ℕ} {min_val max_val : ℤ} (hmin : min_val ≤ n)
    (hmax : (n : ℤ) ≤ max_val) :
    Reads (strtoiValidate (utoa n) min_val max_val) s (n : ℤ) s := by
  unfold strtoiValidate
  rw [strtol2_utoa]
  show Reads (if min_val ≤ (n : ℤ) ∧ (n : ℤ) ≤ max_val then _ else _) s _ s
  rw [if_pos ⟨hmin, hmax⟩]
  exact .pure _ _

lemma reads_strtoiValidate {n : ℕ} {max_val : ℤ} (hn : (n : ℤ) ≤ max_val) :
    Reads (strtoiValidate (utoa n) 0 max_val) s (n : ℤ) s :=
  reads_strtoiValidate_of_le (Int.natCast_nonneg n) hn

lemma reads_uriHostPort (h : HostOk url.host) (hport : 0 ≤ url.port ∧ url.port ≤ 65535)
    (hs : AfterHost s) : Reads parseUriHostPort (hostText url.host ++ (url.portText ctx ++ s))
      (url.host, if ctx = .fromtoHdr then 0 else url.port) s := by
  obtain ⟨hhost, hdigit, hcolon⟩ := stop_of_afterHost hs
  unfold parseUriHostPort
  by_cases hshown : url.port ≠ 0 ∧ ctx ≠ .fromtoHdr
  · rw [SipUri.portText, if_pos hshown, if_neg hshown.2]
    refine (reads_host h rfl settled_false).bind ((Reads.curChar _).bind ?_)
    rw [List.cons_append, cur_cons, if_pos rfl]
    refine (Reads.scanGetChar (by decide) settled_false).bind ?_
    refine (Reads.scanGet (utoa_ne_nil _) (fun c hc => isDigit_of_mem_utoa hc) hdigit
      settled_false).bind ?_
    have hnat : ((url.port.toNat : ℕ) : ℤ) = url.port := Int.toNat_of_nonneg hport.1
    have hread : Reads (strtoiValidate (utoa url.port.toNat) 0 65535) s url.port s := by
      have hnum := reads_strtoiValidate (n := url.port.toNat) (s := s) (hnat.trans_le hport.2)
      rwa [hnat] at hnum
    exact hread.bind (.pure _ _)
  · have hzero : (if ctx = .fromtoHdr then 0 else url.port) = 0 := by
      split
      · rfl
      · next hctx =>
        by_contra hne
        exact hshown ⟨hne, hctx⟩
    rw [SipUri.portText, if_neg hshown, List.nil_append, hzero]
    refine (reads_host h hhost settled_false).bind ((Reads.curChar _).bind ?_)
    rw [if_neg hcolon]
    exact .pure _ _

/-! ### Parameters -/

/-- A parameter with a meaning of its own, as it is on the wire. -/
def pairParams (name text : Text) : List Param := if text = [] then [] else [⟨name, text⟩]

/-- The parameters of a URI as they are on the wire. -/
def SipUri.written (ctx : Context) (url : SipUri) : List Param :=
  pairParams "user".toList url.user_param ++ (pairParams "method".toList (url.methodText ctx) ++
  (pairParams "transport".toList (url.transportText ctx) ++
  (pairParams "ttl".toList (url.ttlText ctx) ++ (pairParams "maddr".toList (url.maddrParamText ctx) ++
  ((if url.lr_param ∧ ctx ≠ .fromtoHdr ∧ ctx ≠ .contactHdr then [⟨"lr".toList, []⟩] else []) ++
  url.other_param.map (Param.written paramCharSpec))))))

lemma paramsText_pairParams (name text : Text) :
    paramsText (pairParams name text) = pairText name text := by
  rw [pairParams, pairText]
  split
  · rfl
  · exact List.append_nil _

lemma hostPart_eq : url.hostPart ctx =
    hostText url.host ++ (url.portText ctx ++ (paramsText (url.written ctx) ++
      url.headerText ctx)) := by
  have hlr : paramsText (if url.lr_param ∧ ctx ≠ .fromtoHdr ∧ ctx ≠ .contactHdr
      then [⟨"lr".toList, []⟩] else []) = url.lrText ctx := by
    rw [SipUri.lrText]
    split <;> rfl
  rw [SipUri.hostPart, SipUri.written]
  simp only [paramsText_append, paramsText_pairParams, hlr, printParams_eq, List.append_assoc]

/-- A test for the name of another parameter. -/
lemma stricmp_and {n r : Text} {b : Bool} (h : stricmp n r = false) :
    ¬(stricmp n r && b) = true := by
  rw [h, Bool.false_and]
  exact Bool.false_ne_true

lemma stricmp_and_pos {n r : Text} (h : stricmp n r = true) (hne : value ≠ []) :
    (stricmp n r && decide (value ≠ [])) = true := by
  rw [h, Bool.true_and, decide_eq_true hne]

lemma reads_addParam_user (hne : value ≠ []) :
    Reads (url.addParam ⟨"user".toList, value⟩) s { url with user_param := value } s := by
  rw [SipUri.addParam, if_pos (stricmp_and_pos rfl hne)]
  exact .pure _ _

lemma reads_addParam_method (hne : value ≠ []) :
    Reads (url.addParam ⟨"method".toList, value⟩) s { url with method_param := value } s := by
  rw [SipUri.addParam, if_neg (stricmp_and rfl), if_pos (stricmp_and_pos rfl hne)]
  exact .pure _ _

lemma reads_addParam_transport (hne : value ≠ []) :
    Reads (url.addParam ⟨"transport".toList, value⟩) s { url with transport_param := value } s := by
  rw [SipUri.addParam, if_neg (stricmp_and rfl), if_neg (stricmp_and rfl),
    if_pos (stricmp_and_pos rfl hne)]
  exact .pure _ _

lemma reads_addParam_ttl (url : SipUri) (s : Text) {n : ℕ} (hn : (n : ℤ) ≤ 255) :
    Reads (url.addParam ⟨"ttl".toList, utoa n⟩) s { url with ttl_param := n } s := by
  rw [SipUri.addParam, if_neg (stricmp_and rfl), if_neg (stricmp_and rfl),
    if_neg (stricmp_and rfl), if_pos (stricmp_and_pos rfl (utoa_ne_nil n))]
  exact (reads_strtoiValidate hn).bind (.pure _ _)

lemma reads_addParam_maddr (hne : value ≠ []) :
    Reads (url.addParam ⟨"maddr".toList, value⟩) s { url with maddr_param := value } s := by
  rw [SipUri.addParam, if_neg (stricmp_and rfl), if_neg (stricmp_and rfl),
    if_neg (stricmp_and rfl), if_neg (stricmp_and rfl),
    if_pos (stricmp_and_pos rfl hne)]
  exact .pure _ _

lemma reads_addParam_lr :
    Reads (url.addParam ⟨"lr".toList, []⟩) s { url with lr_param := true } s := by
  rw [SipUri.addParam, if_neg (stricmp_and rfl), if_neg (stricmp_and rfl),
    if_neg (stricmp_and rfl), if_neg (stricmp_and rfl),
    if_neg (stricmp_and rfl), if_pos (by decide)]
  exact .pure _ _

/-- Another parameter is kept as it is. -/
lemma reads_addParam_other {q : Param} (h : q.Extra) :
    Reads (url.addParam q) s { url with other_param := url.other_param ++ [q] } s := by
  have hskip : ∀ name ∈ ["user".toList, "method".toList, "transport".toList, "ttl".toList,
      "maddr".toList], ¬(stricmp q.name name && decide (q.value ≠ [])) = true := by
    intro name hname hboth
    rw [Bool.and_eq_true, decide_eq_true_eq] at hboth
    exact hboth.2 (h.valued name hname hboth.1)
  rw [SipUri.addParam, if_neg (hskip _ (by simp)), if_neg (hskip _ (by simp)),
    if_neg (hskip _ (by simp)), if_neg (hskip _ (by simp)), if_neg (hskip _ (by simp)),
    if_neg (by rw [h.lr]; exact Bool.false_ne_true)]
  exact .pure _ _

lemma folds_other (url : SipUri) {params : List Param} (h : ∀ q ∈ params, q.Extra) :
    Folds SipUri.addParam url params { url with other_param := url.other_param ++ params } := by
  induction params generalizing url with
  | nil =>
    rw [List.append_nil]
    exact .nil url
  | cons q params ih =>
    refine .cons (fun s => reads_addParam_other (h q (by simp))) ?_
    have htail := ih { url with other_param := url.other_param ++ [q] }
      fun q' hq' => h q' (by simp [hq'])
    simpa only [List.append_assoc, List.singleton_append] using htail

/-- A parameter that is there or not. -/
lemma folds_pairParams {σ : Type} {upd : σ → Param → Parser σ} {x y : σ} {name text : Text}
    (hname : '%' ∉ name) (hnil : text = [] → x = y)
    (hne : text ≠ [] → ∀ s, Reads (upd x ⟨name, readValue text⟩) s y s) :
    Folds upd x ((pairParams name text).map Param.read) y := by
  rw [pairParams]
  split
  · next h => exact hnil h ▸ .nil x
  · next h =>
    have hread : (⟨name, text⟩ : Param).read = ⟨name, readValue text⟩ := by
      rw [Param.read, unescape, Percent.decode_of_notMem hname]
    rw [List.map_singleton, hread]
    exact .cons (hne h) (.nil _)

lemma readValue_ne_nil (h : value ≠ []) : readValue value ≠ [] := by
  rw [readValue]
  split
  · exact h
  · exact mt Percent.decode_eq_nil_iff.1 h

lemma readValue_eq_unescape (h : cur value ≠ '"') : readValue value = unescape value := if_neg h

@[simp] lemma readValue_nil : readValue [] = [] := rfl

@[simp] lemma unescape_nil : unescape [] = [] := rfl

/-- A value that was escaped. -/
lemma readValue_escape (hw : Percent.Bytes w) :
    readValue (escape paramCharSpec w) = unescape w := by
  have hcur : cur (escape paramCharSpec w) ≠ '"' :=
    cur_ne_quote paramSpec_paramChar fun _ hc => paramSpec_paramChar.readable.of_mem_encode hc
  rw [readValue_eq_unescape hcur, unescape_escape paramSpec_paramChar.readable hw]

lemma folds_user (h : url.user_param = []) (text : Text) :
    Folds SipUri.addParam url ((pairParams "user".toList text).map Param.read)
      { url with user_param := readValue text } := by
  refine folds_pairParams (by decide) ?_ fun hne s => reads_addParam_user (readValue_ne_nil hne)
  rintro rfl
  rw [readValue_nil, ← h]

lemma folds_method (h : url.method_param = []) (text : Text) :
    Folds SipUri.addParam url ((pairParams "method".toList text).map Param.read)
      { url with method_param := readValue text } := by
  refine folds_pairParams (by decide) ?_ fun hne s => reads_addParam_method (readValue_ne_nil hne)
  rintro rfl
  rw [readValue_nil, ← h]

lemma folds_transport (h : url.transport_param = []) (text : Text) :
    Folds SipUri.addParam url ((pairParams "transport".toList text).map Param.read)
      { url with transport_param := readValue text } := by
  refine folds_pairParams (by decide) ?_
    fun hne s => reads_addParam_transport (readValue_ne_nil hne)
  rintro rfl
  rw [readValue_nil, ← h]

lemma folds_maddr (h : url.maddr_param = []) (text : Text) :
    Folds SipUri.addParam url ((pairParams "maddr".toList text).map Param.read)
      { url with maddr_param := readValue text } := by
  refine folds_pairParams (by decide) ?_ fun hne s => reads_addParam_maddr (readValue_ne_nil hne)
  rintro rfl
  rw [readValue_nil, ← h]

lemma readValue_utoa (n : ℕ) : readValue (utoa n) = utoa n := by
  have hdigit : ∀ d : Char, ¬d.isDigit = true → d ∉ utoa n := fun d hd hmem =>
    hd (isDigit_of_mem_utoa hmem)
  have hcur : cur (utoa n) ≠ '"' := fun hcur =>
    hdigit '"' (by decide) (hcur ▸ mem_of_cur_ne_nil (utoa_ne_nil n))
  rw [readValue_eq_unescape hcur, unescape, Percent.decode_of_notMem (hdigit '%' (by decide))]

lemma folds_ttl {v : SipUri} (h : v.ttl_param = -1) (httl : -1 ≤ url.ttl_param ∧
    url.ttl_param ≤ 255) :
    Folds SipUri.addParam v ((pairParams "ttl".toList (url.ttlText ctx)).map Param.read)
      { v with ttl_param :=
          if ctx = .fromtoHdr ∨ ctx = .routingHdr then -1 else url.ttl_param } := by
  by_cases hshown : 0 ≤ url.ttl_param ∧ ctx ≠ .fromtoHdr ∧ ctx ≠ .routingHdr
  · have hctx : ¬(ctx = .fromtoHdr ∨ ctx = .routingHdr) := not_or.2 hshown.2
    have hnat : ((url.ttl_param.toNat : ℕ) : ℤ) = url.ttl_param := Int.toNat_of_nonneg hshown.1
    rw [SipUri.ttlText, if_pos hshown, if_neg hctx]
    refine folds_pairParams (by decide) (fun hnil => absurd hnil (utoa_ne_nil _)) fun _ s => ?_
    rw [readValue_utoa]
    have hread := reads_addParam_ttl v s (hnat.trans_le httl.2)
    rwa [hnat] at hread
  · have hval : (if ctx = .fromtoHdr ∨ ctx = .routingHdr then -1 else url.ttl_param) = -1 := by
      split
      · rfl
      · next hctx =>
        rw [not_or] at hctx
        have hneg : ¬0 ≤ url.ttl_param := fun h0 => hshown ⟨h0, hctx⟩
        omega
    rw [SipUri.ttlText, if_neg hshown, hval, ← h]
    exact .nil v

lemma folds_lr {v : SipUri} (h : v.lr_param = false) (b : Bool) :
    Folds SipUri.addParam v
      ((if b = true ∧ ctx ≠ .fromtoHdr ∧ ctx ≠ .contactHdr then
        [(⟨"lr".toList, []⟩ : Param)] else []).map Param.read)
      { v with lr_param := b && decide (ctx ≠ .fromtoHdr ∧ ctx ≠ .contactHdr) } := by
  split
  · next hshown =>
    have hval : (b && decide (ctx ≠ .fromtoHdr ∧ ctx ≠ .contactHdr)) = true := by
      rw [hshown.1, decide_eq_true hshown.2]
      rfl
    rw [hval]
    exact .cons (fun s => reads_addParam_lr) (.nil _)
  · next hshown =>
    have hval : (b && decide (ctx ≠ .fromtoHdr ∧ ctx ≠ .contactHdr)) = false := by
      rw [Bool.and_eq_false_iff, decide_eq_false_iff_not]
      by_cases hb : b = true
      · exact Or.inr fun hctx => hshown ⟨hb, hctx⟩
      · exact Or.inl (by simpa using hb)
    rw [hval, ← h]
    exact .nil v

/-- The values that are read. -/
lemma readValue_methodText (h : Percent.Bytes url.method_param) :
    readValue (url.methodText ctx) = if ctx = .other then unescape url.method_param else [] := by
  rw [SipUri.methodText]
  split
  · exact readValue_escape h
  · rfl

lemma readValue_transportText (h : Percent.Bytes url.transport_param) :
    readValue (url.transportText ctx) =
      if ctx = .fromtoHdr then [] else unescape url.transport_param := by
  rw [SipUri.transportText]
  by_cases hctx : ctx = .fromtoHdr
  · rw [if_neg (not_not.2 hctx), if_pos hctx]
    rfl
  · rw [if_pos hctx, if_neg hctx, readValue_escape h]

lemma cur_hostText (h : cur w ≠ '"') : cur (hostText w) ≠ '"' := by
  rw [hostText]
  split
  · show '[' ≠ '"'
    decide
  · exact h

lemma readValue_maddrParamText (h : Percent.Bytes url.maddr_param)
    (hcolon : ':' ∈ url.maddr_param → ∀ c ∈ url.maddr_param, paramCharSpec c = true) :
    readValue (url.maddrParamText ctx) =
      if ctx = .fromtoHdr then []
      else if ':' ∈ url.maddr_param then unescape (hostText url.maddr_param)
      else unescape url.maddr_param := by
  rw [SipUri.maddrParamText]
  by_cases hctx : ctx = .fromtoHdr
  · rw [if_neg (not_not.2 hctx), if_pos hctx]
    rfl
  · rw [if_pos hctx, if_neg hctx, maddrText]
    split
    · next hmem =>
      have hcur : cur url.maddr_param ≠ '"' := cur_ne_quote paramSpec_paramChar (hcolon hmem)
      exact readValue_eq_unescape (cur_hostText hcur)
    · exact readValue_escape h

/-- What is read of a URI before its header parameters. -/
def SipUri.receivedParams (ctx : Context) (url : SipUri) : SipUri :=
  { url.received ctx with header_param := [] }

/-- What is read of a URI before its parameters. -/
def SipUri.receivedHost (ctx : Context) (url : SipUri) : SipUri where
  secure := url.secure
  user := unescape url.user
  passwd := if url.user = [] then [] else unescape url.passwd
  host := url.host
  port := if ctx = .fromtoHdr then 0 else url.port

/-- The parameters are put where they belong. -/
lemma folds_written (h : url.Printable ctx) : Folds SipUri.addParam (url.receivedHost ctx)
    ((url.written ctx).map Param.read) (url.receivedParams ctx) := by
  have hmethod : Percent.Bytes url.method_param := fun c hc => h.params c (by simp [hc])
  have htransport : Percent.Bytes url.transport_param := fun c hc => h.params c (by simp [hc])
  have hmaddr : Percent.Bytes url.maddr_param := fun c hc => h.params c (by simp [hc])
  have hother : (url.other_param.map (Param.written paramCharSpec)).map Param.read =
      url.other_param.map Param.read :=
    map_read_written paramSpec_paramChar fun q hq => (h.other_param q hq).1
  have hextra : ∀ q ∈ url.other_param.map Param.read, q.Extra := by
    intro q hq
    obtain ⟨q', hq', rfl⟩ := List.mem_map.1 hq
    exact (h.other_param q' hq').2
  have hfinal : url.receivedParams ctx =
      { url.receivedHost ctx with
        user_param := readValue url.user_param
        method_param := readValue (url.methodText ctx)
        transport_param := readValue (url.transportText ctx)
        ttl_param := if ctx = .fromtoHdr ∨ ctx = .routingHdr then -1 else url.ttl_param
        maddr_param := readValue (url.maddrParamText ctx)
        lr_param := url.lr_param && decide (ctx ≠ .fromtoHdr ∧ ctx ≠ .contactHdr)
        other_param := [] ++ url.other_param.map Param.read } := by
    rw [readValue_methodText hmethod, readValue_transportText htransport,
      readValue_maddrParamText hmaddr h.maddr_param]
    rfl
  rw [hfinal, SipUri.written]
  simp only [List.map_append, hother]
  refine (folds_user rfl url.user_param).append ?_
  refine (folds_method rfl (url.methodText ctx)).append ?_
  refine (folds_transport rfl (url.transportText ctx)).append ?_
  refine (folds_ttl rfl h.ttl_param).append ?_
  refine (folds_maddr rfl (url.maddrParamText ctx)).append ?_
  refine (folds_lr rfl url.lr_param).append ?_
  exact folds_other _ hextra

/-- Escaped texts can be written as names and values. -/
lemma mem_escape (h : c ∈ escape paramCharSpec w) : paramCharSpec c = true :=
  paramSpec_paramChar.readable.of_mem_encode h

lemma written_pairParams {name text : Text} (hne : name ≠ [])
    (hname : ∀ c ∈ name, paramCharSpec c = true)
    (htext : (∀ c ∈ text, paramCharSpec c = true) ∨ Quoted text) :
    ∀ q ∈ pairParams name text, Written paramCharSpec q.name q.value := by
  intro q hq
  rw [pairParams] at hq
  split at hq
  · simp at hq
  · obtain rfl := List.mem_singleton.1 hq
    exact ⟨hne, hname, htext⟩

lemma mem_maddrText (hcolon : ':' ∈ w → ∀ c ∈ w, paramCharSpec c = true)
    (h : c ∈ maddrText w) : paramCharSpec c = true := by
  rw [maddrText] at h
  split at h
  · next hmem =>
    rw [hostText] at h
    split at h
    · rw [List.mem_cons, List.mem_append, List.mem_singleton] at h
      rcases h with rfl | h | rfl
      · decide
      · exact hcolon hmem c h
      · decide
    · exact hcolon hmem c h
  · exact mem_escape h

/-- The parameters of a URI can be written. -/
lemma written_written (h : url.Printable ctx) :
    ∀ q ∈ url.written ctx, Written paramCharSpec q.name q.value := by
  have hempty : ∀ c ∈ ([] : Text), paramCharSpec c = true := by simp
  intro q hq
  simp only [SipUri.written, List.mem_append] at hq
  rcases hq with hq | hq | hq | hq | hq | hq | hq
  · exact written_pairParams (by decide) (by decide) h.user_param q hq
  · refine written_pairParams (by decide) (by decide) (Or.inl fun c hc => ?_) q hq
    rw [SipUri.methodText] at hc
    split at hc
    · exact mem_escape hc
    · exact hempty c hc
  · refine written_pairParams (by decide) (by decide) (Or.inl fun c hc => ?_) q hq
    rw [SipUri.transportText] at hc
    split at hc
    · exact mem_escape hc
    · exact hempty c hc
  · refine written_pairParams (by decide) (by decide) (Or.inl fun c hc => ?_) q hq
    rw [SipUri.ttlText] at hc
    split at hc
    · have hdigit : c.isDigit = true := isDigit_of_mem_utoa hc
      rw [paramCharSpec, spec, Char.isAlphanum, hdigit, Bool.or_true, Bool.true_or]
    · exact hempty c hc
  · refine written_pairParams (by decide) (by decide) (Or.inl fun c hc => ?_) q hq
    rw [SipUri.maddrParamText] at hc
    split at hc
    · exact mem_maddrText h.maddr_param hc
    · exact hempty c hc
  · split at hq
    · obtain rfl := List.mem_singleton.1 hq
      exact ⟨by decide, by decide, Or.inl (by decide)⟩
    · simp at hq
  · obtain ⟨q', hq', rfl⟩ := List.mem_map.1 hq
    exact (h.other_param q' hq').1.written paramSpec_paramChar

/-! ### Header parameters -/

lemma reads_hparam {sep : Char} {name : Text} (hsep : sep ≠ nul) (hne : name ≠ [])
    (hname : ∀ c ∈ name, hdrCharSpec c = true) (hvalue : ∀ c ∈ value, hdrCharSpec c = true)
    (hs : hdrCharSpec (cur s) = false) (heq : cur s ≠ '=') :
    Reads parseHparam (paramText sep name value ++ s) ⟨unescape name, unescape value⟩ s := by
  unfold parseHparam
  rw [paramText, List.cons_append, List.append_assoc]
  refine (Reads.scanGetChar hsep settled_false).bind ?_
  by_cases hnil : value = []
  · subst hnil
    rw [if_pos rfl, List.nil_append]
    refine (reads_getAndUnescape hne hname hs settled_false).bind ((Reads.curChar _).bind ?_)
    rw [if_neg heq]
    exact .pure _ _
  · rw [if_neg hnil, List.cons_append]
    refine (reads_getAndUnescape hne hname rfl settled_false).bind ((Reads.curChar _).bind ?_)
    rw [cur_cons, if_pos rfl]
    refine (Reads.scanGetChar (by decide) settled_false).bind ((Reads.curChar _).bind ?_)
    rw [cur_append_of_ne_nil hnil, if_pos (hvalue _ (mem_of_cur_ne_nil hnil))]
    exact (reads_getAndUnescape hnil hvalue hs settled_false).bind (.pure _ _)

/-- A header parameter that is read back. -/
def Param.HeaderOk (q : Param) : Prop := q.Printable ∧ cur q.value ≠ '"'

lemma reads_header {sep : Char} {q : Param} (hsep : sep ≠ nul) (h : q.HeaderOk)
    (hs : hdrCharSpec (cur s) = false) (heq : cur s ≠ '=') :
    Reads (parseUriHeader url)
      (paramText sep (escape hdrCharSpec q.name) (valueText hdrCharSpec q.value) ++ s)
      { url with header_param := url.header_param ++ [q.read] } s := by
  have hname : Percent.Bytes q.name := fun c hc => h.1.bytes c (by simp [hc])
  have hvalue : Percent.Bytes q.value := fun c hc => h.1.bytes c (by simp [hc])
  have hread : q.read = ⟨unescape (escape hdrCharSpec q.name),
      unescape (escape hdrCharSpec q.value)⟩ := by
    rw [Param.read, readValue_eq_unescape h.2, unescape_escape readable_hdrCharSpec hname,
      unescape_escape readable_hdrCharSpec hvalue]
  rw [valueText, if_neg h.2, hread]
  refine (reads_hparam hsep (mt Percent.encode_eq_nil_iff.1 h.1.name_ne_nil) ?_ ?_ hs heq).bind
    (.pure _ _)
  · exact fun c hc => readable_hdrCharSpec.of_mem_encode hc
  · exact fun c hc => readable_hdrCharSpec.of_mem_encode hc

lemma stop_of_endsUri (hs : EndsUri s) : hdrCharSpec (cur s) = false ∧ cur s ≠ '=' ∧
    cur s ≠ '&' ∧ cur s ≠ '?' ∧ cur s ≠ ';' ∧ paramCharSpec (cur s) = false := by
  rcases hs with hs | hs | hs <;> rw [hs] <;> decide

/-- What stands after a header parameter. -/
lemma stop_of_headers (params : List Param) (hs : EndsUri s) :
    hdrCharSpec (cur (printParams hdrCharSpec '&' params ++ s)) = false ∧
      cur (printParams hdrCharSpec '&' params ++ s) ≠ '=' := by
  cases params with
  | nil => exact ⟨(stop_of_endsUri hs).1, (stop_of_endsUri hs).2.1⟩
  | cons q params =>
    show hdrCharSpec '&' = false ∧ '&' ≠ '='
    decide

lemma loops_headers (url : SipUri) {params : List Param} (h : ∀ q ∈ params, q.HeaderOk)
    (hs : EndsUri s) :
    Loops (fun s => cur s == '&') parseUriHeader url (printParams hdrCharSpec '&' params ++ s)
      { url with header_param := url.header_param ++ params.map Param.read } s := by
  induction params generalizing url with
  | nil =>
    have hcond : (cur s == '&') = false := by simpa using (stop_of_endsUri hs).2.2.1
    rw [List.map_nil, List.append_nil]
    exact .done hcond
  | cons q params ih =>
    obtain ⟨hstop, heq⟩ := stop_of_headers params hs
    have htail := ih { url with header_param := url.header_param ++ [q.read] }
      fun q' hq' => h q' (by simp [hq'])
    rw [printParams, if_neg (by decide), List.append_assoc]
    refine .step rfl (reads_header (by decide) (h q (by simp)) hstop heq) ?_ ?_
    · simp only [paramText, List.cons_append, List.length_cons, List.length_append]
      omega
    · simpa only [List.append_assoc, List.singleton_append, List.map_cons] using htail

lemma reads_uriHeaders (h : url.Printable ctx) (hs : EndsUri s) :
    Reads (parseUriHeaders (url.receivedParams ctx)) (url.headerText ctx ++ s)
      (url.received ctx) s := by
  obtain ⟨-, -, -, hquery, -⟩ := stop_of_endsUri hs
  have hnone : (url.received ctx).header_param = [] → url.headerText ctx = [] →
      Reads (parseUriHeaders (url.receivedParams ctx)) (url.headerText ctx ++ s)
        (url.received ctx) s := by
    intro hnil htext
    have heq : url.receivedParams ctx = url.received ctx := by
      rw [SipUri.receivedParams, ← hnil]
    rw [htext, heq, List.nil_append]
    refine (Reads.curChar s).bind ?_
    rw [if_neg hquery]
    exact .pure _ _
  by_cases hctx : ctx = .contactHdr ∨ ctx = .other
  · cases hparams : url.header_param with
    | nil =>
      refine hnone ?_ ?_
      · rw [SipUri.received, hparams]
        exact ite_self _
      · rw [SipUri.headerText, hparams]
        exact ite_self _
    | cons q params =>
      have hall : ∀ q' ∈ q :: params, q'.HeaderOk := hparams ▸ h.header_param
      have hreceived : url.received ctx =
          { url.receivedParams ctx with
            header_param := ([] ++ [q.read]) ++ params.map Param.read } := by
        rw [SipUri.receivedParams, SipUri.received, if_pos hctx, hparams]
        rfl
      obtain ⟨hstop, heq⟩ := stop_of_headers params hs
      have hrest := loops_headers { url.receivedParams ctx with header_param := [] ++ [q.read] }
        (fun q' hq' => hall q' (List.mem_cons_of_mem _ hq')) hs
      rw [SipUri.headerText, if_pos hctx, hparams, printParams, if_pos rfl, List.append_assoc,
        hreceived]
      refine (Reads.curChar _).bind ?_
      rw [paramText, List.cons_append, cur_cons, if_pos rfl]
      exact (reads_header (by decide) (hall q (by simp)) hstop heq).bind hrest.reads_loop
  · refine hnone ?_ ?_
    · rw [SipUri.received, if_neg hctx]
    · rw [SipUri.headerText, if_neg hctx]

/-! ### The URI -/

/-- What follows the parameters of a URI. -/
lemma afterHost_headerText (url : SipUri) (ctx : Context) (hs : EndsUri s) :
    AfterHost (url.headerText ctx ++ s) ∧ cur (url.headerText ctx ++ s) ≠ ';' := by
  have hend : AfterHost s ∧ cur s ≠ ';' := ⟨Or.inr (Or.inr hs), (stop_of_endsUri hs).2.2.2.2.1⟩
  rw [SipUri.headerText]
  split
  · cases url.header_param with
    | nil => exact hend
    | cons q params =>
      refine ⟨Or.inr (Or.inl rfl), ?_⟩
      show '?' ≠ ';'
      decide
  · exact hend

lemma endsParam_of_afterHost (hs : AfterHost s) : EndsParam paramCharSpec false s := by
  refine ⟨?_, ?_, settled_false⟩
  · rcases hs with hs | hs | hs | hs | hs <;> rw [hs] <;> decide
  · rcases hs with hs | hs | hs | hs | hs <;> rw [hs] <;> decide

lemma reads_uriParams (h : url.Printable ctx) (hs : EndsUri s) :
    Reads (parseUriParams (url.receivedHost ctx))
      (paramsText (url.written ctx) ++ (url.headerText ctx ++ s)) (url.receivedParams ctx)
      (url.headerText ctx ++ s) := by
  obtain ⟨hafter, hsemi⟩ := afterHost_headerText url ctx hs
  exact (loops_params paramSpec_paramChar (written_written h) (endsParam_of_afterHost hafter) hsemi
    (folds_written h)).reads_loop

lemma afterHost_params (hs : EndsUri s) :
    AfterHost (paramsText (url.written ctx) ++ (url.headerText ctx ++ s)) := by
  cases url.written ctx with
  | nil => exact (afterHost_headerText url ctx hs).1
  | cons q params => exact Or.inl rfl

/-- The user, if there is one. -/
lemma reads_user (h : url.Printable ctx) (hs : EndsUri s) :
    Reads parseUser (url.userText ++ (url.hostPart ctx ++ s))
      (unescape url.user, if url.user = [] then [] else unescape url.passwd)
      (url.hostPart ctx ++ s) := by
  by_cases huser : url.user = []
  · have hne : url.hostPart ctx ++ s ≠ [] := by
      have hhost : hostText url.host ≠ [] := by
        rw [hostText]
        split
        · simp
        · rcases h.host with ⟨hne, -⟩ | ⟨hmem, -⟩
          · exact hne
          · exact List.ne_nil_of_mem hmem
      simp [hostPart_eq, hhost]
    have htext : url.userText = [] := if_pos huser
    rw [htext, huser, if_pos rfl, List.nil_append]
    refine (reads_isNextUser_of_notMem (h.probe huser) hne hs).bind ?_
    rw [if_neg Bool.false_ne_true]
    exact .pure _ _
  · rw [if_neg huser]
    refine (reads_isNextUser huser).bind ?_
    rw [if_pos rfl]
    exact reads_userPass huser h.user

/-- A URI is read as it was written. -/
theorem reads_sipUrl (h : url.Printable ctx) (hs : EndsUri s) :
    Reads (parseSipUrl ws true) (url.print ctx ++ s) (url.received ctx) (skipWhitespace ws s) := by
  have hparams := (reads_uriParams h hs).bind (reads_uriHeaders h hs)
  have hafter : AfterHost (paramsText (url.written ctx) ++ (url.headerText ctx ++ s)) :=
    afterHost_params hs
  rw [SipUri.print, List.append_assoc, List.append_assoc]
  refine reads_scheme.bind ((reads_user h hs).bind ?_)
  rw [hostPart_eq, List.append_assoc, List.append_assoc, List.append_assoc]
  refine (reads_uriHostPort h.host h.port hafter).bind ?_
  exact hparams.bind ((Reads.scanSkipWhitespace rfl).bind (.pure _ _))

/-! ### URIs of a user at a host -/

/-- A user at a host. -/
def plainUri (user host : Text) (port : ℤ) : SipUri :=
  { secure := false, user := user, host := host, port := port }

lemma printable_plainUri {user host : Text} {port : ℤ} (ctx : Context) (hne : user ≠ [])
    (huser : ∀ c ∈ user, c.toNat < 256) (hhost : host ≠ [] ∧ ∀ c ∈ host, hostSpec c = true)
    (hport : 0 ≤ port ∧ port ≤ 65535) : (plainUri user host port).Printable ctx where
  user := fun c hc => huser c (by simpa [plainUri] using hc)
  host := Or.inl hhost
  port := hport
  user_param := Or.inl (by simp [plainUri])
  params := fun c hc => by simp [plainUri] at hc
  ttl_param := by
    show (-1 : ℤ) ≤ -1 ∧ (-1 : ℤ) ≤ 255
    decide
  maddr_param := fun hc => by simp [plainUri] at hc
  other_param := fun q hq => by simp [plainUri] at hq
  header_param := fun q hq => by simp [plainUri] at hq
  probe := fun h => absurd h hne

end Sip.Wire
