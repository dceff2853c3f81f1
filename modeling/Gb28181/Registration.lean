import Gb28181.Conf.Accepted
import Gb28181.Conf.NodeTable
import Gb28181.Sub.SipRegister
import Gb28181.Sup.SipRegister

/-!
# A registration between the two services

What SipSubService writes into a REGISTER and what SipSupService reads from it: the id, which goes
through the From header, and the expiry, which goes through the Expires header.
-/

namespace Registration

open Lib Conf Sip

/-! ### The id -/

/-- A tag of the stack: at most `PJ_GUID_MAX_LENGTH` characters. -/
structure Tag where
  text : Text
  length_le : text.length ≤ 36
  nul_notMem : nul ∉ text

/-- What stands before a tag. -/
def tagParam : Text := ";tag=".toList

variable {sipId sipIp s : Text} {tag : Tag}

/-- The From header that the stack makes of the text of `setFrom`. -/
def sentFrom (hId : Accepted sipId) (hIp : Accepted sipIp) (tag : Tag) : FromHdr where
  display := []
  scheme := .sip
  user := sipId
  passwd := []
  host := sipIp
  params := tagParam ++ tag.text
  host_ne_nil := hIp.ne_nil
  nul_notMem := by
    have hparam : nul ∉ tagParam := by decide
    simp [hId.nul_notMem, hIp.nul_notMem, tag.nul_notMem, hparam]

lemma setFrom_eq_ok (h : setFrom sipId sipIp = .ok s) :
    s = '<' :: (Scheme.sip.text ++ ':' :: (sipId ++ '@' :: (sipIp ++ ['>']))) ∧ s.length < 128 := by
  rw [setFrom, sprintf128] at h
  split at h
  · next hlt =>
    obtain rfl := Except.ok.inj h
    exact ⟨by simp [Scheme.text], hlt⟩
  · simp at h

/-- The header is printed as the text of `setFrom` with a tag. -/
theorem text_sentFrom (hId : Accepted sipId) (hIp : Accepted sipIp)
    (h : setFrom sipId sipIp = .ok s) :
    (sentFrom hId hIp tag).text = FromHdr.name ++ (s ++ (tagParam ++ tag.text)) := by
  rw [(setFrom_eq_ok h).1, FromHdr.text, FromHdr.opening, FromHdr.address]
  simp [sentFrom, hId.ne_nil]

/-- It fits into the buffer of `parseFromId`. -/
lemma length_text_sentFrom (hId : Accepted sipId) (hIp : Accepted sipIp)
    (h : setFrom sipId sipIp = .ok s) : (sentFrom hId hIp tag).text.length < 1024 := by
  have hs := (setFrom_eq_ok h).2
  have htag := tag.length_le
  have hname : FromHdr.name.length = 6 := rfl
  have hparam : tagParam.length = 5 := rfl
  rw [text_sentFrom hId hIp h, List.length_append, List.length_append, List.length_append]
  omega

lemma idWindow_sentFrom (hId : Accepted sipId) (hIp : Accepted sipIp)
    (h : setFrom sipId sipIp = .ok s) : Sup.idWindow (sentFrom hId hIp tag) =
      (sipId ++ '@' :: (sipIp ++ '>' :: (tagParam ++ tag.text))).take 20 := by
  rw [Sup.idWindow, if_neg (Nat.not_le.2 (length_text_sentFrom hId hIp h))]
  simp [sentFrom, FromHdr.address, hId.ne_nil]

/-- The registrar reads the id out of a From header, and admits it if it is configured. -/
structure IdAgrees (sipId : Text) (h : FromHdr) : Prop where
  parsed : ∀ e, Sup.parseFromId ⟨.register, some h, e⟩ = .ok sipId
  admitted : ∀ e list, sipId ∈ Sup.ids list → ∃ fromId,
    Sup.parseFromId ⟨.register, some h, e⟩ = .ok fromId ∧ Sup.checkIsExist list fromId = true

lemma idAgrees_iff {h : FromHdr} : IdAgrees sipId h ↔ Sup.idWindow h = sipId := by
  constructor
  · intro hagrees
    have hparsed := hagrees.parsed none
    rw [Sup.parseFromId_eq] at hparsed
    exact Except.ok.inj hparsed
  · intro hwindow
    have hparsed : ∀ e, Sup.parseFromId ⟨.register, some h, e⟩ = .ok sipId := fun e => by
      rw [Sup.parseFromId_eq, hwindow]
    exact ⟨hparsed, fun e list hmem => ⟨sipId, hparsed e, Sup.checkIsExist_iff.2 hmem⟩⟩

/-- The registrar reads the id of a service that `ReadConf` accepts out of the From header that
this service sends exactly when it has 20 characters. -/
theorem idAgrees_sentFrom_iff (hId : Accepted sipId) (hIp : Accepted sipIp)
    (hfits : setFrom sipId sipIp = .ok s) (tag : Tag) :
    IdAgrees sipId (sentFrom hId hIp tag) ↔ sipId.length = 20 := by
  rw [idAgrees_iff]
  constructor
  · intro hwindow
    rw [idWindow_sentFrom hId hIp hfits] at hwindow
    have hlen := congrArg List.length hwindow
    simp only [List.length_take, List.length_append, List.length_cons] at hlen
    omega
  · intro hlen
    exact Sup.idWindow_eq_user (length_text_sentFrom hId hIp hfits) rfl rfl hlen

/-- A tag as the stack makes them. -/
def sampleTag : Tag := ⟨"2mdIf8lexOTBIMg2pPgKOBdDB3SowCcf".toList, by decide, by decide⟩

lemma accepted_sampleId : Accepted "11000000002000000001".toList := ⟨by decide, by decide⟩

lemma accepted_sampleIp : Accepted "127.0.1".toList := ⟨by decide, by decide⟩

/-- The id of the configuration file of the repository. -/
theorem idAgrees_sampleId : IdAgrees "11000000002000000001".toList
    (sentFrom accepted_sampleId accepted_sampleIp sampleTag) :=
  (idAgrees_sentFrom_iff accepted_sampleId accepted_sampleIp
    (s := "<sip:11000000002000000001@127.0.1>".toList) (by decide) sampleTag).2 (by decide)

/-- The id of the comment in `parseFromId`. -/
lemma accepted_shortId : Accepted "130909113319427420".toList := ⟨by decide, by decide⟩

lemma accepted_shortIp : Accepted "10.64.49.218".toList := ⟨by decide, by decide⟩

/-- It has 18 characters, and the registrar reads two more. -/
theorem not_idAgrees_shortId : ¬ IdAgrees "130909113319427420".toList
    (sentFrom accepted_shortId accepted_shortIp sampleTag) := by
  rw [idAgrees_iff]
  decide

/-! ### The expiry -/

/-- A REGISTER as the registrar receives it, with some From header. -/
def received (h : FromHdr) (req : Sub.Register) : Msg :=
  ⟨.register, some h, req.expires.map fun ivalue => parseIntHdr (printIntHdr ivalue)⟩

/-- Every REGISTER that `gbRegister` sends for a node carries an Expires header, and the registrar
stores the expiry of the node for it. -/
def ExpiryArrives (gConfig : SipLocalConfig SupNodeInfo) (node : Sub.SupDomainInfo) : Prop :=
  ∀ regc r req, Sub.gbRegister regc gConfig node = .ok r → r.sent = some req →
    req.expires ≠ none ∧
      ∀ h endpt list dealt id v, Sup.dealWithRegister endpt list (received h req) = .ok dealt →
        dealt.setExpiresArgs = some (id, v) → v = node.expires

variable {file : Option Text} {stack : Stacks} {conf : SipLocalConfig SupNodeInfo}
  {node : SupNodeInfo}

/-- The registrar stores the expiry that the request carries. -/
lemma setExpiresArgs_received {req : Sub.Register} {h : FromHdr} {endpt : Sup.Endpt}
    {list : List Sup.SubDomainInfo} {dealt : Sup.Dealt} {id : Text} {v e : ℤ} (he : IsInt32 e)
    (hreq : req.expires = some e)
    (hdealt : Sup.dealWithRegister endpt list (received h req) = .ok dealt)
    (hargs : dealt.setExpiresArgs = some (id, v)) : v = e := by
  rw [received, hreq, Option.map_some, parseIntHdr_printIntHdr he] at hdealt
  by_cases hid : Sup.idWindow h ∈ Sup.ids list
  · rw [Sup.dealWithRegister_of_mem hid] at hdealt
    obtain rfl := Except.ok.inj hdealt
    exact (congrArg Prod.snd (Option.some.inj hargs)).symm
  · rw [Sup.dealWithRegister_of_notMem hid] at hdealt
    obtain rfl := Except.ok.inj hdealt
    simp at hargs

/-- For a configuration that `ReadConf` accepts the expiry of a node arrives exactly when it is not
-1, or when the headers of the REGISTER do not fit and none is sent. -/
theorem expiryArrives_iff (h : readConfSub file stack = .ok (some conf))
    (hnode : node ∈ conf.nodeInfoList) : ExpiryArrives conf (Sub.infoOf node) ↔
      node.expires ≠ -1 ∨ ∃ e, Sub.formatMessage conf (Sub.infoOf node) = .error e := by
  have hint := isInt32_expires h hnode
  have hexpires : (Sub.infoOf node).expires = node.expires := rfl
  constructor
  · intro harrives
    by_contra hnot
    rw [not_or, not_not] at hnot
    obtain ⟨hminus, hformat⟩ := hnot
    rcases hmsg : Sub.formatMessage conf (Sub.infoOf node) with e | msg
    · exact hformat ⟨e, hmsg⟩
    -- -1 is converted to the value for which `pjsip_regc_init` adds no Expires header
    have hsend := Sub.gbRegister_of_format hmsg (by rw [hexpires, hminus]; decide)
    refine (harrives _ _ _ hsend rfl).1 ?_
    rw [hexpires, hminus]
    rfl
  · rintro hor regc r req hr hsent
    obtain ⟨msg, hmsg, -⟩ := Sub.gbRegister_cases hr
    have hne : node.expires ≠ -1 := hor.resolve_right fun ⟨e, he⟩ => by simp [hmsg] at he
    have hreq : req.expires = some node.expires := by
      rw [(Sub.expires_of_sent hr hsent).2, hexpires, setExpiresHdr_toUInt32 hint, if_neg hne]
    refine ⟨by simp [hreq], fun h endpt list dealt id v hdealt hargs => ?_⟩
    exact setExpiresArgs_received hint hreq hdealt hargs

/-! ### Two configuration files -/

/-- Settings with one upper node and some expiry. -/
def oneSupNode (expires : CInt) : Settings :=
  sampleSettings ⟨_, printable_subId⟩ [sampleNode ⟨_, printable_supId⟩ (.ofNat 5061) expires]

/-- The upper node of these settings. -/
def supNode (expires : ℤ) : SupNodeInfo :=
  ⟨"10000000002000000001".toList, "127.0.1".toList, 5061, 1, expires⟩

/-- What `ReadConf` makes of these settings. -/
def oneSupConf (expires : ℤ) : SipLocalConfig SupNodeInfo where
  localIp := "127.0.1".toList
  localPort := 11300
  sipId := "11000000002000000001".toList
  sipIp := "127.0.1".toList
  sipPort := 5061
  nodeInfoList := [supNode expires]

lemma readConfSub_oneSupNode {f : ConfFile supNodeKeys} {expires : CInt}
    (hf : f.settings = oneSupNode expires) :
    readConfSub (some f.text) zeroStacks = .ok (some (oneSupConf expires)) := by
  have hnodes : (loadedNodes (oneSupNode expires).nodes).map (PeerNode.info SupNodeInfo.mk) =
      [supNode expires] :=
    (map_loadedNodes_eq_iff PeerNode.sup_injective).2
      (leadingDigitsAgree_of_length_le (show 1 ≤ 9 by decide))
  rw [readConfSub, f.readConf_eq wellNamed_supNodeKeys, hf, hnodes]
  rfl

/-- The file with these settings and an expiry of one minute. -/
def minuteFile : ConfFile supNodeKeys :=
  .ofLayout supNodeKeys (oneSupNode (.ofNat 60)) (by decide +kernel)

/-- The expiry of one minute arrives. -/
theorem expiryArrives_minuteFile : ExpiryArrives (oneSupConf 60) (Sub.infoOf (supNode 60)) :=
  (expiryArrives_iff (readConfSub_oneSupNode (f := minuteFile) rfl) (List.mem_singleton.2 rfl)).2
    (Or.inl (by decide))

lemma isInt32_minusOne : IsInt32 (-1) := ⟨by decide, by decide⟩

/-- The file with these settings and an expiry of -1. -/
def noExpiryFile : ConfFile supNodeKeys :=
  .ofLayout supNodeKeys (oneSupNode ⟨-1, isInt32_minusOne⟩) (by decide +kernel)

/-- `ReadConf` accepts this file, and the REGISTER carries no Expires header. -/
theorem not_expiryArrives_noExpiryFile :
    readConfSub (some noExpiryFile.text) zeroStacks = .ok (some (oneSupConf (-1))) ∧
      supNode (-1) ∈ (oneSupConf (-1)).nodeInfoList ∧
      ¬ ExpiryArrives (oneSupConf (-1)) (Sub.infoOf (supNode (-1))) := by
  have hread := readConfSub_oneSupNode (f := noExpiryFile) rfl
  refine ⟨hread, List.mem_singleton.2 rfl, fun harrives => ?_⟩
  obtain ⟨msg, hmsg⟩ : ∃ msg,
      Sub.formatMessage (oneSupConf (-1)) (Sub.infoOf (supNode (-1))) = .ok msg := ⟨_, rfl⟩
  exact (harrives _ _ _ (Sub.gbRegister_of_format hmsg (by decide)) rfl).1 rfl

end Registration
