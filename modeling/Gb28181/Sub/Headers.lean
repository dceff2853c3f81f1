import Gb28181.Conf.NodeTable
import Gb28181.Sub.SipRegister

/-!
# The headers of a REGISTER in their buffers

`SipMessage` formats four texts with `sprintf` into arrays of 128 bytes, and nothing checks how
long the settings are of which they are made.  They fit exactly when the settings of the
service and those of the node are short enough together (`headersFit_iff`).
-/

namespace Sub

open Lib Conf Sip

/-- The four texts that `gbRegister` formats for a node leave room for the terminator. -/
structure HeadersFit (gConfig : SipLocalConfig SupNodeInfo) (node : SupDomainInfo) : Prop where
  fromHeader : ∃ s, setFrom gConfig.sipId gConfig.sipIp = .ok s ∧ s.length ≤ 127
  toHeader : ∃ s, setTo gConfig.sipId gConfig.sipIp = .ok s ∧ s.length ≤ 127
  requestUrl : ∃ s, setUrl node.sipId node.addrIp node.sipPort (urlProto node) = .ok s ∧
    s.length ≤ 127
  contact : ∃ s, setContact gConfig.sipId gConfig.sipIp gConfig.sipPort = .ok s ∧ s.length ≤ 127

variable {gConfig : SipLocalConfig SupNodeInfo} {node : SupDomainInfo}

lemma sprintf128_fits_iff {s : Text} : (∃ t, sprintf128 s = .ok t ∧ t.length ≤ 127) ↔
    s.length ≤ 127 := by
  rw [sprintf128]
  constructor
  · rintro ⟨t, ht, hlen⟩
    split at ht
    · exact Except.ok.inj ht ▸ hlen
    · exact absurd ht (by simp)
  · intro h
    rw [if_pos (by omega)]
    exact ⟨s, rfl, h⟩

/-- Both transports have names of three letters. -/
lemma length_urlProto : (urlProto node).length = 3 := by
  rw [urlProto]
  split <;> rfl

/-- The texts fit exactly when the id and the address of the service with the digits of its port
have at most 121 characters, and those of the node at most 107. -/
theorem headersFit_iff (gConfig : SipLocalConfig SupNodeInfo) (node : SupDomainInfo) :
    HeadersFit gConfig node ↔
      gConfig.sipId.length + gConfig.sipIp.length + (to_string gConfig.sipPort).length ≤ 121 ∧
        node.sipId.length + node.addrIp.length + (to_string node.sipPort).length ≤ 107 := by
  -- the fixed parts of the formats
  have hopen : "<sip:".toList.length = 5 := rfl
  have hscheme : "sip:".toList.length = 4 := rfl
  have hat : "@".toList.length = 1 := rfl
  have hcolon : ":".toList.length = 1 := rfl
  have hclose : ">".toList.length = 1 := rfl
  have htransport : ";transport=".toList.length = 11 := rfl
  have hfrom : (∃ s, setFrom gConfig.sipId gConfig.sipIp = .ok s ∧ s.length ≤ 127) ↔
      gConfig.sipId.length + gConfig.sipIp.length ≤ 120 := by
    rw [setFrom, sprintf128_fits_iff]
    simp only [List.length_append, hopen, hat, hclose]
    omega
  have hurl : (∃ s, setUrl node.sipId node.addrIp node.sipPort (urlProto node) = .ok s ∧
      s.length ≤ 127) ↔
      node.sipId.length + node.addrIp.length + (to_string node.sipPort).length ≤ 107 := by
    rw [setUrl, sprintf128_fits_iff]
    simp only [List.length_append, hscheme, hat, hcolon, htransport, length_urlProto]
    omega
  have hcontact : (∃ s, setContact gConfig.sipId gConfig.sipIp gConfig.sipPort = .ok s ∧
      s.length ≤ 127) ↔
      gConfig.sipId.length + gConfig.sipIp.length + (to_string gConfig.sipPort).length ≤ 121 := by
    rw [setContact, sprintf128_fits_iff]
    simp only [List.length_append, hscheme, hat, hcolon]
    omega
  -- a port has at least one digit
  have hport := List.length_pos_iff.2 (to_string_ne_nil gConfig.sipPort)
  constructor
  · intro h
    exact ⟨hcontact.1 h.contact, hurl.1 h.requestUrl⟩
  · rintro ⟨hown, hnode⟩
    have hfits := hfrom.2 (by omega)
    exact ⟨hfits, hfits, hurl.2 hnode, hcontact.2 hown⟩

/-- `gbRegister` gets as far as the calls of the stack exactly when the texts fit. -/
theorem formatMessage_ok_iff :
    (∃ msg, formatMessage gConfig node = .ok msg) ↔ HeadersFit gConfig node := by
  have hle : ∀ {x : Text} {s : Text}, sprintf128 x = .ok s → s.length ≤ 127 := by
    intro x s h
    rw [sprintf128] at h
    split at h
    · next hlt =>
      have hs := Except.ok.inj h
      rw [← hs]
      omega
    · exact absurd h (by simp)
  constructor
  · rintro ⟨msg, h⟩
    simp only [formatMessage, bind_eq_ok] at h
    obtain ⟨f, hf, t, ht, u, hu, c, hc, -⟩ := h
    exact ⟨⟨f, hf, hle hf⟩, ⟨t, ht, hle ht⟩, ⟨u, hu, hle hu⟩, ⟨c, hc, hle hc⟩⟩
  · rintro ⟨⟨f, hf, -⟩, ⟨t, ht, -⟩, ⟨u, hu, -⟩, ⟨c, hc, -⟩⟩
    exact ⟨⟨f, t, u, c⟩, by simp only [formatMessage, hf, ht, hu, hc, ok_bind, pure_eq_ok]⟩

/-- Ids of 20 characters and dotted addresses fit with every port. -/
theorem headersFit_of_length_le (hid : gConfig.sipId.length ≤ 20) (hip : gConfig.sipIp.length ≤ 15)
    (hport : IsInt32 gConfig.sipPort) (hid' : node.sipId.length ≤ 20)
    (hip' : node.addrIp.length ≤ 15) (hport' : IsInt32 node.sipPort) :
    HeadersFit gConfig node := by
  have hlen := length_to_string hport
  have hlen' := length_to_string hport'
  rw [headersFit_iff]
  omega

/-! ### A long id -/

lemma printable_longId : Printable (List.replicate 114 '1') := ⟨by decide, by decide, by decide⟩

/-- Settings with an id of 114 digits and one upper node. -/
def longIdSettings : Settings :=
  sampleSettings ⟨_, printable_longId⟩ [sampleNode ⟨_, printable_supId⟩ (.ofNat 5061) (.ofNat 60)]

/-- The file with these settings. -/
def longIdFile : ConfFile supNodeKeys := .ofLayout supNodeKeys longIdSettings (by decide +kernel)

/-- `ReadConf` accepts this file, and the texts for its node do not fit. -/
theorem not_headersFit_longIdFile :
    ∃ conf node, readConfSub (some longIdFile.text) zeroStacks = .ok (some conf) ∧
      node ∈ conf.nodeInfoList ∧ ¬ HeadersFit conf (infoOf node) := by
  have hnodes : (loadedNodes longIdSettings.nodes).map (PeerNode.info SupNodeInfo.mk) =
      longIdSettings.nodes.map (PeerNode.info SupNodeInfo.mk) :=
    (map_loadedNodes_eq_iff PeerNode.sup_injective).2
      (leadingDigitsAgree_of_length_le (show 1 ≤ 9 by decide))
  have hread := longIdFile.readConf_eq wellNamed_supNodeKeys zeroStacks SupNodeInfo.mk
  have hsettings : longIdFile.settings = longIdSettings := rfl
  rw [hsettings, hnodes] at hread
  refine ⟨_, _, hread, List.mem_singleton.2 rfl, ?_⟩
  rw [headersFit_iff]
  rintro ⟨hown, -⟩
  exact absurd hown (by decide)

end Sub
