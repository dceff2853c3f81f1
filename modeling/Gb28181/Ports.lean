import Gb28181.Conf.Accepted
import Gb28181.Conf.NodeTable
import Gb28181.Sip.InitSip
import Gb28181.Sub.SipRegister

/-!
# The port of a service

The configured port goes two ways: it is cut to 16 bits for the address of the transports, and it is
printed in full into the Contact header of a REGISTER.  `ReadConf` rejects it only when it is not
positive, so the two agree exactly for the ports up to 65535 (`portsAgree_iff`).
-/

namespace Ports

open Lib Conf Sip

/-- The transports can be bound to a port as it is configured. -/
def Bindable (sipPort : ℤ) : Prop := ((transportAddr sipPort).port : ℤ) = sipPort

/-- The transports that a service starts with a configuration are bound to its port. -/
def BoundAsGiven {ν : Type} (conf : SipLocalConfig ν) : Prop :=
  ∀ calls, ∀ addr ∈ (initSip calls conf.sipPort).2.transports, (addr.port : ℤ) = conf.sipPort

/-- What `read`, the `ReadConf` of a service, accepts in a file is bound as it is given. -/
structure ServiceBinds {ν : Type} (file : Option Text)
    (read : Except Fault (Option (SipLocalConfig ν))) : Prop where
  bound : ∀ conf, read = .ok (some conf) → BoundAsGiven conf
  rejected : ∀ z, readInt file sipSection keySipPort = .ok z → ¬ Bindable z →
    ∀ r, read = .ok r → r = none

/-- If the file is accepted, its `sip_port` is at most 65535. -/
def PortFits {ν : Type} (file : Option Text)
    (read : Except Fault (Option (SipLocalConfig ν))) : Prop :=
  (∃ conf, read = .ok (some conf)) →
    ∀ z, readInt file sipSection keySipPort = .ok z → z ≤ 65535

/-- The port of the Contact header of SipSubService is the one to which its transports are bound. -/
def ContactReachable (conf : SipLocalConfig SupNodeInfo) : Prop :=
  ∀ node msg, Sub.formatMessage conf node = .ok msg →
    ∀ calls, ∀ addr ∈ (initSip calls conf.sipPort).2.transports,
      msg.contact = "sip:".toList ++ conf.sipId ++ "@".toList ++ conf.sipIp ++ ":".toList ++
        to_string addr.port

/-- The ports of the two services, each with its file. -/
structure PortsAgree (supFile : Option Text) (supStack : Stacks) (subFile : Option Text)
    (subStack : Stacks) : Prop where
  sup : ServiceBinds supFile (readConfSup supFile supStack)
  sub : ServiceBinds subFile (readConfSub subFile subStack)
  contact : ∀ conf, readConfSub subFile subStack = .ok (some conf) → ContactReachable conf

section Service

variable {ν : Type} {file : Option Text} {stack : Stacks} {keys : NodeKeys}
  {info : Text → Text → ℤ → ℤ → ℤ → ν} {conf : SipLocalConfig ν} {z : ℤ}

lemma bindable_iff (hpos : 0 < z) : Bindable z ↔ z ≤ 65535 := by
  rw [Bindable, port_transportAddr]
  omega

lemma boundAsGiven_iff : BoundAsGiven conf ↔ Bindable conf.sipPort := by
  constructor
  · intro h
    exact h .noFailure (transportAddr conf.sipPort) List.mem_cons_self
  · intro h calls addr haddr
    rw [eq_of_mem_transports haddr]
    exact h

/-- The port of a configuration is the integer that was read. -/
lemma portFits_iff : PortFits file (readConf file stack keys info) ↔
    ∀ conf, readConf file stack keys info = .ok (some conf) → conf.sipPort ≤ 65535 := by
  constructor
  · intro h conf hconf
    exact h ⟨conf, hconf⟩ _ (readConf_eq_some hconf).2.2.1.1
  · rintro h ⟨conf, hconf⟩ z hz
    obtain rfl := Except.ok.inj (hz.symm.trans (readConf_eq_some hconf).2.2.1.1)
    exact h conf hconf

/-- A service binds its ports as they are given exactly when `ReadConf` accepts none above 65535. -/
lemma serviceBinds_iff : ServiceBinds file (readConf file stack keys info) ↔
    PortFits file (readConf file stack keys info) := by
  rw [portFits_iff]
  have hport : ∀ {conf}, readConf file stack keys info = .ok (some conf) →
      (Bindable conf.sipPort ↔ conf.sipPort ≤ 65535) := fun h =>
    bindable_iff (readConf_eq_some h).2.2.1.2
  constructor
  · intro h conf hconf
    exact (hport hconf).1 (boundAsGiven_iff.1 (h.bound conf hconf))
  · intro h
    refine ⟨fun conf hconf => boundAsGiven_iff.2 ((hport hconf).2 (h conf hconf)), ?_⟩
    intro z hz hno r hr
    cases r with
    | none => rfl
    | some conf =>
      -- the port of a configuration is the integer that was read
      have hread := (readConf_eq_some hr).2.2.1.1
      obtain rfl := Except.ok.inj (hz.symm.trans hread)
      exact absurd ((hport hr).2 (h conf hr)) hno

end Service

/-- What the transports are bound to is what the Contact header says. -/
lemma contactReachable_of_boundAsGiven {conf : SipLocalConfig SupNodeInfo}
    (h : BoundAsGiven conf) : ContactReachable conf := by
  intro node msg hmsg calls addr haddr
  simp only [Sub.formatMessage, bind_eq_ok, pure_eq_ok, Except.ok.injEq] at hmsg
  obtain ⟨f, -, t, -, u, -, c, hc, rfl⟩ := hmsg
  rw [setContact, sprintf128] at hc
  split at hc
  · rw [h calls addr haddr]
    exact (Except.ok.inj hc).symm
  · exact absurd hc (by simp)

/-- The ports that the services bind and advertise are the configured ones exactly when the
`sip_port` of neither file is above 65535, or the file is refused for another reason. -/
theorem portsAgree_iff (supFile : Option Text) (supStack : Stacks) (subFile : Option Text)
    (subStack : Stacks) : PortsAgree supFile supStack subFile subStack ↔
      PortFits supFile (readConfSup supFile supStack) ∧
        PortFits subFile (readConfSub subFile subStack) := by
  constructor
  · intro h
    exact ⟨serviceBinds_iff.1 h.sup, serviceBinds_iff.1 h.sub⟩
  · rintro ⟨hsup, hsub⟩
    have hbinds := serviceBinds_iff.2 hsub
    exact ⟨serviceBinds_iff.2 hsup, hbinds, fun conf hconf =>
      contactReachable_of_boundAsGiven (hbinds.bound conf hconf)⟩

/-! ### A high port -/

lemma highPort_pos : 0 < (CInt.ofNat 70000).1 := by decide

/-- Settings with the port 70000. -/
def highPort : Settings :=
  { sampleSettings ⟨_, printable_subId⟩ [sampleNode ⟨_, printable_supId⟩ (.ofNat 5061) (.ofNat 60)]
      with
    sipPort := .ofNat 70000
    sipPort_pos := highPort_pos }

/-- The file of a SipSupService with these settings. -/
def highPortSupFile : ConfFile subNodeKeys := .ofLayout subNodeKeys highPort (by decide +kernel)

/-- The file of a SipSubService with these settings. -/
def highPortSubFile : ConfFile supNodeKeys := .ofLayout supNodeKeys highPort (by decide +kernel)

/-- Both services accept the port 70000, and their transports are bound to the port 4464. -/
theorem not_portsAgree_highPort : ¬ PortsAgree (some highPortSupFile.text) zeroStacks
    (some highPortSubFile.text) zeroStacks := by
  intro h
  have hread := highPortSubFile.readConf_eq wellNamed_supNodeKeys zeroStacks SupNodeInfo.mk
  have hbound := h.sub.bound _ hread .noFailure (transportAddr 70000) (List.mem_cons_self)
  have hport := port_transportAddr 70000
  rw [hbound] at hport
  exact absurd hport (by decide)

end Ports
