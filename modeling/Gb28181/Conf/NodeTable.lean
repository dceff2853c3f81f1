import Gb28181.Conf.Layout
import Gb28181.Sub.GlobalCtl
import Gb28181.Sup.GlobalCtl

/-!
# The table of nodes after loading

The list that a service loads from a configuration file, and its registry after
`GlobalCtl::init`, are those of the file exactly when every node equals the node whose number is
the leading decimal digit of its own.
-/

namespace Conf

open Lib

/-- The entry of a node in the list of SipSupService. -/
abbrev PeerNode.sub (n : PeerNode) : SubNodeInfo := n.info SubNodeInfo.mk

/-- The entry of a node in the list of SipSubService. -/
abbrev PeerNode.sup (n : PeerNode) : SupNodeInfo := n.info SupNodeInfo.mk

/-- The node whose number is the leading digit of the number of a node is equal to it. -/
def LeadingDigitsAgree (nodes : List PeerNode) : Prop :=
  ∀ i, 0 < i → i ≤ nodes.length → nodes[i - 1]? = nodes[leadingDigit i - 1]?

/-- SipSupService loads the nodes of the file, in order, and its registry carries them. -/
def SupLoads (f : ConfFile subNodeKeys) (stack : Stacks) : Prop :=
  ∃ conf, readConfSup (some f.text) stack = .ok (some conf) ∧
    conf.nodeInfoList = f.settings.nodes.map PeerNode.sub ∧
    ∃ list, Sup.init (some conf) [] = some list ∧
      list.map (fun info => (info.sipId, info.addrIp, info.sipPort, info.protocal)) =
        f.settings.nodes.map fun n => (n.id.1, n.ip.1, n.port.1, n.poto.1)

/-- SipSubService likewise. -/
def SubLoads (f : ConfFile supNodeKeys) (stack : Stacks) : Prop :=
  ∃ conf, readConfSub (some f.text) stack = .ok (some conf) ∧
    conf.nodeInfoList = f.settings.nodes.map PeerNode.sup ∧
    ∃ list, Sub.init (some conf) [] = some list ∧
      list.map (fun info => (info.sipId, info.addrIp, info.sipPort, info.protocal)) =
        f.settings.nodes.map fun n => (n.id.1, n.ip.1, n.port.1, n.poto.1)

lemma loadedNodes_eq_iff {nodes : List PeerNode} :
    loadedNodes nodes = nodes ↔ LeadingDigitsAgree nodes := by
  have hlen : (loadedNodes nodes).length = nodes.length := List.length_ofFn
  have hget : ∀ k < nodes.length, (loadedNodes nodes)[k]? = nodes[leadingDigit (k + 1) - 1]? := by
    intro k hk
    have := leadingDigit_le (k + 1)
    rw [List.getElem?_eq_getElem (hlen ▸ hk), List.getElem?_eq_getElem (by omega)]
    simp [loadedNodes]
  constructor
  · intro h i hi hle
    have hi' : i - 1 + 1 = i := by omega
    have := hget (i - 1) (by omega)
    rwa [h, hi'] at this
  · intro h
    refine List.ext_getElem? fun k => ?_
    by_cases hk : k < nodes.length
    · rw [hget k hk]
      exact (h (k + 1) (by omega) hk).symm
    · rw [List.getElem?_eq_none (by omega), List.getElem?_eq_none (by omega)]

/-- Up to nine nodes none is mixed up with another. -/
lemma leadingDigitsAgree_of_length_le {nodes : List PeerNode} (h : nodes.length ≤ 9) :
    LeadingDigitsAgree nodes := by
  intro i _ hle
  rw [leadingDigit_of_lt (by omega)]

lemma map_loadedNodes_eq_iff {ν : Type} {toInfo : PeerNode → ν}
    (hinj : Function.Injective toInfo) {nodes : List PeerNode} :
    (loadedNodes nodes).map toInfo = nodes.map toInfo ↔ LeadingDigitsAgree nodes := by
  rw [(List.map_injective_iff.2 hinj).eq_iff, loadedNodes_eq_iff]

lemma PeerNode.sub_injective : Function.Injective PeerNode.sub := by
  rintro ⟨id, ip, port, poto, last⟩ ⟨id', ip', port', poto', last'⟩ h
  simpa [PeerNode.sub, PeerNode.info, Subtype.ext_iff] using h

lemma PeerNode.sup_injective : Function.Injective PeerNode.sup := by
  rintro ⟨id, ip, port, poto, last⟩ ⟨id', ip', port', poto', last'⟩ h
  simpa [PeerNode.sup, PeerNode.info, Subtype.ext_iff] using h

lemma supLoads_iff (f : ConfFile subNodeKeys) (stack : Stacks) :
    SupLoads f stack ↔ LeadingDigitsAgree f.settings.nodes := by
  have hconf := f.readConf_eq wellNamed_subNodeKeys stack SubNodeInfo.mk
  rw [← map_loadedNodes_eq_iff PeerNode.sub_injective]
  constructor
  · rintro ⟨conf, hread, hlist, -⟩
    obtain rfl := Option.some.inj (Except.ok.inj (hread.symm.trans hconf))
    exact hlist
  · intro h
    exact ⟨_, hconf, h, _, rfl, by simp [h, Sup.infoOf, PeerNode.sub, PeerNode.info]⟩

lemma subLoads_iff (f : ConfFile supNodeKeys) (stack : Stacks) :
    SubLoads f stack ↔ LeadingDigitsAgree f.settings.nodes := by
  have hconf := f.readConf_eq wellNamed_supNodeKeys stack SupNodeInfo.mk
  rw [← map_loadedNodes_eq_iff PeerNode.sup_injective]
  constructor
  · rintro ⟨conf, hread, hlist, -⟩
    obtain rfl := Option.some.inj (Except.ok.inj (hread.symm.trans hconf))
    exact hlist
  · intro h
    exact ⟨_, hconf, h, _, rfl, by simp [h, Sub.infoOf, PeerNode.sup, PeerNode.info]⟩

/-- Both services load the table of nodes of their file exactly when every node is equal to the
node whose number is the leading digit of its own: always for at most nine nodes, and never if
the tenth node differs from the first one. -/
theorem nodes_loaded_iff (f : ConfFile subNodeKeys) (g : ConfFile supNodeKeys) (stack : Stacks) :
    (SupLoads f stack ↔ LeadingDigitsAgree f.settings.nodes) ∧
      (SubLoads g stack ↔ LeadingDigitsAgree g.settings.nodes) :=
  ⟨supLoads_iff f stack, subLoads_iff g stack⟩

/-! ### A table of ten nodes -/

/-- A number as an `int`. -/
def CInt.ofNat (n : ℕ) : CInt := ⟨wrap32 n, isInt32_wrap32 n⟩

lemma printable_loopback : Printable "127.0.1".toList := ⟨by decide, by decide, by decide⟩

lemma printable_supId : Printable "10000000002000000001".toList := ⟨by decide, by decide, by decide⟩

lemma printable_subId : Printable "11000000002000000001".toList := ⟨by decide, by decide, by decide⟩

lemma localPort_pos : 0 < (CInt.ofNat 11300).1 := by decide

lemma sipPort_pos : 0 < (CInt.ofNat 5061).1 := by decide

/-- Settings like those of the configuration files of the repository. -/
def sampleSettings (sipId : Word) (nodes : List PeerNode) : Settings where
  localIp := ⟨_, printable_loopback⟩
  localPort := .ofNat 11300
  sipId := sipId
  sipIp := ⟨_, printable_loopback⟩
  sipPort := .ofNat 5061
  nodes := nodes
  localPort_pos := localPort_pos
  sipPort_pos := sipPort_pos

/-- A peer node as in these files. -/
def sampleNode (id : Word) (port last : CInt) : PeerNode where
  id := id
  ip := ⟨_, printable_loopback⟩
  port := port
  poto := .ofNat 1
  last := last

/-- The settings of a service with ten nodes, which differ in their ports. -/
def tenNodes : Settings :=
  sampleSettings ⟨_, printable_supId⟩ (List.ofFn fun k : Fin 10 =>
    sampleNode ⟨_, printable_subId⟩ (.ofNat (7101 + k)) (.ofNat 0))

/-- The file with these settings. -/
def tenNodesFile : ConfFile subNodeKeys := .ofLayout subNodeKeys tenNodes (by decide +kernel)

/-- A zeroed stack. -/
def zeroStacks : Stacks := fun _ _ => ⟨List.replicate 1024 nul, List.length_replicate⟩

/-- The tenth node of this file is loaded from the lines of the first one. -/
theorem not_supLoads_tenNodesFile : ¬ SupLoads tenNodesFile zeroStacks := by
  rw [supLoads_iff]
  intro h
  -- the lookup of the tenth key stops at the first one
  have hdigit : leadingDigit 10 = 1 := by
    rw [leadingDigit, if_neg (by decide), leadingDigit_of_lt (by decide)]
  have hport := congrArg (Option.map fun n : PeerNode => n.port.1) (h 10 (by decide) (by decide))
  rw [hdigit] at hport
  exact absurd hport (by decide)

end Conf
