import Gb28181.Conf.Readers

/-!
# The configuration of the two services

`SipLocalConfig::ReadConf` of SipSupService and of SipSubService.  They read the same
settings of the service itself and a table of peer nodes each, whose keys are numbered; they
differ in the names of the keys and in the last column of the table.
-/

namespace Conf

open Lib

/-- `LOCAL_SECTION`. -/
def localSection : Text := "localserver".toList

/-- `SIP_SECTION`. -/
def sipSection : Text := "sipserver".toList

def keyLocalIp : Text := "local_ip".toList
def keyLocalPort : Text := "local_port".toList
def keySipId : Text := "sip_id".toList
def keySipIp : Text := "sip_ip".toList
def keySipPort : Text := "sip_port".toList

/-- The names that do not depend on the table of nodes. -/
def fixedNames : List Text :=
  [localSection, sipSection, keyLocalIp, keyLocalPort, keySipId, keySipIp, keySipPort]

/-- They are C strings with characters. -/
lemma strlenPos_of_mem_fixedNames : ∀ s ∈ fixedNames, strlenPos s = true ∧ nul ∉ s := by decide

/-- The key of the number of nodes, and the keys of the columns of the table of nodes. -/
structure NodeKeys where
  num : Text
  id : Text
  ip : Text
  port : Text
  poto : Text
  last : Text

/-- `keySubNode...` of SipSupService. -/
def subNodeKeys : NodeKeys where
  num := "subnode_num".toList
  id := "sip_subnode_id".toList
  ip := "sip_subnode_ip".toList
  port := "sip_subnode_port".toList
  poto := "sip_subnode_poto".toList
  last := "sip_subnode_auth".toList

/-- `keySupNode...` of SipSubService. -/
def supNodeKeys : NodeKeys where
  num := "supnode_num".toList
  id := "sip_supnode_id".toList
  ip := "sip_supnode_ip".toList
  port := "sip_supnode_port".toList
  poto := "sip_supnode_poto".toList
  last := "sip_supnode_expires".toList

/-- `SubNodeInfo` of SipSupService. -/
structure SubNodeInfo where
  id : Text
  ip : Text
  port : ℤ
  poto : ℤ
  auth : ℤ
  deriving DecidableEq, Repr

/-- `SupNodeInfo` of SipSubService. -/
structure SupNodeInfo where
  id : Text
  ip : Text
  port : ℤ
  poto : ℤ
  expires : ℤ
  deriving DecidableEq, Repr

/-- What `ReadConf` loads, for a table of `ν`. -/
structure SipLocalConfig (ν : Type) where
  localIp : Text
  localPort : ℤ
  sipId : Text
  sipIp : Text
  sipPort : ℤ
  nodeInfoList : List ν
  deriving DecidableEq, Repr

section ReadConf

/-- The contents of the stack when `readStr` is called for a section and a key. -/
abbrev Stacks := Text → Text → StackBuf

variable {ν : Type} (file : Option Text) (stack : Stacks) (keys : NodeKeys)
  (info : Text → Text → ℤ → ℤ → ℤ → ν)

/-- The body of the loop of `ReadConf`. -/
def readNode (i : ℕ) : Except Fault ν := do
  let id := keys.id ++ to_string i
  let ip := keys.ip ++ to_string i
  let port := keys.port ++ to_string i
  let proto := keys.poto ++ to_string i
  let last := keys.last ++ to_string i
  return info (← readStr file (stack sipSection id) sipSection id)
    (← readStr file (stack sipSection ip) sipSection ip)
    (← readInt file sipSection port)
    (← readInt file sipSection proto)
    (← readInt file sipSection last)

/-- The loop of `ReadConf`, for `n` nodes from the `i`-th on. -/
def readNodes : ℕ → ℕ → Except Fault (List ν)
  | 0, _ => .ok []
  | n + 1, i => do
    let node ← readNode file stack keys info i
    return node :: (← readNodes n (i + 1))

/-- `ReadConf`; `none` says that it returns -1. -/
def readConf : Except Fault (Option (SipLocalConfig ν)) := do
  let localIp ← readStr file (stack localSection keyLocalIp) localSection keyLocalIp
  if localIp.isEmpty then return none
  let localPort ← readInt file localSection keyLocalPort
  if localPort ≤ 0 then return none
  let sipId ← readStr file (stack sipSection keySipId) sipSection keySipId
  if sipId.isEmpty then return none
  let sipIp ← readStr file (stack sipSection keySipIp) sipSection keySipIp
  if sipIp.isEmpty then return none
  let sipPort ← readInt file sipSection keySipPort
  if sipPort ≤ 0 then return none
  let num ← readInt file sipSection keys.num
  -- `for (int i = 1; i < num + 1; ++i)`
  let nodeInfoList ← readNodes file stack keys info (wrap32 (num + 1) - 1).toNat 1
  return some ⟨localIp, localPort, sipId, sipIp, sipPort, nodeInfoList⟩

end ReadConf

/-- `ReadConf` of SipSupService. -/
def readConfSup (file : Option Text) (stack : Stacks) :
    Except Fault (Option (SipLocalConfig SubNodeInfo)) :=
  readConf file stack subNodeKeys SubNodeInfo.mk

/-- `ReadConf` of SipSubService. -/
def readConfSub (file : Option Text) (stack : Stacks) :
    Except Fault (Option (SipLocalConfig SupNodeInfo)) :=
  readConf file stack supNodeKeys SupNodeInfo.mk

end Conf
