import Gb28181.Conf.SipLocalConfig

/-!
# The upper nodes of SipSubService

`GlobalCtl` of SipSubService: the list of the upper nodes with which the service registers.
-/

namespace Sub

open Lib Conf

/-- `SupDomainInfo`. -/
structure SupDomainInfo where
  sipId : Text := []
  addrIp : Text := []
  sipPort : ℤ := 0
  protocal : ℤ := 0
  registered : Bool := false
  expires : ℤ := 0
  deriving DecidableEq, Repr

/-- The entry that `GlobalCtl::init` makes of a node of the configuration. -/
def infoOf (node : SupNodeInfo) : SupDomainInfo where
  sipId := node.id
  addrIp := node.ip
  sipPort := node.port
  protocal := node.poto
  expires := node.expires

/-- `GlobalCtl::init` on the list; `none` says that it returns `false`. -/
def init (gConfig : Option (SipLocalConfig SupNodeInfo)) (list : List SupDomainInfo) :
    Option (List SupDomainInfo) :=
  gConfig.map fun conf => list ++ conf.nodeInfoList.map infoOf

end Sub
