import Gb28181.Conf.SipLocalConfig

/-!
# The registry of SipSupService

`GlobalCtl` of SipSupService: the list of the lower nodes that may register, which is filled
from the configuration, and the two operations on it that the registrar uses, each of them
under `globalLock`.
-/

namespace Sup

open Lib Conf

/-- `SubDomainInfo`. -/
structure SubDomainInfo where
  sipId : Text := []
  addrIp : Text := []
  sipPort : ℤ := 0
  protocal : ℤ := 0
  registered : Bool := false
  expires : ℤ := 0
  isAuth : Bool := false
  deriving DecidableEq, Repr

/-- The entry that `GlobalCtl::init` makes of a node of the configuration. -/
def infoOf (node : SubNodeInfo) : SubDomainInfo where
  sipId := node.id
  addrIp := node.ip
  sipPort := node.port
  protocal := node.poto
  isAuth := decide (node.auth ≠ 0)

/-- `GlobalCtl::init` on the list; `none` says that it returns `false`. -/
def init (gConfig : Option (SipLocalConfig SubNodeInfo)) (list : List SubDomainInfo) :
    Option (List SubDomainInfo) :=
  gConfig.map fun conf => list ++ conf.nodeInfoList.map infoOf

/-- `GlobalCtl::checkIsExist`. -/
def checkIsExist (list : List SubDomainInfo) (id : Text) : Bool :=
  list.any fun info => info.sipId == id

/-- `GlobalCtl::setExpires`. -/
def setExpires (list : List SubDomainInfo) (id : Text) (expires : ℤ) : List SubDomainInfo :=
  match list with
  | [] => []
  | info :: list =>
    if info.sipId = id then { info with expires := expires } :: list
    else info :: setExpires list id expires

/-- The ids of the registry. -/
def ids (list : List SubDomainInfo) : List Text := list.map (·.sipId)

/-- The expiry of an id: that of the first entry that has it. -/
def expiresOf (list : List SubDomainInfo) (id : Text) : Option ℤ :=
  (list.find? fun info => info.sipId == id).map (·.expires)

variable {list : List SubDomainInfo} {id id' : Text} {e : ℤ}

lemma checkIsExist_iff : checkIsExist list id = true ↔ id ∈ ids list := by
  simp [checkIsExist, ids]

@[simp] lemma ids_setExpires : ids (setExpires list id e) = ids list := by
  induction list with
  | nil => rfl
  | cons info list ih =>
    rw [setExpires]
    split
    · rfl
    · exact congrArg (info.sipId :: ·) ih

/-- The expiry that was set is found again. -/
lemma expiresOf_setExpires (h : id ∈ ids list) :
    expiresOf (setExpires list id e) id = some e := by
  induction list with
  | nil => simp [ids] at h
  | cons info list ih =>
    rw [setExpires]
    split
    · next hid => simp [expiresOf, hid]
    · next hid =>
      have hmem : id ∈ ids list := by
        simpa [ids, Ne.symm hid] using h
      simpa [expiresOf, hid] using ih hmem

/-- The other ids keep their expiry. -/
lemma expiresOf_setExpires_of_ne (h : id' ≠ id) :
    expiresOf (setExpires list id e) id' = expiresOf list id' := by
  induction list with
  | nil => rfl
  | cons info list ih =>
    rw [setExpires]
    split
    · next hid =>
      have hne : info.sipId ≠ id' := fun h' => h (h'.symm.trans hid)
      simp [expiresOf, hne]
    · by_cases hid' : info.sipId = id'
      · simp [expiresOf, hid']
      · simpa [expiresOf, hid'] using ih

lemma expiresOf_of_notMem (h : id ∉ ids list) : expiresOf list id = none := by
  rw [expiresOf, Option.map_eq_none_iff, List.find?_eq_none]
  intro info hinfo hid
  exact h (List.mem_map.2 ⟨info, hinfo, beq_iff_eq.1 hid⟩)

/-- Only the expiry that is there already can be set without a change. -/
lemma setExpires_eq_self_iff :
    setExpires list id e = list ↔ ∀ v, expiresOf list id = some v → v = e := by
  constructor
  · intro hself v hv
    have hmem : id ∈ ids list := by
      by_contra hno
      rw [expiresOf_of_notMem hno] at hv
      exact absurd hv (by simp)
    have hset := expiresOf_setExpires (e := e) hmem
    rw [hself, hv] at hset
    exact Option.some.inj hset
  · intro h
    induction list with
    | nil => rfl
    | cons info list ih =>
      rw [setExpires]
      by_cases hid : info.sipId = id
      · have hexp : info.expires = e := h _ (by simp [expiresOf, hid])
        rw [if_pos hid, ← hexp]
      · rw [if_neg hid, ih]
        intro v hv
        exact h v (by simpa [expiresOf, hid] using hv)

end Sup
