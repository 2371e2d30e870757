import ClashVerge.Delay.Manager

/-!
# The proxies as the pages see them

The view of the proxies is an object of the groups and of the records of the nodes. A group refers
to its members, and the pages resolve each reference in the view they draw from.
-/

namespace ClashVerge.ProxyList

open UriParser (Text)

structure ProxyCapabilities where
  udp : Bool
  xudp : Bool
  tfo : Bool
  mptcp : Bool
  smux : Bool
deriving DecidableEq

structure DelayHistory where
  time : Text
  delay : Int
deriving DecidableEq

inductive ProxyMemberUnresolvedReason where
  | missing
  | ambiguous
  | providerUnavailable
deriving DecidableEq

inductive ProxyMemberRef where
  | group (name : Text)
  | node (name recordId : Text)
  | unresolved (name : Text) (reason : ProxyMemberUnresolvedReason)
deriving DecidableEq

structure ProxyGroupView where
  name : Text
  type : Text
  alive : Bool
  now : Option Text
  fixed : Option Text
  hidden : Option Bool
  icon : Option Text
  testUrl : Option Text
  history : List DelayHistory
  members : List ProxyMemberRef
  capabilities : ProxyCapabilities
deriving DecidableEq

structure ProxyNodeView where
  recordId : Text
  name : Text
  type : Text
  alive : Bool
  history : List DelayHistory
  id : Option Text
  hidden : Option Bool
  icon : Option Text
  testUrl : Option Text
  source : Delay.Source
  capabilities : ProxyCapabilities
deriving DecidableEq

structure ProxyViewV1 where
  global : Option ProxyGroupView
  groups : List ProxyGroupView
  records : List (Text × ProxyNodeView)
deriving DecidableEq

inductive ResolvedProxyMember where
  | group (name : Text) (group : ProxyGroupView)
  | node (name recordId : Text) (node : ProxyNodeView)
  | unresolved (name : Text) (reason : ProxyMemberUnresolvedReason)
deriving DecidableEq

namespace ProxyViewV1

variable (view : ProxyViewV1)

def findGroup (name : Text) : Option ProxyGroupView :=
  match view.global with
  | some group => if group.name = name then some group else view.groups.find? (·.name = name)
  | none => view.groups.find? (·.name = name)

def resolveMember : ProxyMemberRef → Option ResolvedProxyMember
  | .unresolved name reason => some (.unresolved name reason)
  | .group name => (view.findGroup name).map (.group name)
  | .node name recordId => (OrderedMap.get view.records recordId).map (.node name recordId)

end ProxyViewV1

namespace ResolvedProxyMember

def name : ResolvedProxyMember → Text
  | group name _ => name
  | node name _ _ => name
  | unresolved name _ => name

/-- The type of `memberDetails`. -/
def type : ResolvedProxyMember → Option Text
  | group _ details => some details.type
  | node _ _ details => some details.type
  | unresolved _ _ => none

def measured : ResolvedProxyMember → Delay.ResolvedProxyMember
  | group name details => .interactable (.group name (details.history.map (·.delay)))
  | node name _ details =>
    .interactable (.node name (details.history.map (·.delay)) details.source)
  | unresolved name _ => .unresolved name

end ResolvedProxyMember

structure ResolvedMemberOccurrence where
  memberIndex : Nat
  member : ResolvedProxyMember
deriving DecidableEq

end ClashVerge.ProxyList
