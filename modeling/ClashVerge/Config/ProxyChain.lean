import ClashVerge.Enhance.Final
import ClashVerge.Library.Pursuit

/-!
# Chains of proxies

A proxy dials through the one that its `dialer-proxy` names. A chain is written into the runtime
configuration as such links, and read back from its exit node. Nothing keeps the links from leading
back to a proxy that was passed already, and then the reader never ends.
-/

namespace ClashVerge.Config

open ClashVerge.Enhance ClashVerge.Yaml

def valueGet (value : Value) (key : String) : Option Value := value.asMapping.bind (·.get key)

/-- The name of a proxy, as it is compared: there may be none, or one that is no text. -/
def comparedName (proxy : Value) : Option (Option String) := (valueGet proxy "name").map Value.asStr

def isLink (name : Option (Option String)) : Value → Bool
  | .mapping proxy =>
    (Mapping.get proxy "name").map Value.asStr = name ∧ (Mapping.get proxy "dialer-proxy").isSome
  | _ => false

/-- The first proxy that dials on, and the name it dials through. -/
def followDialer (proxies : List Value) (name : Option (Option String)) :
    Option (Value × Option (Option String)) :=
  (proxies.find? (isLink name)).map fun proxy =>
    (proxy, (valueGet proxy "dialer-proxy").map Value.asStr)

def readChain (proxies chain : List Value) (name : Option (Option String)) : List Value :=
  match proxies.find? fun proxy => comparedName proxy = name with
  | some entry => (if chain.isEmpty then chain else chain ++ [entry]).reverse
  | none => chain.reverse

/-- The reply before it is written as text, if the loop ends within as many lookups. -/
def getRuntimeProxyChainConfig (fuel : Nat) (config : Option Mapping) (exitNode : String) :
    Option (Except String (List Value)) :=
  match config with
  | none => some (.error "failed to parse config to yaml file")
  | some config =>
    match config.get "proxies" with
    | some (.sequence proxies) =>
      (Pursuit.pursue (followDialer proxies) fuel (some (some exitNode))).map fun (chain, name) =>
        .ok (readChain proxies chain name)
    | _ => some (.error "failed to get proxies or proxy-groups")

def chainProxies (config : Option Mapping) : List Value :=
  match config.bind (·.get "proxies") with
  | some (.sequence proxies) => proxies
  | _ => []

theorem mem_of_followDialer {proxies : List Value} {name : Option (Option String)}
    (leads : (followDialer proxies name).isSome = true) : name ∈ proxies.map comparedName := by
  rw [followDialer, Option.isSome_map, List.find?_isSome] at leads
  obtain ⟨proxy, listed, link⟩ := leads
  refine List.mem_map.mpr ⟨proxy, listed, ?_⟩
  cases proxy with
  | mapping map =>
    rw [isLink, decide_eq_true_eq] at link
    exact link.1
  | _ => contradiction

/-- Reading a chain ends after at most as many turns as there are proxies if the links from the exit
node come to no name that leads back to itself, and otherwise it does not. -/
theorem getRuntimeProxyChainConfig_stops_iff (config : Option Mapping) (exitNode : String) :
    (getRuntimeProxyChainConfig ((chainProxies config).length + 1) config exitNode).isSome = true ↔
      ¬ Pursuit.Cyclic (followDialer (chainProxies config)) (some (some exitNode)) := by
  have reads (proxies : List Value) :
      (Pursuit.pursue (followDialer proxies) (proxies.length + 1)
        (some (some exitNode))).isSome = true ↔
      ¬ Pursuit.Cyclic (followDialer proxies) (some (some exitNode)) := by
    rw [← Pursuit.pursue_isSome_iff (fun name leads => mem_of_followDialer leads),
      List.length_map]
  have nothing : ¬ Pursuit.Cyclic (followDialer []) (some (some exitNode)) := by
    rintro cyclic
    obtain ⟨_, _, leads, _⟩ := cyclic.leads
    contradiction
  cases config with
  | none => exact iff_of_true rfl nothing
  | some config =>
    rw [getRuntimeProxyChainConfig, chainProxies, Option.bind_some]
    split
    · rw [Option.isSome_map, reads]
    · simpa using nothing

def selfDialing : Mapping :=
  [(.string "proxies", .sequence [.mapping [(.string "name", .string "node"),
    (.string "dialer-proxy", .string "node")]])]

/-- Read from a proxy that dials through itself, a chain has no end. -/
theorem selfDialing_endless :
    ¬ ∃ fuel reply, getRuntimeProxyChainConfig fuel (some selfDialing) "node" = some reply := by
  rintro ⟨fuel, reply, ends⟩
  have link : Pursuit.Link (followDialer (chainProxies (some selfDialing))) (some (some "node"))
      (some (some "node")) := ⟨_, rfl⟩
  have cyclic : Pursuit.Cyclic (followDialer (chainProxies (some selfDialing)))
      (some (some "node")) := ⟨_, Relation.ReflTransGen.refl, Relation.TransGen.single link⟩
  have endless : getRuntimeProxyChainConfig fuel (some selfDialing) "node" = none :=
    Option.map_eq_none_iff.mpr (cyclic.pursue_eq_none fuel)
  rw [endless] at ends
  contradiction

end ClashVerge.Config
