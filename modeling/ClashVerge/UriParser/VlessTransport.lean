import ClashVerge.UriParser.ParseUri
import Mathlib.Data.List.ReduceOption

/-!
# The transport of a VLESS link

The transport of a VLESS link is named by its type, which has aliases, and `headerType=http` is
stronger than the type. The options have the host and the path of the link, and the host names the
server where TLS is on and nothing else does.

The module says for which links the options of a node follow the type of the link. Web sockets are
upgraded from HTTP for the type `httpupgrade`, and also for the type `ws`, which the type
`websocket` is not.
-/

namespace ClashVerge.UriParser

/-! ## What a link says -/

/-- A link as `URI_VLESS` has read it when it starts on the node. -/
structure VlessSaid where
  rest : VlessRest
  isShadowrocket : Bool
  params : Params

def saysTls (params : Params) (isShadowrocket : Bool) : Bool :=
  (isShadowrocket && parseBool (params.value "tls") == some true) ||
    ((present (params.value "security")).filter (· ≠ text "none")).isSome

namespace VlessSaid

variable (platform : Platform)

def ofLine (line : Text) : Except Failure VlessSaid := do
  let afterScheme ← linkBody platform line ["vless"] "Invalid vless uri"
  let (parsed, isShadowrocket) ← readVless platform afterScheme
  return ⟨parsed, isShadowrocket,
    parseQueryStringNormalized platform (some (parsed.addons.getD []))⟩

variable (said : VlessSaid)

def options : Options :=
  vlessOptions platform (vlessUuid platform said.rest.uuidRaw said.isShadowrocket) said.params
    said.isShadowrocket

def node : Node :=
  let name := decodeAndTrim platform said.rest.nameRaw <|> trimStr (said.params.value "remarks") <|>
    trimStr (said.params.value "remark")
  { type := "vless"
    name := .string (name.getD
      (text "VLESS " ++ said.rest.server ++ [unit ':'] ++ said.rest.port.shown))
    server := .string said.rest.server
    port := said.rest.port
    options := said.options platform }

theorem uriVless_eq (line : Text) :
    uriVless platform line = (ofLine platform line).map (node platform) := by
  unfold uriVless ofLine
  cases linkBody platform line ["vless"] "Invalid vless uri" with
  | error failure => rfl
  | ok body =>
    simp only [bind, Except.bind]
    cases readVless platform body with
    | error failure => rfl
    | ok read => rfl

/-- The same link with another type. -/
def withType (type : String) : VlessSaid :=
  { said with params := assign (text "type") (some (text type)) said.params }

def type : Option Text := said.params.value "type"

def host : Option Text := said.params.value "host" <|> said.params.value "obfsParam"

def path : Option Text := said.params.value "path"

/-- Neither `sni` nor `peer` is given. -/
def Unnamed : Prop :=
  present (said.params.value "sni") = none ∧ present (said.params.value "peer") = none

end VlessSaid

/-! ## The transport in the options -/

def optionsKeys : List String := ["ws-opts", "http-opts", "grpc-opts", "h2-opts", "xhttp-opts"]

namespace Options

variable (options : Options)

def shownHost : Js :=
  if (options.get "network").is "ws" then ((options.get "ws-opts").get "headers").get "Host"
  else if (options.get "network").is "http" then
    (((options.get "http-opts").get "headers").get "Host").first
  else if (options.get "network").is "h2" then (options.get "h2-opts").get "host"
  else if (options.get "network").is "xhttp" then (options.get "xhttp-opts").get "host"
  else .undefined

def shownPath : Js :=
  if (options.get "network").is "ws" then (options.get "ws-opts").get "path"
  else if (options.get "network").is "http" then ((options.get "http-opts").get "path").first
  else if (options.get "network").is "grpc" then (options.get "grpc-opts").get "grpc-service-name"
  else if (options.get "network").is "h2" then (options.get "h2-opts").get "path"
  else if (options.get "network").is "xhttp" then (options.get "xhttp-opts").get "path"
  else .undefined

def UpgradesHttp : Prop := (options.get "ws-opts").get "v2ray-http-upgrade" = .bool true

end Options

/-- A network that a type names, besides `ws`, and whether its options have a host and a path. -/
def otherNetworks : List (String × Bool × Bool) :=
  [("tcp", false, false), ("http", true, true), ("grpc", false, true), ("h2", true, true),
    ("xhttp", true, true)]

/-- The options are those of one network, with the host and the path of the link. -/
structure BuiltFor (said : VlessSaid) (options : Options) (name : String) (hasHost hasPath : Bool) :
    Prop where
  network : options.get "network" = .string (text name)
  host : options.shownHost = if hasHost then ofText (getIfNotBlank said.host) else .undefined
  path : options.shownPath = if hasPath then ofText (getIfNotBlank said.path) else .undefined
  others : ∀ key ∈ optionsKeys, key ≠ name ++ "-opts" → options.get key = .undefined

/-- The host of the transport names the server where TLS is on and nothing else names it. -/
def HostNamesServer (said : VlessSaid) (options : Options) : Prop :=
  (options.get "tls").truthy = true → said.Unnamed →
    if options.shownHost.isNullish then (options.get "servername").truthy = false
    else options.get "servername" = options.shownHost

/-- The transport of the node follows the type of the link that was read. -/
structure FollowsType (platform : Platform) (said : VlessSaid) (node : Node) : Prop where
  upgrade : node.options.UpgradesHttp ↔ said.type = some (text "httpupgrade")
  /-- The link with the one spelling gives the same node as the link with the other. -/
  aliases : said.type = some (text "ws") ∨ said.type = some (text "websocket") →
    (said.withType "ws").node platform = (said.withType "websocket").node platform
  networks : ∀ kind ∈ otherNetworks, said.type = some (text kind.1) →
    BuiltFor said node.options kind.1 kind.2.1 kind.2.2
  servername : HostNamesServer said node.options

/-- A link whose node has the transport that its type names. -/
def TransportFollows (platform : Platform) (line : Text) : Prop :=
  ∀ said node, VlessSaid.ofLine platform line = .ok said → uriVless platform line = .ok node →
    FollowsType platform said node

/-! ## The options, part by part -/

theorem Options.mem_objectOption {key : String} {entries : List (Option (String × Js))}
    {entry : String × Js} (listed : entry ∈ objectOption key entries) : entry.1 = key := by
  unfold objectOption at listed
  split at listed
  · simp at listed
  · rw [List.mem_singleton] at listed
    rw [listed]

theorem vlessOptions_cases (platform : Platform) (uuid : Text) (params : Params) (shadow : Bool) :
    ∃ front : Options,
      (∀ entry ∈ front, entry.1 ∉ "network" :: optionsKeys) ∧
      front.get "servername" = ofText (present (params.value "sni") <|> params.value "peer") ∧
      front.get "tls" = (if saysTls params shadow then .bool true else .undefined) ∧
      let network := (vlessNetwork params shadow).1
      let options := front ++ [("network", .string network)] ++
        vlessTransport platform params network (vlessNetwork params shadow).2
      vlessOptions platform uuid params shadow =
        if saysTls params shadow &&
            (present (present (params.value "sni") <|> params.value "peer")).isNone then
          options.setIf "servername" (transportHost network options)
        else options := by
  refine ⟨_, ?_, ?_, ?_, rfl⟩
  · intro entry listed
    have allowed : entry.1 ∈ ["uuid", "encryption", "tls", "servername", "flow",
        "client-fingerprint", "alpn", "skip-cert-verify", "reality-opts"] := by
      obtain front | reality := List.mem_append.mp listed
      · obtain verify | plain := Options.mem_setIf front
        · simp [verify]
        · simp only [List.mem_cons, List.not_mem_nil, or_false] at plain
          obtain rfl | rfl | rfl | rfl | rfl | rfl | rfl := plain <;> simp
      · split at reality
        · simp [Options.mem_objectOption reality]
        · simp at reality
    have apart : ∀ key ∈ ["uuid", "encryption", "tls", "servername", "flow",
        "client-fingerprint", "alpn", "skip-cert-verify", "reality-opts"],
        key ∉ "network" :: optionsKeys := by
      decide
    exact apart _ allowed
  all_goals
    rw [Options.get_append_left _ (by
      intro entry reality
      split at reality
      · simp [Options.mem_objectOption reality]
      · simp at reality), Options.get_setIf _ _ (by decide)]
    rfl

/-- The type of a link without its aliases. -/
def resolvedType (params : Params) (isShadowrocket : Bool) : Option Text :=
  let type := if params.value "type" = some (text "websocket") then some (text "ws")
    else params.value "type"
  if isShadowrocket && type == some (text "sw") then some (text "ws") else type

def networkOf (type : Option Text) : Text :=
  if type = some (text "httpupgrade") then text "ws"
  else ((present type).filter
    (["tcp", "ws", "http", "grpc", "h2", "xhttp"].map text).contains).getD (text "tcp")

theorem vlessNetwork_eq (params : Params) (shadow : Bool) : vlessNetwork params shadow =
      if params.value "headerType" = some (text "http") then (text "http", false)
      else (networkOf (resolvedType params shadow),
        resolvedType params shadow == some (text "httpupgrade") ||
          params.value "type" == some (text "ws")) := rfl

theorem networkOf_cases (type : Option Text) :
    networkOf type ∈ ["tcp", "ws", "http", "grpc", "h2", "xhttp"].map text := by
  unfold networkOf
  split
  · decide
  · cases kept : (present type).filter
        (["tcp", "ws", "http", "grpc", "h2", "xhttp"].map text).contains with
    | none => decide
    | some network =>
      have known := (Option.filter_eq_some_iff.mp kept).2
      simpa using known

theorem vlessNetwork_cases (params : Params) (shadow : Bool) :
    (vlessNetwork params shadow).1 ∈ ["tcp", "ws", "http", "grpc", "h2", "xhttp"].map text := by
  rw [vlessNetwork_eq]
  split
  · decide
  · exact networkOf_cases _

section

variable (platform : Platform) (params : Params) (httpupgrade : Bool)

theorem mem_vlessTransport {network : String}
    (known : network ∈ ["tcp", "ws", "http", "grpc", "h2", "xhttp"]) {entry : String × Js}
    (listed : entry ∈ vlessTransport platform params (text network) httpupgrade) :
    entry.1 = network ++ "-opts" ∧ entry.1 ∈ optionsKeys := by
  simp only [List.mem_cons, List.not_mem_nil, or_false] at known
  obtain rfl | rfl | rfl | rfl | rfl | rfl := known
  · exact absurd (show entry ∈ [] from listed) List.not_mem_nil
  · rw [Options.mem_objectOption (show entry ∈ objectOption "ws-opts" _ from listed)]
    decide
  · rw [Options.mem_objectOption (show entry ∈ objectOption "http-opts" _ from listed)]
    decide
  · rw [Options.mem_objectOption (show entry ∈ objectOption "grpc-opts" _ from listed)]
    decide
  · rw [Options.mem_objectOption (show entry ∈ objectOption "h2-opts" _ from listed)]
    decide
  · rw [Options.mem_objectOption (show entry ∈ objectOption "xhttp-opts" _ from listed)]
    decide

end

theorem get_stacked {front transport : Options} (network : Js)
    (absent : ∀ entry ∈ front, entry.1 ∉ "network" :: optionsKeys)
    (listed : ∀ entry ∈ transport, entry.1 ∈ optionsKeys) :
    let options : Options := front ++ [("network", network)] ++ transport
    options.get "network" = network ∧
      (∀ key ∈ optionsKeys, options.get key = transport.get key) ∧
      ∀ key, key ≠ "network" → key ∉ optionsKeys → options.get key = front.get key := by
  refine ⟨?_, ?_, ?_⟩
  · rw [List.append_assoc, Options.get_append_of_absent fun entry inside same =>
      absent entry inside (by simp [same])]
    rfl
  · intro key inside
    rw [List.append_assoc, Options.get_append_of_absent fun entry listed same =>
      absent entry listed (by simp [same, inside]), List.singleton_append, Options.get_cons, if_neg]
    rintro rfl
    exact absurd (show "network" ∈ optionsKeys from inside) (by decide)
  · intro key apart outside
    have missing : ∀ entry ∈ transport, entry.1 ≠ key := by
      rintro entry inside rfl
      exact outside (listed entry inside)
    rw [Options.get_append_left _ missing, Options.get_append_left]
    simpa using Ne.symm apart

theorem vlessOptions_get (platform : Platform) (uuid : Text) (params : Params) (shadow : Bool) :
    let network := (vlessNetwork params shadow).1
    let transport := vlessTransport platform params network (vlessNetwork params shadow).2
    let options := vlessOptions platform uuid params shadow
    options.get "network" = .string network ∧
      (∀ key ∈ optionsKeys, options.get key = transport.get key) ∧
      options.get "tls" = (if saysTls params shadow then .bool true else .undefined) ∧
      options.get "servername" =
        let servername := present (params.value "sni") <|> params.value "peer"
        if saysTls params shadow && (present servername).isNone then
          (transportHost network transport).getD (ofText servername)
        else ofText servername := by
  intro network transport options
  obtain ⟨front, absent, servername, tls, made⟩ := vlessOptions_cases platform uuid params shadow
  obtain ⟨name, known, named⟩ := List.mem_map.mp (vlessNetwork_cases params shadow)
  have listed (entry : String × Js) (inside : entry ∈ transport) : entry.1 ∈ optionsKeys := by
    have moved : entry ∈ vlessTransport platform params (text name)
        (vlessNetwork params shadow).2 := by
      rw [named]
      exact inside
    exact (mem_vlessTransport platform params _ known moved).2
  obtain ⟨chosen, own, other⟩ := get_stacked (.string network) absent listed
  have host : transportHost network (front ++ [("network", Js.string network)] ++ transport) =
      transportHost network transport := by
    simp only [transportHost, own "ws-opts" (by decide), own "http-opts" (by decide),
      own "h2-opts" (by decide)]
  have kept (key : String) (apart : "servername" ≠ key) :
      options.get key =
        Options.get (front ++ [("network", Js.string network)] ++ transport) key := by
    simp only [options, made]
    split
    · exact Options.get_setIf _ _ apart
    · rfl
  refine ⟨?_, ?_, ?_, ?_⟩
  · rw [kept _ (by decide), chosen]
  · intro key inside
    rw [kept key fun same => absurd (same ▸ inside) (by decide), own key inside]
  · rw [kept _ (by decide), other _ (by decide) (by decide), tls]
  · have named_ := other "servername" (by decide) (by decide)
    simp only [options, made]
    split
    · rw [host]
      cases transportHost network transport with
      | none =>
        rw [Options.setIf, named_, servername]
        rfl
      | some value => simp [Options.setIf, Options.get_set]
    · rw [named_, servername]

/-! ## The networks besides `ws` -/

/-- The value of a name among entries that may be missing. -/
def entryOf (entries : List (Option (String × Js))) (name : String) : Js :=
  ((entries.reduceOption.find? fun entry => text entry.1 == text name).map Prod.snd).getD .undefined

@[simp] theorem entryOf_nil (name : String) : entryOf [] name = .undefined := rfl

theorem entryOf_same (name : String) (value : Option Js) (rest : List (Option (String × Js))) :
    entryOf (entryIf name value :: rest) name = value.getD (entryOf rest name) := by
  cases value with
  | none => simp [entryOf, entryIf, List.reduceOption_cons_of_none]
  | some value => simp [entryOf, entryIf, List.reduceOption_cons_of_some]

theorem entryOf_other {other name : String} (apart : text other ≠ text name) (value : Option Js)
    (rest : List (Option (String × Js))) :
    entryOf (entryIf other value :: rest) name = entryOf rest name := by
  cases value with
  | none => simp [entryOf, entryIf, List.reduceOption_cons_of_none]
  | some value => simp [entryOf, entryIf, List.reduceOption_cons_of_some, apart]

theorem Options.get_objectOption (key name : String) (entries : List (Option (String × Js))) :
    ((objectOption key entries).get key).get name = entryOf entries name := by
  unfold objectOption entryOf
  cases entries.reduceOption with
  | nil => rfl
  | cons first rest =>
    rw [get_cons, if_pos rfl, Js.get, List.find?_map]
    cases found : List.find? (fun entry => text entry.1 == text name) (first :: rest) with
    | none | some entry => simp [Function.comp_def, found]

theorem builtFor (platform : Platform) (said : VlessSaid) (kind : String × Bool × Bool)
    (known : kind ∈ otherNetworks)
    (same : (vlessNetwork said.params said.isShadowrocket).1 = text kind.1) :
    BuiltFor said (said.options platform) kind.1 kind.2.1 kind.2.2 := by
  obtain ⟨chosen, own, -, -⟩ := vlessOptions_get platform
    (vlessUuid platform said.rest.uuidRaw said.isShadowrocket) said.params said.isShadowrocket
  change (said.options platform).get "network" = _ at chosen
  change ∀ key ∈ optionsKeys, (said.options platform).get key = _ at own
  rw [same] at chosen own
  have others : ∀ key ∈ optionsKeys, key ≠ kind.1 ++ "-opts" →
      (said.options platform).get key = .undefined := by
    intro key inside apart
    rw [own key inside]
    refine Options.get_of_absent fun entry listed named => apart ?_
    have network : ∀ kind ∈ otherNetworks,
        kind.1 ∈ ["tcp", "ws", "http", "grpc", "h2", "xhttp"] := by
      decide
    rw [← named, (mem_vlessTransport platform said.params _ (network kind known) listed).1]
  generalize said.options platform = options at *
  simp only [otherNetworks, List.mem_cons, List.not_mem_nil, or_false] at known
  obtain rfl | rfl | rfl | rfl | rfl := known
  case inl =>
    refine ⟨chosen, ?_, ?_, others⟩
    · rw [Options.shownHost, chosen]
      rfl
    · rw [Options.shownPath, chosen]
      rfl
  case inr.inl =>
    have read := own "http-opts" (by decide)
    change _ = (objectOption "http-opts" _).get "http-opts" at read
    refine ⟨chosen, ?_, ?_, others⟩
    · rw [Options.shownHost, chosen, read]
      change (Js.get "Host" (((objectOption "http-opts" _).get "http-opts").get "headers")).first =
        ofText (getIfNotBlank (said.params.value "host" <|> said.params.value "obfsParam"))
      rw [Options.get_objectOption, entryOf_other (by decide), entryOf_same, entryOf_nil]
      cases getIfNotBlank (said.params.value "host" <|> said.params.value "obfsParam") <;> rfl
    · rw [Options.shownPath, chosen, read]
      change (((objectOption "http-opts" _).get "http-opts").get "path").first =
        ofText (getIfNotBlank (said.params.value "path"))
      rw [Options.get_objectOption, entryOf_same, entryOf_other (by decide), entryOf_nil]
      cases getIfNotBlank (said.params.value "path") <;> rfl
  case inr.inr.inl =>
    have read := own "grpc-opts" (by decide)
    change _ = (objectOption "grpc-opts" _).get "grpc-opts" at read
    refine ⟨chosen, ?_, ?_, others⟩
    · rw [Options.shownHost, chosen]
      rfl
    · rw [Options.shownPath, chosen, read]
      change ((objectOption "grpc-opts" _).get "grpc-opts").get "grpc-service-name" = _
      rw [Options.get_objectOption, entryOf_same, entryOf_nil]
      rfl
  case inr.inr.inr.inl =>
    have read := own "h2-opts" (by decide)
    change _ = (objectOption "h2-opts" _).get "h2-opts" at read
    refine ⟨chosen, ?_, ?_, others⟩
    · rw [Options.shownHost, chosen, read]
      change ((objectOption "h2-opts" _).get "h2-opts").get "host" = _
      rw [Options.get_objectOption, entryOf_same, entryOf_other (by decide), entryOf_nil]
      rfl
    · rw [Options.shownPath, chosen, read]
      change ((objectOption "h2-opts" _).get "h2-opts").get "path" = _
      rw [Options.get_objectOption, entryOf_other (by decide), entryOf_same, entryOf_nil]
      rfl
  case inr.inr.inr.inr =>
    have read := own "xhttp-opts" (by decide)
    change _ = (objectOption "xhttp-opts" _).get "xhttp-opts" at read
    refine ⟨chosen, ?_, ?_, others⟩
    · rw [Options.shownHost, chosen, read]
      change ((objectOption "xhttp-opts" _).get "xhttp-opts").get "host" = _
      rw [Options.get_objectOption, entryOf_same, entryOf_other (by decide),
        entryOf_other (by decide), entryOf_nil]
      rfl
    · rw [Options.shownPath, chosen, read]
      change ((objectOption "xhttp-opts" _).get "xhttp-opts").get "path" = _
      rw [Options.get_objectOption, entryOf_other (by decide), entryOf_same,
        entryOf_other (by decide), entryOf_nil]
      rfl

/-! ## The upgrade -/

theorem upgradesHttp_iff (platform : Platform) (uuid : Text) (params : Params) (shadow : Bool) :
    (vlessOptions platform uuid params shadow).UpgradesHttp ↔
      (vlessNetwork params shadow).1 = text "ws" ∧ (vlessNetwork params shadow).2 = true := by
  obtain ⟨-, own, -, -⟩ := vlessOptions_get platform uuid params shadow
  rw [Options.UpgradesHttp, own "ws-opts" (by decide)]
  obtain ⟨name, known, named⟩ := List.mem_map.mp (vlessNetwork_cases params shadow)
  rw [← named]
  by_cases socket : name = "ws"
  · subst socket
    change ((objectOption "ws-opts" _).get "ws-opts").get "v2ray-http-upgrade" = _ ↔ _
    rw [Options.get_objectOption, entryOf_other (by decide), entryOf_other (by decide),
      entryOf_same, entryOf_other (by decide), entryOf_nil]
    cases (vlessNetwork params shadow).2 <;> simp
  · have apart : ∀ each ∈ ["tcp", "ws", "http", "grpc", "h2", "xhttp"], each ≠ "ws" →
        each ++ "-opts" ≠ "ws-opts" ∧ text each ≠ text "ws" := by
      decide
    have missing : (vlessTransport platform params (text name) (vlessNetwork params shadow).2).get
        "ws-opts" = .undefined := by
      refine Options.get_of_absent fun entry listed same => (apart name known socket).1 ?_
      rw [← same, (mem_vlessTransport platform params _ known listed).1]
    rw [missing]
    simp [Js.get, (apart name known socket).2]

/-! ## Links that differ in their type -/

/-- The parameters that are read besides the type. -/
def otherParams : List String :=
  ["tls", "security", "sni", "peer", "encryption", "flow", "fp", "alpn", "allowInsecure", "pbk",
    "sid", "host", "obfsParam", "path", "mode", "headerType", "remarks", "remark"]

theorem vlessOptions_congr (platform : Platform) (uuid : Text) {params other : Params}
    {shadow : Bool} (same : ∀ key ∈ otherParams, params.entry key = other.entry key)
    (network : vlessNetwork params shadow = vlessNetwork other shadow) :
    vlessOptions platform uuid params shadow = vlessOptions platform uuid other shadow := by
  have value (key : String) (listed : key ∈ otherParams) : params.value key = other.value key := by
    rw [Params.value, same key listed, Params.value]
  have transport (name : Text) (upgrade : Bool) :
      vlessTransport platform params name upgrade = vlessTransport platform other name upgrade := by
    have headers : vlessHeaders platform params = vlessHeaders platform other := by
      funext host
      simp only [vlessHeaders, value "obfsParam" (by decide)]
    simp only [vlessTransport, headers, value "host" (by decide), value "obfsParam" (by decide),
      value "path" (by decide), value "mode" (by decide)]
  simp only [vlessOptions, network, transport, same "allowInsecure" (by decide),
    value "security" (by decide), value "tls" (by decide), value "sni" (by decide),
    value "peer" (by decide), value "encryption" (by decide), value "flow" (by decide),
    value "fp" (by decide), value "alpn" (by decide), value "pbk" (by decide),
    value "sid" (by decide)]

namespace VlessSaid

variable (said : VlessSaid)

theorem entry_withType (type : String) {key : String} (listed : key ∈ otherParams) :
    (said.withType type).params.entry key = said.params.entry key := by
  have apart : ∀ each ∈ otherParams, text "type" ≠ text each := by decide
  rw [withType, Params.entry_assign, if_neg (apart key listed)]

theorem value_withType (type : String) {key : String} (listed : key ∈ otherParams) :
    (said.withType type).params.value key = said.params.value key := by
  rw [Params.value, entry_withType said type listed, Params.value]

theorem type_withType (type : String) : (said.withType type).type = some (text type) := by
  rw [VlessSaid.type, withType, Params.value, Params.entry_assign, if_pos rfl]
  rfl

/-- The link has the parameter `headerType=http`, which is stronger than the type. -/
def HttpHeader : Prop := said.params.value "headerType" = some (text "http")

instance : Decidable said.HttpHeader := inferInstanceAs (Decidable (_ = _))

theorem network_httpHeader (header : said.HttpHeader) :
    vlessNetwork said.params said.isShadowrocket = (text "http", false) := by
  exact if_pos header

theorem network_plain (header : ¬ said.HttpHeader) : vlessNetwork said.params said.isShadowrocket =
      (networkOf (resolvedType said.params said.isShadowrocket),
        resolvedType said.params said.isShadowrocket == some (text "httpupgrade") ||
          said.type == some (text "ws")) := by
  exact if_neg header

theorem resolvedType_of_ne (websocket : said.type ≠ some (text "websocket"))
    (shadow : said.type ≠ some (text "sw")) :
    resolvedType said.params said.isShadowrocket = said.type := by
  have other : said.params.value "type" ≠ some (text "websocket") := websocket
  have short : said.params.value "type" ≠ some (text "sw") := shadow
  simp [resolvedType, VlessSaid.type, other, short]

theorem resolvedType_alias
    (spelled : said.type = some (text "websocket") ∨ said.type = some (text "sw")) :
    resolvedType said.params said.isShadowrocket ≠ some (text "httpupgrade") ∧
      resolvedType said.params said.isShadowrocket ≠ some (text "xhttp") := by
  unfold resolvedType
  obtain websocket | shadow := spelled
  · have here : said.params.value "type" = some (text "websocket") := websocket
    rw [if_pos here]
    cases said.isShadowrocket <;> decide
  · have here : said.params.value "type" = some (text "sw") := shadow
    rw [here]
    cases said.isShadowrocket <;> decide

theorem upgradesHttp_plain (platform : Platform) (header : ¬ said.HttpHeader) :
    (said.options platform).UpgradesHttp ↔
      said.type = some (text "httpupgrade") ∨ said.type = some (text "ws") := by
  rw [VlessSaid.options, upgradesHttp_iff, network_plain said header]
  simp only [Bool.or_eq_true, beq_iff_eq]
  by_cases spelled : said.type = some (text "websocket") ∨ said.type = some (text "sw")
  · have other := said.resolvedType_alias spelled
    have apart : said.type ≠ some (text "httpupgrade") ∧ said.type ≠ some (text "ws") := by
      obtain websocket | shadow := spelled
      · rw [websocket]
        decide
      · rw [shadow]
        decide
    simp [other.1, apart]
  · obtain ⟨websocket, shadow⟩ := not_or.mp spelled
    rw [said.resolvedType_of_ne websocket shadow]
    refine ⟨And.right, fun either => ⟨?_, either⟩⟩
    obtain upgrade | socket := either
    · rw [upgrade]
      decide
    · rw [socket]
      decide

theorem upgradesHttp_httpHeader (platform : Platform) (header : said.HttpHeader) :
    ¬ (said.options platform).UpgradesHttp := by
  rw [VlessSaid.options, upgradesHttp_iff, network_httpHeader said header]
  rintro ⟨socket, -⟩
  exact absurd socket (by decide)

theorem node_alias_iff (platform : Platform) :
    (said.withType "ws").node platform = (said.withType "websocket").node platform ↔
      said.HttpHeader := by
  have header (type : String) : (said.withType type).HttpHeader ↔ said.HttpHeader := by
    rw [HttpHeader, value_withType said type (by decide), HttpHeader]
  constructor
  · intro same
    by_contra plain
    have options : (said.withType "ws").options platform =
        (said.withType "websocket").options platform := congrArg Node.options same
    have first := (upgradesHttp_plain _ platform (mt (header "ws").mp plain)).mpr
      (.inr (said.type_withType "ws"))
    rw [options, upgradesHttp_plain _ platform (mt (header "websocket").mp plain),
      said.type_withType] at first
    exact absurd first (by decide)
  · intro http
    have network : vlessNetwork (said.withType "ws").params said.isShadowrocket =
        vlessNetwork (said.withType "websocket").params said.isShadowrocket :=
      (network_httpHeader _ ((header "ws").mpr http)).trans
        (network_httpHeader _ ((header "websocket").mpr http)).symm
    have entries : ∀ key ∈ otherParams, (said.withType "ws").params.entry key =
        (said.withType "websocket").params.entry key := fun key listed =>
      (said.entry_withType "ws" listed).trans (said.entry_withType "websocket" listed).symm
    have options := vlessOptions_congr platform (vlessUuid platform said.rest.uuidRaw
      said.isShadowrocket) entries network
    have name (key : String) (listed : key ∈ otherParams) :
        (said.withType "ws").params.value key = (said.withType "websocket").params.value key := by
      rw [said.value_withType "ws" listed, said.value_withType "websocket" listed]
    simp only [node, name "remarks" (by decide), name "remark" (by decide)]
    congr 1

theorem network_of_type (header : ¬ said.HttpHeader) {kind : String × Bool × Bool}
    (known : kind ∈ otherNetworks) (type : said.type = some (text kind.1)) :
    (vlessNetwork said.params said.isShadowrocket).1 = text kind.1 := by
  have all : ∀ each ∈ otherNetworks, some (text each.1) ≠ some (text "websocket") ∧
      some (text each.1) ≠ some (text "sw") ∧ networkOf (some (text each.1)) = text each.1 := by
    decide
  obtain ⟨websocket, shadow, network⟩ := all kind known
  rw [network_plain said header, said.resolvedType_of_ne (type ▸ websocket) (type ▸ shadow), type,
    network]

theorem type_of_networkOf {type : Option Text} {network : Text} (found : networkOf type = network)
    (socket : network ≠ text "ws") (default : network ≠ text "tcp") : type = some network := by
  unfold networkOf at found
  split at found
  · exact absurd found.symm socket
  · cases kept : (present type).filter
        (["tcp", "ws", "http", "grpc", "h2", "xhttp"].map text).contains with
    | none =>
      rw [kept] at found
      exact absurd found.symm default
    | some name =>
      rw [kept] at found
      obtain rfl : name = network := found
      exact (Option.filter_eq_some_iff.mp (Option.filter_eq_some_iff.mp kept).1).1

theorem network_xhttp_iff : (vlessNetwork said.params said.isShadowrocket).1 = text "xhttp" ↔
      ¬ said.HttpHeader ∧ said.type = some (text "xhttp") := by
  constructor
  · intro network
    have plain : ¬ said.HttpHeader := by
      intro header
      rw [network_httpHeader said header] at network
      exact absurd network (by decide)
    refine ⟨plain, ?_⟩
    rw [network_plain said plain] at network
    have resolved := type_of_networkOf network (by decide) (by decide)
    by_cases spelled : said.type = some (text "websocket") ∨ said.type = some (text "sw")
    · exact absurd resolved (said.resolvedType_alias spelled).2
    · obtain ⟨websocket, shadow⟩ := not_or.mp spelled
      rwa [said.resolvedType_of_ne websocket shadow] at resolved
  · rintro ⟨plain, type⟩
    have known : ("xhttp", true, true) ∈ otherNetworks := by decide
    exact said.network_of_type plain known type

theorem not_truthy_of_nullish {value : Js} (nullish : value.isNullish = true) :
    value.truthy = false := by
  cases value <;> first | rfl | contradiction

/-- What the parameters say of the server's name. -/
def givenName : Option Text := present (said.params.value "sni") <|> said.params.value "peer"

theorem unnamed_iff : said.Unnamed ↔ (present said.givenName).isNone = true := by
  unfold Unnamed givenName
  cases sni : present (said.params.value "sni") with
  | none => simp
  | some name =>
    have visible : present (some name) = some name := by
      simp [present, Option.filter_some, (Option.filter_eq_some_iff.mp sni).2]
    simp [visible]

theorem givenName_falsy (unnamed : said.Unnamed) : (ofText said.givenName).truthy = false := by
  have absent := said.unnamed_iff.mp unnamed
  cases name : said.givenName with
  | none => rfl
  | some value =>
    rw [name] at absent
    cases value with
    | nil => rfl
    | cons first rest => simp [present, Option.filter_some] at absent

theorem transportHost_of_names {options transport : Options} {name : String}
    (chosen : options.get "network" = .string (text name))
    (own : ∀ key ∈ optionsKeys, options.get key = transport.get key)
    (taken : name ∈ ["ws", "http", "h2"]) :
    transportHost (text name) transport = some options.shownHost := by
  simp only [List.mem_cons, List.not_mem_nil, or_false] at taken
  obtain rfl | rfl | rfl := taken
  · rw [Options.shownHost, chosen, own "ws-opts" (by decide)]
    rfl
  · rw [Options.shownHost, chosen, own "http-opts" (by decide)]
    rfl
  · rw [Options.shownHost, chosen, own "h2-opts" (by decide)]
    rfl

theorem namesServer_iff (platform : Platform) : HostNamesServer said (said.options platform) ↔
      ¬ ((vlessNetwork said.params said.isShadowrocket).1 = text "xhttp" ∧
        saysTls said.params said.isShadowrocket = true ∧ said.Unnamed ∧
        (getIfNotBlank said.host).isSome = true) := by
  obtain ⟨chosen, own, tls, servername⟩ := vlessOptions_get platform
    (vlessUuid platform said.rest.uuidRaw said.isShadowrocket) said.params said.isShadowrocket
  have built := builtFor platform said
  change (said.options platform).get "network" = _ at chosen
  change ∀ key ∈ optionsKeys, (said.options platform).get key = _ at own
  change (said.options platform).get "tls" = _ at tls
  change (said.options platform).get "servername" =
    if saysTls said.params said.isShadowrocket && (present said.givenName).isNone then
      (transportHost _ (vlessTransport platform said.params _ _)).getD (ofText said.givenName)
    else ofText said.givenName at servername
  obtain ⟨name, known, named⟩ :=
    List.mem_map.mp (vlessNetwork_cases said.params said.isShadowrocket)
  have falsy := said.givenName_falsy
  have absent := said.unnamed_iff
  unfold HostNamesServer
  rw [← named] at chosen own servername built ⊢
  generalize said.options platform = options at *
  cases secure : saysTls said.params said.isShadowrocket with
  | false => simp [tls, secure, Js.truthy]
  | true =>
    rw [tls, secure]
    by_cases unnamed : said.Unnamed
    · rw [secure, absent.mp unnamed] at servername
      simp only [if_true, Js.truthy, true_implies, unnamed, true_and, Bool.and_self] at servername ⊢
      by_cases taken : name ∈ ["ws", "http", "h2"]
      · have other : ∀ each ∈ ["ws", "http", "h2"], text each ≠ text "xhttp" := by decide
        rw [transportHost_of_names chosen own taken] at servername
        refine iff_of_true ?_ fun both => other name taken both.1
        split
        · rename_i nullish
          rw [servername]
          exact not_truthy_of_nullish nullish
        · exact servername
      · simp only [List.mem_cons, List.not_mem_nil, or_false, not_or] at known taken
        obtain rfl | rfl | rfl | rfl | rfl | rfl := known
        · have host := (built ("tcp", false, false) (by decide) rfl).host
          rw [host, servername]
          refine iff_of_true (falsy unnamed) fun both => absurd both.1 (by decide)
        · exact absurd rfl taken.1
        · exact absurd rfl taken.2.1
        · have host := (built ("grpc", false, true) (by decide) rfl).host
          rw [host, servername]
          refine iff_of_true (falsy unnamed) fun both => absurd both.1 (by decide)
        · exact absurd rfl taken.2.2
        · have host := (built ("xhttp", true, true) (by decide) rfl).host
          change options.shownHost = ofText (getIfNotBlank said.host) at host
          change options.get "servername" = ofText said.givenName at servername
          rw [host, servername]
          cases found : getIfNotBlank said.host with
          | none => exact iff_of_true (falsy unnamed) fun both => absurd both.2 (by decide)
          | some shown =>
            refine iff_of_false (fun same => ?_) fun other => other ⟨rfl, rfl⟩
            have visible := (Option.filter_eq_some_iff.mp found).2
            have named_ : ofText said.givenName = .string shown := same
            have missing := falsy unnamed
            rw [named_] at missing
            obtain rfl : shown = [] := by simpa [Js.truthy] using missing
            exact absurd visible (by decide)
    · simp [unnamed]

/-- The type is followed, or nothing in the link shows that it is not. -/
def TypeServed : Prop :=
  if said.HttpHeader then
    ∀ type ∈ ["httpupgrade", "tcp", "grpc", "h2", "xhttp"], said.type ≠ some (text type)
  else said.type ≠ some (text "ws") ∧ said.type ≠ some (text "websocket") ∧
    ¬ (said.type = some (text "xhttp") ∧ saysTls said.params said.isShadowrocket = true ∧
      said.Unnamed ∧ (getIfNotBlank said.host).isSome = true)

theorem followsType_iff (platform : Platform) :
    FollowsType platform said (said.node platform) ↔ said.TypeServed := by
  have xhttp := said.network_xhttp_iff
  have server := said.namesServer_iff platform
  unfold TypeServed
  by_cases header : said.HttpHeader
  · rw [if_pos header]
    have upgrade := said.upgradesHttp_httpHeader platform header
    have network : (vlessNetwork said.params said.isShadowrocket).1 = text "http" := by
      rw [network_httpHeader said header]
    have chosen : (said.options platform).get "network" = .string _ :=
      (vlessOptions_get platform (vlessUuid platform said.rest.uuidRaw said.isShadowrocket)
        said.params said.isShadowrocket).1
    constructor
    · intro follows type listed named
      by_cases upgraded : type = "httpupgrade"
      · subst upgraded
        exact upgrade (follows.upgrade.mpr named)
      · have known : ∀ each ∈ ["httpupgrade", "tcp", "grpc", "h2", "xhttp"], each ≠ "httpupgrade" →
            ∃ kind ∈ otherNetworks, kind.1 = each ∧ text each ≠ text "http" := by
          decide
        obtain ⟨kind, inside, rfl, other⟩ := known type listed upgraded
        have built := (follows.networks kind inside named).network
        change (said.options platform).get "network" = _ at built
        rw [chosen, network] at built
        exact other (Js.string.inj built).symm
    · intro served
      refine ⟨?_, ?_, ?_, ?_⟩
      · exact iff_of_false upgrade (served _ (by decide))
      · exact fun _ => (said.node_alias_iff platform).mpr header
      · intro kind known type
        have http : ∀ each ∈ otherNetworks,
            each.1 ∈ ["httpupgrade", "tcp", "grpc", "h2", "xhttp"] ∨ each.1 = "http" := by
          decide
        obtain other | same := http kind known
        · exact absurd type (served kind.1 other)
        · exact builtFor platform said kind known (network.trans (congrArg text same.symm))
      · exact server.mpr fun both => (xhttp.mp both.1).1 header
  · rw [if_neg header]
    have upgrade := said.upgradesHttp_plain platform header
    have aliases := said.node_alias_iff platform
    constructor
    · intro follows
      refine ⟨fun socket => ?_, fun websocket => ?_, fun slip => ?_⟩
      · exact header (aliases.mp (follows.aliases (.inl socket)))
      · exact header (aliases.mp (follows.aliases (.inr websocket)))
      · exact server.mp follows.servername ⟨xhttp.mpr ⟨header, slip.1⟩, slip.2⟩
    · rintro ⟨socket, websocket, named⟩
      refine ⟨?_, ?_, ?_, ?_⟩
      · exact upgrade.trans (or_iff_left socket)
      · rintro (same | same)
        · exact absurd same socket
        · exact absurd same websocket
      · intro kind known type
        exact builtFor platform said kind known (said.network_of_type header known type)
      · exact server.mpr fun both => named ⟨(xhttp.mp both.1).2, both.2⟩

end VlessSaid

/-- A link is served exactly when what was read of it is. -/
theorem transportFollows_iff (platform : Platform) (line : Text) : TransportFollows platform line ↔
      ∀ said, VlessSaid.ofLine platform line = .ok said → said.TypeServed := by
  have made := VlessSaid.uriVless_eq platform line
  constructor
  · intro follows said read
    rw [read] at made
    exact (said.followsType_iff platform).mp (follows said _ read made)
  · intro served said node read given
    rw [read, given] at made
    obtain rfl : node = said.node platform := Except.ok.inj made
    exact (said.followsType_iff platform).mpr (served said read)

def socketLink : Text := linkOf (text "vless") (text "u@h:1?type=ws")

def socketSaid : VlessSaid :=
  ⟨⟨text "u", text "h", .integer 1, some (text "type=ws"), none⟩, false,
    [(text "type", some (text "ws"))]⟩

theorem ofLine_socketLink : VlessSaid.ofLine plainPlatform socketLink = .ok socketSaid := by
  have body : linkBody plainPlatform socketLink ["vless"] "Invalid vless uri" =
      .ok (text "u@h:1?type=ws") :=
    linkBody_linkOf plainPlatform (by decide) (by decide) (by simp) (by decide) _
  have readable : Reads true (text "u@h:1?type=ws") := by decide
  have parts : partsOf (text "u@h:1?type=ws") =
      ⟨some (text "u"), text "h", some (text "1"), some (text "type=ws"), none⟩ := by
    decide
  have rest : parseVlessRest (text "u@h:1?type=ws") = .ok socketSaid.rest := by
    have port : parsePortStrict (text "1") = some 1 := by decide
    have digits : present (some (text "1")) = some (text "1") := by decide
    simp [parseVlessRest, parseUrlLike_of_reads readable, parts, digits, parseRequiredPort_string,
      port, bind, Except.bind, pure, Except.pure, socketSaid]
  have params : parseQueryStringNormalized plainPlatform (some (text "type=ws")) =
      socketSaid.params := by
    decide
  simp only [VlessSaid.ofLine, body, readVless, rest, bind, Except.bind, pure, Except.pure]
  exact congrArg Except.ok (congrArg (VlessSaid.mk socketSaid.rest false) params)

/-- Its web socket is upgraded. -/
theorem socketLink_not_followed : ¬ TransportFollows plainPlatform socketLink := by
  intro follows
  have read := ofLine_socketLink
  have made := VlessSaid.uriVless_eq plainPlatform socketLink
  rw [read] at made
  have served := (socketSaid.followsType_iff plainPlatform).mp (follows _ _ read made)
  rw [VlessSaid.TypeServed, if_neg (show ¬ socketSaid.HttpHeader by decide)] at served
  exact served.1 (by decide)

end ClashVerge.UriParser
