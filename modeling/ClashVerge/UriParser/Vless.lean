import ClashVerge.UriParser.Links

/-!
# VLESS links

A VLESS link needs credentials and a port. What cannot be read as it stands is read again with its
part before the query decoded, which is how one client writes its links.
-/

namespace ClashVerge.UriParser

open Backtracking Delimited

/-- What `parseVlessRest` returns. -/
structure VlessRest where
  uuidRaw : Text
  server : Text
  port : Number
  addons : Option Text
  nameRaw : Option Text

def parseVlessRest (input : Text) : Except Failure VlessRest := do
  let parsed ← parseUrlLike input true "Invalid vless uri"
  match present parsed.port with
  | none => fails "Invalid vless uri: missing port"
  | some digits => do
    let port ← parseRequiredPort (.string digits) "Invalid vless uri: invalid port"
    return ⟨parsed.auth.getD [], parsed.host, port, parsed.query, parsed.fragment⟩

/-- `/^(.*?)(\?.*?$)/`. -/
def shadowRe : Pattern CodeUnit :=
  inOrder [.group "1" lazyDots, .group "2" (inOrder [mark '?', lazyDots, .finish])]

/-- The second reading of a link, with its first part decoded. -/
def shadowRest (platform : Platform) (rest : Text) : Option Text :=
  (shadowRe.exec rest).map fun groups =>
    decodeBase64OrOriginal platform ((groups.lookup "1").getD []) ++ (groups.lookup "2").getD []

/-- A link as it stands, or else its second reading; the flag is `isShadowrocket`. -/
def readVless (platform : Platform) (rest : Text) : Except Failure (VlessRest × Bool) :=
  match parseVlessRest rest with
  | .ok parsed => .ok (parsed, false)
  | .error _ =>
    match shadowRest platform rest with
    | none => fails "Invalid vless uri"
    | some decoded => (parseVlessRest decoded).map fun parsed => (parsed, true)

section

variable (platform : Platform)

/-- The uuid, behind the first colon in the second reading. -/
def vlessUuid (uuidRaw : Text) (isShadowrocket : Bool) : Text :=
  let uuid :=
    if isShadowrocket then ((splitOnce (unit ':') uuidRaw).map Prod.snd).getD uuidRaw else uuidRaw
  safeDecodeURIComponent platform uuid

/-- The transport of a link, and whether it is upgraded from HTTP. -/
def vlessNetwork (params : Params) (isShadowrocket : Bool) : Text × Bool :=
  if params.value "headerType" = some (text "http") then (text "http", false)
  else
    let type := if params.value "type" = some (text "websocket") then some (text "ws")
      else params.value "type"
    let type := if isShadowrocket && type == some (text "sw") then some (text "ws") else type
    let known := (present type).filter
      (["tcp", "ws", "http", "grpc", "h2", "xhttp"].map text).contains
    let network := if type = some (text "httpupgrade") then text "ws" else known.getD (text "tcp")
    (network, type == some (text "httpupgrade") || params.value "type" == some (text "ws"))

def objectOption (key : String) (entries : List (Option (String × Js))) : Options :=
  match entries.reduceOption with
  | [] => []
  | entries => [(key, .object (entries.map fun entry => (text entry.1, entry.2)))]

/-- An entry of an object under a condition. -/
def entryIf (key : String) (value : Option Js) : Option (String × Js) :=
  value.map fun value => (key, value)

/-- The headers of a web socket. With the parameter `obfsParam` the host may be JSON. -/
def vlessHeaders (params : Params) (host : Text) : Js :=
  let plain := Js.object [(text "Host", .string host)]
  match present (params.value "obfsParam") with
  | none => plain
  | some _ => (platform.jsonParse host).getD plain

def vlessTransport (params : Params) (network : Text) (httpupgrade : Bool) : Options :=
  let host := params.value "host" <|> params.value "obfsParam"
  let path := params.value "path"
  let hostVal := (getIfNotBlank host).map Js.string
  let pathVal := (getIfNotBlank path).map Js.string
  if network = text "grpc" then
    objectOption "grpc-opts" [entryIf "grpc-service-name" pathVal]
  else if network = text "h2" then
    objectOption "h2-opts" [entryIf "host" hostVal, entryIf "path" pathVal]
  else if network = text "http" then
    objectOption "http-opts" [entryIf "path" (pathVal.map fun path => .array [path]),
      entryIf "headers" (hostVal.map fun host => .object [(text "Host", .array [host])])]
  else if network = text "ws" then
    let upgrade := if httpupgrade then some (Js.bool true) else none
    objectOption "ws-opts" [entryIf "headers" ((present host).map (vlessHeaders platform params)),
      entryIf "path" ((present path).map .string), entryIf "v2ray-http-upgrade" upgrade,
      entryIf "v2ray-http-upgrade-fast-open" upgrade]
  else if network = text "xhttp" then
    objectOption "xhttp-opts" [entryIf "host" hostVal, entryIf "path" pathVal,
      entryIf "mode" ((getIfNotBlank (params.value "mode")).map .string)]
  else []

def Js.first : Js → Js
  | .array (first :: _) => first
  | _ => .undefined

/-- The name of the server that the options of the transport give. -/
def transportHost (network : Text) (options : Options) : Option Js :=
  if network = text "ws" then some (((options.get "ws-opts").get "headers").get "Host")
  else if network = text "http" then
    some (((options.get "http-opts").get "headers").get "Host").first
  else if network = text "h2" then some ((options.get "h2-opts").get "host")
  else none

def vlessOptions (uuid : Text) (params : Params) (isShadowrocket : Bool) : Options :=
  let security := present (params.value "security")
  let shadowTls := isShadowrocket && parseBool (params.value "tls") == some true
  let tls := shadowTls || (security.filter (· ≠ text "none")).isSome
  -- `params.security ?? 'reality'`
  let reality := params.value "security" == some (text "reality") ||
    (shadowTls && (params.value "security").isNone)
  let servername := present (params.value "sni") <|> params.value "peer"
  let (network, httpupgrade) := vlessNetwork params isShadowrocket
  let encryption := params.value "encryption"
  let options : Options :=
    [("uuid", .string uuid),
      ("encryption", ofText (if encryption = some (text "none") then some [] else encryption)),
      ("tls", if tls then .bool true else .undefined), ("servername", ofText servername),
      ("flow", ofText (parseVlessFlow (params.value "flow"))),
      ("client-fingerprint", ofText (params.value "fp")),
      ("alpn", ((present (params.value "alpn")).map (splitTexts ',')).getD .undefined)]
  let options := options.setIf "skip-cert-verify"
    ((params.entry "allowInsecure").map fun value => .bool (parseBoolOrPresence value))
  let realityOpts := if reality then objectOption "reality-opts"
    [entryIf "public-key" ((present (params.value "pbk")).map .string),
      entryIf "short-id" ((present (params.value "sid")).map .string)] else []
  let options := options ++ realityOpts ++ [("network", .string network)] ++
    vlessTransport platform params network httpupgrade
  if tls && (present servername).isNone then
    options.setIf "servername" (transportHost network options)
  else options

def uriVless (line : Text) : Except Failure Node := do
  let afterScheme ← linkBody platform line ["vless"] "Invalid vless uri"
  let (parsed, isShadowrocket) ← readVless platform afterScheme
  let params := parseQueryStringNormalized platform (some (parsed.addons.getD []))
  let name := decodeAndTrim platform parsed.nameRaw <|> trimStr (params.value "remarks") <|>
    trimStr (params.value "remark")
  return {
    type := "vless"
    name := .string (name.getD
      (text "VLESS " ++ parsed.server ++ [unit ':'] ++ parsed.port.shown))
    server := .string parsed.server
    port := parsed.port
    options := vlessOptions platform (vlessUuid platform parsed.uuidRaw isShadowrocket) params
      isShadowrocket }

end

end ClashVerge.UriParser
