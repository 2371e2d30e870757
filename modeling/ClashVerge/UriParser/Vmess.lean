import ClashVerge.UriParser.Shadowsocks

/-!
# VMess links

A VMess link is base64. What it decodes to is a line of one client, the JSON of another, or else
the link is read as a third client writes it. From JSON come values of any kind, so a parameter may
fail to be a text, and turning it into one may fail.
-/

namespace ClashVerge.UriParser

open Backtracking Delimited

/-- `/(^[^?]+?)\/?\?(.*)$/`. -/
def shadowrocketRe : Pattern CodeUnit :=
  inOrder [.group "1" (.plus false (.one (· != unit '?'))), .optional (mark '/'), mark '?',
    .group "2" greedyDots, .finish]

/-- `/(^[^:]+?):([^:]+?)@(.*):(\d+)$/`. -/
def contentRe : Pattern CodeUnit :=
  let noColons : Pattern CodeUnit := .plus false (.one (· != unit ':'))
  inOrder [.group "1" noColons, mark ':', .group "2" noColons, mark '@', .group "3" greedyDots,
    mark ':', .group "4" digits, .finish]

/-- `/=\s*vmess/`. -/
def quantumultRe : Pattern CodeUnit :=
  inOrder [mark '=', .star true (.one isWhiteSpace), .literal (text "vmess")]

/-- `/^"(.*)"$/`. -/
def quotedRe : Pattern CodeUnit := inOrder [mark '"', .group "1" greedyDots, mark '"', .finish]

/-- `/Host:\s*([a-zA-Z0-9-.]*)/`. -/
def hostHeaderRe : Pattern CodeUnit :=
  inOrder [.literal (text "Host:"), .star true (.one isWhiteSpace), .group "1" (.star true (.one
    fun char => isLetter char || isDigit char || char == unit '-' || char == unit '.'))]

section

variable (platform : Platform)

/-- One part of a query. A value with commas is an array. -/
def addAddon (params : List (Text × Js)) (addon : Text) : List (Text × Js) :=
  let (keyRaw, valueRaw) := splitOnceText '=' addon
  let key := trim keyRaw
  if key.isEmpty || key == text "__proto__" then params
  else match valueRaw with
    | none => assign key (.bool true) params
    | some valueRaw =>
      let value := safeDecodeURIComponent platform valueRaw
      assign key (if value.contains (unit ',') then splitTexts ',' value else .string value) params

def parseVmessShadowrocketParams (raw : Text) : Js :=
  match shadowrocketRe.exec raw with
  | none => .object []
  | some groups =>
    let content := decodeBase64OrOriginal platform ((groups.lookup "1").getD [])
    let params := (((groups.lookup "2").getD []).splitOn (unit '&')).foldl (addAddon platform) []
    match contentRe.exec content with
    | none => .object params
    | some parts =>
      let part (name : String) : Js := ofText (parts.lookup name)
      .object (assign (text "add") (part "3") (assign (text "port") (part "4")
        (assign (text "id") (part "2") (assign (text "scy") (part "1") params))))

/-- The JSON of a link, or what its third form gives. -/
def parseVmessParams (decoded raw : Text) : Js :=
  (platform.jsonParse decoded).getD (parseVmessShadowrocketParams platform raw)

/-! ## The line of one client -/

def addPartition (params : List (Text × Text)) (part : Text) : List (Text × Text) :=
  match splitOnce (unit '=') part with
  | none => params
  | some (key, val) =>
    if trim key = text "__proto__" then params else assign (trim key) (trim val) params

/-- What is between the quotation marks of a text, if it is not empty. -/
def unquoted (value : Text) : Option Text := present ((quotedRe.exec value).bind (·.lookup "1"))

/-- The options of a line whose entry `obfs` asks for a web socket. -/
def quantumultSocket (param : String → Option Text) : Options :=
  let path := (unquoted ((getIfNotBlank (param "obfs-path")).getD (text "\"/\""))).getD (text "/")
  let host := (((param "obfs-header").bind hostHeaderRe.search).bind (·.2.lookup "1")).getD []
  [("network", .string (text "ws")), ("ws-opts", .object [(text "path", .string path),
    (text "headers", .object [(text "Host", .string host)])])]

/-- The parts of a line between commas. -/
def quantumultPartitions (content : Text) : List Text := (content.splitOn (unit ',')).map trim

def quantumultParam (content : Text) (key : String) : Option Text :=
  (((quantumultPartitions content).foldl addPartition []).find? fun entry =>
    entry.1 == text key).map Prod.snd

/-- The entries of a node for the entry `obfs`. -/
def quantumultNetwork (content : Text) : Except Failure Options :=
  match quantumultParam content "obfs" with
  | none => .ok []
  | some kind =>
    if kind = text "ws" ∨ kind = text "wss" then .ok (quantumultSocket (quantumultParam content))
    else .error (.error (text "Unsupported obfs: " ++ kind))

def parseVmessQuantumult (content : Text) : Except Failure Node :=
  let param := quantumultParam content
  let flag (key : String) : Js := ((parseBool (param key)).map Js.bool).getD .undefined
  match quantumultPartitions content with
  | first :: serverRaw :: rest => do
    let port ← parseRequiredPort (ofText rest.head?) "Invalid vmess uri: invalid port"
    match rest with
    | _ :: cipher :: uuid :: _ => do
      let socket ← quantumultNetwork content
      let verification := (parseBool (param "tls-verification")).map fun verified => Js.bool !verified
      return {
        type := "vmess"
        name := .string (trim (beforeFirst (text "=") first))
        server := .string (normalizeHost serverRaw)
        port := port
        options := [("cipher", .string (getCipher
            (.string ((getIfNotBlank (some cipher)).getD (text "auto"))))),
          ("uuid", .string ((unquoted uuid).getD [])), ("tls", .bool (param "obfs" == some (text "wss"))),
          ("udp", flag "udp-relay"), ("tfo", flag "fast-open"),
          ("skip-cert-verify", verification.getD .undefined)] ++ socket }
    -- the uuid is missing and has no method `match`
    | _ => .error .typeError
  -- the server is missing and has no method `startsWith`
  | _ => .error .typeError

/-! ## The parameters of the other clients -/

def trimStrJs : Js → Except Failure Js
  | .string value => .ok (.string (trim value))
  | value => if value.truthy then .error .typeError else .ok value

def vmessName (params server : Js) (port : Number) : Except Failure Js := do
  let ps ← trimStrJs (params.get "ps")
  if ps.isNullish then
    let remarks ← trimStrJs (params.get "remarks")
    if remarks.isNullish then
      let remark ← trimStrJs (params.get "remark")
      if remark.isNullish then
        let shown ← server.toStr
        return .string (text "VMess " ++ shown ++ [unit ':'] ++ port.shown)
      else return remark
    else return remarks
  else return ps

def vmessTls : Js → Bool
  | .string value => value == text "tls" || value == text "1" || value == text "true"
  | .bool value => value
  | .number value => value == .integer 1
  | _ => false

/-- The entry `skip-cert-verify`. -/
def vmessVerify (verifyCert : Js) : Except Failure Js :=
  if verifyCert.isNullish then .ok .undefined
  else verifyCert.toStr.map fun shown => .bool !saysTrue shown

/-- The entry `alterId`, which need not be a number that can be read. -/
def vmessAlterId (params : Js) : Except Failure Js := do
  let shown ← (((params.get "aid").orElse (params.get "alterId")).orElse (.number (.integer 0))).toStr
  return .number ((parseInt platform shown).getD (.other (text "NaN")))

def Js.is (value : Js) (literal : String) : Bool :=
  match value with
  | .string value => value == text literal
  | _ => false

/-- The transport that the parameters name, and whether it is upgraded from HTTP. -/
def vmessNetwork (params : Js) : Option String × Bool :=
  let net := params.get "net"
  let obfs := params.get "obfs"
  if net.is "ws" || obfs.is "websocket" then (some "ws", false)
  else if net.is "http" || obfs.is "http" || (params.get "type").is "http" then (some "http", false)
  else if net.is "grpc" then (some "grpc", false)
  else if net.is "httpupgrade" then (some "ws", true)
  else if net.is "h2" then (some "h2", false)
  else (none, false)

def vmessTransportHost (params : Js) : Js :=
  match (params.get "host").orElse (params.get "obfsParam") with
  | .string value =>
    let parsedHost := ((platform.jsonParse value).getD .undefined).get "Host"
    if parsedHost.truthy then parsedHost else .string value
  | value => value

def firstNotBlank (value : Js) : Except Failure (Option Text) :=
  (firstString value).map getIfNotBlank

def trimmedTexts (value : Js) (first : Option Text) : Except Failure (List Text) :=
  match value with
  | .array items => do
    let shown ← items.mapM Js.toStr
    return (shown.map trim).filter fun item => !item.isEmpty
  | _ => .ok first.toList

def vmessTransport (network : String) (httpupgrade : Bool) (host path : Js)
    (hostFirst pathFirst : Option Text) : Except Failure Options :=
  let bare := hostFirst.isNone && pathFirst.isNone
  let chosen : Options := [("network", .string (text network))]
  if network = "grpc" then
    .ok (if bare then [] else chosen.setIf "grpc-opts"
      (pathFirst.map fun name => .object [(text "grpc-service-name", .string name)]))
  else if network = "h2" then
    .ok (if bare then [] else chosen.set "h2-opts" (.object
      ((hostFirst.map fun host => (text "host", Js.string host)).toList ++
        (pathFirst.map fun path => (text "path", Js.string path)).toList)))
  else if network = "http" then do
    let hosts ← trimmedTexts host hostFirst
    let paths ← trimmedTexts path pathFirst
    let headers := if hosts.isEmpty then []
      else [(text "headers", Js.object [(text "Host", ofTexts hosts)])]
    return chosen.set "http-opts" (.object
      ((text "path", ofTexts (if paths.isEmpty then [text "/"] else paths)) :: headers))
  else
    let upgrade := if httpupgrade then [(text "v2ray-http-upgrade", Js.bool true),
      (text "v2ray-http-upgrade-fast-open", Js.bool true)] else []
    .ok (if bare && !httpupgrade then [] else chosen.set "ws-opts" (.object
      ([(text "path", ofText pathFirst), (text "headers",
        (hostFirst.map fun host => Js.object [(text "Host", .string host)]).getD .undefined)] ++
          upgrade)))

def readTransport (params : Js) : Except Failure (Options × Option Text) :=
  match vmessNetwork params with
  | (none, _) => .ok ([], none)
  | (some network, httpupgrade) => do
    let host := vmessTransportHost platform params
    let hostFirst ← firstNotBlank host
    let pathFirst ← firstNotBlank (params.get "path")
    let transport ← vmessTransport network httpupgrade host (params.get "path") hostFirst pathFirst
    return (transport, hostFirst)

/-- The server of the parameters, which need not be a text. -/
def vmessServer (params : Js) : Js :=
  match params.get "add" with
  | .string add => .string (normalizeHost add)
  | add => add

/-- The options of a node. The first host names the server where nothing else does. -/
def vmessOptions (params verify alterId : Js) (transport : Options) (hostFirst : Option Text) :
    Options :=
  let tls := vmessTls (params.get "tls")
  let sni := params.get "sni"
  let scy := (params.get "scy").orElse (.string (text "auto"))
  let base : Options := [("cipher", .string (getCipher scy)), ("uuid", params.get "id"),
    ("tls", .bool tls), ("skip-cert-verify", verify), ("alterId", alterId)]
  let options := base.setIf "servername" (if tls && sni.truthy then some sni else none) ++ transport
  if tls && !(options.get "servername").truthy then
    options.setIf "servername" (hostFirst.map .string)
  else options

/-- Only an object has parameters; `null` has no properties at all. -/
def vmessNode (params : Js) : Except Failure Node := do
  if params.isNullish then .error .typeError
  else
    let port ← parseRequiredPort (params.get "port") "Invalid vmess uri: invalid port"
    let name ← vmessName params (vmessServer params) port
    let verify ← vmessVerify (params.get "verify_cert")
    let alterId ← vmessAlterId platform params
    let (transport, hostFirst) ← readTransport platform params
    return {
      type := "vmess"
      name := name
      server := vmessServer params
      port := port
      options := vmessOptions params verify alterId transport hostFirst }

def uriVmess (line : Text) : Except Failure Node := do
  let raw ← linkBody platform line ["vmess"] "Invalid vmess uri"
  let content := decodeBase64OrOriginal platform raw
  if (quantumultRe.search content).isSome then parseVmessQuantumult content
  else vmessNode platform (parseVmessParams platform content raw)

end

end ClashVerge.UriParser
