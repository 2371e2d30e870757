import ClashVerge.UriParser.Links

/-!
# Shadowsocks and ShadowsocksR links

A Shadowsocks link has its credentials in base64, or is base64 as a whole; a ShadowsocksR link
always is. Both need a port.
-/

namespace ClashVerge.UriParser

open Backtracking Delimited

/-- `getIfNotBlank` of a value, which must have the method `trim` where it is truthy. -/
def getIfNotBlankJs : Js → Except Failure Js
  | .string value => .ok (ofText (getIfNotBlank (some value)))
  | value => if value.truthy then .error .typeError else .ok .undefined

def serverAndPort (value : Text) (missing invalid : String) : Except Failure (Text × Number) :=
  match splitLast (unit ':') value with
  | none => fails missing
  | some (host, portRaw) => do
    let port ← parseRequiredPort (.string portRaw) invalid
    return (normalizeHost host, port)

/-! ## Plugins -/

/-- One option of a plugin. An option without a value is `true`. -/
def addPluginOption (options : List (Text × Js)) (raw : Text) : List (Text × Js) :=
  let (key, val) := splitOnceText '=' raw
  if key.isEmpty || key == text "__proto__" then options
  else assign key (((present val).map Js.string).getD (.bool true)) options

def pluginOptions (pluginParam : Text) : Js :=
  match pluginParam.splitOn (unit ';') with
  | [] => .object []
  | pluginName :: rest =>
    .object (rest.foldl addPluginOption [(text "plugin", .string pluginName)])

def readPlugin (pluginParam : Text) : Except Failure Options := do
  let options := pluginOptions pluginParam
  match options.get "plugin" with
  | .string name =>
    if name = text "obfs-local" ∨ name = text "simple-obfs" then do
      let host ← getIfNotBlankJs (options.get "obfs-host")
      return [("plugin", .string (text "obfs")), ("plugin-opts", .object
        [(text "mode", options.get "obfs"), (text "host", host)])]
    else if name = text "v2ray-plugin" then do
      let host ← getIfNotBlankJs ((options.get "obfs-host").orElse (options.get "host"))
      let path ← getIfNotBlankJs (options.get "path")
      let tls := (options.get "tls").orElse .undefined
      return [("plugin", .string (text "v2ray-plugin")), ("plugin-opts", .object
        [(text "mode", .string (text "websocket")), (text "host", host), (text "path", path),
          (text "tls", tls)])]
    else .error (.error (text "Unsupported plugin option: " ++ name))
  | other => do
    let shown ← other.toStr
    .error (.error (text "Unsupported plugin option: " ++ shown))

/-- The plugin of a link, which the parameter `v2ray-plugin` gives as JSON in base64. -/
def ssPlugin (platform : Platform) (queryParams : Params) : Except Failure Options :=
  match present (queryParams.value "plugin"), present (queryParams.value "v2ray-plugin") with
  | some pluginParam, _ => readPlugin pluginParam
  | none, some v2rayPluginParam =>
    .ok [("plugin", .string (text "v2ray-plugin")), ("plugin-opts",
      (platform.jsonParse (decodeBase64OrOriginal platform v2rayPluginParam)).getD (.object []))]
  | none, none => .ok []

/-- `/(^.*?):(.*$)/`. -/
def userInfoRe : Pattern CodeUnit :=
  inOrder [.group "1" lazyDots, mark ':', .group "2" (.seq greedyDots .finish)]

section

variable (platform : Platform)

def ssParams (body : Text) : Params :=
  parseQueryString platform (splitOnceText '?' (splitOnceText '#' body).1).2

/-- The credentials and the server of a link, decoded where they have no `@`. -/
def ssMain (body : Text) : Text :=
  let mainRaw := (splitOnceText '?' (splitOnceText '#' body).1).1
  if mainRaw.contains (unit '@') then mainRaw else decodeBase64OrOriginal platform mainRaw

def uriSs (line : Text) : Except Failure Node := do
  let afterScheme ← linkBody platform line ["ss"] "Invalid ss uri"
  let nameFromHash := decodeAndTrim platform (splitOnceText '#' afterScheme).2
  let queryParams := ssParams platform afterScheme
  match splitLast (unit '@') (ssMain platform afterScheme) with
  | none => fails "Invalid ss uri: missing '@'"
  | some (userPart, serverAndPortWithPath) => do
    let userInfoStr := decodeBase64OrOriginal platform userPart
    let (server, port) ← serverAndPort (beforeFirst (text "/") serverAndPortWithPath)
      "Invalid ss uri: missing port" "Invalid ss uri: invalid port"
    let userInfo := userInfoRe.exec userInfoStr
    let plugin ← ssPlugin platform queryParams
    let flag (key : String) : Bool := ((queryParams.entry key).map parseBoolOrPresence).getD false
    let options : Options :=
      [("cipher", .string (getCipher (ofText (userInfo.bind (·.lookup "1"))))),
        ("password", ofText (userInfo.bind (·.lookup "2")))] ++ plugin
    return {
      type := "ss"
      name := .string (nameFromHash.getD (text "SS " ++ server ++ [unit ':'] ++ port.shown))
      server := .string server
      port := port
      options := (options.setIf "udp-over-tcp" (if flag "uot" then some (.bool true) else none)).setIf
        "tfo" (if flag "tfo" then some (.bool true) else none) }

def withoutSpace (value : Text) : Text := value.filter fun char => !isWhiteSpace char

/-- The parameters of a ShadowsocksR link that are not blank, trimmed. -/
def ssrParams (query : Option Text) : Params :=
  (parseQueryString platform query).filterMap fun entry =>
    (present (entry.2.map trim)).map fun value => (entry.1, some value)

/-- What is before the name of the protocol, and what starts with it. -/
def ssrSplit (line : Text) : Option (Text × Text) :=
  (splitOnceAt (text ":origin") line).map (fun parts => (parts.1, text "origin" ++ parts.2)) <|>
    (splitOnceAt (text ":auth_") line).map fun parts => (parts.1, text "auth_" ++ parts.2)

def uriSsr (line : Text) : Except Failure Node := do
  let afterScheme ← linkBody platform line ["ssr"] "Invalid ssr uri"
  let line := decodeBase64OrOriginal platform afterScheme
  match ssrSplit line with
  | none => fails "Invalid ssr uri"
  | some (before, behind) => do
    let (server, port) ← serverAndPort before
      "Invalid ssr uri: missing port" "Invalid ssr uri: invalid port"
    match (beforeFirst (text "/?") behind).splitOn (unit ':') with
    | protocol :: cipher :: obfs :: password :: _ =>
      let otherParams := ssrParams platform (betweenFirst (text "/?") line)
      let decoded (key : String) : Option Text := getIfNotBlank (some (withoutSpace
        (decodeBase64OrOriginal platform ((otherParams.value key).getD []))))
      return {
        type := "ssr"
        name := .string (match otherParams.value "remarks" with
          | some remarks => trim (decodeBase64OrOriginal platform remarks)
          | none => server)
        server := .string server
        port := port
        options := [("protocol", .string protocol), ("cipher", .string (getCipher (.string cipher))),
          ("obfs", .string obfs), ("password", .string (decodeBase64OrOriginal platform password)),
          ("protocol-param", ofText (decoded "protoparam")),
          ("obfs-param", ofText (decoded "obfsparam"))] }
    -- the password is missing, and `decodeBase64OrOriginal` has no text to work on
    | _ => .error .typeError

end

end ClashVerge.UriParser
