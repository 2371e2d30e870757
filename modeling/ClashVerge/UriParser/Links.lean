import ClashVerge.UriParser.Helpers

/-!
# Links that look like a URL

The parsers of eight protocols take a link apart by one pattern. The port is 443 if there is none.
They differ in the credentials they want and in the options they read from the query.
-/

namespace ClashVerge.UriParser

open Delimited

/-- The entries of a node besides its type, name, server and port. -/
abbrev Options : Type := List (String × Js)

structure Node where
  type : String
  name : Js
  server : Js
  port : Number
  options : Options

/-- A text, or `undefined`. -/
def ofText (value : Option Text) : Js := (value.map Js.string).getD .undefined

def ofNumber (value : Option Number) : Js := (value.map Js.number).getD .undefined

def ofTexts (values : List Text) : Js := .array (values.map Js.string)

def splitTexts (delimiter : Char) (value : Text) : Js := ofTexts (value.splitOn (unit delimiter))

namespace Options

variable (options : Options)

def set (key : String) (value : Js) : Options := assign key value options

/-- An assignment under a condition. -/
def setIf (key : String) (value : Option Js) : Options :=
  match value with
  | none => options
  | some value => options.set key value

def get (key : String) : Js :=
  ((options.find? fun entry => entry.1 == key).map Prod.snd).getD .undefined

theorem get_cons (entry : String × Js) (key : String) :
    get (entry :: options) key = if entry.1 = key then entry.2 else get options key := by
  unfold get
  rw [List.find?_cons]
  by_cases same : entry.1 = key
  · simp [same]
  · simp [same, beq_eq_false_iff_ne.mpr same]

theorem get_append_of_absent {first : Options} {key : String}
    (absent : ∀ entry ∈ first, entry.1 ≠ key) (second : Options) :
    get (first ++ second) key = get second key := by
  induction first with
  | nil => rfl
  | cons entry rest ih =>
    rw [List.cons_append, get_cons, if_neg (absent entry List.mem_cons_self)]
    exact ih fun each listed => absent each (List.mem_cons_of_mem _ listed)

theorem get_of_absent {options : Options} {key : String}
    (absent : ∀ entry ∈ options, entry.1 ≠ key) : get options key = .undefined := by
  have left := get_append_of_absent absent []
  rw [List.append_nil] at left
  exact left

theorem get_append_left (first : Options) {second : Options} {key : String}
    (absent : ∀ entry ∈ second, entry.1 ≠ key) : get (first ++ second) key = get first key := by
  induction first with
  | nil => exact get_of_absent absent
  | cons entry rest ih =>
    rw [List.cons_append, get_cons, get_cons, ih]

theorem get_set (options : Options) (key other : String) (value : Js) :
    (options.set key value).get other = if key = other then value else options.get other := by
  unfold set
  induction options with
  | nil => simp [assign, get_cons]
  | cons entry rest ih =>
    rw [assign]
    split
    · rename_i same
      rw [get_cons, get_cons, same]
      split <;> rfl
    · rename_i different
      rw [get_cons, get_cons, ih]
      by_cases here : entry.1 = other
      · simp [here, show key ≠ other from fun named => different (here.trans named.symm)]
      · simp [here]

theorem get_setIf (options : Options) {key other : String} (value : Option Js)
    (apart : key ≠ other) :
    (options.setIf key value).get other = options.get other := by
  cases value with
  | none => rfl
  | some value => rw [setIf, get_set, if_neg apart]

theorem mem_setIf {options : Options} {key : String} {value : Option Js} {entry : String × Js}
    (listed : entry ∈ options.setIf key value) : entry.1 = key ∨ entry ∈ options := by
  cases value with
  | none => exact .inr listed
  | some value =>
    rw [setIf, set] at listed
    induction options with
    | nil =>
      rw [assign, List.mem_singleton] at listed
      exact .inl (by rw [listed])
    | cons first rest ih =>
      rw [assign] at listed
      split at listed
      · obtain rfl | later := List.mem_cons.mp listed
        · exact .inl rfl
        · exact .inr (List.mem_cons_of_mem _ later)
      · obtain rfl | later := List.mem_cons.mp listed
        · exact .inr List.mem_cons_self
        · exact (ih later).imp id (List.mem_cons_of_mem _)

end Options

/-! ## The cases of a switch over the keys of a query -/

/-- What a case does with the value of its key. -/
abbrev Case : Type := Option Text → Options → Options

def keep (key : String) : Case := fun value options => options.set key (ofText value)

def keepPresent (key : String) : Case := fun value options =>
  options.setIf key ((present value).map .string)

def keepFlag (key : String) : Case := fun value options =>
  options.set key (.bool (parseBoolOrPresence value))

/-- A list between commas. An empty value resets it. -/
def keepList (key : String) : Case := fun value options =>
  options.set key (((present value).map (splitTexts ',')).getD .undefined)

def keepPresentList (key : String) : Case := fun value options =>
  options.setIf key ((present value).map (splitTexts ','))

def keepInteger (platform : Platform) (key : String) : Case := fun value options =>
  options.set key (ofNumber (parseInteger platform value))

/-- The loop over the entries of a query, with a switch over their keys. -/
def switchParams (cases : List (String × Case)) (params : Params) (options : Options) : Options :=
  params.foldl (fun options entry =>
    match cases.find? fun case => text case.1 == entry.1 with
    | none => options
    | some case => case.2 entry.2 options) options

/-! ## The parsers -/

section

variable (platform : Platform)

def linkBody (line : Text) (schemes : List String) (message : String) : Except Failure Text := do
  let afterScheme ← stripUriScheme platform line schemes message
  if afterScheme.isEmpty then fails message else .ok afterScheme

def nodeName (label : String) (parts : UrlLikeParts) (port : Number) : Js :=
  .string ((decodeAndTrim platform parts.fragment).getD
    (text label ++ [unit ' '] ++ parts.host ++ [unit ':'] ++ port.shown))

def urlLikeNode (type label : String) (parts : UrlLikeParts) (options : Options) : Node :=
  let portNum := parsePortOrDefault platform parts.port 443
  { type := type
    name := nodeName platform label parts portNum
    server := .string parts.host
    port := portNum
    options := options }

def credentials (parts : UrlLikeParts) : Option Text :=
  parts.auth.map (safeDecodeURIComponent platform)

def trojanOptions (params : Params) (options : Options) : Options :=
  let network := (present (params.value "type")).filter
    (["ws", "grpc", "h2", "tcp"].map text).contains
  let host := getIfNotBlank (params.value "host")
  let path := getIfNotBlank (params.value "path")
  let encryption := ((present (params.value "encryption")).getD []).splitOn (unit ';')
  let read := options
    |>.setIf "network" (network.map .string)
    |>.setIf "alpn" ((present (params.value "alpn")).map (splitTexts ','))
    |>.setIf "sni" ((present (params.value "sni")).map .string)
    |>.setIf "skip-cert-verify"
      ((params.entry "skip-cert-verify").map fun value => .bool (parseBoolOrPresence value))
    |>.set "fingerprint" (ofText (params.value "fingerprint" <|> params.value "fp"))
    |>.setIf "ss-opts" (match encryption with
      | [_, method, password] => some (.object [(text "enabled", .bool true),
          (text "method", .string method), (text "password", .string password)])
      | _ => none)
    |>.setIf "client-fingerprint" ((present (params.value "client-fingerprint")).map .string)
  if network = some (text "ws") then
    let headers := host.map fun host => (text "headers", Js.object [(text "Host", .string host)])
    let wsOpts := headers.toList ++ (path.map fun path => (text "path", Js.string path)).toList
    if wsOpts.isEmpty then read else read.set "ws-opts" (.object wsOpts)
  else if network = some (text "grpc") then
    read.setIf "grpc-opts" (path.map fun name =>
      .object [(text "grpc-service-name", .string name)])
  else read

def uriTrojan (line : Text) : Except Failure Node := do
  let afterScheme ← linkBody platform line ["trojan"] "Invalid trojan uri"
  let parts ← parseUrlLike afterScheme true "Invalid trojan uri"
  let params := parseQueryStringNormalized platform parts.query
  return urlLikeNode platform "trojan" "Trojan" parts
    (trojanOptions params [("password", ofText (credentials platform parts))])

def hysteriaCases : List (String × Case) :=
  [("alpn", keepList "alpn"), ("insecure", keepFlag "skip-cert-verify"),
    ("auth", keepPresent "auth-str"), ("mport", keepPresent "ports"),
    ("obfsParam", keepPresent "obfs"), ("upmbps", keepPresent "up"),
    ("downmbps", keepPresent "down"),
    ("obfs", fun value options => options.setIf "obfs" (value.map .string)),
    ("fast-open", keepFlag "fast-open"),
    ("peer", fun value options =>
      if (options.get "sni").truthy then options else keepPresent "sni" value options),
    ("recv-window-conn", keepInteger platform "recv-window-conn"),
    ("recv-window", keepInteger platform "recv-window"), ("ca", keepPresent "ca"),
    ("ca-str", keepPresent "ca-str"), ("disable-mtu-discovery", keepFlag "disable-mtu-discovery"),
    ("fingerprint", keepPresent "fingerprint"), ("protocol", keepPresent "protocol"),
    ("sni", keepPresent "sni")]

def uriHysteria (line : Text) : Except Failure Node := do
  let afterScheme ← linkBody platform line ["hysteria", "hy"] "Invalid hysteria uri"
  let parts ← parseUrlLike afterScheme false "Invalid hysteria uri"
  let params := parseQueryStringNormalized platform parts.query
  let options := switchParams (hysteriaCases platform) params []
  return urlLikeNode platform "hysteria" "Hysteria" parts
    (if (options.get "protocol").truthy then options
      else options.set "protocol" (.string (text "udp")))

def hysteria2Options (params : Params) (options : Options) : Options :=
  let sni := params.value "sni"
  let peer := present (params.value "peer")
  options
    |>.set "sni" (ofText (if (present sni).isSome then sni else peer <|> sni))
    |>.setIf "obfs"
      (((present (params.value "obfs")).filter (· ≠ text "none")).map .string)
    |>.set "ports" (ofText (params.value "mport"))
    |>.set "obfs-password" (ofText (params.value "obfs-password"))
    |>.setIf "skip-cert-verify"
      ((params.entry "insecure").map fun value => .bool (parseBoolOrPresence value))
    |>.setIf "tfo" ((params.entry "fastopen").map fun value => .bool (parseBoolOrPresence value))
    |>.set "fingerprint" (ofText (params.value "pinSHA256"))

def uriHysteria2 (line : Text) : Except Failure Node := do
  let afterScheme ← linkBody platform line ["hysteria2", "hy2"] "Invalid hysteria2 uri"
  let parts ← parseUrlLike afterScheme true "Invalid hysteria2 uri"
  let params := parseQueryStringNormalized platform parts.query
  return urlLikeNode platform "hysteria2" "Hysteria2" parts
    (hysteria2Options params [("password", ofText (credentials platform parts))])

def tuicCases : List (String × Case) :=
  [("token", keep "token"), ("ip", keep "ip"),
    ("heartbeat-interval", keepInteger platform "heartbeat-interval"), ("alpn", keepList "alpn"),
    ("disable-sni", keepFlag "disable-sni"), ("reduce-rtt", keepFlag "reduce-rtt"),
    ("request-timeout", keepInteger platform "request-timeout"),
    ("udp-relay-mode", keep "udp-relay-mode"),
    ("congestion-controller", keep "congestion-controller"),
    ("max-udp-relay-packet-size", keepInteger platform "max-udp-relay-packet-size"),
    ("fast-open", keepFlag "fast-open"), ("skip-cert-verify", keepFlag "skip-cert-verify"),
    ("allow-insecure", keepFlag "skip-cert-verify"),
    ("max-open-streams", keepInteger platform "max-open-streams"), ("sni", keep "sni")]

def uriTuic (line : Text) : Except Failure Node := do
  let afterScheme ← linkBody platform line ["tuic"] "Invalid tuic uri"
  let parts ← parseUrlLike afterScheme true "Invalid tuic uri"
  match splitOnce (unit ':') (parts.auth.getD []) with
  | none => fails "Invalid tuic uri"
  | some (uuid, passwordRaw) =>
    let params := parseQueryStringNormalized platform parts.query
    return urlLikeNode platform "tuic" "TUIC" parts
      (switchParams (tuicCases platform) params
        [("password", .string (safeDecodeURIComponent platform passwordRaw)),
          ("uuid", .string uuid)])

/-- One address of a list, without its prefix length and its brackets. -/
def addressOf (item : Text) : Text :=
  let trimmed := trim item
  let prefixed := (splitLast (unit '/') trimmed).filter fun parts => onlyDigits parts.2
  let address := (prefixed.map Prod.fst).getD trimmed
  let opened := if address.head? = some (unit '[') then address.tail else address
  if opened.getLast? = some (unit ']') then opened.dropLast else opened

def keepAddresses : Case := fun value options =>
  (((present value).map (List.splitOn (unit ','))).getD []).foldl (fun options item =>
    let ip := addressOf item
    if isIPv4 ip then options.set "ip" (.string ip)
    else if isIPv6 ip then options.set "ipv6" (.string ip)
    else options) options

/-- Three integers between commas, where nothing that is no integer counts. -/
def keepReserved : Case := fun value options =>
  match present value with
  | none => options
  | some value =>
    let numbers := (value.splitOn (unit ',')).filterMap fun item => parseInt platform (trim item)
    let parsed := numbers.filter fun number =>
      number.shown != text "Infinity" && number.shown != text "-Infinity"
    if parsed.length = 3 then options.set "reserved" (.array (parsed.map .number)) else options

def wireguardCases : List (String × Case) :=
  [("address", keepAddresses), ("ip", keepAddresses), ("publickey", keepPresent "public-key"),
    ("public-key", keepPresent "public-key"), ("allowed-ips", keepPresentList "allowed-ips"),
    ("pre-shared-key", keepPresent "pre-shared-key"), ("reserved", keepReserved platform),
    ("udp", keepFlag "udp"),
    ("mtu", fun value options => keepInteger platform "mtu" (trimStr value) options),
    ("dialer-proxy", keep "dialer-proxy"), ("remote-dns-resolve", keepFlag "remote-dns-resolve"),
    ("dns", keepPresentList "dns")]

def uriWireguard (line : Text) : Except Failure Node := do
  let afterScheme ← linkBody platform line ["wireguard", "wg"] "Invalid wireguard uri"
  let parts ← parseUrlLike afterScheme false "Invalid wireguard uri"
  let params := parseQueryStringNormalized platform parts.query
  return urlLikeNode platform "wireguard" "WireGuard" parts
    (switchParams (wireguardCases platform) params
      [("private-key", ofText (credentials platform parts)), ("udp", .bool true)])

def account (parts : UrlLikeParts) : Options :=
  match present (credentials platform parts) with
  | none => []
  | some auth =>
    match splitOnce (unit ':') auth with
    | none => [("username", .string auth), ("password", .undefined)]
    | some (username, password) => [("username", .string username), ("password", .string password)]

def keepIpVersion : Case := fun value options =>
  options.set "ip-version" (.string (parseIpVersion value))

def httpCases : List (String × Case) :=
  [("tls", keepFlag "tls"), ("fingerprint", keep "fingerprint"),
    ("skip-cert-verify", keepFlag "skip-cert-verify"), ("ip-version", keepIpVersion)]

def uriHttp (line : Text) : Except Failure Node := do
  let afterScheme ← linkBody platform line ["http", "https"] "Invalid http uri"
  let parts ← parseUrlLike afterScheme false "Invalid http uri"
  let params := parseQueryStringNormalized platform parts.query
  return urlLikeNode platform "http" "HTTP" parts
    (switchParams httpCases params (account platform parts))

def socksCases : List (String × Case) := httpCases ++ [("udp", keepFlag "udp")]

def uriSocks (line : Text) : Except Failure Node := do
  let afterScheme ← linkBody platform line ["socks5", "socks"] "Invalid socks uri"
  let parts ← parseUrlLike afterScheme false "Invalid socks uri"
  let params := parseQueryStringNormalized platform parts.query
  return urlLikeNode platform "socks5" "SOCKS5" parts
    (switchParams socksCases params (account platform parts))

def anytlsOptions (auth : Option Text) (params : Params) : Options :=
  let password := (present auth).map fun auth =>
    match splitOnce (unit ':') auth with
    | none => auth
    | some (_, password) => password
  let alpn := ((((present (params.value "alpn")).getD []).splitOn (unit ',')).map trim).filter
    fun item => !item.isEmpty
  let flag (key : String) : Option Js :=
    (params.entry key).map fun value => .bool (parseBoolOrPresence value)
  let integer (key : String) : Option Js := (parseInteger platform (params.value key)).map .number
  let options : Options := [("udp", .bool true)]
  options
    |>.setIf "password" (password.map .string)
    |>.setIf "sni" ((present (params.value "sni")).map .string)
    |>.setIf "alpn" (if alpn.isEmpty then none else some (ofTexts alpn))
    |>.setIf "fingerprint"
      ((present (params.value "fingerprint" <|> params.value "hpkp")).map .string)
    |>.setIf "client-fingerprint"
      ((present (params.value "client-fingerprint" <|> params.value "fp")).map .string)
    |>.setIf "skip-cert-verify" (flag "skip-cert-verify" <|> flag "insecure")
    |>.setIf "udp" (flag "udp")
    |>.setIf "idle-session-check-interval" (integer "idle-session-check-interval")
    |>.setIf "idle-session-timeout" (integer "idle-session-timeout")
    |>.setIf "min-idle-session" (integer "min-idle-session")

/-- The only one of these parsers that wants a server. -/
def uriAnyTls (line : Text) : Except Failure Node := do
  let afterScheme ← linkBody platform line ["anytls"] "Invalid anytls uri"
  let parts ← parseUrlLike afterScheme false "Invalid anytls uri"
  if parts.host.isEmpty then fails "Invalid anytls uri"
  else
    let params := parseQueryStringNormalized platform parts.query
    return urlLikeNode platform "anytls" "AnyTLS" parts
      (anytlsOptions platform (credentials platform parts) params)

end

end ClashVerge.UriParser
