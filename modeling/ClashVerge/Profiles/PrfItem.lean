import ClashVerge.Library.PercentEncoding
import ClashVerge.Profiles.Load
import ClashVerge.Utils.MaskUrl
import ClashVerge.Yaml.Value

/-!
# The items an import makes

A remote profile is made from the response to its subscription URL, a local one from a text. The
headers of the response have the traffic and the expiry of the subscription, a name, the interval of
its updates and its home page. A companion is made from a template, under a fresh uid.

How URLs and YAML are parsed and how a request is answered are parameters.
-/

namespace ClashVerge.Profiles

open ClashVerge.Enhance

namespace Network

structure Url where
  text : String
  path : String
  query : Option String
deriving DecidableEq, Repr

/-- The value of a header: as a text, where its bytes are visible ASCII, and as `{:?}` shows it. -/
structure HeaderValue where
  toStr : Option String
  debug : String

structure StatusCode where
  code : Nat
  display : String

structure HttpResponse where
  status : StatusCode
  /-- The names are in lower case. -/
  headers : List (String × HeaderValue)
  text : String

inductive ProxyType where
  | none
  | localhost
  | system
deriving DecidableEq, Repr

/-- What `NetworkManager::get` is asked for. -/
structure HttpRequest where
  url : String
  proxyType : ProxyType
  timeoutSecs : Nat
  userAgent : Option String
  acceptInvalidCerts : Bool

/-! ## What the response says -/

/-- `parse::<u64>`, which accepts a plus sign. -/
def parseU64 (chars : List Char) : Option Nat :=
  let digits := if chars.head? = some '+' then chars.tail else chars
  match readNumber 10 digits.length UInt64.size true digits with
  | some (value, rest) => if rest.isEmpty then some value else none
  | none => none

/-- `parse_str`: the first value of the key that can be read, among entries between semicolons. -/
def parseStr {Result : Type} (read : List Char → Option Result) (target : List Char)
    (key : String) : Option Result :=
  ((target.splitOn ';').map trim).findSome? fun entry =>
    match Delimited.splitOnce '=' entry with
    | some (name, value) => if name = key.toList then read value else none
    | none => none

def trimMatches (mark : Char) (chars : List Char) : List Char :=
  ((chars.dropWhile (· == mark)).reverse.dropWhile (· == mark)).reverse

/-- What is behind the last pair of marks, or else `last`. -/
def behindPairs (mark : Char) (last : List Char) : List Char → List Char
  | first :: second :: rest =>
    if first = mark ∧ second = mark then behindPairs mark rest rest
    else behindPairs mark last (second :: rest)
  | _ => last

def decodeLossy (chars : List Char) : String :=
  (String.fromUTF8? ⟨(PercentEncoding.decode (Utf8.encode chars)).toArray⟩).getD ""

/-- `percent_decode` and `decode_utf8`, which gives nothing for what is no UTF-8. -/
def decodeStrict (chars : List Char) : String :=
  (String.fromUTF8? ⟨(PercentEncoding.percentDecode (Utf8.encode chars)).toArray⟩).getD ""

def getLastPartAndDecode (url : String) : String :=
  decodeLossy ((((url.toList.splitOn '?').headD []).splitOn '/').getLastD [])

namespace HttpResponse

variable (response : HttpResponse)

/-- `HeaderMap::get`. -/
def header (name : String) : Option HeaderValue :=
  (response.headers.find? fun entry => entry.1 == name).map Prod.snd

/-- The key of a header is `subscription-userinfo`, perhaps behind a prefix that ends with a
dash. -/
def namesUserinfo (key : String) : Bool :=
  let lower := key.toList.map Char.toLower
  let suffix := "subscription-userinfo".toList
  let before := lower.take (lower.length - suffix.length)
  suffix.isSuffixOf lower && (before.isEmpty || before.getLast? == some '-')

/-- What the subscription has used and may use. -/
def extra : Option PrfExtra :=
  (response.headers.find? fun entry => namesUserinfo entry.1).map fun entry =>
    let subInfo := (entry.2.toStr.getD "").toList
    { upload := (parseStr parseU64 subInfo "upload").getD 0
      download := (parseStr parseU64 subInfo "download").getD 0
      total := (parseStr parseU64 subInfo "total").getD 0
      expire := (parseStr parseU64 subInfo "expire").getD 0 }

/-- The name the response gives itself, or the last part of the URL. -/
def filename (url : String) : Option String :=
  match response.header "content-disposition" with
  | some value =>
    let shown := trimMatches '"' value.debug.toList
    match parseStr some shown "filename*" with
    | some name =>
      let decoded := (decodeStrict name).toList
      some (String.ofList (behindPairs (Char.ofNat 39) decoded decoded))
    | none => (parseStr some shown "filename").map fun name => String.ofList (trimMatches '"' name)
  | none => some (getLastPartAndDecode url)

def updateInterval : Option Nat := do
  let value ← response.header "profile-update-interval"
  let hours ← parseU64 (value.toStr.getD "").toList
  return hours * 60 % UInt64.size

/-- The text without marks of the byte order before it. -/
def data : String := String.ofList (response.text.toList.dropWhile (· == '\uFEFF'))

end HttpResponse

end Network

open Network

/-- What an import depends on besides its arguments. -/
structure ImportSite where
  /-- `get_uid`: the prefix and characters of its own. One import asks for each prefix once. -/
  getUid : String → String
  /-- The time in seconds. -/
  timestamp : Nat
  parseUrl : String → Except String Url
  /-- The URL with another path and with the parameters of a form added to its query. -/
  withPathAndPairs : Url → String → String → Url
  get : HttpRequest → Except String HttpResponse
  parseMapping : String → Except String Yaml.Mapping
  normalizeProfileHomeUrl : String → Option String

namespace ImportSite

variable (site : ImportSite)

/-- `fix_dirty_url`: parameters that follow the path without a question mark go to the query. -/
def fixDirtyUrl (input : String) : Except String Url :=
  match site.parseUrl input with
  | .error error =>
    .error ("failed to parse subscription URL: " ++ error ++ ", input: " ++
      String.ofList (Utils.maskUrl input.toList))
  | .ok url =>
    match url.query, Delimited.splitOnce '&' url.path.toList with
    | none, some (cleanPath, dirtyParams) =>
      .ok (site.withPathAndPairs url (String.ofList cleanPath) (String.ofList dirtyParams))
    | _, _ => .ok url

/-- The request `from_url` sends. -/
def request (url : Url) (option : Option PrfOption) : HttpRequest where
  url := url.text
  proxyType :=
    if (option.bind (·.selfProxy)).getD false then .localhost
    else if (option.bind (·.withProxy)).getD false then .system
    else .none
  timeoutSecs := (option.bind (·.timeoutSeconds)).getD 20
  userAgent := option.bind (·.userAgent)
  acceptInvalidCerts := (option.bind (·.dangerAcceptInvalidCerts)).getD false

/-- The part of `from_url` before it appends anything: the download and the checks of it. -/
def download (address : String) (option : Option PrfOption) :
    Except String (Url × HttpResponse) := do
  let url ← site.fixDirtyUrl address
  let response ← (site.get (request url option)).mapError
    ("failed to fetch remote profile: " ++ ·)
  if ¬ (200 ≤ response.status.code ∧ response.status.code < 300) then
    .error ("failed to fetch remote profile with status " ++ response.status.display)
  else
    let yaml ← (site.parseMapping response.data).mapError
      ("the remote profile data is invalid yaml: " ++ ·)
    if !yaml.containsKey "proxies" && !yaml.containsKey "proxy-providers" then
      .error "profile does not contain `proxies` or `proxy-providers`"
    else .ok (url, response)

end ImportSite

/-! ## The items -/

namespace Template

def itemLocal : String :=
  "# Profile Template for Clash Verge\n\nproxies: []\n\nproxy-groups: []\n\nrules: []\n"

def itemMergeEmpty : String := "# Profile Enhancement Merge Template for Clash Verge\n\n"

def itemScript : String :=
  "// Define main function (script entry)\n\nfunction main(config, profileName) \x7b\n" ++
    "  return config;\n\x7d\n"

/-- The template of a companion with entries to put before, to put behind and to delete. -/
def itemEdits (kind : String) : String :=
  "# Profile Enhancement " ++ kind ++
    " Template for Clash Verge\n\nprepend: []\n\nappend: []\n\ndelete: []\n"

end Template

namespace PrfItem

variable (site : ImportSite)

def companion (uidPrefix itype extension text : String) : PrfItem :=
  { PrfItem.default with
    uid := some (site.getUid uidPrefix)
    itype := some itype
    file := some (site.getUid uidPrefix ++ extension)
    updated := some site.timestamp
    fileData := some text }

/-- `from_merge`, without a uid given. -/
def fromMerge : PrfItem := companion site "m" "merge" ".yaml" Template.itemMergeEmpty

/-- `from_script`, without a uid given. -/
def fromScript : PrfItem := companion site "s" "script" ".js" Template.itemScript

def fromRules : PrfItem := companion site "r" "rules" ".yaml" (Template.itemEdits "Rules")

def fromProxies : PrfItem := companion site "p" "proxies" ".yaml" (Template.itemEdits "Proxies")

def fromGroups : PrfItem := companion site "g" "groups" ".yaml" (Template.itemEdits "Groups")

end PrfItem

structure Links where
  merge : Option String
  script : Option String
  rules : Option String
  proxies : Option String
  groups : Option String

def Links.given (option : Option PrfOption) : Links where
  merge := option.bind (·.merge)
  script := option.bind (·.script)
  rules := option.bind (·.rules)
  proxies := option.bind (·.proxies)
  groups := option.bind (·.groups)

def Links.option (links : Links) (updateInterval : Option Nat) : PrfOption :=
  { PrfOption.default with
    updateInterval := updateInterval
    merge := links.merge
    script := links.script
    rules := links.rules
    proxies := links.proxies
    groups := links.groups }

namespace PrfItem

variable (site : ImportSite)

/-- The item `from_local` returns. -/
def localProfile (name desc : String) (fileData : Option String) (option : Option PrfOption)
    (links : Links) : PrfItem where
  uid := some (site.getUid "L")
  itype := some "local"
  name := some name
  file := some (site.getUid "L" ++ ".yaml")
  desc := some desc
  url := none
  selected := none
  extra := none
  updated := some site.timestamp
  option := some (links.option (option.bind (·.updateInterval)))
  home := none
  fileData := some (fileData.getD Template.itemLocal)

/-- The item `from_url` returns. -/
def remoteProfile (url : Url) (response : HttpResponse) (name desc : Option String)
    (option : Option PrfOption) (links : Links) : PrfItem where
  uid := some (site.getUid "R")
  itype := some "remote"
  name := some (name.getD ((response.filename url.text).getD "Remote File"))
  file := some (site.getUid "R" ++ ".yaml")
  desc := desc
  url := some url.text
  selected := none
  extra := response.extra
  updated := some site.timestamp
  option := some { links.option (option.bind (·.updateInterval) <|> response.updateInterval) with
    allowAutoUpdate := some ((option.bind (·.allowAutoUpdate)).getD true) }
  home := (response.header "profile-web-page-url").bind fun value =>
    value.toStr.bind site.normalizeProfileHomeUrl
  fileData := some response.data

end PrfItem

end ClashVerge.Profiles
