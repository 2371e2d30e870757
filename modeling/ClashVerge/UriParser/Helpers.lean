import ClashVerge.Library.Backtracking
import ClashVerge.UriParser.Text

/-!
# Helpers of the link parsers

The scheme of a link, queries, flags, numbers, ports and base64, and the pattern that takes a link
apart.
-/

namespace ClashVerge.UriParser

open Backtracking Delimited

/-! ## Patterns -/

def mark (char : Char) : Pattern CodeUnit := .one (· == unit char)

/-- `.`. -/
def dot : Pattern CodeUnit := .one fun char => !isLineTerminator char

/-- `.*?`. -/
def lazyDots : Pattern CodeUnit := .star false dot

/-- `.*`. -/
def greedyDots : Pattern CodeUnit := .star true dot

/-- `\d+`. -/
def digits : Pattern CodeUnit := .plus true (.one isDigit)

def inOrder : List (Pattern CodeUnit) → Pattern CodeUnit
  | [] => .empty
  | part :: rest => .seq part (inOrder rest)

/-! ## The scheme -/

def uriSchemeRe : Pattern CodeUnit :=
  inOrder [.group "scheme" (.seq (.one isLetter) (.star true (.one fun char =>
    isLetter char || isDigit char || char == unit '+' || char == unit '.' || char == unit '-'))),
    .literal (text "://")]

def normalizeUriAndGetScheme (platform : Platform) (input : Text) : Text × Text :=
  let trimmed := trim input
  match (uriSchemeRe.exec trimmed).bind (·.lookup "scheme") with
  | none => (trimmed, platform.toLowerCase (beforeFirst (text "://") trimmed))
  | some written =>
    let scheme := platform.toLowerCase written
    (scheme ++ trimmed.drop written.length, scheme)

def stripUriScheme (platform : Platform) (uri : Text) (expectedSchemes : List String)
    (errorMessage : String) : Except Failure Text :=
  match uriSchemeRe.exec uri with
  | none => fails errorMessage
  | some captures =>
    let scheme := platform.toLowerCase ((captures.lookup "scheme").getD [])
    if (expectedSchemes.map text).contains scheme then
      .ok (uri.drop ((captures.lookup "0").getD []).length)
    else fails errorMessage

/-! ## Texts that may be absent -/

def getIfNotBlank (value : Option Text) : Option Text :=
  value.filter fun value => !(trim value).isEmpty

/-- A text as a condition: absent and empty texts are falsy. -/
def present (value : Option Text) : Option Text := value.filter fun value => !value.isEmpty

def trimStr (value : Option Text) : Option Text := value.map trim

def safeDecodeURIComponent (platform : Platform) (value : Text) : Text :=
  (platform.decodeURIComponent value).getD value

def decodeAndTrim (platform : Platform) (value : Option Text) : Option Text :=
  present (value.map fun value => trim (safeDecodeURIComponent platform value))

/-! ## Queries -/

/-- The parts before and behind the first delimiter; without one there is no second part. -/
def splitOnceText (delimiter : Char) (value : Text) : Text × Option Text :=
  match splitOnce (unit delimiter) value with
  | some (before, behind) => (before, some behind)
  | none => (value, none)

/-- The entries of an object in the order of their first assignments. No parser reads a key that is
a number. -/
abbrev Params : Type := List (Text × Option Text)

def assign {Key Value : Type} [DecidableEq Key] (key : Key) (value : Value) :
    List (Key × Value) → List (Key × Value)
  | [] => [(key, value)]
  | entry :: rest =>
    if entry.1 = key then (key, value) :: rest else entry :: assign key value rest

/-- One part of a query. The key `__proto__` is no entry: a text cannot become a prototype. -/
def addParam (platform : Platform) (out : Params) (part : Text) : Params :=
  let (keyRaw, valueRaw) := splitOnceText '=' part
  let key := trim keyRaw
  if key.isEmpty || key == text "__proto__" then out
  else assign key (valueRaw.map (safeDecodeURIComponent platform)) out

def parseQueryString (platform : Platform) (query : Option Text) : Params :=
  match query with
  | none => []
  | some query => (query.splitOn (unit '&')).foldl (addParam platform) []

def normalizeQueryKey (key : Text) : Text :=
  key.map fun char => if char = unit '_' then unit '-' else char

def parseQueryStringNormalized (platform : Platform) (query : Option Text) : Params :=
  (parseQueryString platform query).foldl
    (fun normalized entry => assign (normalizeQueryKey entry.1) entry.2 normalized) []

namespace Params

/-- The entry of the key, where it is an own property. -/
def entry (params : Params) (key : String) : Option (Option Text) :=
  (params.find? fun entry => entry.1 == text key).map Prod.snd

def value (params : Params) (key : String) : Option Text := (params.entry key).join

theorem entry_assign (params : Params) (key : Text) (value : Option Text) (other : String) :
    entry (assign key value params) other =
      if key = text other then some value else entry params other := by
  unfold entry
  induction params with
  | nil => by_cases same : key = text other <;> simp [assign, same]
  | cons entry rest ih =>
    rw [assign]
    split
    · rename_i same
      by_cases named : key = text other
      · simp [named]
      · simp [named, show entry.1 ≠ text other from fun found => named (same.symm.trans found)]
    · rename_i different
      by_cases named : entry.1 = text other
      · simp [named, show key ≠ text other from fun found => different (named.trans found.symm)]
      · simpa [List.find?_cons, named] using ih

end Params

/-! ## Flags and numbers -/

/-- `true` in any case, or `1`. -/
def saysTrue (value : Text) : Bool := value.map lowerAscii == text "true" || value == text "1"

def parseBool (value : Option Text) : Option Bool := value.map saysTrue

def parseBoolOrPresence (value : Option Text) : Bool :=
  match value with
  | none => true
  | some value => if (trim value).isEmpty then true else saysTrue (trim value)

def parseVlessFlow (value : Option Text) : Option Text :=
  (getIfNotBlank value).filter fun flow =>
    flow.map lowerAscii != text "none" &&
      match flow with
      | [] => false
      | first :: rest => (isLetter first || isDigit first) && rest.all fun char =>
          isLetter char || isDigit char || char == unit '-'

/-- `Number.parseInt(value, 10)`, where it is a number. -/
def parseInt (platform : Platform) (value : Text) : Option Number :=
  let signed := value.dropWhile isWhiteSpace
  let unsigned := match signed with
    | sign :: rest => if sign = unit '-' || sign = unit '+' then rest else signed
    | [] => []
  let digits := unsigned.takeWhile isDigit
  if digits.isEmpty then none
  else if signed.head? = some (unit '-') then some (platform.ofInt (-(digitsValue digits : Int)))
  else some (platform.ofInt (digitsValue digits))

def parseInteger (platform : Platform) (value : Option Text) : Option Number :=
  value.bind (parseInt platform)

/-! ## Ports -/

/-- `/^\d+$/`. -/
def onlyDigits (value : Text) : Bool := !value.isEmpty && value.all isDigit

/-- `parsePortStrict` of what `String` shows of a value. -/
def parsePortStrict (shown : Text) : Option Nat :=
  let raw := trim shown
  if onlyDigits raw then
    let parsed := digitsValue raw
    if parsed < 1 ∨ 65535 < parsed then none else some parsed
  else none

def parseRequiredPort (value : Js) (errorMessage : String) : Except Failure Number :=
  if value.isNullish then fails errorMessage
  else do
    let shown ← value.toStr
    match parsePortStrict shown with
    | none => fails errorMessage
    | some port => .ok (.integer port)

def parsePortOrDefault (platform : Platform) (port : Option Text) (dft : Int) : Number :=
  (parseInteger platform port).getD (.integer dft)

def ipVersions : List Text := ["dual", "ipv4", "ipv6", "ipv4-prefer", "ipv6-prefer"].map text

def parseIpVersion (value : Option Text) : Text :=
  ((present value).filter ipVersions.contains).getD (text "dual")

/-! ## The parts of a link -/

structure UrlLikeParts where
  auth : Option Text
  host : Text
  port : Option Text
  query : Option Text
  fragment : Option Text
deriving DecidableEq, Repr

/-- A host without the brackets around it. -/
def normalizeHost (host : Text) : Text :=
  if host.head? = some (unit '[') ∧ host.getLast? = some (unit ']') then host.tail.dropLast
  else host

/-- `(?::(?<port>\d+))?\/?(?:\?(?<query>.*?))?(?:#(?<fragment>.*?))?$`, the end of the pattern. -/
def urlLikeTail : Pattern CodeUnit :=
  inOrder [.optional (.seq (mark ':') (.group "port" digits)), .optional (mark '/'),
    .optional (.seq (mark '?') (.group "query" lazyDots)),
    .optional (.seq (mark '#') (.group "fragment" lazyDots)), .finish]

/-- `(?<host>.*?)` and the end of the pattern. -/
def urlLikeHost : Pattern CodeUnit := .seq (.group "host" lazyDots) urlLikeTail

/-- The pattern, with `(?:(?<auth>.*?)@)?` at its start. -/
def urlLikeRe : Pattern CodeUnit :=
  .seq (.optional (.seq (.group "auth" lazyDots) (mark '@'))) urlLikeHost

def parseUrlLike (input : Text) (requireAuth : Bool) (errorMessage : String) :
    Except Failure UrlLikeParts :=
  match urlLikeRe.exec input with
  | none => fails errorMessage
  | some groups =>
    match groups.lookup "host" with
    | none => fails errorMessage
    | some host =>
      let auth := getIfNotBlank (groups.lookup "auth")
      if requireAuth && auth.isNone then fails errorMessage
      else .ok ⟨auth, normalizeHost host, groups.lookup "port", groups.lookup "query",
        groups.lookup "fragment"⟩

/-- At least some symbols of a class, and at most some more. -/
def upTo (least more : Nat) (accepts : CodeUnit → Bool) : Pattern CodeUnit :=
  .between (.one accepts) least more

/-- `/^(?:[0-9]{1,3}\.){3}[0-9]{1,3}$/`. -/
def isIPv4 (address : Text) : Bool :=
  (inOrder [.times (.seq (upTo 1 2 isDigit) (mark '.')) 3, upTo 1 2 isDigit, .finish]).accepts
    address

/-- `isIPv6`, its four alternatives. -/
def isIPv6 (address : Text) : Bool :=
  let hextet := upTo 1 3 isHexDigit
  let hextets : Pattern CodeUnit := .star true (.seq hextet (mark ':'))
  (Pattern.either (inOrder [.times (.seq hextet (mark ':')) 7, hextet, .finish])
    (.either (inOrder [.literal (text "::"), .finish])
      (.either (inOrder [.literal (text "::1"), .finish])
        (inOrder [hextets, .literal (text "::"), hextets, hextet, .finish])))).accepts address

/-! ## Base64 -/

/-- A control character that a text is not expected to have. -/
def isControl (char : CodeUnit) : Bool :=
  !(char == 9 || char == 10 || char == 13) && (char < 32 || char == 127)

/-- The standard alphabet without white space, filled up to full groups of four. -/
def paddedBase64 (value : Text) : Text :=
  let normalized := (value.filter fun char => !isWhiteSpace char).map fun char =>
    if char = unit '-' then unit '+' else if char = unit '_' then unit '/' else char
  let padLen := normalized.length % 4
  if padLen = 0 then normalized else normalized ++ List.replicate (4 - padLen) (unit '=')

def decodeBase64OrOriginal (platform : Platform) (value : Text) : Text :=
  match (platform.atob (paddedBase64 value)).bind platform.decodeUtf8 with
  | none => value
  | some decoded => if decoded.any isControl then value else decoded

/-! ## Ciphers -/

def cipherNames : List String := ["none", "auto", "dummy", "aes-128-gcm", "aes-192-gcm",
  "aes-256-gcm", "lea-128-gcm", "lea-192-gcm", "lea-256-gcm", "aes-128-gcm-siv",
  "aes-256-gcm-siv", "2022-blake3-aes-128-gcm", "2022-blake3-aes-256-gcm", "aes-128-cfb",
  "aes-192-cfb", "aes-256-cfb", "aes-128-ctr", "aes-192-ctr", "aes-256-ctr", "chacha20",
  "chacha20-ietf", "chacha20-ietf-poly1305", "2022-blake3-chacha20-poly1305",
  "rabbit128-poly1305", "xchacha20-ietf-poly1305", "xchacha20", "aegis-128l", "aegis-256",
  "aez-384", "deoxys-ii-256-128", "rc4-md5"]

def knownCiphers : List Text := cipherNames.map text

/-- `getCipher`. A name that objects inherit has no alias that is a text, and is no cipher either. -/
def getCipher : Js → Text
  | .undefined => text "none"
  | .string value =>
    let aliased :=
      if value = text "chacha20-poly1305" then text "chacha20-ietf-poly1305" else value
    if knownCiphers.contains aliased then aliased else text "auto"
  | _ => text "auto"

def firstString : Js → Except Failure (Option Text)
  | .undefined | .null => .ok none
  | .array [] => .ok none
  | .array (first :: _) => if first.isNullish then .ok none else first.toStr.map some
  | value => value.toStr.map some

end ClashVerge.UriParser
