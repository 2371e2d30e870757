import ClashVerge.UriParser.Scheme
import ClashVerge.UriParser.WellFormed

/-!
# Parsing a pasted link

`parseUri` picks a parser by the scheme of the link. `URI_PARSERS` is a plain object, so a scheme is
also looked up among what objects inherit. A scheme is in lower case, and so is the name of one
inherited function, `constructor`.

The module says for every text when nothing but a well-formed node comes of it.
-/

namespace ClashVerge.UriParser

open Backtracking Delimited

inductive Protocol where
  | ss
  | ssr
  | vmess
  | vless
  | trojan
  | anytls
  | hysteria2
  | hysteria
  | tuic
  | wireguard
  | http
  | socks
deriving DecidableEq, Repr

def uriParsers : List (String × Protocol) :=
  [("ss", .ss), ("ssr", .ssr), ("vmess", .vmess), ("vless", .vless), ("trojan", .trojan),
    ("anytls", .anytls), ("hysteria2", .hysteria2), ("hy2", .hysteria2), ("hysteria", .hysteria),
    ("hy", .hysteria), ("tuic", .tuic), ("wireguard", .wireguard), ("wg", .wireguard),
    ("http", .http), ("https", .http), ("socks5", .socks), ("socks", .socks)]

/-- What `parseUri` returns: a node, or a text wrapped in an object by `Object`. -/
inductive Parsed where
  | node (node : Node)
  | wrapped (uri : Text)

/-- The parser of a scheme, by the keys of `URI_PARSERS`. -/
def parserOf (scheme : Text) : Option Protocol :=
  (uriParsers.find? fun entry => text entry.1 == scheme).map Prod.snd

section

variable (platform : Platform)

namespace Protocol

def parse : Protocol → Text → Except Failure Node
  | ss => uriSs platform
  | ssr => uriSsr platform
  | vmess => uriVmess platform
  | vless => uriVless platform
  | trojan => uriTrojan platform
  | anytls => uriAnyTls platform
  | hysteria2 => uriHysteria2 platform
  | hysteria => uriHysteria platform
  | tuic => uriTuic platform
  | wireguard => uriWireguard platform
  | http => uriHttp platform
  | socks => uriSocks platform

/-- The type of the parser's nodes. -/
def type : Protocol → String
  | ss => "ss"
  | ssr => "ssr"
  | vmess => "vmess"
  | vless => "vless"
  | trojan => "trojan"
  | anytls => "anytls"
  | hysteria2 => "hysteria2"
  | hysteria => "hysteria"
  | tuic => "tuic"
  | wireguard => "wireguard"
  | http => "http"
  | socks => "socks5"

end Protocol

def parseUri (uri : Text) : Except Failure Parsed :=
  let (normalized, scheme) := normalizeUriAndGetScheme platform uri
  match parserOf scheme with
  | some parser => (parser.parse platform normalized).map .node
  | none =>
    if scheme = text "constructor" then .ok (.wrapped normalized)
    -- the prototype is an object and no function
    else if scheme = text "__proto__" then .error .typeError
    else .error (.error (text "Unknown uri type: " ++ scheme))

/-! ## What slips through -/

namespace Protocol

def schemes : Protocol → List String
  | ss => ["ss"]
  | ssr => ["ssr"]
  | vmess => ["vmess"]
  | vless => ["vless"]
  | trojan => ["trojan"]
  | anytls => ["anytls"]
  | hysteria2 => ["hysteria2", "hy2"]
  | hysteria => ["hysteria", "hy"]
  | tuic => ["tuic"]
  | wireguard => ["wireguard", "wg"]
  | http => ["http", "https"]
  | socks => ["socks5", "socks"]

/-- What the parser says of a link it does not take. -/
def message : Protocol → String
  | ss => "Invalid ss uri"
  | ssr => "Invalid ssr uri"
  | vmess => "Invalid vmess uri"
  | vless => "Invalid vless uri"
  | trojan => "Invalid trojan uri"
  | anytls => "Invalid anytls uri"
  | hysteria2 => "Invalid hysteria2 uri"
  | hysteria => "Invalid hysteria uri"
  | tuic => "Invalid tuic uri"
  | wireguard => "Invalid wireguard uri"
  | http => "Invalid http uri"
  | socks => "Invalid socks uri"

/-- The links, behind their scheme, of which the parser makes a node that is not well formed. -/
def Slips : Protocol → Text → Prop
  | ss, body => SsSlips platform body
  | ssr, body => SsrSlips platform body
  | vmess, body => VmessSlips platform body
  | vless, body => VlessSlips platform body
  | trojan, body => Reads true body ∧ Misdirected body
  | anytls, body => Reads false body ∧ ¬ Hostless (authAndRest body).2 ∧ BadPort (authAndRest body).2
  | hysteria2, body => Reads true body ∧ Misdirected body
  | hysteria, body => Reads false body ∧ Misdirected body
  | tuic, body => Reads true body ∧ unit ':' ∈ (authAndRest body).1.getD [] ∧ Misdirected body
  | wireguard, body => Reads false body ∧ Misdirected body
  | http, body => Reads false body ∧ Misdirected body
  | socks, body => Reads false body ∧ Misdirected body

theorem parse_wellFormed (protocol : Protocol) (line : Text) :
    GivesWellFormed protocol.type (protocol.parse platform line) ↔
      ∀ body, linkBody platform line protocol.schemes protocol.message = .ok body →
        ¬ protocol.Slips platform body := by
  cases protocol with
  | ss => exact uriSs_wellFormed platform line
  | ssr => exact uriSsr_wellFormed platform line
  | vmess => exact uriVmess_wellFormed platform line
  | vless => exact uriVless_wellFormed platform line
  | trojan =>
    exact (givesWellFormed_bind _ _ _).trans
      (forall₂_congr fun body _ => link_wellFormed platform "trojan" "Trojan" true _ body _)
  | anytls =>
    exact (givesWellFormed_bind _ _ _).trans
      (forall₂_congr fun body _ => anytls_wellFormed platform _ body _)
  | hysteria2 =>
    exact (givesWellFormed_bind _ _ _).trans
      (forall₂_congr fun body _ => link_wellFormed platform "hysteria2" "Hysteria2" true _ body _)
  | hysteria =>
    exact (givesWellFormed_bind _ _ _).trans
      (forall₂_congr fun body _ => link_wellFormed platform "hysteria" "Hysteria" false _ body _)
  | tuic => exact uriTuic_wellFormed platform line
  | wireguard =>
    exact (givesWellFormed_bind _ _ _).trans
      (forall₂_congr fun body _ => link_wellFormed platform "wireguard" "WireGuard" false _ body _)
  | http =>
    exact (givesWellFormed_bind _ _ _).trans
      (forall₂_congr fun body _ => link_wellFormed platform "http" "HTTP" false _ body _)
  | socks =>
    exact (givesWellFormed_bind _ _ _).trans
      (forall₂_congr fun body _ => link_wellFormed platform "socks5" "SOCKS5" false _ body _)

end Protocol

/-! ## The whole parser -/

/-- The parser of the scheme throws, or it returns a well-formed node of its type. -/
def LetsInOnlyNodes (uri : Text) : Prop :=
  ∀ parsed, parseUri platform uri = .ok parsed →
    ∃ protocol node, parserOf (normalizeUriAndGetScheme platform uri).2 = some protocol ∧
      parsed = .node node ∧ node.WellFormed protocol.type

/-- A text that has the scheme `constructor`, or else that slips through the parser of its scheme. -/
def Slips (uri : Text) : Prop :=
  (normalizeUriAndGetScheme platform uri).2 = text "constructor" ∨
    ∃ protocol body, parserOf (normalizeUriAndGetScheme platform uri).2 = some protocol ∧
      linkBody platform (normalizeUriAndGetScheme platform uri).1 protocol.schemes
        protocol.message = .ok body ∧
      protocol.Slips platform body

theorem parserOf_constructor : parserOf (text "constructor") = none := by
  decide

theorem letsInOnlyNodes_of_some {uri : Text} {protocol : Protocol}
    (parser : parserOf (normalizeUriAndGetScheme platform uri).2 = some protocol) :
    LetsInOnlyNodes platform uri ↔
      GivesWellFormed protocol.type
        (protocol.parse platform (normalizeUriAndGetScheme platform uri).1) := by
  unfold LetsInOnlyNodes parseUri
  simp only [parser]
  cases protocol.parse platform (normalizeUriAndGetScheme platform uri).1 with
  | error failure => simp [Except.map, givesWellFormed_error]
  | ok node => simp [Except.map, givesWellFormed_ok]

theorem letsInOnlyNodes_of_none {uri : Text}
    (parser : parserOf (normalizeUriAndGetScheme platform uri).2 = none) :
    LetsInOnlyNodes platform uri ↔
      (normalizeUriAndGetScheme platform uri).2 ≠ text "constructor" := by
  unfold LetsInOnlyNodes parseUri
  simp only [parser]
  by_cases named : (normalizeUriAndGetScheme platform uri).2 = text "constructor"
  · simp [named]
  · simp only [named, if_false]
    split <;> simpa using named

/-- Nothing but well-formed nodes comes of a text exactly when it does not slip through. -/
theorem letsInOnlyNodes_iff (uri : Text) : LetsInOnlyNodes platform uri ↔ ¬ Slips platform uri := by
  unfold Slips
  cases parser : parserOf (normalizeUriAndGetScheme platform uri).2 with
  | none => simpa using letsInOnlyNodes_of_none platform parser
  | some protocol =>
    have other : (normalizeUriAndGetScheme platform uri).2 ≠ text "constructor" := by
      rintro named
      rw [named, parserOf_constructor] at parser
      contradiction
    rw [letsInOnlyNodes_of_some platform parser, Protocol.parse_wellFormed]
    simp [other]

end

/-- A platform on which nothing is base64 or JSON, and no text is encoded. -/
def plainPlatform : Platform where
  toLowerCase := List.map lowerAscii
  lower _ _ lowered := isUpper_of_mem_map lowered
  atob _ := none
  decodeUtf8 _ := none
  decodeURIComponent := some
  jsonParse _ := none
  nearest _ := []

/-- A link with the port 0 gives a node, and the scheme `constructor` gives no node. -/
theorem port_zero_and_constructor_slip :
    ¬ LetsInOnlyNodes plainPlatform (linkOf (text "trojan") (text "pw@host:0")) ∧
      ¬ LetsInOnlyNodes plainPlatform (linkOf (text "constructor") (text "x")) := by
  have trojan : normalizeUriAndGetScheme plainPlatform (linkOf (text "trojan") (text "pw@host:0")) =
      (linkOf (text "trojan") (text "pw@host:0"), text "trojan") :=
    normalizeUriAndGetScheme_linkOf plainPlatform (by decide) (by decide) (by decide)
  have inherited : normalizeUriAndGetScheme plainPlatform (linkOf (text "constructor") (text "x")) =
      (linkOf (text "constructor") (text "x"), text "constructor") :=
    normalizeUriAndGetScheme_linkOf plainPlatform (by decide) (by decide) (by decide)
  constructor
  · have parser : parserOf (text "trojan") = some .trojan := by decide
    have body : linkBody plainPlatform (linkOf (text "trojan") (text "pw@host:0")) ["trojan"]
        "Invalid trojan uri" = .ok (text "pw@host:0") :=
      linkBody_linkOf plainPlatform (by decide) (by decide) (by simp) (by decide) _
    have readable : Reads true (text "pw@host:0") := by decide
    have zero : BadPort (authAndRest (text "pw@host:0")).2 := ⟨text "0", by decide, by decide⟩
    rw [letsInOnlyNodes_of_some plainPlatform (by rw [trojan]; exact parser),
      Protocol.parse_wellFormed, trojan]
    exact fun wellFormed => wellFormed _ body ⟨readable, .inr zero⟩
  · rw [letsInOnlyNodes_of_none plainPlatform (by rw [inherited]; exact parserOf_constructor), inherited]
    simp

end ClashVerge.UriParser
