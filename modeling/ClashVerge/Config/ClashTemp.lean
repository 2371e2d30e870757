import ClashVerge.Enhance.BindAddress
import ClashVerge.Verge.Config
import ClashVerge.Yaml.Value

/-!
# Loading the clash configuration

`IClashTemp::new` reads `config.yaml`, fills in what the template has and the file lacks, and
guards the ports and the address of the controller. A file that cannot be read gives the
template.
-/

namespace ClashVerge.Config

open ClashVerge.Enhance ClashVerge.Verge ClashVerge.Yaml

/-- What loading depends on besides the file. -/
structure ClashSite where
  os : Os
  /-- `guard_external_controller_ipc`. -/
  ipcPath : String
  /-- A socket address as the standard library parses it and prints it again. -/
  socketAddress : String → Option String

def textList (texts : List String) : Value := .sequence (texts.map .string)

def number (value : Nat) : Value := .number (.integer value)

/-- The ports other than the mixed, socks and HTTP ports that a platform has, with their defaults. -/
def transparentPorts : Os → List (String × Nat)
  | .windows => []
  | .macos => [("redir-port", 7895)]
  | .linux => [("redir-port", 7895), ("tproxy-port", 7896)]

def ipcKey : Os → String
  | .windows => "external-controller-pipe"
  | .macos | .linux => "external-controller-unix"

/-- `IClashTemp::template`. -/
def clashTemplate (site : ClashSite) : Mapping :=
  let tun : Mapping := [
    (.string "enable", .bool false),
    (.string "stack", .string "gvisor"),
    (.string "auto-route", .bool true),
    (.string "strict-route", .bool false),
    (.string "auto-detect-interface", .bool true),
    (.string "dns-hijack", textList ["any:53"])]
  let cors : Mapping := [
    (.string "allow-private-network", .bool true),
    (.string "allow-origins", textList ["tauri://localhost", "http://tauri.localhost",
      "https://yacd.metacubex.one", "https://metacubex.github.io", "https://board.zash.run.place"])]
  (transparentPorts site.os).map (fun port => (.string port.1, number port.2)) ++ [
    (.string "mixed-port", number 7897),
    (.string "socks-port", number 7898),
    (.string "port", number 7899),
    (.string "log-level", .string "info"),
    (.string "allow-lan", .bool false),
    (.string "ipv6", .bool true),
    (.string "mode", .string "rule"),
    (.string "external-controller", .string "127.0.0.1:9097"),
    (.string (ipcKey site.os), .string site.ipcPath),
    (.string "tun", .mapping tun),
    (.string "secret", .string "set-your-secret"),
    (.string "external-controller-cors", .mapping cors),
    (.string "unified-delay", .bool true)]

/-- `parse::<u16>`, which accepts a plus sign. -/
def parseU16 (chars : List Char) : Option Nat :=
  let digits := if chars.head? = some '+' then chars.tail else chars
  match readNumber 10 digits.length UInt16.size true digits with
  | some (value, rest) => if rest.isEmpty then some value else none
  | none => none

/-- The port a value stands for. A number is cut to 16 bits. -/
def portOf : Value → Option Nat
  | .string text => parseU16 text.toList
  | .number (.integer value) => if 0 ≤ value then some (value.toNat % UInt16.size) else none
  | _ => none

/-- The port under a key; what is no port, or zero, gives the default. -/
def guardPort (key : String) (default : Nat) (config : Mapping) : Nat :=
  let port := ((config.get key).bind portOf).getD default
  if port = 0 then default else port

def guardMixedPort (config : Mapping) : Nat := guardPort "mixed-port" 7897 config

def guardSocksPort (config : Mapping) : Nat := guardPort "socks-port" 7898 config

def guardHttpPort (config : Mapping) : Nat := guardPort "port" 7899 config

def guardServerCtrl (site : ClashSite) (config : Mapping) : String :=
  let address := (config.get "external-controller").bind fun value =>
    value.asStr.bind fun text =>
      let trimmed := trim text.toList
      site.socketAddress (if trimmed.head? = some ':' then "127.0.0.1" ++ String.ofList trimmed
        else String.ofList trimmed)
  address.getD "127.0.0.1:9097"

/-- `IClashTemp::guard`. All values are taken before the first is put in. -/
def guardClash (site : ClashSite) (config : Mapping) : Mapping :=
  let entries := (transparentPorts site.os).map
      (fun port => (port.1, number (guardPort port.1 port.2 config))) ++ [
    ("mixed-port", number (guardMixedPort config)),
    ("socks-port", number (guardSocksPort config)),
    ("port", number (guardHttpPort config)),
    ("external-controller", .string (guardServerCtrl site config)),
    (ipcKey site.os, .string site.ipcPath)]
  entries.foldl (fun config entry => config.insert (.string entry.1) entry.2) config

/-- Put in the entries of the template that are missing. -/
def fillTemplate (config template : Mapping) : Mapping :=
  template.foldl (fun config entry =>
    if OrderedMap.contains config entry.1 then config else config.insert entry.1 entry.2) config

/-- An empty secret becomes the default one. -/
def fillSecret (config : Mapping) : Mapping :=
  match config.get "secret" with
  | some (.string "") => config.insert (.string "secret") (.string "set-your-secret")
  | _ => config

/-- `IClashTemp::new`. -/
def loadClash (site : ClashSite) (read : Except String Mapping) : Mapping :=
  match read with
  | .ok map => guardClash site (fillSecret (fillTemplate map (clashTemplate site)))
  | .error _ => clashTemplate site

end ClashVerge.Config
