import ClashVerge.UriParser.UrlLike
import ClashVerge.UriParser.Vless
import ClashVerge.UriParser.Vmess

/-!
# When a parser gives a well-formed node

A node is of use to the core when it has a server and a port that a server can have. For each
parser the module says which links behind their scheme get through without one.
-/

namespace ClashVerge.UriParser

open Backtracking Delimited

/-- A node of the type, with a server and with a port that a server can have. -/
structure Node.WellFormed (node : Node) (type : String) : Prop where
  type : node.type = type
  server : ∃ host, node.server = .string host ∧ host ≠ []
  port : ∃ port : Int, node.port = .integer port ∧ 1 ≤ port ∧ port ≤ 65535

def GivesWellFormed (type : String) (result : Except Failure Node) : Prop :=
  ∀ node, result = .ok node → node.WellFormed type

theorem givesWellFormed_ok (type : String) (node : Node) :
    GivesWellFormed type (.ok node) ↔ node.WellFormed type := by
  simp [GivesWellFormed]

theorem wellFormed_of_port (type : String) (name : Js) (server : Text) {port : Int} (least : 1 ≤ port)
    (most : port ≤ 65535) (options : Options) :
    (Node.mk type name (.string server) (.integer port) options).WellFormed type ↔ server ≠ [] := by
  constructor
  · rintro ⟨-, ⟨host, same, nonempty⟩, -⟩
    obtain rfl := Js.string.inj same
    exact nonempty
  · exact fun nonempty => ⟨rfl, ⟨server, rfl, nonempty⟩, ⟨port, rfl, least, most⟩⟩

theorem givesWellFormed_error (type : String) (failure : Failure) :
    GivesWellFormed type (.error failure) := by
  simp [GivesWellFormed]

theorem givesWellFormed_bind {Result : Type} (type : String) (first : Except Failure Result)
    (next : Result → Except Failure Node) :
    GivesWellFormed type (first >>= next) ↔
      ∀ result, first = .ok result → GivesWellFormed type (next result) := by
  cases first with
  | error failure => exact iff_of_true (givesWellFormed_error type failure) (by simp)
  | ok result => simp [bind, Except.bind]

/-! ## Links that look like a URL -/

section

variable (platform : Platform)

/-- A link of one line has credentials where they are wanted. -/
def Reads (requireAuth : Bool) (body : Text) : Prop :=
  OneLine body ∧ (requireAuth = true → (getIfNotBlank (authAndRest body).1).isSome = true)

def partsOf (body : Text) : UrlLikeParts :=
  ⟨getIfNotBlank (authAndRest body).1, normalizeHost (hostAndTail (authAndRest body).2).1,
    (hostAndTail (authAndRest body).2).2.port, (hostAndTail (authAndRest body).2).2.query,
    (hostAndTail (authAndRest body).2).2.fragment⟩

instance (requireAuth : Bool) (body : Text) : Decidable (Reads requireAuth body) :=
  inferInstanceAs (Decidable (_ ∧ _))

theorem parseUrlLike_of_reads {requireAuth : Bool} {body : Text} (reads : Reads requireAuth body)
    (message : String) : parseUrlLike body requireAuth message = .ok (partsOf body) := by
  rw [parseUrlLike_eq]
  exact if_pos reads

theorem parseUrlLike_of_not_reads {requireAuth : Bool} {body : Text}
    (unread : ¬ Reads requireAuth body) (message : String) :
    parseUrlLike body requireAuth message = fails message := by
  rw [parseUrlLike_eq]
  exact if_neg unread

theorem urlLikeNode_wellFormed (type label : String) (body : Text) (options : Options) :
    (urlLikeNode platform type label (partsOf body) options).WellFormed type ↔
      ¬ Hostless (authAndRest body).2 ∧ ¬ BadPort (authAndRest body).2 := by
  have port := parsePortOrDefault_valid platform (authAndRest body).2
  have host := normalizeHost_hostAndTail (authAndRest body).2
  constructor
  · rintro ⟨-, ⟨_, ⟨rfl⟩, nonempty⟩, valid⟩
    exact ⟨fun hostless => nonempty (host.mpr hostless), port.mp valid⟩
  · rintro ⟨hosted, valid⟩
    exact ⟨rfl, ⟨_, rfl, fun empty => hosted (host.mp empty)⟩, port.mpr valid⟩

def Misdirected (body : Text) : Prop := Hostless (authAndRest body).2 ∨ BadPort (authAndRest body).2

theorem parts_wellFormed (type : String) (requireAuth : Bool) (message : String) (body : Text)
    (make : UrlLikeParts → Except Failure Node) :
    GivesWellFormed type (parseUrlLike body requireAuth message >>= make) ↔
      (Reads requireAuth body → GivesWellFormed type (make (partsOf body))) := by
  rw [givesWellFormed_bind]
  by_cases reads : Reads requireAuth body
  · simp [parseUrlLike_of_reads reads, reads]
  · simp [parseUrlLike_of_not_reads reads, reads, fails]

theorem link_wellFormed (type label : String) (requireAuth : Bool) (message : String) (body : Text)
    (options : UrlLikeParts → Options) :
    GivesWellFormed type (parseUrlLike body requireAuth message >>= fun parts =>
        pure (urlLikeNode platform type label parts (options parts))) ↔
      ¬ (Reads requireAuth body ∧ Misdirected body) := by
  have node := urlLikeNode_wellFormed platform type label body (options (partsOf body))
  rw [parts_wellFormed, show ∀ node : Node, (pure node : Except Failure Node) = .ok node from
    fun _ => rfl, givesWellFormed_ok, node, Misdirected]
  simp [not_or]

theorem uriTuic_wellFormed (line : Text) : GivesWellFormed "tuic" (uriTuic platform line) ↔
      ∀ body, linkBody platform line ["tuic"] "Invalid tuic uri" = .ok body →
        ¬ (Reads true body ∧ unit ':' ∈ (authAndRest body).1.getD [] ∧ Misdirected body) := by
  unfold uriTuic
  rw [givesWellFormed_bind]
  refine forall₂_congr fun body _ => ?_
  rw [parts_wellFormed]
  by_cases reads : Reads true body
  · have auth : (partsOf body).auth = (authAndRest body).1 := by
      have some_ := reads.2 rfl
      unfold partsOf getIfNotBlank at *
      cases named : (authAndRest body).1 with
      | none => rfl
      | some auth => simpa [named, Option.filter_some] using some_
    have cut := splitOnce_eq_none_iff (unit ':') ((authAndRest body).1.getD [])
    simp only [auth, reads, true_imp_iff, true_and]
    cases found : splitOnce (unit ':') ((authAndRest body).1.getD []) with
    | none => simp [fails, givesWellFormed_error, cut.mp found]
    | some account =>
      have node := urlLikeNode_wellFormed platform "tuic" "TUIC" body
      have inside : unit ':' ∈ (authAndRest body).1.getD [] := by
        by_contra outside
        rw [cut.mpr outside] at found
        contradiction
      simp [pure, Except.pure, givesWellFormed_ok, inside, Misdirected, node]
  · simp [reads]

theorem anytls_wellFormed (message : String) (body : Text) (options : UrlLikeParts → Options) :
    GivesWellFormed "anytls" (parseUrlLike body false message >>= fun parts =>
        if parts.host.isEmpty then fails message
        else pure (urlLikeNode platform "anytls" "AnyTLS" parts (options parts))) ↔
      ¬ (Reads false body ∧ ¬ Hostless (authAndRest body).2 ∧ BadPort (authAndRest body).2) := by
  rw [parts_wellFormed]
  have host : (partsOf body).host.isEmpty = true ↔ Hostless (authAndRest body).2 := by
    rw [← normalizeHost_hostAndTail, List.isEmpty_iff]
    rfl
  by_cases hostless : Hostless (authAndRest body).2
  · simp [host.mpr hostless, fails, givesWellFormed_error, hostless]
  · have node := urlLikeNode_wellFormed platform "anytls" "AnyTLS" body (options (partsOf body))
    have empty : ¬ (partsOf body).host.isEmpty = true := fun empty => hostless (host.mp empty)
    simp only [if_neg empty]
    simpa [pure, Except.pure, givesWellFormed_ok, hostless] using imp_congr_right fun _ => node

end

/-! ## Ports that are wanted -/

theorem parsePortStrict_valid {shown : Text} {port : Nat} (strict : parsePortStrict shown = some port) :
    1 ≤ port ∧ port ≤ 65535 := by
  simp only [parsePortStrict] at strict
  split at strict
  · split at strict
    · contradiction
    · cases strict
      omega
  · contradiction

theorem parseRequiredPort_string (shown : Text) (message : String) :
    parseRequiredPort (.string shown) message =
      ((parsePortStrict shown).map fun port => Except.ok (.integer port)).getD (fails message) := by
  unfold parseRequiredPort
  cases strict : parsePortStrict shown <;>
    simp [strict, Js.isNullish, Js.toStr, bind, Except.bind]

theorem parseRequiredPort_valid {value : Js} {message : String} {port : Number}
    (read : parseRequiredPort value message = .ok port) :
    ∃ valid : Int, port = .integer valid ∧ 1 ≤ valid ∧ valid ≤ 65535 := by
  unfold parseRequiredPort at read
  split at read
  · simp [fails] at read
  · cases shown : value.toStr with
    | error failure => simp [shown, bind, Except.bind] at read
    | ok shown' =>
      simp only [shown, bind, Except.bind] at read
      split at read
      · simp [fails] at read
      · rename_i valid strict
        cases read
        have bounds := parsePortStrict_valid strict
        exact ⟨valid, rfl, by omega, by omega⟩

/-- A host that is nothing, or brackets around nothing. -/
def NoHost (host : Text) : Prop := host = [] ∨ host = [unit '[', unit ']']

/-- A text `host:port` with a port, but without a host. -/
def HostMissing (value : Text) : Prop :=
  ∃ host portRaw, splitLast (unit ':') value = some (host, portRaw) ∧
    (parsePortStrict portRaw).isSome = true ∧ NoHost host

theorem serverAndPort_cases (value : Text) (missing invalid : String) :
    (∃ failure, serverAndPort value missing invalid = .error failure) ∧ ¬ HostMissing value ∨
      ∃ server, ∃ port : Int, serverAndPort value missing invalid = .ok (server, .integer port) ∧
        1 ≤ port ∧ port ≤ 65535 ∧ (server = [] ↔ HostMissing value) := by
  unfold serverAndPort HostMissing
  cases splitLast (unit ':') value with
  | none => simp [fails]
  | some parts =>
    obtain ⟨host, portRaw⟩ := parts
    cases strict : parsePortStrict portRaw with
    | none => simp [parseRequiredPort_string, strict, fails, bind, Except.bind]
    | some port =>
      have bounds := parsePortStrict_valid strict
      refine .inr ⟨normalizeHost host, port, ?_, by omega, by omega, ?_⟩
      · simp [parseRequiredPort_string, strict, bind, Except.bind, pure, Except.pure]
      · simp [normalizeHost_nil_iff, strict, NoHost]

section

variable (platform : Platform)

/-- A Shadowsocks link with a port and no host, and with a plugin that is known. -/
def SsSlips (body : Text) : Prop :=
  (∃ userPart behind, splitLast (unit '@') (ssMain platform body) = some (userPart, behind) ∧
    HostMissing (beforeFirst (text "/") behind)) ∧
    ∃ plugin, ssPlugin platform (ssParams platform body) = .ok plugin

theorem uriSs_wellFormed (line : Text) : GivesWellFormed "ss" (uriSs platform line) ↔
      ∀ body, linkBody platform line ["ss"] "Invalid ss uri" = .ok body →
        ¬ SsSlips platform body := by
  unfold uriSs
  rw [givesWellFormed_bind]
  refine forall₂_congr fun body _ => ?_
  unfold SsSlips
  cases splitLast (unit '@') (ssMain platform body) with
  | none => simp [fails, givesWellFormed_error]
  | some parts =>
    obtain ⟨userPart, behind⟩ := parts
    obtain ⟨⟨failure, failed⟩, hosted⟩ | ⟨server, port, read, least, most, empty⟩ :=
      serverAndPort_cases (beforeFirst (text "/") behind) "Invalid ss uri: missing port"
        "Invalid ss uri: invalid port"
    · simp only [failed]
      refine iff_of_true (givesWellFormed_error _ _) ?_
      rintro ⟨⟨_, _, ⟨rfl, rfl⟩, missing⟩, -⟩
      exact hosted missing
    · cases known : ssPlugin platform (ssParams platform body) with
      | error failure =>
        simp [read, known, bind, Except.bind, givesWellFormed_error]
      | ok plugin =>
        have node := fun name options => wellFormed_of_port "ss" name server least most options
        simp [read, known, bind, Except.bind, pure, Except.pure, givesWellFormed_ok, node, empty]

/-- A ShadowsocksR link with a port and no host, and with all parts up to the password. -/
def SsrSlips (body : Text) : Prop :=
  ∃ before behind, ssrSplit (decodeBase64OrOriginal platform body) = some (before, behind) ∧
    HostMissing before ∧ 4 ≤ ((beforeFirst (text "/?") behind).splitOn (unit ':')).length

theorem uriSsr_wellFormed (line : Text) : GivesWellFormed "ssr" (uriSsr platform line) ↔
      ∀ body, linkBody platform line ["ssr"] "Invalid ssr uri" = .ok body →
        ¬ SsrSlips platform body := by
  unfold uriSsr
  rw [givesWellFormed_bind]
  refine forall₂_congr fun body _ => ?_
  unfold SsrSlips
  cases cut : ssrSplit (decodeBase64OrOriginal platform body) with
  | none => simp [cut, fails, givesWellFormed_error]
  | some parts =>
    obtain ⟨before, behind⟩ := parts
    obtain ⟨⟨failure, failed⟩, hosted⟩ | ⟨server, port, read, least, most, empty⟩ :=
      serverAndPort_cases before "Invalid ssr uri: missing port" "Invalid ssr uri: invalid port"
    · refine iff_of_true ?_ ?_
      · simp [cut, failed, bind, Except.bind, givesWellFormed_error]
      · rintro ⟨_, _, ⟨rfl, rfl⟩, missing, -⟩
        exact hosted missing
    · have node := fun name options => wellFormed_of_port "ssr" name server least most options
      rcases fields : (beforeFirst (text "/?") behind).splitOn (unit ':') with
        _ | ⟨protocol, _ | ⟨cipher, _ | ⟨obfs, _ | ⟨password, rest⟩⟩⟩⟩
      all_goals
        simp [cut, read, fields, bind, Except.bind, pure, Except.pure, givesWellFormed_ok,
          givesWellFormed_error, node, empty]

/-- A VLESS link can be read as it stands: it has credentials and a port that a server can have. -/
def VlessReads (body : Text) : Prop :=
  Reads true body ∧
    ((hostAndTail (authAndRest body).2).2.port.bind parsePortStrict).isSome = true

theorem parseVlessRest_of_not_reads {body : Text} (unread : ¬ VlessReads body) :
    ∃ failure, parseVlessRest body = .error failure := by
  unfold parseVlessRest
  by_cases reads : Reads true body
  · rw [parseUrlLike_of_reads reads]
    cases digits : present (partsOf body).port with
    | none => exact ⟨_, by simp [digits, bind, Except.bind, fails]; rfl⟩
    | some digits' =>
      have named : (hostAndTail (authAndRest body).2).2.port = some digits' :=
        (Option.filter_eq_some_iff.mp digits).1
      have strict : parsePortStrict digits' = none := by
        simpa [VlessReads, reads, named] using unread
      exact ⟨_, by simp [digits, parseRequiredPort_string, strict, bind, Except.bind, fails]; rfl⟩
  · rw [parseUrlLike_of_not_reads reads]
    exact ⟨_, rfl⟩

theorem parseVlessRest_of_reads {body : Text} (reads : VlessReads body) :
    ∃ rest, ∃ port : Int, parseVlessRest body = .ok rest ∧ rest.port = .integer port ∧ 1 ≤ port ∧
      port ≤ 65535 ∧ (rest.server = [] ↔ Hostless (authAndRest body).2) := by
  obtain ⟨reads, valid⟩ := reads
  obtain ⟨port, strict⟩ := Option.isSome_iff_exists.mp valid
  obtain ⟨digits, named, strict⟩ := Option.bind_eq_some_iff.mp strict
  have bounds := parsePortStrict_valid strict
  have nonempty : present (partsOf body).port = some digits := by
    refine Option.filter_eq_some_iff.mpr ⟨named, ?_⟩
    have only := hostAndTail_port named
    simp only [onlyDigits, Bool.and_eq_true] at only
    exact only.1
  unfold parseVlessRest
  rw [parseUrlLike_of_reads reads]
  refine ⟨⟨(partsOf body).auth.getD [], (partsOf body).host, .integer port, (partsOf body).query,
    (partsOf body).fragment⟩, port, ?_, rfl, by omega, by omega, normalizeHost_hostAndTail _⟩
  simp [nonempty, parseRequiredPort_string, strict, bind, Except.bind, pure, Except.pure]

/-- A VLESS link without a host, as it stands or else with its first part decoded. -/
def VlessSlips (body : Text) : Prop :=
  (VlessReads body ∧ Hostless (authAndRest body).2) ∨
    (¬ VlessReads body ∧ ∃ decoded, shadowRest platform body = some decoded ∧
      VlessReads decoded ∧ Hostless (authAndRest decoded).2)

theorem uriVless_wellFormed (line : Text) : GivesWellFormed "vless" (uriVless platform line) ↔
      ∀ body, linkBody platform line ["vless"] "Invalid vless uri" = .ok body →
        ¬ VlessSlips platform body := by
  unfold uriVless
  rw [givesWellFormed_bind]
  refine forall₂_congr fun body _ => ?_
  rw [givesWellFormed_bind]
  have node {rest : VlessRest} {port : Int} (named : rest.port = .integer port) (least : 1 ≤ port)
      (most : port ≤ 65535) (name : Js) (options : Options) :
      (Node.mk "vless" name (.string rest.server) rest.port options).WellFormed "vless" ↔
        rest.server ≠ [] := by
    rw [named]
    exact wellFormed_of_port "vless" name rest.server least most options
  unfold readVless VlessSlips
  by_cases reads : VlessReads body
  · obtain ⟨rest, port, read, named, least, most, empty⟩ := parseVlessRest_of_reads reads
    simp [read, reads, pure, Except.pure, givesWellFormed_ok, node named least most, empty]
  · obtain ⟨failure, failed⟩ := parseVlessRest_of_not_reads reads
    simp only [failed, reads, false_and, false_or, not_false_eq_true, true_and]
    cases shadow : shadowRest platform body with
    | none => simp [fails]
    | some decoded =>
      by_cases again : VlessReads decoded
      · obtain ⟨rest, port, read, named, least, most, empty⟩ := parseVlessRest_of_reads again
        simp [read, again, Except.map, pure, Except.pure, givesWellFormed_ok, node named least most,
          empty]
      · obtain ⟨failure, failed⟩ := parseVlessRest_of_not_reads again
        simp [failed, again, Except.map]

/-- A line of the first client with a port and no host, with all parts up to the uuid, and with no
transport that is unknown. -/
def QuantumultSlips (content : Text) : Prop :=
  (∃ first server rest, quantumultPartitions content = first :: server :: rest ∧ NoHost server ∧
    (rest.head?.bind parsePortStrict).isSome = true ∧ 3 ≤ rest.length) ∧
    ∀ kind, quantumultParam content "obfs" = some kind → kind = text "ws" ∨ kind = text "wss"

theorem quantumultNetwork_cases (content : Text) :
    (∃ failure, quantumultNetwork content = .error failure) ∧
        (¬ ∀ kind, quantumultParam content "obfs" = some kind →
          kind = text "ws" ∨ kind = text "wss") ∨
      (∃ options, quantumultNetwork content = .ok options) ∧
        ∀ kind, quantumultParam content "obfs" = some kind →
          kind = text "ws" ∨ kind = text "wss" := by
  unfold quantumultNetwork
  cases quantumultParam content "obfs" with
  | none => simp
  | some kind =>
    by_cases known : kind = text "ws" ∨ kind = text "wss" <;> simp [known]

theorem parseRequiredPort_ofText (shown : Option Text) (message : String) :
    parseRequiredPort (ofText shown) message =
      ((shown.bind parsePortStrict).map fun port => Except.ok (.integer port)).getD
        (fails message) := by
  cases shown with
  | none => rfl
  | some shown => exact parseRequiredPort_string shown message

theorem quantumultSlips_iff {content first server : Text} {rest : List Text}
    (partitions : quantumultPartitions content = first :: server :: rest) :
    QuantumultSlips content ↔
      (NoHost server ∧ (rest.head?.bind parsePortStrict).isSome = true ∧ 3 ≤ rest.length) ∧
        ∀ kind, quantumultParam content "obfs" = some kind →
          kind = text "ws" ∨ kind = text "wss" := by
  unfold QuantumultSlips
  refine and_congr_left' ⟨?_, fun slips => ⟨first, server, rest, partitions, slips⟩⟩
  rintro ⟨first', server', rest', again, slips⟩
  obtain ⟨rfl, rfl, rfl⟩ : first = first' ∧ server = server' ∧ rest = rest' := by
    simpa [partitions] using again
  exact slips

theorem parseVmessQuantumult_wellFormed (content : Text) :
    GivesWellFormed "vmess" (parseVmessQuantumult content) ↔ ¬ QuantumultSlips content := by
  unfold parseVmessQuantumult
  rcases partitions : quantumultPartitions content with _ | ⟨first, _ | ⟨server, rest⟩⟩
  · simp [givesWellFormed_error, QuantumultSlips, partitions]
  · simp [givesWellFormed_error, QuantumultSlips, partitions]
  · rw [quantumultSlips_iff partitions]
    cases strict : rest.head?.bind parsePortStrict with
    | none => simp [parseRequiredPort_ofText, strict, fails, bind, Except.bind, givesWellFormed_error]
    | some port =>
      have read : parseRequiredPort (ofText rest.head?) "Invalid vmess uri: invalid port" =
          .ok (.integer port) := by
        rw [parseRequiredPort_ofText, strict]
        rfl
      obtain ⟨shown, -, valid⟩ := Option.bind_eq_some_iff.mp strict
      have bounds := parsePortStrict_valid valid
      have node := fun name options => wellFormed_of_port "vmess" name (normalizeHost server)
        (show (1 : Int) ≤ (port : Int) by omega) (by omega) options
      rcases rest with _ | ⟨second, _ | ⟨cipher, _ | ⟨uuid, more⟩⟩⟩
      · contradiction
      · simp only [read, bind, Except.bind]
        simp [givesWellFormed_error]
      · simp only [read, bind, Except.bind]
        simp [givesWellFormed_error]
      · simp only [read, bind, Except.bind]
        obtain ⟨⟨failure, failed⟩, unknown⟩ | ⟨⟨options, network⟩, known⟩ :=
          quantumultNetwork_cases content
        · simp only [failed]
          exact iff_of_true (givesWellFormed_error _ _) fun slips => unknown slips.2
        · simp only [network, pure, Except.pure, givesWellFormed_ok, node, Ne,
            normalizeHost_nil_iff]
          rw [not_iff_not]
          exact ⟨fun hostless => ⟨⟨hostless, rfl, by simp⟩, known⟩, fun slips => slips.1.1⟩

def NamesServer (params : Js) : Prop := ∃ add, params.get "add" = .string add ∧ ¬ NoHost add

/-- Parameters with a port and without a server, where everything that becomes a text can. -/
def ParamsSlip (params : Js) : Prop :=
  params.isNullish = false ∧ ¬ NamesServer params ∧
    ∃ port, parseRequiredPort (params.get "port") "Invalid vmess uri: invalid port" = .ok port ∧
      (∃ name, vmessName params (vmessServer params) port = .ok name) ∧
      (∃ verify, vmessVerify (params.get "verify_cert") = .ok verify) ∧
      (∃ alterId, vmessAlterId platform params = .ok alterId) ∧
      ∃ transport, readTransport platform params = .ok transport

theorem vmessServer_named (params : Js) :
    (∃ host, vmessServer params = .string host ∧ host ≠ []) ↔ NamesServer params := by
  unfold vmessServer NamesServer
  cases params.get "add" <;> simp [normalizeHost_nil_iff, NoHost]

theorem vmessNode_wellFormed (params : Js) :
    GivesWellFormed "vmess" (vmessNode platform params) ↔ ¬ ParamsSlip platform params := by
  unfold vmessNode ParamsSlip
  cases nullish : params.isNullish with
  | true => simp [givesWellFormed_error]
  | false =>
    simp only [Bool.false_eq_true, if_false, true_and, givesWellFormed_bind]
    have node {port : Number} (read : parseRequiredPort (params.get "port")
        "Invalid vmess uri: invalid port" = .ok port) (name : Js) (options : Options) :
        GivesWellFormed "vmess" (.ok ⟨"vmess", name, vmessServer params, port, options⟩) ↔
          NamesServer params := by
      rw [givesWellFormed_ok, ← vmessServer_named]
      exact ⟨fun wellFormed => wellFormed.server,
        fun named => ⟨rfl, named, parseRequiredPort_valid read⟩⟩
    constructor
    · rintro wellFormed ⟨unnamed, port, read, ⟨name, named⟩, ⟨verify, verified⟩,
        ⟨alterId, altered⟩, ⟨transport, chosen⟩⟩
      exact unnamed ((node read name _).mp
        (wellFormed port read name named verify verified alterId altered transport chosen))
    · intro slips port read name named verify verified alterId altered transport chosen
      refine (node read name _).mpr ?_
      by_contra unnamed
      exact slips ⟨unnamed, port, read, ⟨name, named⟩, ⟨verify, verified⟩, ⟨alterId, altered⟩,
        ⟨transport, chosen⟩⟩

/-- What VMess links slip through: lines of the first client, or else parameters. -/
def VmessSlips (body : Text) : Prop :=
  let content := decodeBase64OrOriginal platform body
  if (quantumultRe.search content).isSome then QuantumultSlips content
  else ParamsSlip platform (parseVmessParams platform content body)

theorem uriVmess_wellFormed (line : Text) : GivesWellFormed "vmess" (uriVmess platform line) ↔
      ∀ body, linkBody platform line ["vmess"] "Invalid vmess uri" = .ok body →
        ¬ VmessSlips platform body := by
  unfold uriVmess
  rw [givesWellFormed_bind]
  refine forall₂_congr fun body _ => ?_
  unfold VmessSlips
  dsimp only
  split
  · exact parseVmessQuantumult_wellFormed _
  · exact vmessNode_wellFormed platform _

end

end ClashVerge.UriParser
