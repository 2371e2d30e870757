import ClashVerge.Library.PercentEncoding

/-!
# Subscriptions named by a deep link

A deep link names a subscription in the parameter `url` of its query and may give it a name in the
parameter `name`. The URL is everything behind the first `url=` in the query, which is decoded until
it parses, twice at most.

Texts are their bytes in UTF-8. How a URL is parsed is a parameter; the query of a parsed link has
printable ASCII bytes only.
-/

namespace ClashVerge.Resolve

open Delimited PercentEncoding

abbrev Text := List UInt8

/-- The ampersand between two parameters. -/
def ampersand : UInt8 := 38

/-- The sign between a key and its value. -/
def equalsSign : UInt8 := 61

def urlKey : Text := Utf8.encode "url".toList
def nameKey : Text := Utf8.encode "name".toList

def assigned (key : Text) : Text := key ++ [equalsSign]

structure Link where
  scheme : String
  query : Option Text
  printable : ∀ text, query = some text → ∀ byte ∈ text, 33 ≤ byte ∧ byte ≤ 126

def formDecode (component : Text) : Text :=
  decode (component.map fun byte => if byte = 43 then 32 else byte)

def formPair (parameter : Text) : Text × Text :=
  match splitOnce equalsSign parameter with
  | some (key, value) => (formDecode key, formDecode value)
  | none => (formDecode parameter, formDecode [])

def queryPairs (query : Text) : List (Text × Text) :=
  ((query.splitOn ampersand).filter fun parameter => !parameter.isEmpty).map formPair

/-- `char::is_whitespace`, on ASCII. -/
def isSpace (byte : UInt8) : Bool := byte = 32 || (9 ≤ byte && byte ≤ 13)

/-- `str::trim`, on ASCII. -/
def trim (text : Text) : Text := ((text.dropWhile isSpace).reverse.dropWhile isSpace).reverse

section
variable (parses : Text → Bool)

/-- The loop of `decode_subscription_url`. -/
def decodeUpTo : Nat → Text → Text
  | 0, candidate => candidate
  | rounds + 1, candidate =>
    if decode candidate = candidate then candidate
    else if parses (decode candidate) then decode candidate
    else decodeUpTo rounds (decode candidate)

def decodeSubscriptionUrl (rawUrl : Text) : Text :=
  if parses rawUrl then rawUrl else decodeUpTo parses 2 rawUrl

def extractSubscriptionUrl (link : Link) : Option Text := do
  let query ← link.query
  let (_, behind) ← splitOnceAt (assigned urlKey) query
  return decodeSubscriptionUrl parses (trim behind)

def extractSubscriptionInfo (link : Link) : Option (Text × Option Text) :=
  if link.scheme = "clash" ∨ link.scheme = "clash-verge" then
    let name := ((queryPairs (link.query.getD [])).find? fun pair => pair.1 = nameKey).map Prod.snd
    (extractSubscriptionUrl parses link).map fun url => (url, name)
  else none

end

/-- The parameters that have a key give the name, if there is one. -/
def NamedBy : Option (List Char) → List Text → Prop
  | none, parameters => parameters = []
  | some name, parameters =>
    ∃ encoded, Encodes encoded (Utf8.encode name) ∧ parameters = [assigned nameKey ++ encoded]

/-- A deep link for a URL and perhaps a name: an encoding of the URL is the value of the
parameter `url`, and any parameters with other keys stand before and behind it, that of the
name among them. -/
structure DeepLink (url : List Char) (name : Option (List Char)) where
  scheme : String
  before : List Text
  encoded : Text
  after : List Text
  supported : scheme = "clash" ∨ scheme = "clash-verge"
  encodes : Encodes encoded (Utf8.encode url)
  whole : ∀ parameter ∈ before ++ after, ampersand ∉ parameter
  printable : ∀ parameter ∈ before ++ after, ∀ byte ∈ parameter, 33 ≤ byte ∧ byte ≤ 126
  others : ∀ parameter ∈ before ++ after, (formPair parameter).1 ≠ urlKey
  named : NamedBy name ((before ++ after).filter fun parameter => (formPair parameter).1 = nameKey)

namespace DeepLink
variable {url : List Char} {name : Option (List Char)} (link : DeepLink url name)

def urlParameter : Text := assigned urlKey ++ link.encoded

def query : Text := join ampersand (link.before ++ link.urlParameter :: link.after)

end DeepLink

/-! ### The name -/

theorem formDecode_of_no_plus {component : Text} (none : (43 : UInt8) ∉ component) :
    formDecode component = decode component := by
  have same : (component.map fun byte => if byte = 43 then 32 else byte) = component := by
    refine (List.map_congr_left fun byte member => ?_).trans (List.map_id component)
    exact if_neg fun plus : byte = 43 => none (plus ▸ member)
  rw [formDecode, same]

theorem formPair_assigned {key encoded : Text} {text : List Char} (free : equalsSign ∉ key)
    (plain : formDecode key = key) (encodes : Encodes encoded (Utf8.encode text)) :
    formPair (assigned key ++ encoded) = (key, Utf8.encode text) := by
  have cut := (splitOnce_join_iff equalsSign key encoded).mpr free
  have noPlus : (43 : UInt8) ∉ encoded := fun member =>
    absurd (encodes.bytes 43 member) (by decide)
  rw [assigned, List.append_assoc, List.singleton_append, formPair, cut]
  simp only [plain, formDecode_of_no_plus noPlus, encodes.decode_eq]

namespace DeepLink
variable {url : List Char} {name : Option (List Char)} (link : DeepLink url name)

theorem whole_urlParameter : ampersand ∉ link.urlParameter := by
  rw [urlParameter, List.mem_append, not_or]
  exact ⟨by decide, fun member => absurd (link.encodes.bytes _ member) (by decide)⟩

theorem formPair_urlParameter : formPair link.urlParameter = (urlKey, Utf8.encode url) :=
  formPair_assigned (by decide) (by decide) link.encodes

theorem splitOn_query :
    link.query.splitOn ampersand = link.before ++ link.urlParameter :: link.after := by
  refine List.splitOn_intercalate ampersand (fun parameter member => ?_) (by simp)
  rcases List.mem_append.mp member with early | here
  · exact link.whole parameter (List.mem_append_left _ early)
  · rcases List.mem_cons.mp here with rfl | late
    · exact link.whole_urlParameter
    · exact link.whole parameter (List.mem_append_right _ late)

theorem filter_name : (link.before ++ link.urlParameter :: link.after).filter
        (fun parameter => (formPair parameter).1 = nameKey) =
      (link.before ++ link.after).filter fun parameter => (formPair parameter).1 = nameKey := by
  have other : ¬ (formPair link.urlParameter).1 = nameKey := by
    rw [link.formPair_urlParameter]
    exact (by decide : urlKey ≠ nameKey)
  simp [List.filter_append, other]

theorem find_name : ((queryPairs link.query).find? fun pair => pair.1 = nameKey).map Prod.snd =
      name.map Utf8.encode := by
  have empty : ¬ (formPair []).1 = nameKey := by decide
  have first : (queryPairs link.query).find? (fun pair => pair.1 = nameKey) =
      (((link.before ++ link.after).filter
        fun parameter => (formPair parameter).1 = nameKey).head?).map formPair := by
    rw [queryPairs, link.splitOn_query, List.find?_map, ← List.head?_filter, ← filter_name,
      List.filter_filter]
    congr 2
    refine List.filter_congr fun parameter _ => ?_
    cases parameter with
    | nil => simp [empty]
    | cons byte rest => simp
  rw [first]
  have named := link.named
  cases name with
  | none =>
    rw [show _ = [] from named]
    rfl
  | some text =>
    obtain ⟨encoded, encodes, found⟩ := named
    rw [found, List.head?_cons, Option.map_some,
      formPair_assigned (by decide) (by decide) encodes]
    rfl

/-! ### The URL -/

/-- What stands behind the first `url=` of the query: the URL's encoding and the parameters behind
it, if no parameter before it has a `url=`; else parts of the query with the parameter of the URL
among them. -/
theorem behind_url (before : List Text) : ∃ front first rest,
      splitOnceAt (assigned urlKey)
          (join ampersand (before ++ link.urlParameter :: link.after)) =
        some (front, join ampersand (first :: rest)) ∧
      ((first = link.encoded ∧ rest = link.after ∧
          ∀ parameter ∈ before, ¬ assigned urlKey <:+: parameter) ∨
        (link.urlParameter ∈ rest ∧ ∃ parameter ∈ before, assigned urlKey <:+: parameter)) := by
  induction before with
  | nil =>
    refine ⟨[], link.encoded, link.after, ?_, .inl ⟨rfl, rfl, fun _ member => nomatch member⟩⟩
    by_cases last : link.after = []
    · rw [last, List.nil_append, join_singleton, join_singleton]
      exact splitOnceAt_of_prefix _ _
    · rw [List.nil_append, join_cons _ _ last, join_cons _ _ last, urlParameter, List.append_assoc]
      exact splitOnceAt_of_prefix _ _
  | cons parameter others ih =>
    rw [List.cons_append, join_cons _ _ (by simp),
      splitOnceAt_append_cons _ _ (by decide) (by decide)]
    cases found : splitOnceAt (assigned urlKey) parameter with
    | some parts =>
      obtain ⟨joined, -⟩ := (splitOnceAt_eq_some_iff _ _ _ _).mp found
      refine ⟨parts.1, parts.2, others ++ link.urlParameter :: link.after, ?_,
        .inr ⟨by simp, parameter, List.mem_cons_self, parts.1, parts.2, ?_⟩⟩
      · rw [join_cons _ _ (by simp)]
      · rw [joined, List.append_assoc]
    | none =>
      obtain ⟨front, first, rest, cut, kinds⟩ := ih
      refine ⟨parameter ++ ampersand :: front, first, rest, by simp only [cut, Option.map_some], ?_⟩
      rcases kinds with ⟨encoded, after, clean⟩ | ⟨inside, other, member, holds⟩
      · exact .inl ⟨encoded, after, List.forall_mem_cons.mpr
          ⟨(splitOnceAt_eq_none_iff _ _).mp found, clean⟩⟩
      · exact .inr ⟨inside, other, List.mem_cons_of_mem _ member, holds⟩

theorem decode_ampersand : WorksApart ampersand decode :=
  decode_worksApart (by decide) (by decide) (by decide)

theorem decode_urlParameter : decode link.urlParameter = assigned urlKey ++ Utf8.encode url := by
  have apart : WorksApart equalsSign decode := decode_worksApart (by decide) (by decide) (by decide)
  have plain : decode urlKey = urlKey := by decide
  rw [urlParameter, assigned, List.append_assoc, List.singleton_append, apart, plain,
    link.encodes.decode_eq, List.append_assoc, List.singleton_append]

end DeepLink

theorem decodeSubscriptionUrl_cases (parses : Text → Bool) (text : Text) :
    decodeSubscriptionUrl parses text = text ∨
      decodeSubscriptionUrl parses text = decode text ∨
        decodeSubscriptionUrl parses text = decode (decode text) := by
  simp only [decodeSubscriptionUrl, decodeUpTo]
  split_ifs <;> simp

/-- Joined parts do not decode to a text that one of them decodes to: an ampersand is too many,
and undecoded they are too long. -/
theorem decodeSubscriptionUrl_ne (parses : Text → Bool) {text first chosen : Text}
    {rest : List Text} (more : rest ≠ []) (member : chosen ∈ first :: rest)
    (long : text.length ≤ chosen.length)
    (marks : text.count ampersand ≤ (decode chosen).count ampersand) :
    decodeSubscriptionUrl parses (join ampersand (first :: rest)) ≠ text := by
  have once : text.count ampersand <
      (decode (join ampersand (first :: rest))).count ampersand := by
    have parts := count_join ampersand (decode first) (rest.map decode)
      (List.mem_map_of_mem (f := decode) member)
    rw [DeepLink.decode_ampersand.join, List.map_cons]
    have some_ := List.length_pos_iff.mpr more
    rw [List.length_map] at parts
    omega
  intro same
  rcases decodeSubscriptionUrl_cases parses (join ampersand (first :: rest)) with raw | one | two
  · have longer := length_lt_join ampersand first more member
    rw [← raw, same] at longer
    omega
  · rw [← one, same] at once
    exact absurd once (Nat.lt_irrefl _)
  · have twice := DeepLink.decode_ampersand.count_le (decode (join ampersand (first :: rest)))
    rw [← two, same] at twice
    omega

theorem decodeSubscriptionUrl_encoded {parses : Text → Bool} {encoded : Text} {url : List Char}
    (colon : ∀ text, parses text → (58 : UInt8) ∈ text) (parsed : parses (Utf8.encode url))
    (encodes : Encodes encoded (Utf8.encode url)) :
    decodeSubscriptionUrl parses encoded = Utf8.encode url := by
  have rejected : ¬ parses encoded := fun accepted =>
    absurd (encodes.bytes 58 (colon encoded accepted)) (by decide)
  rw [decodeSubscriptionUrl, if_neg rejected, decodeUpTo, encodes.decode_eq]
  by_cases same : Utf8.encode url = encoded
  · rw [if_pos same, same]
  · rw [if_neg same, if_pos parsed]

theorem trim_eq {text : Text} (printable : ∀ byte ∈ text, 33 ≤ byte ∧ byte ≤ 126) :
    trim text = text := by
  have dropNone : ∀ bytes : Text, (∀ byte ∈ bytes, 33 ≤ byte ∧ byte ≤ 126) →
      bytes.dropWhile isSpace = bytes := by
    intro bytes all
    cases bytes with
    | nil => rfl
    | cons byte rest =>
      have least := (all byte List.mem_cons_self).1
      have solid : ¬ isSpace byte = true := by
        simp only [isSpace, Bool.or_eq_true, Bool.and_eq_true, decide_eq_true_eq,
          UInt8.le_iff_toNat_le, ← UInt8.toNat_inj] at least ⊢
        have bound : 33 ≤ byte.toNat := least
        have space : (32 : UInt8).toNat = 32 := rfl
        have return_ : (13 : UInt8).toNat = 13 := rfl
        omega
      rw [List.dropWhile_cons, if_neg solid]
  rw [trim, dropNone text printable, dropNone text.reverse, List.reverse_reverse]
  exact fun byte member => printable byte (List.mem_reverse.mp member)

namespace DeepLink
variable {url : List Char} {name : Option (List Char)} (link : DeepLink url name)

theorem printable_of_all {parameters : List Text}
    (all : parameters.all (fun text => text.all fun byte => 33 ≤ byte && byte ≤ 126)) :
    ∀ parameter ∈ parameters, ∀ byte ∈ parameter, 33 ≤ byte ∧ byte ≤ 126 := by
  simpa using all

theorem printable_query : ∀ byte ∈ link.query, 33 ≤ byte ∧ byte ≤ 126 := by
  have key : ∀ parameter ∈ [assigned urlKey], ∀ byte ∈ parameter, 33 ≤ byte ∧ byte ≤ 126 :=
    printable_of_all (by decide)
  have own : ∀ byte ∈ link.urlParameter, 33 ≤ byte ∧ byte ≤ 126 := by
    intro byte member
    rcases List.mem_append.mp member with inKey | inEncoded
    · exact key _ List.mem_cons_self byte inKey
    · rcases link.encodes.bytes byte inEncoded with rfl | unreserved
      · decide
      · exact printable_of_isUnreserved unreserved
  intro byte member
  rcases mem_of_mem_join _ _ member with rfl | ⟨parameter, listed, inside⟩
  · decide
  · rcases List.mem_append.mp listed with early | here
    · exact link.printable parameter (List.mem_append_left _ early) byte inside
    · rcases List.mem_cons.mp here with rfl | late
      · exact own byte inside
      · exact link.printable parameter (List.mem_append_right _ late) byte inside

def toLink : Link where
  scheme := link.scheme
  query := some link.query
  printable _ same := Option.some.inj same ▸ link.printable_query

/-- The subscription that a deep link encodes is taken from it exactly when the URL's parameter
is the last one and no parameter before it has `url=` in it. -/
theorem extractSubscriptionInfo_iff (parses : Text → Bool)
    (colon : ∀ text, parses text → (58 : UInt8) ∈ text) (parsed : parses (Utf8.encode url)) :
    extractSubscriptionInfo parses link.toLink =
        some (Utf8.encode url, name.map Utf8.encode) ↔
      link.after = [] ∧ ∀ parameter ∈ link.before, ¬ assigned urlKey <:+: parameter := by
  obtain ⟨front, first, rest, cut, kinds⟩ := link.behind_url link.before
  have whole : link.query = front ++ (assigned urlKey ++ join ampersand (first :: rest)) :=
    ((splitOnceAt_eq_some_iff _ _ _ _).mp cut).1
  have trimmed : trim (join ampersand (first :: rest)) = join ampersand (first :: rest) := by
    refine trim_eq fun byte member => link.printable_query byte ?_
    rw [whole]
    exact List.mem_append_right _ (List.mem_append_right _ member)
  have extracted : extractSubscriptionInfo parses link.toLink =
      some (decodeSubscriptionUrl parses (join ampersand (first :: rest)),
        name.map Utf8.encode) := by
    have behind : splitOnceAt (assigned urlKey) link.query =
      some (front, join ampersand (first :: rest)) := cut
    simp only [extractSubscriptionInfo, toLink, if_pos link.supported, Option.getD_some,
      link.find_name, extractSubscriptionUrl, Option.bind_eq_bind, Option.bind_some, behind,
      trimmed, Option.pure_def, Option.map_some]
  rw [extracted, Option.some.injEq, Prod.mk.injEq, and_iff_left rfl]
  rcases kinds with ⟨encoded, after, clean⟩ | ⟨inside, dirty⟩
  · by_cases last : link.after = []
    · rw [encoded, after, last, join_singleton]
      exact iff_of_true (decodeSubscriptionUrl_encoded colon parsed link.encodes) ⟨rfl, clean⟩
    · refine iff_of_false ?_ fun both => last both.1
      refine decodeSubscriptionUrl_ne parses (after ▸ last) (encoded ▸ List.mem_cons_self)
        link.encodes.length_le ?_
      exact Nat.le_of_eq (congrArg (List.count ampersand) link.encodes.decode_eq).symm
  · refine iff_of_false ?_ fun both => ?_
    · refine decodeSubscriptionUrl_ne parses (List.ne_nil_of_mem inside)
        (List.mem_cons_of_mem _ inside) ?_ ?_
      · rw [urlParameter, List.length_append]
        exact Nat.le_add_left_of_le link.encodes.length_le
      · rw [link.decode_urlParameter, List.count_append]
        exact Nat.le_add_left _ _
    · obtain ⟨parameter, member, holds⟩ := dirty
      exact both.2 parameter member holds

end DeepLink

/-- A parser that takes every text with the scheme `http`. -/
def isHttp (text : Text) : Bool := (Utf8.encode "http:".toList).isPrefixOf text

/-- The parameter of the URL stands last, and the escape in the URL is kept. -/
def nameFirst : DeepLink "http://a/%41".toList (some ['n']) where
  scheme := "clash"
  before := [Utf8.encode "name=n".toList]
  encoded := percentEncode (Utf8.encode "http://a/%41".toList)
  after := []
  supported := .inl rfl
  encodes := encodes_percentEncode _
  whole := by decide
  printable := DeepLink.printable_of_all (by decide)
  others := by decide
  named := ⟨_, encodes_percentEncode _, by decide +kernel⟩

theorem nameFirst_extracted : extractSubscriptionInfo isHttp nameFirst.toLink =
      some (Utf8.encode "http://a/%41".toList, some (Utf8.encode ['n'])) := by
  have colon : ∀ text, isHttp text → (58 : UInt8) ∈ text := by
    intro text accepted
    exact (List.isPrefixOf_iff_prefix.mp accepted).subset (by decide)
  exact (nameFirst.extractSubscriptionInfo_iff isHttp colon (by decide)).mpr ⟨rfl, by decide⟩

/-- The usual order: the name stands behind the URL and becomes part of it. -/
def nameLast : DeepLink "http://a".toList (some ['n']) where
  scheme := "clash"
  before := []
  encoded := percentEncode (Utf8.encode "http://a".toList)
  after := [Utf8.encode "name=n".toList]
  supported := .inl rfl
  encodes := encodes_percentEncode _
  whole := by decide
  printable := DeepLink.printable_of_all (by decide)
  others := by decide
  named := ⟨_, encodes_percentEncode _, by decide +kernel⟩

theorem nameLast_misread : extractSubscriptionInfo isHttp nameLast.toLink =
        some (Utf8.encode "http://a&name=n".toList, some (Utf8.encode ['n'])) ∧
      extractSubscriptionInfo isHttp nameLast.toLink ≠
        some (Utf8.encode "http://a".toList, some (Utf8.encode ['n'])) := by
  have read : extractSubscriptionInfo isHttp nameLast.toLink =
      some (Utf8.encode "http://a&name=n".toList, some (Utf8.encode ['n'])) := by decide +kernel
  refine ⟨read, ?_⟩
  rw [read]
  decide +kernel

end ClashVerge.Resolve
