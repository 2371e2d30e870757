import ClashVerge.UriParser.Encodings
import ClashVerge.UriParser.Scheme
import ClashVerge.UriParser.WellFormed
import Mathlib.Data.List.Infix

/-!
# The forms of a Shadowsocks link

A link gives the credentials in base64, or as they are with the password percent-encoded, or it is
base64 as a whole. The name follows, percent-encoded. `URI_SS` tells the forms apart by an `@`, and
by whether base64 can be decoded into a text.
-/

namespace ClashVerge.UriParser

open Backtracking Delimited Backtracking.Pattern
open PercentEncoding (Encodes)

/-! ## Accounts -/

/-- A name, an IPv4 address, or an IPv6 address for brackets. -/
structure Host where
  inner : List Char
  bracketed : Bool
  nonempty : inner ≠ []
  free : ∀ char ∈ inner, isPrintable char = true ∧ char ∉ ['@', '/', '?', '#', '[', ']']
  colon : ':' ∈ inner → bracketed = true

def Host.written (host : Host) : List Char :=
  if host.bracketed then '[' :: (host.inner ++ [']']) else host.inner

structure Account where
  cipher : String
  password : List Char
  host : Host
  port : Nat
  name : List Char
  known : cipher ∈ cipherNames
  password_nonempty : password ≠ []
  password_printable : ∀ char ∈ password, isPrintable char = true
  port_range : 1 ≤ port ∧ port ≤ 65535

namespace Account

variable (account : Account)

def userInfo : List Char := account.cipher.toList ++ ':' :: account.password

def address : List Char := account.host.written ++ ':' :: Nat.toDigits 10 account.port

def node : Node where
  type := "ss"
  name := .string (utf16 account.name)
  server := .string (utf16 account.host.inner)
  port := .integer account.port
  options := [("cipher", .string (text account.cipher)),
    ("password", .string (utf16 account.password))]

end Account

/-- What a link has in front of the name. -/
inductive SsForm (account : Account) where
  | sip002 (urlSafe : Bool) (padding : Padding)
  /-- The credentials are plain, and the password is percent-encoded. A cipher has nothing to
  encode. -/
  | plain (password : List UInt8) (encodes : Encodes password (Utf8.encode account.password))
  | legacy (urlSafe : Bool) (padding : Padding)

namespace SsForm

variable {account : Account}

def main : SsForm account → Text
  | sip002 urlSafe padding =>
    base64 urlSafe padding (Utf8.encode account.userInfo) ++ unit '@' :: utf16 account.address
  | plain password _ =>
    text account.cipher ++ unit ':' :: ascii password ++ unit '@' :: utf16 account.address
  | legacy urlSafe padding =>
    base64 urlSafe padding (Utf8.encode (account.userInfo ++ '@' :: account.address))

def link (form : SsForm account) (name : List UInt8) : Text :=
  linkOf (text "ss") (form.main ++ unit '#' :: ascii name)

/-- No pad is percent-encoded, and the percent-encoding leaves the password as it is. -/
def Unescaped : SsForm account → Prop
  | sip002 _ padding => padding = .escaped → Base64.pads (Utf8.encode account.userInfo) = 0
  | plain password _ => ascii password = utf16 account.password
  | legacy _ padding => padding = .escaped →
    Base64.pads (Utf8.encode (account.userInfo ++ '@' :: account.address)) = 0

instance (form : SsForm account) : Decidable form.Unescaped :=
  match form with
  | sip002 _ padding => inferInstanceAs
    (Decidable (padding = .escaped → Base64.pads (Utf8.encode account.userInfo) = 0))
  | plain password _ => inferInstanceAs (Decidable (ascii password = utf16 account.password))
  | legacy _ padding => inferInstanceAs (Decidable (padding = .escaped →
    Base64.pads (Utf8.encode (account.userInfo ++ '@' :: account.address)) = 0))

end SsForm

/-! ## Ports -/

theorem parsePortStrict_decimal {port : Nat} (range : 1 ≤ port ∧ port ≤ 65535) :
    parsePortStrict (decimal port) = some port := by
  have digits := decimal_digits port
  have some_ : decimal port ≠ [] := by
    rw [decimal, ne_eq, List.map_eq_nil_iff]
    exact Nat.toDigits_ne_nil
  have only : onlyDigits (decimal port) = true := by
    simpa [onlyDigits, some_] using digits
  have trimmed := trim_of_visible fun each inside => digit_visible (digits each inside)
  rw [parsePortStrict, trimmed, if_pos only, digitsValue_decimal]
  exact if_neg (by omega)

/-! ## Cuts -/

theorem splitLast_append {mark : CodeUnit} (before : Text) {after : Text} (outside : mark ∉ after) :
    splitLast mark (before ++ mark :: after) = some (before, after) := by
  have reversed : (before ++ mark :: after).reverse = after.reverse ++ mark :: before.reverse := by
    simp
  have cut := (splitOnce_join_iff mark after.reverse before.reverse).mpr (by simpa using outside)
  rw [splitLast, reversed, cut]
  simp

theorem splitLast_none {mark : CodeUnit} {value : Text} (outside : mark ∉ value) :
    splitLast mark value = none := by
  rw [splitLast, (splitOnce_eq_none_iff mark value.reverse).mpr (by simpa using outside)]
  rfl

theorem beforeFirst_mark {mark : Char} {value : Text} (outside : unit mark ∉ value) :
    beforeFirst [unit mark] value = value := by
  rw [beforeFirst, (splitOnceAt_eq_none_iff [unit mark] value).mpr
    (by rwa [List.singleton_infix_iff])]

theorem splitOnceText_none {mark : Char} {value : Text} (outside : unit mark ∉ value) :
    splitOnceText mark value = (value, none) := by
  rw [splitOnceText, (splitOnce_eq_none_iff (unit mark) value).mpr outside]

theorem splitOnceText_append {mark : Char} {before : Text} (outside : unit mark ∉ before)
    (after : Text) :
    splitOnceText mark (before ++ unit mark :: after) = (before, some after) := by
  rw [splitOnceText, (splitOnce_join_iff (unit mark) before after).mpr outside]

theorem run_greedy_finish (next : Continuation CodeUnit) (name : String) {value : Text}
    (oneLine : OneLine value) (captures : Captures CodeUnit) :
    (group name (seq greedyDots finish)).run next value captures =
      next [] ((name, value) :: captures) := by
  have all : value.dropWhile (fun char => !isLineTerminator char) = [] :=
    List.dropWhile_eq_nil_iff.mpr fun char inside => by simp [oneLine char inside]
  rw [run_group, run_seq, greedyDots, dot, run_greedy_all, all]
  · simp
  · exact fun symbol rest inner _ => rfl

theorem userInfoRe_exec {value : Text} (oneLine : OneLine value) :
    userInfoRe.exec value = (splitOnce (unit ':') value).map fun parts =>
      [("0", value), ("2", parts.2), ("1", parts.1)] := by
  have pattern : userInfoRe = seq (group "1" lazyDots) (seq (mark ':')
      (seq (group "2" (seq greedyDots finish)) empty)) := rfl
  rw [exec, run_group, pattern, run_seq, lazyDots, dot, run_group_lazy, run_seq, firstSplit_mark]
  · cases cut : splitOnce (unit ':') value with
    | none => rfl
    | some parts =>
      simp [run_greedy_finish _ _ (splitOnce_oneLine oneLine cut)]
  · intro rest captures clear
    rw [run_seq, run_greedy_finish _ _ clear]
    rfl
  · exact oneLine

/-! ## The server -/

theorem Host.written_free (host : Host) {mark : Char} (free : mark ∈ ['@', '/', '?', '#']) :
    mark ∉ host.written := by
  have outside : mark ∉ host.inner := by
    intro inside
    have apart := (host.free mark inside).2
    simp only [List.mem_cons, List.not_mem_nil, or_false, not_or] at free apart
    tauto
  have brackets : mark ≠ '[' ∧ mark ≠ ']' := by
    have all : ∀ each ∈ ['@', '/', '?', '#'], each ≠ '[' ∧ each ≠ ']' :=
      forall_of_all (by decide)
    exact all mark free
  unfold Host.written
  split <;> simp [outside, brackets]

theorem Host.normalizeHost_written (host : Host) :
    normalizeHost (utf16 host.written) = utf16 host.inner := by
  have opening : utf16 ['['] = [unit '['] := rfl
  have closing : utf16 [']'] = [unit ']'] := rfl
  unfold Host.written
  split
  · rw [← List.singleton_append, utf16_append, utf16_append, opening, closing, normalizeHost,
      if_pos]
    · simp
    · simp [List.getLast?_cons]
  · have outside : unit '[' ∉ utf16 host.inner := by
      rw [unit_mem_utf16 (by decide)]
      exact fun inside => (host.free _ inside).2 (by decide)
    rw [normalizeHost, if_neg]
    exact fun brackets => outside (List.mem_of_mem_head? brackets.1)

namespace Account

variable (account : Account)

theorem utf16_address :
    utf16 account.address = utf16 account.host.written ++ unit ':' :: decimal account.port := by
  have digits : utf16 (Nat.toDigits 10 account.port) = decimal account.port := by
    refine utf16_of_small fun char inside => ?_
    have range := isDigit_range (digit_of_mem inside)
    omega
  rw [address, utf16_append, utf16_cons, digits]
  rfl

theorem address_free {mark : Char} (free : mark ∈ ['@', '/', '?', '#']) :
    mark ∉ account.address := by
  have kinds : mark ≠ ':' ∧ mark.isDigit = false := by
    have all : ∀ each ∈ ['@', '/', '?', '#'], each ≠ ':' ∧ each.isDigit = false :=
      forall_of_all (by decide)
    exact all mark free
  rw [address, List.mem_append, List.mem_cons]
  rintro (inside | same | inside)
  · exact account.host.written_free free inside
  · exact kinds.1 same
  · rw [digit_of_mem inside] at kinds
    exact absurd kinds.2 (by decide)

theorem unit_address_free {mark : Char} (free : mark ∈ ['@', '/', '?', '#']) :
    unit mark ∉ utf16 account.address := by
  have low : mark.toNat < 0xD800 := by
    have all : ∀ each ∈ ['@', '/', '?', '#'], each.toNat < 0xD800 :=
      forall_of_all (by decide)
    exact all mark free
  rw [unit_mem_utf16 low]
  exact account.address_free free

theorem serverAndPort_address (missing invalid : String) :
    serverAndPort (beforeFirst (text "/") (utf16 account.address)) missing invalid =
      .ok (utf16 account.host.inner, .integer account.port) := by
  have slash : beforeFirst (text "/") (utf16 account.address) = utf16 account.address :=
    beforeFirst_mark (account.unit_address_free (by decide))
  have colon : unit ':' ∉ decimal account.port := fun inside =>
    absurd (decimal_digits _ _ inside) (by decide)
  rw [slash, utf16_address, serverAndPort, splitLast_append _ colon]
  simp [parseRequiredPort_string, parsePortStrict_decimal account.port_range,
    account.host.normalizeHost_written, bind, Except.bind, pure, Except.pure]

end Account

/-! ## What is made of a link -/

def Account.read (account : Account) (platform : Platform) (userPart : Text) (name : Text) : Node :=
  let userInfo := userInfoRe.exec (decodeBase64OrOriginal platform userPart)
  { type := "ss"
    name := .string ((present (some (trim name))).getD
      (text "SS " ++ utf16 account.host.inner ++ [unit ':'] ++ (Number.integer account.port).shown))
    server := .string (utf16 account.host.inner)
    port := .integer account.port
    options := [("cipher", .string (getCipher (ofText (userInfo.bind (·.lookup "1"))))),
      ("password", ofText (userInfo.bind (·.lookup "2")))] }

section

variable {platform : Platform} (standard : platform.Standard) {account : Account}

include standard

theorem linkBody_ss {body : Text} (nonempty : body ≠ []) (message : String) :
    linkBody platform (linkOf (text "ss") body) ["ss"] message = .ok body := by
  refine linkBody_linkOf platform (by decide) ?_ (by decide) nonempty message
  rw [standard.toLowerCase_ascii _ (forall_of_all (by decide))]
  decide

theorem decodeAndTrim_ascii {encoded : List UInt8} {chars : List Char}
    (encodes : Encodes encoded (Utf8.encode chars)) :
    decodeAndTrim platform (some (ascii encoded)) = present (some (trim (utf16 chars))) := by
  simp [decodeAndTrim, safeDecodeURIComponent, standard.decodeURIComponent_encodes _ _ encodes]

theorem uriSs_of_main {main userPart : Text} (question : unit '?' ∉ main) (number : unit '#' ∉ main)
    (found : (if main.contains (unit '@') then main else decodeBase64OrOriginal platform main) =
      userPart ++ unit '@' :: utf16 account.address)
    {encoded : List UInt8} (encodes : Encodes encoded (Utf8.encode account.name)) :
    uriSs platform (linkOf (text "ss") (main ++ unit '#' :: ascii encoded)) =
      .ok (account.read platform userPart (utf16 account.name)) := by
  have hash := splitOnceText_append number (ascii encoded)
  have query := splitOnceText_none question
  have outside : unit '@' ∉ utf16 account.address := account.unit_address_free (by decide)
  have cut := splitLast_append userPart outside
  rw [uriSs, linkBody_ss standard (by simp)]
  simp only [bind, Except.bind, ssMain, ssParams, hash, query, found, cut, parseQueryString,
    account.serverAndPort_address, decodeAndTrim_ascii standard encodes, ssPlugin, Params.value,
    Params.entry, pure, Except.pure]
  rfl

theorem uriSs_of_none {main : Text} (question : unit '?' ∉ main) (number : unit '#' ∉ main)
    (missing : unit '@' ∉ main) (kept : decodeBase64OrOriginal platform main = main)
    (encoded : List UInt8) :
    uriSs platform (linkOf (text "ss") (main ++ unit '#' :: ascii encoded)) =
      fails "Invalid ss uri: missing '@'" := by
  have hash := splitOnceText_append number (ascii encoded)
  have query := splitOnceText_none question
  rw [uriSs, linkBody_ss standard (by simp)]
  simp only [bind, Except.bind, ssMain, hash, query, kept, ite_self, splitLast_none missing]

end

/-! ## The name -/

theorem utf16_eq_nil_iff (chars : List Char) : utf16 chars = [] ↔ chars = [] := by
  constructor
  · intro none_
    cases chars with
    | nil => rfl
    | cons char rest =>
      rw [utf16_cons, List.append_eq_nil_iff, utf16Char] at none_
      split at none_ <;> simp at none_
  · rintro rfl
    rfl

/-- The name is not blank, and no white space surrounds it. -/
def Account.NameKept (account : Account) : Prop :=
  account.name ≠ [] ∧ trim (utf16 account.name) = utf16 account.name

theorem name_iff (account : Account) (behind : Text) :
    (present (some (trim (utf16 account.name)))).getD (text "SS " ++ behind) = utf16 account.name ↔
      account.NameKept := by
  have named := utf16_eq_nil_iff account.name
  by_cases blank : trim (utf16 account.name) = []
  · have visible : trim (text "SS " ++ behind) ≠ [] :=
      trim_ne_nil (show unit 'S' ∈ _ by simp [text]) (by decide)
    simp only [present, blank, Option.filter_some, List.isEmpty_nil, Bool.not_true,
      Bool.false_eq_true, if_false, Option.getD_none, Account.NameKept]
    constructor
    · intro same
      rw [same] at visible
      exact absurd blank visible
    · rintro ⟨some_, same⟩
      exact absurd (named.mp same.symm) some_
  · have shown : present (some (trim (utf16 account.name))) = some (trim (utf16 account.name)) := by
      simp [present, Option.filter_some, blank]
    rw [shown, Option.getD_some, Account.NameKept]
    refine ⟨fun same => ⟨fun none_ => blank ?_, same⟩, And.right⟩
    rw [none_]
    rfl

/-! ## The credentials -/

theorem getCipher_known {cipher : String} (known : cipher ∈ cipherNames) :
    getCipher (.string (text cipher)) = text cipher := by
  have other : ∀ each ∈ cipherNames, text each ≠ text "chacha20-poly1305" := by decide +kernel
  have listed : text cipher ∈ knownCiphers := List.mem_map_of_mem known
  simp [getCipher, other cipher known, listed]

theorem cipher_chars {cipher : String} (known : cipher ∈ cipherNames) : ∀ char ∈ cipher.toList,
      isPrintable char = true ∧ char.toNat < 128 ∧ char ∉ [':', '@', '#', '?'] := by
  have all : ∀ each ∈ cipherNames, ∀ char ∈ each.toList,
      isPrintable char = true ∧ char.toNat < 128 ∧ char ∉ [':', '@', '#', '?'] := by
    have checked : ∀ each ∈ cipherNames, each.toList.all (fun char =>
        isPrintable char = true ∧ char.toNat < 128 ∧ char ∉ [':', '@', '#', '?']) = true := by
      decide +kernel
    exact fun each listed => forall_of_all (checked each listed)
  exact all cipher known

theorem read_iff {platform : Platform} {account : Account} {userPart userInfo password : Text}
    (decoded : decodeBase64OrOriginal platform userPart = userInfo) (oneLine : OneLine userInfo)
    (cut : splitOnce (unit ':') userInfo = some (text account.cipher, password)) :
    account.read platform userPart (utf16 account.name) = account.node ↔
      account.NameKept ∧ password = utf16 account.password := by
  have name := name_iff account
    (utf16 account.host.inner ++ [unit ':'] ++ (Number.integer account.port).shown)
  have first : ([("0", userInfo), ("2", password), ("1", text account.cipher)] :
      Captures CodeUnit).lookup "1" = some (text account.cipher) := rfl
  have second : ([("0", userInfo), ("2", password), ("1", text account.cipher)] :
      Captures CodeUnit).lookup "2" = some password := rfl
  simp only [List.append_assoc, List.singleton_append] at name
  simp [Account.read, Account.node, decoded, userInfoRe_exec oneLine, cut, first, second, ofText,
    getCipher_known account.known, name]

theorem read_ne {platform : Platform} {account : Account} {userPart : Text}
    (oneLine : OneLine (decodeBase64OrOriginal platform userPart))
    (uncut : unit ':' ∉ decodeBase64OrOriginal platform userPart) :
    account.read platform userPart (utf16 account.name) ≠ account.node := by
  have none_ := (splitOnce_eq_none_iff _ _).mpr uncut
  simp [Account.read, Account.node, userInfoRe_exec oneLine, none_, ofText]

/-! ## Texts in base64 -/

theorem base64_free (urlSafe : Bool) (padding : Padding) (bytes : List UInt8) :
    ∀ each ∈ base64 urlSafe padding bytes, isWhiteSpace each = false ∧ each ≠ unit '@' ∧
      each ≠ unit '#' ∧ each ≠ unit '?' ∧ each ≠ unit ':' := by
  intro each inside
  obtain digit | pad := List.mem_append.mp inside
  · exact forall_digits (fun each => isWhiteSpace each = false ∧ each ≠ unit '@' ∧
      each ≠ unit '#' ∧ each ≠ unit '?' ∧ each ≠ unit ':') urlSafe bytes
      (fun value small => (digit_unit small urlSafe).2) each digit
  · obtain ⟨part, listed, here⟩ := List.mem_flatten.mp pad
    obtain ⟨-, rfl⟩ := List.mem_replicate.mp listed
    have all : ∀ kind : Padding, ∀ each ∈ kind.text, isWhiteSpace each = false ∧ each ≠ unit '@' ∧
        each ≠ unit '#' ∧ each ≠ unit '?' ∧ each ≠ unit ':' := by
      intro kind
      cases kind <;> exact forall_of_all (by decide)
    exact all padding each here

theorem lineTerminator_space {each : CodeUnit} (visible : isWhiteSpace each = false) :
    isLineTerminator each = false := by
  by_contra ends
  simp [isWhiteSpace, ends] at visible

section

variable {platform : Platform} (standard : platform.Standard)

include standard

theorem decodeBase64_escaped (urlSafe : Bool) {bytes : List UInt8} (pads : Base64.pads bytes ≠ 0) :
    decodeBase64OrOriginal platform (base64 urlSafe .escaped bytes) =
      base64 urlSafe .escaped bytes := by
  obtain ⟨fewer, count⟩ := Nat.exists_eq_succ_of_ne_zero pads
  have inside : unit '%' ∈ base64 urlSafe .escaped bytes := by
    refine List.mem_append_right _ ?_
    rw [count, List.replicate_succ, List.flatten_cons]
    exact List.mem_append_left _ (by decide)
  exact decodeBase64_other standard inside (by decide) (by decide)

end

namespace Account

variable (account : Account)

theorem userInfo_printable : ∀ char ∈ account.userInfo, isPrintable char = true := by
  intro char inside
  rw [userInfo, List.mem_append, List.mem_cons] at inside
  obtain cipher | rfl | password := inside
  · exact (cipher_chars account.known char cipher).1
  · decide
  · exact account.password_printable char password

theorem address_printable : ∀ char ∈ account.address, isPrintable char = true := by
  intro char inside
  rw [address, List.mem_append, List.mem_cons] at inside
  obtain host | rfl | digit := inside
  · unfold Host.written at host
    split at host
    · simp only [List.mem_cons, List.mem_append, List.not_mem_nil, or_false] at host
      obtain rfl | inner | rfl := host
      · decide
      · exact (account.host.free char inner).1
      · decide
    · exact (account.host.free char host).1
  · decide
  · have range := isDigit_range (digit_of_mem digit)
    simp only [isPrintable, Bool.and_eq_true, decide_eq_true_eq, bne_iff_ne, ne_eq]
    omega

theorem utf16_cipher : utf16 account.cipher.toList = text account.cipher :=
  utf16_toList fun char inside => by
    have small := (cipher_chars account.known char inside).2.1
    omega

theorem utf16_userInfo :
    utf16 account.userInfo = text account.cipher ++ unit ':' :: utf16 account.password := by
  rw [userInfo, utf16_append, utf16_cons, utf16_cipher]
  rfl

theorem mark_cipher {mark : Char} (free : mark ∈ [':', '@', '#', '?']) :
    unit mark ∉ text account.cipher := by
  have low : mark.toNat < 0xD800 := by
    have all : ∀ each ∈ [':', '@', '#', '?'], each.toNat < 0xD800 :=
      forall_of_all (by decide)
    exact all mark free
  rw [← utf16_cipher, unit_mem_utf16 low]
  exact fun inside => (cipher_chars account.known _ inside).2.2 free

theorem userInfo_head (behind : List Char) :
    (account.userInfo ++ behind).head? ≠ some '\uFEFF' := by
  intro first
  rw [userInfo] at first
  cases chars : account.cipher.toList with
  | nil => simp [chars] at first
  | cons char rest =>
    have small := (cipher_chars account.known char (by simp [chars])).2.1
    rw [chars] at first
    obtain rfl : char = '\uFEFF' := by simpa using first
    exact absurd small (by decide)

end Account

/-! ## The forms -/

theorem main_free (account : Account) {userPart : Text}
    (free : ∀ each ∈ userPart, each ≠ unit '#' ∧ each ≠ unit '?') :
    unit '?' ∉ userPart ++ unit '@' :: utf16 account.address ∧
      unit '#' ∉ userPart ++ unit '@' :: utf16 account.address := by
  have question : unit '?' ∉ utf16 account.address := account.unit_address_free (by decide)
  have number : unit '#' ∉ utf16 account.address := account.unit_address_free (by decide)
  constructor
  · rw [List.mem_append, List.mem_cons]
    rintro (inside | same | inside)
    · exact (free _ inside).2 rfl
    · exact absurd same (by decide)
    · exact question inside
  · rw [List.mem_append, List.mem_cons]
    rintro (inside | same | inside)
    · exact (free _ inside).1 rfl
    · exact absurd same (by decide)
    · exact number inside

theorem ascii_free {encoded written : List UInt8} (encodes : Encodes encoded written) :
    ∀ each ∈ ascii encoded, isLineTerminator each = false ∧ each ≠ unit '#' ∧ each ≠ unit '?' := by
  intro each inside
  obtain ⟨byte, listed, rfl⟩ := List.mem_map.mp inside
  have plain : (33 ≤ byte ∧ byte ≤ 126) ∧ byte ≠ 35 ∧ byte ≠ 63 := by
    obtain rfl | unreserved := encodes.bytes byte listed
    · decide
    · refine ⟨PercentEncoding.printable_of_isUnreserved unreserved, ?_, ?_⟩
      · rintro rfl
        exact absurd unreserved (by decide)
      · rintro rfl
        exact absurd unreserved (by decide)
  simp only [UInt8.le_iff_toNat_le, ne_eq, ← UInt8.toNat_inj] at plain
  have code : byte.toUInt16.toNat = byte.toNat := UInt8.toNat_toUInt16 byte
  refine ⟨?_, fun hash => ?_, fun question => ?_⟩
  · simp only [isLineTerminator, Bool.or_eq_false_iff, beq_eq_false_iff_ne, ne_eq,
      ← UInt16.toNat_inj, code]
    have terminators : (0x0A : UInt16).toNat = 10 ∧ (0x0D : UInt16).toNat = 13 ∧
        (0x2028 : UInt16).toNat = 8232 ∧ (0x2029 : UInt16).toNat = 8233 := by decide
    have bounds : (33 : UInt8).toNat = 33 ∧ (126 : UInt8).toNat = 126 := by decide
    omega
  · have same : byte.toNat = 35 := code.symm.trans (congrArg UInt16.toNat hash)
    exact plain.2.1 same
  · have same : byte.toNat = 63 := code.symm.trans (congrArg UInt16.toNat question)
    exact plain.2.2 same

section

variable {platform : Platform} (standard : platform.Standard) {account : Account}
variable {encoded : List UInt8} (encodes : Encodes encoded (Utf8.encode account.name))

theorem oneLine_utf16 {chars : List Char} (printable : ∀ char ∈ chars, isPrintable char = true) :
    OneLine (utf16 chars) := fun each inside => (utf16_printable printable each inside).2

include standard

theorem decodeBase64_colon {userInfo : Text} (colon : unit ':' ∈ userInfo) :
    decodeBase64OrOriginal platform userInfo = userInfo :=
  decodeBase64_other standard colon (by decide) (by decide)

include encodes

theorem sip002_iff (urlSafe : Bool) (padding : Padding) :
    uriSs platform ((SsForm.sip002 urlSafe padding : SsForm account).link encoded) =
        .ok account.node ↔
      account.NameKept ∧ (SsForm.sip002 urlSafe padding : SsForm account).Unescaped := by
  have free := base64_free urlSafe padding (Utf8.encode account.userInfo)
  obtain ⟨question, number⟩ := main_free account fun each inside =>
    ⟨(free each inside).2.2.1, (free each inside).2.2.2.1⟩
  rw [SsForm.link, SsForm.main, uriSs_of_main standard question number (if_pos (by simp)) encodes,
    Except.ok.injEq]
  by_cases plain : padding = .escaped → Base64.pads (Utf8.encode account.userInfo) = 0
  · have decoded := decodeBase64_base64 standard urlSafe plain account.userInfo_printable
      (by simpa using account.userInfo_head [])
    have cut := (splitOnce_join_iff (unit ':') (text account.cipher)
      (utf16 account.password)).mpr (account.mark_cipher (by decide))
    rw [← account.utf16_userInfo] at cut
    rw [read_iff decoded (oneLine_utf16 account.userInfo_printable) cut]
    simp only [SsForm.Unescaped]
    tauto
  · obtain ⟨rfl, pads⟩ := Classical.not_imp.mp plain
    have kept := decodeBase64_escaped standard urlSafe pads
    have different : account.read platform (base64 urlSafe .escaped (Utf8.encode account.userInfo))
        (utf16 account.name) ≠ account.node := read_ne
      (fun each inside => lineTerminator_space (free each (kept ▸ inside)).1)
      (fun inside => (free _ (kept ▸ inside)).2.2.2.2 rfl)
    exact iff_of_false different fun both => plain both.2

theorem legacy_iff (urlSafe : Bool) (padding : Padding) :
    uriSs platform ((SsForm.legacy urlSafe padding : SsForm account).link encoded) =
        .ok account.node ↔
      account.NameKept ∧ (SsForm.legacy urlSafe padding : SsForm account).Unescaped := by
  have free := base64_free urlSafe padding
    (Utf8.encode (account.userInfo ++ '@' :: account.address))
  have question : unit '?' ∉ base64 urlSafe padding
      (Utf8.encode (account.userInfo ++ '@' :: account.address)) :=
    fun inside => (free _ inside).2.2.2.1 rfl
  have number : unit '#' ∉ base64 urlSafe padding
      (Utf8.encode (account.userInfo ++ '@' :: account.address)) :=
    fun inside => (free _ inside).2.2.1 rfl
  have missing : unit '@' ∉ base64 urlSafe padding
      (Utf8.encode (account.userInfo ++ '@' :: account.address)) :=
    fun inside => (free _ inside).2.1 rfl
  rw [SsForm.link, SsForm.main]
  by_cases plain : padding = .escaped →
      Base64.pads (Utf8.encode (account.userInfo ++ '@' :: account.address)) = 0
  · have printable : ∀ char ∈ account.userInfo ++ '@' :: account.address,
        isPrintable char = true := by
      intro char inside
      rw [List.mem_append, List.mem_cons] at inside
      obtain user | rfl | server := inside
      · exact account.userInfo_printable char user
      · decide
      · exact account.address_printable char server
    have decoded := decodeBase64_base64 standard urlSafe plain printable
      (account.userInfo_head _)
    have mark : utf16 (account.userInfo ++ '@' :: account.address) =
        utf16 account.userInfo ++ unit '@' :: utf16 account.address := by
      rw [utf16_append, utf16_cons]
      rfl
    have colon : unit ':' ∈ utf16 account.userInfo := by
      rw [account.utf16_userInfo]
      simp
    have cut := (splitOnce_join_iff (unit ':') (text account.cipher)
      (utf16 account.password)).mpr (account.mark_cipher (by decide))
    rw [← account.utf16_userInfo] at cut
    rw [uriSs_of_main standard question number
      ((if_neg (by simpa using missing)).trans (decoded.trans mark)) encodes, Except.ok.injEq,
      read_iff (decodeBase64_colon standard colon) (oneLine_utf16 account.userInfo_printable) cut]
    simp only [SsForm.Unescaped]
    tauto
  · obtain ⟨rfl, pads⟩ := Classical.not_imp.mp plain
    rw [uriSs_of_none standard question number missing (decodeBase64_escaped standard urlSafe pads)]
    exact iff_of_false (by simp [fails]) fun both => plain both.2

theorem plain_iff (password : List UInt8)
    (encodesPassword : Encodes password (Utf8.encode account.password)) :
    uriSs platform ((SsForm.plain password encodesPassword : SsForm account).link encoded) =
        .ok account.node ↔
      account.NameKept ∧ (SsForm.plain password encodesPassword : SsForm account).Unescaped := by
  have written := ascii_free encodesPassword
  have free : ∀ each ∈ text account.cipher ++ unit ':' :: ascii password,
      each ≠ unit '#' ∧ each ≠ unit '?' := by
    intro each inside
    rw [List.mem_append, List.mem_cons] at inside
    obtain cipher | rfl | plain := inside
    · constructor
      · rintro rfl
        exact account.mark_cipher (by decide) cipher
      · rintro rfl
        exact account.mark_cipher (by decide) cipher
    · decide
    · exact (written each plain).2
  have oneLine : OneLine (text account.cipher ++ unit ':' :: ascii password) := by
    intro each inside
    rw [List.mem_append, List.mem_cons] at inside
    obtain cipher | rfl | plain := inside
    · rw [← account.utf16_cipher] at cipher
      have printable := fun char listed => (cipher_chars account.known char listed).1
      exact oneLine_utf16 printable each cipher
    · decide
    · exact (written each plain).1
  have cut := (splitOnce_join_iff (unit ':') (text account.cipher) (ascii password)).mpr
    (account.mark_cipher (by decide))
  have decoded := decodeBase64_colon standard
    (show unit ':' ∈ text account.cipher ++ unit ':' :: ascii password by simp)
  obtain ⟨question, number⟩ := main_free account free
  rw [SsForm.link, SsForm.main, uriSs_of_main standard question number (if_pos (by simp)) encodes,
    Except.ok.injEq, read_iff decoded oneLine cut]
  rfl

end

/-- A form gives the account's proxy exactly when nothing in front of the name had to be
percent-encoded and the name is not blank or surrounded by white space. -/
theorem givesNode_iff {platform : Platform} (standard : platform.Standard) {account : Account}
    (form : SsForm account) {name : List UInt8}
    (encodes : Encodes name (Utf8.encode account.name)) :
    uriSs platform (form.link name) = .ok account.node ↔ account.NameKept ∧ form.Unescaped := by
  cases form with
  | sip002 urlSafe padding => exact sip002_iff standard encodes urlSafe padding
  | plain password written => exact plain_iff standard encodes password written
  | legacy urlSafe padding => exact legacy_iff standard encodes urlSafe padding

def mailAccount : Account where
  cipher := "aes-256-gcm"
  password := ['a', '@', 'b']
  host := ⟨['1', '.', '1', '.', '1', '.', '1'], false, by decide, forall_of_all (by decide),
    by decide⟩
  port := 8388
  name := ['h', 'k']
  known := by decide
  password_nonempty := by decide
  password_printable := forall_of_all (by decide)
  port_range := by decide

theorem mailAccount_name : Encodes [104, 107] (Utf8.encode mailAccount.name) :=
  .kept (by decide) (.kept (by decide) .nil)

/-- The link in base64 gives that account's proxy. -/
theorem mailAccount_sip002 :
    uriSs .reference ((SsForm.sip002 true .unpadded : SsForm mailAccount).link [104, 107]) =
      .ok mailAccount.node :=
  (givesNode_iff Platform.reference_standard _ mailAccount_name).mpr
    ⟨⟨by decide, by decide⟩, by decide⟩

theorem mailAccount_password : Encodes [97, 37, 52, 48, 98] (Utf8.encode mailAccount.password) :=
  .kept (by decide) (.escaped rfl rfl (by decide) (.kept (by decide) .nil))

/-- The plain link with the password `a%40b` does not. -/
theorem mailAccount_plain :
    uriSs .reference ((SsForm.plain _ mailAccount_password : SsForm mailAccount).link [104, 107]) ≠
      .ok mailAccount.node := by
  intro given
  have read := (plain_iff Platform.reference_standard mailAccount_name _
    mailAccount_password).mp given
  exact absurd read.2 (by decide)

end ClashVerge.UriParser
