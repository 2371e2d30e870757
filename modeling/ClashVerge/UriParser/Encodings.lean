import ClashVerge.Library.Base64
import ClashVerge.Library.PercentEncoding
import ClashVerge.UriParser.Helpers

/-!
# Texts in links

A text gets into a link as it is, percent-encoded, or in base64 of its UTF-8, with either of two
alphabets, and with or without the pads at its end. The module says what `decodeBase64OrOriginal`
makes of what was encoded.
-/

namespace ClashVerge.UriParser

open PercentEncoding (Encodes)

/-- Bytes below 128 as code units. -/
def ascii (bytes : List UInt8) : Text := bytes.map UInt8.toUInt16

def utf16Char (char : Char) : Text :=
  if char.toNat < 0x10000 then [unit char]
  else [UInt16.ofNat (0xD800 + (char.toNat - 0x10000) / 0x400),
    UInt16.ofNat (0xDC00 + (char.toNat - 0x10000) % 0x400)]

def utf16 (chars : List Char) : Text := chars.flatMap utf16Char

/-- Letters, digits, signs, pads and white space: all that base64 may have. -/
def isBase64Unit (char : CodeUnit) : Bool :=
  isLetter char || isDigit char || char == unit '+' || char == unit '/' || char == unit '=' ||
    isWhiteSpace char

/-- The decoders do what the standards say: they undo the encodings, base64 is refused where it has
a foreign symbol, and a byte order mark is not part of a text. -/
structure Platform.Standard (platform : Platform) : Prop where
  toLowerCase_ascii : ∀ value : Text, (∀ char ∈ value, char < 128) →
    platform.toLowerCase value = value.map lowerAscii
  atob_encode : ∀ bytes, platform.atob (ascii (Base64.encode bytes)) = some bytes
  atob_other : ∀ (value : Text) (char : CodeUnit), char ∈ value → isBase64Unit char = false →
    platform.atob value = none
  decodeUtf8_encode : ∀ chars : List Char, chars.head? ≠ some '\uFEFF' →
    platform.decodeUtf8 (Utf8.encode chars) = some (utf16 chars)
  decodeURIComponent_encodes : ∀ (encoded : List UInt8) (chars : List Char),
    Encodes encoded (Utf8.encode chars) →
      platform.decodeURIComponent (ascii encoded) = some (utf16 chars)

/-! ## Code units -/

theorem utf16_append (first second : List Char) :
    utf16 (first ++ second) = utf16 first ++ utf16 second := List.flatMap_append

theorem utf16_cons (char : Char) (rest : List Char) :
    utf16 (char :: rest) = utf16Char char ++ utf16 rest := rfl

theorem utf16Char_cases (char : Char) : (char.toNat < 0x10000 ∧ utf16Char char = [unit char]) ∨
      ∀ each ∈ utf16Char char, 0xD800 ≤ each.toNat := by
  unfold utf16Char
  split
  · rename_i small
    exact .inl ⟨small, rfl⟩
  · refine .inr fun each inside => ?_
    have bound : char.toNat < 0x110000 := by
      obtain low | ⟨-, high⟩ := char.valid
      · exact Nat.lt_trans low (by omega)
      · exact high
    have units : each = UInt16.ofNat (0xD800 + (char.toNat - 0x10000) / 0x400) ∨
        each = UInt16.ofNat (0xDC00 + (char.toNat - 0x10000) % 0x400) := by
      simpa using inside
    obtain rfl | rfl := units <;> rw [UInt16.toNat_ofNat'] <;> omega

theorem utf16Char_append_inj {first second : Char} {rest other : Text}
    (same : utf16Char first ++ rest = utf16Char second ++ other) :
    first = second ∧ rest = other := by
  have one : first.toNat.isValidChar := first.valid
  have two : second.toNat.isValidChar := second.valid
  have equal (numbers : first.toNat = second.toNat) : first = second :=
    Char.ext (UInt32.toNat_inj.mp numbers)
  simp only [Nat.isValidChar] at one two
  unfold utf16Char at same
  split at same <;> split at same <;>
    simp only [List.cons_append, List.nil_append, List.cons.injEq, unit, ← UInt16.toNat_inj,
      UInt16.toNat_ofNat'] at same
  · exact ⟨equal (by omega), same.2⟩
  · omega
  · omega
  · exact ⟨equal (by omega), same.2.2⟩

theorem utf16_injective : Function.Injective utf16 := by
  have nonempty (char : Char) (rest : List Char) : utf16 (char :: rest) ≠ [] := by
    rw [utf16_cons, utf16Char]
    split <;> simp
  intro one
  induction one with
  | nil =>
    rintro (_ | ⟨char, rest⟩) same
    · rfl
    · exact absurd same.symm (nonempty char rest)
  | cons char rest ih =>
    rintro (_ | ⟨other, others⟩) same
    · exact absurd same (nonempty char rest)
    · obtain ⟨rfl, later⟩ := utf16Char_append_inj same
      rw [ih later]

theorem unit_mem_utf16 {mark : Char} (low : mark.toNat < 0xD800) (chars : List Char) :
    unit mark ∈ utf16 chars ↔ mark ∈ chars := by
  have small : mark.toNat < 0x10000 := by omega
  have own := unit_toNat small
  constructor
  · intro inside
    obtain ⟨char, listed, here⟩ := List.mem_flatMap.mp inside
    obtain ⟨plain, single⟩ | surrogates := utf16Char_cases char
    · rw [single, List.mem_singleton] at here
      have same := congrArg UInt16.toNat here
      rw [own, unit_toNat plain] at same
      rwa [Char.toNat_inj.mp same]
    · have high := surrogates _ here
      rw [own] at high
      omega
  · intro listed
    refine List.mem_flatMap.mpr ⟨mark, listed, ?_⟩
    rw [utf16Char, if_pos small]
    exact List.mem_singleton_self _

theorem forall_utf16 (property : CodeUnit → Prop) {chars : List Char}
    (surrogates : ∀ each : CodeUnit, 0xD800 ≤ each.toNat → property each)
    (plain : ∀ char ∈ chars, char.toNat < 0x10000 → property (unit char)) :
    ∀ each ∈ utf16 chars, property each := by
  intro each inside
  obtain ⟨char, listed, here⟩ := List.mem_flatMap.mp inside
  obtain ⟨small, single⟩ | high := utf16Char_cases char
  · rw [single, List.mem_singleton] at here
    exact here ▸ plain char listed small
  · exact surrogates each (high each here)

theorem utf16_of_small {chars : List Char} (small : ∀ char ∈ chars, char.toNat < 0x10000) :
    utf16 chars = chars.map unit := by
  unfold utf16
  rw [List.map_eq_flatMap]
  refine List.flatMap_congr fun char inside => ?_
  rw [utf16Char, if_pos (small char inside)]

theorem utf16_toList {literal : String} (small : ∀ char ∈ literal.toList, char.toNat < 0x10000) :
    utf16 literal.toList = text literal := utf16_of_small small

/-! ## Base64 -/

/-- What stands at the end of digits that need pads. -/
inductive Padding where
  | padded
  | unpadded
  | escaped
deriving DecidableEq, Repr

def Padding.text : Padding → Text
  | padded => [unit '=']
  | unpadded => []
  | escaped => UriParser.text "%3D"

def toUrlSafe (char : CodeUnit) : CodeUnit :=
  if char = unit '+' then unit '-' else if char = unit '/' then unit '_' else char

def base64 (urlSafe : Bool) (padding : Padding) (bytes : List UInt8) : Text :=
  (ascii (Base64.encodeBare bytes)).map (if urlSafe then toUrlSafe else id) ++
    (List.replicate (Base64.pads bytes) padding.text).flatten

def toStandard (char : CodeUnit) : CodeUnit :=
  if char = unit '-' then unit '+' else if char = unit '_' then unit '/' else char

theorem digit_unit {value : Nat} (small : value < 64) (urlSafe : Bool) :
    let written := (if urlSafe then toUrlSafe else id) (Base64.digit value).toUInt16
    toStandard written = (Base64.digit value).toUInt16 ∧ isWhiteSpace written = false ∧
      written ≠ unit '@' ∧ written ≠ unit '#' ∧ written ≠ unit '?' ∧ written ≠ unit ':' := by
  have all : ∀ each < 64, ∀ safe : Bool,
      let written := (if safe then toUrlSafe else id) (Base64.digit each).toUInt16
      toStandard written = (Base64.digit each).toUInt16 ∧ isWhiteSpace written = false ∧
        written ≠ unit '@' ∧ written ≠ unit '#' ∧ written ≠ unit '?' ∧ written ≠ unit ':' := by
    decide
  exact all value small urlSafe

theorem ascii_append (first second : List UInt8) :
    ascii (first ++ second) = ascii first ++ ascii second := List.map_append

theorem forall_digits (property : CodeUnit → Prop) (urlSafe : Bool) (bytes : List UInt8)
    (holds : ∀ value < 64,
      property ((if urlSafe then toUrlSafe else id) (Base64.digit value).toUInt16)) :
    ∀ each ∈ (ascii (Base64.encodeBare bytes)).map (if urlSafe then toUrlSafe else id),
      property each := by
  intro each inside
  obtain ⟨_, listed, rfl⟩ := List.mem_map.mp inside
  obtain ⟨symbol, digit, rfl⟩ := List.mem_map.mp listed
  obtain ⟨value, small, rfl⟩ := Base64.encodeBare_digits bytes symbol digit
  exact holds value small

theorem map_toStandard (urlSafe : Bool) (bytes : List UInt8) :
    ((ascii (Base64.encodeBare bytes)).map (if urlSafe then toUrlSafe else id)).map toStandard =
      ascii (Base64.encodeBare bytes) := by
  rw [List.map_map]
  conv_rhs => rw [← List.map_id (ascii (Base64.encodeBare bytes))]
  refine List.map_congr_left fun each inside => ?_
  obtain ⟨symbol, digit, rfl⟩ := List.mem_map.mp inside
  obtain ⟨value, small, rfl⟩ := Base64.encodeBare_digits bytes symbol digit
  exact (digit_unit small urlSafe).1

def normalized (value : Text) : Text := (value.filter fun char => !isWhiteSpace char).map toStandard

theorem paddedBase64_eq (value : Text) : paddedBase64 value =
      if (normalized value).length % 4 = 0 then normalized value
      else normalized value ++ List.replicate (4 - (normalized value).length % 4) (unit '=') := rfl

theorem normalized_append (first second : Text) :
    normalized (first ++ second) = normalized first ++ normalized second := by
  simp [normalized]

theorem normalized_digits (urlSafe : Bool) (bytes : List UInt8) :
    normalized ((ascii (Base64.encodeBare bytes)).map (if urlSafe then toUrlSafe else id)) =
      ascii (Base64.encodeBare bytes) := by
  have visible := forall_digits (fun each => (!isWhiteSpace each) = true) urlSafe bytes
    fun value small => by simp [(digit_unit small urlSafe).2.1]
  rw [normalized, List.filter_eq_self.mpr visible, map_toStandard]

theorem ascii_encode (bytes : List UInt8) : ascii (Base64.encode bytes) =
    ascii (Base64.encodeBare bytes) ++ List.replicate (Base64.pads bytes) (unit '=') := by
  have pad : Base64.pad.toUInt16 = unit '=' := by decide
  rw [Base64.encode_eq, ascii_append, ascii, ascii, List.map_replicate, pad]

theorem paddedBase64_base64 (urlSafe : Bool) {padding : Padding} {bytes : List UInt8}
    (plain : padding = .escaped → Base64.pads bytes = 0) :
    paddedBase64 (base64 urlSafe padding bytes) = ascii (Base64.encode bytes) := by
  have whole : (ascii (Base64.encode bytes)).length % 4 = 0 := by
    rw [ascii, List.length_map, Base64.encode_length]
  have few : Base64.pads bytes ≤ 2 := by
    unfold Base64.pads
    omega
  have bare : normalized (base64 urlSafe .unpadded bytes) = ascii (Base64.encodeBare bytes) := by
    simp [base64, Padding.text, normalized_digits]
  have full := ascii_encode bytes
  rw [full, List.length_append, List.length_replicate] at whole
  cases padding with
  | padded =>
    have pads : normalized (List.replicate (Base64.pads bytes) [unit '=']).flatten =
        List.replicate (Base64.pads bytes) (unit '=') := by
      have visible : isWhiteSpace (unit '=') = false := by decide
      have kept : toStandard (unit '=') = unit '=' := by decide
      simp [normalized, List.flatten_replicate_singleton, visible, kept]
    have same : normalized (base64 urlSafe .padded bytes) = ascii (Base64.encode bytes) := by
      rw [base64, Padding.text, normalized_append, normalized_digits, pads, full]
    rw [paddedBase64_eq, same, if_pos]
    rw [full, List.length_append, List.length_replicate]
    exact whole
  | unpadded =>
    rw [paddedBase64_eq, bare, full]
    split
    · have none_ : Base64.pads bytes = 0 := by omega
      simp [none_]
    · have missing : 4 - (ascii (Base64.encodeBare bytes)).length % 4 = Base64.pads bytes := by
        omega
      rw [missing]
  | escaped =>
    have none_ := plain rfl
    have same : base64 urlSafe .escaped bytes = base64 urlSafe .unpadded bytes := by
      simp [base64, none_]
    rw [same, paddedBase64_eq, bare, full, if_pos (by omega), none_]
    simp

/-! ## A platform -/

/-- Code units below 128 as bytes. -/
def bytesOf (value : Text) : Option (List UInt8) :=
  if value.all (· < 128) then some (value.map UInt16.toUInt8) else none

def charsOf (bytes : List UInt8) : Option (List Char) :=
  bytes.toByteArray.utf8Decode?.map Array.toList

theorem charsOf_encode (chars : List Char) : charsOf (Utf8.encode chars) = some chars := by
  have same : (Utf8.encode chars).toByteArray = chars.utf8Encode := rfl
  rw [charsOf, same, List.utf8Decode?_utf8Encode]
  rfl

theorem bytesOf_ascii {bytes : List UInt8} (small : ∀ byte ∈ bytes, byte < 128) :
    bytesOf (ascii bytes) = some bytes := by
  have all : (ascii bytes).all (· < 128) = true := by
    rw [List.all_eq_true]
    intro each inside
    obtain ⟨byte, listed, rfl⟩ := List.mem_map.mp inside
    simpa [UInt16.lt_iff_toNat_lt, UInt8.lt_iff_toNat_lt] using small byte listed
  have back : (ascii bytes).map UInt16.toUInt8 = bytes := by
    simp [ascii, Function.comp_def]
  rw [bytesOf, if_pos all, back]

def Platform.reference : Platform where
  toLowerCase value := value.map lowerAscii
  lower _ _ inside := isUpper_of_mem_map inside
  atob value := (bytesOf value).bind Base64.decode
  decodeUtf8 bytes := (charsOf bytes).map fun chars =>
    utf16 (if chars.head? = some '\uFEFF' then chars.tail else chars)
  decodeURIComponent value := (bytesOf value).bind fun encoded =>
    (charsOf (PercentEncoding.percentDecode encoded)).map utf16
  jsonParse _ := none
  nearest value := decimal value.natAbs

theorem base64_symbol_lt (bytes : List UInt8) : ∀ symbol ∈ Base64.encode bytes, symbol < 128 := by
  have all : ∀ value < 64, Base64.digit value < 128 := by decide
  intro symbol inside
  rw [Base64.encode_eq, List.mem_append] at inside
  obtain digit | pad := inside
  · obtain ⟨value, small, rfl⟩ := Base64.encodeBare_digits bytes symbol digit
    exact all value small
  · obtain ⟨-, rfl⟩ := List.mem_replicate.mp pad
    decide

theorem isBase64Unit_of_digit : ∀ code < 128, isBase64Unit (UInt16.ofNat code) = false →
    Base64.digitValue (UInt16.ofNat code).toUInt8 = none ∧
      (UInt16.ofNat code).toUInt8 ≠ Base64.pad := by
  decide +kernel

theorem Platform.reference_standard : Platform.reference.Standard where
  toLowerCase_ascii _ _ := rfl
  atob_encode bytes := by
    simp [Platform.reference, bytesOf_ascii (base64_symbol_lt bytes), Base64.decode_encode]
  atob_other value char inside foreign := by
    change (bytesOf value).bind Base64.decode = none
    unfold bytesOf
    split
    · rename_i small
      have low : char < 128 := by simpa using List.all_eq_true.mp small char inside
      obtain ⟨other, unpadded⟩ := isBase64Unit_of_digit char.toNat
        (by simpa [UInt16.lt_iff_toNat_lt] using low) (by simpa using foreign)
      rw [UInt16.ofNat_toNat] at other unpadded
      exact Base64.decode_of_other (List.mem_map_of_mem inside) other unpadded
    · rfl
  decodeUtf8_encode chars unmarked := by
    simp [Platform.reference, charsOf_encode, unmarked]
  decodeURIComponent_encodes encoded chars encodes := by
    have small : ∀ byte ∈ encoded, byte < 128 := by
      intro byte inside
      obtain rfl | unreserved := encodes.bytes byte inside
      · decide
      · have most := (PercentEncoding.printable_of_isUnreserved unreserved).2
        exact UInt8.lt_of_le_of_lt most (by decide)
    simp [Platform.reference, bytesOf_ascii small, encodes.percentDecode_eq, charsOf_encode]

/-! ## What is decoded -/

/-- No control character, and nothing that ends a line. -/
def isPrintable (char : Char) : Bool :=
  32 ≤ char.toNat && char.toNat != 127 && char.toNat != 0x2028 && char.toNat != 0x2029

theorem printable_unit {each : CodeUnit} (least : 32 ≤ each.toNat) (delete : each.toNat ≠ 127)
    (line : each.toNat ≠ 0x2028) (paragraph : each.toNat ≠ 0x2029) :
    isControl each = false ∧ isLineTerminator each = false := by
  have other (symbol : CodeUnit) (apart : each.toNat ≠ symbol.toNat) :
      (each == symbol) = false := by
    rw [beq_eq_false_iff_ne]
    exact fun same => apart (congrArg UInt16.toNat same)
  have large : ¬ each < 32 := by
    rw [UInt16.lt_iff_toNat_lt]
    exact Nat.not_lt.mpr least
  constructor
  · simp [isControl, large, other 127 delete]
  · have small (symbol : CodeUnit) (below : symbol.toNat < 32) : (each == symbol) = false :=
      other symbol (by omega)
    simp [isLineTerminator, small 0x0A (by decide), small 0x0D (by decide), other 0x2028 line,
      other 0x2029 paragraph]

theorem utf16_printable {chars : List Char} (printable : ∀ char ∈ chars, isPrintable char = true) :
    ∀ each ∈ utf16 chars, isControl each = false ∧ isLineTerminator each = false := by
  refine forall_utf16 _ ?_ ?_
  · intro each high
    exact printable_unit (by omega) (by omega) (by omega) (by omega)
  · intro char listed small
    have own := unit_toNat small
    have fits := printable char listed
    simp only [isPrintable, Bool.and_eq_true, decide_eq_true_eq, bne_iff_ne, ne_eq] at fits
    rw [← own] at fits
    exact printable_unit fits.1.1.1 fits.1.1.2 fits.1.2 fits.2

variable {platform : Platform} (standard : platform.Standard)

include standard

theorem decodeBase64_base64 (urlSafe : Bool) {padding : Padding} {chars : List Char}
    (plain : padding = .escaped → Base64.pads (Utf8.encode chars) = 0)
    (printable : ∀ char ∈ chars, isPrintable char = true) (unmarked : chars.head? ≠ some '\uFEFF') :
    decodeBase64OrOriginal platform (base64 urlSafe padding (Utf8.encode chars)) = utf16 chars := by
  have text_ : (utf16 chars).any isControl = false := by
    rw [List.any_eq_false]
    intro each inside
    simp [(utf16_printable printable each inside).1]
  rw [decodeBase64OrOriginal, paddedBase64_base64 urlSafe plain, standard.atob_encode]
  simp [standard.decodeUtf8_encode chars unmarked, text_]

theorem decodeBase64_other {value : Text} {char : CodeUnit} (inside : char ∈ value)
    (foreign : isBase64Unit char = false) (kept : toStandard char = char) :
    decodeBase64OrOriginal platform value = value := by
  have visible : isWhiteSpace char = false := by
    simp only [isBase64Unit, Bool.or_eq_false_iff] at foreign
    exact foreign.2
  have still : char ∈ normalized value := by
    refine List.mem_map.mpr ⟨char, List.mem_filter.mpr ⟨inside, by simp [visible]⟩, kept⟩
  have padded : char ∈ paddedBase64 value := by
    rw [paddedBase64_eq]
    split
    · exact still
    · exact List.mem_append_left _ still
  rw [decodeBase64OrOriginal, standard.atob_other _ char padded foreign]
  rfl

end ClashVerge.UriParser
