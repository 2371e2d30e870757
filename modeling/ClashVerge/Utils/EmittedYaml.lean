import ClashVerge.Utils.YamlEmitter
import ClashVerge.Yaml.Value

/-!
# What the core reads

The emitter writes a value as a block document, and the parser reads such documents; both are
outside. The rewritten text is a block document again, and the parser gets the value from it exactly
when every item that gets quotes is a plain scalar denoting its own text. A row of a literal scalar,
an item that is a mapping with a wildcard, or a number such as infinity is rewritten all the same.
-/

namespace ClashVerge.Utils

open BlockYaml ClashVerge.Yaml

/-- The emitter and the parser, with the values of the scalars it does not read as strings. -/
structure Serde where
  toString : Value → Except String (List Char)
  fromStr : List Char → Option Value
  plain : Line → Value
  double : Line → Value

namespace Serde

variable (serde : Serde)

/-- A mapping with equal keys is refused. -/
def mapping (entries : List (Value × Value)) : Option Value :=
  if (entries.map Prod.fst).Nodup then some (.mapping entries) else none

theorem mapping_eq_some {entries : List (Value × Value)} {value : Value}
    (made : mapping entries = some value) : value = .mapping entries := by
  unfold mapping at made
  split at made
  · exact (Option.some.inj made).symm
  · cases made

def reading : Reading Value where
  plain := serde.plain
  double := serde.double
  string := fun text => .string (String.ofList text)
  sequence := .sequence
  mapping := mapping
  tagged := fun tag => .tagged (String.ofList tag)
  string_injective := fun first second same => String.ofList_injective (Value.string.inj same)
  sequence_injective := fun first second same => Value.sequence.inj same
  mapping_injective := fun first second value made again =>
    Value.mapping.inj ((mapping_eq_some made).symm.trans (mapping_eq_some again))
  tagged_injective := fun tag first second same => (Value.tagged.inj same).2
  string_ne_sequence := nofun
  string_ne_mapping := fun text entries made => by cases mapping_eq_some made
  string_ne_tagged := nofun

/-- The parser reads a block document as what it denotes. -/
def Reads (document : Node) : Prop := serde.fromStr document.text = document.denote serde.reading

end Serde

def rewritten (document : Node) : Node :=
  document.requote ((⟨false, 0⟩ : Scan).marks document.lines)

/-- A value is emitted as a block document, and the parser reads this document and the rewritten
    one. -/
structure Serde.Emits (serde : Serde) (value : Value) (document : Node) : Prop where
  formed : document.WellFormed
  lined : Lined document.lines
  text : serde.toString value = .ok document.text
  reads : serde.Reads document
  rereads : serde.Reads (rewritten document)

def Preserved (serde : Serde) (value : Value) : Prop :=
  ∃ text, toMihomoConfigString serde.toString value = .ok text ∧ serde.fromStr text = some value

theorem header_not_wild (header : Header) : containsWildcard header.line = false := by
  obtain ⟨indent, chomp⟩ := header
  cases indent with
  | none => cases chomp <;> decide
  | some digit =>
    revert digit
    cases chomp <;> decide

theorem quotable_of_wild {row : Row} (wild : isWild row.text = true) : Quotable row := by
  unfold isWild at wild
  cases is_ : itemOf row.text with
  | none =>
    rw [is_] at wild
    cases wild
  | some item =>
    rw [is_, Option.any_some, needsQuotes, Bool.and_eq_true, Bool.and_eq_true, bne_iff_ne,
      bne_iff_ne] at wild
    refine ⟨item, is_, wild.1.2, wild.1.1, fun header same => ?_⟩
    rw [same, header_not_wild] at wild
    cases wild.2

section

variable {serde : Serde} {value : Value} {document : Node}

theorem lines_getD {index : Nat} {row : Row} (here : document.document[index]? = some row) :
    document.lines.getD index [] = row.text := by
  simp [Node.lines, here]

theorem marks_quotable (document : Node) :
    EachMarked ((⟨false, 0⟩ : Scan).marks document.lines) document.document Quotable := by
  intro index row here marked
  rw [Scan.marks_start_iff, lines_getD here] at marked
  exact quotable_of_wild marked.1

theorem quoteFakeIpFilterWildcards_text (formed : document.WellFormed) (lined : Lined document.lines) :
    quoteFakeIpFilterWildcards document.text = (rewritten document).text := by
  unfold quoteFakeIpFilterWildcards Node.text
  rw [lines_flatMap lined, Scan.run_eq, rewritten,
    Node.lines_requote formed (marks_quotable document).isItem]

/-- The text for the core is read as the value exactly when each item in reach of a `fake-ip-filter`
    key that has a wildcard is a plain scalar denoting its own text. -/
theorem mihomo_config_preserved_iff (emits : serde.Emits value document)
    (roundTrip : serde.fromStr document.text = some value) :
    Preserved serde value ↔ ∀ index row, document.document[index]? = some row →
      Reached document.lines index → isWild row.text = true → PlainText serde.reading row := by
  have denotes : document.denote serde.reading = some value := emits.reads.symm.trans roundTrip
  have written : toMihomoConfigString serde.toString value = .ok (rewritten document).text := by
    rw [toMihomoConfigString, emits.text, ← quoteFakeIpFilterWildcards_text emits.formed emits.lined]
    rfl
  have kept := Node.denote_requote serde.reading document _ value emits.formed
    ((Node.eachMarked_document shifts_quotable document).mp (marks_quotable document)) denotes
  rw [← Node.eachMarked_document (shifts_plainText serde.reading)] at kept
  have preserved : Preserved serde value ↔ (rewritten document).denote serde.reading = some value := by
    rw [← emits.rereads]
    constructor
    · rintro ⟨text, is_, same⟩
      cases written.symm.trans is_
      exact same
    · exact fun same => ⟨_, written, same⟩
  rw [preserved]
  refine kept.trans (forall₃_congr fun index row here => ?_)
  rw [Scan.marks_start_iff, lines_getD here]
  exact ⟨fun plain reached wild => plain ⟨wild, reached⟩, fun plain marked => plain marked.2 marked.1⟩

end

/-! ## Two documents -/

/-- A document without numbers and escapes, which is read as a value and, rewritten, as another. -/
def textSerde (document : Node) (value other : Value) : Serde where
  toString := fun _ => .ok document.text
  fromStr := fun text =>
    if text = document.text then some value
    else if text = (rewritten document).text then some other
    else none
  plain := fun text => .string (String.ofList text)
  double := fun text => .string (String.ofList text)

def entry (key : String) (value : Node) : Node := .map (.cons false (.plain key.toList) value .nil)

/-- A list of domains, of which the first is a wildcard. -/
def filtered : Node :=
  entry "dns" (entry "fake-ip-filter"
    (.seq (.cons (.plain "+.lan".toList) (.cons (.plain "example.com".toList) .nil))))

def filteredValue : Value :=
  .mapping [(.string "dns", .mapping [(.string "fake-ip-filter",
    .sequence [.string "+.lan", .string "example.com"])])]

theorem filtered_emits :
    (textSerde filtered filteredValue filteredValue).Emits filteredValue filtered where
  formed := by simp [filtered, entry, Node.WellFormed, Entries.WellFormed, Items.WellFormed]; decide
  lined := by unfold Lined; decide
  text := rfl
  reads := rfl
  rereads := rfl

/-- The list of domains is kept. -/
theorem filtered_preserved :
    Preserved (textSerde filtered filteredValue filteredValue) filteredValue := by
  refine (mihomo_config_preserved_iff filtered_emits rfl).mpr fun index row here _ wild => ?_
  have rows : filtered.document = [.of "dns:".toList, .of "  fake-ip-filter:".toList,
    ⟨"  - +.lan".toList, some "+.lan".toList⟩, ⟨"  - example.com".toList, some "example.com".toList⟩] := rfl
  have member := List.mem_of_getElem? here
  rw [rows] at member
  simp only [List.mem_cons, List.not_mem_nil, or_false] at member
  obtain rfl | rfl | rfl | rfl := member
  · exact absurd wild (by decide)
  · exact absurd wild (by decide)
  · exact ⟨_, rfl, rfl⟩
  · exact absurd wild (by decide)

/-- A text of two rows that looks like such a list. -/
def noted : Node :=
  entry "note" (.literal ⟨none, .strip⟩ ["fake-ip-filter:".toList, "- *.lan".toList])

def notedValue (domain : String) : Value :=
  .mapping [(.string "note", .string ("fake-ip-filter:\n- " ++ domain))]

theorem noted_emits :
    (textSerde noted (notedValue "*.lan") (notedValue "'*.lan'")).Emits (notedValue "*.lan") noted where
  formed := by simp [noted, entry, Node.WellFormed, Entries.WellFormed]; decide
  lined := by unfold Lined; decide
  text := rfl
  reads := by unfold Serde.Reads; decide +kernel
  rereads := by unfold Serde.Reads; decide +kernel

/-- The quotes end up in the text. -/
theorem noted_not_preserved :
    ¬ ∀ (serde : Serde) (value : Value) (document : Node), serde.Emits value document →
      serde.fromStr document.text = some value → Preserved serde value := by
  intro preserved
  obtain ⟨text, written, same⟩ := preserved _ _ noted noted_emits (by decide +kernel)
  cases written
  exact absurd same (by decide +kernel)

end ClashVerge.Utils
