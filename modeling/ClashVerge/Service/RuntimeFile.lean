import ClashVerge.Library.Hex
import ClashVerge.Service.ProviderSync

/-!
# Reading a runtime file from the service

The service answers each read with a chunk of the file in hexadecimal digits, and with the length
and the modification time of the whole file. The chunks are put together as long as these two stay.

The text of a chunk is cut into pairs of bytes, and each pair goes to an integer parser that also
takes a sign. Cutting a text inside of a character panics; the task that reads then ends as with an
error.
-/

namespace ClashVerge.Service.RuntimeFile

open ProviderSync PercentEncoding

/-! ## Decoding -/

inductive Decoded where
  | ok (bytes : Content)
  | error (message : String)
  | panics

def Decoded.push (byte : UInt8) : Decoded → Decoded
  | .ok bytes => .ok (byte :: bytes)
  | other => other

/-- `+`. -/
def plus : UInt8 := 43

/-- `u8::from_str_radix` of two bytes to the base 16. A sign may stand before the digits. -/
def fromStrRadix (first second : UInt8) : Option UInt8 :=
  if first = plus then (hexValue second).map UInt8.ofNat
  else (hexValue first).bind fun high => (hexValue second).map fun low =>
    UInt8.ofNat (high * 16 + low)

/-- No byte continues a character at the start of the rest. -/
def atBoundary (rest : List UInt8) : Bool := rest.head?.all fun byte => !Utf8.isContinuation byte

/-- The pairs of a text, one after another. -/
def decodePairs : List UInt8 → Decoded
  | first :: second :: rest =>
    if atBoundary (first :: second :: rest) && atBoundary rest then
      match fromStrRadix first second with
      | none => .error "hex payload is malformed"
      | some byte => (decodePairs rest).push byte
    else .panics
  | _ => .ok []

def decodeHex (encoded : List UInt8) : Decoded :=
  if encoded.length % 2 ≠ 0 then .error "hex payload has an odd length" else decodePairs encoded

/-! ## Replies -/

inductive RuntimeFileOutcome where
  | absent
  | chunk (hex : List UInt8) (len : Nat) (mtime : Option Nat)

structure Response where
  code : Nat
  message : String
  data : Option RuntimeFileOutcome

/-- The service answers a read by its number and offset, with the codes that tell of a lost session;
the clock is in nanoseconds; and the local file may fail. -/
structure Source where
  read : Nat → Nat → Except String Response
  notActive : Nat
  staleOwnerSession : Nat
  now : Nat → Nat
  ioError : Nat → Option String

def hasSettled (now : Nat) (mtime : Option Nat) : Bool :=
  mtime.all fun mtime => settleNanos ≤ now - mtime

def invalidText : String := "服务返回了无效的运行时文件"

/-- The bytes of a chunk, or what ends the task. -/
def Decoded.result : Decoded → Except String Content
  | .ok bytes => .ok bytes
  | .error message => .error (invalidText ++ ": " ++ message)
  | .panics => .error "panicked"

namespace Source

variable (source : Source)

/-- `read_chunk`, and what the loop makes of its answer. -/
def readChunk (count offset : Nat) : Reply :=
  match source.read count offset with
  | .error message => .failed ("无法连接到Clash Verge Service: " ++ message)
  | .ok response =>
    if response.code = source.notActive ∨ response.code = source.staleOwnerSession then .sessionLost
    else if 0 < response.code then .failed response.message
    else
      match response.data with
      | none => .failed "服务未返回运行时文件"
      | some .absent => .absent
      | some (.chunk hex len mtime) =>
        .chunk ⟨(decodeHex hex).result, len, mtime, hasSettled (source.now count) mtime,
          source.ioError count⟩

/-- How far a reply moves the next read. -/
def advance : Reply → Nat
  | .chunk ⟨.ok bytes, _, _, _, _⟩ => bytes.length
  | _ => 0

def replies : Nat → Nat → Nat → List Reply
  | 0, _, _ => []
  | left + 1, count, offset =>
    source.readChunk count offset ::
      replies left (count + 1) (offset + advance (source.readChunk count offset))

/-- `fetch_runtime_file` with so many reads: what it writes, and what it returns. -/
def fetch (reads : Nat) : Content × Except String Fetch :=
  fetchRuntimeFile (source.replies reads 0 0) [] none

end Source

/-! ## What is decoded -/

theorem fromStrRadix_of_digits {first second : UInt8} {high low : Nat}
    (upper : hexValue first = some high) (lower : hexValue second = some low) :
    fromStrRadix first second = some (UInt8.ofNat (high * 16 + low)) := by
  have digit : first ≠ plus := by
    rintro rfl
    rw [show hexValue plus = none from rfl] at upper
    contradiction
  simp [fromStrRadix, digit, upper, lower]

theorem not_continuation_of_digit {byte : UInt8} (digit : (hexValue byte).isSome = true) :
    Utf8.isContinuation byte = false := by
  unfold hexValue at digit
  simp only [Utf8.isContinuation, Bool.and_eq_false_iff, decide_eq_false_iff_not]
  grind

theorem atBoundary_of_isHex {text : List UInt8} (valid : Hex.IsHex text) :
    atBoundary text = true := by
  cases text with
  | nil => rfl
  | cons first rest =>
    simp [atBoundary, not_continuation_of_digit (valid.2 first List.mem_cons_self)]

theorem decodePairs_writes {text : List UInt8} {bytes : Content} (writes : Hex.Writes text bytes) :
    decodePairs text = .ok bytes := by
  induction writes with
  | nil => rfl
  | pair upper lower rest ih =>
    have front := atBoundary_of_isHex (Hex.Writes.pair upper lower rest).isHex
    have back := atBoundary_of_isHex rest.isHex
    simp [decodePairs, front, back, fromStrRadix_of_digits upper lower, ih,
      Decoded.push]

theorem decodeHex_writes {text : List UInt8} {bytes : Content} (writes : Hex.Writes text bytes) :
    decodeHex text = .ok bytes := by
  rw [decodeHex, if_neg (by simpa using writes.isHex.1), decodePairs_writes writes]

/-- A pair that the integer parser takes: two digits, or a sign and a digit. -/
def Taken (first second : UInt8) : Prop :=
  ((hexValue first).isSome = true ∨ first = plus) ∧ (hexValue second).isSome = true

inductive AllTaken : List UInt8 → Prop where
  | nil : AllTaken []
  | pair {first second rest} (taken : Taken first second) (others : AllTaken rest) :
      AllTaken (first :: second :: rest)

/-- A character goes on behind the next pair, or it has begun before it. -/
def Straddled : List UInt8 → Prop
  | first :: second :: rest =>
    atBoundary (first :: second :: rest) = false ∨ atBoundary rest = false
  | _ => False

/-- An even number of bytes, either in pairs that are taken with a sign among them, or else in such
pairs up to one that cuts a character. -/
def Misread (encoded : List UInt8) : Prop :=
  encoded.length % 2 = 0 ∧
    ((AllTaken encoded ∧ plus ∈ encoded) ∨
      ∃ front rest, encoded = front ++ rest ∧ AllTaken front ∧ Straddled rest)

theorem fromStrRadix_isSome (first second : UInt8) :
    (fromStrRadix first second).isSome = true ↔ Taken first second := by
  unfold fromStrRadix Taken
  by_cases sign : first = plus
  · simp [sign]
  · cases upper : hexValue first <;> simp [sign, upper]

theorem Taken.boundary {first second : UInt8} (taken : Taken first second) (rest : List UInt8) :
    atBoundary (first :: second :: rest) = true := by
  obtain ⟨digit | rfl, -⟩ := taken
  · simp [atBoundary, not_continuation_of_digit digit]
  · rfl

theorem AllTaken.boundary {text : List UInt8} (taken : AllTaken text) : atBoundary text = true := by
  cases taken with
  | nil => rfl
  | pair pair others => exact pair.boundary _

theorem decodePairs_taken {first second : UInt8} {rest : List UInt8} (taken : Taken first second)
    (boundary : atBoundary rest = true) :
    ∃ byte, decodePairs (first :: second :: rest) = (decodePairs rest).push byte := by
  obtain ⟨byte, read⟩ := Option.isSome_iff_exists.mp ((fromStrRadix_isSome first second).mpr taken)
  exact ⟨byte, by simp [decodePairs, taken.boundary, boundary, read]⟩

theorem decodePairs_ok_iff (text : List UInt8) (even : text.length % 2 = 0) :
    (∃ bytes, decodePairs text = .ok bytes) ↔ AllTaken text := by
  induction text using List.twoStepInduction with
  | nil => exact iff_of_true ⟨[], rfl⟩ .nil
  | singleton digit => simp at even
  | cons_cons first second rest ih _ =>
    have shorter := ih (by simpa [Nat.add_assoc] using even)
    constructor
    · rintro ⟨bytes, decoded⟩
      rw [decodePairs] at decoded
      split at decoded
      · cases read : fromStrRadix first second with
        | none => simp [read] at decoded
        | some byte =>
          simp only [read] at decoded
          have taken : Taken first second := by simp [← fromStrRadix_isSome, read]
          refine .pair taken (shorter.mp ?_)
          cases others : decodePairs rest <;> simp [others, Decoded.push] at decoded ⊢
      · contradiction
    · intro taken
      cases taken with
      | pair pair others =>
        obtain ⟨byte, push⟩ := decodePairs_taken pair others.boundary
        obtain ⟨bytes, decoded⟩ := shorter.mpr others
        exact ⟨byte :: bytes, by rw [push, decoded]; rfl⟩

theorem decodePairs_panics_iff (text : List UInt8) : decodePairs text = .panics ↔
      ∃ front rest, text = front ++ rest ∧ AllTaken front ∧ Straddled rest := by
  constructor
  · intro panics
    induction text using List.twoStepInduction with
    | nil | singleton digit => simp [decodePairs] at panics
    | cons_cons first second rest ih _ =>
      by_cases straddled : Straddled (first :: second :: rest)
      · exact ⟨[], _, rfl, .nil, straddled⟩
      · obtain ⟨front, back⟩ : atBoundary (first :: second :: rest) = true ∧
            atBoundary rest = true := by
          simpa [Straddled] using straddled
        cases read : fromStrRadix first second with
        | none => simp [decodePairs, front, back, read] at panics
        | some byte =>
          have taken : Taken first second := by simp [← fromStrRadix_isSome, read]
          have later : decodePairs rest = .panics := by
            simp only [decodePairs, front, back, read, Bool.and_self, if_true] at panics
            cases others : decodePairs rest <;> simp [others, Decoded.push] at panics ⊢
          obtain ⟨before, behind, rfl, all, cut⟩ := ih later
          exact ⟨first :: second :: before, behind, rfl, .pair taken all, cut⟩
  · rintro ⟨front, rest, rfl, all, cut⟩
    induction all with
    | nil =>
      rcases rest with _ | ⟨first, _ | ⟨second, others⟩⟩
      · exact cut.elim
      · exact cut.elim
      · obtain before | behind := cut
        · simp [decodePairs, before]
        · simp [decodePairs, behind]
    | pair taken all ih =>
      rename_i first second front
      cases boundary : atBoundary (front ++ rest) with
      | false => simp [decodePairs, boundary]
      | true =>
        obtain ⟨byte, push⟩ := decodePairs_taken taken boundary
        rw [List.cons_append, List.cons_append, push, ih]
        rfl

theorem isHex_iff_allTaken (text : List UInt8) : Hex.IsHex text ↔ AllTaken text ∧ plus ∉ text := by
  induction text using List.twoStepInduction with
  | nil => exact iff_of_true ⟨rfl, by simp⟩ ⟨.nil, by simp⟩
  | singleton digit => exact iff_of_false (fun valid => by simpa using valid.1) (by rintro ⟨⟨⟩, -⟩)
  | cons_cons first second rest ih _ =>
    have none_ : hexValue plus = none := rfl
    rw [Hex.isHex_pair, ih]
    constructor
    · rintro ⟨⟨upper, lower⟩, all, unsigned⟩
      refine ⟨.pair ⟨.inl upper, lower⟩ all, ?_⟩
      simp only [List.mem_cons, not_or]
      refine ⟨?_, ?_, unsigned⟩ <;> rintro rfl <;> simp [none_] at upper lower
    · rintro ⟨⟨⟩ | ⟨⟨digit | rfl, lower⟩, all⟩, unsigned⟩
      · simp only [List.mem_cons, not_or] at unsigned
        exact ⟨⟨digit, lower⟩, all, unsigned.2.2⟩
      · simp at unsigned

/-- Hexadecimal text is decoded, other text is refused, and nothing panics. -/
def DecodesHex (encoded : List UInt8) : Prop :=
  decodeHex encoded ≠ .panics ∧ ((∃ bytes, decodeHex encoded = .ok bytes) ↔ Hex.IsHex encoded)

theorem decodesHex_iff (encoded : List UInt8) : DecodesHex encoded ↔ ¬ Misread encoded := by
  unfold DecodesHex Misread
  by_cases even : encoded.length % 2 = 0
  · have pairs : decodeHex encoded = decodePairs encoded := if_neg (by simpa using even)
    rw [pairs, decodePairs_ok_iff encoded even, isHex_iff_allTaken, Ne, decodePairs_panics_iff]
    simp only [even, true_and, not_or]
    tauto
  · have odd : decodeHex encoded = .error "hex payload has an odd length" := if_pos even
    have unhex : ¬ Hex.IsHex encoded := fun valid => even valid.1
    simp [odd, even, unhex]

/-! ## One version of the file -/

/-- The versions of a file by their length and their modification time, which tell them apart. -/
structure File where
  content : Nat × Option Nat → Content
  length : ∀ identity, (content identity).length = identity.1

/-- The service answers with chunks of the version that it names, at the offset it is asked for. -/
def Source.Answers (source : Source) (file : File) : Prop :=
  ∀ count offset response hex len mtime, source.read count offset = .ok response →
    response.data = some (.chunk hex len mtime) →
      ∃ amount, Hex.Writes hex (((file.content (len, mtime)).drop offset).take amount)

/-- What is written is the start of the version that has been read so far. -/
def WrittenOf (file : File) (written : Content) : Option (Nat × Option Nat) → Prop
  | none => written = []
  | some identity => written <+: file.content identity

theorem WrittenOf.of_getD {file : File} {written : Content} {identity : Option (Nat × Option Nat)}
    {current : Nat × Option Nat} (started : WrittenOf file written identity)
    (same : identity.getD current = current) : written <+: file.content current := by
  cases identity with
  | none =>
    obtain rfl : written = [] := started
    exact List.nil_prefix
  | some first =>
    obtain rfl : first = current := same
    exact started

theorem prefix_append_chunk {content written : Content} (started : written <+: content)
    (amount : Nat) : written ++ (content.drop written.length).take amount <+: content := by
  obtain ⟨rest, rfl⟩ := started
  rw [List.drop_left]
  exact (List.prefix_append_right_inj written).mpr (List.take_prefix amount rest)

theorem Source.Answers.chunk {source : Source} {file : File} (answers : source.Answers file)
    {count offset : Nat} {chunk : Chunk} (read : source.readChunk count offset = .chunk chunk) :
    ∃ amount, chunk.bytes =
      .ok (((file.content (chunk.len, chunk.mtime)).drop offset).take amount) := by
  unfold Source.readChunk at read
  split at read
  · contradiction
  · rename_i response answered
    split at read
    · contradiction
    · split at read
      · contradiction
      · split at read
        · contradiction
        · contradiction
        · rename_i hex len mtime data
          obtain ⟨amount, writes⟩ := answers count offset response hex len mtime answered data
          obtain rfl := Reply.chunk.inj read
          exact ⟨amount, by rw [decodeHex_writes writes]; rfl⟩

theorem fetch_of_started {source : Source} {file : File} (answers : source.Answers file)
    (reads count : Nat) {written content : Content} {identity : Option (Nat × Option Nat)}
    {len : Nat} {mtime : Option Nat} (started : WrittenOf file written identity)
    (fetched : fetchRuntimeFile (source.replies reads count written.length) written identity =
      (content, .ok (.complete len mtime))) :
    content = file.content (len, mtime) := by
  induction reads generalizing count written identity with
  | zero => simp [Source.replies, fetchRuntimeFile] at fetched
  | succ left ih =>
    rw [Source.replies] at fetched
    cases reply : source.readChunk count written.length with
    | failed message | sessionLost | absent => simp [reply, fetchRuntimeFile] at fetched
    | chunk chunk =>
      obtain ⟨amount, bytes⟩ := answers.chunk reply
      rw [reply, fetchRuntimeFile] at fetched
      split at fetched
      · simp at fetched
      · rename_i steady
        simp only [not_or, not_not] at steady
        have current := started.of_getD steady.2.2
        split at fetched
        · rename_i whole
          split at fetched
          · simp at fetched
          · simp only [Prod.mk.injEq, Except.ok.injEq, Fetch.complete.injEq] at fetched
            obtain ⟨rfl, rfl, rfl⟩ := fetched
            exact current.eq_of_length (by rw [file.length, whole])
        · simp only [bytes] at fetched
          split at fetched
          · simp at fetched
          · split at fetched
            · simp at fetched
            · split at fetched
              · simp at fetched
              · have more := prefix_append_chunk current amount
                have further : written.length + Source.advance (.chunk chunk) =
                    (written ++ ((file.content (chunk.len, chunk.mtime)).drop written.length).take
                      amount).length := by
                  obtain ⟨_, _, _, _, _⟩ := chunk
                  simp only at bytes
                  subst bytes
                  rw [List.length_append]
                  rfl
                rw [further] at fetched
                have going : WrittenOf file _ (some (chunk.len, chunk.mtime)) := more
                exact ih (count + 1) going fetched

def DeliversOneVersion (source : Source) : Prop :=
  ∀ file, source.Answers file → ∀ reads written len mtime,
    source.fetch reads = (written, .ok (.complete len mtime)) →
      written = file.content (len, mtime) ∧ written.length = len

theorem deliversOneVersion (source : Source) : DeliversOneVersion source := by
  intro file answers reads written len mtime fetched
  have started : WrittenOf file [] none := rfl
  exact ⟨fetch_of_started answers reads 0 started fetched, length_of_complete fetched⟩

/-! ## The end of the loop -/

def declaredLength : Reply → Nat
  | .chunk chunk => chunk.len
  | _ => 0

/-- Behind the first reply, and as many as the length that it gives, no other is read. -/
def EndsInTime : Prop :=
  ∀ first replies more, declaredLength first ≤ replies.length →
    fetchRuntimeFile (first :: (replies ++ more)) [] none =
      fetchRuntimeFile (first :: replies) [] none

theorem fetch_append {len : Nat} {mtime : Option Nat} (replies more : List Reply)
    {written : Content} (inside : written.length ≤ len)
    (enough : len + 1 ≤ replies.length + written.length) :
    fetchRuntimeFile (replies ++ more) written (some (len, mtime)) =
      fetchRuntimeFile replies written (some (len, mtime)) := by
  induction replies generalizing written with
  | nil =>
    rw [List.length_nil] at enough
    omega
  | cons reply replies ih =>
    rw [List.cons_append]
    cases reply with
    | failed message | sessionLost | absent => rfl
    | chunk chunk =>
      simp only [fetchRuntimeFile]
      split
      · rfl
      · rename_i steady
        simp only [not_or, not_not, Option.getD_some, Prod.mk.injEq] at steady
        obtain ⟨-, -, rfl, rfl⟩ := steady
        split
        · rfl
        · cases decoded : chunk.bytes with
          | error message => rfl
          | ok bytes =>
            by_cases empty : bytes = []
            · simp only [empty, if_true]
            · simp only [empty, if_false]
              cases chunk.ioError with
              | some message => rfl
              | none =>
                dsimp only
                split
                · rfl
                · rename_i within
                  have byte := List.length_pos_iff.mpr empty
                  rw [List.length_cons] at enough
                  refine ih (by omega) ?_
                  rw [List.length_append]
                  omega

theorem endsInTime : EndsInTime := by
  intro first replies more enough
  cases first with
  | failed message | sessionLost | absent => rfl
  | chunk chunk =>
    have declared (others : List Reply) : fetchRuntimeFile (.chunk chunk :: others) [] none =
        fetchRuntimeFile (.chunk chunk :: others) [] (some (chunk.len, chunk.mtime)) := by
      simp [fetchRuntimeFile]
    simp only [declaredLength] at enough
    rw [declared, declared, ← List.cons_append]
    refine fetch_append _ more (Nat.zero_le _) ?_
    rw [List.length_cons, List.length_nil]
    omega

/-- The loop delivers one version and ends in time, whatever is answered. What encodes bytes is
decoded to them, and every other text is refused unless it is misread. -/
theorem delivers_ends_and_decodes (source : Source) (encoded : List UInt8) :
    DeliversOneVersion source ∧ EndsInTime ∧
      (∀ bytes, Hex.Writes encoded bytes → decodeHex encoded = .ok bytes) ∧
      (DecodesHex encoded ↔ ¬ Misread encoded) :=
  ⟨deliversOneVersion source, endsInTime, fun _ writes => decodeHex_writes writes,
    decodesHex_iff encoded⟩

/-- `+f` is decoded to a byte, and `aéa` cuts a character. -/
theorem sign_and_character_misread : ¬ DecodesHex [43, 102] ∧ ¬ DecodesHex [97, 195, 169, 97] := by
  constructor
  · rintro ⟨-, only⟩
    have hex := only.mp ⟨[15], rfl⟩
    exact absurd (hex.2 43 (by simp)) (by decide)
  · rintro ⟨safe, -⟩
    exact safe rfl

end ClashVerge.Service.RuntimeFile
