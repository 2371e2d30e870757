import ClashVerge.Library.OrderedMap
import Mathlib.Data.List.Induction
import Mathlib.Data.List.Sort

/-!
# The table of pending failures

A failed write of the system proxy stays in a table under its code until a later success answers it.
A failure names the operation it belongs to: a request of the user, a restore that nobody asked for,
or the guard. What replaces what under a code, and which success retires what, are two relations on
operations.

A snapshot lists the entries in any order.
-/

namespace ClashVerge.Notification

open OrderedMap

inductive FailedOperation where
  | systemProxyEnable
  | systemProxyDisable
  | systemProxyRestore
  | systemProxyGuard
deriving DecidableEq, Repr

namespace FailedOperation

def isRequest : FailedOperation → Bool
  | systemProxyEnable | systemProxyDisable => true
  | _ => false

def outranks (self other : FailedOperation) : Bool := self.isRequest && other == systemProxyRestore

def retiredBySuccessOf : FailedOperation → FailedOperation → Bool
  | systemProxyGuard, _ => false
  | _, systemProxyGuard => false
  | _, systemProxyEnable => true
  | _, systemProxyDisable => true
  | systemProxyRestore, systemProxyRestore => true
  | _, systemProxyRestore => false

end FailedOperation

structure PendingFailure where
  code : String
  detail : String
  operation : FailedOperation
  sequence : UInt64
deriving DecidableEq, Repr

/-- The entries by their codes, and the last sequence number. -/
structure FailureTable where
  entries : List (String × PendingFailure)
  sequence : UInt64
deriving DecidableEq, Repr

/-- A listing of entries in the order of their sequence numbers. -/
def snapshotOf (listing : List PendingFailure) : List PendingFailure :=
  listing.mergeSort fun first second => first.sequence ≤ second.sequence

namespace FailureTable

def new : FailureTable := ⟨[], 0⟩

/-- The operation that is kept under a code: that of the entry there if it outranks the new one. -/
def keptOperation (existing : Option PendingFailure) (operation : FailedOperation) :
    FailedOperation :=
  ((existing.filter fun existing => existing.operation.outranks operation).map
    PendingFailure.operation).getD operation

/-- The sequence numbers wrap around. -/
def record (table : FailureTable) (operation : FailedOperation) (code detail : String) :
    FailureTable :=
  let kept := keptOperation (get table.entries code) operation
  ⟨insert table.entries code ⟨code, detail, kept, table.sequence + 1⟩, table.sequence + 1⟩

def retain (table : FailureTable) (keep : FailedOperation → Bool) : FailureTable :=
  { table with entries := table.entries.filter fun entry => keep entry.2.operation }

def retireGuard (table : FailureTable) : FailureTable × Bool :=
  let kept := table.retain (· != .systemProxyGuard)
  (kept, table.entries.length != kept.entries.length)

def retireSystemProxy (table : FailureTable) (asked : FailedOperation) : FailureTable × Bool :=
  let kept := table.retain fun operation => !operation.retiredBySuccessOf asked
  (kept, table.entries.length != kept.entries.length)

/-- What `pending_failures` returns for one of the listings. -/
def failures (table : FailureTable) : List PendingFailure := table.entries.map Prod.snd

end FailureTable

inductive Event where
  | record (operation : FailedOperation) (code detail : String)
  | retireGuard
  | retireSystemProxy (asked : FailedOperation)
deriving DecidableEq, Repr

def step (table : FailureTable) : Event → FailureTable
  | .record operation code detail => table.record operation code detail
  | .retireGuard => table.retireGuard.1
  | .retireSystemProxy asked => (table.retireSystemProxy asked).1

def run (history : List Event) : FailureTable := history.foldl step .new

theorem run_append_singleton (history : List Event) (event : Event) :
    run (history ++ [event]) = step (run history) event :=
  List.foldl_concat step .new event history

/-! ## What is said of a history -/

def Event.recorded : Event → Option String
  | record _ code _ => some code
  | _ => none

def records (history : List Event) : List String := history.filterMap Event.recorded

def latest (history : List Event) (code : String) : Nat :=
  (records history).length - (records history).reverse.idxOf code

def Event.answersUser : Event → Bool
  | retireSystemProxy asked => asked.isRequest
  | _ => false

def FailureTable.Waits (table : FailureTable) (code : String) : Prop :=
  ∃ failure, (code, failure) ∈ table.entries ∧ failure.operation.isRequest = true

/-- A history in which nothing that a user is owed gets lost. -/
structure Kept (history : List Event) : Prop where
  /-- A recorded failure of a request waits until a request succeeds. -/
  waits : ∀ before operation code detail after,
    history = before ++ .record operation code detail :: after → operation.isRequest = true →
      (∀ event ∈ after, event.answersUser = false) → (run history).Waits code
  /-- The success of a request leaves only failures of the guard. -/
  answered : ∀ before asked, history = before ++ [.retireSystemProxy asked] →
    asked.isRequest = true → ∀ entry ∈ (run history).entries,
      entry.2.operation = .systemProxyGuard
  /-- The success of a restore keeps the failures of requests. -/
  restored : ∀ before, history = before ++ [.retireSystemProxy .systemProxyRestore] →
    ∀ entry ∈ (run before).entries, entry.2.operation.isRequest = true →
      entry ∈ (run history).entries
  /-- A code has one entry, which names it. -/
  unique : Distinct (run history).entries ∧ ∀ entry ∈ (run history).entries, entry.2.code = entry.1
  distinct : ((run history).failures.map PendingFailure.sequence).Nodup
  /-- A snapshot lists the entries by the latest records of their codes. -/
  ordered : ∀ listing, listing.Perm (run history).failures →
    (snapshotOf listing).Perm (run history).failures ∧
      (snapshotOf listing).Pairwise fun first second =>
        latest history first.code < latest history second.code

/-- No failure of the guard is recorded under a code where a request of the user waits. -/
def GuardsApart (history : List Event) : Prop :=
  ∀ before code detail after,
    history = before ++ .record .systemProxyGuard code detail :: after → ¬ (run before).Waits code

/-! ## The entries of a table -/

theorem mem_insert {entries : List (String × PendingFailure)} (distinct : Distinct entries)
    (code : String) (failure : PendingFailure) (entry : String × PendingFailure) :
    entry ∈ insert entries code failure ↔
      entry = (code, failure) ∨ entry.1 ≠ code ∧ entry ∈ entries := by
  obtain ⟨key, value⟩ := entry
  rw [← get_eq_some_iff (distinct_insert distinct code failure), get_insert,
    ← get_eq_some_iff distinct]
  by_cases same : key = code
  · simp [same, eq_comm]
  · simp [same]

variable {table : FailureTable}

theorem distinct_retain (distinct : Distinct table.entries)
    (keep : FailedOperation → Bool) : Distinct (table.retain keep).entries :=
  distinct.sublist (List.filter_sublist.map Prod.fst)

theorem mem_retain (table : FailureTable) (keep : FailedOperation → Bool)
    (entry : String × PendingFailure) :
    entry ∈ (table.retain keep).entries ↔ entry ∈ table.entries ∧ keep entry.2.operation = true :=
  List.mem_filter

/-- Each entry is the latest record of its code: it names the code and has the number of that
record. -/
structure Tracks (history : List Event) (table : FailureTable) : Prop where
  distinct : Distinct table.entries
  coded : ∀ entry ∈ table.entries, entry.2.code = entry.1
  counted : table.sequence = UInt64.ofNat (records history).length
  listed : ∀ entry ∈ table.entries, entry.1 ∈ records history
  numbered : ∀ entry ∈ table.entries, entry.2.sequence = UInt64.ofNat (latest history entry.1)

theorem records_append (history : List Event) (event : Event) :
    records (history ++ [event]) = records history ++ event.recorded.toList := by
  simp only [records, List.filterMap_append]
  cases recorded : event.recorded <;> simp [recorded]

theorem latest_of_record (history : List Event) (operation : FailedOperation)
    (code detail other : String) :
    latest (history ++ [.record operation code detail]) other =
      if other = code then (records history).length + 1 else latest history other := by
  have grown : records (history ++ [.record operation code detail]) = records history ++ [code] :=
    records_append history _
  rw [latest, grown, List.reverse_append, List.reverse_singleton, List.singleton_append,
    List.idxOf_cons, latest, List.length_append]
  by_cases same : other = code
  · simp [same]
  · have apart : (code == other) = false := by simpa using Ne.symm same
    simp [same, apart]

theorem latest_of_other (history : List Event) {event : Event} (other : event.recorded = none)
    (code : String) : latest (history ++ [event]) code = latest history code := by
  rw [latest, latest, records_append, other]
  simp

variable {history : List Event}

theorem Tracks.retain (tracks : Tracks history table)
    (keep : FailedOperation → Bool) {event : Event} (other : event.recorded = none) :
    Tracks (history ++ [event]) (table.retain keep) := by
  have same : records (history ++ [event]) = records history := by
    rw [records_append, other]
    simp
  refine ⟨distinct_retain tracks.distinct keep, ?_, ?_, ?_, ?_⟩
  · exact fun entry kept => tracks.coded entry ((mem_retain table keep entry).mp kept).1
  · rw [same]
    exact tracks.counted
  · rw [same]
    exact fun entry kept => tracks.listed entry ((mem_retain table keep entry).mp kept).1
  · intro entry kept
    rw [latest_of_other history other]
    exact tracks.numbered entry ((mem_retain table keep entry).mp kept).1

theorem Tracks.record (tracks : Tracks history table)
    (operation : FailedOperation) (code detail : String) :
    Tracks (history ++ [.record operation code detail]) (table.record operation code detail) := by
  have grown : records (history ++ [.record operation code detail]) = records history ++ [code] :=
    records_append history _
  have next : table.sequence + 1 = UInt64.ofNat ((records history).length + 1) := by
    rw [tracks.counted, UInt64.ofNat_add]
    rfl
  refine ⟨distinct_insert tracks.distinct _ _, ?_, ?_, ?_, ?_⟩
  · intro entry inside
    obtain rfl | ⟨-, earlier⟩ := (mem_insert tracks.distinct _ _ entry).mp inside
    · rfl
    · exact tracks.coded entry earlier
  · rw [grown, List.length_append, List.length_singleton]
    exact next
  · intro entry inside
    rw [grown]
    obtain rfl | ⟨-, earlier⟩ := (mem_insert tracks.distinct _ _ entry).mp inside
    · simp
    · exact List.mem_append_left _ (tracks.listed entry earlier)
  · intro entry inside
    rw [latest_of_record]
    obtain rfl | ⟨apart, earlier⟩ := (mem_insert tracks.distinct _ _ entry).mp inside
    · simpa using next
    · rw [if_neg apart]
      exact tracks.numbered entry earlier

theorem tracks_run (history : List Event) : Tracks history (run history) := by
  induction history using List.reverseRecOn with
  | nil => exact ⟨distinct_nil, by simp [run, FailureTable.new], rfl, by simp [run, FailureTable.new],
      by simp [run, FailureTable.new]⟩
  | append_singleton history event ih =>
    rw [run_append_singleton]
    cases event with
    | record operation code detail => exact ih.record operation code detail
    | retireGuard =>
      have other : Event.retireGuard.recorded = none := rfl
      exact ih.retain (· != .systemProxyGuard) other
    | retireSystemProxy asked =>
      have other : (Event.retireSystemProxy asked).recorded = none := rfl
      exact ih.retain (fun operation => !operation.retiredBySuccessOf asked) other

/-! ## Requests that wait -/

theorem keptOperation_request {operation : FailedOperation} (request : operation.isRequest = true)
    (existing : Option PendingFailure) :
    FailureTable.keptOperation existing operation = operation := by
  have lower (other : FailedOperation) : other.outranks operation = false := by
    cases operation <;> simp_all [FailedOperation.outranks, FailedOperation.isRequest]
  cases existing <;> simp [FailureTable.keptOperation, lower]

theorem waits_record (distinct : Distinct table.entries)
    {operation : FailedOperation} (request : operation.isRequest = true) (code detail : String) :
    (table.record operation code detail).Waits code := by
  refine ⟨_, (mem_insert distinct _ _ _).mpr (.inl rfl), ?_⟩
  simpa [keptOperation_request request] using request

theorem FailureTable.Waits.record (distinct : Distinct table.entries) {code : String}
    (waits : table.Waits code) (operation : FailedOperation) (other detail : String)
    (apart : operation = .systemProxyGuard → other ≠ code) :
    (table.record operation other detail).Waits code := by
  obtain ⟨failure, inside, request⟩ := waits
  by_cases same : other = code
  · subst same
    cases operation with
    | systemProxyEnable | systemProxyDisable => exact waits_record distinct rfl _ _
    | systemProxyGuard => exact absurd rfl (apart rfl)
    | systemProxyRestore =>
      refine ⟨_, (mem_insert distinct _ _ _).mpr (.inl rfl), ?_⟩
      have found := (get_eq_some_iff distinct other failure).mpr inside
      simp [FailureTable.keptOperation, found, FailedOperation.outranks, Option.filter_some, request]
  · exact ⟨failure, (mem_insert distinct _ _ _).mpr (.inr ⟨Ne.symm same, inside⟩), request⟩

theorem FailureTable.Waits.step {code : String} (waits : (run history).Waits code)
    {event : Event} (unanswered : event.answersUser = false)
    (apart : ∀ detail, event ≠ .record .systemProxyGuard code detail) :
    (run (history ++ [event])).Waits code := by
  rw [run_append_singleton]
  cases event with
  | record operation other detail =>
    refine waits.record (tracks_run history).distinct operation other detail ?_
    rintro rfl rfl
    exact apart detail rfl
  | retireGuard =>
    obtain ⟨failure, inside, request⟩ := waits
    refine ⟨failure, (mem_retain _ _ _).mpr ⟨inside, ?_⟩, request⟩
    cases named : failure.operation <;> simp_all [FailedOperation.isRequest]
  | retireSystemProxy asked =>
    obtain ⟨failure, inside, request⟩ := waits
    refine ⟨failure, (mem_retain _ _ _).mpr ⟨inside, ?_⟩, request⟩
    cases named : failure.operation <;> cases asked <;>
      simp_all [FailedOperation.isRequest, Event.answersUser, FailedOperation.retiredBySuccessOf]

theorem FailureTable.Waits.run {history after : List Event} {code : String} (waits : (run history).Waits code)
    (unanswered : ∀ event ∈ after, event.answersUser = false)
    (apart : GuardsApart (history ++ after)) : (run (history ++ after)).Waits code := by
  induction after using List.reverseRecOn with
  | nil => simpa using waits
  | append_singleton after event ih =>
    rw [← List.append_assoc] at apart ⊢
    have before : GuardsApart (history ++ after) := by
      intro front other detail back split_
      exact apart front other detail (back ++ [event]) (by rw [split_]; simp)
    have still := ih (fun each inside => unanswered each (by simp [inside])) before
    refine still.step (unanswered event (by simp)) ?_
    rintro detail rfl
    exact apart (history ++ after) code detail [] rfl still

theorem recorded_of_waits {code : String} (waits : (run history).Waits code) :
    ∃ operation detail, operation.isRequest = true ∧ .record operation code detail ∈ history := by
  induction history using List.reverseRecOn with
  | nil =>
    obtain ⟨failure, inside, -⟩ := waits
    simp [run, FailureTable.new] at inside
  | append_singleton history event ih =>
    have earlier (before : (run history).Waits code) : ∃ operation detail,
        operation.isRequest = true ∧ .record operation code detail ∈ history ++ [event] := by
      obtain ⟨operation, detail, request, recorded⟩ := ih before
      exact ⟨operation, detail, request, List.mem_append_left _ recorded⟩
    rw [run_append_singleton] at waits
    obtain ⟨failure, inside, request⟩ := waits
    cases event with
    | retireGuard => exact earlier ⟨failure, ((mem_retain _ _ _).mp inside).1, request⟩
    | retireSystemProxy asked =>
      exact earlier ⟨failure, ((mem_retain _ _ _).mp inside).1, request⟩
    | record operation other detail =>
      obtain new | ⟨-, old⟩ := (mem_insert (tracks_run history).distinct _ _ _).mp inside
      · cases new
        cases found : get (run history).entries code with
        | none =>
          exact ⟨operation, detail, by simpa [found, FailureTable.keptOperation] using request, by simp⟩
        | some existing =>
          cases above : existing.operation.outranks operation with
          | true =>
            refine earlier ⟨existing, mem_of_get found, ?_⟩
            simp only [FailedOperation.outranks, Bool.and_eq_true] at above
            exact above.1
          | false =>
            refine ⟨operation, detail, ?_, by simp⟩
            simpa [found, FailureTable.keptOperation, Option.filter_some, above] using request
      · exact earlier ⟨failure, old, request⟩

theorem guardsApart_of_own_codes
    (own : ∀ code detail, .record .systemProxyGuard code detail ∈ history →
      ∀ operation other, operation.isRequest = true →
        .record operation code other ∉ history) : GuardsApart history := by
  rintro before code detail after rfl waits
  obtain ⟨operation, other, request, recorded⟩ := recorded_of_waits waits
  exact own code detail (by simp) operation other request (List.mem_append_left _ recorded)

/-! ## Sequence numbers -/

theorem latest_inj {first second : String}
    (listed : first ∈ records history) (also : second ∈ records history)
    (same : latest history first = latest history second) : first = second := by
  have inside := List.idxOf_lt_length_iff.mpr (List.mem_reverse.mpr listed)
  have within := List.idxOf_lt_length_iff.mpr (List.mem_reverse.mpr also)
  rw [List.length_reverse] at inside within
  unfold latest at same
  exact (List.idxOf_inj (List.mem_reverse.mpr listed)).mp (by omega)

section

variable (few : (records history).length < UInt64.size)
include few

theorem sequence_toNat {entry : String × PendingFailure} (inside : entry ∈ (run history).entries) :
    entry.2.sequence.toNat = latest history entry.1 := by
  rw [(tracks_run history).numbered entry inside, UInt64.toNat_ofNat']
  refine Nat.mod_eq_of_lt (lt_of_le_of_lt ?_ few)
  exact Nat.sub_le _ _

theorem distinct_sequences : ((run history).failures.map PendingFailure.sequence).Nodup := by
  have tracks := tracks_run history
  rw [FailureTable.failures, List.map_map]
  refine List.Nodup.map_on ?_ tracks.distinct.of_map
  intro first inside second within same
  have numbers : latest history first.1 = latest history second.1 := by
    rw [← sequence_toNat few inside, ← sequence_toNat few within]
    exact congrArg UInt64.toNat same
  have codes := latest_inj (tracks.listed first inside) (tracks.listed second within) numbers
  obtain ⟨code, failure⟩ := first
  obtain ⟨other, value⟩ := second
  obtain rfl : code = other := codes
  have found := (get_eq_some_iff tracks.distinct code failure).mpr inside
  rw [(get_eq_some_iff tracks.distinct code value).mpr within] at found
  rw [Option.some.inj found]

theorem snapshot_ordered
    {listing : List PendingFailure} (permuted : listing.Perm (run history).failures) :
    (snapshotOf listing).Pairwise fun first second =>
      latest history first.code < latest history second.code := by
  have tracks := tracks_run history
  have whole : (snapshotOf listing).Perm (run history).failures :=
    (List.mergeSort_perm _ _).trans permuted
  have sorted : (snapshotOf listing).Pairwise fun first second =>
      first.sequence ≤ second.sequence := by
    refine List.Pairwise.imp of_decide_eq_true (List.pairwise_mergeSort ?_ ?_ listing)
    · intro one other third before behind
      rw [decide_eq_true_eq] at before behind ⊢
      exact UInt64.le_trans before behind
    · intro one other
      simpa using UInt64.le_total one.sequence other.sequence
  have apart : (snapshotOf listing).Pairwise fun first second =>
      first.sequence ≠ second.sequence :=
    List.pairwise_map.mp ((whole.map _).nodup_iff.mpr (distinct_sequences few))
  refine (sorted.and apart).imp_of_mem ?_
  intro first second inside within both
  obtain ⟨entry, listed, rfl⟩ := List.mem_map.mp (whole.mem_iff.mp inside)
  obtain ⟨other, also, rfl⟩ := List.mem_map.mp (whole.mem_iff.mp within)
  rw [tracks.coded entry listed, tracks.coded other also, ← sequence_toNat few listed,
    ← sequence_toNat few also]
  exact UInt64.lt_iff_toNat_lt.mp (UInt64.lt_of_le_of_ne both.1 both.2)

end

/-! ## Histories -/

/-- While fewer failures than there are sequence numbers are recorded, and the guard fails under no
code where a request waits, nothing that a user is owed gets lost. -/
theorem kept_of_guardsApart (history : List Event) (apart : GuardsApart history)
    (few : (records history).length < UInt64.size) : Kept history := by
  have tracks := tracks_run history
  refine ⟨?_, ?_, ?_, ⟨tracks.distinct, tracks.coded⟩, distinct_sequences few, ?_⟩
  · rintro before operation code detail after rfl request unanswered
    rw [← List.singleton_append, ← List.append_assoc] at apart ⊢
    refine FailureTable.Waits.run ?_ unanswered apart
    rw [run_append_singleton]
    exact waits_record (tracks_run before).distinct request code detail
  · rintro before asked rfl request entry inside
    rw [run_append_singleton] at inside
    have kept := ((mem_retain _ _ _).mp inside).2
    cases named : entry.2.operation <;> cases asked <;>
      simp_all [FailedOperation.isRequest, FailedOperation.retiredBySuccessOf]
  · rintro before rfl entry inside request
    rw [run_append_singleton]
    refine (mem_retain _ _ _).mpr ⟨inside, ?_⟩
    cases named : entry.2.operation <;>
      simp_all [FailedOperation.isRequest, FailedOperation.retiredBySuccessOf]
  · exact fun listing permuted =>
      ⟨(List.mergeSort_perm _ _).trans permuted, snapshot_ordered few permuted⟩

/-- The guard's failures have the code `SYSPROXY_GUARD_STOPPED`. -/
theorem kept_with_guard_stopped :
    Kept [.record .systemProxyEnable "SYSPROXY_PRIVILEGE_REQUIRED" "asked for",
      .record .systemProxyGuard "SYSPROXY_GUARD_STOPPED" "stopped",
      .record .systemProxyRestore "SYSPROXY_PRIVILEGE_REQUIRED" "a restart hit it too"] := by
  refine kept_of_guardsApart _ (guardsApart_of_own_codes ?_) (by decide)
  intro code detail guard operation other request recorded
  obtain ⟨rfl, -⟩ : code = "SYSPROXY_GUARD_STOPPED" ∧ detail = "stopped" := by simpa using guard
  simp only [List.mem_cons, Event.record.injEq, List.not_mem_nil] at recorded
  cases operation <;> simp_all [FailedOperation.isRequest]

theorem guard_takes_over : ¬ Kept [.record .systemProxyEnable "SYSPROXY" "asked for",
      .record .systemProxyGuard "SYSPROXY" "stopped"] := by
  intro kept
  obtain ⟨failure, inside, request⟩ := kept.waits [] .systemProxyEnable "SYSPROXY" "asked for" _ rfl
    rfl (by decide)
  have only : (run [.record .systemProxyEnable "SYSPROXY" "asked for",
      .record .systemProxyGuard "SYSPROXY" "stopped"]).entries =
        [("SYSPROXY", ⟨"SYSPROXY", "stopped", .systemProxyGuard, 2⟩)] := by decide
  rw [only, List.mem_singleton] at inside
  obtain rfl := (Prod.mk.inj inside).2
  contradiction

theorem foldl_replicate (table : FailureTable) (code detail : String) (more : Nat) :
    (List.replicate (more + 1) (.record .systemProxyEnable code detail)).foldl step table =
      ⟨insert table.entries code ⟨code, detail, .systemProxyEnable,
        table.sequence + UInt64.ofNat (more + 1)⟩, table.sequence + UInt64.ofNat (more + 1)⟩ := by
  have own (existing : Option PendingFailure) := keptOperation_request
    (show FailedOperation.systemProxyEnable.isRequest = true from rfl) existing
  induction more with
  | zero => simp [step, FailureTable.record, own]
  | succ more ih =>
    have next : table.sequence + UInt64.ofNat (more + 1) + 1 =
        table.sequence + UInt64.ofNat (more + 1 + 1) := by
      rw [UInt64.add_assoc, UInt64.ofNat_add (more + 1)]
      rfl
    rw [List.replicate_succ', List.foldl_append, ih]
    simp only [List.foldl_cons, List.foldl_nil, step, FailureTable.record, own, insert_insert, next]

theorem numbers_come_round : ¬ Kept (.record .systemProxyEnable "SYSPROXY" "first" ::
      List.replicate UInt64.size (.record .systemProxyEnable "OTHER" "again")) := by
  intro kept
  have last : UInt64.size = 18446744073709551615 + 1 := rfl
  have final : run (.record .systemProxyEnable "SYSPROXY" "first" ::
      List.replicate UInt64.size (.record .systemProxyEnable "OTHER" "again")) =
        ⟨[("SYSPROXY", ⟨"SYSPROXY", "first", .systemProxyEnable, 1⟩),
          ("OTHER", ⟨"OTHER", "again", .systemProxyEnable, 1⟩)], 1⟩ := by
    rw [last, run, List.foldl_cons, foldl_replicate]
    rfl
  have numbers := kept.distinct
  rw [final] at numbers
  exact absurd numbers (by decide)

/-- Requests get lost, and numbers come round. -/
theorem failures_get_lost : ¬ Kept [.record .systemProxyEnable "SYSPROXY" "asked for",
        .record .systemProxyGuard "SYSPROXY" "stopped"] ∧
      ¬ Kept (.record .systemProxyEnable "SYSPROXY" "first" ::
        List.replicate UInt64.size (.record .systemProxyEnable "OTHER" "again")) :=
  ⟨guard_takes_over, numbers_come_round⟩

end ClashVerge.Notification
