import ClashVerge.Library.Batches
import ClashVerge.Traffic.Sampler
import Mathlib.Algebra.Order.BigOperators.Group.List
import Mathlib.Algebra.Order.Field.Basic
import Mathlib.Tactic.Linarith

/-!
# What the sampler keeps

When points come in the order of their times, trimming removes just the points that are old. The raw
buffer then has the points that no call has found too old, the other buffer the averages of the
batches that are, and the queue the points of the last, open batch.
-/

namespace ClashVerge.Traffic

open MovingHead (Buffer dropWhile_eq_filter dropWhile_filter_append)

def full (config : ISamplingConfig) (length : Nat) : Bool := config.compressionRatio ≤ length

section

variable (history : List Addition)

def points : List ITrafficDataPoint := history.map (·.point)

def timestamps : List ℚ := history.map (·.point.timestamp)

def clock : List ℚ := history.flatMap fun added => [added.rawNow, added.compressedNow]

end

/-- No call found a point of this time too old for the raw buffer. -/
def Kept (config : ISamplingConfig) (history : List Addition) (timestamp : ℚ) : Prop :=
  ∀ added ∈ history, back added.rawNow config.rawDataMinutes < timestamp

instance (config : ISamplingConfig) (history : List Addition) (timestamp : ℚ) :
    Decidable (Kept config history timestamp) :=
  inferInstanceAs (Decidable (∀ added ∈ history, _))

/-- No call found an average of this time too old. -/
def KeptAverage (config : ISamplingConfig) (history : List Addition) (timestamp : ℚ) : Prop :=
  ∀ added ∈ history, back added.compressedNow config.compressedDataMinutes < timestamp

instance (config : ISamplingConfig) (history : List Addition) (timestamp : ℚ) :
    Decidable (KeptAverage config history timestamp) :=
  inferInstanceAs (Decidable (∀ added ∈ history, _))

/-! ## Averages -/

section

variable {queue later : List ITrafficDataPoint} {bound : ℚ}

theorem timestamp_average_le (nonempty : queue ≠ [])
    (all : ∀ point ∈ queue, point.timestamp ≤ bound) : (average queue).timestamp ≤ bound := by
  have positive : (0 : ℚ) < queue.length := by
    exact_mod_cast List.length_pos_iff.mpr nonempty
  have total := List.sum_le_card_nsmul (queue.map (·.timestamp)) bound (by simpa using all)
  rw [List.length_map, nsmul_eq_mul] at total
  rw [average, div_le_iff₀ positive]
  linarith

theorem le_timestamp_average (nonempty : queue ≠ [])
    (all : ∀ point ∈ queue, bound ≤ point.timestamp) : bound ≤ (average queue).timestamp := by
  have positive : (0 : ℚ) < queue.length := by
    exact_mod_cast List.length_pos_iff.mpr nonempty
  have total := List.card_nsmul_le_sum (queue.map (·.timestamp)) bound (by simpa using all)
  rw [List.length_map, nsmul_eq_mul] at total
  rw [average, le_div_iff₀ positive]
  linarith

theorem average_le_average (nonempty : queue ≠ []) (nonemptyToo : later ≠ [])
    (ordered : ∀ point ∈ queue, ∀ other ∈ later, point.timestamp ≤ other.timestamp) :
    (average queue).timestamp ≤ (average later).timestamp := by
  apply timestamp_average_le nonempty
  intro point member
  apply le_timestamp_average nonemptyToo
  exact ordered point member

end

/-! ## One call -/

section

variable (sampler : TrafficDataSampler) (config : ISamplingConfig) (added : Addition)

theorem live_rawBuffer_addDataPoint : (sampler.addDataPoint config added).rawBuffer.live =
      (sampler.rawBuffer.live ++ [added.point]).dropWhile
        (·.timestamp ≤ back added.rawNow config.rawDataMinutes) := by
  unfold TrafficDataSampler.addDataPoint TrafficDataSampler.compressData
  dsimp only
  split
  · split
    · simp
    · simp
  · simp

theorem compression_addDataPoint : ((sampler.addDataPoint config added).compressionQueue,
      (sampler.addDataPoint config added).compressedBuffer.live) =
    if full config (sampler.compressionQueue ++ [added.point]).length then
      ([], (sampler.compressedBuffer.live ++
        [average (sampler.compressionQueue ++ [added.point])]).dropWhile
          (·.timestamp ≤ back added.compressedNow config.compressedDataMinutes))
    else (sampler.compressionQueue ++ [added.point], sampler.compressedBuffer.live.dropWhile
      (·.timestamp ≤ back added.compressedNow config.compressedDataMinutes)) := by
  unfold TrafficDataSampler.addDataPoint TrafficDataSampler.compressData full
  dsimp only
  rw [if_neg (show ¬ (sampler.compressionQueue ++ [added.point]).length = 0 by simp)]
  split
  · rename_i enough
    rw [if_pos (decide_eq_true enough)]
    simp
  · rename_i few
    rw [if_neg (by simpa using few)]
    simp

end

/-! ## A run of calls -/

/-- The points come in the order of their times, and the clock does not go back. -/
structure Ordered (history : List Addition) : Prop where
  timestamps : (timestamps history).Pairwise (· ≤ ·)
  clock : (clock history).Pairwise (· ≤ ·)

structure Holds (config : ISamplingConfig) (history : List Addition)
    (sampler : TrafficDataSampler) : Prop where
  raw : sampler.rawBuffer.live =
    (points history).filter fun point => Kept config history point.timestamp
  compressed : sampler.compressedBuffer.live =
    ((Batches.closed (full config) (points history)).map average).filter
      fun point => KeptAverage config history point.timestamp
  queue : sampler.compressionQueue = Batches.pending (full config) (points history)

section

variable {config : ISamplingConfig} {history : List Addition} {added : Addition}

theorem points_concat : points (history ++ [added]) = points history ++ [added.point] := by
  rw [points, List.map_append, List.map_singleton]
  rfl

theorem Ordered.points (ordered : Ordered history) :
    (points history).Pairwise fun one other => one.timestamp ≤ other.timestamp := by
  have times := ordered.timestamps
  rw [Traffic.timestamps, List.pairwise_map] at times
  rw [Traffic.points, List.pairwise_map]
  exact times

variable (config) in
theorem Ordered.averages (ordered : Ordered history) :
    ((Batches.closed (full config) (Traffic.points history)).map average).Pairwise
      fun one other => one.timestamp ≤ other.timestamp := by
  rw [List.pairwise_map]
  refine (Batches.pairwise_closed (full config) ordered.points).imp_of_mem ?_
  intro one other member memberToo before
  exact average_le_average (Batches.closed_ne_nil _ member) (Batches.closed_ne_nil _ memberToo) before

theorem back_le_back {now later minutes : ℚ} (le : now ≤ later) :
    back now minutes ≤ back later minutes := sub_le_sub_right le _

theorem Ordered.before (ordered : Ordered (history ++ [added])) {earlier : Addition}
    (member : earlier ∈ history) :
    earlier.rawNow ≤ added.rawNow ∧ earlier.compressedNow ≤ added.compressedNow := by
  have times := ordered.clock
  rw [Traffic.clock, List.flatMap_append, List.pairwise_append] at times
  constructor
  · apply times.2.2
    · exact List.mem_flatMap.mpr ⟨earlier, member, by simp⟩
    · simp
  · apply times.2.2
    · exact List.mem_flatMap.mpr ⟨earlier, member, by simp⟩
    · simp

/-- What every moment so far is held to, the last one decides. -/
theorem forall_concat {moment : Addition → ℚ} {minutes timestamp : ℚ}
    (grows : ∀ earlier ∈ history, moment earlier ≤ moment added) :
    (∀ each ∈ history ++ [added], back (moment each) minutes < timestamp) ↔
      back (moment added) minutes < timestamp := by
  constructor
  · exact fun kept => kept added (by simp)
  · intro last earlier member
    obtain before | same := List.mem_append.mp member
    · exact lt_of_le_of_lt (back_le_back (grows earlier before)) last
    · rwa [List.mem_singleton.mp same]

variable (config) in
theorem kept_concat (ordered : Ordered (history ++ [added])) (timestamp : ℚ) :
    Kept config (history ++ [added]) timestamp ↔
      back added.rawNow config.rawDataMinutes < timestamp :=
  forall_concat fun _ before => (ordered.before before).1

variable (config) in
theorem keptAverage_concat (ordered : Ordered (history ++ [added])) (timestamp : ℚ) :
    KeptAverage config (history ++ [added]) timestamp ↔
      back added.compressedNow config.compressedDataMinutes < timestamp :=
  forall_concat fun _ before => (ordered.before before).2

theorem Holds.step {sampler : TrafficDataSampler} (holds : Holds config history sampler)
    (ordered : Ordered (history ++ [added])) :
    Holds config (history ++ [added]) (sampler.addDataPoint config added) := by
  have compression := compression_addDataPoint sampler config added
  rw [holds.queue, holds.compressed] at compression
  have averages := ordered.averages config
  rw [points_concat, Batches.closed_concat] at averages
  have still : ∀ point : ICompressedDataPoint,
      back added.compressedNow config.compressedDataMinutes < point.timestamp →
        decide (KeptAverage config history point.timestamp) = true := by
    intro point live
    have all := (keptAverage_concat config ordered point.timestamp).mpr live
    exact decide_eq_true fun earlier member => all earlier (List.mem_append_left _ member)
  constructor
  · rw [live_rawBuffer_addDataPoint, holds.raw, points_concat]
    simp only [kept_concat config ordered]
    apply dropWhile_filter_append
    · rw [← points_concat]
      exact ordered.points
    · intro point live
      have all := (kept_concat config ordered point.timestamp).mpr live
      exact decide_eq_true fun earlier member => all earlier (List.mem_append_left _ member)
  · rw [points_concat, Batches.closed_concat]
    simp only [keptAverage_concat config ordered]
    split at compression
    · rename_i enough
      rw [if_pos enough] at averages ⊢
      rw [(Prod.mk.inj compression).2, List.map_append, List.map_singleton]
      apply dropWhile_filter_append
      · rwa [List.map_append, List.map_singleton] at averages
      · exact still
    · rename_i few
      rw [if_neg few] at averages ⊢
      rw [(Prod.mk.inj compression).2]
      rw [← List.append_nil (List.map average _)] at averages
      have trimmed := dropWhile_filter_append averages still
      rwa [List.append_nil, List.append_nil] at trimmed
  · rw [points_concat, Batches.pending_concat]
    split at compression
    · rename_i enough
      rw [if_pos enough]
      exact (Prod.mk.inj compression).1
    · rename_i few
      rw [if_neg few]
      exact (Prod.mk.inj compression).1

theorem Ordered.earlier (ordered : Ordered (history ++ [added])) : Ordered history where
  timestamps := by
    have times := ordered.timestamps
    rw [Traffic.timestamps, List.map_append] at times
    exact (List.pairwise_append.mp times).1
  clock := by
    have times := ordered.clock
    rw [Traffic.clock, List.flatMap_append] at times
    exact (List.pairwise_append.mp times).1

theorem sampled_holds (config : ISamplingConfig) {history : List Addition}
    (ordered : Ordered history) : Holds config history (sampled config history) := by
  induction history using List.reverseRecOn with
  | nil => exact ⟨rfl, rfl, rfl⟩
  | append_singleton history added ih =>
    rw [sampled, List.foldl_append]
    exact (ih ordered.earlier).step ordered

end

/-! ## One query -/

/-- The points come in the order of their times, the clock does not go back, and the range is one
that the sampler is set up for. -/
structure Timely (config : ISamplingConfig) (history : List Addition) (query : Query) : Prop where
  timestamps : (timestamps history).Pairwise (· ≤ ·)
  clock : (clock history ++ [query.now, query.upperNow]).Pairwise (· ≤ ·)
  range : query.minutes ≤ config.compressedDataMinutes

/-- The averages that a query takes, if it reaches beyond the raw points. -/
def Taken (config : ISamplingConfig) (query : Query) (timestamp : ℚ) : Prop :=
  back query.now query.minutes < timestamp ∧
    timestamp ≤ back query.upperNow config.rawDataMinutes

instance (config : ISamplingConfig) (query : Query) (timestamp : ℚ) :
    Decidable (Taken config query timestamp) :=
  inferInstanceAs (Decidable (_ ∧ _))

def ICompressedDataPoint.toPoint (p : ICompressedDataPoint) : ITrafficDataPoint :=
  ⟨p.up, p.down, p.timestamp⟩

section

variable {config : ISamplingConfig} {history : List Addition} {query : Query}

section

variable (timely : Timely config history query)
include timely

theorem Timely.ordered : Ordered history :=
  ⟨timely.timestamps, (List.pairwise_append.mp timely.clock).1⟩

theorem Timely.asked : query.now ≤ query.upperNow := by
  have last := (List.pairwise_append.mp timely.clock).2.1
  simpa using last

theorem Timely.before {added : Addition}
    (member : added ∈ history) : added.rawNow ≤ query.now ∧ added.compressedNow ≤ query.now := by
  have times := (List.pairwise_append.mp timely.clock).2.2
  constructor
  · apply times
    · exact List.mem_flatMap.mpr ⟨added, member, by simp⟩
    · simp
  · apply times
    · exact List.mem_flatMap.mpr ⟨added, member, by simp⟩
    · simp

theorem Timely.keptAverage {timestamp : ℚ}
    (new : back query.now query.minutes < timestamp) : KeptAverage config history timestamp := by
  intro added member
  have later := (timely.before member).2
  have range := timely.range
  unfold back at new ⊢
  linarith

theorem returned_eq : returned config history query =
      let rawData := (points history).filter fun point =>
        Kept config history point.timestamp ∧ back query.now query.minutes < point.timestamp
      if query.minutes ≤ config.rawDataMinutes then rawData
      else
        ((((Batches.closed (full config) (points history)).map average).filter
          fun point => Taken config query point.timestamp).map ICompressedDataPoint.toPoint ++
            rawData).mergeSort fun one other => one.timestamp ≤ other.timestamp := by
  have holds := sampled_holds config timely.ordered
  have rawData : ((sampled config history).rawBuffer.trim
        (·.timestamp ≤ back query.now query.minutes)).live =
      (points history).filter fun point =>
        Kept config history point.timestamp ∧ back query.now query.minutes < point.timestamp := by
    rw [Buffer.live_trim, holds.raw, dropWhile_eq_filter (timely.ordered.points.filter _),
      List.filter_filter]
    apply List.filter_congr
    intro point _
    rw [Bool.decide_and, Bool.and_comm]
  have compressedData : (((sampled config history).compressedBuffer.trim
        (·.timestamp ≤ back query.now query.minutes)).live.filter
          (·.timestamp ≤ back query.upperNow config.rawDataMinutes)) =
      ((Batches.closed (full config) (points history)).map average).filter
        fun point => Taken config query point.timestamp := by
    rw [Buffer.live_trim, holds.compressed, dropWhile_eq_filter ((timely.ordered.averages config).filter _),
      List.filter_filter, List.filter_filter]
    apply List.filter_congr
    intro point _
    by_cases new : back query.now query.minutes < point.timestamp
    · simp [Taken, new, timely.keptAverage new]
    · simp [Taken, new]
  unfold returned TrafficDataSampler.getDataForTimeRange
  dsimp only
  rw [rawData, compressedData]
  rfl

end

end

end ClashVerge.Traffic
