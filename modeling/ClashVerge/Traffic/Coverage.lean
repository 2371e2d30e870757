import ClashVerge.Traffic.Runs
import Mathlib.Data.List.Flatten

/-!
# What a query covers

A sample contributes to a returned point when other traffic in the sample would change that point.
Each sample of the range should contribute to one point: to itself where it is raw, or else to the
average of its batch. But the raw points are cut at the last call, and the averages at the time of
the query.
-/

namespace ClashVerge.Traffic

/-- A point that stands for samples, given by their positions. -/
def value (points : List ITrafficDataPoint) (group : List Nat) : ITrafficDataPoint :=
  (average (group.map fun index => points.getD index ⟨0, 0, 0⟩)).toPoint

def mean (timestamps : List ℚ) (group : List Nat) : ℚ :=
  (group.map fun index => timestamps.getD index 0).sum / group.length

def batches (config : ISamplingConfig) (count : Nat) : List (List Nat) :=
  Batches.closed (full config) (List.range count)

def IsRaw (config : ISamplingConfig) (history : List Addition) (query : Query) (index : Nat) : Prop :=
  Kept config history ((timestamps history).getD index 0) ∧
    back query.now query.minutes < (timestamps history).getD index 0

instance (config : ISamplingConfig) (history : List Addition) (query : Query) (index : Nat) :
    Decidable (IsRaw config history query index) :=
  inferInstanceAs (Decidable (_ ∧ _))

/-- For each returned point, the samples it stands for. -/
def parts (config : ISamplingConfig) (history : List Addition) (query : Query) : List (List Nat) :=
  let rawData := ((List.range history.length).filter fun index =>
    IsRaw config history query index).map fun index => [index]
  if query.minutes ≤ config.rawDataMinutes then rawData
  else
    ((batches config history.length).filter
        (fun group => Taken config query (mean (timestamps history) group)) ++
      rawData).mergeSort fun one other =>
        mean (timestamps history) one ≤ mean (timestamps history) other

section

variable {config : ISamplingConfig} {history : List Addition} {query : Query}

theorem map_points :
    (List.range history.length).map (fun index => (points history).getD index ⟨0, 0, 0⟩) =
      points history := by
  apply List.ext_getElem
  · simp [points]
  · intro index _ inside
    simp [List.getD, List.getElem?_eq_getElem inside]

theorem getD_timestamp (index : Nat) :
    ((points history).getD index ⟨0, 0, 0⟩).timestamp = (timestamps history).getD index 0 := by
  unfold points timestamps
  rw [List.getD_eq_getElem?_getD, List.getD_eq_getElem?_getD, List.getElem?_map, List.getElem?_map]
  cases history[index]? <;> rfl

theorem timestamp_value (group : List Nat) :
    (value (points history) group).timestamp = mean (timestamps history) group := by
  unfold value average mean ICompressedDataPoint.toPoint
  dsimp only
  rw [List.map_map, List.length_map]
  congr 2
  apply List.map_congr_left
  intro index _
  exact getD_timestamp index

theorem value_singleton (points : List ITrafficDataPoint) (index : Nat) :
    value points [index] = points.getD index ⟨0, 0, 0⟩ := by
  simp [value, average, ICompressedDataPoint.toPoint]

theorem returned_eq_parts (timely : Timely config history query) :
    returned config history query = (parts config history query).map (value (points history)) := by
  have rawData : ((points history).filter fun point =>
        Kept config history point.timestamp ∧ back query.now query.minutes < point.timestamp) =
      (((List.range history.length).filter fun index => IsRaw config history query index).map
        fun index => [index]).map (value (points history)) := by
    conv_lhs => rw [← map_points, List.filter_map]
    rw [List.map_map]
    congr 1
    · funext index
      exact (value_singleton (points history) index).symm
    · apply List.filter_congr
      intro index _
      rw [Function.comp_apply, getD_timestamp]
      rfl
  have compressedData : (((Batches.closed (full config) (points history)).map average).filter
        fun point => Taken config query point.timestamp).map ICompressedDataPoint.toPoint =
      ((batches config history.length).filter fun group =>
        Taken config query (mean (timestamps history) group)).map (value (points history)) := by
    conv_lhs => rw [← map_points, Batches.closed_map, List.map_map, List.filter_map, List.map_map]
    rw [batches]
    congr 1
    apply List.filter_congr
    intro group _
    rw [← timestamp_value]
    rfl
  rw [returned_eq timely, parts]
  dsimp only
  rw [rawData, compressedData]
  split
  · rfl
  · rw [← List.map_append, List.map_mergeSort]
    intro one _ other _
    rw [timestamp_value, timestamp_value]

end

/-! ## What a sample contributes to -/

/-- The same calls, with other traffic in one of the samples. -/
def withTraffic (history : List Addition) (index : Nat) (up down : ℚ) : List Addition :=
  history.modify index fun added => { added with point := { added.point with up, down } }

/-- Other traffic in the sample would change the returned point. -/
def Contributes (config : ISamplingConfig) (history : List Addition) (query : Query)
    (index position : Nat) : Prop :=
  ∃ up down, (returned config (withTraffic history index up down) query)[position]? ≠
    (returned config history query)[position]?

section

variable {config : ISamplingConfig} {history : List Addition} {query : Query}

theorem map_withTraffic {Reading : Type} (read : Addition → Reading)
    (same : ∀ (added : Addition) up down,
      read { added with point := { added.point with up, down } } = read added)
    (history : List Addition) (index : Nat) (up down : ℚ) :
    (withTraffic history index up down).map read = history.map read := by
  apply List.ext_getElem?
  intro other
  rw [withTraffic, List.getElem?_map, List.getElem?_map, List.getElem?_modify,
    Option.map_eq_map, Option.map_map]
  congr 1
  funext added
  split
  · exact same added up down
  · rfl

theorem timestamps_withTraffic (history : List Addition) (index : Nat) (up down : ℚ) :
    timestamps (withTraffic history index up down) = timestamps history :=
  map_withTraffic _ (fun _ _ _ => rfl) history index up down

theorem clock_withTraffic (history : List Addition) (index : Nat) (up down : ℚ) :
    clock (withTraffic history index up down) = clock history := by
  unfold clock
  rw [List.flatMap_def, List.flatMap_def, map_withTraffic _ fun _ _ _ => rfl]

theorem length_withTraffic (history : List Addition) (index : Nat) (up down : ℚ) :
    (withTraffic history index up down).length = history.length := List.length_modify ..

theorem kept_withTraffic (history : List Addition) (index : Nat) (up down timestamp : ℚ) :
    Kept config (withTraffic history index up down) timestamp ↔ Kept config history timestamp := by
  have readings (history : List Addition) : Kept config history timestamp ↔
      ∀ now ∈ history.map (·.rawNow), back now config.rawDataMinutes < timestamp := by
    rw [List.forall_mem_map]
    rfl
  rw [readings, readings, map_withTraffic _ fun _ _ _ => rfl]

theorem Timely.withTraffic (timely : Timely config history query) (index : Nat) (up down : ℚ) :
    Timely config (withTraffic history index up down) query where
  timestamps := by
    rw [timestamps_withTraffic]
    exact timely.timestamps
  clock := by
    rw [clock_withTraffic]
    exact timely.clock
  range := timely.range

theorem parts_withTraffic (history : List Addition) (index : Nat) (up down : ℚ) :
    parts config (withTraffic history index up down) query = parts config history query := by
  have rawData : ((List.range history.length).filter fun other =>
        IsRaw config (withTraffic history index up down) query other) =
      (List.range history.length).filter fun other => IsRaw config history query other := by
    apply List.filter_congr
    intro other _
    rw [decide_eq_decide, IsRaw, IsRaw, timestamps_withTraffic, kept_withTraffic]
  unfold parts
  rw [timestamps_withTraffic, length_withTraffic, rawData]

theorem getD_withTraffic (history : List Addition) {index other : Nat} (different : index ≠ other)
    (up down : ℚ) : (points (withTraffic history index up down)).getD other ⟨0, 0, 0⟩ =
      (points history).getD other ⟨0, 0, 0⟩ := by
  unfold points withTraffic
  rw [List.getD_eq_getElem?_getD, List.getD_eq_getElem?_getD, List.getElem?_map, List.getElem?_map,
    List.getElem?_modify_ne _ _ different]

theorem up_withTraffic {index : Nat} (inside : index < history.length) (up down : ℚ) :
    ((points (withTraffic history index up down)).getD index ⟨0, 0, 0⟩).up = up := by
  unfold points withTraffic
  rw [List.getD_eq_getElem?_getD, List.getElem?_map, List.getElem?_modify_eq,
    List.getElem?_eq_getElem inside]
  rfl

theorem value_withTraffic_other {group : List Nat} {index : Nat} (outside : index ∉ group)
    (up down : ℚ) :
    value (points (withTraffic history index up down)) group = value (points history) group := by
  unfold value
  congr 2
  apply List.map_congr_left
  intro other member
  apply getD_withTraffic
  rintro rfl
  exact outside member

theorem value_withTraffic_ne {group : List Nat} {index : Nat} (inside : index < history.length)
    (member : index ∈ group) :
    ∃ up down, value (points (withTraffic history index up down)) group ≠
      value (points history) group := by
  refine ⟨((points history).getD index ⟨0, 0, 0⟩).up + 1, 0, fun same => ?_⟩
  have positive : (0 : ℚ) < group.length := by
    exact_mod_cast List.length_pos_of_mem member
  have ups := congrArg ITrafficDataPoint.up same
  unfold value average ICompressedDataPoint.toPoint at ups
  dsimp only at ups
  rw [List.length_map, List.length_map, div_left_inj' positive.ne', List.map_map, List.map_map] at ups
  apply absurd ups
  apply ne_of_gt
  apply List.sum_lt_sum
  · intro other _
    by_cases here : index = other
    · subst here
      simp only [Function.comp_apply]
      rw [up_withTraffic inside]
      linarith
    · simp only [Function.comp_apply]
      rw [getD_withTraffic history here]
  · refine ⟨index, member, ?_⟩
    simp only [Function.comp_apply]
    rw [up_withTraffic inside]
    linarith

theorem contributes_iff (timely : Timely config history query) {index : Nat}
    (inside : index < history.length) (position : Nat) :
    Contributes config history query index position ↔
      ∃ part, (parts config history query)[position]? = some part ∧ index ∈ part := by
  have changed (up down : ℚ) :
      (returned config (withTraffic history index up down) query)[position]? =
        ((parts config history query)[position]?).map
          (value (points (withTraffic history index up down))) := by
    rw [returned_eq_parts (timely.withTraffic index up down), parts_withTraffic, List.getElem?_map]
  unfold Contributes
  simp only [changed]
  rw [returned_eq_parts timely, List.getElem?_map]
  cases found : (parts config history query)[position]? with
  | none => simp
  | some part =>
    simp only [Option.map_some, ne_eq, Option.some_inj, exists_eq_left']
    constructor
    · rintro ⟨up, down, different⟩
      by_contra outside
      exact different (value_withTraffic_other outside up down)
    · intro member
      exact value_withTraffic_ne inside member

end

/-! ## How often a sample counts -/

/-- A sample that a query takes in the average of its batch. -/
def IsCompressed (config : ISamplingConfig) (history : List Addition) (query : Query)
    (index : Nat) : Prop :=
  config.rawDataMinutes < query.minutes ∧ ∃ group ∈ batches config history.length,
    index ∈ group ∧ Taken config query (mean (timestamps history) group)

section

variable {config : ISamplingConfig} {history : List Addition} {query : Query}

theorem nodup_batches (config : ISamplingConfig) (count : Nat) :
    ((batches config count).flatten ++ Batches.pending (full config) (List.range count)).Nodup := by
  rw [batches, Batches.flatten_closed]
  exact List.nodup_range

theorem countP_raw {index : Nat} (inside : index < history.length) :
    (((List.range history.length).filter fun index => IsRaw config history query index).map
      fun index => [index]).countP (fun part => index ∈ part) =
        if IsRaw config history query index then 1 else 0 := by
  have flat : (((List.range history.length).filter fun index =>
        IsRaw config history query index).map fun index => [index]).flatten =
      (List.range history.length).filter fun index => IsRaw config history query index := by
    rw [← List.flatMap_def, List.flatMap_singleton']
  rw [Batches.countP_mem, flat]
  · simp [inside]
  · rw [flat]
    exact List.nodup_range.filter _

open Classical in
theorem countP_parts {index : Nat} (inside : index < history.length) :
    (parts config history query).countP (fun part => index ∈ part) =
      (if IsRaw config history query index then 1 else 0) +
        if IsCompressed config history query index then 1 else 0 := by
  unfold parts IsCompressed
  dsimp only
  split
  · rename_i short
    rw [countP_raw inside, if_neg (show ¬ (config.rawDataMinutes < query.minutes ∧ _) from
      fun long => absurd long.1 (not_lt.mpr short)), Nat.add_zero]
  · rename_i long
    have distinct : ((batches config history.length).filter fun group =>
        Taken config query (mean (timestamps history) group)).flatten.Nodup :=
      (List.nodup_append.mp (nodup_batches config history.length)).1.sublist
        List.filter_sublist.flatten
    rw [(List.mergeSort_perm _ _).countP_eq, List.countP_append, countP_raw inside,
      Batches.countP_mem distinct, Nat.add_comm]
    congr 2
    rw [List.mem_flatten, and_iff_right (not_le.mp long), eq_iff_iff]
    apply exists_congr
    intro group
    rw [List.mem_filter, decide_eq_true_iff, and_assoc]
    exact and_congr_right fun _ => and_comm

theorem contributes_once_iff (timely : Timely config history query) {index : Nat}
    (inside : index < history.length) :
    (∃! position, Contributes config history query index position) ↔
      (IsRaw config history query index ↔ ¬ IsCompressed config history query index) := by
  have positions : (∃! position, Contributes config history query index position) ↔
      (parts config history query).countP (fun part => index ∈ part) = 1 := by
    rw [Batches.countP_eq_one_iff]
    simp only [contributes_iff timely inside, decide_eq_true_eq]
  rw [positions, countP_parts inside]
  by_cases raw : IsRaw config history query index
  · by_cases compressed : IsCompressed config history query index
    · simp [raw, compressed]
    · simp [raw, compressed]
  · by_cases compressed : IsCompressed config history query index
    · simp [raw, compressed]
    · simp [raw, compressed]

end

/-! ## When each sample counts once -/

/-- Each sample of the range contributes to one returned point, so that none is counted again; a
sample contributes only to itself and to the average of its batch; and the points are sorted. -/
structure CoversOnce (config : ISamplingConfig) (history : List Addition) (query : Query) : Prop where
  once : ∀ index added, history[index]? = some added →
    back query.now query.minutes < added.point.timestamp →
      ∃! position, Contributes config history query index position
  source : ∀ index added position, history[index]? = some added →
    Contributes config history query index position →
      (returned config history query)[position]? = some added.point ∨
        ∃ group ∈ batches config history.length, index ∈ group ∧
          (returned config history query)[position]? = some (value (points history) group)
  sorted : (returned config history query).Pairwise
    fun one other => one.timestamp ≤ other.timestamp

/-- The range does not reach beyond the raw points; or no sample of it that waits for its batch has
left the raw buffer, and of each batch with samples of the range either all samples have left it, and
the average is of the range, or no sample of the range has, and the average is not taken. -/
def Aligned (config : ISamplingConfig) (history : List Addition) (query : Query) : Prop :=
  query.minutes ≤ config.rawDataMinutes ∨
    (∀ time ∈ Batches.pending (full config) (timestamps history),
      back query.now query.minutes < time → Kept config history time) ∧
    ∀ batch ∈ Batches.closed (full config) (timestamps history),
      (∃ time ∈ batch, back query.now query.minutes < time) →
        (∀ time ∈ batch, ¬ Kept config history time) ∧
            back query.now query.minutes < batch.sum / batch.length ∨
          (∀ time ∈ batch, back query.now query.minutes < time → Kept config history time) ∧
            ¬ Taken config query (batch.sum / batch.length)

instance (config : ISamplingConfig) (history : List Addition) (query : Query) :
    Decidable (Aligned config history query) :=
  inferInstanceAs (Decidable (_ ∨ (∀ _ ∈ _, _) ∧ ∀ _ ∈ _, _))

section

variable {config : ISamplingConfig} {history : List Addition} {query : Query}

theorem map_timestamps :
    (List.range history.length).map (fun index => (timestamps history).getD index 0) =
      timestamps history := by
  apply List.ext_getElem
  · simp [timestamps]
  · intro index _ inside
    simp [List.getD, List.getElem?_eq_getElem inside]

theorem taken_of_left (timely : Timely config history query) {batch : List ℚ} (nonempty : batch ≠ [])
    (left : ∀ time ∈ batch, ¬ Kept config history time)
    (new : back query.now query.minutes < batch.sum / batch.length) :
    Taken config query (batch.sum / batch.length) := by
  refine ⟨new, ?_⟩
  have positive : (0 : ℚ) < batch.length := by
    exact_mod_cast List.length_pos_iff.mpr nonempty
  have total := List.sum_le_card_nsmul batch (back query.upperNow config.rawDataMinutes) (by
    intro time member
    have out := left time member
    unfold Kept at out
    push Not at out
    obtain ⟨added, called, old⟩ := out
    refine le_trans old (back_le_back ?_)
    exact le_trans (timely.before called).1 timely.asked)
  rw [nsmul_eq_mul] at total
  rw [div_le_iff₀ positive]
  linarith

theorem kept_of_short (timely : Timely config history query)
    (short : query.minutes ≤ config.rawDataMinutes) {time : ℚ}
    (new : back query.now query.minutes < time) : Kept config history time := by
  intro added called
  have later := (timely.before called).1
  unfold back at new ⊢
  linarith

theorem Kept.newer {time other : ℚ} (kept : Kept config history time) (le : time ≤ other) :
    Kept config history other := fun added called => lt_of_lt_of_le (kept added called) le

theorem batch_iff (timely : Timely config history query) {batch : List ℚ} (nonempty : batch ≠ []) :
    (∀ time ∈ batch, back query.now query.minutes < time →
      (Kept config history time ↔ ¬ Taken config query (batch.sum / batch.length))) ↔
    ((∃ time ∈ batch, back query.now query.minutes < time) →
      (∀ time ∈ batch, ¬ Kept config history time) ∧
          back query.now query.minutes < batch.sum / batch.length ∨
        (∀ time ∈ batch, back query.now query.minutes < time → Kept config history time) ∧
          ¬ Taken config query (batch.sum / batch.length)) := by
  constructor
  · rintro each ⟨time, member, new⟩
    by_cases taken : Taken config query (batch.sum / batch.length)
    · left
      refine ⟨fun other memberToo kept => ?_, taken.1⟩
      by_cases newToo : back query.now query.minutes < other
      · exact (each other memberToo newToo).mp kept taken
      · have older : other ≤ time := le_of_lt (lt_of_le_of_lt (not_lt.mp newToo) new)
        exact (each time member new).mp (kept.newer older) taken
    · right
      exact ⟨fun other memberToo newToo => (each other memberToo newToo).mpr taken, taken⟩
  · intro either time member new
    obtain ⟨left, newMean⟩ | ⟨kept, untaken⟩ := either ⟨time, member, new⟩
    · exact iff_of_false (left time member) (not_not.mpr (taken_of_left timely nonempty left newMean))
    · exact iff_of_true (kept time member new) untaken

theorem isCompressed_iff (long : config.rawDataMinutes < query.minutes) {group : List Nat}
    (closed : group ∈ batches config history.length) {index : Nat} (member : index ∈ group) :
    IsCompressed config history query index ↔
      Taken config query (mean (timestamps history) group) := by
  have distinct := (List.nodup_append.mp (nodup_batches config history.length)).1
  constructor
  · rintro ⟨-, other, closedToo, memberToo, taken⟩
    rwa [Batches.eq_of_mem distinct closed closedToo member memberToo]
  · intro taken
    exact ⟨long, group, closed, member, taken⟩

theorem not_isCompressed {index : Nat}
    (waits : index ∈ Batches.pending (full config) (List.range history.length)) :
    ¬ IsCompressed config history query index := by
  rintro ⟨-, group, closed, member, -⟩
  have apart := (List.nodup_append.mp (nodup_batches config history.length)).2.2
  exact apart index (List.mem_flatten.mpr ⟨group, closed, member⟩) index waits rfl

theorem aligned_iff (timely : Timely config history query) :
    (∀ index < history.length, back query.now query.minutes < (timestamps history).getD index 0 →
      (IsRaw config history query index ↔ ¬ IsCompressed config history query index)) ↔
    Aligned config history query := by
  unfold Aligned
  by_cases short : query.minutes ≤ config.rawDataMinutes
  · apply iff_of_true
    · intro index _ new
      apply iff_of_true
      · exact ⟨kept_of_short timely short new, new⟩
      · exact fun compressed => absurd compressed.1 (not_lt.mpr short)
    · exact .inl short
  · rw [or_iff_right short]
    have long := not_le.mp short
    have groups : Batches.closed (full config) (timestamps history) =
        (batches config history.length).map (List.map fun index =>
          (timestamps history).getD index 0) := by
      rw [batches, ← Batches.closed_map, map_timestamps]
    have waiting : Batches.pending (full config) (timestamps history) =
        (Batches.pending (full config) (List.range history.length)).map fun index =>
          (timestamps history).getD index 0 := by
      rw [← Batches.pending_map, map_timestamps]
    rw [groups, waiting, List.forall_mem_map, List.forall_mem_map]
    have samples (index : Nat) : index < history.length ↔
        (∃ group ∈ batches config history.length, index ∈ group) ∨
          index ∈ Batches.pending (full config) (List.range history.length) := by
      rw [← List.mem_range, ← List.mem_flatten, ← List.mem_append, batches, Batches.flatten_closed]
    constructor
    · intro each
      constructor
      · intro index waits new
        exact ((each index ((samples index).mpr (.inr waits)) new).mpr (not_isCompressed waits)).1
      · intro group closed
        rw [← batch_iff timely (by simpa using Batches.closed_ne_nil _ closed), List.forall_mem_map]
        intro index member new
        have once := each index ((samples index).mpr (.inl ⟨group, closed, member⟩)) new
        rw [isCompressed_iff long closed member, IsRaw, and_iff_left new, mean] at once
        rwa [List.length_map]
    · rintro ⟨waiting, closed⟩ index inside new
      obtain ⟨group, isClosed, member⟩ | waits := (samples index).mp inside
      · have once := (batch_iff timely
          (by simpa using Batches.closed_ne_nil _ isClosed)).mpr (closed group isClosed) _
            (List.mem_map_of_mem member) new
        rw [List.length_map] at once
        rwa [isCompressed_iff long isClosed member, IsRaw, and_iff_left new, mean]
      · exact iff_of_true ⟨waiting index waits new, new⟩ (not_isCompressed waits)

theorem getElem?_timestamps {index : Nat} {added : Addition} (found : history[index]? = some added) :
    (timestamps history).getD index 0 = added.point.timestamp ∧
      (points history).getD index ⟨0, 0, 0⟩ = added.point := by
  unfold timestamps points
  rw [List.getD_eq_getElem?_getD, List.getD_eq_getElem?_getD, List.getElem?_map, List.getElem?_map,
    found]
  exact ⟨rfl, rfl⟩

theorem mem_parts {part : List Nat} (member : part ∈ parts config history query) :
    (∃ index, part = [index]) ∨ part ∈ batches config history.length := by
  unfold parts at member
  dsimp only at member
  split at member
  · obtain ⟨index, -, rfl⟩ := List.mem_map.mp member
    exact .inl ⟨index, rfl⟩
  · rw [List.mem_mergeSort, List.mem_append] at member
    obtain closed | raw := member
    · exact .inr (List.mem_filter.mp closed).1
    · obtain ⟨index, -, rfl⟩ := List.mem_map.mp raw
      exact .inl ⟨index, rfl⟩

theorem contributes_source (timely : Timely config history query) {index position : Nat}
    {added : Addition} (found : history[index]? = some added)
    (contributes : Contributes config history query index position) :
    (returned config history query)[position]? = some added.point ∨
      ∃ group ∈ batches config history.length, index ∈ group ∧
        (returned config history query)[position]? = some (value (points history) group) := by
  have inside : index < history.length := (List.getElem?_eq_some_iff.mp found).1
  obtain ⟨part, there, member⟩ := (contributes_iff timely inside position).mp contributes
  rw [returned_eq_parts timely, List.getElem?_map, there, Option.map_some]
  obtain ⟨only, rfl⟩ | closed := mem_parts (List.mem_of_getElem? there)
  · left
    obtain rfl := List.mem_singleton.mp member
    rw [value_singleton, (getElem?_timestamps found).2]
  · exact .inr ⟨part, closed, member, rfl⟩

theorem returned_sorted (timely : Timely config history query) :
    (returned config history query).Pairwise fun one other => one.timestamp ≤ other.timestamp := by
  rw [returned_eq timely]
  dsimp only
  split
  · exact timely.ordered.points.filter _
  · refine (List.pairwise_mergeSort ?_ ?_ _).imp fun le => of_decide_eq_true le
    · intro one other third le leToo
      exact decide_eq_true (le_trans (of_decide_eq_true le) (of_decide_eq_true leToo))
    · intro one other
      rw [Bool.or_eq_true, decide_eq_true_iff, decide_eq_true_iff]
      exact le_total _ _

theorem aligned_of_coversOnce (timely : Timely config history query)
    (covers : CoversOnce config history query) : Aligned config history query := by
  rw [← aligned_iff timely]
  intro index inside new
  have found := List.getElem?_eq_getElem inside
  rw [(getElem?_timestamps found).1] at new
  exact (contributes_once_iff timely inside).mp (covers.once index _ found new)

end

/-- Each sample of the range is covered once just if the batches are aligned with the buffers. -/
theorem coversOnce_iff (config : ISamplingConfig) (history : List Addition) (query : Query)
    (timely : Timely config history query) :
    CoversOnce config history query ↔ Aligned config history query := by
  constructor
  · exact aligned_of_coversOnce timely
  · intro aligned
    refine ⟨fun index added found new => ?_, fun index added position found contributes =>
      contributes_source timely found contributes, returned_sorted timely⟩
    have inside : index < history.length := (List.getElem?_eq_some_iff.mp found).1
    rw [contributes_once_iff timely inside]
    rw [← (getElem?_timestamps found).1] at new
    exact (aligned_iff timely).mpr aligned index inside new

def graphConfig : ISamplingConfig where
  rawDataMinutes := 10
  compressedDataMinutes := 60
  compressionRatio := 5

/-- A sample that is added when it is taken. -/
def sample (up now : ℚ) : Addition := ⟨⟨up, 0, now⟩, now, now⟩

/-- Of five samples in the first minute, asked for after a quarter of an hour and one sample more. -/
theorem five_samples_covered : CoversOnce graphConfig
    [sample 1 0, sample 2 1000, sample 3 2000, sample 4 3000, sample 5 4000, sample 6 900000]
    ⟨60, 900000, 900000⟩ :=
  (coversOnce_iff _ _ _ ⟨by decide, by decide, by decide⟩).mpr (by decide +kernel)

/-- A sample that waits for its batch is lost when it has left the raw buffer. -/
theorem waiting_sample_lost :
    ¬ ∀ history query, Timely graphConfig history query → CoversOnce graphConfig history query := by
  intro covers
  have timely : Timely graphConfig [sample 1 0, sample 2 900000] ⟨60, 900000, 900000⟩ :=
    ⟨by decide, by decide, by decide⟩
  have aligned := aligned_of_coversOnce timely (covers _ _ timely)
  exact absurd aligned (by decide +kernel)

end ClashVerge.Traffic
