import Mathlib.Data.List.Sort

/-!
# The tree of the processes

A snapshot is a hash map from pids to processes, so it is listed in any order. The builder descends
from the roots in the order of their pids, and then from whatever has not been visited in the order
of the map, which decides which process of a cycle is on top.
-/

namespace ClashVerge.Telemetry

variable {Name : Type}

structure RawProcessInfo (Name : Type) where
  pid : Nat
  parentPid : Nat
  name : Name
  imagePath : Option Name
deriving DecidableEq, Repr

/-- The fields of a node that a snapshot does not decide are left out. -/
inductive AppProxyProcessNode (Name : Type) where
  | node (process : RawProcessInfo Name) (children : List (AppProxyProcessNode Name))

/-- The values of `proc_map` in the order of its iteration. -/
abbrev Snapshot (Name : Type) : Type := List (RawProcessInfo Name)

abbrev Forest (Name : Type) : Type := List (AppProxyProcessNode Name)

namespace AppProxyProcessNode

def process : AppProxyProcessNode Name → RawProcessInfo Name
  | node process _ => process

def children : AppProxyProcessNode Name → Forest Name
  | node _ children => children

@[simp] theorem process_node (process : RawProcessInfo Name) (children : Forest Name) :
    (node process children).process = process := rfl

end AppProxyProcessNode

mutual

def allOf : AppProxyProcessNode Name → Forest Name
  | .node process children => .node process children :: allNodes children

def allNodes : Forest Name → Forest Name
  | [] => []
  | node :: rest => allOf node ++ allNodes rest

end

section

variable [LinearOrder Name]

/-- The order of `sort_by`: by name, then by pid. -/
def Before (first second : RawProcessInfo Name) : Prop :=
  first.name < second.name ∨ first.name = second.name ∧ first.pid ≤ second.pid

instance (first second : RawProcessInfo Name) : Decidable (Before first second) :=
  inferInstanceAs (Decidable (_ ∨ _))

def sortNodes (nodes : Forest Name) : Forest Name :=
  nodes.insertionSort fun first second => Before first.process second.process

/-- A loop that builds from one pid after another. -/
def buildAll (build : Nat → List Nat → Option (Option (AppProxyProcessNode Name) × List Nat)) :
    List Nat → Forest Name → List Nat → Option (Forest Name × List Nat)
  | [], nodes, visited => some (nodes, visited)
  | pid :: rest, nodes, visited =>
    (build pid visited).bind fun (node, visited) =>
      buildAll build rest (nodes ++ node.toList) visited

variable (snapshot : Snapshot Name)

/-- `children_map`. -/
def childPids (pid : Nat) : List Nat :=
  (snapshot.filter fun process => process.parentPid = pid).map RawProcessInfo.pid

/-- `build_node`, with a bound on the depth. There is no result where the bound is too small. -/
def buildNode : Nat → Nat → List Nat → Option (Option (AppProxyProcessNode Name) × List Nat)
  | 0, _, _ => none
  | depth + 1, pid, visited =>
    if pid ∈ visited then some (none, visited)
    else
      match snapshot.find? fun process => process.pid = pid with
      | none => some (none, pid :: visited)
      | some process =>
        (buildAll (buildNode depth) (childPids snapshot pid) [] (pid :: visited)).map
          fun (children, visited) => (some (.node process (sortNodes children)), visited)

def IsRoot (process : RawProcessInfo Name) : Prop :=
  process.parentPid = 0 ∨ process.parentPid ∉ snapshot.map RawProcessInfo.pid ∨
    process.pid = process.parentPid

instance (process : RawProcessInfo Name) : Decidable (IsRoot snapshot process) :=
  inferInstanceAs (Decidable (_ ∨ _))

def rootPids : List Nat :=
  ((snapshot.filter fun process => IsRoot snapshot process).map RawProcessInfo.pid).insertionSort (· ≤ ·)

/-- No path of the builder has more processes than the snapshot. -/
def getSystemProcessTree : Option (Forest Name) :=
  let build := buildNode snapshot (snapshot.length + 1)
  (buildAll build (rootPids snapshot) [] []).bind fun (roots, visited) =>
    (buildAll (fun pid visited => if pid ∈ visited then some (none, visited) else build pid visited)
      (snapshot.map RawProcessInfo.pid) roots visited).map fun (roots, _) => sortNodes roots

/-! ## What is claimed of the tree -/

/-- Going from parent to parent, a root is reached. -/
inductive Rooted : Nat → Prop where
  | root {process : RawProcessInfo Name} (listed : process ∈ snapshot)
      (root : IsRoot snapshot process) : Rooted process.pid
  | child {process : RawProcessInfo Name} (listed : process ∈ snapshot)
      (parent : Rooted process.parentPid) : Rooted process.pid

structure Faithful (forest : Forest Name) : Prop where
  once : ((allNodes forest).map (·.process)).Perm snapshot
  links : ∀ tree ∈ allNodes forest, ∀ child ∈ tree.children,
    child.process.parentPid = tree.process.pid
  hangs : ∀ process ∈ snapshot, Rooted snapshot process.pid → ¬IsRoot snapshot process →
    ∃ tree ∈ allNodes forest, tree.process.pid = process.parentPid ∧
      process ∈ tree.children.map (·.process)
  sorted : (forest.map (·.process)).Pairwise Before
  sortedBelow : ∀ tree ∈ allNodes forest, (tree.children.map (·.process)).Pairwise Before

/-- One faithful forest comes out of every order of the map. -/
def HasOneTree : Prop :=
  ∃ forest, Faithful snapshot forest ∧
    ∀ order : Snapshot Name, order.Perm snapshot → getSystemProcessTree order = some forest

end

/-! ## Nodes and their children -/

mutual

theorem allOf_perm : (tree : AppProxyProcessNode Name) →
    (allOf tree).Perm (tree :: (allOf tree).flatMap AppProxyProcessNode.children)
  | .node process children => by
    rw [allOf, List.flatMap_cons, List.perm_cons]
    exact allNodes_perm children

theorem allNodes_perm : (forest : Forest Name) →
    (allNodes forest).Perm (forest ++ (allNodes forest).flatMap AppProxyProcessNode.children)
  | [] => by simp [allNodes]
  | tree :: rest => by
    rw [allNodes, List.flatMap_append, List.cons_append]
    refine ((allOf_perm tree).append (allNodes_perm rest)).trans ?_
    rw [List.cons_append, List.perm_cons, ← List.append_assoc, ← List.append_assoc]
    exact List.Perm.append_right _ List.perm_append_comm

end

theorem allNodes_eq (forest : Forest Name) : allNodes forest = forest.flatMap allOf := by
  induction forest with
  | nil => rfl
  | cons tree rest ih => rw [allNodes, ih, List.flatMap_cons]

theorem top_mem {forest : Forest Name} {tree : AppProxyProcessNode Name} (listed : tree ∈ forest) :
    tree ∈ allNodes forest := (allNodes_perm forest).mem_iff.mpr (List.mem_append_left _ listed)

theorem child_mem {forest : Forest Name} {tree child : AppProxyProcessNode Name}
    (inside : tree ∈ allNodes forest) (listed : child ∈ tree.children) : child ∈ allNodes forest :=
  (allNodes_perm forest).mem_iff.mpr
    (List.mem_append_right _ (List.mem_flatMap.mpr ⟨tree, inside, listed⟩))

theorem map_injective {first second : Forest Name}
    (same : first.map (·.process) = second.map (·.process))
    (equal : ∀ tree ∈ first, ∀ other ∈ second, tree.process = other.process → tree = other) :
    first = second := by
  induction first generalizing second with
  | nil => exact (List.map_eq_nil_iff.mp same.symm).symm
  | cons tree rest ih =>
    cases second with
    | nil => cases same
    | cons other others =>
      rw [List.map_cons, List.map_cons, List.cons.injEq] at same
      rw [equal tree List.mem_cons_self other List.mem_cons_self same.1, ih same.2
        fun one listed two member => equal one (List.mem_cons_of_mem _ listed) two
          (List.mem_cons_of_mem _ member)]

section

variable [LinearOrder Name] {snapshot : Snapshot Name} {forest other : Forest Name}
  (distinct : (snapshot.map RawProcessInfo.pid).Nodup)

theorem before_total (first second : RawProcessInfo Name) :
    Before first second ∨ Before second first := by
  unfold Before
  rcases lt_trichotomy first.name second.name with less | same | less
  · exact .inl (.inl less)
  · exact (Nat.le_total first.pid second.pid).imp (fun le => .inr ⟨same, le⟩)
      fun le => .inr ⟨same.symm, le⟩
  · exact .inr (.inl less)

theorem before_trans {first second third : RawProcessInfo Name} (one : Before first second)
    (two : Before second third) : Before first third := by
  rcases one with less | ⟨same, le⟩ <;> rcases two with later | ⟨equal, more⟩
  · exact .inl (less.trans later)
  · exact .inl (equal ▸ less)
  · exact .inl (same ▸ later)
  · exact .inr ⟨same.trans equal, le.trans more⟩

theorem sortNodes_perm (nodes : Forest Name) : (sortNodes nodes).Perm nodes :=
  List.perm_insertionSort _ _

theorem allNodes_sortNodes (nodes : Forest Name) :
    (allNodes (sortNodes nodes)).Perm (allNodes nodes) := by
  rw [allNodes_eq, allNodes_eq]
  exact (sortNodes_perm nodes).flatMap_right _

theorem sorted_sortNodes (nodes : Forest Name) :
    ((sortNodes nodes).map (·.process)).Pairwise Before := by
  have total : Std.Total fun first second : AppProxyProcessNode Name =>
    Before first.process second.process := ⟨fun _ _ => before_total _ _⟩
  have transitive : IsTrans (AppProxyProcessNode Name) fun first second =>
    Before first.process second.process := ⟨fun _ _ _ => before_trans⟩
  exact List.pairwise_map.mpr (List.pairwise_insertionSort _ nodes)

include distinct

omit [LinearOrder Name] in
theorem process_eq {first second : RawProcessInfo Name} (one : first ∈ snapshot)
    (two : second ∈ snapshot) (same : first.pid = second.pid) : first = second :=
  List.inj_on_of_nodup_map distinct one two same

theorem eq_of_sorted {first second : List (RawProcessInfo Name)} (perm : first.Perm second)
    (known : ∀ process ∈ first, process ∈ snapshot) (one : first.Pairwise Before)
    (two : second.Pairwise Before) : first = second := by
  refine perm.eq_of_pairwise (fun process later listed inside before after => ?_) one two
  refine process_eq distinct (known _ listed) (known _ (perm.mem_iff.mpr inside)) ?_
  unfold Before at before after
  rcases before with less | ⟨equal, le⟩ <;> rcases after with more | ⟨same, ge⟩
  · exact absurd (less.trans more) (lt_irrefl _)
  · exact absurd (same ▸ less) (lt_irrefl _)
  · exact absurd (equal ▸ more) (lt_irrefl _)
  · exact Nat.le_antisymm le ge

/-! ## Faithful forests with the same tops -/

namespace Faithful

variable (faithful : Faithful snapshot forest)
include faithful

omit distinct in
theorem known {tree : AppProxyProcessNode Name} (inside : tree ∈ allNodes forest) :
    tree.process ∈ snapshot :=
  faithful.once.subset (List.mem_map_of_mem inside)

theorem nodup : ((allNodes forest).map (·.process.pid)).Nodup := by
  have pids := (faithful.once.map RawProcessInfo.pid).nodup_iff.mpr distinct
  rwa [List.map_map] at pids

theorem nodup_parts : ((forest ++ (allNodes forest).flatMap AppProxyProcessNode.children).map
    (·.process.pid)).Nodup :=
  ((allNodes_perm forest).map _).nodup_iff.mp (faithful.nodup distinct)

theorem mem_children {tree : AppProxyProcessNode Name} (inside : tree ∈ allNodes forest)
    (process : RawProcessInfo Name) : process ∈ tree.children.map (·.process) ↔
      process ∈ snapshot ∧ process.parentPid = tree.process.pid ∧
        process ∉ forest.map (·.process) := by
  have parts := faithful.nodup_parts distinct
  rw [List.map_append, List.nodup_append] at parts
  constructor
  · intro member
    obtain ⟨child, listed, rfl⟩ := List.mem_map.mp member
    have below : child ∈ (allNodes forest).flatMap AppProxyProcessNode.children :=
      List.mem_flatMap.mpr ⟨tree, inside, listed⟩
    refine ⟨faithful.known (child_mem inside listed),
      faithful.links tree inside child listed, fun onTop => ?_⟩
    obtain ⟨top, member, same⟩ := List.mem_map.mp onTop
    exact parts.2.2 _ (List.mem_map_of_mem member) _ (List.mem_map_of_mem below)
      (congrArg RawProcessInfo.pid same)
  · rintro ⟨listed, parent, notTop⟩
    obtain ⟨child, member, rfl⟩ := List.mem_map.mp (faithful.once.mem_iff.mpr listed)
    rcases List.mem_append.mp ((allNodes_perm forest).mem_iff.mp member) with top | below
    · exact absurd (List.mem_map_of_mem top) notTop
    · obtain ⟨above, present, own⟩ := List.mem_flatMap.mp below
      have same : above = tree := List.inj_on_of_nodup_map (faithful.nodup distinct) present inside
        ((faithful.links above present child own).symm.trans parent)
      exact List.mem_map_of_mem (same ▸ own)

theorem nodup_children {tree : AppProxyProcessNode Name} (inside : tree ∈ allNodes forest) :
    (tree.children.map (·.process)).Nodup := by
  have parts := (faithful.nodup_parts distinct).of_map
  have own := (List.nodup_flatMap.mp (List.nodup_append.mp parts).2.1).1 tree inside
  refine own.map_on fun first one second two same => ?_
  exact List.inj_on_of_nodup_map (faithful.nodup distinct) (child_mem inside one)
    (child_mem inside two) (congrArg RawProcessInfo.pid same)

/-- Nodes of one process are equal, by induction on the nodes below. -/
theorem node_eq (others : Faithful snapshot other)
    (tops : forest.map (·.process) = other.map (·.process)) :
    (tree : AppProxyProcessNode Name) → tree ∈ allNodes forest → ∀ second ∈ allNodes other,
      tree.process = second.process → tree = second
  | .node process children, inside, .node own rest, present, same => by
    have lists : children.map (·.process) = rest.map (·.process) := by
      refine eq_of_sorted distinct ((List.perm_ext_iff_of_nodup (faithful.nodup_children distinct
        inside) (others.nodup_children distinct present)).mpr fun each => ?_)
        (fun each member => ((faithful.mem_children distinct inside each).mp member).1)
        (faithful.sortedBelow _ inside) (others.sortedBelow _ present)
      refine (faithful.mem_children distinct inside each).trans ?_
      rw [tops, same]
      exact (others.mem_children distinct present each).symm
    have equal : children = rest := map_injective lists fun child listed later member =>
      have := List.sizeOf_lt_of_mem listed
      node_eq others tops child (child_mem inside listed) later (child_mem present member)
    rw [show process = own from same, equal]

theorem forest_eq (others : Faithful snapshot other)
    (tops : (forest.map (·.process)).Perm (other.map (·.process))) : forest = other := by
  have lists := eq_of_sorted distinct tops (fun each member => by
    obtain ⟨tree, listed, rfl⟩ := List.mem_map.mp member
    exact faithful.known (top_mem listed)) faithful.sorted others.sorted
  exact map_injective lists fun tree listed second member =>
    faithful.node_eq distinct others lists tree (top_mem listed) second (top_mem member)

end Faithful

/-! ## What the builder does -/

omit [LinearOrder Name] distinct in
/-- How many processes are still to be visited. -/
def unvisited (snapshot : Snapshot Name) (visited : List Nat) : Nat :=
  (snapshot.filter fun process => process.pid ∉ visited).length

omit distinct in
structure Proper (snapshot : Snapshot Name) (tree : AppProxyProcessNode Name) : Prop where
  known : tree.process ∈ snapshot
  links : ∀ child ∈ tree.children, child.process.parentPid = tree.process.pid
  sorted : (tree.children.map (·.process)).Pairwise Before

omit [LinearOrder Name] distinct in
def Closed (snapshot : Snapshot Name) (visited : List Nat) : Prop :=
  ∀ process ∈ snapshot, process.parentPid ∈ visited → process.pid ∈ visited

/-- The builder has visited the nodes it has added and nothing else, and all their children. -/
structure Grown (snapshot : Snapshot Name) (visited : List Nat) (added : Forest Name)
    (after : List Nat) : Prop where
  all : after.Perm ((allNodes added).map (·.process.pid) ++ visited)
  fresh : visited.Nodup → after.Nodup
  proper : ∀ tree ∈ allNodes added, Proper snapshot tree
  closed : ∀ pid ∈ after, pid ∈ visited ∨
    ∀ process ∈ snapshot, process.parentPid = pid → process.pid ∈ after
  least : ∀ set : Nat → Prop, (∀ process ∈ snapshot, set process.parentPid → set process.pid) →
    (∀ pid ∈ visited, set pid) → (∀ tree ∈ added, set tree.process.pid) → ∀ pid ∈ after, set pid

namespace Grown

variable {visited middle after : List Nat} {added more : Forest Name}

omit distinct

theorem nil : Grown snapshot visited [] visited where
  all := .refl _
  fresh := id
  proper _ inside := absurd inside List.not_mem_nil
  closed _ inside := .inl inside
  least _ _ old _ := old

theorem kept (grown : Grown snapshot visited added after) : visited ⊆ after :=
  fun _ inside => grown.all.mem_iff.mpr (List.mem_append_right _ inside)

theorem top_visited (grown : Grown snapshot visited added after)
    {tree : AppProxyProcessNode Name} (inside : tree ∈ added) : tree.process.pid ∈ after :=
  grown.all.mem_iff.mpr (List.mem_append_left _ (List.mem_map_of_mem (top_mem inside)))

theorem keepsClosed (grown : Grown snapshot visited added after)
    (closed : Closed snapshot visited) : Closed snapshot after := by
  intro process listed parent
  rcases grown.closed _ parent with old | below
  · exact grown.kept (closed process listed old)
  · exact below process listed rfl

theorem top_fresh (grown : Grown snapshot visited added after) (nodup : visited.Nodup)
    {tree : AppProxyProcessNode Name} (inside : tree ∈ added) : tree.process.pid ∉ visited := by
  have apart := grown.all.nodup_iff.mp (grown.fresh nodup)
  exact fun old => (List.nodup_append.mp apart).2.2 _ (List.mem_map_of_mem (top_mem inside)) _ old rfl

theorem append (first : Grown snapshot visited added middle)
    (second : Grown snapshot middle more after) : Grown snapshot visited (added ++ more) after := by
  have nodes : allNodes (added ++ more) = allNodes added ++ allNodes more := by
    simp only [allNodes_eq, List.flatMap_append]
  constructor
  case all =>
    rw [nodes, List.map_append, List.append_assoc]
    refine second.all.trans ((first.all.append_left _).trans ?_)
    rw [← List.append_assoc, ← List.append_assoc]
    exact List.perm_append_comm.append_right _
  case fresh => exact fun nodup => second.fresh (first.fresh nodup)
  case proper => exact nodes ▸ List.forall_mem_append.mpr ⟨first.proper, second.proper⟩
  case closed =>
    intro pid inside
    rcases second.closed pid inside with old | below
    · exact (first.closed pid old).imp_right fun below process listed parent =>
        second.kept (below process listed parent)
    · exact .inr below
  case least =>
    intro set closed old tops
    obtain ⟨one, two⟩ := List.forall_mem_append.mp tops
    exact second.least set closed (first.least set closed old one) two

end Grown

/-- A build that adds one node where the pid is not visited yet. -/
structure Builds (snapshot : Snapshot Name) (bound : Nat)
    (build : Nat → List Nat → Option (Option (AppProxyProcessNode Name) × List Nat)) : Prop where
  again : ∀ pid visited, pid ∈ visited → unvisited snapshot visited < bound →
    build pid visited = some (none, visited)
  first : ∀ process ∈ snapshot, ∀ visited, process.pid ∉ visited →
    unvisited snapshot visited < bound → ∃ children after,
      build process.pid visited = some (some (.node process children), after) ∧
        Grown snapshot visited [.node process children] after

omit [LinearOrder Name] distinct in
theorem unvisited_mono {visited after : List Nat} (kept : visited ⊆ after) :
    unvisited snapshot after ≤ unvisited snapshot visited := by
  simp only [unvisited, ← List.countP_eq_length_filter]
  exact List.countP_mono_left fun process _ => by simpa using fun new old => new (kept old)

omit [LinearOrder Name] distinct in
theorem unvisited_cons {process : RawProcessInfo Name} (listed : process ∈ snapshot)
    {visited : List Nat} (new : process.pid ∉ visited) :
    unvisited snapshot (process.pid :: visited) < unvisited snapshot visited := by
  have fewer : (snapshot.filter fun each => each.pid ∉ process.pid :: visited) =
      (snapshot.filter fun each => each.pid ∉ visited).filter fun each => each.pid ≠ process.pid := by
    rw [List.filter_filter]
    refine List.filter_congr fun each _ => ?_
    simp
  rw [unvisited, unvisited, fewer, List.length_filter_lt_length_iff_exists]
  exact ⟨process, by simpa using ⟨listed, new⟩, by simp⟩

namespace Builds

variable {bound : Nat}
  {build : Nat → List Nat → Option (Option (AppProxyProcessNode Name) × List Nat)}
  (builds : Builds snapshot bound build)
include builds

omit distinct in
theorem all {listed : List (RawProcessInfo Name)} (known : listed ⊆ snapshot) (nodes : Forest Name)
    {visited : List Nat} (enough : unvisited snapshot visited < bound) :
    ∃ added after, buildAll build (listed.map (·.pid)) nodes visited = some (nodes ++ added, after) ∧
      Grown snapshot visited added after ∧ (∀ process ∈ listed, process.pid ∈ after) ∧
      ∀ tree ∈ added, tree.process ∈ listed := by
  induction listed generalizing nodes visited with
  | nil => exact ⟨[], visited, by simp [buildAll], .nil, by simp, by simp⟩
  | cons process rest ih =>
    obtain ⟨own, others⟩ := List.cons_subset.mp known
    by_cases old : process.pid ∈ visited
    · obtain ⟨added, after, built, grown, reached, tops⟩ := ih others nodes enough
      refine ⟨added, after, ?_, grown, List.forall_mem_cons.mpr ⟨grown.kept old, reached⟩,
        fun tree inside => List.mem_cons_of_mem _ (tops tree inside)⟩
      simpa [buildAll, builds.again _ _ old enough] using built
    · obtain ⟨children, middle, made, node⟩ := builds.first process own visited old enough
      obtain ⟨added, after, built, grown, reached, tops⟩ := ih others
        (nodes ++ [.node process children]) ((unvisited_mono node.kept).trans_lt enough)
      refine ⟨.node process children :: added, after, ?_, node.append grown,
        List.forall_mem_cons.mpr ⟨grown.kept (node.top_visited List.mem_cons_self), reached⟩,
        List.forall_mem_cons.mpr ⟨List.mem_cons_self, fun tree inside =>
          List.mem_cons_of_mem _ (tops tree inside)⟩⟩
      simpa [buildAll, made] using built

omit distinct in
theorem agree {other : Nat → List Nat → Option (Option (AppProxyProcessNode Name) × List Nat)}
    (others : Builds snapshot bound other) {listed : List (RawProcessInfo Name)}
    (known : listed ⊆ snapshot) (nodes rest : Forest Name) {visited later : List Nat}
    (same : ∀ pid, pid ∈ visited ↔ pid ∈ later)
    (closed : Closed snapshot visited) (enough : unvisited snapshot visited < bound) :
    ∃ added more after final,
      buildAll build (listed.map (·.pid)) nodes visited = some (nodes ++ added, after) ∧
      buildAll other (listed.map (·.pid)) rest later = some (rest ++ more, final) ∧
      added.map (·.process) = more.map (·.process) := by
  induction listed generalizing nodes rest visited later with
  | nil => exact ⟨[], [], visited, later, by simp [buildAll], by simp [buildAll], rfl⟩
  | cons process tail ih =>
    obtain ⟨own, known⟩ := List.cons_subset.mp known
    have left : unvisited snapshot later < bound :=
      (unvisited_mono fun pid inside => (same pid).mp inside).trans_lt enough
    by_cases old : process.pid ∈ visited
    · obtain ⟨added, more, after, final, one, two, tops⟩ := ih known nodes rest same closed enough
      refine ⟨added, more, after, final, ?_, ?_, tops⟩
      · simpa [buildAll, builds.again _ _ old enough] using one
      · simpa [buildAll, others.again _ _ ((same _).mp old) left] using two
    · obtain ⟨children, middle, made, node⟩ := builds.first process own visited old enough
      obtain ⟨others_, then_, made', node'⟩ := others.first process own later
        (mt (same _).mpr old) left
      have middleClosed := node.keepsClosed closed
      have thenClosed := node'.keepsClosed fun each inside parent =>
        (same _).mp (closed each inside ((same _).mpr parent))
      have inMiddle : process.pid ∈ middle := node.top_visited List.mem_cons_self
      have inThen : process.pid ∈ then_ := node'.top_visited List.mem_cons_self
      have equal (pid : Nat) : pid ∈ middle ↔ pid ∈ then_ :=
        ⟨node.least (· ∈ then_) thenClosed (fun old before => node'.kept ((same old).mp before))
            (List.forall_mem_singleton.mpr inThen) pid,
          node'.least (· ∈ middle) middleClosed (fun old before => node.kept ((same old).mpr before))
            (List.forall_mem_singleton.mpr inMiddle) pid⟩
      obtain ⟨added, more, after, final, one, two, tops⟩ := ih known
        (nodes ++ [.node process children]) (rest ++ [.node process others_]) equal middleClosed
        ((unvisited_mono node.kept).trans_lt enough)
      refine ⟨.node process children :: added, .node process others_ :: more, after, final, ?_, ?_,
        by simp [tops]⟩
      · simpa [buildAll, made] using one
      · simpa [buildAll, made'] using two

omit distinct in
theorem head {process : RawProcessInfo Name} {rest : List (RawProcessInfo Name)}
    (known : process :: rest ⊆ snapshot) (nodes : Forest Name) {visited : List Nat}
    (nodup : visited.Nodup) (new : process.pid ∉ visited)
    (enough : unvisited snapshot visited < bound) :
    ∃ added after, buildAll build ((process :: rest).map (·.pid)) nodes visited =
        some (nodes ++ added, after) ∧ process ∈ added.map (·.process) ∧
      ∀ child ∈ snapshot, child.parentPid = process.pid → child.pid ≠ process.pid →
        child ∉ added.map (·.process) := by
  obtain ⟨own, others⟩ := List.cons_subset.mp known
  obtain ⟨children, middle, made, node⟩ := builds.first process own visited new enough
  obtain ⟨added, after, built, grown, -, -⟩ := builds.all others (nodes ++ [.node process children])
    ((unvisited_mono node.kept).trans_lt enough)
  refine ⟨.node process children :: added, after, by simpa [buildAll, made] using built,
    by simp, fun child listed parent other onTop => ?_⟩
  rw [List.map_cons, List.mem_cons] at onTop
  rcases onTop with same | later
  · exact other (congrArg RawProcessInfo.pid same)
  · obtain ⟨tree, inside, rfl⟩ := List.mem_map.mp later
    have below := (node.closed process.pid (node.top_visited List.mem_cons_self)).resolve_left new
    exact grown.top_fresh (node.fresh nodup) inside (below _ listed parent)

omit distinct in
theorem skipping : Builds snapshot bound fun pid visited =>
    if pid ∈ visited then some (none, visited) else build pid visited where
  again _ _ old _ := if_pos old
  first process listed visited new enough := by
    simpa only [if_neg new] using builds.first process listed visited new enough

end Builds

variable {order : Snapshot Name} (same : order.Perm snapshot)
include same

omit [LinearOrder Name] distinct in
theorem unvisited_lt (visited : List Nat) : unvisited snapshot visited < order.length + 1 := by
  rw [same.length_eq]
  exact Nat.lt_succ_of_le (List.length_filter_le _ _)

theorem buildNode_builds (depth : Nat) : Builds snapshot depth (buildNode order depth) := by
  induction depth with
  | zero => exact ⟨fun _ _ _ enough => absurd enough (Nat.not_lt_zero _),
      fun _ _ _ _ enough => absurd enough (Nat.not_lt_zero _)⟩
  | succ depth ih =>
    refine ⟨fun pid visited old _ => if_pos old, fun process listed visited new enough => ?_⟩
    have found : order.find? (fun each => each.pid = process.pid) = some process := by
      cases here : order.find? fun each => each.pid = process.pid with
      | none => simpa using List.find?_eq_none.mp here process (same.mem_iff.mpr listed)
      | some each =>
        have own : each.pid = process.pid := by simpa using List.find?_some here
        rw [process_eq distinct (same.mem_iff.mp (List.mem_of_find?_eq_some here)) listed own]
    have children : order.filter (fun each => each.parentPid = process.pid) ⊆ snapshot :=
      fun each inside => same.mem_iff.mp (List.mem_of_mem_filter inside)
    obtain ⟨added, after, built, grown, reached, tops⟩ := ih.all children []
      (Nat.lt_of_lt_of_le (unvisited_cons listed new) (Nat.lt_succ_iff.mp enough))
    have below := allNodes_sortNodes added
    have nodes : allNodes [.node process (sortNodes added)] =
        .node process (sortNodes added) :: allNodes (sortNodes added) := by
      simp [allNodes, allOf]
    refine ⟨sortNodes added, after, ?_, ?_⟩
    · rw [buildNode, if_neg new, found]
      simp only [childPids, built]
      rfl
    constructor
    case all =>
      rw [nodes]
      refine grown.all.trans (List.perm_middle.trans ?_)
      exact (((below.map _).append_right _).cons _).symm
    case fresh => exact fun nodup => grown.fresh (List.nodup_cons.mpr ⟨new, nodup⟩)
    case proper =>
      rw [nodes]
      refine List.forall_mem_cons.mpr ⟨⟨listed, fun child inside => ?_, sorted_sortNodes added⟩,
        fun tree inside => grown.proper tree (below.mem_iff.mp inside)⟩
      simpa using List.of_mem_filter (tops child ((sortNodes_perm added).mem_iff.mp inside))
    case closed =>
      intro pid inside
      rcases grown.closed pid inside with old | all
      · rcases List.mem_cons.mp old with rfl | old
        · exact .inr fun child member parent =>
            reached child (List.mem_filter.mpr ⟨same.mem_iff.mpr member, decide_eq_true parent⟩)
        · exact .inl old
      · exact .inr all
    case least =>
      intro set closed old top
      have own : set process.pid := top _ List.mem_cons_self
      refine grown.least set closed (List.forall_mem_cons.mpr ⟨own, old⟩) fun tree inside => ?_
      obtain ⟨member, parent⟩ := List.mem_filter.mp (tops tree inside)
      exact closed _ (same.mem_iff.mp member) (by simpa [of_decide_eq_true parent] using own)

omit [LinearOrder Name] distinct in
theorem isRoot_congr (process : RawProcessInfo Name) :
    IsRoot order process ↔ IsRoot snapshot process := by
  rw [IsRoot, IsRoot, (same.map RawProcessInfo.pid).mem_iff]

omit [LinearOrder Name] distinct in
theorem rootPids_eq : rootPids order = ((snapshot.filter fun each => IsRoot snapshot each).insertionSort
    fun first second => first.pid ≤ second.pid).map RawProcessInfo.pid := by
  have roots : order.filter (fun each => IsRoot order each) =
      order.filter fun each => IsRoot snapshot each :=
    List.filter_congr fun each _ => decide_eq_decide.mpr (isRoot_congr same each)
  rw [rootPids, roots, List.map_insertionSort _ (· ≤ ·) RawProcessInfo.pid _ fun _ _ _ _ => Iff.rfl]
  refine List.Perm.eq_of_pairwise (fun _ _ _ _ => Nat.le_antisymm)
    (List.pairwise_insertionSort _ _) (List.pairwise_insertionSort _ _) ?_
  exact (List.perm_insertionSort _ _).trans
    (((same.filter _).map _).trans (List.perm_insertionSort _ _).symm)

omit [LinearOrder Name] distinct same in
theorem rooted_mem {visited : List Nat} (roots : ∀ process ∈ snapshot, IsRoot snapshot process →
    process.pid ∈ visited) (closed : Closed snapshot visited) {pid : Nat} (rooted : Rooted snapshot pid) : pid ∈ visited := by
  induction rooted with
  | root listed root => exact roots _ listed root
  | child listed _ ih => exact closed _ listed ih

include distinct

theorem first_loop : ∃ roots ⊆ snapshot, rootPids order = roots.map RawProcessInfo.pid ∧
    rootPids snapshot = roots.map RawProcessInfo.pid ∧ ∃ tops visited,
      buildAll (buildNode order (order.length + 1)) (rootPids order) [] [] = some (tops, visited) ∧
      Grown snapshot [] tops visited ∧ (∀ tree ∈ tops, IsRoot snapshot tree.process) ∧
      ∀ pid, Rooted snapshot pid ↔ pid ∈ visited := by
  refine ⟨_, fun process inside => List.mem_of_mem_filter
    ((List.perm_insertionSort _ _).mem_iff.mp inside), rootPids_eq same, rootPids_eq (.refl _), ?_⟩
  set roots := (snapshot.filter fun each => IsRoot snapshot each).insertionSort
    fun first second => first.pid ≤ second.pid with roots_def
  have mem_roots (process : RawProcessInfo Name) :
      process ∈ roots ↔ process ∈ snapshot ∧ IsRoot snapshot process := by
    rw [roots_def, (List.perm_insertionSort _ _).mem_iff, List.mem_filter, decide_eq_true_iff]
  have enough := unvisited_lt same []
  obtain ⟨tops, visited, built, grown, reached, onTop⟩ := (buildNode_builds distinct same _).all
    (fun process inside => ((mem_roots process).mp inside).1) [] enough
  refine ⟨tops, visited, (rootPids_eq same) ▸ built, grown,
    fun tree inside => ((mem_roots _).mp (onTop tree inside)).2, fun pid => ⟨rooted_mem ?_ ?_, ?_⟩⟩
  · exact fun process listed root => reached process ((mem_roots process).mpr ⟨listed, root⟩)
  · exact grown.keepsClosed fun _ _ inside => absurd inside List.not_mem_nil
  · refine grown.least (Rooted snapshot) (fun _ => .child) (by simp) (fun tree inside => ?_) pid
    obtain ⟨listed, root⟩ := (mem_roots _).mp (onTop tree inside)
    exact .root listed root

omit same in
theorem Grown.faithful {after : List Nat} (grown : Grown snapshot [] forest after)
    (all : ∀ process ∈ snapshot, process.pid ∈ after)
    (roots : ∀ tree ∈ forest, Rooted snapshot tree.process.pid → IsRoot snapshot tree.process) :
    Faithful snapshot (sortNodes forest) := by
  have nodes := allNodes_sortNodes forest
  have listed : (allNodes forest).map (·.process) ⊆ snapshot := by
    intro process inside
    obtain ⟨tree, member, rfl⟩ := List.mem_map.mp inside
    exact (grown.proper tree member).known
  have node {process : RawProcessInfo Name} (inside : process ∈ snapshot) :
      ∃ tree ∈ allNodes forest, tree.process = process := by
    have visited := grown.all.mem_iff.mp (all process inside)
    rw [List.append_nil] at visited
    obtain ⟨tree, member, same⟩ := List.mem_map.mp visited
    exact ⟨tree, member, process_eq distinct (grown.proper tree member).known inside same⟩
  constructor
  case once =>
    have pids : ((allNodes forest).map (·.process.pid)).Nodup := by
      have visited := grown.all.nodup_iff.mp (grown.fresh List.nodup_nil)
      rwa [List.append_nil] at visited
    refine (nodes.map _).trans ((List.perm_ext_iff_of_nodup ?_ distinct.of_map).mpr fun process =>
      ⟨fun inside => listed inside, fun inside => ?_⟩)
    · refine List.Nodup.of_map RawProcessInfo.pid ?_
      rwa [List.map_map]
    · obtain ⟨tree, member, rfl⟩ := node inside
      exact List.mem_map_of_mem member
  case links => exact fun tree inside => (grown.proper tree (nodes.mem_iff.mp inside)).links
  case hangs =>
    intro process inside rooted notRoot
    obtain ⟨tree, member, rfl⟩ := node inside
    rcases List.mem_append.mp ((allNodes_perm forest).mem_iff.mp member) with top | below
    · exact absurd (roots tree top rooted) notRoot
    · obtain ⟨above, present, own⟩ := List.mem_flatMap.mp below
      exact ⟨above, nodes.mem_iff.mpr present, ((grown.proper above present).links tree own).symm,
        List.mem_map_of_mem own⟩
  case sorted => exact sorted_sortNodes forest
  case sortedBelow => exact fun tree inside => (grown.proper tree (nodes.mem_iff.mp inside)).sorted

/-- Every order of the map gives a faithful forest: the tops of the first loop, and from the second
loop only processes without a root above them. -/
theorem tree_spec : ∃ tops visited added,
    buildAll (buildNode order (order.length + 1)) (rootPids order) [] [] = some (tops, visited) ∧
    getSystemProcessTree order = some (sortNodes (tops ++ added)) ∧
    Faithful snapshot (sortNodes (tops ++ added)) ∧
    ∀ tree ∈ added, tree.process ∈ snapshot ∧ ¬Rooted snapshot tree.process.pid := by
  obtain ⟨_, _, _, _, tops, visited, first, grown, roots, rooted⟩ := first_loop distinct same
  have enough := unvisited_lt same visited
  obtain ⟨added, after, second, more, reached, listed⟩ :=
    (buildNode_builds distinct same (order.length + 1)).skipping.all same.subset tops enough
  have unrooted : ∀ tree ∈ added, ¬Rooted snapshot tree.process.pid := fun tree inside above =>
    more.top_fresh (grown.fresh List.nodup_nil) inside ((rooted _).mp above)
  refine ⟨tops, visited, added, first, ?_, ?_, fun tree inside =>
    ⟨same.subset (listed tree inside), unrooted tree inside⟩⟩
  · simp only [getSystemProcessTree, first, Option.bind_some, second, Option.map_some]
  · refine (grown.append more).faithful distinct
      (fun process inside => reached process (same.mem_iff.mpr inside)) fun tree inside above => ?_
    rcases List.mem_append.mp inside with top | new
    · exact roots tree top
    · exact absurd above (unrooted tree new)

theorem first_on_top {process : RawProcessInfo Name} {rest : Snapshot Name}
    (first : order = process :: rest) (unrooted : ¬Rooted snapshot process.pid)
    (built : getSystemProcessTree order = some forest) :
    process ∈ forest.map (·.process) ∧ ∀ child ∈ snapshot, child.parentPid = process.pid →
      child.pid ≠ process.pid → ¬Rooted snapshot child.pid → child ∉ forest.map (·.process) := by
  obtain ⟨_, _, _, _, tops, visited, loop, grown, -, rooted⟩ := first_loop distinct same
  have enough := unvisited_lt same visited
  obtain ⟨added, after, second, onTop, alone⟩ :=
    (buildNode_builds distinct same (order.length + 1)).skipping.head (first ▸ same.subset) tops
      (grown.fresh List.nodup_nil) (mt (rooted _).mpr unrooted) enough
  have whole : forest = sortNodes (tops ++ added) := by
    rw [← first] at second
    simp only [getSystemProcessTree, loop, Option.bind_some, second, Option.map_some] at built
    exact (Option.some.inj built).symm
  have mem (each : RawProcessInfo Name) : each ∈ forest.map (·.process) ↔
      each ∈ tops.map (·.process) ∨ each ∈ added.map (·.process) := by
    rw [whole, ((sortNodes_perm _).map _).mem_iff, List.map_append, List.mem_append]
  refine ⟨(mem process).mpr (.inr onTop), fun child listed parent other free inside => ?_⟩
  rcases (mem child).mp inside with top | new
  · obtain ⟨tree, member, rfl⟩ := List.mem_map.mp top
    exact free ((rooted _).mpr (grown.top_visited member))
  · exact alone child listed parent other new

end

/-- Whatever the parents say and in whatever order the map is visited, the builder ends. Its forest
has every process once and below its parent where a root is above it; the only processes on top that
are no roots have none above them. -/
theorem getSystemProcessTree_faithful [LinearOrder Name] {snapshot order : Snapshot Name}
    (distinct : (snapshot.map RawProcessInfo.pid).Nodup) (same : order.Perm snapshot) :
    ∃ forest, getSystemProcessTree order = some forest ∧ Faithful snapshot forest ∧
      ∀ tree ∈ forest, IsRoot snapshot tree.process ∨ ¬Rooted snapshot tree.process.pid := by
  obtain ⟨_, _, _, -, built, faithful, -⟩ := tree_spec distinct same
  refine ⟨_, built, faithful, fun tree inside => or_iff_not_imp_left.mpr fun notRoot rooted => ?_⟩
  have listed := faithful.known (top_mem inside)
  obtain ⟨parent, above, -, below⟩ := faithful.hangs _ listed rooted notRoot
  exact ((faithful.mem_children distinct above _).mp below).2.2 (List.mem_map_of_mem inside)

/-- Two processes that are each other's parent, and a third below one of them. -/
theorem getSystemProcessTree_faithful_cycle : ∃ forest, Faithful
    [(⟨9, 8, 2, none⟩ : RawProcessInfo Nat), ⟨8, 4, 1, none⟩, ⟨4, 8, 0, none⟩] forest := by
  have visited : [(⟨4, 8, 0, none⟩ : RawProcessInfo Nat), ⟨8, 4, 1, none⟩, ⟨9, 8, 2, none⟩].Perm
      [⟨9, 8, 2, none⟩, ⟨8, 4, 1, none⟩, ⟨4, 8, 0, none⟩] := by decide
  exact (getSystemProcessTree_faithful (by decide) visited).imp fun _ tree => tree.2.1

/-- The tree is one and faithful just if a root is above every process. -/
theorem hasOneTree_iff [LinearOrder Name] (snapshot : Snapshot Name)
    (distinct : (snapshot.map RawProcessInfo.pid).Nodup) :
    HasOneTree snapshot ↔ ∀ process ∈ snapshot, Rooted snapshot process.pid := by
  constructor
  · rintro ⟨forest, -, one⟩ process listed
    by_contra unrooted
    have notRoot : ¬IsRoot snapshot process := fun root => unrooted (.root listed root)
    simp only [IsRoot, not_or, not_not] at notRoot
    obtain ⟨-, known, other⟩ := notRoot
    obtain ⟨parent, present, own⟩ := List.mem_map.mp known
    have above : ¬Rooted snapshot parent.pid := fun rooted =>
      unrooted (.child listed (own ▸ rooted))
    have front {each : RawProcessInfo Name} (inside : each ∈ snapshot) :
        (each :: snapshot.erase each).Perm snapshot := (List.perm_cons_erase inside).symm
    have top := (first_on_top distinct (front listed) rfl unrooted (one _ (front listed))).1
    exact (first_on_top distinct (front present) rfl above (one _ (front present))).2 process listed
      own.symm (fun equal => other (equal.trans own)) unrooted top
  · intro rooted
    have alone (order : Snapshot Name) (same : order.Perm snapshot) : ∃ tops visited,
        buildAll (buildNode order (order.length + 1)) (rootPids order) [] [] = some (tops, visited) ∧
        getSystemProcessTree order = some (sortNodes tops) ∧ Faithful snapshot (sortNodes tops) := by
      obtain ⟨tops, visited, added, first, built, faithful, unrooted⟩ := tree_spec distinct same
      obtain rfl : added = [] := List.eq_nil_iff_forall_not_mem.mpr fun tree inside =>
        (unrooted tree inside).2 (rooted _ (unrooted tree inside).1)
      rw [List.append_nil] at built faithful
      exact ⟨tops, visited, first, built, faithful⟩
    obtain ⟨tops, visited, loop, built, faithful⟩ := alone snapshot (.refl _)
    refine ⟨_, faithful, fun order same => ?_⟩
    obtain ⟨others, _, loop', built', faithful'⟩ := alone order same
    obtain ⟨roots, known, pids, own, -⟩ := first_loop distinct same
    have enough := unvisited_lt same []
    obtain ⟨added, more, after, final, one, two, tops_eq⟩ :=
      (buildNode_builds distinct same (order.length + 1)).agree
        (buildNode_builds distinct (.refl snapshot) (order.length + 1)) known [] [] (fun _ => Iff.rfl)
        (fun _ _ inside => absurd inside List.not_mem_nil) enough
    rw [pids] at loop'
    rw [same.length_eq] at two
    rw [own] at loop
    obtain ⟨rfl, -⟩ := Prod.mk.inj (Option.some.inj (loop'.symm.trans one))
    obtain ⟨rfl, -⟩ := Prod.mk.inj (Option.some.inj (loop.symm.trans two))
    rw [built']
    refine congrArg some (faithful'.forest_eq distinct faithful ?_)
    exact ((sortNodes_perm _).map _).trans
      ((List.Perm.of_eq tops_eq).trans ((sortNodes_perm _).map _).symm)

/-- Two processes that are each other's parent: the one that comes first is on top. -/
theorem cycle_follows_order : ¬∀ snapshot : Snapshot Nat,
    (snapshot.map RawProcessInfo.pid).Nodup → HasOneTree snapshot := by
  intro always
  obtain ⟨forest, -, one⟩ := always [⟨4, 8, 0, none⟩, ⟨8, 4, 1, none⟩] (by decide)
  have first := one [⟨4, 8, 0, none⟩, ⟨8, 4, 1, none⟩] (.refl _)
  have second := one [⟨8, 4, 1, none⟩, ⟨4, 8, 0, none⟩] (.swap _ _ _)
  have tops := congrArg (Option.map fun forest => forest.map (·.process.pid))
    (first.trans second.symm)
  revert tops
  decide

/-- A process below the idle process, which is its own parent, and one whose parent is gone. -/
theorem hasOneTree_system : HasOneTree
    [(⟨0, 0, 2, none⟩ : RawProcessInfo Nat), ⟨4, 0, 1, none⟩, ⟨9, 4, 1, none⟩, ⟨7, 5, 0, none⟩] := by
  refine (hasOneTree_iff _ (by decide)).mpr fun process listed => ?_
  by_cases top : process.pid = 9
  · have below : process.parentPid = (⟨4, 0, 1, none⟩ : RawProcessInfo Nat).pid := by
      revert listed top; revert process; decide
    exact .child listed (below ▸ .root (by simp) (.inl rfl))
  · exact .root listed (by revert listed top; revert process; decide)

end ClashVerge.Telemetry
