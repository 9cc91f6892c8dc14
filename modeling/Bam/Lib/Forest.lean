import Mathlib.Data.List.Nodup
import Mathlib.Data.List.Perm.Basic

namespace Forest

/-!
# Ranked forests

Nodes with lists of children whose rank is one more than their own, and no more
than so many ranks.  Every node then has finitely many nodes below it, no two
of them from different children, and a walk with a queue visits each of them
once.
-/

variable {Node State : Type*}
variable {kids : Node → List Node}

/-- The nodes below one, itself first, down to so many levels. -/
def descendants (kids : Node → List Node) : Nat → Node → List Node
  | 0, _ => []
  | levels + 1, node =>
      node :: (kids node).flatMap (descendants kids levels)

/-- So many steps from a node to a child lead from the first to the last. -/
inductive Path (kids : Node → List Node) : Nat → Node → Node → Prop where
  | refl (node : Node) : Path kids 0 node node
  | step
      {distance : Nat}
      {first middle last : Node}
      (path : Path kids distance first middle)
      (isChild : last ∈ kids middle) :
      Path kids (distance + 1) first last

theorem Path.cons
    {distance : Nat}
    {first child last : Node}
    (isChild : child ∈ kids first)
    (path : Path kids distance child last) :
    Path kids (distance + 1) first last := by
  induction path with
  | refl node => exact .step (.refl first) isChild
  | step _ isLast ih => exact .step (ih isChild) isLast

theorem Path.uncons
    {distance : Nat}
    {first last : Node}
    (path : Path kids (distance + 1) first last) :
    ∃ child ∈ kids first, Path kids distance child last := by
  induction distance generalizing last with
  | zero =>
      cases path with
      | step path isChild =>
          cases path with
          | refl => exact ⟨last, isChild, .refl last⟩
  | succ distance ih =>
      cases path with
      | step path isChild =>
          obtain ⟨child, isFirst, rest⟩ := ih path
          exact ⟨child, isFirst, .step rest isChild⟩

/-- The nodes below a node are those its paths lead to. -/
theorem mem_descendants_iff
    {levels : Nat}
    {first last : Node} :
    last ∈ descendants kids levels first ↔
      ∃ distance < levels, Path kids distance first last := by
  induction levels generalizing first with
  | zero => simp [descendants]
  | succ levels ih =>
      simp only [descendants, List.mem_cons, List.mem_flatMap, ih]
      constructor
      · rintro (rfl | ⟨child, isChild, distance, within, path⟩)
        · exact ⟨0, Nat.succ_pos levels, .refl last⟩
        · exact ⟨distance + 1, Nat.succ_lt_succ within,
            path.cons isChild⟩
      · rintro ⟨distance, within, path⟩
        cases distance with
        | zero =>
            cases path with
            | refl => exact .inl rfl
        | succ distance =>
            obtain ⟨child, isChild, rest⟩ := path.uncons
            exact .inr ⟨child, isChild, distance,
              Nat.lt_of_succ_lt_succ within, rest⟩

/-- What makes lists of children a forest, of the nodes inside it. -/
structure Ranked
    (kids : Node → List Node)
    (inside : Node → Prop)
    (rank : Node → Nat)
    (levels : Nat) : Prop where
  bounded : ∀ {node}, inside node → rank node < levels
  closed : ∀ {node child},
    inside node → child ∈ kids node → inside child
  rank_child : ∀ {node child},
    inside node → child ∈ kids node → rank child = rank node + 1
  nodup : ∀ {node}, inside node → (kids node).Nodup
  parent : ∀ {first second child},
    inside first → inside second →
    child ∈ kids first → child ∈ kids second → first = second

variable {inside : Node → Prop} {rank : Node → Nat} {levels : Nat}

theorem Ranked.path
    (ranked : Ranked kids inside rank levels)
    {distance : Nat}
    {first last : Node}
    (isInside : inside first)
    (path : Path kids distance first last) :
    inside last ∧ rank last = rank first + distance := by
  induction path with
  | refl node => exact ⟨isInside, rfl⟩
  | step _ isChild ih =>
      obtain ⟨middleInside, middleRank⟩ := ih isInside
      refine ⟨ranked.closed middleInside isChild, ?_⟩
      rw [ranked.rank_child middleInside isChild, middleRank,
        Nat.add_assoc]

theorem Ranked.source_unique
    (ranked : Ranked kids inside rank levels)
    {distance : Nat}
    {first second last : Node}
    (firstInside : inside first)
    (secondInside : inside second)
    (fromFirst : Path kids distance first last)
    (fromSecond : Path kids distance second last) :
    first = second := by
  induction distance generalizing last with
  | zero =>
      cases fromFirst with
      | refl =>
          cases fromSecond with
          | refl => rfl
  | succ distance ih =>
      cases fromFirst with
      | step left leftChild =>
          cases fromSecond with
          | step right rightChild =>
              have same := ranked.parent
                (ranked.path firstInside left).1
                (ranked.path secondInside right).1 leftChild rightChild
              exact ih left (same ▸ right)

/-- Nodes of one rank have nothing below them in common. -/
theorem Ranked.disjoint
    (ranked : Ranked kids inside rank levels)
    {depth : Nat}
    {first second : Node}
    (firstInside : inside first)
    (secondInside : inside second)
    (sameRank : rank first = rank second)
    (differs : first ≠ second) :
    (descendants kids depth first).Disjoint
      (descendants kids depth second) := by
  intro last inFirst inSecond
  obtain ⟨left, _, fromFirst⟩ := mem_descendants_iff.mp inFirst
  obtain ⟨right, _, fromSecond⟩ := mem_descendants_iff.mp inSecond
  have leftRank := (ranked.path firstInside fromFirst).2
  have rightRank := (ranked.path secondInside fromSecond).2
  have same : left = right := by omega
  subst same
  exact differs
    (ranked.source_unique firstInside secondInside fromFirst fromSecond)

/-- Trees of one rank have all their nodes once. -/
theorem Ranked.nodup_flatMap
    (ranked : Ranked kids inside rank levels)
    {depth height : Nat}
    {nodes : List Node}
    (distinct : nodes.Nodup)
    (areInside : ∀ node ∈ nodes, inside node)
    (sameRank : ∀ node ∈ nodes, rank node = height)
    (each : ∀ node ∈ nodes, (descendants kids depth node).Nodup) :
    (nodes.flatMap (descendants kids depth)).Nodup := by
  refine List.nodup_flatMap.mpr ⟨each, ?_⟩
  apply distinct.imp_of_mem
  intro first second isFirst isSecond differs
  exact ranked.disjoint (areInside first isFirst)
    (areInside second isSecond)
    ((sameRank first isFirst).trans (sameRank second isSecond).symm)
    differs

theorem Ranked.nodup_descendants
    (ranked : Ranked kids inside rank levels)
    (depth : Nat)
    {node : Node}
    (isInside : inside node) :
    (descendants kids depth node).Nodup := by
  induction depth generalizing node with
  | zero => exact List.nodup_nil
  | succ depth ih =>
      have children : ∀ child ∈ kids node,
          inside child ∧ rank child = rank node + 1 :=
        fun child isChild =>
          ⟨ranked.closed isInside isChild,
            ranked.rank_child isInside isChild⟩
      refine List.nodup_cons.mpr ⟨?_, ?_⟩
      · intro again
        obtain ⟨child, isChild, below⟩ := List.mem_flatMap.mp again
        obtain ⟨distance, _, path⟩ := mem_descendants_iff.mp below
        have deeper := (ranked.path (children child isChild).1 path).2
        rw [(children child isChild).2] at deeper
        omega
      · exact ranked.nodup_flatMap (ranked.nodup isInside)
          (fun child isChild => (children child isChild).1)
          (fun child isChild => (children child isChild).2)
          fun child isChild => ih (children child isChild).1

/-- All nodes below one. -/
def below
    (kids : Node → List Node)
    (rank : Node → Nat)
    (levels : Nat)
    (node : Node) : List Node :=
  descendants kids (levels - rank node) node

theorem Ranked.below_eq
    (ranked : Ranked kids inside rank levels)
    {node : Node}
    (isInside : inside node) :
    below kids rank levels node =
      node :: (kids node).flatMap (below kids rank levels) := by
  have room := ranked.bounded isInside
  have split : levels - rank node = levels - (rank node + 1) + 1 := by
    omega
  rw [below, split, descendants]
  congr 1
  apply List.flatMap_congr
  intro child isChild
  rw [below, ranked.rank_child isInside isChild]

section Walk

/-- A walk that takes the first node of a queue and puts its children at the
end. -/
def walk
    (kids : Node → List Node)
    (visit : State → Node → State) :
    Nat → List Node → State → Option State
  | _, [], state => some state
  | 0, _ :: _, _ => none
  | fuel + 1, node :: rest, state =>
      walk kids visit fuel (rest ++ kids node) (visit state node)

/-- The rule of a walk.  The invariant speaks of the nodes it has visited and
those in its queue; with as much fuel as there are nodes below the queue, the
walk ends when it has visited them all. -/
theorem Ranked.walk_rule
    (ranked : Ranked kids inside rank levels)
    {visit : State → Node → State}
    {invariant : List Node → List Node → State → Prop}
    (kept : ∀ {visited node rest state},
      inside node →
      (∀ other ∈ rest, inside other) →
      (visited ++ (node :: rest).flatMap
        (below kids rank levels)).Nodup →
      invariant visited (node :: rest) state →
      invariant (visited ++ [node]) (rest ++ kids node)
        (visit state node))
    {visited queue : List Node}
    {state : State}
    {fuel : Nat}
    (areInside : ∀ node ∈ queue, inside node)
    (distinct :
      (visited ++ queue.flatMap (below kids rank levels)).Nodup)
    (holds : invariant visited queue state)
    (enough :
      (queue.flatMap (below kids rank levels)).length ≤ fuel) :
    ∃ final all,
      walk kids visit fuel queue state = some final ∧
        all.Perm (visited ++ queue.flatMap (below kids rank levels)) ∧
        invariant all [] final := by
  induction fuel generalizing visited queue state with
  | zero =>
      cases queue with
      | nil =>
          refine ⟨state, visited, rfl, ?_, holds⟩
          simp
      | cons node rest =>
          rw [List.flatMap_cons, ranked.below_eq
            (areInside node (List.mem_cons_self ..))] at enough
          simp at enough
  | succ fuel ih =>
      cases queue with
      | nil =>
          refine ⟨state, visited, rfl, ?_, holds⟩
          simp
      | cons node rest =>
          have isInside := areInside node (List.mem_cons_self ..)
          have others : ∀ other ∈ rest, inside other :=
            fun other member =>
              areInside other (List.mem_cons_of_mem node member)
          have moved :
              (visited ++ (node :: rest).flatMap
                (below kids rank levels)).Perm
              (visited ++ [node] ++ (rest ++ kids node).flatMap
                (below kids rank levels)) := by
            rw [List.flatMap_cons, ranked.below_eq isInside,
              List.flatMap_append, List.append_assoc]
            apply List.Perm.append_left
            exact (List.perm_append_comm).cons node
          have shorter :
              ((rest ++ kids node).flatMap
                (below kids rank levels)).length ≤ fuel := by
            have lengths := moved.length_eq
            simp only [List.length_append, List.length_singleton]
              at lengths
            omega
          obtain ⟨final, all, walked, same, ends⟩ :=
            @ih (visited ++ [node]) (rest ++ kids node)
              (visit state node)
              (by
                intro other member
                rcases List.mem_append.mp member with old | new
                · exact others other old
                · exact ranked.closed isInside new)
              (moved.nodup_iff.mp distinct)
              (kept isInside others distinct holds) shorter
          exact ⟨final, all, walked, same.trans moved.symm, ends⟩

end Walk

end Forest
