import Bam.Comments.ThreadForest

namespace Bam
namespace Comments

/-!
# Threads

What a list of messages is as a thread of comments: who is in it, under whom,
how deep and in what order.  `buildThread` makes a thread of every list of
messages with different hashes, and the order of the list does not matter.
-/

namespace CommentNode

def message : CommentNode → DecodedMessage
  | .node message _ _ _ => message

def children : CommentNode → List CommentNode
  | .node _ children _ _ => children

def depth : CommentNode → Nat
  | .node _ _ depth _ => depth

def displayDepth : CommentNode → Nat
  | .node _ _ _ displayDepth => displayDepth

mutual

/-- A node and all nodes below it. -/
def nodes : CommentNode → List CommentNode
  | .node message children depth displayDepth =>
      .node message children depth displayDepth :: nodesOfAll children

/-- The nodes of some trees. -/
def nodesOfAll : List CommentNode → List CommentNode
  | [] => []
  | tree :: rest => nodes tree ++ nodesOfAll rest

end

theorem nodesOfAll_eq
    (trees : List CommentNode) :
    nodesOfAll trees = trees.flatMap nodes := by
  induction trees with
  | nil => rfl
  | cons tree rest ih =>
      rw [nodesOfAll, ih, List.flatMap_cons]

end CommentNode

open CommentNode

/-- What makes some trees the thread of some messages. -/
structure Threaded
    (messages : List DecodedMessage)
    (thread : List CommentNode) : Prop where
  once :
    ((nodesOfAll thread).map fun node => node.message.messageHash).Nodup
  members : ∀ message,
    message ∈ (nodesOfAll thread).map CommentNode.message ↔
      ∃ steps < HARD_CAP, ReachesRoot messages steps message
  placed : ∀ node ∈ nodesOfAll thread,
    node.message.parentMessageHash = none ∧ node ∈ thread ∧
        node.depth = 0 ∨
      ∃ parent ∈ nodesOfAll thread,
        node.message.parentMessageHash = some parent.message.messageHash ∧
          node ∈ parent.children ∧ node.depth = parent.depth + 1
  roots : ∀ root ∈ thread, root.message.parentMessageHash = none
  replies : ∀ node ∈ nodesOfAll thread, ∀ child ∈ node.children,
    child.message.parentMessageHash = some node.message.messageHash
  displayed : ∀ node ∈ nodesOfAll thread,
    node.displayDepth = min node.depth 2
  rootsOrdered : (thread.map CommentNode.message).Pairwise ComesBefore
  repliesOrdered : ∀ node ∈ nodesOfAll thread,
    (node.children.map CommentNode.message).Pairwise ComesBefore

variable {messages : List DecodedMessage}

section Nodes

theorem nodeOf_eq
    (distinct : Distinct messages)
    {message : DecodedMessage}
    (survives : message ∈ survivors messages) :
    nodeOf messages message =
      .node message ((repliesTo messages message).map (nodeOf messages))
        (rankOf messages message)
        (clampDepth (rankOf messages message)) := by
  have ranked := ranked_survivors distinct
  have room := ranked.bounded survives
  have split : HARD_CAP - rankOf messages message =
      HARD_CAP - (rankOf messages message + 1) + 1 := by
    omega
  have kids :
      (repliesTo messages message).map
          (treeOf (repliesTo messages)
            (HARD_CAP - (rankOf messages message + 1))
            (rankOf messages message + 1)) =
        (repliesTo messages message).map (nodeOf messages) := by
    apply List.map_congr_left
    intro kid isKid
    rw [nodeOf, ranked.rank_child survives isKid]
  rw [nodeOf, split, treeOf, kids]

theorem message_nodeOf
    (message : DecodedMessage) :
    (nodeOf messages message).message = message := by
  unfold nodeOf
  cases HARD_CAP - rankOf messages message with
  | zero => rfl
  | succ levels => rfl

/-- The nodes below a survivor's are those of the messages below it. -/
theorem nodes_nodeOf
    (distinct : Distinct messages)
    {message : DecodedMessage}
    (survives : message ∈ survivors messages) :
    (nodeOf messages message).nodes =
      (Forest.below (repliesTo messages) (rankOf messages) HARD_CAP
        message).map (nodeOf messages) := by
  have ranked := ranked_survivors distinct
  induction levels : HARD_CAP - rankOf messages message
    generalizing message with
  | zero =>
      have room := ranked.bounded survives
      omega
  | succ levels ih =>
      have below : (repliesTo messages message).flatMap
            (fun kid => (nodeOf messages kid).nodes) =
          (repliesTo messages message).flatMap fun kid =>
            (Forest.below (repliesTo messages) (rankOf messages) HARD_CAP
              kid).map (nodeOf messages) := by
        apply List.flatMap_congr
        intro kid isKid
        apply ih (ranked.closed survives isKid)
        rw [ranked.rank_child survives isKid]
        omega
      rw [ranked.below_eq survives, List.map_cons, List.map_flatMap, ← below]
      rw [nodeOf_eq distinct survives, CommentNode.nodes, nodesOfAll_eq,
        List.flatMap_map]

/-- The roots of a thread. -/
noncomputable def threadOf
    (messages : List DecodedMessage) : List CommentNode :=
  (sortNodes (rootsAmong (survivors messages))).map (nodeOf messages)

theorem nodesOfAll_threadOf
    (distinct : Distinct messages) :
    (nodesOfAll (threadOf messages)).Perm
      ((threaded messages).map (nodeOf messages)) := by
  have each : ∀ root ∈ sortNodes (rootsAmong (survivors messages)),
      (nodeOf messages root).nodes =
        (Forest.below (repliesTo messages) (rankOf messages) HARD_CAP
          root).map (nodeOf messages) :=
    fun root isRoot =>
      nodes_nodeOf distinct
        (rankOf_root distinct (mem_sortNodes.mp isRoot)).1
  rw [nodesOfAll_eq, threadOf, List.flatMap_map, threaded,
    List.map_flatMap, List.flatMap_congr each]
  exact (List.perm_insertionSort _ _).flatMap_right _

theorem mem_nodesOfAll_threadOf
    (distinct : Distinct messages)
    {node : CommentNode} :
    node ∈ nodesOfAll (threadOf messages) ↔
      ∃ message ∈ survivors messages, nodeOf messages message = node := by
  rw [(nodesOfAll_threadOf distinct).mem_iff, List.mem_map]
  constructor
  · rintro ⟨message, isThreaded, same⟩
    exact ⟨message, (mem_threaded_iff distinct).mp isThreaded, same⟩
  · rintro ⟨message, survives, same⟩
    exact ⟨message, (mem_threaded_iff distinct).mpr survives, same⟩

end Nodes

section Thread

theorem clampDepth_eq_min
    (depth : Nat) :
    clampDepth depth = min depth 2 := by
  unfold clampDepth
  split
  · omega
  · split <;> omega

theorem map_message_nodeOf
    (list : List DecodedMessage) :
    (list.map (nodeOf messages)).map CommentNode.message = list := by
  rw [List.map_map]
  exact (List.map_congr_left fun message _ =>
    message_nodeOf message).trans (List.map_id list)

/-- A survivor's node is a root, or a reply of another survivor's. -/
theorem placed_nodeOf
    (distinct : Distinct messages)
    {message : DecodedMessage}
    (survives : message ∈ survivors messages) :
    message.parentMessageHash = none ∧
        nodeOf messages message ∈ threadOf messages ∧
        (nodeOf messages message).depth = 0 ∨
      ∃ parent ∈ survivors messages,
        message.parentMessageHash = some parent.messageHash ∧
          nodeOf messages message ∈ (nodeOf messages parent).children ∧
          (nodeOf messages message).depth =
            (nodeOf messages parent).depth + 1 := by
  obtain ⟨steps, inCap, reaches⟩ := (mem_survivors_iff distinct).mp survives
  cases reaches with
  | root member isRoot =>
      have amongRoots : message ∈ rootsAmong (survivors messages) :=
        List.mem_filter.mpr ⟨survives, by rw [isRoot]; rfl⟩
      refine .inl ⟨isRoot, ?_, ?_⟩
      · exact List.mem_map_of_mem (mem_sortNodes.mpr amongRoots)
      · rw [nodeOf_eq distinct survives]
        exact (rankOf_root distinct amongRoots).2
  | @reply steps _ parent member isReply parentReaches =>
      have parentSurvives := (mem_survivors_iff distinct).mpr
        ⟨steps, Nat.lt_of_succ_lt inCap, parentReaches⟩
      have isKid := mem_repliesTo_iff.mpr ⟨survives, isReply⟩
      refine .inr ⟨parent, parentSurvives, isReply, ?_, ?_⟩
      · rw [nodeOf_eq distinct parentSurvives]
        exact List.mem_map_of_mem isKid
      · rw [nodeOf_eq distinct survives, nodeOf_eq distinct parentSurvives]
        exact (ranked_survivors distinct).rank_child parentSurvives isKid

theorem threaded_threadOf
    (distinct : Distinct messages) :
    Threaded messages (threadOf messages) where
  once := by
    have hashes :
        ((nodesOfAll (threadOf messages)).map
            fun node => node.message.messageHash).Perm
          ((threaded messages).map DecodedMessage.messageHash) := by
      have same := (nodesOfAll_threadOf distinct).map
        fun node => node.message.messageHash
      rw [List.map_map] at same
      apply same.trans
      apply List.Perm.of_eq
      apply List.map_congr_left
      intro message _
      exact congrArg DecodedMessage.messageHash (message_nodeOf message)
    apply hashes.nodup_iff.mpr
    apply List.Nodup.map_on _ (nodup_threaded distinct)
    intro first isFirst second isSecond sameHash
    exact (distinct_survivors distinct).eq
      ((mem_threaded_iff distinct).mp isFirst)
      ((mem_threaded_iff distinct).mp isSecond) sameHash
  members := by
    intro message
    rw [← mem_survivors_iff distinct, List.mem_map]
    constructor
    · rintro ⟨node, isNode, rfl⟩
      obtain ⟨message, survives, rfl⟩ :=
        (mem_nodesOfAll_threadOf distinct).mp isNode
      rwa [message_nodeOf]
    · intro survives
      exact ⟨nodeOf messages message,
        (mem_nodesOfAll_threadOf distinct).mpr ⟨message, survives, rfl⟩,
        message_nodeOf message⟩
  placed := by
    intro node isNode
    obtain ⟨message, survives, rfl⟩ :=
      (mem_nodesOfAll_threadOf distinct).mp isNode
    rw [message_nodeOf]
    rcases placed_nodeOf distinct survives with
      isRoot | ⟨parent, parentSurvives, isReply, isChild, deeper⟩
    · exact .inl isRoot
    · refine .inr ⟨nodeOf messages parent,
        (mem_nodesOfAll_threadOf distinct).mpr
          ⟨parent, parentSurvives, rfl⟩, ?_, isChild, deeper⟩
      rwa [message_nodeOf]
  roots := by
    intro root isRoot
    obtain ⟨message, amongRoots, rfl⟩ := List.mem_map.mp isRoot
    have noParent :=
      (List.mem_filter.mp (mem_sortNodes.mp amongRoots)).2
    rw [message_nodeOf]
    simpa using noParent
  replies := by
    intro node isNode child isChild
    obtain ⟨message, survives, rfl⟩ :=
      (mem_nodesOfAll_threadOf distinct).mp isNode
    rw [nodeOf_eq distinct survives] at isChild
    obtain ⟨kid, isKid, rfl⟩ := List.mem_map.mp isChild
    rw [message_nodeOf, message_nodeOf]
    exact (mem_repliesTo_iff.mp isKid).2
  displayed := by
    intro node isNode
    obtain ⟨message, survives, rfl⟩ :=
      (mem_nodesOfAll_threadOf distinct).mp isNode
    rw [nodeOf_eq distinct survives]
    exact clampDepth_eq_min (rankOf messages message)
  rootsOrdered := by
    rw [threadOf, map_message_nodeOf]
    exact sortNodes_ordered ((distinct_survivors distinct).sublist
      (List.filter_sublist.map DecodedMessage.messageHash))
  repliesOrdered := by
    intro node isNode
    obtain ⟨message, survives, rfl⟩ :=
      (mem_nodesOfAll_threadOf distinct).mp isNode
    rw [nodeOf_eq distinct survives, CommentNode.children,
      map_message_nodeOf]
    exact sortNodes_ordered
      (distinct_repliesAmong distinct message.messageHash)

end Thread

section Order

variable {permuted : List DecodedMessage}

theorem ReachesRoot.mono
    (subset : permuted ⊆ messages)
    {steps : Nat}
    {message : DecodedMessage}
    (reaches : ReachesRoot permuted steps message) :
    ReachesRoot messages steps message := by
  induction reaches with
  | root member isRoot => exact .root (subset member) isRoot
  | reply member isReply _ ih => exact .reply (subset member) isReply ih

theorem reachesRoot_perm
    (same : permuted.Perm messages) :
    ReachesRoot permuted = ReachesRoot messages := by
  funext steps message
  exact propext ⟨.mono same.subset, .mono same.symm.subset⟩

theorem Distinct.perm
    (distinct : Distinct messages)
    (same : permuted.Perm messages) :
    Distinct permuted :=
  (same.map DecodedMessage.messageHash).nodup_iff.mpr distinct

theorem survivors_perm
    (distinct : Distinct messages)
    (same : permuted.Perm messages) :
    (survivors permuted).Perm (survivors messages) := by
  have permutedDistinct := distinct.perm same
  have nodups := List.Nodup.of_map _ (distinct_survivors permutedDistinct)
  have nodup := List.Nodup.of_map _ (distinct_survivors distinct)
  apply (List.perm_ext_iff_of_nodup nodups nodup).mpr
  intro message
  rw [mem_survivors_iff permutedDistinct, mem_survivors_iff distinct,
    reachesRoot_perm same]

/-- The order of the list does not matter to the nodes. -/
theorem nodeOf_perm
    (distinct : Distinct messages)
    (same : permuted.Perm messages) :
    nodeOf permuted = nodeOf messages := by
  have ranks : rankOf permuted = rankOf messages := by
    funext message
    rw [rankOf, rankOf, reachesRoot_perm same]
  have replies : repliesTo permuted = repliesTo messages := by
    funext message
    exact sortNodes_perm (distinct_repliesAmong distinct message.messageHash)
      ((survivors_perm distinct same).filter _)
  funext message
  rw [nodeOf, nodeOf, ranks, replies]

theorem threadOf_perm
    (distinct : Distinct messages)
    (same : permuted.Perm messages) :
    threadOf permuted = threadOf messages := by
  have roots :
      sortNodes (rootsAmong (survivors permuted)) =
        sortNodes (rootsAmong (survivors messages)) :=
    sortNodes_perm
      ((distinct_survivors distinct).sublist
        (List.filter_sublist.map DecodedMessage.messageHash))
      ((survivors_perm distinct same).filter _)
  rw [threadOf, threadOf, roots, nodeOf_perm distinct same]

end Order

/-- A message of a small thread. -/
def sampleMessage
    (hash : Nat)
    (timestamp : Int)
    (parent : Option Nat) : DecodedMessage where
  messageHash := BitVec.ofNat 256 hash
  sender := 0
  postIdHash := 0
  timestamp := timestamp
  content := []
  parentMessageHash := parent.map (BitVec.ofNat 256)
  pending := false

/-- Two replies, their root, an orphan, a reply to itself and a cycle. -/
def sampleMessages : List DecodedMessage :=
  [sampleMessage 3 20 (some 1), sampleMessage 2 20 (some 1),
    sampleMessage 1 10 none, sampleMessage 4 5 (some 9),
    sampleMessage 5 5 (some 5), sampleMessage 6 5 (some 7),
    sampleMessage 7 5 (some 6)]

example :
    (buildThreadWithin 7 sampleMessages).map (fun thread =>
        (nodesOfAll thread).map fun node =>
          (node.message.messageHash.toNat, node.depth)) =
      some [(1, 0), (2, 1), (3, 1)] := by
  decide

end Comments
end Bam
