import Bam.Comments.Thread

namespace Bam
namespace Comments

/-!
# What a thread holds

The messages that survive are those whose parents lead to a root in fewer than
`HARD_CAP` steps.  They form a ranked forest, and the breadth-first pass turns
it into comment nodes.
-/

/-- The parents of a message lead to a root of the list in so many steps. -/
inductive ReachesRoot
    (messages : List DecodedMessage) : Nat → DecodedMessage → Prop where
  | root
      {message : DecodedMessage}
      (member : message ∈ messages)
      (isRoot : message.parentMessageHash = none) :
      ReachesRoot messages 0 message
  | reply
      {steps : Nat}
      {message parent : DecodedMessage}
      (member : message ∈ messages)
      (isReply :
        message.parentMessageHash = some parent.messageHash)
      (reaches : ReachesRoot messages steps parent) :
      ReachesRoot messages (steps + 1) message

variable {messages : List DecodedMessage}

theorem ReachesRoot.mem
    {steps : Nat}
    {message : DecodedMessage}
    (reaches : ReachesRoot messages steps message) :
    message ∈ messages := by
  cases reaches with
  | root member => exact member
  | reply member => exact member

/-- The hashes of a list of messages are different. -/
def Distinct (messages : List DecodedMessage) : Prop :=
  (messages.map DecodedMessage.messageHash).Nodup

theorem Distinct.eq
    (distinct : Distinct messages)
    {first second : DecodedMessage}
    (isFirst : first ∈ messages)
    (isSecond : second ∈ messages)
    (same : first.messageHash = second.messageHash) :
    first = second :=
  List.inj_on_of_nodup_map distinct isFirst isSecond same

/-- A message reaches its root in one number of steps. -/
theorem ReachesRoot.unique
    (distinct : Distinct messages)
    {left right : Nat}
    {message : DecodedMessage}
    (first : ReachesRoot messages left message)
    (second : ReachesRoot messages right message) :
    left = right := by
  induction first generalizing right with
  | root _ isRoot =>
      cases second with
      | root => rfl
      | reply _ isReply =>
          rw [isRoot] at isReply
          cases isReply
  | reply _ isReply reaches ih =>
      cases second with
      | root _ isRoot =>
          rw [isRoot] at isReply
          cases isReply
      | reply _ isAlsoReply also =>
          have sameHash := Option.some.inj (isReply.symm.trans isAlsoReply)
          have sameParent := distinct.eq reaches.mem also.mem sameHash
          subst sameParent
          rw [ih also]

section Survivors

theorem get?_indexByHash
    (distinct : Distinct messages)
    {hash : Bytes32}
    {message : DecodedMessage} :
    (indexByHash messages).get? hash = some message ↔
      message ∈ messages ∧ message.messageHash = hash := by
  have entries := @JsMap.entries_foldl_set Bytes32 DecodedMessage _
    DecodedMessage DecodedMessage.messageHash id messages JsMap.empty
    (by simpa [Distinct, JsMap.keys, JsMap.empty] using distinct)
  have isIndex : (indexByHash messages).entries =
      messages.map fun message => (message.messageHash, message) := entries
  rw [JsMap.get?_eq_some_iff, isIndex, List.mem_map]
  constructor
  · rintro ⟨other, member, same⟩
    cases same
    exact ⟨member, rfl⟩
  · rintro ⟨member, rfl⟩
    exact ⟨message, member, rfl⟩

/-- A climb that ends well ends at a root. -/
theorem reachesRoot_of_climb
    (distinct : Distinct messages)
    {steps : Nat}
    {visited : List Bytes32}
    {cursor : DecodedMessage}
    (member : cursor ∈ messages)
    (climbs :
      climb (indexByHash messages) steps visited cursor = true) :
    ∃ distance < steps, ReachesRoot messages distance cursor := by
  induction steps generalizing visited cursor with
  | zero => cases climbs
  | succ steps ih =>
      rw [climb] at climbs
      split at climbs
      · cases climbs
      · cases parent : cursor.parentMessageHash with
        | none => exact ⟨0, Nat.succ_pos steps, .root member parent⟩
        | some hash =>
            rw [parent] at climbs
            dsimp only at climbs
            cases found : (indexByHash messages).get? hash with
            | none =>
                rw [found] at climbs
                cases climbs
            | some next =>
                rw [found] at climbs
                obtain ⟨isNext, rfl⟩ := (get?_indexByHash distinct).mp found
                obtain ⟨distance, within, reaches⟩ := ih isNext climbs
                exact ⟨distance + 1, Nat.succ_lt_succ within,
                  .reply member parent reaches⟩

/-- A climb from a message that reaches its root in time ends well: what it
visited is farther from the root than where it stands. -/
theorem climb_of_reachesRoot
    (distinct : Distinct messages)
    {steps distance : Nat}
    {visited : List Bytes32}
    {cursor : DecodedMessage}
    (within : distance < steps)
    (reaches : ReachesRoot messages distance cursor)
    (farther : ∀ hash ∈ visited, ∃ other farness,
      other.messageHash = hash ∧ distance < farness ∧
        ReachesRoot messages farness other) :
    climb (indexByHash messages) steps visited cursor = true := by
  induction steps generalizing distance visited cursor with
  | zero => cases within
  | succ steps ih =>
      have fresh : cursor.messageHash ∉ visited := by
        intro again
        obtain ⟨other, farness, sameHash, isFarther, otherReaches⟩ :=
          farther _ again
        have same := distinct.eq otherReaches.mem reaches.mem sameHash
        subst same
        rw [otherReaches.unique distinct reaches] at isFarther
        exact Nat.lt_irrefl _ isFarther
      rw [climb, if_neg fresh]
      cases reaches with
      | root _ isRoot => rw [isRoot]
      | @reply distance _ parent member isReply parentReaches =>
          have found : (indexByHash messages).get? parent.messageHash =
              some parent :=
            (get?_indexByHash distinct).mpr ⟨parentReaches.mem, rfl⟩
          rw [isReply]
          dsimp only
          rw [found]
          dsimp only
          apply ih (Nat.lt_of_succ_lt_succ within) parentReaches
          intro hash isVisited
          rcases List.mem_cons.mp isVisited with rfl | old
          · exact ⟨cursor, distance + 1, rfl, Nat.lt_succ_self distance,
              .reply member isReply parentReaches⟩
          · obtain ⟨other, farness, sameHash, isFarther, otherReaches⟩ :=
              farther hash old
            exact ⟨other, farness, sameHash,
              (Nat.lt_succ_self distance).trans isFarther, otherReaches⟩

/-- The messages that survive. -/
theorem isReachableRoot_iff
    (distinct : Distinct messages)
    {message : DecodedMessage}
    (member : message ∈ messages) :
    isReachableRoot (indexByHash messages) message = true ↔
      ∃ distance < HARD_CAP, ReachesRoot messages distance message := by
  constructor
  · exact reachesRoot_of_climb distinct member
  · rintro ⟨distance, within, reaches⟩
    exact climb_of_reachesRoot distinct within reaches (by simp)

/-- The messages that survive, in the order of the list. -/
def survivors
    (messages : List DecodedMessage) : List DecodedMessage :=
  messages.filter (isReachableRoot (indexByHash messages))

theorem mem_survivors_iff
    (distinct : Distinct messages)
    {message : DecodedMessage} :
    message ∈ survivors messages ↔
      ∃ distance < HARD_CAP, ReachesRoot messages distance message := by
  rw [survivors, List.mem_filter]
  constructor
  · rintro ⟨member, survives⟩
    exact (isReachableRoot_iff distinct member).mp survives
  · rintro ⟨distance, within, reaches⟩
    exact ⟨reaches.mem, (isReachableRoot_iff distinct reaches.mem).mpr
      ⟨distance, within, reaches⟩⟩

theorem distinct_survivors
    (distinct : Distinct messages) :
    Distinct (survivors messages) :=
  distinct.sublist (List.filter_sublist.map DecodedMessage.messageHash)

theorem entries_survivorsOf
    (distinct : Distinct messages) :
    (survivorsOf messages).entries =
      (survivors messages).map
        fun message => (message.messageHash, message) := by
  have folded : survivorsOf messages =
      (survivors messages).foldl
        (fun map message => map.set message.messageHash message)
        JsMap.empty :=
    List.foldl_filter.symm
  rw [folded]
  exact JsMap.entries_foldl_set DecodedMessage.messageHash id
    (by simpa [JsMap.keys, JsMap.empty, Distinct] using
      distinct_survivors distinct)

/-- The node of a message with nothing set. -/
def freshNode (message : DecodedMessage) : NodeRecord where
  message := message
  children := []
  depth := 0
  displayDepth := 0

theorem entries_allNodesOf
    (distinct : Distinct messages) :
    (allNodesOf (survivorsOf messages)).entries =
      (survivors messages).map
        fun message => (message.messageHash, freshNode message) := by
  have values :
      (survivorsOf messages).entries.map Prod.snd = survivors messages := by
    rw [entries_survivorsOf distinct, List.map_map]
    exact List.map_id _
  rw [allNodesOf, values]
  exact JsMap.entries_foldl_set DecodedMessage.messageHash freshNode
    (by simpa [JsMap.keys, JsMap.empty, Distinct] using
      distinct_survivors distinct)

theorem get?_allNodesOf
    (distinct : Distinct messages)
    {message : DecodedMessage}
    (survives : message ∈ survivors messages) :
    (allNodesOf (survivorsOf messages)).get? message.messageHash =
      some (freshNode message) := by
  rw [JsMap.get?_eq_some_iff, entries_allNodesOf distinct]
  exact List.mem_map.mpr ⟨message, survives, rfl⟩

/-- The replies to a hash among some messages, and those that are none. -/
def repliesAmong
    (nodes : List DecodedMessage)
    (hash : Bytes32) : List DecodedMessage :=
  nodes.filter fun node => node.parentMessageHash = some hash

def rootsAmong (nodes : List DecodedMessage) : List DecodedMessage :=
  nodes.filter fun node => node.parentMessageHash = none

/-- Grouping nodes whose parents are all there. -/
theorem foldl_groupNode
    {allNodes : NodeMap}
    {nodes : List DecodedMessage}
    {groups : Groups}
    (present : ∀ node ∈ nodes, ∀ parentKey,
      node.parentMessageHash = some parentKey →
        (allNodes.get? parentKey).isSome) :
    (∀ hash,
        (((nodes.foldl (groupNode allNodes) groups).childrenOf).get?
            hash).getD [] =
          (groups.childrenOf.get? hash).getD [] ++
            repliesAmong nodes hash) ∧
      (nodes.foldl (groupNode allNodes) groups).roots =
        groups.roots ++ rootsAmong nodes := by
  induction nodes generalizing groups with
  | nil => simp [repliesAmong, rootsAmong]
  | cons node nodes ih =>
      have rest := @ih (groupNode allNodes groups node)
        fun other member => present other (List.mem_cons_of_mem _ member)
      rw [List.foldl_cons]
      cases parent : node.parentMessageHash with
      | none =>
          have grouped : groupNode allNodes groups node =
              { groups with roots := groups.roots ++ [node] } := by
            rw [groupNode, parent]
          rw [grouped] at rest ⊢
          refine ⟨fun hash => ?_, ?_⟩
          · rw [rest.1 hash]
            simp [repliesAmong, parent]
          · rw [rest.2]
            simp [rootsAmong, parent]
      | some parentKey =>
          have grouped : groupNode allNodes groups node =
              { groups with
                childrenOf := groups.childrenOf.set parentKey
                  ((groups.childrenOf.get? parentKey).getD [] ++
                    [node]) } := by
            rw [groupNode, parent]
            exact if_pos
              (present node (List.mem_cons_self ..) parentKey parent)
          rw [grouped] at rest ⊢
          refine ⟨fun hash => ?_, ?_⟩
          · rw [rest.1 hash, JsMap.get?_set]
            by_cases same : hash = parentKey
            · simp [same, repliesAmong, parent]
            · simp [same, Ne.symm same, repliesAmong, parent]
          · rw [rest.2]
            simp [rootsAmong, parent]

theorem groupNodes_eq
    (distinct : Distinct messages) :
    let groups := groupNodes (allNodesOf (survivorsOf messages))
    (∀ hash, (groups.childrenOf.get? hash).getD [] =
        repliesAmong (survivors messages) hash) ∧
      groups.roots = rootsAmong (survivors messages) := by
  have nodes :
      ((allNodesOf (survivorsOf messages)).entries.map
        fun entry => entry.2.message) = survivors messages := by
    rw [entries_allNodesOf distinct, List.map_map]
    exact List.map_id _
  have present : ∀ node ∈ survivors messages, ∀ parentKey,
      node.parentMessageHash = some parentKey →
        ((allNodesOf (survivorsOf messages)).get? parentKey).isSome := by
    intro node survives parentKey isParent
    obtain ⟨distance, within, reaches⟩ :=
      (mem_survivors_iff distinct).mp survives
    cases reaches with
    | root _ isRoot =>
        rw [isRoot] at isParent
        cases isParent
    | @reply steps _ parent _ isReply parentReaches =>
        have same := Option.some.inj (isReply.symm.trans isParent)
        have parentSurvives := (mem_survivors_iff distinct).mpr
          ⟨steps, Nat.lt_of_succ_lt within, parentReaches⟩
        rw [← same, get?_allNodesOf distinct parentSurvives]
        rfl
  have grouped := @foldl_groupNode _ _
    { childrenOf := JsMap.empty, roots := [] } present
  unfold groupNodes
  rw [nodes]
  exact ⟨fun hash => (grouped.1 hash).trans (List.nil_append _),
    grouped.2.trans (List.nil_append _)⟩

end Survivors

section Sorting

/-- One message comes before another, by timestamp and then by hash. -/
def ComesBefore (first second : DecodedMessage) : Prop :=
  first.timestamp < second.timestamp ∨
    first.timestamp = second.timestamp ∧
      first.messageHash.toNat < second.messageHash.toNat

theorem compareNodes_le_iff
    {first second : DecodedMessage} :
    compareNodes first second ≤ 0 ↔
      first.timestamp < second.timestamp ∨
        first.timestamp = second.timestamp ∧
          first.messageHash.toNat ≤ second.messageHash.toNat := by
  unfold compareNodes
  split <;> omega

theorem comesBefore_of_le
    {first second : DecodedMessage}
    (le : compareNodes first second ≤ 0)
    (differs : first.messageHash ≠ second.messageHash) :
    ComesBefore first second := by
  have numbers : first.messageHash.toNat ≠ second.messageHash.toNat :=
    fun same => differs (BitVec.eq_of_toNat_eq same)
  rcases compareNodes_le_iff.mp le with earlier | ⟨same, notAfter⟩
  · exact .inl earlier
  · exact .inr ⟨same, lt_of_le_of_ne notAfter numbers⟩

theorem mem_sortNodes
    {nodes : List DecodedMessage}
    {node : DecodedMessage} :
    node ∈ sortNodes nodes ↔ node ∈ nodes :=
  List.mem_insertionSort _

theorem pairwise_sortNodes
    (nodes : List DecodedMessage) :
    (sortNodes nodes).Pairwise
      fun first second => compareNodes first second ≤ 0 := by
  have : Std.Total fun first second : DecodedMessage =>
      compareNodes first second ≤ 0 := by
    constructor
    intro first second
    rw [compareNodes_le_iff, compareNodes_le_iff]
    omega
  have : IsTrans DecodedMessage fun first second =>
      compareNodes first second ≤ 0 := by
    constructor
    intro first second third
    rw [compareNodes_le_iff, compareNodes_le_iff, compareNodes_le_iff]
    omega
  exact List.pairwise_insertionSort _ nodes

/-- Sorted messages of different hashes come one before the other. -/
theorem sortNodes_ordered
    {nodes : List DecodedMessage}
    (distinct : Distinct nodes) :
    (sortNodes nodes).Pairwise ComesBefore := by
  have hashes : (sortNodes nodes).Pairwise
      fun first second => first.messageHash ≠ second.messageHash :=
    List.pairwise_map.mp
      (((List.perm_insertionSort _ nodes).map _).nodup_iff.mpr distinct)
  exact (pairwise_sortNodes nodes).imp₂
    (fun _ _ le differs => comesBefore_of_le le differs) hashes

/-- The order of the list does not matter to a sort. -/
theorem sortNodes_perm
    {nodes others : List DecodedMessage}
    (distinct : Distinct nodes)
    (same : others.Perm nodes) :
    sortNodes others = sortNodes nodes := by
  apply List.Perm.eq_of_pairwise _ (pairwise_sortNodes others)
    (pairwise_sortNodes nodes)
  · exact ((List.perm_insertionSort _ others).trans same).trans
      (List.perm_insertionSort _ nodes).symm
  · intro first second isFirst isSecond le ge
    have inNodes := same.mem_iff.mp (mem_sortNodes.mp isFirst)
    apply distinct.eq inNodes (mem_sortNodes.mp isSecond)
    rw [compareNodes_le_iff] at le ge
    apply BitVec.eq_of_toNat_eq
    omega

end Sorting

section Ranks

/-- The replies to a message among the survivors, sorted. -/
def repliesTo
    (messages : List DecodedMessage)
    (node : DecodedMessage) : List DecodedMessage :=
  sortNodes (repliesAmong (survivors messages) node.messageHash)

theorem mem_repliesTo_iff
    {node kid : DecodedMessage} :
    kid ∈ repliesTo messages node ↔
      kid ∈ survivors messages ∧
        kid.parentMessageHash = some node.messageHash := by
  rw [repliesTo, mem_sortNodes, repliesAmong, List.mem_filter,
    decide_eq_true_iff]

theorem distinct_repliesAmong
    (distinct : Distinct messages)
    (hash : Bytes32) :
    Distinct (repliesAmong (survivors messages) hash) :=
  (distinct_survivors distinct).sublist
    (List.filter_sublist.map DecodedMessage.messageHash)

/-- How many steps a message is from its root. -/
noncomputable def rankOf
    (messages : List DecodedMessage)
    (message : DecodedMessage) : Nat :=
  Classical.epsilon fun steps => ReachesRoot messages steps message

theorem rankOf_eq
    (distinct : Distinct messages)
    {steps : Nat}
    {message : DecodedMessage}
    (reaches : ReachesRoot messages steps message) :
    rankOf messages message = steps := by
  have chosen : ReachesRoot messages (rankOf messages message) message :=
    @Classical.epsilon_spec Nat
      (fun steps => ReachesRoot messages steps message) ⟨steps, reaches⟩
  exact chosen.unique distinct reaches

/-- The survivors and their replies are a ranked forest. -/
theorem ranked_survivors
    (distinct : Distinct messages) :
    Forest.Ranked (repliesTo messages)
      (fun message => message ∈ survivors messages) (rankOf messages)
      HARD_CAP where
  bounded := by
    intro node survives
    obtain ⟨steps, within, reaches⟩ :=
      (mem_survivors_iff distinct).mp survives
    rw [rankOf_eq distinct reaches]
    exact within
  closed := fun _ isKid => (mem_repliesTo_iff.mp isKid).1
  rank_child := by
    intro node kid survives isKid
    obtain ⟨steps, _, reaches⟩ := (mem_survivors_iff distinct).mp survives
    obtain ⟨kidSurvives, isReply⟩ := mem_repliesTo_iff.mp isKid
    have member := List.mem_of_mem_filter kidSurvives
    rw [rankOf_eq distinct reaches,
      rankOf_eq distinct (.reply member isReply reaches)]
  nodup := by
    intro node _
    have hashes := distinct_repliesAmong distinct node.messageHash
    exact (List.perm_insertionSort _ _).nodup_iff.mpr
      (List.Nodup.of_map _ hashes)
  parent := by
    intro first second kid isFirst isSecond underFirst underSecond
    have left := (mem_repliesTo_iff.mp underFirst).2
    have right := (mem_repliesTo_iff.mp underSecond).2
    exact (distinct_survivors distinct).eq isFirst isSecond
      (Option.some.inj (left.symm.trans right))

/-- Every survivor is below a root. -/
theorem path_of_reachesRoot
    (distinct : Distinct messages)
    {steps : Nat}
    {message : DecodedMessage}
    (reaches : ReachesRoot messages steps message)
    (within : steps < HARD_CAP) :
    ∃ root ∈ rootsAmong (survivors messages),
      Forest.Path (repliesTo messages) steps root message := by
  induction reaches with
  | @root message member isRoot =>
      refine ⟨message, List.mem_filter.mpr ⟨?_, ?_⟩, .refl message⟩
      · exact (mem_survivors_iff distinct).mpr
          ⟨0, within, .root member isRoot⟩
      · rw [isRoot]
        rfl
  | @reply steps message parent member isReply parentReaches ih =>
      obtain ⟨root, isRoot, path⟩ := ih (Nat.lt_of_succ_lt within)
      have survives := (mem_survivors_iff distinct).mpr
        ⟨steps + 1, within, .reply member isReply parentReaches⟩
      exact ⟨root, isRoot,
        .step path (mem_repliesTo_iff.mpr ⟨survives, isReply⟩)⟩

theorem rankOf_root
    (distinct : Distinct messages)
    {root : DecodedMessage}
    (isRoot : root ∈ rootsAmong (survivors messages)) :
    root ∈ survivors messages ∧ rankOf messages root = 0 := by
  obtain ⟨survives, noParent⟩ := List.mem_filter.mp isRoot
  refine ⟨survives, rankOf_eq distinct (.root ?_ ?_)⟩
  · exact List.mem_of_mem_filter survives
  · simpa using noParent

/-- All the nodes below the roots. -/
noncomputable def threaded
    (messages : List DecodedMessage) : List DecodedMessage :=
  (rootsAmong (survivors messages)).flatMap
    (Forest.below (repliesTo messages) (rankOf messages) HARD_CAP)

theorem below_root
    (distinct : Distinct messages)
    {root : DecodedMessage}
    (isRoot : root ∈ rootsAmong (survivors messages)) :
    Forest.below (repliesTo messages) (rankOf messages) HARD_CAP root =
      Forest.descendants (repliesTo messages) HARD_CAP root := by
  rw [Forest.below, (rankOf_root distinct isRoot).2, Nat.sub_zero]

theorem nodup_threaded
    (distinct : Distinct messages) :
    (threaded messages).Nodup := by
  have ranked := ranked_survivors distinct
  have onceRoots : (rootsAmong (survivors messages)).Nodup :=
    (List.Nodup.of_map _ (distinct_survivors distinct)).filter _
  rw [threaded, List.flatMap_congr fun root isRoot =>
    below_root distinct isRoot]
  exact ranked.nodup_flatMap onceRoots
    (fun root isRoot => (rankOf_root distinct isRoot).1)
    (fun root isRoot => (rankOf_root distinct isRoot).2)
    fun root isRoot =>
      ranked.nodup_descendants HARD_CAP (rankOf_root distinct isRoot).1

theorem mem_threaded_iff
    (distinct : Distinct messages)
    {message : DecodedMessage} :
    message ∈ threaded messages ↔ message ∈ survivors messages := by
  rw [threaded, List.mem_flatMap]
  constructor
  · rintro ⟨root, isRoot, isBelow⟩
    rw [below_root distinct isRoot] at isBelow
    obtain ⟨distance, _, path⟩ := Forest.mem_descendants_iff.mp isBelow
    exact ((ranked_survivors distinct).path
      (rankOf_root distinct isRoot).1 path).1
  · intro survives
    obtain ⟨steps, inCap, reaches⟩ :=
      (mem_survivors_iff distinct).mp survives
    obtain ⟨root, isRoot, path⟩ :=
      path_of_reachesRoot distinct reaches inCap
    refine ⟨root, isRoot, ?_⟩
    rw [below_root distinct isRoot]
    exact Forest.mem_descendants_iff.mpr ⟨steps, inCap, path⟩

end Ranks

section Pass

/-- Set the depth of a node. -/
def deepen
    (depth : Nat)
    (record : NodeRecord) : NodeRecord :=
  { record with depth := depth, displayDepth := clampDepth depth }

/-- Add children to a node. -/
def adopt
    (kids : List DecodedMessage)
    (record : NodeRecord) : NodeRecord :=
  { record with children := record.children ++ kids }

theorem get?_modifyNode
    (key other : Bytes32)
    (change : NodeRecord → NodeRecord)
    (nodes : NodeMap) :
    (modifyNode key change nodes).get? other =
      if other = key then (nodes.get? other).map change
      else nodes.get? other := by
  unfold modifyNode
  cases held : nodes.get? key with
  | none =>
      dsimp only
      split
      · rename_i same
        rw [same, held]
        rfl
      · rfl
  | some record =>
      dsimp only
      rw [JsMap.get?_set]
      split
      · rename_i same
        rw [same, held]
        rfl
      · rfl

theorem get?_attach
    {node kid : DecodedMessage}
    (nodes : NodeMap)
    (differs : kid.messageHash ≠ node.messageHash)
    (hash : Bytes32) :
    (attach node nodes kid).get? hash =
      if hash = node.messageHash then
        (nodes.get? hash).map (adopt [kid])
      else if hash = kid.messageHash then
        (nodes.get? hash).map (deepen (depthOf nodes node + 1))
      else nodes.get? hash := by
  unfold attach
  dsimp only
  rw [get?_modifyNode, get?_modifyNode]
  split
  · rename_i same
    rw [if_neg (same ▸ differs.symm)]
    rfl
  · rfl

/-- What one turn changes: the node gets its replies, and they their depth. -/
theorem get?_foldl_attach
    {node : DecodedMessage}
    {kids : List DecodedMessage}
    (nodes : NodeMap)
    (differ : ∀ kid ∈ kids, kid.messageHash ≠ node.messageHash)
    (hash : Bytes32) :
    (kids.foldl (attach node) nodes).get? hash =
      if hash = node.messageHash then
        (nodes.get? hash).map (adopt kids)
      else if hash ∈ kids.map DecodedMessage.messageHash then
        (nodes.get? hash).map (deepen (depthOf nodes node + 1))
      else nodes.get? hash := by
  induction kids generalizing nodes with
  | nil =>
      have unchanged : adopt [] = id := by
        funext record
        simp [adopt]
      simp [unchanged]
  | cons kid kids ih =>
      have differs := differ kid (List.mem_cons_self ..)
      have one := get?_attach nodes differs
      have sameDepth :
          depthOf (attach node nodes kid) node = depthOf nodes node := by
        unfold depthOf
        rw [one, if_pos rfl, Option.map_map]
        rfl
      rw [List.foldl_cons,
        ih (attach node nodes kid)
          fun other member => differ other (List.mem_cons_of_mem _ member),
        one, sameDepth]
      by_cases isNode : hash = node.messageHash
      · rw [if_pos isNode, if_pos isNode, if_pos isNode, Option.map_map]
        congr 1
        funext record
        simp [adopt]
      · rw [if_neg isNode, if_neg isNode, if_neg isNode]
        by_cases isKid : hash = kid.messageHash
        · have isAmong :
              hash ∈ (kid :: kids).map DecodedMessage.messageHash := by
            simp [isKid]
          rw [if_pos isKid, if_pos isAmong, Option.map_map]
          split <;> rfl
        · rw [if_neg isKid]
          simp [isKid]

/-- The nodes in the middle of the pass: those visited have their children, and
those visited or waiting have their depth. -/
def Passed
    (messages visited queue : List DecodedMessage)
    (nodes : NodeMap) : Prop :=
  ∀ message ∈ survivors messages,
    nodes.get? message.messageHash = some {
      message := message
      children :=
        if message ∈ visited then repliesTo messages message else []
      depth :=
        if message ∈ visited ∨ message ∈ queue then
          rankOf messages message
        else 0
      displayDepth :=
        clampDepth (if message ∈ visited ∨ message ∈ queue then
          rankOf messages message
        else 0) }

/-- One turn of the pass. -/
theorem passed_turn
    (distinct : Distinct messages)
    {visited rest : List DecodedMessage}
    {node : DecodedMessage}
    {nodes : NodeMap}
    (survives : node ∈ survivors messages)
    (once : (visited ++ (node :: rest).flatMap
      (Forest.below (repliesTo messages) (rankOf messages)
        HARD_CAP)).Nodup)
    (passed : Passed messages visited (node :: rest) nodes) :
    Passed messages (visited ++ [node])
      (rest ++ repliesTo messages node)
      ((repliesTo messages node).foldl (attach node) nodes) := by
  have ranked := ranked_survivors distinct
  have differ : ∀ kid ∈ repliesTo messages node,
      kid.messageHash ≠ node.messageHash := by
    intro kid isKid same
    have isNode := (distinct_survivors distinct).eq
      (ranked.closed survives isKid) survives same
    have deeper := ranked.rank_child survives isKid
    rw [isNode] at deeper
    omega
  rw [List.flatMap_cons, ranked.below_eq survives] at once
  have fresh : ∀ other ∈ node :: repliesTo messages node,
      other ∉ visited := by
    intro other isOther isVisited
    refine (List.nodup_append.mp once).2.2 other isVisited other ?_ rfl
    rcases List.mem_cons.mp isOther with rfl | isKid
    · simp
    · refine List.mem_append_left _ (List.mem_cons_of_mem _ ?_)
      refine List.mem_flatMap.mpr ⟨other, isKid, ?_⟩
      rw [ranked.below_eq (ranked.closed survives isKid)]
      exact List.mem_cons_self ..
  have depth : depthOf nodes node = rankOf messages node := by
    unfold depthOf
    rw [passed node survives]
    simp
  intro message isSurvivor
  have sameHash : ∀ other ∈ survivors messages,
      message.messageHash = other.messageHash ↔ message = other :=
    fun other isOther =>
      ⟨(distinct_survivors distinct).eq isSurvivor isOther,
        fun same => congrArg DecodedMessage.messageHash same⟩
  have isKidHash :
      message.messageHash ∈
          (repliesTo messages node).map DecodedMessage.messageHash ↔
        message ∈ repliesTo messages node := by
    constructor
    · intro member
      obtain ⟨kid, isKid, same⟩ := List.mem_map.mp member
      rwa [(sameHash kid (ranked.closed survives isKid)).mp same.symm]
    · exact List.mem_map_of_mem
  rw [get?_foldl_attach nodes differ, passed message isSurvivor,
    Option.map_some, Option.map_some, depth]
  simp only [sameHash node survives, isKidHash]
  by_cases isNode : message = node
  · subst isNode
    have unvisited := fresh message (List.mem_cons_self ..)
    simp [unvisited, adopt]
  · by_cases isKid : message ∈ repliesTo messages node
    · have unvisited := fresh message (List.mem_cons_of_mem _ isKid)
      have rank := ranked.rank_child survives isKid
      simp [isNode, isKid, unvisited, deepen, rank]
    · simp [isNode, isKid]

end Pass

section Nodes

/-- The node of a message with its replies below it, for so many levels. -/
def treeOf (kids : DecodedMessage → List DecodedMessage) :
    Nat → Nat → DecodedMessage → CommentNode
  | 0, depth, message => .node message [] depth (clampDepth depth)
  | levels + 1, depth, message =>
      .node message ((kids message).map (treeOf kids levels (depth + 1)))
        depth (clampDepth depth)

/-- A loop over items that all have an image. -/
theorem mapM_eq_some
    {α β : Type*}
    {images : α → Option β}
    {image : α → β}
    {items : List α}
    (each : ∀ item ∈ items, images item = some (image item)) :
    items.mapM images = some (items.map image) := by
  induction items with
  | nil => rfl
  | cons item items ih =>
      rw [List.mapM_cons, each item (List.mem_cons_self ..),
        ih fun other member => each other (List.mem_cons_of_mem _ member)]
      rfl

/-- After the pass a reference stands for the tree of its message. -/
theorem toCommentNode_eq
    (distinct : Distinct messages)
    {visited : List DecodedMessage}
    {nodes : NodeMap}
    (passed : Passed messages visited [] nodes)
    (complete : ∀ message ∈ survivors messages, message ∈ visited)
    {levels : Nat}
    {message : DecodedMessage}
    (survives : message ∈ survivors messages)
    (height : rankOf messages message + levels = HARD_CAP) :
    toCommentNode nodes levels message =
      some (treeOf (repliesTo messages) levels (rankOf messages message)
        message) := by
  have ranked := ranked_survivors distinct
  induction levels generalizing message with
  | zero =>
      have bound := ranked.bounded survives
      omega
  | succ levels ih =>
      have isVisited := complete message survives
      have kids : ∀ kid ∈ repliesTo messages message,
          toCommentNode nodes levels kid =
            some (treeOf (repliesTo messages) levels
              (rankOf messages message + 1) kid) := by
        intro kid isKid
        have rank := ranked.rank_child survives isKid
        rw [← rank]
        exact ih (ranked.closed survives isKid) (by omega)
      rw [toCommentNode, passed message survives]
      simp only [isVisited, true_or, if_true, mapM_eq_some kids]
      rfl

/-- The node of a survivor. -/
noncomputable def nodeOf
    (messages : List DecodedMessage)
    (message : DecodedMessage) : CommentNode :=
  treeOf (repliesTo messages) (HARD_CAP - rankOf messages message)
    (rankOf messages message) message

/-- `buildThread` returns the nodes of the roots, with any number of turns from
the number of messages on. -/
theorem buildThreadWithin_eq
    (distinct : Distinct messages)
    {turns : Nat}
    (enough : messages.length ≤ turns) :
    buildThreadWithin turns messages =
      some ((sortNodes (rootsAmong (survivors messages))).map
        (nodeOf messages)) := by
  have ranked := ranked_survivors distinct
  obtain ⟨childrenOf, areRoots⟩ := groupNodes_eq distinct
  have kids :
      sortedKids (groupNodes
          (allNodesOf (survivorsOf messages))).childrenOf =
        repliesTo messages := by
    funext node
    rw [sortedKids, childrenOf, repliesTo]
  have within : (threaded messages).length ≤ turns := by
    have fewer : (survivors messages).length ≤ messages.length :=
      List.length_filter_le _ messages
    refine le_trans (List.subperm_of_subset (nodup_threaded distinct)
      ?_).length_le (le_trans fewer enough)
    intro message isThreaded
    exact (mem_threaded_iff distinct).mp isThreaded
  obtain ⟨nodes, all, walked, same, passed⟩ :=
    @Forest.Ranked.walk_rule _ _ _ _ _ _ ranked
      (attachKids (groupNodes
        (allNodesOf (survivorsOf messages))).childrenOf)
      (fun visited queue nodes => Passed messages visited queue nodes)
      (by
        intro visited node rest nodes survives _ once passed
        unfold attachKids
        rw [kids]
        exact passed_turn distinct survives once passed)
      [] (rootsAmong (survivors messages))
      (allNodesOf (survivorsOf messages)) turns
      (fun root isRoot => (rankOf_root distinct isRoot).1)
      (nodup_threaded distinct)
      (by
        intro message survives
        rw [get?_allNodesOf distinct survives]
        have depth :
            (if message ∈ [] ∨ message ∈ rootsAmong (survivors messages)
              then rankOf messages message else 0) = 0 := by
          split
          · rename_i isRoot
            exact (rankOf_root distinct (by simpa using isRoot)).2
          · rfl
        rw [depth]
        simp [freshNode, clampDepth])
      within
  have complete : ∀ message ∈ survivors messages, message ∈ all :=
    fun message survives =>
      same.mem_iff.mpr ((mem_threaded_iff distinct).mpr survives)
  unfold buildThreadWithin
  dsimp only
  rw [kids, areRoots, walked]
  apply mapM_eq_some
  intro root isRoot
  obtain ⟨survives, rank⟩ :=
    rankOf_root distinct (mem_sortNodes.mp isRoot)
  have tree := @toCommentNode_eq _ distinct _ _ passed complete HARD_CAP _
    survives (by rw [rank, Nat.zero_add])
  rw [tree, nodeOf, rank, Nat.sub_zero]

end Nodes

end Comments
end Bam
