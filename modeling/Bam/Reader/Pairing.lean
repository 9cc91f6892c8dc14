import Bam.Reader.LogScan
import Mathlib.Data.List.Pairwise
import Mathlib.Data.List.Perm.Basic

namespace Bam

/-!
# Pairing batches with their segments

The walk over one transaction claims the most recent declaration that matches.
Where a batch follows its own declaration immediately, it claims that one,
whatever else was declared and in whatever order the logs came.
-/

/-- The logs are not at one position of one transaction. -/
def ScannerLog.Apart (first second : ScannerLog) : Prop :=
  first.transactionHash = second.transactionHash →
    first.logIndex ≠ second.logIndex

instance : Std.Symm ScannerLog.Apart where
  symm _ _ apart sameTx sameIndex := apart sameTx.symm sameIndex.symm

/-- Two logs of one transaction have different positions. -/
def DistinctPositions (logs : List ScannerLog) : Prop :=
  logs.Pairwise ScannerLog.Apart

/-- The declaration is the batch's own: the log before it. -/
structure IsOwnDeclaration
    (logs : List ScannerLog)
    (own : ScannerSegmentLog)
    (batch : ScannerBatchLog) : Prop where
  emitted : own ∈ logs.filterMap ScannerLog.segmentLog?
  sameTransaction : own.transactionHash = batch.transactionHash
  matching : own.matches batch = true
  before : own.logIndex < batch.logIndex
  immediately :
    ∀ log ∈ logs, log.transactionHash = batch.transactionHash →
      own.logIndex < log.logIndex → batch.logIndex ≤ log.logIndex

/-- The item of a log, with its position as its label. -/
def ScannerLog.item (log : ScannerLog) : TxItem :=
  match log.log with
  | .BlobBatchRegistered args =>
      .bbr log.logIndex {
        blockNumber := log.blockNumber
        transactionIndex := log.transactionIndex
        logIndex := log.logIndex
        transactionHash := log.transactionHash
        args := args }
  | .BlobSegmentDeclared args =>
      .bsd {
        logIndex := log.logIndex
        transactionHash := log.transactionHash
        args := args }

/-- The items of one transaction, by position. -/
def positionedItems
    (logs : List ScannerLog)
    (txHash : Bytes32) : List TxItem :=
  ((logs.filter fun log => log.transactionHash = txHash).map
    ScannerLog.item).insertionSort fun first second =>
      first.logIndex ≤ second.logIndex

/-- The range the walk over a transaction gives its batch. -/
def pairedRange
    (logs : List ScannerLog)
    (batch : ScannerBatchLog) : Option (Nat × Nat) :=
  (pairItems (positionedItems logs batch.transactionHash) []).lookup
    batch.logIndex

/-- An item under the position of its log. -/
def TxItem.positioned : TxItem → TxItem
  | .bbr _ log => .bbr log.logIndex log
  | .bsd log => .bsd log

@[simp] theorem ScannerLog.logIndex_item (log : ScannerLog) :
    log.item.logIndex = log.logIndex := by
  obtain ⟨_, _, _, _, _ | _⟩ := log <;> rfl

@[simp] theorem TxItem.logIndex_positioned (item : TxItem) :
    item.positioned.logIndex = item.logIndex := by
  cases item <;> rfl

/-- The walk does not depend on the labels. -/
theorem lookup_pairItems_positioned
    {items : List TxItem}
    {idx : Nat}
    {batch : ScannerBatchLog}
    (labels :
      ∀ idx' batch', TxItem.bbr idx' batch' ∈ items →
        (idx = idx' ↔ batch.logIndex = batch'.logIndex))
    (pending : List ScannerSegmentLog) :
    (pairItems items pending).lookup idx =
      (pairItems (items.map TxItem.positioned) pending).lookup
        batch.logIndex := by
  induction items generalizing pending with
  | nil =>
      rfl
  | cons item rest inductionHypothesis =>
      have later :=
        inductionHypothesis fun idx' batch' member =>
          labels idx' batch' (List.mem_cons_of_mem _ member)
      cases item with
      | bsd log =>
          exact later (log :: pending)
      | bbr idx' log =>
          have same := labels idx' log List.mem_cons_self
          simp only [List.map_cons, TxItem.positioned, pairItems]
          cases found : pending.find? fun segment => segment.matches log with
          | none =>
              exact later pending
          | some segment =>
              simp only [List.lookup_cons]
              by_cases isHead : idx = idx'
              · simp [isHead, same.mp isHead]
              · have other : ¬ batch.logIndex = log.logIndex :=
                  fun samePosition => isHead (same.mpr samePosition)
                simp only [beq_eq_false_iff_ne.mpr isHead,
                  beq_eq_false_iff_ne.mpr other]
                exact later _

/-- The positioned items of one transaction, batches first. -/
theorem map_positioned_perm
    (logs : List ScannerLog)
    (txHash : Bytes32) :
    ((((logs.filterMap ScannerLog.batchLog?).filter fun log =>
          log.transactionHash = txHash).map fun log =>
            TxItem.bbr log.logIndex log) ++
        ((logs.filterMap ScannerLog.segmentLog?).filter fun log =>
          log.transactionHash = txHash).map TxItem.bsd).Perm
      ((logs.filter fun log => log.transactionHash = txHash).map
        ScannerLog.item) := by
  induction logs with
  | nil =>
      exact .nil
  | cons log rest inductionHypothesis =>
      obtain ⟨block, index, position, hash, _ | _⟩ := log
      · by_cases ofTx : hash = txHash
        · simpa [List.filterMap_cons, ScannerLog.batchLog?,
            ScannerLog.segmentLog?, ScannerLog.item, ofTx] using
            List.perm_middle.trans (inductionHypothesis.cons _)
        · simpa [List.filterMap_cons, ScannerLog.batchLog?,
            ScannerLog.segmentLog?, ofTx] using inductionHypothesis
      · by_cases ofTx : hash = txHash
        · simpa [List.filterMap_cons, ScannerLog.batchLog?,
            ScannerLog.segmentLog?, ScannerLog.item, ofTx] using
            inductionHypothesis
        · simpa [List.filterMap_cons, ScannerLog.batchLog?,
            ScannerLog.segmentLog?, ofTx] using inductionHypothesis

/-- Sorting items orders them by position. -/
theorem sorted_items (items : List TxItem) :
    (items.insertionSort fun first second =>
      first.logIndex ≤ second.logIndex).Pairwise fun first second =>
        first.logIndex ≤ second.logIndex := by
  have : Std.Total fun first second : TxItem =>
      first.logIndex ≤ second.logIndex :=
    ⟨fun first second => Nat.le_total _ _⟩
  have : IsTrans TxItem fun first second =>
      first.logIndex ≤ second.logIndex :=
    ⟨fun _ _ _ => Nat.le_trans⟩
  exact List.pairwise_insertionSort _ items

/-- Two items of a transaction at one position are one item. -/
theorem item_inj
    {logs : List ScannerLog}
    (distinct : DistinctPositions logs)
    {txHash : Bytes32}
    {first second : TxItem}
    (isFirst : first ∈ (logs.filter fun log =>
      log.transactionHash = txHash).map ScannerLog.item)
    (isSecond : second ∈ (logs.filter fun log =>
      log.transactionHash = txHash).map ScannerLog.item)
    (same : first.logIndex = second.logIndex) :
    first = second := by
  obtain ⟨one, isOne, rfl⟩ := List.mem_map.mp isFirst
  obtain ⟨two, isTwo, rfl⟩ := List.mem_map.mp isSecond
  obtain ⟨oneIn, oneTx⟩ := List.mem_filter.mp isOne
  obtain ⟨twoIn, twoTx⟩ := List.mem_filter.mp isTwo
  simp only [ScannerLog.logIndex_item] at same
  simp only [decide_eq_true_eq] at oneTx twoTx
  by_contra different
  have apart :=
    List.Pairwise.forall distinct oneIn twoIn
      (fun equal => different (congrArg ScannerLog.item equal))
  exact apart (oneTx.trans twoTx.symm) same

/-- The items the pairing walks are those of the transaction by position,
whatever order the logs came in. -/
theorem map_positioned_txItems
    {logs answer : List ScannerLog}
    (distinct : DistinctPositions logs)
    (same : answer.Perm logs)
    (txHash : Bytes32) :
    (txItems (answer.filterMap ScannerLog.batchLog?)
        (answer.filterMap ScannerLog.segmentLog?) txHash).map
          TxItem.positioned =
      positionedItems logs txHash := by
  have batches :
      ((((answer.filterMap ScannerLog.batchLog?).zipIdx.filter fun item =>
            item.1.transactionHash = txHash).map fun item =>
              TxItem.bbr item.2 item.1).map TxItem.positioned) =
        ((answer.filterMap ScannerLog.batchLog?).filter fun log =>
          log.transactionHash = txHash).map fun log =>
            TxItem.bbr log.logIndex log := by
    conv_rhs =>
      rw [← List.zipIdx_map_fst 0
        (answer.filterMap ScannerLog.batchLog?), List.filter_map]
    simp only [List.map_map]
    rfl
  have rearranged :
      ((txItems (answer.filterMap ScannerLog.batchLog?)
          (answer.filterMap ScannerLog.segmentLog?) txHash).map
            TxItem.positioned).Perm
        (positionedItems logs txHash) := by
    refine ((List.perm_insertionSort _ _).map TxItem.positioned).trans
      (List.Perm.trans ?_ (List.perm_insertionSort _ _).symm)
    rw [List.map_append, batches, List.map_map]
    exact (map_positioned_perm answer txHash).trans
      ((same.filter _).map _)
  have ordered :
      ((txItems (answer.filterMap ScannerLog.batchLog?)
          (answer.filterMap ScannerLog.segmentLog?) txHash).map
            TxItem.positioned).Pairwise fun first second =>
        first.logIndex ≤ second.logIndex := by
    rw [List.pairwise_map]
    simp only [TxItem.logIndex_positioned]
    exact sorted_items _
  refine rearranged.eq_of_pairwise ?_ ordered (sorted_items _)
  intro first second isFirst isSecond forward backward
  have firstIn := rearranged.mem_iff.mp isFirst
  exact item_inj distinct ((List.mem_insertionSort _).mp firstIn)
    ((List.mem_insertionSort _).mp isSecond)
    (Nat.le_antisymm forward backward)

theorem mem_positionedItems
    {logs : List ScannerLog}
    {txHash : Bytes32}
    {item : TxItem} :
    item ∈ positionedItems logs txHash ↔
      ∃ log ∈ logs, log.transactionHash = txHash ∧ log.item = item := by
  simp [positionedItems, and_assoc]

theorem mem_positionedItems_batch
    {logs : List ScannerLog}
    {batch : ScannerBatchLog}
    (member : batch ∈ logs.filterMap ScannerLog.batchLog?) :
    TxItem.bbr batch.logIndex batch ∈
      positionedItems logs batch.transactionHash := by
  obtain ⟨log, isLog, isBatch⟩ := List.mem_filterMap.mp member
  obtain ⟨block, index, position, hash, _ | _⟩ := log
  · simp [ScannerLog.batchLog?] at isBatch
  · simp only [ScannerLog.batchLog?, Option.some.injEq] at isBatch
    subst isBatch
    exact mem_positionedItems.mpr ⟨_, isLog, rfl, rfl⟩

theorem mem_positionedItems_segment
    {logs : List ScannerLog}
    {segment : ScannerSegmentLog}
    (member : segment ∈ logs.filterMap ScannerLog.segmentLog?) :
    TxItem.bsd segment ∈
      positionedItems logs segment.transactionHash := by
  obtain ⟨log, isLog, isSegment⟩ := List.mem_filterMap.mp member
  obtain ⟨block, index, position, hash, _ | _⟩ := log
  · simp only [ScannerLog.segmentLog?, Option.some.injEq] at isSegment
    subst isSegment
    exact mem_positionedItems.mpr ⟨_, isLog, rfl, rfl⟩
  · simp [ScannerLog.segmentLog?] at isSegment

/-- A batch of the walk is labelled with its position. -/
theorem label_of_mem_positionedItems
    {logs : List ScannerLog}
    {txHash : Bytes32}
    {idx : Nat}
    {batch : ScannerBatchLog}
    (member : TxItem.bbr idx batch ∈ positionedItems logs txHash) :
    idx = batch.logIndex := by
  obtain ⟨⟨_, _, _, _, _ | _⟩, -, -, isItem⟩ :=
    mem_positionedItems.mp member
  · cases isItem
  · cases isItem
    rfl

/-- The items of a transaction stand at increasing positions. -/
theorem positionedItems_increasing
    {logs : List ScannerLog}
    (distinct : DistinctPositions logs)
    (txHash : Bytes32) :
    (positionedItems logs txHash).Pairwise fun first second =>
      first.logIndex < second.logIndex := by
  have apart :
      ((logs.filter fun log => log.transactionHash = txHash).map
        ScannerLog.item).Pairwise fun first second =>
          first.logIndex ≠ second.logIndex := by
    rw [List.pairwise_map]
    refine (distinct.filter _).imp_of_mem ?_
    intro first second isFirst isSecond areApart
    have firstTx := (List.mem_filter.mp isFirst).2
    have secondTx := (List.mem_filter.mp isSecond).2
    simp only [decide_eq_true_eq] at firstTx secondTx
    simpa using areApart (firstTx.trans secondTx.symm)
  have sortedApart :
      (positionedItems logs txHash).Pairwise fun first second =>
        first.logIndex ≠ second.logIndex :=
    apart.perm (List.perm_insertionSort _ _).symm Ne.symm
  exact sortedApart.imp₂ (fun _ _ different ordered =>
    Nat.lt_of_le_of_ne ordered different) (sorted_items _)

/-- A batch right behind a declaration that matches claims it, whatever is
unclaimed and whatever was walked before. -/
theorem lookup_pairItems_of_own
    {leading trailing : List TxItem}
    {own : ScannerSegmentLog}
    {batch : ScannerBatchLog}
    {idx : Nat}
    (matching : own.matches batch = true)
    (fresh : ∀ other, TxItem.bbr idx other ∉ leading)
    (pending : List ScannerSegmentLog) :
    (pairItems
        (leading ++ TxItem.bsd own :: TxItem.bbr idx batch :: trailing)
        pending).lookup idx =
      some own.range := by
  induction leading generalizing pending with
  | nil =>
      simp [pairItems, matching, ScannerSegmentLog.range]
  | cons item rest inductionHypothesis =>
      have later :=
        inductionHypothesis fun other member =>
          fresh other (List.mem_cons_of_mem _ member)
      cases item with
      | bsd log =>
          exact later (log :: pending)
      | bbr idx' log =>
          have other : ¬ idx = idx' := by
            rintro rfl
            exact fresh log List.mem_cons_self
          simp only [List.cons_append, pairItems]
          cases found : pending.find? fun segment => segment.matches log with
          | none =>
              exact later pending
          | some segment =>
              simp only [List.lookup_cons, beq_eq_false_iff_ne.mpr other]
              exact later _

/-- In its transaction, a batch stands right behind its own declaration. -/
theorem IsOwnDeclaration.split
    {logs : List ScannerLog}
    (distinct : DistinctPositions logs)
    {own : ScannerSegmentLog}
    {batch : ScannerBatchLog}
    (isOwn : IsOwnDeclaration logs own batch)
    (member : batch ∈ logs.filterMap ScannerLog.batchLog?) :
    ∃ leading trailing,
      positionedItems logs batch.transactionHash =
          leading ++ TxItem.bsd own ::
            TxItem.bbr batch.logIndex batch :: trailing ∧
        ∀ other, TxItem.bbr batch.logIndex other ∉ leading := by
  have increasing :=
    positionedItems_increasing distinct batch.transactionHash
  have ownIn := mem_positionedItems_segment isOwn.emitted
  rw [isOwn.sameTransaction] at ownIn
  have batchIn := mem_positionedItems_batch member
  obtain ⟨leading, rest, isSplit⟩ := List.append_of_mem ownIn
  have items := isSplit
  rw [isSplit] at increasing batchIn
  obtain ⟨-, fromOwn, beforeOwn⟩ := List.pairwise_append.mp increasing
  obtain ⟨afterOwn, inRest⟩ := List.pairwise_cons.mp fromOwn
  have behind : TxItem.bbr batch.logIndex batch ∈ rest := by
    rcases List.mem_append.mp batchIn with isLeading | isLater
    · have before := beforeOwn _ isLeading _ List.mem_cons_self
      exact absurd isOwn.before (Nat.lt_asymm before)
    · rcases List.mem_cons.mp isLater with isOwnItem | isRest
      · cases isOwnItem
      · exact isRest
  cases rest with
  | nil =>
      cases behind
  | cons next trailing =>
      have nextAfter := afterOwn next List.mem_cons_self
      have nextIn :
          next ∈ positionedItems logs batch.transactionHash := by
        rw [items]
        exact List.mem_append_right _
          (List.mem_cons_of_mem _ List.mem_cons_self)
      obtain ⟨log, isLog, ofTx, isItem⟩ := mem_positionedItems.mp nextIn
      have notBefore : batch.logIndex ≤ next.logIndex := by
        subst isItem
        rw [ScannerLog.logIndex_item] at nextAfter ⊢
        exact isOwn.immediately log isLog ofTx nextAfter
      have isNext : TxItem.bbr batch.logIndex batch = next := by
        rcases List.mem_cons.mp behind with same | isTrailing
        · exact same
        · have after :=
            (List.pairwise_cons.mp inRest).1 _ isTrailing
          exact absurd notBefore (Nat.not_le.mpr after)
      subst isNext
      refine ⟨leading, trailing, items, ?_⟩
      intro other isLeading
      have before := beforeOwn _ isLeading _ List.mem_cons_self
      have isItem :
          TxItem.bbr batch.logIndex other ∈
            positionedItems logs batch.transactionHash := by
        rw [items]
        exact List.mem_append_left _ isLeading
      have isLabel := label_of_mem_positionedItems isItem
      have ownBefore := isOwn.before
      simp only [TxItem.logIndex] at before
      omega

theorem batchLog?_position
    {log : ScannerLog}
    {batch : ScannerBatchLog}
    (isBatch : log.batchLog? = some batch) :
    batch.transactionHash = log.transactionHash ∧
      batch.logIndex = log.logIndex := by
  obtain ⟨block, index, position, hash, _ | _⟩ := log
  · simp [ScannerLog.batchLog?] at isBatch
  · simp only [ScannerLog.batchLog?, Option.some.injEq] at isBatch
    subst isBatch
    exact ⟨rfl, rfl⟩

/-- The batch logs of an answer stand at different positions. -/
theorem batchLogs_apart
    {logs : List ScannerLog}
    (distinct : DistinctPositions logs) :
    (logs.filterMap ScannerLog.batchLog?).Pairwise fun first second =>
      first.transactionHash = second.transactionHash →
        first.logIndex ≠ second.logIndex := by
  refine List.Pairwise.filterMap ScannerLog.batchLog? ?_ distinct
  intro first second apart batch isBatch batch' isBatch'
  rw [(batchLog?_position isBatch).1, (batchLog?_position isBatch).2,
    (batchLog?_position isBatch').1, (batchLog?_position isBatch').2]
  exact apart

/-- The pairing gives a batch the range of the walk over its transaction,
wherever the batch stands in the answer. -/
theorem pairSegmentRanges_eq
    {logs answer : List ScannerLog}
    (distinct : DistinctPositions logs)
    (same : answer.Perm logs)
    {idx : Nat}
    {batch : ScannerBatchLog}
    (isAt : (answer.filterMap ScannerLog.batchLog?)[idx]? = some batch) :
    pairSegmentRanges (answer.filterMap ScannerLog.batchLog?)
        (answer.filterMap ScannerLog.segmentLog?) idx batch =
      pairedRange logs batch := by
  have apart :=
    batchLogs_apart
      (distinct.perm same.symm fun areApart =>
        Std.Symm.symm _ _ areApart)
  have labels :
      ∀ idx' batch',
        TxItem.bbr idx' batch' ∈
          txItems (answer.filterMap ScannerLog.batchLog?)
            (answer.filterMap ScannerLog.segmentLog?)
            batch.transactionHash →
        (idx = idx' ↔ batch.logIndex = batch'.logIndex) := by
    intro idx' batch' member
    have isItem := (List.mem_insertionSort _).mp member
    simp only [List.mem_append, List.mem_map, List.mem_filter,
      Prod.exists, TxItem.bbr.injEq, reduceCtorEq, and_false, exists_false,
      or_false, decide_eq_true_eq] at isItem
    obtain ⟨other, position, ⟨isIndexed, ofTx⟩, rfl, rfl⟩ := isItem
    have isAt' :
        (answer.filterMap ScannerLog.batchLog?)[position]? = some other :=
      List.mem_zipIdx_iff_getElem?.mp isIndexed
    obtain ⟨inside, isBatch⟩ := List.getElem?_eq_some_iff.mp isAt
    obtain ⟨inside', isBatch'⟩ := List.getElem?_eq_some_iff.mp isAt'
    constructor
    · rintro rfl
      rw [← isBatch, ← isBatch']
    · intro samePosition
      by_contra different
      rcases Nat.lt_or_gt_of_ne different with earlier | later
      · have areApart :=
          List.pairwise_iff_getElem.mp apart _ _ inside inside' earlier
        rw [isBatch, isBatch'] at areApart
        exact areApart ofTx.symm samePosition
      · have areApart :=
          List.pairwise_iff_getElem.mp apart _ _ inside' inside later
        rw [isBatch, isBatch'] at areApart
        exact areApart ofTx samePosition.symm
  rw [pairSegmentRanges, lookup_pairItems_positioned labels,
    map_positioned_txItems distinct same]
  rfl

/--
Every batch that follows its own declaration immediately is given the range of
that declaration, whatever else the transaction declared and in whatever order
the provider returned the logs.
-/
theorem pairSegmentRanges_own
    {logs answer : List ScannerLog}
    {own : ScannerBatchLog → ScannerSegmentLog}
    (distinct : DistinctPositions logs)
    (declared :
      ∀ batch ∈ logs.filterMap ScannerLog.batchLog?,
        IsOwnDeclaration logs (own batch) batch)
    (same : answer.Perm logs)
    (idx : Nat)
    (batch : ScannerBatchLog)
    (isAt : (answer.filterMap ScannerLog.batchLog?)[idx]? = some batch) :
    pairSegmentRanges (answer.filterMap ScannerLog.batchLog?)
        (answer.filterMap ScannerLog.segmentLog?) idx batch =
      some (own batch).range := by
  have member : batch ∈ logs.filterMap ScannerLog.batchLog? :=
    (same.filterMap _).mem_iff.mp (List.mem_of_getElem? isAt)
  have isOwn := declared batch member
  obtain ⟨leading, trailing, items, fresh⟩ := isOwn.split distinct member
  rw [pairSegmentRanges_eq distinct same isAt, pairedRange, items]
  exact lookup_pairItems_of_own isOwn.matching fresh []

/-- Four logs of one transaction: the batch at position 2 follows its own
declaration, with another declaration of the same tag before it and one behind
it. -/
def rogueDeclarations : List ScannerLog :=
  [⟨7, 0, 0, 1, .BlobSegmentDeclared ⟨5, 9, 0, 1, 3⟩⟩,
    ⟨7, 0, 1, 1, .BlobSegmentDeclared ⟨5, 8, 2, 4, 3⟩⟩,
    ⟨7, 0, 2, 1, .BlobBatchRegistered ⟨5, 8, 3, 0, 0⟩⟩,
    ⟨7, 0, 3, 1, .BlobSegmentDeclared ⟨5, 9, 4, 6, 3⟩⟩]

/-- The answer comes in reverse; the batch still gets its own range. -/
theorem pairSegmentRanges_own_rogue :
    pairSegmentRanges
        (rogueDeclarations.reverse.filterMap ScannerLog.batchLog?)
        (rogueDeclarations.reverse.filterMap ScannerLog.segmentLog?) 0
        ⟨7, 0, 2, 1, ⟨5, 8, 3, 0, 0⟩⟩ =
      some (2, 4) := by
  have declared :
      ∀ batch ∈ rogueDeclarations.filterMap ScannerLog.batchLog?,
        IsOwnDeclaration rogueDeclarations ⟨1, 1, ⟨5, 8, 2, 4, 3⟩⟩
          batch := by
    intro batch member
    have isBatch : batch = ⟨7, 0, 2, 1, ⟨5, 8, 3, 0, 0⟩⟩ :=
      List.mem_singleton.mp member
    subst isBatch
    exact {
      emitted := by decide
      sameTransaction := rfl
      matching := rfl
      before := by decide
      immediately := by decide }
  have distinct : DistinctPositions rogueDeclarations := by
    simp [DistinctPositions, rogueDeclarations, ScannerLog.Apart]
  exact pairSegmentRanges_own distinct declared
    (List.reverse_perm rogueDeclarations) 0 _ rfl

end Bam
