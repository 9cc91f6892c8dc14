import Bam.Poster.ReorgWatcher

namespace Bam

/-!
# The Reader's reorg watcher

The candidates are chosen as the Poster chooses them; a dropped batch is marked
and nothing is re-enqueued.
-/

/-- The candidates of a Reader tick at a head. -/
def readerReorgCandidates
    (chainId : Nat)
    (reorgWindowBlocks : Option Int)
    (store : Store)
    (head : Nat) : List BatchRow :=
  (store.listBatches {
      contentTag := none
      chainId := some chainId
      status := none
      sinceBlock :=
        some ((head : Int) - clampReorgWindow reorgWindowBlocks) }).filter
    fun batch => batch.status = .confirmed && batch.blockNumber.isSome

/-- The store transaction of a Reader tick for a dropped batch. -/
def readerReorgBatch
    (chainId : Nat)
    (store : Store)
    (batch : BatchRow)
    (invalidatedAt : Int) : Except StoreError Store :=
  store.markReorged chainId batch.txHash invalidatedAt

end Bam
