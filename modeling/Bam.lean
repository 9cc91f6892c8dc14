import Bam.Lib.Runs
import Bam.Lib.Purge
import Bam.Lib.Table
import Bam.Lib.Bytewise
import Bam.Lib.Abi
import Bam.Lib.Binary64
import Bam.Lib.Utf16
import Bam.Lib.Utf8
import Bam.Sdk.Types
import Bam.Sdk.Batch
import Bam.Sdk.Compression
import Bam.Sdk.BatchCanonical
import Bam.Sdk.Blob
import Bam.Sdk.Kzg
import Bam.Sdk.Message
import Bam.Sdk.AbiBatch
import Bam.Sdk.Signatures
import Bam.Sdk.PostReply
import Bam.Poster.Policy
import Bam.Poster.Pack
import Bam.Poster.Aggregator
import Bam.Store.Rows
import Bam.Store.Messages
import Bam.Store.Batches
import Bam.Store.Nonces
import Bam.Store.Observe
import Bam.Poster.Ingest
import Bam.Poster.AggregatorHealth
import Bam.Poster.RateLimit
import Bam.Poster.Scheduler
import Bam.Poster.SchedulerRuns
import Bam.Poster.Progress
import Bam.Poster.SelfCheck
import Bam.Poster.Submit
import Bam.Poster.PackRoundTrip
import Bam.Poster.WireEncoding
import Bam.Reader.Decode
import Bam.Reader.ProcessBatch
import Bam.Reader.Convergence
import Bam.Poster.AggregatorLoop
import Bam.Poster.ReorgWatcher
import Bam.Reader.ReorgWatcher
import Bam.System.World
import Bam.System.Steps
import Bam.System.Absence
import Bam.System.Plans
import Bam.System.Receipts
import Bam.System.References
import Bam.System.Sharing
import Bam.System.Isolation
import Bam.Contracts.Core
import Bam.Reader.LogScan
import Bam.Reader.Representation
import Bam.Lib.Attempt
import Bam.Reader.Loop
import Bam.Reader.LiveTail
import Bam.Reader.Counters
import Bam.Reader.CountedTicks
import Bam.Reader.Backfill
import Bam.Reader.Resume
import Bam.Lib.Behaviors
import Bam.Indexer.Cursor
import Bam.Indexer.Tick
import Bam.Indexer.Serving
import Bam.Indexer.Quiet
import Bam.Indexer.Forward
import Bam.Indexer.Deployment
import Bam.Indexer.Eviction
import Bam.Indexer.Cascade
import Bam.Indexer.Migrate
import Bam.Indexer.Fleet
import Bam.Indexer.Generations
import Bam.Indexer.Reset
import Bam.Indexer.PostReply
import Bam.Lib.Usize
import Bam.Coprocessor.Decode
import Bam.Coprocessor.Guest
import Bam.Coprocessor.SignatureAgreement
import Bam.Coprocessor.Pipeline
import Bam.Coprocessor.Jobs
import Bam.Coprocessor.Completeness
import Bam.Coprocessor.JobRuns
import Bam.Coprocessor.SlotSearch
import Bam.Coprocessor.BeaconChain
import Bam.Coprocessor.Commitment
import Bam.Twitter.Timeline
import Bam.Lib.JsMap
import Bam.Sdk.Bpe
import Bam.Sdk.BpeBatch
import Bam.Contracts.Evm
import Bam.Contracts.BPEDecoder
import Bam.Lib.ExceptLoops
import Bam.Contracts.BPEParity
import Bam.Lib.LongestMatch
import Bam.Sdk.BpeRoundTrip
import Bam.Sdk.BpeBatchRoundTrip
import Bam.Sdk.BpeTraining
import Bam.Sdk.BpeTables
import Bam.Sdk.BpeDictionaries
import Bam.Contracts.BPETrained
import Bam.Sdk.Exposure
import Bam.Sdk.BlobParser
import Bam.Sdk.ExposureRoundTrip
import Bam.Sdk.ExposureBuilder
import Bam.Contracts.KZGVerifier
import Bam.Contracts.ExposureOpenings
import Bam.Contracts.SplitBlobs
import Bam.Sdk.TextFields
import Bam.Sdk.PostReplyRoundTrip
import Bam.Sdk.Forum
import Bam.Comments.Codec
import Bam.Comments.AppCodecs
import Bam.Lib.Forest
import Bam.Comments.Thread
import Bam.Comments.ThreadForest
import Bam.Comments.ThreadSpec
import Bam.Lib.DoubleWord
import Bam.Contracts.BLS12381
import Bam.Contracts.BLSDecompression
import Bam.Contracts.BLSVerifier
import Bam.Contracts.BLSRegistry
import Bam.Contracts.DecompressedPoints
import Bam.Contracts.BLSExposer
import Bam.Contracts.ExposedSignatures
import Bam.Contracts.AcceptedKeys
import Bam.Contracts.ExposureBinding
import Bam.Contracts.RecordedExposures
import Bam.Contracts.SocialBlobs
import Bam.Reader.Pairing
import Bam.Reader.ScanPartition
import Bam.Sdk.AbiRoundTrip
import Bam.Contracts.ECDSARegistry
import Bam.Reader.ZstdBound
import Bam.Reader.ZstdHeader
import Bam.System.Commutation
import Bam.Poster.Surfaces
import Bam.System.Rescan
import Bam.System.NonceTracker
import Bam.System.NonceSurface
import Bam.System.Slots
import Bam.System.Pending
import Bam.System.Broadcasts
import Bam.System.BroadcastOnce
import Bam.System.Requeue
import Bam.System.Acceptance
import Bam.Reader.Emission
import Bam.System.Delivery
import Bam.Reader.BlobSources
import Bam.Reader.BlobArchive
import Bam.Comments.Widget
import Bam.Comments.WidgetSound
import Bam.Comments.WidgetRuns
import Bam.Comments.PosterReader
import Bam.System.CommentView
import Bam.Poster.Submitted
import Bam.System.Submitted
import Bam.System.Provable
import Bam.Poster.Lifecycle
import Bam.Reader.Paging
import Bam.Contracts.DisputeManager
import Bam.Contracts.StakeManager
import Bam.Contracts.FieldArithmetic
import Bam.Store.NonceText
import Bam.Lib.Accounting
