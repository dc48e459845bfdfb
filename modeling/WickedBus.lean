import WickedBus.CrossTier
import WickedBus.Ipc
import WickedBus.PushContract
import WickedBus.DaemonLock
import WickedBus.Gap
import WickedBus.EmitAtomic
import WickedBus.DedupWindow
import WickedBus.DryRun
import WickedBus.NamedLoss
import WickedBus.Cas
import WickedBus.CasRace
import WickedBus.CasSafety
import WickedBus.TierMerge
import WickedBus.RealLoss
import WickedBus.SessionLedger
import WickedBus.Retry
import WickedBus.Driven
import WickedBus.Exhaustion
import WickedBus.Reanchor
import WickedBus.Paging
import WickedBus.FreshCursor
import WickedBus.Drain
import WickedBus.LockLoop
import WickedBus.SpawnLock
import WickedBus.Sealing
import WickedBus.BucketLock
import WickedBus.Starvation
import WickedBus.Batches
import WickedBus.Redelivery
import WickedBus.ReplayRequests
import WickedBus.Resume
import WickedBus.BlobPut
import WickedBus.SchemaAgreement
import WickedBus.SchemaMismatch
import WickedBus.Config
import WickedBus.TableConstraints
import WickedBus.Causality
import WickedBus.UiServer
import WickedBus.UnackedPartition
import WickedBus.Inbox
import WickedBus.ByteFrames
import WickedBus.Cadence
import WickedBus.Conservation
import WickedBus.Upgrade
import WickedBus.Cli
import WickedBus.Streaming
import WickedBus.CasReport
import WickedBus.Fanout
import WickedBus.UiFeed
import WickedBus.Lag
import WickedBus.UiToken
import WickedBus.Notify
import WickedBus.Health
