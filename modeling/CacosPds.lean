import CacosPds.Lib.Run
import CacosPds.Lib.Programs
import CacosPds.Lib.Table
import CacosPds.Lib.Paging
import CacosPds.Lib.UniqueIndex
import CacosPds.Lib.ForeignKeys
import CacosPds.Lib.ObjectStore
import CacosPds.Lib.KeyedFold
import CacosPds.Lib.Replica
import CacosPds.Lib.Numerals
import CacosPds.Lib.DagCbor
import CacosPds.Lib.Ascii
import CacosPds.Lib.Machine
import CacosPds.Lib.Broadcast
import CacosPds.Lib.OneTime
import CacosPds.Lib.Stages
import CacosPds.Lib.IpAddr
import CacosPds.Lib.Sha2
import CacosPds.Types.DbId
import CacosPds.Types.DbIdText
import CacosPds.Core.BackgroundQueue
import CacosPds.Handle.Normalize
import CacosPds.Handle.ServiceDomains
import CacosPds.Lib.Replace
import CacosPds.Lib.Seen
import CacosPds.Plc.EndpointSsrf
import CacosPds.Blobstore.OpenDal
import CacosPds.Sequencer.Events
import CacosPds.Sequencer.WsFrames
import CacosPds.Sequencer.RepoSeq
import CacosPds.Sequencer.CursorCheck
import CacosPds.Sequencer.RawRows
import CacosPds.Sequencer.Crawlers
import CacosPds.Sequencer.Backfill
import CacosPds.Sequencer.SequenceEvt
import CacosPds.Sequencer.Formatters
import CacosPds.Sequencer.CommitRows
import CacosPds.Sequencer.Worker
import CacosPds.Sequencer.LiveStream
import CacosPds.Sequencer.Cutover
import CacosPds.ActorStore.Locks
import CacosPds.ActorStore.OpenHandles
import CacosPds.ActorStore.Tables
import CacosPds.ActorStore.FormatCommit
import CacosPds.ActorStore.Batch
import CacosPds.ActorStore.CommitOps
import CacosPds.ActorStore.WriteBlobs
import CacosPds.ActorStore.ProcessWrites
import CacosPds.ActorStore.RecordBlocks
import CacosPds.ActorStore.RecordBlobs
import CacosPds.ActorStore.Atomicity
import CacosPds.ActorStore.CarStream
import CacosPds.ActorStore.Listings
import CacosPds.ActorStore.RecordReads
import CacosPds.ActorStore.MissingBlobs
import CacosPds.ActorStore.BlockReads
import CacosPds.ActorStore.BlockCache
import CacosPds.ActorStore.Takedown
import CacosPds.ActorStore.BlobLifecycle
import CacosPds.Account.Tables
import CacosPds.Account.CreateAccount
import CacosPds.Account.Invites
import CacosPds.Account.RefreshTokens
import CacosPds.Account.Rotation
import CacosPds.Account.OauthTables
import CacosPds.Account.OauthRequests
import CacosPds.Account.Devices
import CacosPds.Account.DeviceRegistry
import CacosPds.Account.OauthTokens
import CacosPds.Account.Lifecycle
import CacosPds.Account.Emails
import CacosPds.Account.ServiceJwt
import CacosPds.Account.Credentials
import CacosPds.Account.EmailTokens
import CacosPds.Account.TokenConsumers
import CacosPds.Account.Lockout
import CacosPds.Account.ReplayStore
import CacosPds.Oauth.ConsentState
import CacosPds.Oauth.Remote
import CacosPds.Oauth.Authorize
import CacosPds.Server.Destroy
import CacosPds.Server.CreateAccount
import CacosPds.Server.Rollback
import CacosPds.Server.Tenants
import CacosPds.Server.UploadedBlobs
import CacosPds.Server.Prepare
import CacosPds.Server.RecordSwap
import CacosPds.Server.RepoCalls
import CacosPds.Server.CommitLog
import CacosPds.Server.RepoCopies
import CacosPds.Server.SubscribeRepos
import CacosPds.Server.RecordType
import CacosPds.Server.BlobRefs
import CacosPds.Server.Activation
import CacosPds.Server.SignUp
import CacosPds.Server.SignUpPaths
import CacosPds.Server.AccountEvents
import CacosPds.Server.AccountStatus
import CacosPds.Server.GenesisHandle
import CacosPds.Server.Emails
import CacosPds.Server.AppPasswords
import CacosPds.Server.TakenDown
import CacosPds.Server.ServiceAuth
import CacosPds.Server.DpopContext
import CacosPds.Server.InviteCodes
import CacosPds.Server.Assembly
import CacosPds.Migrate.PlcRotation
import CacosPds.Plc.UpdateOp
import CacosPds.ActorStore.Backlinks
import CacosPds.Lib.Snapshots
import CacosPds.Server.RepoRoots
import CacosPds.Identity.DidCache
import CacosPds.Server.AdminTokens
import CacosPds.Server.Locations
import CacosPds.Account.InvitedBy
import CacosPds.ActorStore.KeyFiles
import CacosPds.Lib.Rfc3339
import CacosPds.Sequencer.TimeWindow
import CacosPds.Server.InviteSupply
