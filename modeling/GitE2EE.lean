import GitE2EE.Lib.Wire
import GitE2EE.Lib.Json
import GitE2EE.Lib.Record
import GitE2EE.Lib.Action
import GitE2EE.Lib.Spec
import GitE2EE.Lib.Lineage
import GitE2EE.Lib.SortedMap
import GitE2EE.Lib.Thread
import GitE2EE.Lib.FileSystem
import GitE2EE.Lib.Register
import GitE2EE.Lib.Split
import GitE2EE.Model.Error
import GitE2EE.Model.Crypto
import GitE2EE.Model.Policy
import GitE2EE.Model.Manifest
import GitE2EE.Model.Storage
import GitE2EE.Model.Directory
import GitE2EE.Model.Chain
import GitE2EE.Model.Continuity
import GitE2EE.Model.PackStream
import GitE2EE.Model.Streamed
import GitE2EE.Model.Git
import GitE2EE.Model.Url
import GitE2EE.Model.Repository
import GitE2EE.Model.Host
import GitE2EE.Model.Filesystem
import GitE2EE.Model.Recovery
import GitE2EE.Model.Objects
import GitE2EE.Model.LocalGit
import GitE2EE.Proof.Codec
import GitE2EE.Proof.Policy
import GitE2EE.Proof.Opened
import GitE2EE.Proof.Sealing
import GitE2EE.Proof.Lengths
import GitE2EE.Proof.Chain
import GitE2EE.Proof.Entry
import GitE2EE.Proof.Authority
import GitE2EE.Proof.Shape
import GitE2EE.Proof.Counters
import GitE2EE.Proof.Readers
import GitE2EE.Proof.Acceptance
import GitE2EE.Proof.Publishing
import GitE2EE.Proof.Directory
import GitE2EE.Proof.Reference
import GitE2EE.Proof.Samples
import GitE2EE.Proof.Accepted
import GitE2EE.Proof.Padding
import GitE2EE.Proof.Transcript
import GitE2EE.Proof.Continuity
import GitE2EE.Proof.Operations
import GitE2EE.Proof.Runs
import GitE2EE.Proof.Mirrored
import GitE2EE.Proof.History
import GitE2EE.Proof.Push
import GitE2EE.Proof.Stocked
import GitE2EE.Proof.Books
import GitE2EE.Proof.Swapping
import GitE2EE.Proof.Locked
import GitE2EE.Proof.Replacing
import GitE2EE.Proof.Swaps
import GitE2EE.Proof.UnlockedReads
import GitE2EE.Proof.Walk
import GitE2EE.Proof.Batch
import GitE2EE.Proof.Membership
import GitE2EE.Proof.Streams
import GitE2EE.Proof.RefNames
import GitE2EE.Proof.Url
import GitE2EE.Proof.Contexts
import GitE2EE.Proof.Messages
import GitE2EE.Proof.IdealCipher
import GitE2EE.Proof.Authenticity
import GitE2EE.Lib.Interference
import GitE2EE.Model.Carrier
import GitE2EE.Model.GitStorage
import GitE2EE.Proof.Carrier
import GitE2EE.Model.ObjectStage
import GitE2EE.Model.Backends
import GitE2EE.Model.Init
import GitE2EE.Proof.CarrierSwaps
import GitE2EE.Proof.FileCalls
import GitE2EE.Proof.Discreet
import GitE2EE.Proof.Init
import GitE2EE.Model.Fetch
import GitE2EE.Proof.IdealGit
import GitE2EE.Proof.Fetch
import GitE2EE.Model.Helper
import GitE2EE.Proof.Helper
import GitE2EE.Proof.Reading
import GitE2EE.Lib.Padded
import GitE2EE.Model.CatFile
import GitE2EE.Model.Chunks
import GitE2EE.Proof.CatFile
import GitE2EE.Proof.Chunks
import GitE2EE.Proof.ChunkStore
import GitE2EE.Proof.Spelling
import GitE2EE.Model.ObjectQueries
import GitE2EE.Proof.ObjectQueries
