import OwStorage.Lib.Prog
import OwStorage.Lib.Bytes
import OwStorage.Common.Htl
import OwStorage.Common.Sec
import OwStorage.Common.Checksum
import OwStorage.Common.Crypto
import OwStorage.Common.String
import OwStorage.Common.Lemmas.Htl
import OwStorage.Owfs.Types
import OwStorage.Owfs.Superblock
import OwStorage.Lib.Bits
import OwStorage.Owfs.Bitmap
import OwStorage.Owfs.Inode
import OwStorage.Owfs.Blockmap
import OwStorage.Owfs.InodeTable
import OwStorage.Owfs.File
import OwStorage.Owfs.Catalog
import OwStorage.Owfs.Sync
import OwStorage.Owfs.Format
import OwStorage.Usfs.Types
import OwStorage.Usfs.Superblock
import OwStorage.Usfs.Bitmap
import OwStorage.Usfs.Entry
import OwStorage.Usfs.File
import OwStorage.Usfs.Sync
import OwStorage.Usfs.Format
import OwStorage.Common.Lemmas.Crypto
import OwStorage.Theorems.Keystream
import OwStorage.Lib.Words
import OwStorage.Lib.Run
import OwStorage.Owfs.Lemmas.Superblock
import OwStorage.Owfs.Run
import OwStorage.Owfs.Lemmas.Sync
import OwStorage.Owfs.Theorems.Lock
import OwStorage.Lib.Count
import OwStorage.Owfs.Lemmas.Bitmap
import OwStorage.Lib.Owns
import OwStorage.Owfs.Lemmas.Inode
import OwStorage.Owfs.Lemmas.Blockmap
import OwStorage.Owfs.Lemmas.Grow
import OwStorage.Lib.Paged
import OwStorage.Owfs.Lemmas.Content
import OwStorage.Owfs.Lemmas.Release
import OwStorage.Owfs.Lemmas.File
import OwStorage.Owfs.Lemmas.Volume
import OwStorage.Owfs.Lemmas.InodeTable
import OwStorage.Owfs.Lemmas.Ledger
import OwStorage.Lib.Slots
import OwStorage.Owfs.Lemmas.Slots
import OwStorage.Owfs.Lemmas.Catalog
import OwStorage.Owfs.Lemmas.Frame
import OwStorage.Owfs.Lemmas.Session
import OwStorage.Owfs.Lemmas.Spend
import OwStorage.Owfs.Lemmas.Format
import OwStorage.Owfs.Theorems.Ownership
import OwStorage.Owfs.Theorems.Content
import OwStorage.Owfs.Theorems.Accounting
import OwStorage.Owfs.Lemmas.Check
import OwStorage.Owfs.Theorems.PowerCut
import OwStorage.Owfs.Theorems.SelfCheck
import OwStorage.Owfs.Theorems.Condemned
import OwStorage.Lib.Crc
import OwStorage.Common.Lemmas.Checksum
import OwStorage.Owfs.Theorems.Corruption
import OwStorage.Owfs.Theorems.ReleaseOrder
import OwStorage.Common.Lemmas.String
import OwStorage.Owfs.Theorems.Creation
import OwStorage.Owfs.Theorems.NameMap
import OwStorage.Theorems.WriteGate
import OwStorage.Owfs.Theorems.Sticky
import OwStorage.Owfs.Theorems.CheckCut
import OwStorage.Owfs.Lemmas.Reach
import OwStorage.Common.Lemmas.Fletcher
import OwStorage.Owfs.Theorems.BitmapCheck
import OwStorage.Owfs.Lemmas.Attr
import OwStorage.Owfs.Theorems.Protection
import OwStorage.Owfs.Theorems.UniqueNames
import OwStorage.Owfs.Theorems.Deleted
import OwStorage.Owfs.Theorems.InodeCount
import OwStorage.Owfs.Theorems.BlockList
import OwStorage.Owfs.Theorems.WriteSpace
import OwStorage.Owfs.Theorems.Shrink
import OwStorage.Owfs.Theorems.FailedCreation
import OwStorage.Owfs.Theorems.Gap
import OwStorage.Owfs.Theorems.Rekey
import OwStorage.Lib.Runs
import OwStorage.Usfs.Lemmas.Superblock
import OwStorage.Usfs.Lemmas.Bitmap
import OwStorage.Usfs.Theorems.FirstFit
import OwStorage.Usfs.Theorems.RunAtomicity
import OwStorage.Usfs.Lemmas.Layout
import OwStorage.Usfs.Theorems.LayoutCover
import OwStorage.Usfs.Lemmas.Entry
import OwStorage.Usfs.Lemmas.View
import OwStorage.Usfs.Lemmas.Table
import OwStorage.Usfs.Run
import OwStorage.Usfs.Lemmas.Format
import OwStorage.Usfs.Theorems.FreeCounter
import OwStorage.Usfs.Lemmas.Extent
import OwStorage.Usfs.Theorems.DeviceBound
import OwStorage.Owfs.Theorems.LayoutRange
import OwStorage.Owfs.Theorems.SyncChecksum
import OwStorage.Owfs.Lemmas.Steady
import OwStorage.Owfs.Theorems.ScanAgreement
import OwStorage.Owfs.Theorems.FailedWriteSize
import OwStorage.Theorems.Names
import OwStorage.Theorems.Labels
import OwStorage.Theorems.Checksums
import OwStorage.Theorems.Records
import OwStorage.Theorems.RejectedScrub
import OwStorage.Usfs.Lemmas.Content
import OwStorage.Usfs.Lemmas.File
import OwStorage.Usfs.Theorems.Isolation
import OwStorage.Usfs.Theorems.ReadBack
import OwStorage.Lib.Log
import OwStorage.Owfs.Access
import OwStorage.Owfs.Lemmas.Access
import OwStorage.Owfs.Theorems.HostileInode
import OwStorage.Lib.Twin
import OwStorage.Theorems.Hidden
import OwStorage.Theorems.Principal
import OwStorage.Usfs.Lemmas.Turned
import OwStorage.Usfs.Lemmas.Directory
import OwStorage.Usfs.Theorems.EntryCounter
import OwStorage.Usfs.Theorems.NameClash
import OwStorage.Lib.Tree
import OwStorage.Usfs.Theorems.NamespaceTree
import OwStorage.Lib.Allot
import OwStorage.Usfs.Lemmas.Balance
import OwStorage.Usfs.Theorems.SpaceAccounting
import OwStorage.Lib.Refine
import OwStorage.Lib.Store
import OwStorage.Usfs.Theorems.FileStore
import OwStorage.Usfs.Session
import OwStorage.Usfs.Lemmas.Session
import OwStorage.Usfs.Lemmas.Check
import OwStorage.Usfs.Theorems.Session
import OwStorage.Owfs.Lemmas.Objects
import OwStorage.Owfs.Theorems.ObjectStore
import OwStorage.Theorems.Scrub
import OwStorage.Owfs.Theorems.Confined
import OwStorage.Owfs.Theorems.Replay
import OwStorage.Owfs.Theorems.Purge
import OwStorage.Usfs.Theorems.GrowthSpace
import OwStorage.Usfs.Theorems.Overwrite
