import Managed.Bytes
import Managed.Cache
import Managed.Catalog.Basic
import Managed.Catalog.PathTable
import Managed.Catalog.Store
import Managed.Context.Basic
import Managed.Context.Builder
import Managed.Context.Delegates
import Managed.Context.Strategy
import Managed.Cursor
import Managed.Defect
import Managed.Digest.Sha1
import Managed.Error
import Managed.Fault
import Managed.FileSystem.Basic
import Managed.FileSystem.Path
import Managed.FileSystem.Tree
import Managed.Handle
import Managed.Identity.Basic
import Managed.Identity.PublicKeyToken
import Managed.Identity.Reader
import Managed.Identity.Request
import Managed.Identity.Version
import Managed.Image.Basic
import Managed.Image.Container
import Managed.Image.Headers
import Managed.Integer.Compressed
import Managed.Integer.SevenBit
import Managed.Metadata.BlobHeap
import Managed.Metadata.CliHeader
import Managed.Metadata.CodedIndex
import Managed.Metadata.Layout
import Managed.Metadata.Root
import Managed.Metadata.Row
import Managed.Metadata.StreamHeader
import Managed.Metadata.StringsHeap
import Managed.Metadata.Table
import Managed.Metadata.TablesStream
import Managed.Metadata.Token
import Managed.Module.Basic
import Managed.Module.Contents
import Managed.Module.Debug
import Managed.OptionalFields.Basic
import Managed.OptionalFields.Encoding
import Managed.OptionalFields.Tag
import Managed.ParameterNames
import Managed.Proofs.LittleEndian
import Managed.Resolver
import Managed.Routine
import Managed.SimpleName
import Managed.Symbols.Attachment
import Managed.Symbols.Format
import Managed.Text.Blank
import Managed.Text.Decimal
import Managed.Text.Folding
import Managed.Text.Hex
import Managed.Text.Quoted
import Managed.Text.Record
import Managed.Text.Split
import Managed.Text.UpperCase
import Managed.Text.Utf8
import Managed.Text.Visible
import Managed.Proofs.Reading
import Managed.Proofs.SevenBit
import Managed.Proofs.FieldEncoding
import Managed.Proofs.Publication
import Managed.Proofs.CacheAgreement
import Managed.Proofs.CatalogCallRules
import Managed.Proofs.CatalogRuns
import Managed.Proofs.OneModulePerPath
import Managed.Proofs.CandidateLists
import Managed.Proofs.Resolution
import Managed.Proofs.TableRows
import Managed.Proofs.RowPlacement
import Managed.Proofs.TableWriting
import Managed.Proofs.IdentityRoundTrip
import Managed.Proofs.WatchedAccess
import Managed.Proofs.WatchedMetadata
import Managed.Proofs.WatchedTables
import Managed.Proofs.SafeLoading
import Managed.Proofs.NameFolding
import Managed.Proofs.SharedInvariants
import Managed.Proofs.UncachedCatalog
import Managed.Proofs.TruthfulStore
import Managed.Proofs.FaithfulCalls
import Managed.Proofs.ContextHistories
import Managed.Proofs.UnobservableCaching
import Managed.Proofs.RootFormat
import Managed.Proofs.SymbolAttachment
import Managed.Proofs.PermanentLists
import Managed.Proofs.PreloadOrder
import Managed.Proofs.CandidateContents
import Managed.Proofs.FieldTruncation
import Managed.Proofs.RequestText
import Managed.Proofs.RequestMeaning
import Managed.Proofs.RequestLayout
import Managed.Proofs.IdentityText
import Managed.Proofs.SignedIdentities
import Managed.Proofs.RelaxedRequests
import Managed.Proofs.ColumnWidths
import Managed.Proofs.RowCounts
import Managed.Proofs.RowReading
import Managed.Proofs.CompressedNumbers
import Managed.Proofs.AddressTranslation
import Managed.Proofs.CliHeaderRules
import Managed.Proofs.VersionGrammar
import Managed.Proofs.TokenGrammar
import Managed.Proofs.Registrations
import Managed.Proofs.DerivedInfo
import Managed.Proofs.LocalReading
import Managed.Proofs.CursorOperations
import Managed.Proofs.TypedImages
import Managed.Proofs.TypeHandles
import Managed.Proofs.CacheLedger
import Managed.Proofs.LedgerSession
import Managed.Proofs.CacheCounters
import Managed.Proofs.RoutineCharges
import Managed.Proofs.LookupNotes
import Managed.Proofs.LookupTallies
import Managed.Proofs.LookupRaces
import Managed.Proofs.CatalogStatistics
import Managed.Proofs.EncodedSizes
import Managed.Proofs.NameSpellings
import Managed.Proofs.ParameterIteration
