import ChameleonVault.Concurrency.Invariants
import ChameleonVault.KeyRegistry.KeyMetadata
import ChameleonVault.KeyRegistry.Operations
import ChameleonVault.KeyRegistry.Snapshots
import ChameleonVault.KeyRegistry.Shredding
import ChameleonVault.KeyRegistry.Versions
import ChameleonVault.Deletion.Requests
import ChameleonVault.Deletion.Sources
import ChameleonVault.Deletion.Certificates
import ChameleonVault.Deletion.Operations
import ChameleonVault.Deletion.Cascade
import ChameleonVault.Deletion.Issuance
import ChameleonVault.Deletion.Service
import ChameleonVault.Deletion.Handlers
import ChameleonVault.Deletion.Changes
import ChameleonVault.Deletion.Runs
import ChameleonVault.Deletion.Holders
import ChameleonVault.Deletion.Progress
import ChameleonVault.Deletion.Rollback
import ChameleonVault.Deletion.History
import ChameleonVault.Deletion.Routes
import ChameleonVault.Deletion.Addresses
import ChameleonVault.Deletion.ShredReplies
import ChameleonVault.Deletion.Lookups
import ChameleonVault.Deletion.Continuations
import ChameleonVault.Deletion.Issuing
import ChameleonVault.Deletion.Failures
import ChameleonVault.Concurrency.Solo
import ChameleonVault.Deletion.Plans
import ChameleonVault.Deletion.Recovery
import ChameleonVault.Deletion.Ownership
import ChameleonVault.Deletion.Attempts
import ChameleonVault.Concurrency.Since
import ChameleonVault.Deletion.Footprint
import ChameleonVault.Deletion.Subjects
import ChameleonVault.Signer.Server
import ChameleonVault.Signer.Binding
import ChameleonVault.Signer.Trust
import ChameleonVault.HashChain.Links
import ChameleonVault.CertificateChain.Transactions
import ChameleonVault.CertificateChain.Integrity
import ChameleonVault.Deletion.Retrieval
import ChameleonVault.Collections.OrderedMap
import ChameleonVault.Collections.Selection
import ChameleonVault.Collections.Pages
import ChameleonVault.Connectors.Contacts
import ChameleonVault.Connectors.Wipes
import ChameleonVault.Encoding.Percent
import ChameleonVault.PiiRegistry.Entries
import ChameleonVault.PiiRegistry.Validation
import ChameleonVault.PiiRegistry.Service
import ChameleonVault.PiiRegistry.Calls
import ChameleonVault.PiiRegistry.Served
import ChameleonVault.PiiRegistry.Isolation
import ChameleonVault.PiiRegistry.Mirror
import ChameleonVault.PiiRegistry.SyncMarks
import ChameleonVault.PiiRegistry.Executors
import ChameleonVault.PiiRegistry.Executable
import ChameleonVault.Sql.Lexer
import ChameleonVault.Sql.Dml
import ChameleonVault.Sql.Clauses
import ChameleonVault.PiiRegistry.Confinement
import ChameleonVault.Concurrency.Purge
import ChameleonVault.KeyRegistry.Collection
import ChameleonVault.ScopedAccess.Records
import ChameleonVault.ScopedAccess.Service
import ChameleonVault.ScopedAccess.Secrets
import ChameleonVault.ScopedAccess.Ledger
import ChameleonVault.ScopedAccess.Claims
import ChameleonVault.ScopedAccess.Soundness
import ChameleonVault.ScopedAccess.Attribution
import ChameleonVault.Sql.Pieces
import ChameleonVault.DecryptedViews.Declarations
import ChameleonVault.DecryptedViews.ViewSql
import ChameleonVault.DecryptedViews.ShadowSql
import ChameleonVault.DecryptedViews.Service
import ChameleonVault.Concurrency.Sequence
import ChameleonVault.DecryptedViews.Correspondence
import ChameleonVault.PiiRegistry.Warehouse
import ChameleonVault.PiiRegistry.ShadowCopies
import ChameleonVault.PiiRegistry.ShadowRequests
import ChameleonVault.Lineage.Events
import ChameleonVault.Lineage.HotPath
import ChameleonVault.SigningKeys.Versions
import ChameleonVault.SigningKeys.Service
import ChameleonVault.SigningKeys.Knowledge
import ChameleonVault.SigningKeys.Listings
import ChameleonVault.SigningKeys.Schedules
import ChameleonVault.SigningKeys.Published
import ChameleonVault.SigningKeys.Rotation
import ChameleonVault.Concurrency.Simulation
import ChameleonVault.PiiRegistry.Encodings
import ChameleonVault.PiiRegistry.EncodedRequests
import ChameleonVault.SigningKeys.Drafts
import ChameleonVault.SigningKeys.Fingerprints
import ChameleonVault.Sql.Queries
import ChameleonVault.DecryptedViews.ShadowContents
import ChameleonVault.Encoding.Utf8
import ChameleonVault.Encoding.Utf16
import ChameleonVault.Encoding.Base64
import ChameleonVault.Crypto.DeterministicAes
import ChameleonVault.Crypto.Routes
import ChameleonVault.Crypto.Keys
import ChameleonVault.Crypto.Ciphertexts
import ChameleonVault.Crypto.RoundTrip
import ChameleonVault.SyncRuns.Accounting
import ChameleonVault.Coverage.Score
import ChameleonVault.Collections.Latest
import ChameleonVault.Encoding.Binary64
import ChameleonVault.SigningKeys.Selectors
import ChameleonVault.Crypto.ChameleonAesGcm
import ChameleonVault.DecryptedViews.BatchDecrypt
import ChameleonVault.Deletion.Labels
import ChameleonVault.Concurrency.Traces
import ChameleonVault.Deletion.Janitor
import ChameleonVault.Sql.Windows
import ChameleonVault.PiiRegistry.EncryptedCopies
import ChameleonVault.Concurrency.Readers
import ChameleonVault.KeyRegistry.EncryptionVersions
import ChameleonVault.Crypto.EncryptionContexts
import ChameleonVault.PiiRegistry.Composition
import ChameleonVault.Encoding.Json
import ChameleonVault.Encoding.JsonRoundTrip
import ChameleonVault.Encoding.IsoDate
import ChameleonVault.Encoding.Hex
import ChameleonVault.Encoding.Der
import ChameleonVault.Signer.Tokens
import ChameleonVault.CertificateChain.Texts
import ChameleonVault.Evidence.Records
import ChameleonVault.Evidence.Verification
import ChameleonVault.Evidence.Publication
import ChameleonVault.Evidence.Transparency
import ChameleonVault.Evidence.Timestamps
import ChameleonVault.Evidence.TokenChecks
import ChameleonVault.Collections.Median
import ChameleonVault.Concurrency.Lenient
import ChameleonVault.Deletion.IssueDates
import ChameleonVault.Deletion.EvidenceReport
import ChameleonVault.Encoding.PercentDecoding
import ChameleonVault.Concurrency.Replies
import ChameleonVault.Audit.Events
import ChameleonVault.Audit.Attribution
import ChameleonVault.Audit.Trail
import ChameleonVault.Sql.Groupings
import ChameleonVault.DecryptedViews.Lookups
import ChameleonVault.Coverage.Pages
