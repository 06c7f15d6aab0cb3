import RsConsole.Library.Program
import RsConsole.Library.Interleaving
import RsConsole.Library.Parts
import RsConsole.Library.Teams
import RsConsole.Library.Isolation
import RsConsole.Library.Transaction
import RsConsole.Library.Table
import RsConsole.Library.Abstraction
import RsConsole.Library.Since
import RsConsole.Library.Journal
import RsConsole.Library.Json
import RsConsole.Library.JsonPointer
import RsConsole.Library.MemberOrder
import RsConsole.Library.Decoding
import RsConsole.Library.Versioning
import RsConsole.Library.LastWrite
import RsConsole.Crates
import RsConsole.Reference
import RsConsole.Policy.Vpn
import RsConsole.Policy.Changes
import RsConsole.Policy.Contract
import RsConsole.Policy.Digest
import RsConsole.Policy.Manifests
import RsConsole.Policy.Decoding
import RsConsole.Policy.Documents
import RsConsole.Policy.Timestamps
import RsConsole.Policy.Acceptance
import RsConsole.Policy.Allocation
import RsConsole.Policy.Identity
import RsConsole.Policy.Wire
import RsConsole.Policy.Python
import RsConsole.Policy.Canonical
import RsConsole.Api.Sync
import RsConsole.Api.Convergence
import RsConsole.Api.Generations
import RsConsole.Api.Acknowledgements
import RsConsole.Api.Exactness
import RsConsole.Api.Publishing
import RsConsole.Auth.Types
import RsConsole.Auth.Service
import RsConsole.Auth.Clients
import RsConsole.Server.Database
import RsConsole.Server.Repository
import RsConsole.Server.History
import RsConsole.Server.Effects
import RsConsole.Server.Runs
import RsConsole.Server.Ceremonies
import RsConsole.Server.Completions
import RsConsole.Server.Invalidation
import RsConsole.Server.Credentials
import RsConsole.Server.BreakGlass
import RsConsole.Server.Commits
import RsConsole.Server.Operators
import RsConsole.Server.Recoveries
import RsConsole.Server.Sessions
import RsConsole.Server.Counters
import RsConsole.Server.Accounts
import RsConsole.Server.AuditLog
import RsConsole.Server.Statements
import RsConsole.Server.Bootstraps
import RsConsole.Server.Csrf
import RsConsole.Server.IdleExpiry
import RsConsole.Server.Rows
import RsConsole.Server.Failures
import RsConsole.Server.Unavailable
import RsConsole.Server.Http
import RsConsole.Server.Requests
import RsConsole.Server.Cookies
import RsConsole.Server.Webauthn
import RsConsole.Server.Passkeys
import RsConsole.Server.Commands
import RsConsole.Server.Console
import RsConsole.Server.Authority
import RsConsole.Server.Restore
import RsConsole.Server.Live
import RsConsole.Server.Refinement
import RsConsole.Server.Lifetime
import RsConsole.Server.Grants
import RsConsole.Server.Answers
import RsConsole.Server.Admission
import RsConsole.Library.Alone
import RsConsole.Server.Access
