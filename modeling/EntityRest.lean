import EntityRest.Blueprint.Plugin
import EntityRest.Config.Reader
import EntityRest.Driver.InMemory
import EntityRest.Json.Printer
import EntityRest.Plugin.Conflicts
import EntityRest.Service.Assembly
import EntityRest.Proofs.Data.OrdMap
import EntityRest.Proofs.Plugin.InitOrder
import EntityRest.Proofs.Effect.Action
import EntityRest.Proofs.Json.Fields
import EntityRest.Proofs.Json.Same
import EntityRest.Proofs.Store.Identity
import EntityRest.Proofs.Driver.Writes
import EntityRest.Proofs.Driver.Transaction
import EntityRest.Proofs.Validation.Input
import EntityRest.Proofs.Service.Pipeline
import EntityRest.Proofs.Service.Ownership
import EntityRest.Proofs.Store.ThreeWay
import EntityRest.Proofs.Service.Authorization
import EntityRest.Proofs.Service.Read
import EntityRest.Proofs.Plugin.Initialization
import EntityRest.Proofs.Data.Entries
import EntityRest.Proofs.Plugin.Follow
import EntityRest.Proofs.Plugin.Counterpart
import EntityRest.Proofs.Plugin.LockedField
import EntityRest.Proofs.Plugin.Renaming
import EntityRest.Proofs.Plugin.Simultaneous
import EntityRest.Proofs.Routing.Router
import EntityRest.Proofs.Plugin.Hidden
import EntityRest.Proofs.Http.Segments
import EntityRest.Proofs.Text.LowerCase
import EntityRest.Proofs.Routing.Paths
import EntityRest.Proofs.Routing.Listing
import EntityRest.Proofs.Routing.Completeness
import EntityRest.Proofs.Plugin.Tags
import EntityRest.Proofs.Service.Assembly
import EntityRest.Proofs.Store.Conformance
import EntityRest.Proofs.Service.Conformance
import EntityRest.Proofs.Query.Equality
import EntityRest.Proofs.Driver.Lookup
import EntityRest.Proofs.Store.References
import EntityRest.Proofs.Driver.References
import EntityRest.Proofs.Text.Integer
import EntityRest.Proofs.Query.FilterParameter
import EntityRest.Proofs.Query.TextFilter
import EntityRest.Proofs.Query.Sort
import EntityRest.Proofs.Query.Paging
import EntityRest.Proofs.Service.Paging
import EntityRest.Proofs.Query.Tests
import EntityRest.Proofs.Query.Replacement
import EntityRest.Proofs.Service.Confinement
import EntityRest.Proofs.Service.ClientKeys
import EntityRest.Proofs.Json.Sorted
import EntityRest.Proofs.Service.WriteBack
import EntityRest.Proofs.Service.Answer
import EntityRest.Proofs.Service.SecurityHeaders
import EntityRest.Proofs.Service.Stopping
import EntityRest.Proofs.Service.Redaction
import EntityRest.Proofs.Plugin.AddedNames
import EntityRest.Proofs.Plugin.DeclaredName
import EntityRest.Proofs.Service.Startup
import EntityRest.Proofs.Service.Shutdown
import EntityRest.Proofs.Driver.Effects
import EntityRest.Proofs.Driver.Commuting
import EntityRest.Proofs.Data.Double
import EntityRest.Proofs.Query.Order
import EntityRest.Proofs.Driver.Listing
import EntityRest.Proofs.Service.Includes
import EntityRest.Proofs.Query.Kinds
import EntityRest.Proofs.Query.Comparator
import EntityRest.Proofs.Store.Embedding
import EntityRest.Proofs.Store.IntegerKeys
import EntityRest.Proofs.Query.SortText
import EntityRest.Proofs.Query.Written
import EntityRest.Proofs.Query.PageNumbers
import EntityRest.Proofs.Plugin.FieldOrigins
import EntityRest.Proofs.Driver.RequiredKeys
import EntityRest.Proofs.Plugin.EntityCache
import EntityRest.Proofs.Text.Items
import EntityRest.Proofs.Schema.Declaration
import EntityRest.Proofs.Plugin.Contributions
import EntityRest.Proofs.Routing.Patterns
import EntityRest.Proofs.Naming.Plural
import EntityRest.Proofs.Plugin.Conflicts
import EntityRest.Proofs.Service.Sending
import EntityRest.Proofs.Http.Escaping
import EntityRest.Proofs.Routing.OwnPath
import EntityRest.Proofs.Store.Lone
import EntityRest.Proofs.Service.OneRecord
import EntityRest.Proofs.Service.PassingOn
import EntityRest.Proofs.Service.Addressing
