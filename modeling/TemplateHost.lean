import TemplateHost.Text.Blank
import TemplateHost.Text.Newline
import TemplateHost.Text.Quoted
import TemplateHost.Text.Resemblance
import TemplateHost.Text.Search
import TemplateHost.Text.Utf8
import TemplateHost.Html.Escape
import TemplateHost.Bidi.Mark
import TemplateHost.Uri.Escape
import TemplateHost.Text.WordBreak
import TemplateHost.Text.Truncate
import TemplateHost.Number.Shortest
import TemplateHost.Number.Reading
import TemplateHost.Table
import TemplateHost.Value.Entries
import TemplateHost.Value.Digest
import TemplateHost.Library.Content
import TemplateHost.Library.Collections
import TemplateHost.Library.Rounding
import TemplateHost.Library.Directions
import TemplateHost.Value.Display
import TemplateHost.Library.Function
import TemplateHost.Code.Source
import TemplateHost.Files.Tree
import TemplateHost.Failure
import TemplateHost.Channel.Script
import TemplateHost.Watch.Rehearsal
import TemplateHost.Host.Session
import TemplateHost.Context.Injection
import TemplateHost.Host.Reuse
import TemplateHost.Host.Support
import TemplateHost.Host.Compilation
import TemplateHost.Context.Lookup
import TemplateHost.Files.Discovery
import TemplateHost.Options.Invocation
import TemplateHost.Code.Statement
import TemplateHost.Proofs.Watch.History
import TemplateHost.Proofs.Watch.Turns
import TemplateHost.Proofs.Watch.Loop
import TemplateHost.Proofs.Watch.Registration
import TemplateHost.Proofs.Watch.Serialization
import TemplateHost.Proofs.Host.Overlap
import TemplateHost.Proofs.Files.Place
import TemplateHost.Proofs.Files.Tree
import TemplateHost.Proofs.Options.Artifact
import TemplateHost.Proofs.Host.Reuse
import TemplateHost.Proofs.Host.Alike
import TemplateHost.Proofs.Host.Incremental
import TemplateHost.Proofs.Options.Expansion
import TemplateHost.Proofs.Host.Compilation
import TemplateHost.Proofs.Options.CommandLine
import TemplateHost.Proofs.Host.Loading
import TemplateHost.Proofs.Host.Localization
import TemplateHost.Proofs.Flow.Interruption
import TemplateHost.Proofs.Host.Works
import TemplateHost.Proofs.Host.Problems
import TemplateHost.Proofs.Host.Announcement
import TemplateHost.Proofs.Watch.Handling
import TemplateHost.Proofs.Host.Succession
import TemplateHost.Proofs.Flow.Interleaving
import TemplateHost.Proofs.Host.Transfer
import TemplateHost.Proofs.Host.Copying
import TemplateHost.Proofs.Host.Gathering
import TemplateHost.Proofs.Context.Lookup
import TemplateHost.Proofs.Context.Delegation
import TemplateHost.Proofs.Host.Batch
import TemplateHost.Proofs.Host.Watching
import TemplateHost.Proofs.Html.Escape
import TemplateHost.Proofs.Library.Content
import TemplateHost.Proofs.Channel.Order
import TemplateHost.Proofs.Host.Concatenation
import TemplateHost.Proofs.Host.Attempt
import TemplateHost.Proofs.Flow.Footprint
import TemplateHost.Proofs.Host.Leftovers
import TemplateHost.Proofs.Files.Discovery
import TemplateHost.Proofs.Files.Growth
import TemplateHost.Proofs.Options.Spelling
import TemplateHost.Proofs.Host.Output
import TemplateHost.Proofs.Host.Reading
import TemplateHost.Proofs.Host.InPlace
import TemplateHost.Proofs.Host.Rerun
import TemplateHost.Proofs.Uri.Filter
import TemplateHost.Proofs.Code.Registries
import TemplateHost.Proofs.Code.Election
import TemplateHost.Proofs.Code.Scopes
import TemplateHost.Proofs.Host.Lifecycle
import TemplateHost.Proofs.Options.Containment
import TemplateHost.Proofs.Files.Listing
import TemplateHost.Proofs.Code.Declaration
import TemplateHost.Proofs.Options.Grammar
import TemplateHost.Proofs.Watch.Debounce
import TemplateHost.Proofs.Watch.LateChanges
import TemplateHost.Proofs.Context.Suggestion
import TemplateHost.Proofs.Uri.Scheme
import TemplateHost.Proofs.Text.WordBreak
import TemplateHost.Proofs.Options.Merging
import TemplateHost.Proofs.Library.Directions
import TemplateHost.Proofs.Watch.Observers
import TemplateHost.Proofs.Options.RunDirectory
import TemplateHost.Proofs.Library.Rounding
