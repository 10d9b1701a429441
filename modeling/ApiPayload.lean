import ApiPayload.Json.Reader
import ApiPayload.Schema.Spec
import ApiPayload.Transform.Run
import ApiPayload.Validation.Validate
import ApiPayload.Cli.Run
import ApiPayload.Main
import ApiPayload.Proofs.Links
import ApiPayload.Proofs.Slots
import ApiPayload.Proofs.Workers
import ApiPayload.Proofs.Workshop
import ApiPayload.Proofs.Requests
import ApiPayload.Proofs.Built
import ApiPayload.Proofs.Interpreter
import ApiPayload.Proofs.Agreement
import ApiPayload.Proofs.Threads
import ApiPayload.Proofs.Crew
import ApiPayload.Proofs.Concurrency
import ApiPayload.Proofs.Detachment
import ApiPayload.Proofs.Directions
import ApiPayload.Proofs.Calendar
import ApiPayload.Proofs.Formats
import ApiPayload.Proofs.Dispatch
import ApiPayload.Proofs.Return
import ApiPayload.Proofs.RoundTrip
import ApiPayload.Proofs.Walks
import ApiPayload.Proofs.Places
import ApiPayload.Proofs.Layers
import ApiPayload.Proofs.Numbering
import ApiPayload.Proofs.Keys
import ApiPayload.Proofs.Models
import ApiPayload.Proofs.Ancestry
import ApiPayload.Proofs.Descent
import ApiPayload.Proofs.Inheritance
import ApiPayload.Proofs.Visits
import ApiPayload.Proofs.Tags
import ApiPayload.Proofs.Saturation
import ApiPayload.Proofs.TagChecks
import ApiPayload.Proofs.Readings
import ApiPayload.Proofs.Coverage
import ApiPayload.Proofs.Assembly
import ApiPayload.Proofs.Merging
import ApiPayload.Proofs.Depths
import ApiPayload.Proofs.Journal
import ApiPayload.Proofs.Texts
import ApiPayload.Proofs.Complete
import ApiPayload.Proofs.Locations
import ApiPayload.Proofs.Reordering
import ApiPayload.Proofs.Renumbering
import ApiPayload.Proofs.DefinitionOrder
import ApiPayload.Proofs.OtherOptions
import ApiPayload.Proofs.Unnaming
import ApiPayload.Proofs.Fillers
import ApiPayload.Proofs.PostOrder
import ApiPayload.Proofs.Collapse
import ApiPayload.Proofs.Endings
import ApiPayload.Proofs.Choices
import ApiPayload.Proofs.Rewriting
import ApiPayload.Proofs.Patterns
import ApiPayload.Proofs.RuleChecks
import ApiPayload.Proofs.RuleReadings
import ApiPayload.Proofs.Validations
import ApiPayload.Proofs.RuleTables
import ApiPayload.Proofs.ListedValues
import ApiPayload.Proofs.Keywords
import ApiPayload.Proofs.Nulls
import ApiPayload.Proofs.Paths
import ApiPayload.Proofs.RootSchemas
import ApiPayload.Proofs.ModelNodes
import ApiPayload.Proofs.Aliases
import ApiPayload.Proofs.TagPlaces
import ApiPayload.Proofs.Absence
import ApiPayload.Proofs.ModelNames
import ApiPayload.Proofs.Tokens
import ApiPayload.Proofs.Printing
import ApiPayload.Proofs.Markers
import ApiPayload.Proofs.Reprinting
import ApiPayload.Proofs.Commands
import ApiPayload.Proofs.Lineage
import ApiPayload.Proofs.Embedding
import ApiPayload.Proofs.Excerpts
import ApiPayload.Proofs.Verdicts
