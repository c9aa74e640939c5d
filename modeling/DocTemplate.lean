import DocTemplate.Main
import DocTemplate.Json.Parser
import DocTemplate.Template.Escape
import DocTemplate.Proofs.Context.Path
import DocTemplate.Proofs.Template.Scope
import DocTemplate.Proofs.Template.Grammar
import DocTemplate.Proofs.Template.Lexeme
import DocTemplate.Proofs.Template.Recognition
import DocTemplate.Proofs.Template.Printing
import DocTemplate.Proofs.Template.Limit
import DocTemplate.Proofs.Context.Agreement
import DocTemplate.Proofs.Template.Escape
import DocTemplate.Proofs.Template.Concatenation
import DocTemplate.Proofs.Template.Dependence
import DocTemplate.Proofs.Context.LineEnding
import DocTemplate.Proofs.Template.LineEnding.Reading
import DocTemplate.Proofs.Template.LineEnding.Rendering
import DocTemplate.Proofs.Template.Completion
import DocTemplate.Proofs.Template.Failure
import DocTemplate.Proofs.Except
import DocTemplate.Proofs.Text.ByteOrder
import DocTemplate.Proofs.OrderedMap.Insertion
import DocTemplate.Proofs.Document.Hook
import DocTemplate.Proofs.Command.Variables
import DocTemplate.Proofs.Command.Config
import DocTemplate.Proofs.Command.Precedence
import DocTemplate.Proofs.Command.Writing
import DocTemplate.Proofs.Command.Effects
import DocTemplate.Proofs.Template.Canonical
import DocTemplate.Proofs.Template.Standalone
import DocTemplate.Proofs.Context.Binding
import DocTemplate.Proofs.Document.FrontMatter
import DocTemplate.Proofs.Template.Backtracking
import DocTemplate.Proofs.Command.Coherence
import DocTemplate.Proofs.Document.BodyTemplate
import DocTemplate.Proofs.Template.Loop
import DocTemplate.Proofs.Document.Layer
import DocTemplate.Proofs.Value.Yaml
import DocTemplate.Proofs.Value.ReadBack
import DocTemplate.Proofs.Yaml.Extent
import DocTemplate.Proofs.Command.Settings
import DocTemplate.Proofs.Command.Loading
import DocTemplate.Proofs.Template.Slicing.Safety
