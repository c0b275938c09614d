import Hypertext.Ascii
import Hypertext.Error
import Hypertext.HashInput
import Hypertext.Json.Basic
import Hypertext.Json.Compact
import Hypertext.Source.Location
import Hypertext.Source.Position
import Hypertext.Source.Located
import Hypertext.NonEmpty
import Hypertext.Warning
import Hypertext.Markup.Attribute
import Hypertext.Markup.Attributes
import Hypertext.Markup.Raw
import Hypertext.Markup.Tree
import Hypertext.Markup.Outline
import Hypertext.Grammar.Category
import Hypertext.Grammar.HeadingLevel
import Hypertext.Grammar.Hole
import Hypertext.Grammar.Vocabulary
import Hypertext.Grammar.Node
import Hypertext.Grammar.Serial
import Hypertext.Grammar.Equality
import Hypertext.Grammar.Walk
import Hypertext.Grammar.Document
import Hypertext.Proofs.Quoting
import Hypertext.Proofs.QuoteEnds
import Hypertext.Proofs.Induction
import Hypertext.Proofs.Relabeling
import Hypertext.Proofs.Preorder
import Hypertext.Proofs.OutlineReading
import Hypertext.Proofs.FirstOccurrence
import Hypertext.Proofs.Kinds
import Hypertext.Proofs.Serialization
import Hypertext.Proofs.Equality
import Hypertext.Proofs.Drafts
import Hypertext.Proofs.WalkSerialization
import Hypertext.Proofs.LogRuns
import Hypertext.Proofs.WarningRuns
import Hypertext.Proofs.NonEmptyRuns
import Hypertext.Proofs.CompactText
import Hypertext.Proofs.Lookup
import Hypertext.Proofs.Noninterference
import Hypertext.Proofs.Respelling
import Hypertext.Proofs.AnchorChains
import Hypertext.Proofs.WarningKeys
import Hypertext.Proofs.OutlineLines
import Hypertext.Proofs.Recollecting
import Hypertext.Proofs.Displays
import Hypertext.Proofs.OutlineOrder
import Hypertext.Proofs.Slices
import Hypertext.Proofs.TagNames
