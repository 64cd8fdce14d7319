import ControlSurface.Readout
import ControlSurface.Layout.Tree
import ControlSurface.Bundle.Files
import ControlSurface.Element.Table
import ControlSurface.Main
import ControlSurface.Machine.Rehearsal
import ControlSurface.Proofs.Name.Slugs
import ControlSurface.Proofs.Keyed.Entries
import ControlSurface.Proofs.Fault.Outcome
import ControlSurface.Proofs.Font.FileNames
import ControlSurface.Proofs.Bundle.Stages
import ControlSurface.Proofs.Bundle.Paths
import ControlSurface.Proofs.Bundle.Keeping
import ControlSurface.Proofs.Stylesheet.Height
import ControlSurface.Proofs.Stylesheet.Lexing
import ControlSurface.Proofs.Stylesheet.Nesting
import ControlSurface.Proofs.Stylesheet.Plain
import ControlSurface.Proofs.Stylesheet.Selecting
import ControlSurface.Proofs.Stylesheet.Reach
import ControlSurface.Proofs.Stylesheet.Isolation
import ControlSurface.Proofs.Text.Search
import ControlSurface.Proofs.Xml.Proper
import ControlSurface.Proofs.Xml.Rules
import ControlSurface.Proofs.Xml.Building
import ControlSurface.Proofs.Xml.Tags
import ControlSurface.Proofs.Xml.Printing
import ControlSurface.Proofs.Svg.Inert
import ControlSurface.Proofs.Layout.Identity
import ControlSurface.Proofs.Layout.Preorder
import ControlSurface.Proofs.Layout.Siblings
import ControlSurface.Proofs.Layout.Painting
import ControlSurface.Proofs.Layout.Ancestors
import ControlSurface.Proofs.Layout.Nesting
import ControlSurface.Proofs.Number.Plain
import ControlSurface.Proofs.Svg.Numeral
import ControlSurface.Proofs.Svg.NumeralValue
import ControlSurface.Proofs.Svg.NumberRounding
import ControlSurface.Proofs.Svg.PathData
import ControlSurface.Proofs.Svg.Rounding
import ControlSurface.Proofs.Svg.Cutting
import ControlSurface.Proofs.Svg.Separation
import ControlSurface.Proofs.Machine.Place
import ControlSurface.Proofs.Machine.Changing
import ControlSurface.Proofs.Machine.Running
import ControlSurface.Proofs.Delivery.Staging
import ControlSurface.Proofs.Delivery.Moving
import ControlSurface.Proofs.Delivery.Restoring
import ControlSurface.Proofs.Delivery.AllOrNothing
import ControlSurface.Proofs.Markup.Token
import ControlSurface.Proofs.Markup.Reading
import ControlSurface.Proofs.Markup.Regular
import ControlSurface.Proofs.Markup.Parts
import ControlSurface.Proofs.Markup.Kinds
import ControlSurface.Proofs.Markup.Graphics
import ControlSurface.Proofs.Markup.Intact
import ControlSurface.Proofs.Markup.Collecting
import ControlSurface.Proofs.Page.Identifiers
import ControlSurface.Proofs.Script.Entries
import ControlSurface.Proofs.Page.Agreement
import ControlSurface.Proofs.Bundle.GuideTable
import ControlSurface.Proofs.Text.Replacing
import ControlSurface.Proofs.Text.EndTag
import ControlSurface.Proofs.Json.Grammar
import ControlSurface.Proofs.Json.Reading
import ControlSurface.Proofs.Json.Strings
import ControlSurface.Proofs.Json.Numeral
import ControlSurface.Proofs.Json.Printing
import ControlSurface.Proofs.Script.Literals
import ControlSurface.Proofs.Script.Filling
import ControlSurface.Proofs.Script.Decoding
import ControlSurface.Proofs.Script.EndTags
import ControlSurface.Proofs.Preview.Stages
import ControlSurface.Proofs.Preview.Inlining
import ControlSurface.Proofs.Stylesheet.Closing
import ControlSurface.Proofs.Page.Transfer
import ControlSurface.Proofs.Preview.Success
import ControlSurface.Proofs.Preview.Faithful
import ControlSurface.Proofs.Xml.Remainder
import ControlSurface.Proofs.Xml.Scoping
import ControlSurface.Proofs.Xml.Opening
import ControlSurface.Proofs.Xml.Rebuilding
import ControlSurface.Proofs.Svg.Reduction
import ControlSurface.Proofs.Project.Migration
import ControlSurface.Proofs.Bundle.Graphics
import ControlSurface.Proofs.Bundle.FontReferences
import ControlSurface.Proofs.Check.Gate
import ControlSurface.Proofs.Bundle.Navigation
import ControlSurface.Proofs.Delivery.Arriving
import ControlSurface.Proofs.Delivery.Parity
import ControlSurface.Proofs.Stylesheet.Continuing
import ControlSurface.Proofs.Stylesheet.Items
import ControlSurface.Proofs.Page.ListOrder
import ControlSurface.Proofs.Project.Respelling
import ControlSurface.Proofs.Project.Spelling
import ControlSurface.Proofs.Project.Loading
import ControlSurface.Proofs.CommandLine.Commands
import ControlSurface.Proofs.CommandLine.Exit
import ControlSurface.Proofs.Element.Saving
import ControlSurface.Proofs.Svg.Remaining
import ControlSurface.Proofs.Svg.TextContent
import ControlSurface.Proofs.Svg.TextLoss
import ControlSurface.Proofs.Xml.Size
import ControlSurface.Proofs.Xml.Gains
import ControlSurface.Proofs.Svg.Sizes
import ControlSurface.Proofs.CommandLine.Agreement
import ControlSurface.Proofs.Settings.Choices
import ControlSurface.Proofs.Preview.Slots
import ControlSurface.Proofs.Preview.Content
import ControlSurface.Proofs.Markup.Marks
import ControlSurface.Proofs.Markup.PathTree
import ControlSurface.Proofs.Number.Order
import ControlSurface.Proofs.Number.Decimal
import ControlSurface.Proofs.Readout.Place
import ControlSurface.Proofs.Script.FirstRender
import ControlSurface.Proofs.Script.FirstState
import ControlSurface.Proofs.Number.Canonical
import ControlSurface.Proofs.Name.Identifier
import ControlSurface.Proofs.Stylesheet.Splitting
import ControlSurface.Proofs.Stylesheet.Ending
import ControlSurface.Proofs.Stylesheet.Repeating
