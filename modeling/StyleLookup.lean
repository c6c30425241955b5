import StyleLookup.Main
import StyleLookup.FileSystem.Linked
import StyleLookup.FileSystem.Memory
import StyleLookup.Watch
import StyleLookup.Proofs.RuleIndex.History
import StyleLookup.Proofs.RuleIndex.Filing
import StyleLookup.Proofs.Declarations
import StyleLookup.Proofs.Selector.Covering
import StyleLookup.Proofs.Sheet.Flat
import StyleLookup.Proofs.Sheet.RoundTrip
import StyleLookup.Proofs.Sheet.EmptyBlocks
import StyleLookup.Proofs.Path.Climb
import StyleLookup.Proofs.Discovery.Containment
import StyleLookup.Proofs.Workspace.MarkedRoot
import StyleLookup.Proofs.Usage.ClassNames
import StyleLookup.Proofs.Sheet.Location
import StyleLookup.Proofs.Selector.Lists
import StyleLookup.Proofs.RuleIndex.Interleaving
import StyleLookup.Proofs.Discovery.Modes
import StyleLookup.Proofs.Watch
import StyleLookup.Proofs.Workspace.FixedRoot
import StyleLookup.Proofs.Scoping.RoundTrip
import StyleLookup.Proofs.Sheet.Growth
import StyleLookup.Proofs.Sheet.LeftmostBlocks
import StyleLookup.Proofs.Sheet.LeftmostDeclarations
import StyleLookup.Proofs.Discovery.SheetNames
import StyleLookup.Proofs.FileSystem.Replacement
import StyleLookup.Proofs.Discovery.Unlistable
import StyleLookup.Proofs.RuleIndex.Readings
import StyleLookup.Proofs.RuleIndex.UnreadableSheet
import StyleLookup.Proofs.RuleIndex.ListingOrder
import StyleLookup.Proofs.Selector.NormalForm
import StyleLookup.Proofs.Selector.BareWord
import StyleLookup.Proofs.Selector.ElementPlace
import StyleLookup.Proofs.Usage.Order
import StyleLookup.Proofs.StyleRule.Grouping
import StyleLookup.Proofs.RuleIndex.ResolvedLine
import StyleLookup.Proofs.Path.Canonical
import StyleLookup.Proofs.Declarations.InsertionOrder
import StyleLookup.Path.Encoding
import StyleLookup.Proofs.Text.Utf8
import StyleLookup.Proofs.Path.Encoding
