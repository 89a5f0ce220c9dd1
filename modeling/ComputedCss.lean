import ComputedCss.Main
import ComputedCss.Session.Run
import ComputedCss.Proofs.Value.RoundTrip
import ComputedCss.Proofs.ComputedValue.Agreement
import ComputedCss.Proofs.Style.Fallback
import ComputedCss.Proofs.Style.Siblings
import ComputedCss.Proofs.Session.Ownership
import ComputedCss.Proofs.Session.Coherence
import ComputedCss.Proofs.Session.Trees
import ComputedCss.Proofs.Session.Reordering
import ComputedCss.Proofs.Session.Sharing
import ComputedCss.Proofs.ComputedValue.Advancing
import ComputedCss.Proofs.ComputedValue.SoleHolder
import ComputedCss.Proofs.Session.Declared
import ComputedCss.Proofs.Session.Failures
import ComputedCss.Proofs.Number.Comparable
import ComputedCss.Proofs.Value.Faithful
import ComputedCss.Proofs.Session.Texts
import ComputedCss.Proofs.Session.Readings
import ComputedCss.Proofs.Session.Layout
import ComputedCss.Proofs.Session.Copies
import ComputedCss.Proofs.Value.Classified
import ComputedCss.Proofs.Log
import ComputedCss.Proofs.Value.Components
import ComputedCss.Proofs.Text.TopLevel
import ComputedCss.Proofs.Value.Keyword
import ComputedCss.Proofs.Value.Literals
import ComputedCss.Proofs.CommandLine.Binding
import ComputedCss.Proofs.Session.Completion
import ComputedCss.Proofs.Session.Answers
import ComputedCss.Proofs.Session.Binding
import ComputedCss.Proofs.Session.Bases
import ComputedCss.Proofs.Style.Apart
import ComputedCss.Proofs.Style.Origins
import ComputedCss.Proofs.Session.Contexts
import ComputedCss.Proofs.Session.AfterLayout
import ComputedCss.Proofs.ComputedValue.Numeric
import ComputedCss.Proofs.Number.Longest
import ComputedCss.Proofs.Value.Addresses
import ComputedCss.Proofs.Session.WriteRead
import ComputedCss.Proofs.Session.Lengths
import ComputedCss.Proofs.ComputedValue.Segments
import ComputedCss.Proofs.Color.Arguments
import ComputedCss.Proofs.Color.Reference
import ComputedCss.Proofs.Color.Sectors
import ComputedCss.Proofs.Color.Notation
import ComputedCss.Proofs.Value.StringEnds
import ComputedCss.Proofs.Value.Slices
