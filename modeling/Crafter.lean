import Crafter.Demonstration
import Crafter.Main
import Crafter.Program.Fragment
import Crafter.Program.Whole
import Crafter.Proofs.Parsing
import Crafter.Proofs.Scanning
import Crafter.Proofs.Agreement
import Crafter.Proofs.Incremental
import Crafter.Proofs.Comparison
import Crafter.Proofs.Answer
import Crafter.Proofs.Earliest
import Crafter.Proofs.History
import Crafter.Proofs.Looping
import Crafter.Proofs.Undeclared
import Crafter.Proofs.Unused
import Crafter.Proofs.Reported
import Crafter.Proofs.Layout
import Crafter.Proofs.Renamed
import Crafter.Proofs.Effects
import Crafter.Proofs.Alternation
import Crafter.Proofs.Advice
import Crafter.Proofs.Cutoffs
import Crafter.Proofs.Volume
import Crafter.Proofs.Walk
import Crafter.Proofs.Sketch
import Crafter.Proofs.TreeView
import Crafter.Proofs.JsonGrammar
import Crafter.Proofs.JsonReading
import Crafter.Proofs.JsonTree
import Crafter.Proofs.Depth
import Crafter.Proofs.Invocation
import Crafter.Proofs.Numerals
import Crafter.Proofs.Listing
import Crafter.Proofs.Alignment
import Crafter.Proofs.Hints
import Crafter.Proofs.NumberText
import Crafter.Proofs.Lookups
