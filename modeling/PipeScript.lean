import PipeScript.Main
import PipeScript.Tree.Record
import PipeScript.Proofs.Viability
import PipeScript.Proofs.Unparse
import PipeScript.Proofs.RoundTrip
import PipeScript.Proofs.Unambiguity
import PipeScript.Proofs.TreeShape
import PipeScript.Proofs.Diagnosis
import PipeScript.Proofs.Strays
import PipeScript.Proofs.Separators
import PipeScript.Proofs.Concatenation
import PipeScript.Proofs.DrawnGraph
import PipeScript.Proofs.Parallel
import PipeScript.Proofs.Faithfulness
import PipeScript.Proofs.Commands
import PipeScript.Proofs.NodeCount
import PipeScript.Proofs.Chains
import PipeScript.Proofs.OutlineRows
import PipeScript.Proofs.Positions
import PipeScript.Proofs.Blanking
import PipeScript.Proofs.Totality
import PipeScript.Proofs.Tours
import PipeScript.Proofs.ChainWalks
import PipeScript.Proofs.HandBuilt
import PipeScript.Proofs.Rounding
import PipeScript.Proofs.OneLine
import PipeScript.Proofs.OpenCells
