import SmallLisp.Main
import SmallLisp.Proofs.BlankTexts
import SmallLisp.Proofs.Brackets
import SmallLisp.Proofs.CallFrames
import SmallLisp.Proofs.Comparisons
import SmallLisp.Proofs.Confinement
import SmallLisp.Proofs.FirstOrder
import SmallLisp.Proofs.Forests
import SmallLisp.Proofs.Inclusion
import SmallLisp.Proofs.Joining
import SmallLisp.Proofs.LineSafety
import SmallLisp.Proofs.Numerals
import SmallLisp.Proofs.PathVariables
import SmallLisp.Proofs.Provenance
import SmallLisp.Proofs.Refusals
import SmallLisp.Proofs.Scanner
import SmallLisp.Proofs.ScriptFaults
import SmallLisp.Proofs.ScriptRuns
import SmallLisp.Proofs.Trails
import SmallLisp.Proofs.Transcripts
import SmallLisp.Proofs.Turns
import SmallLisp.Proofs.Visibility
import SmallLisp.Proofs.Walks
import SmallLisp.Proofs.Weakening
