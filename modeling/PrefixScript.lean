import PrefixScript.CommandLine.Folder
import PrefixScript.Main
import PrefixScript.Proofs.Blame
import PrefixScript.Proofs.Exactness
import PrefixScript.Proofs.Extension
import PrefixScript.Proofs.Image
import PrefixScript.Proofs.Layout
import PrefixScript.Proofs.Literals
import PrefixScript.Proofs.Partition
import PrefixScript.Proofs.Provenance
import PrefixScript.Proofs.Tracing
import PrefixScript.Proofs.Truncation
import PrefixScript.Proofs.Noninterference
import PrefixScript.Proofs.Insertion
import PrefixScript.Proofs.CommandLine
import PrefixScript.Proofs.Chunks
import PrefixScript.Proofs.DeadCode
import PrefixScript.Proofs.Scanning
import PrefixScript.Proofs.Stopping
import PrefixScript.Proofs.TokenList
import PrefixScript.Proofs.Readback
import PrefixScript.Proofs.Renaming
import PrefixScript.Proofs.Rules
import PrefixScript.Proofs.LineNumbers
import PrefixScript.Proofs.Operators
import PrefixScript.Proofs.Reordering
import PrefixScript.Proofs.Splitting
