import MachineBundle.Graph.Outline
import MachineBundle.Main
import MachineBundle.Proofs.Arrangement.Manifest
import MachineBundle.Proofs.Arrangement.Resolved
import MachineBundle.Proofs.Arrangement.RoundTrip
import MachineBundle.Proofs.Arrangement.Shared
import MachineBundle.Proofs.Atomic.Refused
import MachineBundle.Proofs.Atomic.Single
import MachineBundle.Proofs.Bundle.Agreement
import MachineBundle.Proofs.Bundle.Bounds
import MachineBundle.Proofs.Bundle.Clashes
import MachineBundle.Proofs.Bundle.Copied
import MachineBundle.Proofs.Bundle.Headers
import MachineBundle.Proofs.Bundle.LineEnds
import MachineBundle.Proofs.Bundle.Listed
import MachineBundle.Proofs.CommandLine.Logged
import MachineBundle.Proofs.CommandLine.Reported
import MachineBundle.Proofs.Graph.Transitions
import MachineBundle.Proofs.Scan.Reported
import MachineBundle.Proofs.Source.Entries
