import Devnet.Wallet.Script
import Devnet.Main
import Devnet.Proofs.Account.Agreement
import Devnet.Proofs.Deploy.Verbatim
import Devnet.Proofs.Probe.Classification
import Devnet.Proofs.Probe.Reference
import Devnet.Proofs.Http.Requests
import Devnet.Proofs.Probe.Cut
import Devnet.Proofs.Wallet.Determined
import Devnet.Proofs.Probe.Redirects
import Devnet.Proofs.Execution.Exit
import Devnet.Proofs.Deploy.Secrecy
import Devnet.Proofs.Execution.Logging
import Devnet.Proofs.Probe.Captured
import Devnet.Proofs.Execution.PrintedUrl
import Devnet.Proofs.Deploy.Launcher
import Devnet.Proofs.Execution.Discovery
import Devnet.Proofs.Felt.Residue
import Devnet.Proofs.Deployment.Address
import Devnet.Proofs.Execution.Overriding
import Devnet.Proofs.Execution.Report
import Devnet.Proofs.Deployment.Printed
import Devnet.Proofs.Deploy.Asked
import Devnet.Proofs.Execution.Rearranged
import Devnet.Proofs.Probe.Endpoints
import Devnet.Proofs.Probe.Named
import Devnet.Proofs.Probe.Lines
import Devnet.Proofs.Account.Unknown
import Devnet.Proofs.Account.Whole
import Devnet.Proofs.Account.Canonical
import Devnet.Proofs.Execution.Louder
import Devnet.Proofs.Discover.Timeout
