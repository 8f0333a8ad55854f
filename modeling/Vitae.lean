import Vitae.Main
import Vitae.Session
import Vitae.Resume.Trace
import Vitae.Proofs.Schema.Findings
import Vitae.Proofs.Schema.Conclusion
import Vitae.Proofs.Schema.Levels
import Vitae.Proofs.Schema.Acceptance
import Vitae.Proofs.Schema.Outcome
import Vitae.Proofs.Schema.Role
import Vitae.Proofs.Schema.Coverage
import Vitae.Proofs.Schema.Sight
import Vitae.Proofs.Schema.LeafText
import Vitae.Proofs.Schema.Influence
import Vitae.Proofs.Schema.Unrecognized
import Vitae.Proofs.Schema.Exchange
import Vitae.Proofs.Loading
import Vitae.Proofs.Session
import Vitae.Proofs.Program
import Vitae.Proofs.Json.Reading
import Vitae.Proofs.Json.RoundTrip
import Vitae.Proofs.Resume.Layout
import Vitae.Proofs.Resume.JsonReading
import Vitae.Proofs.Resume.Strings
import Vitae.Proofs.Resume.Tree
import Vitae.Proofs.Lines
import Vitae.Proofs.BlankLines
import Vitae.Proofs.Resume.Page
import Vitae.Proofs.Resume.Trace
import Vitae.Proofs.Resume.Replay
import Vitae.Proofs.Config.Precedence
import Vitae.Proofs.Report
