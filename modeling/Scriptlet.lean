import Scriptlet.Main
import Scriptlet.Precedence
import Scriptlet.Proofs.CommandLine
import Scriptlet.Proofs.Diagnostic
import Scriptlet.Proofs.Listing
import Scriptlet.Proofs.Parse.Accounting
import Scriptlet.Proofs.Parse.Blame
import Scriptlet.Proofs.Parse.Boundary
import Scriptlet.Proofs.Parse.Formatting
import Scriptlet.Proofs.Parse.Locality
import Scriptlet.Proofs.Parse.Order
import Scriptlet.Proofs.Parse.Recovery
import Scriptlet.Proofs.Parse.Resumption
import Scriptlet.Proofs.Parse.Telling
import Scriptlet.Proofs.Parse.Unclosed
import Scriptlet.Proofs.Program.Integer
import Scriptlet.Proofs.Program.Opening
import Scriptlet.Proofs.Program.RoundTrip
import Scriptlet.Proofs.Prompt.Fault
import Scriptlet.Proofs.Session.Log
import Scriptlet.Proofs.Span.Join
import Scriptlet.Proofs.Text.Quoted
import Scriptlet.Proofs.Token.Calls
import Scriptlet.Proofs.Token.LongestMatch
import Scriptlet.Proofs.Token.Stretch
import Scriptlet.Proofs.Transcript.Limit
