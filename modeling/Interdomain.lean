import Interdomain.Config.Load
import Interdomain.Status.Report
import Interdomain.Proofs.Calls
import Interdomain.Proofs.History
import Interdomain.Proofs.Frame
import Interdomain.Proofs.Settlement
import Interdomain.Proofs.Turns
import Interdomain.Proofs.Fading
import Interdomain.Proofs.Ledger
import Interdomain.Proofs.Conservation
import Interdomain.Proofs.Peers
import Interdomain.Proofs.Claims
import Interdomain.Proofs.Vouching
import Interdomain.Proofs.Admission
import Interdomain.Proofs.Links
import Interdomain.Proofs.Handshake
import Interdomain.Proofs.Progress
import Interdomain.Proofs.Authorization
import Interdomain.Proofs.Exclusion
import Interdomain.Proofs.Sasl
import Interdomain.Proofs.Domains
import Interdomain.Proofs.Inquiries
import Interdomain.Proofs.Outstanding
import Interdomain.Proofs.Verdicts
import Interdomain.Proofs.Replies
import Interdomain.Proofs.Accounting
import Interdomain.Proofs.Waiting
import Interdomain.Proofs.Order
import Interdomain.Proofs.Belongings
import Interdomain.Proofs.Closing
import Interdomain.Proofs.Messages
import Interdomain.Proofs.Conversation
import Interdomain.Proofs.Network
import Interdomain.Proofs.Opening
import Interdomain.Proofs.Completion
import Interdomain.Proofs.Books
import Interdomain.Proofs.Bookkeeping
import Interdomain.Proofs.Routing
import Interdomain.Proofs.Guests
import Interdomain.Proofs.Announcements
import Interdomain.Proofs.Traffic
import Interdomain.Proofs.Independence
import Interdomain.Proofs.Greetings
import Interdomain.Proofs.Overtures
import Interdomain.Proofs.Loops
import Interdomain.Proofs.Encryption
import Interdomain.Proofs.Descent
import Interdomain.Proofs.Versions
import Interdomain.Proofs.Sweeps
import Interdomain.Proofs.Repeats
import Interdomain.Proofs.Courses
import Interdomain.Proofs.Addresses
import Interdomain.Proofs.Requests
import Interdomain.Proofs.Enumeration
import Interdomain.Proofs.Snapshots
import Interdomain.Proofs.Offers
import Interdomain.Proofs.Stability
import Interdomain.Proofs.Precedence
import Interdomain.Proofs.Keys
import Interdomain.Proofs.Candidates
import Interdomain.Proofs.Recollection
import Interdomain.Proofs.Migrations
import Interdomain.Proofs.Records
import Interdomain.Proofs.Readers
import Interdomain.Proofs.Markup
import Interdomain.Proofs.Alternation
