import Subscript.Code.Equality
import Subscript.Code.Reader
import Subscript.Logging
import Subscript.Lowering.Session
import Subscript.Text.Lines
import Subscript.Proofs.Meaning
import Subscript.Proofs.Assignment
import Subscript.Proofs.Rejection
import Subscript.Proofs.Enclosure
import Subscript.Proofs.Execution
import Subscript.Proofs.Sessions
import Subscript.Proofs.History
import Subscript.Proofs.Storage
import Subscript.Proofs.Documents
import Subscript.Proofs.Arguments.Spilling
import Subscript.Proofs.Arguments.Fitting
import Subscript.Proofs.Arguments.Collecting
import Subscript.Proofs.Conservation
import Subscript.Proofs.ScopedText
import Subscript.Proofs.TemporaryTypes
import Subscript.Proofs.Announcements
import Subscript.Proofs.Interning
import Subscript.Proofs.Setups
