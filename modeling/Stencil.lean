import Stencil.Bank.Commands
import Stencil.Document.ConfigFile
import Stencil.Document.Library
import Stencil.Session
import Stencil.Template.Commands
import Stencil.Proofs.Reconcile.SecondPass
import Stencil.Proofs.Reconcile.Untouched
import Stencil.Proofs.Placeholder.Scan
import Stencil.Proofs.Placeholder.Tokens
import Stencil.Proofs.Placeholder.Grammar
import Stencil.Proofs.Linkage
import Stencil.Proofs.Linkage.GroupValues
import Stencil.Proofs.Filling.Pruning
import Stencil.Proofs.History.Bursts
import Stencil.Proofs.Session.Commands
import Stencil.Proofs.Session.Retrace
import Stencil.Proofs.Session.GroupCommands
import Stencil.Proofs.Session.Groups
import Stencil.Proofs.Session.Lane
import Stencil.Proofs.Bank.Renaming
import Stencil.Proofs.Bank.Contents
import Stencil.Proofs.Bank.Reference
import Stencil.Proofs.Placeholder.Encoding
import Stencil.Proofs.Reconcile.ImportedTokens
import Stencil.Proofs.Reconcile.BankUnion
import Stencil.Proofs.Library.Commands
import Stencil.Proofs.Session.Ids
import Stencil.Proofs.Library.Options
import Stencil.Proofs.Document.Lenient
import Stencil.Proofs.Document.RoundTrip
import Stencil.Proofs.Placeholder.Cursor
import Stencil.Proofs.Placeholder.Regrouping
import Stencil.Proofs.Linkage.Propagation
import Stencil.Proofs.Placeholder.Segments
import Stencil.Proofs.Placeholder.Substitution
import Stencil.Proofs.Session.Content
import Stencil.Proofs.Session.Display
import Stencil.Proofs.Text.Boundary
