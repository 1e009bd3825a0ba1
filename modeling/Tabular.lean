import Tabular.Main
import Tabular.Proofs.Cell.Canonical
import Tabular.Proofs.Cell.Integers
import Tabular.Proofs.Database.Chains
import Tabular.Proofs.Database.Failures
import Tabular.Proofs.Database.Insertion
import Tabular.Proofs.Database.Integrity
import Tabular.Proofs.Database.Lookup
import Tabular.Proofs.Database.Ordering
import Tabular.Proofs.Database.Pages
import Tabular.Proofs.Database.Retry
import Tabular.Proofs.Database.Schema
import Tabular.Proofs.Database.Selection
import Tabular.Proofs.Engine.Restart
import Tabular.Proofs.Like
import Tabular.Proofs.Request.Columns
import Tabular.Proofs.Server.Replies
import Tabular.Proofs.Session.Agreement
import Tabular.Proofs.Session.Atomicity
import Tabular.Proofs.Session.Batches
import Tabular.Proofs.Session.Catalog
import Tabular.Proofs.Session.Coherence
import Tabular.Proofs.Session.Confined
import Tabular.Proofs.Session.Crossing
import Tabular.Proofs.Session.Dropped
import Tabular.Proofs.Session.Durability
import Tabular.Proofs.Session.Headers
import Tabular.Proofs.Session.Namespace
import Tabular.Proofs.Session.Reach
import Tabular.Proofs.Session.Refused
import Tabular.Proofs.Session.Saved
import Tabular.Proofs.Session.Swallowed
import Tabular.Proofs.Session.Trees
import Tabular.Proofs.Statement.Changes
import Tabular.Proofs.Statement.Forms
import Tabular.Proofs.Statement.Positions
import Tabular.Proofs.Statement.Search
import Tabular.Proofs.Text.Groups
