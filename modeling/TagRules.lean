import TagRules.Condition.Write
import TagRules.Journal
import TagRules.Session
import TagRules.Proofs.Assignment.Links
import TagRules.Proofs.Assignment.Reconcile
import TagRules.Proofs.Service.Calls
import TagRules.Proofs.Service.Convergence
import TagRules.Proofs.Condition.Grammar
import TagRules.Proofs.Condition.RoundTrip
import TagRules.Proofs.Assignment.ByTag
import TagRules.Proofs.Service.Agreement
import TagRules.Proofs.Service.Failures
import TagRules.Proofs.Json.Outside
import TagRules.Proofs.Json.Reading
import TagRules.Proofs.Condition.Boundary
import TagRules.Proofs.Condition.Evaluation
import TagRules.Proofs.Condition.Duality
import TagRules.Proofs.Condition.Regrouping
import TagRules.Proofs.Condition.MissingData
import TagRules.Proofs.Condition.OnViews
import TagRules.Proofs.Condition.Ordering
import TagRules.Proofs.Condition.NumericText
import TagRules.Proofs.Condition.TruthValues
import TagRules.Proofs.Condition.Substring
import TagRules.Proofs.Condition.ShortCircuit
import TagRules.Proofs.Condition.RecognisedKeys
import TagRules.Proofs.Record.NormalForm
import TagRules.Proofs.Condition.FirstDefect
import TagRules.Proofs.Condition.Notes
import TagRules.Proofs.Service.Jobs
import TagRules.Proofs.Service.Updates
import TagRules.Proofs.Service.Recompute
import TagRules.Proofs.Service.BadClients
import TagRules.Proofs.Service.Writes
import TagRules.Proofs.Service.WritePaths
import TagRules.Proofs.Assignment.Counting
import TagRules.Proofs.Service.Accounting
import TagRules.Proofs.Assignment.Late
import TagRules.Proofs.Assignment.Diffs
import TagRules.Proofs.Concurrent.Locks
import TagRules.Proofs.Concurrent.Deadlock
import TagRules.Proofs.Concurrent.Cycles
import TagRules.Proofs.Concurrent.Serial
import TagRules.Proofs.Record.DotPaths
import TagRules.Proofs.Assignment.LatestConditions
import TagRules.Proofs.Service.Correlation
