import Realm.Lib.Loop
import Realm.Core.Ledger
import Realm.Core.State
import Realm.Core.Glyphs
import Realm.Bar.Fit
import Realm.Bar.Collapse
import Realm.Bar.Damage
import Realm.Lib.Rounding
import Realm.Core.Layout
import Realm.Core.LedgerInvariant
import Realm.Core.LedgerRuns
import Realm.Core.Projection
import Realm.Core.Shares
import Realm.Session.Contract
import Realm.River.Retention
import Realm.Runtime.Loop
import Realm.Session.Atomicity
import Realm.Session.Recovery
import Realm.Session.Reduction
import Realm.Session.Screen
import Realm.Session.Visible
import Realm.Session.Publication
import Realm.Runtime.Retention
import Realm.Runtime.Drain
import Realm.Runtime.Geometry
import Realm.Runtime.Turns
import Realm.Runtime.Identities
import Realm.Theme.History
import Realm.Theme.Acceptance
import Realm.Theme.Canonical
import Realm.Theme.Preimages
import Realm.Theme.Exec
import Realm.Worker.Progress
import Realm.Control.Subscriber
import Realm.Worker.Startup
import Realm.Worker.Mailbox
import Realm.Agent.Secrets
import Realm.Lib.Ranking
import Realm.Theme.Garbage
