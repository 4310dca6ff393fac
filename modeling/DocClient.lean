import DocClient.Main
import DocClient.Proofs.Envelope.FreeForm
import DocClient.Proofs.Feed.Backoff
import DocClient.Proofs.Feed.Cancellation
import DocClient.Proofs.Feed.Handling
import DocClient.Proofs.Feed.StartPositions
import DocClient.Proofs.Feed.Waiting
import DocClient.Proofs.Http.Options
import DocClient.Proofs.Http.Segments
import DocClient.Proofs.Routing.Naming
import DocClient.Proofs.Routing.Race
import DocClient.Proofs.Session.Independence
import DocClient.Proofs.Store.Accounting
import DocClient.Proofs.Store.Addressing
import DocClient.Proofs.Store.BatchRequests
import DocClient.Proofs.Store.Chain
import DocClient.Proofs.Store.Checks
import DocClient.Proofs.Store.DesignDocuments
import DocClient.Proofs.Store.Identity
import DocClient.Proofs.Store.LostUpdate
import DocClient.Proofs.Store.Places
import DocClient.Proofs.Store.ReadPaths
import DocClient.Proofs.Store.Statuses
import DocClient.Proofs.Store.ViewRequests
import DocClient.Proofs.Store.ViewRows
import DocClient.Proofs.Store.Writing
import DocClient.Proofs.Tail
import DocClient.Routing.Concurrent
import DocClient.Session
