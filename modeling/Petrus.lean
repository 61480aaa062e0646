import Petrus.Impetus.HistoryStore.Acknowledgement
import Petrus.Engine.Properties.Outbox
import Petrus.Impetus.Properties.Colors
import Petrus.Testing.Dst.Properties.Runner
import Petrus.Motus.Transport.Refusals
import Petrus.Impetus.Properties.Fairness
import Petrus.Motus.Worker
import Petrus.Agenticus.Effect.AtMostOnce
import Petrus.Motus.Dispatch.Progress
import Petrus.Impetus.Properties.Permanence
import Petrus.Impetus.Properties.Maturation
import Petrus.Impetus.Properties.Firing
import Petrus.Agenticus.Attachment.Settlement
import Petrus.Processes.Protocol
import Petrus.Motus.Archive.RoundTrip
import Petrus.Simulation.Bounds
