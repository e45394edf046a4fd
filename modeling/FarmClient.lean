import FarmClient.Main
import FarmClient.Page.Lifecycle
import FarmClient.Proofs.SessionBlocks
import FarmClient.Proofs.FlowControl
import FarmClient.Proofs.PageTurns
import FarmClient.Proofs.StaleMessages
import FarmClient.Proofs.PageVisits
import FarmClient.Proofs.ResyncGate
import FarmClient.Proofs.FieldCells
import FarmClient.Proofs.CropPointing
import FarmClient.Proofs.SendOrder
import FarmClient.Proofs.LastWrites
import FarmClient.Proofs.MessageTags
import FarmClient.Proofs.TextEffects
import FarmClient.Proofs.FloatingLabels
import FarmClient.Proofs.SendFates
import FarmClient.Proofs.SessionGate
import FarmClient.Proofs.HostDisplay
import FarmClient.Proofs.DecodingPaths
import FarmClient.Proofs.WireRoundTrip
import FarmClient.Proofs.TolerantReading
import FarmClient.Proofs.FrameContents
import FarmClient.Proofs.TerminalRuns
import FarmClient.Proofs.DrawingApart
import FarmClient.Proofs.QuadHull
import FarmClient.Proofs.Hovering
import FarmClient.Proofs.LateReplies
import FarmClient.Proofs.MessageKinds
import FarmClient.Proofs.ProperQuads
import FarmClient.Proofs.FittedPlots
import FarmClient.Proofs.ArgumentGroups
import FarmClient.Proofs.Reconnecting
import FarmClient.Proofs.ChannelState
import FarmClient.Proofs.ServerAddresses
