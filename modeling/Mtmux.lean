import Mtmux.Broker.OneGuess
import Mtmux.Broker.GoneMailbox
import Mtmux.Broker.BurnedCode
import Mtmux.Broker.Successor
import Mtmux.Broker.DeadStream
import Mtmux.Broker.Settlement
import Mtmux.Broker.OwnRequest
import Mtmux.Agent.Revocation
import Mtmux.Browser.OneMachineKey
import Mtmux.Crypto.CodeGeneration
import Mtmux.Crypto.Words
import Mtmux.Cli.ExchangeInert
import Mtmux.Browser.PeerCount
import Mtmux.Pairing.KeyAgreement
import Mtmux.Relay.SharedSessions
import Mtmux.Cli.GateConsent
import Mtmux.Relay.TokenRevocation
import Mtmux.Cli.ApprovalRelease
import Mtmux.Cli.ArmingBudget
import Mtmux.Cli.DeviceRemoval
import Mtmux.Cli.PeerClock
import Mtmux.Browser.DeviceLock
import Mtmux.Browser.PinAttempts
import Mtmux.Browser.ReplayedWrite
import Mtmux.Browser.ClientRuns
import Mtmux.Tunnel.NothingLost
import Mtmux.Browser.RecordsStay
import Mtmux.Billing.WebhookRuns
import Mtmux.Billing.LateEvents
import Mtmux.Accounts.RegistryKept
import Mtmux.Browser.CandidateRace
import Mtmux.Relay.HttpGrants
import Mtmux.Relay.ExpiredShares
import Mtmux.Relay.Leftovers
import Mtmux.Cli.PanelAnswers
import Mtmux.Cli.HarmlessText
import Mtmux.Agent.OneSocket
import Mtmux.Crypto.SealedChannel
import Mtmux.Broker.SlotIndex
import Mtmux.Broker.TunnelRuns
import Mtmux.Broker.RefusedAttach
import Mtmux.Relay.NarrowerGrant
import Mtmux.Relay.TokenWindow
import Mtmux.Relay.OfferBudget
import Mtmux.Agent.KeyTrial
import Mtmux.Relay.UploadRuns
import Mtmux.Relay.ThrottleRuns
import Mtmux.Relay.ConnectionCount
import Mtmux.Relay.AttachEvents
import Mtmux.Relay.RecorderRuns
import Mtmux.Relay.RecordingSweep
import Mtmux.Cast.Timeline
import Mtmux.Cli.Keys
import Mtmux.Relay.FileRange
import Mtmux.Relay.SessionRegistration
import Mtmux.Relay.PolledSessions
import Mtmux.Cli.PanelRows
import Mtmux.Browser.DragLines
import Mtmux.Browser.GestureRuns
