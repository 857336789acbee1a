import Aetheris.EcsBevy.AntiReplay
import Aetheris.EcsBevy.Authority
import Aetheris.EcsBevy.Capacity
import Aetheris.Server.Agents
import Aetheris.Server.Auth.Attempts
import Aetheris.Server.Auth.ConnectTokens
import Aetheris.Server.Auth.Login
import Aetheris.Server.Auth.Revocation
import Aetheris.Server.Noninterference
import Aetheris.Server.Outbound
import Aetheris.Lib.Directory
import Aetheris.Lib.History
import Aetheris.EcsBevy.Changes
import Aetheris.EcsBevy.Clearing
import Aetheris.EcsBevy.Deltas
import Aetheris.Server.Deltas
import Aetheris.Server.Departures
import Aetheris.Server.Acks
import Aetheris.Server.Replica
import Aetheris.Server.MultiTransport
import Aetheris.Transport.WebTransport
import Aetheris.Transport.Renet
import Aetheris.Server.Disconnects
import Aetheris.EcsBevy.Ownership
import Aetheris.Server.Ownership
import Aetheris.EcsBevy.Checked
import Aetheris.Server.Overflow
import Aetheris.EcsBevy.Announcements
import Aetheris.EcsBevy.Collection
import Aetheris.EcsBevy.Ledger
import Aetheris.EcsBevy.ExactlyOnce
import Aetheris.EcsBevy.Payload
import Aetheris.Lib.Totals
import Aetheris.EcsBevy.Roles
import Aetheris.EcsBevy.PayloadFlow
import Aetheris.EcsBevy.Conservation
import Aetheris.Server.Auth.IdleWindow
import Aetheris.Server.Auth.Verifier
import Aetheris.Server.Routing
import Aetheris.Server.Auth.Privilege
import Aetheris.Server.Vetting
import Aetheris.Server.Auth.IdleDrop
import Aetheris.Lib.Script
import Aetheris.Server.Matchmaking
import Aetheris.Server.Matchmaking.Cancellation
import Aetheris.Server.Matchmaking.Queues
import Aetheris.Server.Matchmaking.Slots
import Aetheris.EcsBevy.WorkspaceIndex
import Aetheris.Server.Matchmaking.Selection
import Aetheris.Server.Auth.Expiry
import Aetheris.Lib.Chunks
import Aetheris.Server.Fragments
import Aetheris.EcsBevy.Damage
import Aetheris.EcsBevy.Accounting
import Aetheris.EcsBevy.Scene
import Aetheris.EcsBevy.StateHash
import Aetheris.EcsBevy.Respawn
import Aetheris.EcsBevy.Delays
import Aetheris.EcsBevy.Toggles
import Aetheris.Lib.Limiter
import Aetheris.Lib.Window
import Aetheris.Server.Auth.RateWindows
import Aetheris.Server.Telemetry
