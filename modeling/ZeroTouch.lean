import ZeroTouch.Bridge
import ZeroTouch.Daemon.Accounts
import ZeroTouch.Daemon.System
import ZeroTouch.Daemon.HotConfig
import ZeroTouch.Ds.Replay
import ZeroTouch.Ds.SendEnvelope
import ZeroTouch.Gnmi.Grammar
import ZeroTouch.Gnmi.Secrecy
import ZeroTouch.Gnmi.Septets
import ZeroTouch.Modem.Channel
import ZeroTouch.Modem.Listing
import ZeroTouch.Modem.Prompt
import ZeroTouch.Modem.SendSms
import ZeroTouch.Modem.Storage
import ZeroTouch.Sim.Accounting
import ZeroTouch.Sim.Erase
import ZeroTouch.Sim.MemSink
import ZeroTouch.Sim.ReadBack
import ZeroTouch.Sim.Secrecy
import ZeroTouch.Sim.Selection
import ZeroTouch.Standalone.ActionSink
import ZeroTouch.Standalone.Format
import ZeroTouch.Standalone.Numbers
import ZeroTouch.Standalone.StatusSink
import ZeroTouch.Standalone.System
import ZeroTouch.Standalone.Users
import ZeroTouch.Tunnel.Announce
import ZeroTouch.Tunnel.Ending
import ZeroTouch.Tunnel.Fleet
import ZeroTouch.Tunnel.Silence
import ZeroTouch.Tunnel.Wire
