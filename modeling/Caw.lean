import Caw.Lib.Machine
import Caw.Lib.Octets
import Caw.Lib.Except
import Caw.Lib.Checked
import Caw.Lib.Effect
import Caw.Lib.Text
import Caw.Lib.Utf8
import Caw.Lib.Walk
import Caw.Lib.Escape
import Caw.Lib.Fields
import Caw.Lib.Gather
import Caw.Lib.Base64
import Caw.Dot11.Suites
import Caw.Dot11.Text
import Caw.Dot11.Elements
import Caw.Dot11.Selectors
import Caw.Dot11.Reading
import Caw.Dot11.First
import Caw.Nl80211.Suites
import Caw.Nl80211.Event
import Caw.Nl80211.Bss
import Caw.Nl80211.Wiphy
import Caw.Netlink.Message
import Caw.Netlink.RoundTrip
import Caw.Netlink.Request
import Caw.Crypto.Primitives
import Caw.Crypto.Sae
import Caw.Crypto.SaePair
import Caw.Crypto.SaeRun
import Caw.Crypto.SaeErrors
import Caw.Crypto.SaeChecked
import Caw.Crypto.SaeTotal
import Caw.Eapol.Frame
import Caw.Eapol.FourWay
import Caw.Eapol.Checked
import Caw.Eapol.Authenticator
import Caw.Eapol.Replay
import Caw.Eapol.Reinstall
import Caw.Eapol.GroupRekey
import Caw.Eapol.GroupKeys
import Caw.Eapol.Failed
import Caw.Eapol.Resend
import Caw.Eapol.Honest
import Caw.Eapol.Frag
import Caw.Eapol.Dot1x
import Caw.Eapol.Mschapv2
import Caw.Eapol.Peap
import Caw.Eapol.Earned
import Caw.Eapol.Repeat
import Caw.Eapol.Reassembly
import Caw.Eapol.Restart
import Caw.Eapol.KeyData
import Caw.Eapol.Ttls
import Caw.Eapol.Pem
import Caw.Dhcp.Message
import Caw.Dhcp.Codec
import Caw.Dhcp.Client
import Caw.Dhcp.Lifetime
import Caw.Dhcp.Requests
import Caw.Dhcp.Noise
import Caw.Dhcp.Timing
import Caw.Dhcp.Tries
import Caw.Dhcp.RouterAdvert
import Caw.Ipc.Decoder
import Caw.Core.Policy
import Caw.Core.Rsn
import Caw.Core.Auth
import Caw.Core.Conn
import Caw.Core.Checked
import Caw.Core.Moves
import Caw.Core.Invariant
import Caw.Core.Target
import Caw.Core.Late
import Caw.Core.Joined
import Caw.Core.Floor
import Caw.Core.Address
import Caw.Core.Timers
import Caw.Core.Rekey
import Caw.Core.Renewal
import Caw.Core.Prompt
import Caw.Core.Selection
import Caw.Core.OpenJoin
import Caw.Core.Saved
import Caw.Core.Sessions
import Caw.Core.Keyring
import Caw.Core.Report
import Caw.Core.FileName
import Caw.Core.Profiles
import Caw.Core.Asked
import Caw.Core.Survey
import Caw.Core.Offered
import Caw.Core.Bound
import Caw.Core.Range
import Caw.Core.Total
import Caw.Core.Silent
import Caw.Core.Reread
import Caw.Core.Common
import Caw.Core.Backoff
import Caw.Core.KeyLength
import Caw.Core.Aim
import Caw.Daemon.Ports
import Caw.Daemon.Engine
import Caw.Daemon.Frame
import Caw.Daemon.Turns
import Caw.Daemon.Entry
import Caw.Daemon.Conduct
import Caw.Daemon.History
import Caw.Daemon.Lease
import Caw.Daemon.Tokens
import Caw.Daemon.Foreign
import Caw.Daemon.Watch
import Caw.Daemon.Abort
import Caw.Daemon.Routes
import Caw.Daemon.Outlive
import Caw.Daemon.Success
import Caw.Daemon.Pursuit
import Caw.Daemon.Reactor
import Caw.Daemon.Batch
import Caw.Daemon.Loop
import Caw.Daemon.Secrets
import Caw.Daemon.Requests
import Caw.Daemon.Responses
import Caw.Daemon.Settle
import Caw.Daemon.Ledger
import Caw.Daemon.Forgotten
