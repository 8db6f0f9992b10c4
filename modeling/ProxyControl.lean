import ProxyControl.LoginLimiter
import ProxyControl.Administrators
import ProxyControl.MieruRecovery
import ProxyControl.Replays
import ProxyControl.Rotation
import ProxyControl.Ownership
import ProxyControl.FeedTags
import ProxyControl.SagaDirection
import ProxyControl.SagaCleanup
import ProxyControl.PolicySaves
import ProxyControl.Acceptance
import ProxyControl.Keyrings
import ProxyControl.Meters
import ProxyControl.AccessLog
import ProxyControl.AmneziaWGClosed
import ProxyControl.WireDigests
import ProxyControl.Networks
import ProxyControl.GeodataChecks
import ProxyControl.NaiveQuotas
import ProxyControl.TrustTunnelTraffic
import ProxyControl.Numbering
import ProxyControl.Unlinking
