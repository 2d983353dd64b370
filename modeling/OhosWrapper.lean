import OhosWrapper.Logging.Bounds
import OhosWrapper.Logging.Ostream
import OhosWrapper.Logging.Streams
import OhosWrapper.Commev.Parameters
import OhosWrapper.Usb.Subscription
import OhosWrapper.Usb.Destructors
import OhosWrapper.Usb.Grammar
import OhosWrapper.Usb.TreeGrammar
import OhosWrapper.Usb.RoundTrip
import OhosWrapper.Usb.Documents
import OhosWrapper.Usb.HostManager
import OhosWrapper.Usb.Registration
import OhosWrapper.Usb.DeviceId
import OhosWrapper.Usb.AltSettings
import OhosWrapper.Usb.Claim
import OhosWrapper.Usb.Transfers
import OhosWrapper.Usb.Sharing
import OhosWrapper.Usb.Exit
import OhosWrapper.Usb.RegisteredClaims
