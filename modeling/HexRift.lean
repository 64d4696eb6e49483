import HexRift.Verification.References
import HexRift.Verification.Listeners
import HexRift.Verification.Labels
import HexRift.Verification.Selectors
import HexRift.Library.Passes
import HexRift.Verification.Dispatch
import HexRift.Model.Picker
import HexRift.Verification.ClientKeys
import HexRift.Verification.Segments
import HexRift.Model.Edit
import HexRift.Verification.Frame
import HexRift.Verification.Tags
import HexRift.Verification.Entries
import HexRift.Verification.Exposure
import HexRift.Model.Portal
import HexRift.Verification.Strict
import HexRift.Library.Distinct
import HexRift.Verification.Soundness
import HexRift.Verification.LinkEnds
import HexRift.Model.Share
import HexRift.Verification.Sharing
import HexRift.Verification.Merging
import HexRift.Verification.WireguardConfigs
import HexRift.Verification.WarpSelector
import HexRift.Verification.Allocation
import HexRift.Verification.Members
import HexRift.Verification.Removal
import HexRift.Model.KeyGen
import HexRift.Verification.KeySharing
import HexRift.Verification.Seeds
import HexRift.Model.Serialize
import HexRift.Verification.ScalarArrays
import HexRift.Verification.Compaction
import HexRift.Verification.LineWidth
import HexRift.Model.Load
import HexRift.Model.Layout
import HexRift.Verification.Readers
import HexRift.Verification.Loaded
import HexRift.Verification.Contents
import HexRift.Verification.Layouts
import HexRift.Verification.Insertion
import HexRift.Verification.Adding
import HexRift.Verification.Rereading
import HexRift.Library.Slots
import HexRift.Verification.Texts
import HexRift.Verification.NaturalKeys
import HexRift.Library.Overlays
import HexRift.Verification.Resolution
import HexRift.Model.Url
import HexRift.Verification.HostPorts
import HexRift.Verification.Undoing
import HexRift.Library.Relays
import HexRift.Model.Haproxy
import HexRift.Verification.Policy
import HexRift.Verification.Tunnels
import HexRift.Verification.Edge
import HexRift.Library.Generations
import HexRift.Verification.KeyRuns
import HexRift.Library.Writes
import HexRift.Model.Build
import HexRift.Verification.Building
import HexRift.Verification.Fleet
import HexRift.Library.Codes
import HexRift.Model.Query
import HexRift.Verification.ReadingUrls
import HexRift.Verification.ExitPolicy
import HexRift.Verification.Journeys
import HexRift.Library.Origins
import HexRift.Verification.Deployments
import HexRift.Verification.Withdrawal
import HexRift.Verification.Continuity
