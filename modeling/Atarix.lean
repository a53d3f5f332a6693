import Atarix.Bib.BuildOrder
import Atarix.Bib.EmptyReferences
import Atarix.Bib.FailClosed
import Atarix.Bib.StageOrder
import Atarix.Capability.FirstMatch
import Atarix.Capability.Reach
import Atarix.Discovery.Compatibility
import Atarix.Movement.Descriptor
import Atarix.Ring.Access
import Atarix.Rtl.Alternation
import Atarix.Rtl.EliasFanoDecoder
import Atarix.Rtl.NorthbridgeBusShim
import Atarix.Rtl.ProbeSequence
import Atarix.Rtl.RandomTestbench
import Atarix.Rtl.ScalarProbeCore
import Atarix.Rtl.SystemWrapper
import Atarix.Sim.Carriage
import Atarix.Sim.Fabric
import Atarix.Sim.Stream
import Atarix.Sim.Unsealed
import Atarix.Tools.DiscoveryRoundTrip
import Atarix.Tools.DumpContents
import Atarix.Tools.Forgery
import Atarix.Tools.NonInterference
