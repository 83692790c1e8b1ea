import DabStar.AccessUnits
import DabStar.BitExtractors
import DabStar.Carousel
import DabStar.CrcAgreement
import DabStar.DlCache
import DabStar.EpgMotHandler
import DabStar.EpgTermination
import DabStar.EpgTexts
import DabStar.EpgTimePoints
import DabStar.EtiLayout
import DabStar.FicDecoder
import DabStar.FigRoundTrip
import DabStar.FirecodeCorrection
import DabStar.FreshStart
import DabStar.IpDataHandler
import DabStar.LoadingState
import DabStar.LocationCodes
import DabStar.MotCache
import DabStar.MotParameters
import DabStar.Mp2Framing
import DabStar.PacketGroups
import DabStar.PacketServices
import DabStar.PacketWalk
import DabStar.PadBounds
import DabStar.PadLoss
import DabStar.PadShort
import DabStar.RateAdaption
import DabStar.RingThreads
import DabStar.RsShortened
import DabStar.RtlTcpClient
import DabStar.ServiceList
import DabStar.SpyServerClient
import DabStar.SpyServerMessages
import DabStar.SpyServerTcpClient
import DabStar.TdcDataHandler
import DabStar.TiiCodes
import DabStar.Transmission
import DabStar.ViterbiOptimal
import DabStar.XmlFileReader
import DabStar.XmlFileWriter
import DabStar.XmlSamples
