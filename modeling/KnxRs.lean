import KnxRs.TransportHistory
import KnxRs.SessionRefinement
import KnxRs.Octets
import KnxRs.CemiCodec
import KnxRs.InterfaceObjects
import KnxRs.TableObjects
import KnxRs.AppEncode
import KnxRs.GroupTables
import KnxRs.GroupObjects
import KnxRs.MemoryStore
import KnxRs.DeviceState
import KnxRs.Fallible
import KnxRs.TransportTraffic
import KnxRs.BauReplies
import KnxRs.BauSteps
import KnxRs.FrameLimits
import KnxRs.ForeignFrames
import KnxRs.DeliveryScope
import KnxRs.Regions
import KnxRs.StoreRuns
import KnxRs.StoreSteps
import KnxRs.Segments
import KnxRs.TableImages
import KnxRs.Persistence
import KnxRs.RestoredState
import KnxRs.ApduRoundTrip
import KnxRs.RuntimeTables
import KnxRs.CemiFields
import KnxRs.KnxIpCodec
import KnxRs.KnxIpNetwork
import KnxRs.ServerDescription
import KnxRs.BoundedChannel
import KnxRs.ServerEvents
import KnxRs.KeyedRows
import KnxRs.TunnelServer
import KnxRs.EventDelivery
import KnxRs.TunnelFrames
import KnxRs.TunnelSteps
import KnxRs.TunnelRoster
import KnxRs.TunnelOutbox
import KnxRs.TunnelService
import KnxRs.TunnelConnection
import KnxRs.ConnectionSteps
import KnxRs.DisconnectRequests
import KnxRs.ServerSends
import KnxRs.ConnectionFrames
import KnxRs.OutboxSteps
import KnxRs.TunnelLink
import KnxRs.LinkDelivery
import KnxRs.SendExchange
import KnxRs.SendSteps
import KnxRs.SendReception
import KnxRs.SendDelivery
import KnxRs.DptNumeric
import KnxRs.Codecs
import KnxRs.DptConvert
import KnxRs.DptRoundTrip
import KnxRs.DptTexts
import KnxRs.GroupFrames
import KnxRs.Dibs
import KnxRs.DibSequences
import KnxRs.Discovery
import KnxRs.TpUart
import KnxRs.TpReceiver
import KnxRs.TpStreams
import KnxRs.TpDelivery
import KnxRs.GroupPolls
import KnxRs.GroupWrites
import KnxRs.GroupReads
import KnxRs.Confirmations
import KnxRs.GroupValues
import KnxRs.PendingRequests
import KnxRs.Texts
import KnxRs.XmlDocuments
import KnxRs.XmlScan
import KnxRs.Renumber
import KnxRs.IdNumbering
import KnxRs.IdRenaming
import KnxRs.RenumberTwice
import KnxRs.XmlReader
import KnxRs.Sanity
import KnxRs.RenumberSound
import KnxRs.HashRegistry
import KnxRs.SortKeys
import KnxRs.HashEvents
import KnxRs.HashTrees
import KnxRs.HashInformation
import KnxRs.HashOrder
import KnxRs.RateLimiter
import KnxRs.LoadErrors
import KnxRs.RestoreFailures
import KnxRs.SearchParameters
import KnxRs.TpFrameFields
import KnxRs.ConnectRequests
import KnxRs.RequestNumbers
import KnxRs.AckWaits
import KnxRs.AuthoredLines
import KnxRs.Authoring
import KnxRs.AuthoredDocuments
import KnxRs.Patterns
import KnxRs.Signing
import KnxRs.SignedNames
import KnxRs.SignedHashes
import KnxRs.ValueChanges
import KnxRs.GroupServices
import KnxRs.MemoryServices
import KnxRs.PropertyElements
import KnxRs.ExtendedWrites
import KnxRs.ExtendedReads
import KnxRs.MasterReset
import KnxRs.Repetitions
import KnxRs.ReferenceParents
import KnxRs.RequestConfirmations
import KnxRs.TableEntries
import KnxRs.KnxF16
import KnxRs.TypedDpts
import KnxRs.TypedRoundTrip
import KnxRs.AuthoredIds
import KnxRs.NumericAttributes
import KnxRs.AuthoredHashes
import KnxRs.RewrittenTexts
import KnxRs.OctetScan
import KnxRs.CutNames
import KnxRs.SourceTrees
import KnxRs.Split
import KnxRs.SplitRanges
import KnxRs.SplitDocuments
import KnxRs.OuterNodes
import KnxRs.Translations
import KnxRs.SplitParts
import KnxRs.TranslationFiles
import KnxRs.TunnelAttempts
import KnxRs.SameEvents
import KnxRs.EventReader
import KnxRs.RewrittenIds
import KnxRs.HashedAgain
import KnxRs.AuthoredElements
import KnxRs.AuthoredIdentities
import KnxRs.AuthoredNames
import KnxRs.AuthoredNumbers
import KnxRs.AuthoredRenumbering
