import GoBuildCache.Basic
import GoBuildCache.Strings.Hex
import GoBuildCache.Strings.Decimal
import GoBuildCache.Strings.Utf8
import GoBuildCache.Strings.Scan
import GoBuildCache.Strings.Base64
import GoBuildCache.Json.Decode
import GoBuildCache.Json.Encode
import GoBuildCache.Os.Path
import GoBuildCache.Os.FileSystem
import GoBuildCache.LocalCache.Basic
import GoBuildCache.LocalCache.Sidecar
import GoBuildCache.Dedupe.MemLock
import GoBuildCache.Dedupe.GofslockGroup
import GoBuildCache.LocalCache.Write
import GoBuildCache.LocalCache.Consistency
import GoBuildCache.LocalCache.Concurrent
import GoBuildCache.S3.Bucket
import GoBuildCache.S3.Backend
import GoBuildCache.S3.Consistency
import GoBuildCache.S3.Invariant
import GoBuildCache.Disk.Backend
import GoBuildCache.Disk.Refinement
import GoBuildCache.Disk.Concurrent
import GoBuildCache.Protocol.Message
import GoBuildCache.Protocol.Retry
import GoBuildCache.Protocol.Request
import GoBuildCache.Json.Time
import GoBuildCache.Protocol.Response
import GoBuildCache.Broker.Run
import GoBuildCache.Broker.Flight
import GoBuildCache.Broker.History
import GoBuildCache.Broker.Linearize
import GoBuildCache.Broker.Provenance
import GoBuildCache.Broker.Share
import GoBuildCache.Broker.Return
import GoBuildCache.Broker.Output
import GoBuildCache.Broker.Progress
import GoBuildCache.Backends.Error
import GoBuildCache.Broker.AtMostOnce
