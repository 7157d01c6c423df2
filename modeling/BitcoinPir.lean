import BitcoinPir.Bucket.Completeness
import BitcoinPir.Onion.Coefficients
import BitcoinPir.Onion.Frames
import BitcoinPir.Onion.Delta
import BitcoinPir.Onion.Confusion
import BitcoinPir.Onion.Completeness
import BitcoinPir.Channel.Binding
import BitcoinPir.Trust.Statements
import BitcoinPir.Onion.Client
import BitcoinPir.Core.Fingerprints
import BitcoinPir.Core.PbcLoops
import BitcoinPir.Tables.Lookup
import BitcoinPir.Sync.Planner
import BitcoinPir.Sync.Utxos
import BitcoinPir.Sync.Members
import BitcoinPir.Credit.Correlation
import BitcoinPir.Credit.Reads
import BitcoinPir.Credit.Accounting
import BitcoinPir.Harmony.SingleUse
import BitcoinPir.Harmony.HintCache
import BitcoinPir.Scan.Retrieval
import BitcoinPir.Scan.Lanes
import BitcoinPir.Wire.Classify
import BitcoinPir.Directory.StoreStartup
import BitcoinPir.Directory.Relays
import BitcoinPir.Sync.Rounds
import BitcoinPir.Oram.FailClosed
