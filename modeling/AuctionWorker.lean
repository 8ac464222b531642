import AuctionWorker.Selection
import AuctionWorker.Loops
import AuctionWorker.Grouping
import AuctionWorker.Text
import AuctionWorker.Utf8
import AuctionWorker.Utf8Search
import AuctionWorker.Model
import AuctionWorker.Schema
import AuctionWorker.Documented
import AuctionWorker.Queries
import AuctionWorker.Targeting
import AuctionWorker.CppAuction
import AuctionWorker.CppSelection
import AuctionWorker.CppTies
import AuctionWorker.CppTargeting
import AuctionWorker.Float64
import AuctionWorker.ShortestDecimal
import AuctionWorker.GoConnector
import AuctionWorker.GoFetchers
import AuctionWorker.GoAuction
import AuctionWorker.GoFaults
import AuctionWorker.GoSelection
import AuctionWorker.GoFailClosed
import AuctionWorker.PyAuction
import AuctionWorker.PyConnections
import AuctionWorker.PySelection
import AuctionWorker.PyZeroFeature
import AuctionWorker.PyMissingFeature
import AuctionWorker.SentinelScans
import AuctionWorker.DomainStage
import AuctionWorker.CategoryStage
import AuctionWorker.CategoryTypes
import AuctionWorker.Pruning
import AuctionWorker.BlockingMore
import AuctionWorker.CreateData
import AuctionWorker.Dataset
import AuctionWorker.DatasetAccepted
import AuctionWorker.Json
import AuctionWorker.RequestBody
import AuctionWorker.CppParser
import AuctionWorker.GoParser
import AuctionWorker.PyParser
import AuctionWorker.ParserAgreement
import AuctionWorker.ResponseSender
import AuctionWorker.NonStringEntries
import AuctionWorker.Encoding
import AuctionWorker.Machine
import AuctionWorker.FirstFault
import AuctionWorker.CppServer
import AuctionWorker.GoServer
import AuctionWorker.ScoreScript
import AuctionWorker.JsonReads
import AuctionWorker.ResponseBody
import AuctionWorker.RequestText
import AuctionWorker.Handlers
import AuctionWorker.CreateFiles
import AuctionWorker.LoadData
import AuctionWorker.PyFailStop
import AuctionWorker.ResultFile
import AuctionWorker.Evaluation
import AuctionWorker.GoPool
import AuctionWorker.ScoreRuns
import AuctionWorker.CppConnections
import AuctionWorker.GoEndpoint
import AuctionWorker.GoFetchCalls
import AuctionWorker.FetchCounts
