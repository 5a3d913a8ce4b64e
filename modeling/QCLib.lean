import QCLib.Foundations.StepRun
import QCLib.Foundations.Interest
import QCLib.Aoi.TowerAoi
import QCLib.Aoi.Window
import QCLib.Aoi.Difference
import QCLib.Aoi.Storage
import QCLib.Aoi.Board
import QCLib.Aoi.Operations
import QCLib.Aoi.Construction
import QCLib.Aoi.Numbering
import QCLib.Aoi.ViewArea
import QCLib.Aoi.Registration
import QCLib.Aoi.Replay
import QCLib.Logic.DataCache
import QCLib.Logic.LoginModule
import QCLib.Logic.Views
import QCLib.Logic.Placement
import QCLib.Logic.ViewSafety
import QCLib.Logic.ViewExactness
import QCLib.Logic.MoveBounds
import QCLib.Logic.RecordText
import QCLib.Logic.PlayerIndexes
import QCLib.Foundations.Bytes
import QCLib.Foundations.Framing
import QCLib.Net.Packet
import QCLib.Net.Receive
import QCLib.Foundations.Indexes
import QCLib.Net.Sessions
import QCLib.Net.Envelope
import QCLib.Gate.GateManager
import QCLib.Logic.EnteredRole
import QCLib.Common.LoopArray
import QCLib.Logic.LogicThread
import QCLib.Store.RedisClient
import QCLib.Logic.ObjectIds
import QCLib.Net.ListenThread
import QCLib.Gate.ServerThread
import QCLib.Gate.ClientThread
import QCLib.Gate.Attribution
import QCLib.Gate.StaleLogout
import QCLib.Logic.Pictures
import QCLib.Aoi.Reentry
import QCLib.Log.FileWriter
import QCLib.Http.HttpRequest
import QCLib.Http.HttpServer
import QCLib.Http.Malformed
import QCLib.Http.Segmentation
import QCLib.Net.BufferBounds
import QCLib.Logic.ChatModule
import QCLib.Foundations.CStrings
import QCLib.Foundations.SqlText
import QCLib.Foundations.SqlTable
import QCLib.Gateway.TableObjectMap
import QCLib.Store.NoSqlStore
import QCLib.Gateway.DBGateway
import QCLib.Gateway.StatementText
import QCLib.Gateway.Loading
import QCLib.Logic.PreLogin
import QCLib.Gateway.RoleIndex
import QCLib.Gateway.BindItems
import QCLib.Net.NewEnvelope
import QCLib.Logic.RoleList
import QCLib.Log.Logger
import QCLib.Gateway.KeyTurns
import QCLib.Gateway.RecordKeys
import QCLib.Gateway.StatementReading
import QCLib.Gateway.StoredRecords
import QCLib.Gateway.Saving
import QCLib.Gateway.RoundTrip
import QCLib.Net.MuduoBuffer
import QCLib.Net.MuduoConnection
import QCLib.Net.MuduoFraming
import QCLib.Net.MuduoLifecycle
import QCLib.Net.MuduoTransport
import QCLib.Gate.Login
import QCLib.Common.BlockQueue
import QCLib.Common.Md5
import QCLib.Foundations.Incremental
import QCLib.Logic.LogicWakeup
import QCLib.Logic.Persistence
import QCLib.Store.RedisReader
