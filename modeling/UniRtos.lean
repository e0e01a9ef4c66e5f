import UniRtos.Lib.CallLog
import UniRtos.Fota.FtpFota
import UniRtos.Fota.HttpFotaArming
import UniRtos.Fota.HttpFotaResume
import UniRtos.Fota.HttpFotaWrites
import UniRtos.Smtp.SmtpUploadDescriptor
import UniRtos.Socket.TcpServerCount
import UniRtos.Socket.TcpServerStale
import UniRtos.Socket.TcpServerEcho
import UniRtos.Lib.BlockQueue
import UniRtos.Socket.NoblockClientCore
import UniRtos.Socket.NoblockClientLife
import UniRtos.Socket.NoblockClientPressure
import UniRtos.WebSocket.WebDemoLife
import UniRtos.WebSocket.WebDemoUpload
import UniRtos.Mqtt.MqttDemoBlocks
import UniRtos.Mqtt.Mqtt5DemoTopic
import UniRtos.Mqtt.Mqtt5DemoCache
import UniRtos.Ftp.FtpGetCommands
import UniRtos.Ftp.FtpGetReply
import UniRtos.Ftp.FtpPutWhole
import UniRtos.Ftp.FtpGetPlaces
import UniRtos.Ftp.FtpGetSession
import UniRtos.Http.HttpGetSave
import UniRtos.Cellular.CellularDemoBudget
import UniRtos.Sms.SmsDemoPdu
import UniRtos.Sms.SmsDemoSims
import UniRtos.Sms.SmsDemoBlocks
import UniRtos.Sync.ProducerConsumer
import UniRtos.Sync.ConnectionPool
import UniRtos.Sync.Dispatching
import UniRtos.Nic.UsbnetDemo
import UniRtos.Sim.SimDual
import UniRtos.Fota.FtpFotaAccount
import UniRtos.Socket.TcpServerWindow
import UniRtos.Socket.NoblockClientKicks
import UniRtos.Socket.NoblockClientFlags
import UniRtos.Http.HttpReadWhole
import UniRtos.Ftp.FtpGetListing
import UniRtos.Ftp.FtpGetSlash
import UniRtos.Ftp.FtpFds
import UniRtos.Sms.SmsDemoList
import UniRtos.Nic.CellularDatacall
import UniRtos.Audio.AudioFile
import UniRtos.WebSocket.WebDemoSegments
import UniRtos.Http.HttpPostForm
import UniRtos.Can.CanDemo
import UniRtos.WebSocket.WebDemoReturns
import UniRtos.Sync.MutexDemo
import UniRtos.Sync.SemaphoreDemo
import UniRtos.Sync.EventDemo
import UniRtos.Sync.MessqueDemo
import UniRtos.Sync.DbTask
import UniRtos.Can.CanDemoReceive
import UniRtos.Can.CanDemoSend
import UniRtos.Sim.QvsimDemo
import UniRtos.Mqtt.MqttDemoSession
import UniRtos.Socket.TcpBlockClient
import UniRtos.Crypto.EcdhDemo
import UniRtos.Crypto.RsaDemo
