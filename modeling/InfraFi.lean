import InfraFi.Base.CString
import InfraFi.Base.Memory
import InfraFi.Base.Interaction
import InfraFi.Base.Reassembly
import InfraFi.Protocol.Defs
import InfraFi.Protocol.Crc
import InfraFi.Protocol.WifiString
import InfraFi.Protocol.RoundTrip
import InfraFi.Protocol.Frames
import InfraFi.Protocol.Decoder
import InfraFi.Daemon.Decode
import InfraFi.Daemon.Delivery
import InfraFi.Flipper.Encode
import InfraFi.System.Sends
import InfraFi.Daemon.Calls
import InfraFi.Daemon.Network
import InfraFi.Daemon.Ack
import InfraFi.Daemon.Main
import InfraFi.Flipper.AckDecode
import InfraFi.System.Acks
import InfraFi.Daemon.Association
import InfraFi.Daemon.Looks
import InfraFi.Daemon.Rollback
import InfraFi.Base.Loop
import InfraFi.Flipper.Nfc
import InfraFi.Flipper.NfcAttributes
import InfraFi.Flipper.NfcRecords
import InfraFi.Flipper.NfcTag
import InfraFi.Base.Shell
import InfraFi.Daemon.Quoting
import InfraFi.Daemon.Injection
import InfraFi.System.Decoders
import InfraFi.Base.Lines
import InfraFi.Daemon.WpaConf
import InfraFi.Daemon.ReadBack
import InfraFi.Flipper.NfcFormat
import InfraFi.Flipper.NfcRead
import InfraFi.Flipper.NfcCreds
import InfraFi.Base.Slots
import InfraFi.Flipper.Storage
import InfraFi.Flipper.Saved
import InfraFi.System.Passes
import InfraFi.Base.Runs
import InfraFi.Flipper.App
import InfraFi.Flipper.Transmit
import InfraFi.Flipper.Scenes
import InfraFi.Flipper.Resources
import InfraFi.Flipper.Verdict
import InfraFi.Daemon.Footprint
import InfraFi.Daemon.Supplicant
import InfraFi.Daemon.AckTime
import InfraFi.System.Duplicates
import InfraFi.System.Crosstalk
import InfraFi.Flipper.Navigation
import InfraFi.Flipper.Security
import InfraFi.Flipper.Deletion
import InfraFi.Base.CyclicCode
import InfraFi.Protocol.CrcCode
import InfraFi.Protocol.Fields
import InfraFi.Daemon.ErrorDetection
import InfraFi.Daemon.ShellEscape
import InfraFi.Flipper.SavedNames
import InfraFi.Protocol.Crc32
import InfraFi.Daemon.Receivers
import InfraFi.Daemon.MainLoop
import InfraFi.System.Listening
import InfraFi.System.Channel
import InfraFi.System.Rounds
import InfraFi.System.Agreement
import InfraFi.Flipper.Settings
import InfraFi.Flipper.Shown
import InfraFi.Flipper.Card
import InfraFi.Flipper.Views
import InfraFi.System.Screen
import InfraFi.System.Managed
