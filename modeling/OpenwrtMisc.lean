import OpenwrtMisc.Lib.Machine
import OpenwrtMisc.Lib.BitMask
import OpenwrtMisc.Lib.Patch
import OpenwrtMisc.Kernel.EchoTable
import OpenwrtMisc.Kernel.Sort
import OpenwrtMisc.Mcp25xxfd.TxMachine
import OpenwrtMisc.Mcp25xxfd.TxInvariant
import OpenwrtMisc.Mcp25xxfd.StartXmit
import OpenwrtMisc.Mcp25xxfd.FrameCodec
import OpenwrtMisc.Mcp25xxfd.TxStatistics
import OpenwrtMisc.Mcp25xxfd.Status
import OpenwrtMisc.Mcp25xxfd.ErrorState
import OpenwrtMisc.Mcp25xxfd.ErrorFrames
import OpenwrtMisc.Mcp25xxfd.IntFlags
import OpenwrtMisc.Mcp25xxfd.ConShadow
import OpenwrtMisc.Mcp25xxfd.Gpio
import OpenwrtMisc.Mcp25xxfd.Echo
import OpenwrtMisc.Mcp25xxfd.Setup
import OpenwrtMisc.Mcp25xxfd.Interface
import OpenwrtMisc.Mcp25xxfd.Clock
import OpenwrtMisc.Mcp25xxfd.Object
import OpenwrtMisc.Mcp25xxfd.Delivery
import OpenwrtMisc.Mcp25xxfd.Registers
import OpenwrtMisc.Mcp25xxfd.Release
import OpenwrtMisc.Mcp25xxfd.RxRead
import OpenwrtMisc.Mcp25xxfd.TefRing
import OpenwrtMisc.Lib.Ledger
import OpenwrtMisc.Mcp25xxfd.RxFaults
import OpenwrtMisc.Mcp25xxfd.FaultMachine
import OpenwrtMisc.Mcp25xxfd.FaultyPass
import OpenwrtMisc.Mcp25xxfd.ClassicReceive
import OpenwrtMisc.Mcp2515Usb.Xmit
import OpenwrtMisc.Mcp2515Usb.Accounting
import OpenwrtMisc.Mcp2515Usb.Ownership
import OpenwrtMisc.Mcp2515Usb.Frames
import OpenwrtMisc.Mcp2515Usb.FrameCodec
import OpenwrtMisc.C2Tool.Target
import OpenwrtMisc.C2Tool.Flash
import OpenwrtMisc.C2Tool.Transfers
import OpenwrtMisc.C2Tool.Verify
import OpenwrtMisc.C2Tool.Dialogue
import OpenwrtMisc.C2Tool.Verified
import OpenwrtMisc.C2Tool.FlashCommand
import OpenwrtMisc.C2Tool.Addressing
import OpenwrtMisc.C2Tool.Setup
import OpenwrtMisc.Lib.Relational
import OpenwrtMisc.C2Tool.Bitbang
import OpenwrtMisc.C2Tool.Transport
import OpenwrtMisc.Lib.Checked
import OpenwrtMisc.Lib.CString
import OpenwrtMisc.Lib.Ber
import OpenwrtMisc.SnmpAgent.Codec
import OpenwrtMisc.SnmpAgent.Receive
import OpenwrtMisc.SnmpAgent.Layout
import OpenwrtMisc.SnmpAgent.Decode
import OpenwrtMisc.SnmpAgent.Parse
import OpenwrtMisc.SnmpAgent.ListLoop
import OpenwrtMisc.SnmpAgent.Transmit
import OpenwrtMisc.SnmpAgent.Agent
import OpenwrtMisc.SnmpAgent.Wire
import OpenwrtMisc.SnmpAgent.Encode
import OpenwrtMisc.SnmpAgent.Assemble
import OpenwrtMisc.SnmpAgent.Serve
import OpenwrtMisc.SnmpAgent.Reply
import OpenwrtMisc.SnmpAgent.Hostile
import OpenwrtMisc.SnmpAgent.ObjectId
import OpenwrtMisc.SnmpAgent.Identifiers
import OpenwrtMisc.SnmpAgent.Request
import OpenwrtMisc.SnmpAgent.Numbers
import OpenwrtMisc.SnmpAgent.Exchange
import OpenwrtMisc.SnmpAgent.RoundTrip
import OpenwrtMisc.Lib.Ring
import OpenwrtMisc.AthHsUart.TransmitRing
import OpenwrtMisc.Mcp2515Banged.Transmit
import OpenwrtMisc.Mcp2515Banged.Receive
import OpenwrtMisc.RenesasFlash.Progmem
import OpenwrtMisc.RenesasFlash.Area
import OpenwrtMisc.RenesasFlash.Program
import OpenwrtMisc.RenesasFlash.Blocks
import OpenwrtMisc.RenesasFlash.Image
import OpenwrtMisc.SunxiCan.ErrorInterrupt
import OpenwrtMisc.Lib.Search
import OpenwrtMisc.Lib.CanId
import OpenwrtMisc.AthHsUart.BaudRate
import OpenwrtMisc.Mcp2515Banged.FrameCodec
import OpenwrtMisc.SunxiCan.Frames
import OpenwrtMisc.SunxiCan.ReceiveLoop
import OpenwrtMisc.SunxiCan.ModeSelect
import OpenwrtMisc.SunxiCan.OpenClose
import OpenwrtMisc.Lib.Rounding
import OpenwrtMisc.SmlServer.Receiver
import OpenwrtMisc.SnmpAgent.Fields
import OpenwrtMisc.SnmpAgent.RequestId
import OpenwrtMisc.SnmpAgent.VarbindHistory
import OpenwrtMisc.Lib.BerForms
import OpenwrtMisc.SnmpAgent.Coding
import OpenwrtMisc.SnmpAgent.Agreement
import OpenwrtMisc.SnmpAgent.Weights
import OpenwrtMisc.SnmpAgent.FormFields
import OpenwrtMisc.SnmpAgent.CodedList
import OpenwrtMisc.SnmpAgent.LengthForms
import OpenwrtMisc.Lib.Numeral
import OpenwrtMisc.ShowGpio.ParseNumber
import OpenwrtMisc.ShowGpio.Strbuf
import OpenwrtMisc.Lib.HexText
import OpenwrtMisc.RenesasFlash.Srec
import OpenwrtMisc.C2PortGpio.Hex2image
import OpenwrtMisc.RenesasFlash.Command
import OpenwrtMisc.RenesasFlash.Response
import OpenwrtMisc.RenesasFlash.Request
import OpenwrtMisc.RenesasFlash.Retries
import OpenwrtMisc.Lib.Trace
import OpenwrtMisc.I2cRalink.Transfer
import OpenwrtMisc.I2cRalink.Messages
import OpenwrtMisc.Lib.Pieces
import OpenwrtMisc.MicroProxy.Forward
import OpenwrtMisc.Lib.Crc
import OpenwrtMisc.Libsml.Crc16
import OpenwrtMisc.Lib.Cursor
import OpenwrtMisc.Libsml.Buffer
import OpenwrtMisc.Lib.Page
import OpenwrtMisc.Lib.Nibbles
import OpenwrtMisc.Libsml.Length
import OpenwrtMisc.Libsml.Fields
import OpenwrtMisc.Libsml.Lists
import OpenwrtMisc.Libsml.Trees
import OpenwrtMisc.Libsml.Bodies
import OpenwrtMisc.Libsml.Messages
import OpenwrtMisc.Libsml.Codes
import OpenwrtMisc.Libsml.FieldCodes
import OpenwrtMisc.Libsml.ListCodes
import OpenwrtMisc.Libsml.BodyCodes
import OpenwrtMisc.Libsml.FileCodes
import OpenwrtMisc.Lib.Arrivals
import OpenwrtMisc.Lib.Pattern
import OpenwrtMisc.Libsml.Transmission
import OpenwrtMisc.SmlServer.Telegram
