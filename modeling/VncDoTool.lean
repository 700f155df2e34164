import VncDoTool.Lib.ByteString
import VncDoTool.Lib.Coroutine
import VncDoTool.Lib.Contract
import VncDoTool.Lib.Effect
import VncDoTool.Const
import VncDoTool.PyText
import VncDoTool.Capture.Scrubber
import VncDoTool.Capture.Segmentation
import VncDoTool.Capture.Session
import VncDoTool.Capture.Stripping
import VncDoTool.Capture.Secrecy
import VncDoTool.Capture.Waiting
import VncDoTool.PixelFormat
import VncDoTool.Client.Encoders
import VncDoTool.Proxy.Server
import VncDoTool.Proxy.Handshake
import VncDoTool.Capture.Modes
import VncDoTool.Proxy.Messages
import VncDoTool.Proxy.Segmentation
import VncDoTool.Proxy.Promptness
import VncDoTool.Client.State
import VncDoTool.Client.VeNCrypt
import VncDoTool.Client.Security
import VncDoTool.Client.Messages
import VncDoTool.Client.Dispatch
import VncDoTool.Client.Run
import VncDoTool.Client.Negotiation
import VncDoTool.Client.Steps
import VncDoTool.Client.Effects
import VncDoTool.Client.Connected
import VncDoTool.Client.Abort
import VncDoTool.Client.Gate
import VncDoTool.Client.Authentication
import VncDoTool.Client.Lengths
import VncDoTool.Client.Startup
import VncDoTool.Client.Diagnosis
import VncDoTool.Client.Termination
import VncDoTool.Client.Tunnel
import VncDoTool.Client.Reading
import VncDoTool.PixelLayout
import VncDoTool.Decoders.Buffer
import VncDoTool.Decoders.Base
import VncDoTool.Decoders.Simple
import VncDoTool.Decoders.Hextile
import VncDoTool.Decoders.ZRLE
import VncDoTool.Decoders.Tight
import VncDoTool.Decoders.Table
import VncDoTool.Client.Segmentation
import VncDoTool.Decoders.Bodies
import VncDoTool.Client.Framing
import VncDoTool.Client.ServerStream
import VncDoTool.Lib.Dialogue
import VncDoTool.Client.Joining
import VncDoTool.Lib.Fallible
import VncDoTool.PixelValues
import VncDoTool.DoTool.Canvas
import VncDoTool.DoTool.Client
import VncDoTool.DoTool.Silence
import VncDoTool.DoTool.Resolution
import VncDoTool.Lib.ShellWords
import VncDoTool.Keys
import VncDoTool.Script.Numbers
import VncDoTool.Script.Commands
import VncDoTool.DoTool.Input
import VncDoTool.DoTool.Pointing
import VncDoTool.DoTool.Dragging
import VncDoTool.Proxy.Recorder
import VncDoTool.Script.Session
import VncDoTool.Script.Pointer
import VncDoTool.Script.Keys
import VncDoTool.Lib.Machine
import VncDoTool.Proxy.Sessions
import VncDoTool.Proxy.Isolation
import VncDoTool.Proxy.Observer
import VncDoTool.Proxy.Tracking
import VncDoTool.Proxy.Admission
import VncDoTool.Lib.Raster
import VncDoTool.Decoders.Picture
import VncDoTool.Lib.Feeding
import VncDoTool.Decoders.Feeding
import VncDoTool.Decoders.HextilePainting
import VncDoTool.Decoders.Stored
import VncDoTool.Decoders.TightImages
import VncDoTool.Decoders.CompressedPixels
import VncDoTool.Decoders.RREPainting
import VncDoTool.Decoders.TightColours
import VncDoTool.Decoders.TightStreams
import VncDoTool.Decoders.Outcomes
import VncDoTool.DoTool.Painting
import VncDoTool.DoTool.Refreshes
import VncDoTool.DoTool.Copies
import VncDoTool.DoTool.Coverage
import VncDoTool.DoTool.StableWatch
import VncDoTool.Replay.Messages
import VncDoTool.Replay.Protocol
import VncDoTool.Replay.Pacing
import VncDoTool.Replay.Serving
import VncDoTool.Replay.Playback
import VncDoTool.WebSocket
import VncDoTool.ImageMatch
import VncDoTool.Api.Proxy
import VncDoTool.Api.Answers
import VncDoTool.Api.Ordering
import VncDoTool.Api.Disconnect
import VncDoTool.Decoders.CheckedZRLE
import VncDoTool.Decoders.ZRLEBounds
import VncDoTool.Decoders.ZRLEForms
import VncDoTool.Decoders.ZRLEImages
import VncDoTool.Decoders.Failures
import VncDoTool.Client.Returning
