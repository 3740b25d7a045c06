import RoomWatchdog.Ld2412.Decoding
import RoomWatchdog.Ld2412.Soundness
import RoomWatchdog.Ld2412.Recovery
import RoomWatchdog.Ld2412.Truncation
import RoomWatchdog.Ld2412.Commands
import RoomWatchdog.Ld2412.Checked
import RoomWatchdog.Detectors.Baseline
import RoomWatchdog.Notifications.Debounce
import RoomWatchdog.Notifications.EventTrace
import RoomWatchdog.CalibrationButton
import RoomWatchdog.Elapsed
import RoomWatchdog.Mic.Window
import RoomWatchdog.Mic.LastWindow
import RoomWatchdog.Mic.PcmStream
import RoomWatchdog.Mic.ReadLoop
import RoomWatchdog.Mic.Chunking
import RoomWatchdog.Audio.Bias
import RoomWatchdog.Audio.Range
import RoomWatchdog.Audio.StreamSlot
import RoomWatchdog.Audio.SocketWrites
import RoomWatchdog.Notify.DropOldest
import RoomWatchdog.Net.Conservation
import RoomWatchdog.Net.Pacing
import RoomWatchdog.Net.LostCount
import RoomWatchdog.Auth.Servers
import RoomWatchdog.JsonEscape
import RoomWatchdog.Telemetry.Fingerprint
import RoomWatchdog.Telemetry.Payload
import RoomWatchdog.Telemetry.Snapshot
import RoomWatchdog.Ws.Socket
import RoomWatchdog.Ws.DeliveryLaw
import RoomWatchdog.Ws.Command
import RoomWatchdog.Net.Signal
import RoomWatchdog.Net.Settling
import RoomWatchdog.Audio.PcmSignal
import RoomWatchdog.Audio.Recording
import RoomWatchdog.Radar.Published
import RoomWatchdog.Radar.Calibration
import RoomWatchdog.Telemetry.Documents
import RoomWatchdog.Api.Access
import RoomWatchdog.Net.Alerts
import RoomWatchdog.Telemetry.Readings
import RoomWatchdog.Net.Causes
import RoomWatchdog.Startup.Order
import RoomWatchdog.Startup.Waits
