import Mathlib.Data.Nat.Basic

/-! The constants of config.h that the modelled code reads. -/

namespace RoomWatchdog.Config

def wifiConnectTimeoutMs : UInt32 := 20000
/-- Needed for TLS cert validation. -/
def ntpSyncTimeoutMs : UInt32 := 10000

def mdnsHostname : String := "watchdog"
def audioPort : UInt16 := 81

/-- Radar tuning; a gate is 75cm, and a higher value makes its gate less sensitive. -/
def radarMinGate : UInt8 := 1
def radarMaxGate : UInt8 := 8
def radarUnmannedSeconds : UInt16 := 5
def radarMotionSensitivity : Vector UInt8 14 :=
  #v[60, 50, 40, 35, 35, 35, 35, 35, 40, 40, 40, 40, 40, 40]
def radarStaticSensitivity : Vector UInt8 14 :=
  #v[40, 40, 40, 40, 40, 40, 40, 40, 45, 45, 45, 45, 45, 45]

def soundPpThreshold : Int := 1600
def soundNotifyCooldownMs : UInt32 := 15000
def soundSampleWindowMs : Nat := 50

def audioSampleRateHz : Nat := 48000
def audioStreamBufferSamples : Nat := 8192

/-- LD2412 OUT must hold a new state this long before a notification. -/
def presenceDebounceMs : UInt32 := 2000

/-- Movement updates: at least this far from the last reported position, at most once per
interval. -/
def distanceDeltaCm : UInt16 := 100
def distanceUpdateMinIntervalMs : UInt32 := 10000

/-- Live telemetry: on change, no faster than the first, and once per heartbeat anyway. -/
def wsMinPushIntervalMs : UInt32 := 50
def wsHeartbeatMs : UInt32 := 2000

/-- Longest client command accepted on the socket. -/
def wsCommandMax : Nat := 32

/-- Backoff after a failed push. -/
def gotifyRetryBackoffMs : UInt32 := 30000
def gotifyQueueDepth : Nat := 8
def gotifyMessageMax : Nat := 128
def gotifyMaxAttempts : UInt8 := 3

end RoomWatchdog.Config
