import Mathlib.Logic.Function.Basic
import NetISDN.Qt.QString

/-!
# Audio settings

`AudioSettings` (`audiosettings.cpp`): what a client transmits, and what it receives. Settings
whose receive format is `NoFormat` are the same both ways, which `AutoVector` sees to. The settings
of a client alone (password, ports, gain, GPIO) are left out.
-/

namespace NetISDN

namespace AudioSettings

/-- `AudioSettings::Format` (`audiosettings.h:32`). A number from a message is cast to it whatever
it is, so there is a format for each number without a name too. -/
inductive Format where
  | noFormat
  | layer3
  | vorbis
  | speex
  | unnamed (n : BitVec 32) (h : n ∉ [0#32, 3#32, 4#32, 5#32])
  deriving DecidableEq

/-- The number of a format. -/
def Format.number : Format → BitVec 32
  | .noFormat => 0
  | .layer3 => 3
  | .vorbis => 4
  | .speex => 5
  | .unnamed n _ => n

/-- `(AudioSettings::Format)n`. -/
def Format.cast (n : BitVec 32) : Format :=
  if h : n ∉ [0#32, 3#32, 4#32, 5#32] then .unnamed n h
  else if n = 0 then .noFormat
  else if n = 3 then .layer3
  else if n = 4 then .vorbis
  else .speex

@[simp] theorem Format.cast_number (f : Format) : Format.cast f.number = f := by
  cases f with
  | noFormat => rfl
  | layer3 => rfl
  | vorbis => rfl
  | speex => rfl
  | unnamed n h => exact dif_pos h

/-- `AudioSettings::Direction`. -/
inductive Direction where
  | transmit
  | receive
  deriving DecidableEq

end AudioSettings

open AudioSettings

/-- `AudioSettings`, with the values of `AudioSettings::clear`. -/
structure AudioSettings where
  set_format : Direction → Format := fun _ => .speex
  set_channels : Direction → BitVec 32 := fun _ => 0
  set_sample_rate : BitVec 32 := 0
  set_bit_rate : Direction → BitVec 32 := fun _ => 0
  set_enable_processor : Direction → Bool := fun _ => false
  set_stream_ratio : Direction → BitVec 32 := fun _ => 1
  set_username : QString := []

namespace AudioSettings

/-- `AutoVector` (`audiosettings.cpp:291`), with `trans` set, as it is unless a caller asks for the
raw settings. -/
def autoVector (s : AudioSettings) (dir : Direction) : Direction :=
  if s.set_format .receive = .noFormat then .transmit else dir

/-- `format` (`audiosettings.cpp:34`). -/
def format (s : AudioSettings) (dir : Direction) : Format := s.set_format (s.autoVector dir)

/-- `channels`. -/
def channels (s : AudioSettings) (dir : Direction) : BitVec 32 := s.set_channels (s.autoVector dir)

/-- `sampleRate`. -/
def sampleRate (s : AudioSettings) : BitVec 32 := s.set_sample_rate

/-- `bitRate`. -/
def bitRate (s : AudioSettings) (dir : Direction) : BitVec 32 := s.set_bit_rate (s.autoVector dir)

/-- `enableProcessor`. -/
def enableProcessor (s : AudioSettings) (dir : Direction) : Bool :=
  s.set_enable_processor (s.autoVector dir)

/-- `streamRatio`. -/
def streamRatio (s : AudioSettings) (dir : Direction) : BitVec 32 :=
  s.set_stream_ratio (s.autoVector dir)

/-- `setFormat` (`audiosettings.cpp:41`). -/
def setFormat (s : AudioSettings) (dir : Direction) (format : Format) : AudioSettings :=
  { s with set_format := Function.update s.set_format dir format }

/-- `setChannels`. -/
def setChannels (s : AudioSettings) (dir : Direction) (channels : BitVec 32) : AudioSettings :=
  { s with set_channels := Function.update s.set_channels dir channels }

/-- `setSampleRate`. -/
def setSampleRate (s : AudioSettings) (rate : BitVec 32) : AudioSettings :=
  { s with set_sample_rate := rate }

/-- `setBitRate`. -/
def setBitRate (s : AudioSettings) (dir : Direction) (rate : BitVec 32) : AudioSettings :=
  { s with set_bit_rate := Function.update s.set_bit_rate dir rate }

/-- `setEnableProcessor`. -/
def setEnableProcessor (s : AudioSettings) (dir : Direction) (state : Bool) : AudioSettings :=
  { s with set_enable_processor := Function.update s.set_enable_processor dir state }

/-- `setStreamRatio`. -/
def setStreamRatio (s : AudioSettings) (dir : Direction) (ratio : BitVec 32) : AudioSettings :=
  { s with set_stream_ratio := Function.update s.set_stream_ratio dir ratio }

/-- `setUsername`. -/
def setUsername (s : AudioSettings) (str : QString) : AudioSettings :=
  { s with set_username := str }

section
variable {s : AudioSettings}

/-- Settings that name a receive format are not the same both ways. -/
theorem autoVector_of_ne (h : s.set_format .receive ≠ .noFormat) (dir : Direction) :
    s.autoVector dir = dir := if_neg h

/-- No format is asked for where one is set for transmission. -/
theorem format_ne_noFormat (h : s.set_format .transmit ≠ .noFormat) (dir : Direction) :
    s.format dir ≠ .noFormat := by
  unfold format autoVector
  split
  · exact h
  · next hreceive =>
      cases dir with
      | transmit => exact h
      | receive => exact hreceive

end

end AudioSettings

end NetISDN
