import Mathlib.Data.List.FinRange
import Mathlib.Data.List.Nodup
import NetISDN.Lib.AudioSettings
import NetISDN.Lib.Base64
import NetISDN.Lib.Profile
import NetISDN.Qt.QHostAddress

/-!
# The settings file of a client

`WriteConfig` writes the settings of a client and of its codec to an ini file, and `ReadConfig` sets
them from it (`netisdn.cpp`, on other systems than Windows). What is read of the file of a client is
said entry by entry (`stringValue_writeConfig`, and `readNumber_eq` for a number), and the two lists
meet in `readConfig_writeConfig_iff`: the settings survive if the login name has no `:`, and no text
is null, begins or ends with white space, has a null character in it, or is changed by the codec of
the locale. The file is written in Latin-1, and read with that codec.
-/

namespace NetISDN

/-! ## The settings -/

/-- The type of `QHostAddress`, which holds an IPv4 or an IPv6 address. An address is read back from
its text, the null one from `0.0.0.0`, and the text is ASCII without white space. -/
class HostAddress (α : Type) where
  toString : α → QString
  /-- `addr.setAddress(text)`, on what `addr` was before. -/
  setAddress : QString → α → α
  setAddress_toString : ∀ a b, setAddress (toString a) b = a
  toString_plain : ∀ a, ∀ c ∈ toString a, isSpace c = false ∧ c ≠ '\x00' ∧ isAscii c

/-- IPv4 addresses. -/
instance : HostAddress QHostAddress where
  toString := QHostAddress.toString
  setAddress text _ := QHostAddress.setAddress text
  setAddress_toString _ _ := QHostAddress.setAddress_toString
  toString_plain a c hc := by
    have hdigits : c.isDigit = true ∨ c = '.' := by
      by_contra hnot
      obtain ⟨hdigit, hdot⟩ := not_or.1 hnot
      exact QHostAddress.not_mem_toString (Bool.eq_false_iff.2 hdigit) hdot hc
    rcases hdigits with hdigit | rfl
    · refine ⟨isSpace_of_isDigit hdigit, ?_, isAscii_of_isDigit hdigit⟩
      rintro rfl
      cases hdigit
    · decide

/-- `AudioSettings`, with the settings of a client alone. -/
structure ClientSettings (α : Type) extends AudioSettings where
  set_password : QString := []
  set_rml_port : BitVec 32 := 5859
  set_input_gain : BitVec 32 := 0
  set_use_realtime : Bool := true
  set_gpio_command : Fin 32 → Fin 2 → QString := fun _ _ => []
  set_gpio_address : Fin 32 → Fin 2 → α
  set_gpio_port : Fin 32 → Fin 2 → BitVec 16 := fun _ _ => 5859

/-- `Codec::SdesField` (`codec.h:93`). -/
inductive SdesField where
  | sdesName
  | sdesEmail
  | sdesPhone
  | sdesLocation
  | sdesTool
  deriving DecidableEq

/-- The settings of a `Codec` of a client. -/
structure ClientCodec where
  codec_sdes_fields : SdesField → QString
  codec_input_pdev : BitVec 32
  codec_output_pdev : BitVec 32
  codec_buffer_setpoint : BitVec 32
  codec_transmit_cname : QString

/-- `MainWidget`, as far as it keeps settings. -/
structure MainWidget (α : Type) where
  net_settings : ClientSettings α
  net_codec : ClientCodec

namespace ClientSettings

variable {α : Type}

/-- `setGpioCommand` (`audiosettings.cpp:176`). -/
def setGpioCommand (s : ClientSettings α) (chan : Fin 32) (state : Fin 2) (str : QString) :
    ClientSettings α :=
  { s with
    set_gpio_command := Function.update s.set_gpio_command chan
      (Function.update (s.set_gpio_command chan) state str) }

/-- `setGpioAddress`. -/
def setGpioAddress (s : ClientSettings α) (chan : Fin 32) (state : Fin 2) (addr : α) :
    ClientSettings α :=
  { s with
    set_gpio_address := Function.update s.set_gpio_address chan
      (Function.update (s.set_gpio_address chan) state addr) }

/-- `setGpioPort`. -/
def setGpioPort (s : ClientSettings α) (chan : Fin 32) (state : Fin 2) (port : BitVec 16) :
    ClientSettings α :=
  { s with
    set_gpio_port := Function.update s.set_gpio_port chan
      (Function.update (s.set_gpio_port chan) state port) }

end ClientSettings

namespace ClientCodec

/-- `setRtpSdesField` (`codec.cpp:446`). -/
def setRtpSdesField (c : ClientCodec) (field : SdesField) (str : QString) : ClientCodec :=
  { c with codec_sdes_fields := Function.update c.codec_sdes_fields field str }

end ClientCodec

open AudioSettings

namespace MainWidget

variable {α : Type}

/-! ## `WriteConfig` -/

/-- The texts that are printed as they are. -/
inductive TextField where
  | rtpName
  | rtpPhone
  | rtpEmail
  | gpioCommand (chan : Fin 32) (state : Fin 2)

/-- A text of a client. -/
def text (w : MainWidget α) : TextField → QString
  | .rtpName => w.net_codec.codec_sdes_fields .sdesName
  | .rtpPhone => w.net_codec.codec_sdes_fields .sdesPhone
  | .rtpEmail => w.net_codec.codec_sdes_fields .sdesEmail
  | .gpioCommand chan state => w.net_settings.set_gpio_command chan state

@[simp] theorem text_rtpName (w : MainWidget α) :
    w.text .rtpName = w.net_codec.codec_sdes_fields .sdesName := rfl

@[simp] theorem text_rtpPhone (w : MainWidget α) :
    w.text .rtpPhone = w.net_codec.codec_sdes_fields .sdesPhone := rfl

@[simp] theorem text_rtpEmail (w : MainWidget α) :
    w.text .rtpEmail = w.net_codec.codec_sdes_fields .sdesEmail := rfl

@[simp] theorem text_gpioCommand (w : MainWidget α) (chan : Fin 32) (state : Fin 2) :
    w.text (.gpioCommand chan state) = w.net_settings.set_gpio_command chan state := rfl

/-- Which of the texts are null. Qt tells a null text from one without characters. -/
structure NullTexts (w : MainWidget α) where
  isNull : TextField → Bool
  isEmpty : ∀ field, isNull field = true → w.text field = []

/-- What `%s` prints of a text that is not null: its characters up to a null one. -/
def cString (str : QString) : QString := str.takeWhile (· ≠ '\x00')

/-- What `%s` prints of a text: glibc has a text for a null pointer. -/
def NullTexts.print {w : MainWidget α} (nulls : w.NullTexts) (field : TextField) : QString :=
  if nulls.isNull field then "(null)" else cString (w.text field)

/-- `QString().sprintf("GpioOffCommand%d",i+1)` and the like. -/
def gpioTag (name : QString) (i : Fin 32) : QString := name ++ sprintfU (i + 1)

/-- The tag of a text. -/
def TextField.tag : TextField → QString
  | .rtpName => "RtpName"
  | .rtpPhone => "RtpPhone"
  | .rtpEmail => "RtpEmail"
  | .gpioCommand chan 0 => gpioTag "GpioOffCommand" chan
  | .gpioCommand chan 1 => gpioTag "GpioOnCommand" chan

/-- The entries for a GPIO line, in the loop of `WriteConfig`. -/
def gpioEntries [HostAddress α] (w : MainWidget α) (nulls : w.NullTexts) (i : Fin 32) :
    List (QString × QString) :=
  let s := w.net_settings
  [(gpioTag "GpioOffCommand" i, nulls.print (.gpioCommand i 0)),
    (gpioTag "GpioOnCommand" i, nulls.print (.gpioCommand i 1)),
    (gpioTag "GpioOffAddress" i, cString (HostAddress.toString (s.set_gpio_address i 0))),
    (gpioTag "GpioOnAddress" i, cString (HostAddress.toString (s.set_gpio_address i 1))),
    (gpioTag "GpioOffPort" i, sprintfD (s.set_gpio_port i 0).toNat),
    (gpioTag "GpioOnPort" i, sprintfD (s.set_gpio_port i 1).toNat)]

/-- The entries before those for GPIO lines. Numbers that the code keeps as `unsigned` are printed
as an `int`, but for the receive buffers. The values are the raw ones, without `AutoVector`. -/
def generalEntries (w : MainWidget α) (nulls : w.NullTexts) : List (QString × QString) :=
  let s := w.net_settings
  let c := w.net_codec
  [("Login", cString (NetStringToBase64 (s.set_username ++ ":" ++ s.set_password))),
    ("Format", sprintfD (s.set_format .transmit).number.toInt),
    ("Channels", sprintfD (s.set_channels .transmit).toInt),
    ("SampleRate", sprintfD s.set_sample_rate.toInt),
    ("BitRate", sprintfD (s.set_bit_rate .transmit).toInt),
    ("ReceiveFormat", sprintfD (s.set_format .receive).number.toInt),
    ("ReceiveChannels", sprintfD (s.set_channels .receive).toInt),
    ("ReceiveBitRate", sprintfD (s.set_bit_rate .receive).toInt),
    ("RmlPort", sprintfD s.set_rml_port.toInt),
    ("RtpName", nulls.print .rtpName),
    ("RtpPhone", nulls.print .rtpPhone),
    ("RtpEmail", nulls.print .rtpEmail),
    ("StreamRatio", sprintfD (s.set_stream_ratio .transmit).toInt),
    ("InputGain", sprintfD s.set_input_gain.toInt),
    ("ReceiveStreamRatio", sprintfD (s.set_stream_ratio .receive).toInt),
    ("UseRealtime", sprintfD s.set_use_realtime.toNat),
    ("ReceiveBuffers", sprintfU c.codec_buffer_setpoint.toNat),
    ("InputDevice", sprintfD c.codec_input_pdev.toInt),
    ("OutputDevice", sprintfD c.codec_output_pdev.toInt),
    ("EnableProcessor", sprintfD (s.set_enable_processor .transmit).toNat),
    ("ReceiveEnableProcessor", sprintfD (s.set_enable_processor .receive).toNat)]

/-- All entries. -/
def configEntries [HostAddress α] (w : MainWidget α) (nulls : w.NullTexts) :
    List (QString × QString) :=
  w.generalEntries nulls ++ (List.finRange 32).flatMap (w.gpioEntries nulls)

/-- The file that `MainWidget::WriteConfig` writes (`netisdn.cpp:1006`). -/
def writeConfig [HostAddress α] (w : MainWidget α) (nulls : w.NullTexts) : QString :=
  iniText "NetISDN" (w.configEntries nulls)

/-! ## `ReadConfig` -/

/-- `(unsigned)p->intValue("NetISDN",tag,default_value)`, and the same for an `int`. -/
def readNumber (p : Profile) (tag : QString) (default_value : Int) : BitVec 32 :=
  .ofInt 32 (p.intValue "NetISDN" tag default_value)

/-- `(bool)p->intValue("NetISDN",tag,default_value)`. -/
def readBool (p : Profile) (tag : QString) (default_value : Bool) : Bool :=
  p.intValue "NetISDN" tag default_value.toNat ≠ 0

/-- The calls of `ReadConfig` before the GPIO loop that concern the settings. -/
def readSettings (p : Profile) (s : ClientSettings α) : ClientSettings α :=
  let a := s.toAudioSettings.setFormat .transmit .layer3
  let a := a.setFormat .transmit (Format.cast (readNumber p "Format" 5))
  let a := a.setChannels .transmit (readNumber p "Channels" 1)
  let a := a.setSampleRate (readNumber p "SampleRate" 32000)
  let a := a.setBitRate .transmit (readNumber p "BitRate" 48000)
  let a := a.setFormat .receive (Format.cast (readNumber p "ReceiveFormat" 5))
  let a := a.setChannels .receive (readNumber p "ReceiveChannels" 1)
  let a := a.setBitRate .receive (readNumber p "ReceiveBitRate" 48000)
  let a := a.setStreamRatio .transmit (readNumber p "StreamRatio" (a.streamRatio .transmit).toInt)
  let a := a.setStreamRatio .receive
    (readNumber p "ReceiveStreamRatio" (a.streamRatio .receive).toInt)
  let a := a.setEnableProcessor .transmit
    (readBool p "EnableProcessor" (a.enableProcessor .transmit))
  let a := a.setEnableProcessor .receive
    (readBool p "ReceiveEnableProcessor" (a.enableProcessor .receive))
  { s with
    toAudioSettings := a
    set_rml_port := readNumber p "RmlPort" 5858
    set_input_gain := readNumber p "InputGain" s.set_input_gain.toInt
    set_use_realtime := readBool p "UseRealtime" s.set_use_realtime }

/-- The calls of `ReadConfig` before the GPIO loop that concern the codec. -/
def readCodec (p : Profile) (c : ClientCodec) : ClientCodec :=
  let c := c.setRtpSdesField .sdesName (p.stringValue "NetISDN" "RtpName" [])
  let c := c.setRtpSdesField .sdesPhone (p.stringValue "NetISDN" "RtpPhone" [])
  let c := c.setRtpSdesField .sdesEmail (p.stringValue "NetISDN" "RtpEmail" [])
  { c with
    codec_input_pdev := readNumber p "InputDevice" c.codec_input_pdev.toInt
    codec_buffer_setpoint := readNumber p "ReceiveBuffers" c.codec_buffer_setpoint.toInt
    codec_output_pdev := readNumber p "OutputDevice" c.codec_output_pdev.toInt }

/-- The body of the GPIO loop, with the variable `addr` beside the settings. -/
def readGpio [HostAddress α] (p : Profile) (st : ClientSettings α × α) (i : Fin 32) :
    ClientSettings α × α :=
  let s := st.1.setGpioCommand i 0
    (p.stringValue "NetISDN" (gpioTag "GpioOffCommand" i) (st.1.set_gpio_command i 0))
  let s := s.setGpioCommand i 1
    (p.stringValue "NetISDN" (gpioTag "GpioOnCommand" i) (s.set_gpio_command i 1))
  let addr := HostAddress.setAddress (p.stringValue "NetISDN" (gpioTag "GpioOffAddress" i)
    (HostAddress.toString (s.set_gpio_address i 0))) st.2
  let s := s.setGpioAddress i 0 addr
  let addr := HostAddress.setAddress (p.stringValue "NetISDN" (gpioTag "GpioOnAddress" i)
    (HostAddress.toString (s.set_gpio_address i 1))) addr
  let s := s.setGpioAddress i 1 addr
  let s := s.setGpioPort i 0 (.ofInt 16
    (p.intValue "NetISDN" (gpioTag "GpioOffPort" i) (s.set_gpio_port i 0).toNat))
  let s := s.setGpioPort i 1 (.ofInt 16
    (p.intValue "NetISDN" (gpioTag "GpioOnPort" i) (s.set_gpio_port i 1).toNat))
  (s, addr)

/-- The end of `ReadConfig`: the login is split at its first `:`. -/
def readLogin (enc : QString) (s : ClientSettings α) : ClientSettings α :=
  if ':' ∈ enc then
    { s with
      set_username := enc.takeWhile (· ≠ ':')
      set_password := (enc.dropWhile (· ≠ ':')).tail }
  else s

/-- `MainWidget::ReadConfig` (`netisdn.cpp:756`), of a file with these bytes, in a locale with that
codec. `null` is the address that `addr` is made with. -/
def readConfig [HostAddress α] (codec : TextCodec) (null : α) (w : MainWidget α) (file : QString) :
    MainWidget α :=
  let p := Profile.setSource codec file
  let enc := (NetBase64ToString (p.stringValue "NetISDN" "Login" [])).getD []
  let s := ((List.finRange 32).foldl (readGpio p) (readSettings p w.net_settings, null)).1
  let s := readLogin enc s
  let c := readCodec p w.net_codec
  ⟨s, { c with codec_transmit_cname := s.set_username ++ "@netisdn.com" }⟩

/-! ## The tags -/

section
variable {name name' tag : QString} {i j : Fin 32}

/-- A name of letters alone. -/
def IsName (t : QString) : Prop := t ≠ [] ∧ ∀ c ∈ t, c.isAlpha

/-- The tags of `generalEntries`. -/
def generalTags : List QString :=
  ["Login", "Format", "Channels", "SampleRate", "BitRate", "ReceiveFormat", "ReceiveChannels",
    "ReceiveBitRate", "RmlPort", "RtpName", "RtpPhone", "RtpEmail", "StreamRatio", "InputGain",
    "ReceiveStreamRatio", "UseRealtime", "ReceiveBuffers", "InputDevice", "OutputDevice",
    "EnableProcessor", "ReceiveEnableProcessor"]

/-- The names of the entries for a GPIO line. -/
def gpioNames : List QString :=
  ["GpioOffCommand", "GpioOnCommand", "GpioOffAddress", "GpioOnAddress", "GpioOffPort",
    "GpioOnPort"]

/-- The tags of the profile are names. -/
theorem isName_of_mem (h : tag ∈ generalTags ++ gpioNames) : IsName tag := by
  have hall : (generalTags ++ gpioNames).all
      (fun t => decide (t ≠ []) && t.all Char.isAlpha) = true := by decide
  have htag := List.all_eq_true.1 hall tag h
  rw [Bool.and_eq_true, List.all_eq_true] at htag
  exact ⟨of_decide_eq_true htag.1, htag.2⟩

/-- A name is a tag. -/
theorem IsName.isTag (h : IsName name) : IsTag name where
  ne_nil := h.1
  alphanum c hc := by
    rw [Char.isAlphanum, h.2 c hc, Bool.true_or]

/-- A letter is no digit. -/
theorem isAlpha_of_isDigit {c : Char} (h : c.isDigit) : c.isAlpha = false := by
  have hdigit := toNat_of_isDigit h
  refine Bool.eq_false_iff.2 fun halpha => ?_
  rcases isAlpha_iff.1 halpha with hupper | hlower
  · omega
  · omega

/-- The name is what stands before the number of the line. -/
theorem takeWhile_gpioTag (h : IsName name) : (gpioTag name i).takeWhile Char.isAlpha = name := by
  obtain ⟨c, cs, hnumber, hc⟩ := exists_sprintfU (i + 1)
  have hc' : ¬c.isAlpha = true := by rw [isAlpha_of_isDigit hc]; exact Bool.false_ne_true
  rw [gpioTag, List.takeWhile_append_of_pos h.2, hnumber, List.takeWhile_cons_of_neg hc',
    List.append_nil]

/-- Tags for GPIO lines differ by name or by line. -/
theorem gpioTag_inj (h : IsName name) (h' : IsName name') (heq : gpioTag name i = gpioTag name' j) :
    name = name' ∧ i = j := by
  have hname := congrArg (List.takeWhile Char.isAlpha) heq
  rw [takeWhile_gpioTag h, takeWhile_gpioTag h'] at hname
  subst hname
  have hnumber := congrArg toNumber (List.append_cancel_left heq)
  rw [toNumber_sprintfU, toNumber_sprintfU] at hnumber
  exact ⟨rfl, Fin.ext (Nat.succ.inj (Option.some.inj hnumber))⟩

/-- No tag for a GPIO line is one of letters alone. -/
theorem gpioTag_ne (h : IsName name) (htag : IsName tag) : gpioTag name i ≠ tag := by
  rintro rfl
  have hall := List.takeWhile_eq_self_iff.2 htag.2
  rw [takeWhile_gpioTag h] at hall
  exact absurd (List.append_cancel_left (hall.symm.trans (List.append_nil _).symm)) sprintfU_ne_nil

/-- A name with a line number behind it is a tag. -/
theorem IsName.isTag_gpioTag (h : IsName name) : IsTag (gpioTag name i) where
  ne_nil hnil := h.1 (List.append_eq_nil_iff.1 hnil).1
  alphanum c hc := by
    rcases List.mem_append.1 hc with hc | hc
    · exact h.isTag.alphanum c hc
    · rw [Char.isAlphanum, isDigit_of_mem_sprintfU hc, Bool.or_true]

/-- All tags. -/
def configTags : List QString :=
  generalTags ++ (List.finRange 32).flatMap fun i => gpioNames.map (gpioTag · i)

/-- The tags are distinct. -/
theorem nodup_configTags : configTags.Nodup := by
  have hgeneral : generalTags.Nodup := by decide
  have hgpio : gpioNames.Nodup := by decide
  have hname : ∀ name ∈ gpioNames, IsName name := fun name h =>
    isName_of_mem (List.mem_append_right _ h)
  refine List.nodup_append.2 ⟨hgeneral, List.nodup_flatMap.2 ⟨fun i _ => ?_, ?_⟩, ?_⟩
  · refine hgpio.map_on fun name h name' h' heq => ?_
    exact (gpioTag_inj (hname _ h) (hname _ h') heq).1
  · refine (List.nodup_finRange 32).imp fun hne tag h h' => ?_
    obtain ⟨name, hmem, rfl⟩ := List.mem_map.1 h
    obtain ⟨name', hmem', heq⟩ := List.mem_map.1 h'
    exact hne (gpioTag_inj (hname _ hmem) (hname _ hmem') heq.symm).2
  · intro tag htag tag' htag'
    obtain ⟨i, -, htag'⟩ := List.mem_flatMap.1 htag'
    obtain ⟨name, hmem, rfl⟩ := List.mem_map.1 htag'
    exact (gpioTag_ne (hname _ hmem) (isName_of_mem (List.mem_append_left _ htag))).symm

end

/-! ## Texts -/

/-- A text in Latin-1 on one line. -/
structure IsText (t : QString) : Prop where
  latin1 : ∀ c ∈ t, c.toNat < 256
  isLine : IsLine t

/-- A text can be checked character by character. -/
theorem isText_of_all {t : QString}
    (h : t.all (fun c => decide (c.toNat < 256 ∧ c ≠ '\n' ∧ c ≠ '\r')) = true) : IsText t where
  latin1 c hc := (of_decide_eq_true (List.all_eq_true.1 h c hc)).1
  isLine c hc := (of_decide_eq_true (List.all_eq_true.1 h c hc)).2

/-- The text fields are texts in Latin-1, each on one line. -/
structure HasTexts (w : MainWidget α) : Prop where
  username : IsText w.net_settings.set_username
  password : IsText w.net_settings.set_password
  text : ∀ field, IsText (w.text field)

section
variable {t : QString} {w : MainWidget α} {nulls : w.NullTexts} {field : TextField}

/-- What `%s` prints of a line is on one line. -/
theorem isLine_cString (h : IsLine t) : IsLine (cString t) := fun c hc =>
  h c ((List.takeWhile_sublist _).subset hc)

/-- A text without white space is on one line. -/
theorem isLine_of_forall (h : ∀ c ∈ t, isSpace c = false) : IsLine t := by
  intro c hc
  have hspace := h c hc
  constructor
  · rintro rfl
    cases hspace
  · rintro rfl
    cases hspace

/-- What has no null character is printed as it is. -/
theorem cString_eq (h : ∀ c ∈ t, c ≠ '\x00') : cString t = t :=
  List.takeWhile_eq_self_iff.2 fun c hc => decide_eq_true (h c hc)

/-- The digits of base64 are ASCII. -/
theorem isAscii_of_mem_base64 {c : Char} (h : c ∈ NetStringToBase64 t) : isAscii c := by
  have hascii : ('=' :: base64_dict).all isAscii = true := by decide
  exact List.all_eq_true.1 hascii c (mem_base64 h)

/-- An encoded text is printed as it is. -/
theorem cString_base64 : cString (NetStringToBase64 t) = NetStringToBase64 t := by
  have hnull : ('=' :: base64_dict).all (fun c => decide (c ≠ '\x00')) = true := by decide
  exact cString_eq fun c hc => of_decide_eq_true (List.all_eq_true.1 hnull c (mem_base64 hc))

/-- Printing adds nothing to a text. -/
theorem cString_sublist : (cString t).Sublist t := (List.takeWhile_prefix _).sublist

/-- A text that is printed whole and has no white space at its ends. -/
structure IsTrimmed (t : QString) : Prop where
  no_null : '\x00' ∉ t
  first : ∀ c ∈ t.head?, isSpace c = false
  last : ∀ c ∈ t.getLast?, isSpace c = false

/-- That a text is trimmed can be checked at its characters. -/
theorem isTrimmed_of_all (h : (t.all (fun c => decide (c ≠ '\x00')) &&
    t.head?.all (fun c => !isSpace c) && t.getLast?.all (fun c => !isSpace c)) = true) :
    IsTrimmed t := by
  simp only [Bool.and_eq_true, List.all_eq_true, decide_eq_true_eq, Option.all_eq_true,
    Bool.not_eq_true'] at h
  obtain ⟨⟨hnull, hfirst⟩, hlast⟩ := h
  exact ⟨fun hmem => hnull _ hmem rfl, hfirst, hlast⟩

/-- These are the texts that are read back. -/
theorem isTrimmed_iff : stripWhiteSpace (cString t) = t ↔ IsTrimmed t := by
  constructor
  · intro hback
    have hprinted : cString t <+: t := List.takeWhile_prefix _
    have hread : List.Sublist (stripWhiteSpace (cString t)) (cString t) := stripWhiteSpace_sublist
    rw [hback] at hread
    -- nothing was lost, neither by printing nor at the ends
    have hwhole : cString t = t := hprinted.eq_of_length_le hread.length_le
    rw [hwhole] at hback
    have hfront : t.dropWhile isSpace = t := by
      refine (List.dropWhile_suffix _).eq_of_length_le ?_
      have hle := (List.rdropWhile_prefix isSpace (t.dropWhile isSpace)).length_le
      rwa [← stripWhiteSpace_eq_rdropWhile, hback] at hle
    have hback' : t.rdropWhile isSpace = t := by
      rwa [stripWhiteSpace_eq_rdropWhile, hfront] at hback
    have hfirst := List.head?_dropWhile_not isSpace t
    refine ⟨fun hnull => ?_, fun c hc => ?_, fun c hc => ?_⟩
    · exact of_decide_eq_true (List.takeWhile_eq_self_iff.1 hwhole _ hnull) rfl
    · rw [hfront, hc] at hfirst
      exact hfirst
    · obtain ⟨hne, rfl⟩ := List.mem_getLast?_eq_getLast hc
      exact Bool.eq_false_iff.2 (List.rdropWhile_eq_self_iff.1 hback' hne)
  · intro h
    rw [cString_eq fun c hc => ne_of_mem_of_not_mem hc h.no_null, stripWhiteSpace_eq h.first h.last]

/-- A text that is printed for a null one, or what is printed of a text, is on one line. -/
theorem isLine_print (h : IsLine (w.text field)) : IsLine (nulls.print field) := by
  unfold NullTexts.print
  split
  · have hplain : ("(null)" : QString).all (fun c => !isSpace c) = true := by decide
    exact isLine_of_forall fun c hc => by simpa using List.all_eq_true.1 hplain c hc
  · exact isLine_cString h

/-- No other characters than ASCII are added where a text is printed. -/
theorem count_print_le {c : Char} (hc : ¬ isAscii c) :
    (nulls.print field).count c ≤ (w.text field).count c := by
  unfold NullTexts.print
  split
  · have hascii : ("(null)" : QString).all isAscii = true := by decide
    have hzero : ("(null)" : QString).count c = 0 :=
      List.count_eq_zero.2 fun hmem => hc (List.all_eq_true.1 hascii c hmem)
    exact hzero.trans_le (Nat.zero_le _)
  · exact cString_sublist.count_le c

/-- These are the texts that are read back as they were, where the file is. -/
theorem stripWhiteSpace_print_iff : stripWhiteSpace (nulls.print field) = w.text field ↔
    nulls.isNull field = false ∧ IsTrimmed (w.text field) := by
  unfold NullTexts.print
  split
  · next hnull =>
      rw [nulls.isEmpty field hnull, hnull]
      exact iff_of_false (by decide) fun h => Bool.noConfusion h.1
  · next hnull => rw [isTrimmed_iff, and_iff_right (Bool.eq_false_iff.2 hnull)]

/-- The login is split where it was joined if the name has no `:`. -/
theorem readLogin_iff {username password : QString} {s s' : ClientSettings α}
    (hs' : readLogin (username ++ ':' :: password) s = s') :
    (s'.set_username = username ↔ ':' ∉ username) ∧
      (':' ∉ username → s'.set_password = password) := by
  have hmem : ':' ∈ username ++ ':' :: password := by simp
  rw [readLogin, if_pos hmem] at hs'
  subst hs'
  have hall (h : ':' ∉ username) : ∀ c ∈ username, decide (c ≠ ':') = true := fun c hc =>
    decide_eq_true (ne_of_mem_of_not_mem hc h)
  refine ⟨⟨fun hback hcolon => ?_, fun h => ?_⟩, fun h => ?_⟩
  · have hprefix : (username ++ ':' :: password).takeWhile (· ≠ ':') = username := hback
    rw [← hprefix] at hcolon
    have hne := List.mem_takeWhile_imp (p := fun c => decide (c ≠ ':')) hcolon
    exact of_decide_eq_true hne rfl
  · exact (List.takeWhile_append_of_pos (hall h)).trans (by simp)
  · exact (congrArg List.tail (List.dropWhile_append_of_pos (hall h))).trans (by simp)

/-- The settings of `w` are those of `w'`. -/
structure Restored (w w' : MainWidget α) : Prop where
  username : w'.net_settings.set_username = w.net_settings.set_username
  password : w'.net_settings.set_password = w.net_settings.set_password
  format : ∀ dir, w'.net_settings.set_format dir = w.net_settings.set_format dir
  channels : ∀ dir, w'.net_settings.set_channels dir = w.net_settings.set_channels dir
  sample_rate : w'.net_settings.set_sample_rate = w.net_settings.set_sample_rate
  bit_rate : ∀ dir, w'.net_settings.set_bit_rate dir = w.net_settings.set_bit_rate dir
  stream_ratio : ∀ dir, w'.net_settings.set_stream_ratio dir = w.net_settings.set_stream_ratio dir
  enable_processor : ∀ dir,
    w'.net_settings.set_enable_processor dir = w.net_settings.set_enable_processor dir
  input_gain : w'.net_settings.set_input_gain = w.net_settings.set_input_gain
  use_realtime : w'.net_settings.set_use_realtime = w.net_settings.set_use_realtime
  rml_port : w'.net_settings.set_rml_port = w.net_settings.set_rml_port
  input_device : w'.net_codec.codec_input_pdev = w.net_codec.codec_input_pdev
  output_device : w'.net_codec.codec_output_pdev = w.net_codec.codec_output_pdev
  text : ∀ field, w'.text field = w.text field
  gpio_address : ∀ i state,
    w'.net_settings.set_gpio_address i state = w.net_settings.set_gpio_address i state
  gpio_port : ∀ i state,
    w'.net_settings.set_gpio_port i state = w.net_settings.set_gpio_port i state

/-- The settings have texts that survive in a locale with that codec. -/
structure Survives (codec : TextCodec) (w : MainWidget α) (nulls : w.NullTexts) : Prop where
  username : ':' ∉ w.net_settings.set_username
  not_null : ∀ field, nulls.isNull field = false
  trimmed : ∀ field, IsTrimmed (w.text field)
  reads : ∀ field, codec.Reads (w.text field)

end

/-! ## What the file says -/

section
variable [HostAddress α] {t tag value : QString} {w : MainWidget α} {nulls : w.NullTexts} {n : Int}
  {v : BitVec 32} {b : Bool} {e : QString × QString} {codec : TextCodec}

/-- The tags of what is written, in their order. -/
theorem configEntries_tags (w : MainWidget α) (nulls : w.NullTexts) :
    (w.configEntries nulls).map Prod.fst = configTags := by
  rw [configEntries, List.map_append, List.map_flatMap]
  rfl

/-- The value of an entry is a text as it is printed, or ASCII without white space. -/
theorem mem_configEntries (he : e ∈ w.configEntries nulls) :
    (∀ c ∈ e.2, isSpace c = false ∧ isAscii c) ∨
      ∃ field : TextField, e = (field.tag, nulls.print field) := by
  have hnumber (n : Int) : ∀ c ∈ sprintfD n, isSpace c = false ∧ isAscii c := fun c hc =>
    ⟨isSpace_of_mem_sprintfD hc, isAscii_of_mem_sprintfD hc⟩
  have hbuffers (n : Nat) : ∀ c ∈ sprintfU n, isSpace c = false ∧ isAscii c := hnumber n
  have haddress (a : α) :
      ∀ c ∈ cString (HostAddress.toString a), isSpace c = false ∧ isAscii c := fun c hc => by
    obtain ⟨hspace, -, hascii⟩ := HostAddress.toString_plain a c (cString_sublist.subset hc)
    exact ⟨hspace, hascii⟩
  have hlogin (t : QString) :
      ∀ c ∈ cString (NetStringToBase64 t), isSpace c = false ∧ isAscii c := fun c hc =>
    have hmem := cString_sublist.subset hc
    ⟨(base64_plain hmem).1, isAscii_of_mem_base64 hmem⟩
  have hgeneral : ∀ e ∈ w.generalEntries nulls, (∀ c ∈ e.2, isSpace c = false ∧ isAscii c) ∨
      ∃ field : TextField, e = (field.tag, nulls.print field) := by
    simp only [generalEntries, List.forall_mem_cons]
    exact ⟨.inl (hlogin _), .inl (hnumber _), .inl (hnumber _), .inl (hnumber _), .inl (hnumber _),
      .inl (hnumber _), .inl (hnumber _), .inl (hnumber _), .inl (hnumber _), .inr ⟨.rtpName, rfl⟩,
      .inr ⟨.rtpPhone, rfl⟩, .inr ⟨.rtpEmail, rfl⟩, .inl (hnumber _), .inl (hnumber _),
      .inl (hnumber _), .inl (hnumber _), .inl (hbuffers _), .inl (hnumber _), .inl (hnumber _),
      .inl (hnumber _), .inl (hnumber _), List.forall_mem_nil _⟩
  rcases List.mem_append.1 he with he | he
  · exact hgeneral e he
  · obtain ⟨i, -, he⟩ := List.mem_flatMap.1 he
    have hgpio : ∀ e ∈ w.gpioEntries nulls i, (∀ c ∈ e.2, isSpace c = false ∧ isAscii c) ∨
        ∃ field : TextField, e = (field.tag, nulls.print field) := by
      simp only [gpioEntries, List.forall_mem_cons]
      exact ⟨.inr ⟨.gpioCommand i 0, rfl⟩, .inr ⟨.gpioCommand i 1, rfl⟩, .inl (haddress _),
        .inl (haddress _), .inl (hnumber _), .inl (hnumber _), List.forall_mem_nil _⟩
    exact hgpio e he

/-- Each text is in the file. -/
theorem print_mem_configEntries (field : TextField) :
    (field.tag, nulls.print field) ∈ w.configEntries nulls := by
  -- of the general entries, the texts of the codec are the tenth to the twelfth
  cases field with
  | rtpName => exact List.mem_append_left _ (List.mem_of_getElem? (i := 9) rfl)
  | rtpPhone => exact List.mem_append_left _ (List.mem_of_getElem? (i := 10) rfl)
  | rtpEmail => exact List.mem_append_left _ (List.mem_of_getElem? (i := 11) rfl)
  | gpioCommand chan state =>
      refine List.mem_append_right _ (List.mem_flatMap.2 ⟨chan, List.mem_finRange chan, ?_⟩)
      obtain rfl | rfl : state = 0 ∨ state = 1 := by omega
      · exact .head _
      · exact .tail _ (.head _)

/-- The tags of the entries. -/
theorem isTag_of_mem (he : e ∈ w.configEntries nulls) : IsTag e.1 := by
  have htag : e.1 ∈ configTags := configEntries_tags w nulls ▸ List.mem_map_of_mem he
  rcases List.mem_append.1 htag with htag | htag
  · exact (isName_of_mem (List.mem_append_left _ htag)).isTag
  · obtain ⟨i, -, htag⟩ := List.mem_flatMap.1 htag
    obtain ⟨name, hname, heq⟩ := List.mem_map.1 htag
    exact heq ▸ (isName_of_mem (List.mem_append_right _ hname)).isTag_gpioTag

/-- Each entry is one line of the file. -/
theorem HasTexts.entries (h : w.HasTexts) :
    ∀ e ∈ w.configEntries nulls, IsTag e.1 ∧ IsLine e.2 := by
  refine fun e he => ⟨isTag_of_mem he, ?_⟩
  rcases mem_configEntries he with hplain | ⟨field, rfl⟩
  · exact isLine_of_forall fun c hc => (hplain c hc).1
  · exact isLine_print (h.text field).isLine

/-- The name of the section. -/
theorem isTag_NetISDN : IsTag "NetISDN" := ⟨by decide, List.all_eq_true.1 (by decide)⟩

/-- The codec reads the file as it was written exactly if it does so with every text. -/
theorem reads_writeConfig_iff :
    codec.Reads (w.writeConfig nulls) ↔ ∀ field, codec.Reads (nulls.print field) := by
  rw [writeConfig, reads_iniText_iff isTag_NetISDN fun e he => isTag_of_mem he]
  refine ⟨fun h field => h _ (print_mem_configEntries field), fun h e he => ?_⟩
  rcases mem_configEntries he with hplain | ⟨field, rfl⟩
  · exact TextCodec.reads_of_ascii fun c hc => (hplain c hc).2
  · exact h field

section
variable (h : w.HasTexts) (hreads : codec.Reads (w.writeConfig nulls))
include h hreads

/-- An entry is read as its value without the white space at the ends. -/
theorem stringValue_writeConfig (default_str : QString) : ∀ e ∈ w.configEntries nulls,
    (Profile.setSource codec (w.writeConfig nulls)).stringValue "NetISDN" e.1 default_str =
      stripWhiteSpace e.2 := fun _ he =>
  stringValue_iniText isTag_NetISDN h.entries (configEntries_tags w nulls ▸ nodup_configTags)
    hreads he

end

variable {p : Profile}

/-- A number is read as it was written. -/
theorem intValue_eq (hvalue : p.stringValue "NetISDN" tag [] = stripWhiteSpace (sprintfD n))
    (hn : - 2 ^ 31 ≤ n ∧ n < 2 ^ 31) (d : Int) : p.intValue "NetISDN" tag d = n := by
  rw [Profile.intValue, hvalue,
    stripWhiteSpace_of_forall fun c hc => isSpace_of_mem_sprintfD hc, toInt?_sprintfD hn,
    Option.getD_some]

/-- A number is read back as it was written. -/
theorem readNumber_eq (hvalue : p.stringValue "NetISDN" tag [] = stripWhiteSpace (sprintfD v.toInt))
    (d : Int) : readNumber p tag d = v := by
  have hle := v.le_toInt
  have hlt := v.toInt_lt
  rw [readNumber, intValue_eq hvalue (by omega), BitVec.ofInt_toInt]

/-- A truth value is read back as it was written. -/
theorem readBool_eq (hvalue : p.stringValue "NetISDN" tag [] = stripWhiteSpace (sprintfD b.toNat))
    (d : Bool) : readBool p tag d = b := by
  have hle := b.toNat_le
  rw [readBool, intValue_eq hvalue (by omega)]
  cases b <;> rfl

/-- What is set both ways is all set. -/
theorem update_both {β : Type} {f g : Direction → β} :
    Function.update (Function.update f .transmit (g .transmit)) .receive (g .receive) = g := by
  funext dir
  cases dir with
  | transmit => rfl
  | receive => rfl

section
variable (h : w.HasTexts) (hreads : codec.Reads (w.writeConfig nulls))
include h hreads

/-- What is read of the entries before those for GPIO lines. -/
theorem stringValue_general (default_str : QString) : ∀ e ∈ w.generalEntries nulls,
    (Profile.setSource codec (w.writeConfig nulls)).stringValue "NetISDN" e.1 default_str =
      stripWhiteSpace e.2 :=
  fun e he => stringValue_writeConfig h hreads default_str e (List.mem_append_left _ he)

/-- The settings but for the login and the GPIO lines are read as they were written. -/
theorem readSettings_writeConfig (s : ClientSettings α) :
    readSettings (Profile.setSource codec (w.writeConfig nulls)) s =
      { w.net_settings with
        set_username := s.set_username
        set_password := s.set_password
        set_gpio_command := s.set_gpio_command
        set_gpio_address := s.set_gpio_address
        set_gpio_port := s.set_gpio_port } := by
  have hread := stringValue_general h hreads []
  simp only [generalEntries, List.forall_mem_cons] at hread
  obtain ⟨-, hformat, hchannels, hrate, hbits, hrformat, hrchannels, hrbits, hport, -, -, -, hratio,
    hgain, hrratio, hrealtime, -, -, -, hprocessor, hrprocessor, -⟩ := hread
  rw [readSettings]
  simp only [readNumber_eq hformat, readNumber_eq hchannels, readNumber_eq hrate,
    readNumber_eq hbits, readNumber_eq hrformat, readNumber_eq hrchannels, readNumber_eq hrbits,
    readNumber_eq hratio,
    readNumber_eq hrratio, readNumber_eq hport, readNumber_eq hgain, readBool_eq hrealtime,
    readBool_eq hprocessor, readBool_eq hrprocessor, Format.cast_number]
  simp only [setFormat, setChannels, setSampleRate, setBitRate, setStreamRatio, setEnableProcessor,
    Function.update_idem, update_both]

/-- The settings of the codec are read as they were written, the texts as what was printed of them,
without the white space at its ends. -/
theorem readConfig_codec (null : α) (w₀ : MainWidget α) {c' : ClientCodec}
    (hc' : (w₀.readConfig codec null (w.writeConfig nulls)).net_codec = c') :
    (c'.codec_sdes_fields .sdesName = stripWhiteSpace (nulls.print .rtpName) ∧
      c'.codec_sdes_fields .sdesPhone = stripWhiteSpace (nulls.print .rtpPhone) ∧
      c'.codec_sdes_fields .sdesEmail = stripWhiteSpace (nulls.print .rtpEmail)) ∧
    c'.codec_input_pdev = w.net_codec.codec_input_pdev ∧
    c'.codec_output_pdev = w.net_codec.codec_output_pdev := by
  have hread := stringValue_general h hreads []
  rw [readConfig] at hc'
  generalize Profile.setSource codec (w.writeConfig nulls) = p at hread hc'
  simp only [generalEntries, List.forall_mem_cons] at hread
  obtain ⟨-, -, -, -, -, -, -, -, -, hname, hphone, hemail, -, -, -, -, -, hinput, houtput, -⟩ :=
    hread
  subst hc'
  exact ⟨⟨hname, hphone, hemail⟩, readNumber_eq hinput _, readNumber_eq houtput _⟩

/-- The login is read as it was written. -/
theorem login_writeConfig : (NetBase64ToString
      ((Profile.setSource codec (w.writeConfig nulls)).stringValue "NetISDN" "Login" [])).getD [] =
    w.net_settings.set_username ++ ':' :: w.net_settings.set_password := by
  have hread := stringValue_general h hreads [] _ (.head _)
  have hlatin : ∀ c ∈ w.net_settings.set_username ++ ":" ++ w.net_settings.set_password,
      c.toNat < 256 := by
    intro c hc
    rcases List.mem_append.1 hc with hc | hc
    · rcases List.mem_append.1 hc with hc | hc
      · exact h.username.latin1 c hc
      · obtain rfl := List.mem_singleton.1 hc
        decide
    · exact h.password.latin1 c hc
  rw [hread, cString_base64, stripWhiteSpace_of_forall fun c hc => (base64_plain hc).1,
    NetBase64ToString_encode hlatin, Option.getD_some, List.append_assoc]
  rfl

end

/-! ## The GPIO loop -/

/-- The settings with the GPIO lines in a list as they are read of the file of `w`. -/
def withGpio (w : MainWidget α) (nulls : w.NullTexts) (l : List (Fin 32)) (s : ClientSettings α) :
    ClientSettings α :=
  { s with
    set_gpio_command := fun i state => if i ∈ l then
      stripWhiteSpace (nulls.print (.gpioCommand i state))
      else s.set_gpio_command i state
    set_gpio_address := fun i state => if i ∈ l then w.net_settings.set_gpio_address i state
      else s.set_gpio_address i state
    set_gpio_port := fun i state => if i ∈ l then w.net_settings.set_gpio_port i state
      else s.set_gpio_port i state }

/-- What is set for both states of a line is all set there, and nothing elsewhere. -/
theorem update_states {β : Type} {f g : Fin 32 → Fin 2 → β} {i : Fin 32} :
    Function.update (Function.update f i (Function.update (f i) 0 (g i 0))) i
        (Function.update (Function.update f i (Function.update (f i) 0 (g i 0)) i) 1 (g i 1)) =
      fun j state => if j ∈ [i] then g j state else f j state := by
  funext j
  rw [Function.update_idem, Function.update_self]
  by_cases hj : j = i
  · subst hj
    rw [Function.update_self]
    exact funext (Fin.forall_fin_two.2 ⟨by simp, by simp⟩)
  · rw [Function.update_of_ne hj]
    simp [hj]

/-- A pass of the loop reads one line. -/
theorem readGpio_writeConfig (h : w.HasTexts) (hreads : codec.Reads (w.writeConfig nulls))
    (st : ClientSettings α × α) (i : Fin 32) :
    (readGpio (Profile.setSource codec (w.writeConfig nulls)) st i).1 =
      w.withGpio nulls [i] st.1 := by
  have hread (default_str : QString) : ∀ e ∈ w.gpioEntries nulls i,
      (Profile.setSource codec (w.writeConfig nulls)).stringValue "NetISDN" e.1 default_str =
        stripWhiteSpace e.2 := fun e he =>
    stringValue_writeConfig h hreads default_str e
      (List.mem_append_right _ (List.mem_flatMap.2 ⟨i, List.mem_finRange i, he⟩))
  generalize Profile.setSource codec (w.writeConfig nulls) = p at hread
  simp only [gpioEntries, List.forall_mem_cons] at hread
  have hoff (d : QString) := (hread d).1
  have hon (d : QString) := (hread d).2.1
  have haddress (a : α) :
      stripWhiteSpace (cString (HostAddress.toString a)) = HostAddress.toString a := by
    rw [cString_eq fun c hc => (HostAddress.toString_plain a c hc).2.1,
      stripWhiteSpace_of_forall fun c hc => (HostAddress.toString_plain a c hc).1]
  have hoffAddress (d : QString) := (hread d).2.2.1.trans (haddress _)
  have honAddress (d : QString) := (hread d).2.2.2.1.trans (haddress _)
  have hport (n : Nat) (hn : n < 2 ^ 16) : - 2 ^ 31 ≤ (n : Int) ∧ (n : Int) < 2 ^ 31 := by omega
  have hoffPort := intValue_eq (hread []).2.2.2.2.1 (hport _ (BitVec.isLt _))
  have honPort := intValue_eq (hread []).2.2.2.2.2.1 (hport _ (BitVec.isLt _))
  simp only [readGpio, hoff, hon, hoffAddress, honAddress, hoffPort, honPort,
    HostAddress.setAddress_toString, BitVec.ofInt_natCast, BitVec.ofNat_toNat, BitVec.setWidth_eq]
  simp only [ClientSettings.setGpioCommand, ClientSettings.setGpioAddress,
    ClientSettings.setGpioPort, withGpio]
  rw [update_states (g := fun i state =>
      stripWhiteSpace (nulls.print (.gpioCommand i state))),
    update_states (g := w.net_settings.set_gpio_address),
    update_states (g := w.net_settings.set_gpio_port)]

/-- The loop reads the lines it goes over. -/
theorem foldl_readGpio (h : w.HasTexts) (hreads : codec.Reads (w.writeConfig nulls))
    (l : List (Fin 32)) (st : ClientSettings α × α) :
    (l.foldl (readGpio (Profile.setSource codec (w.writeConfig nulls))) st).1 =
      w.withGpio nulls l st.1 := by
  induction l generalizing st with
  | nil => simp [withGpio]
  | cons i l ih =>
      rw [List.foldl_cons, ih, readGpio_writeConfig h hreads]
      have hor {β : Type} (j : Fin 32) (a b : β) :
          (if j ∈ l then a else if j ∈ [i] then a else b) = if j ∈ i :: l then a else b := by
        by_cases hj : j ∈ l
        · rw [if_pos hj, if_pos (.tail _ hj)]
        · simp [hj]
      simp only [withGpio, hor]

/-- The settings that are read of the file of a client. -/
theorem readConfig_settings (h : w.HasTexts) (hreads : codec.Reads (w.writeConfig nulls)) (null : α)
    (w₀ : MainWidget α) : (w₀.readConfig codec null (w.writeConfig nulls)).net_settings =
      readLogin (w.net_settings.set_username ++ ':' :: w.net_settings.set_password)
        { w.net_settings with
          set_username := w₀.net_settings.set_username
          set_password := w₀.net_settings.set_password
          set_gpio_command := fun i state =>
            stripWhiteSpace (nulls.print (.gpioCommand i state)) } := by
  rw [readConfig]
  simp only [login_writeConfig h hreads, foldl_readGpio h hreads, readSettings_writeConfig h hreads,
    withGpio, List.mem_finRange, if_true]

/-- A text is read as what was printed of it, without the white space at the ends. -/
theorem readConfig_text (h : w.HasTexts) (hreads : codec.Reads (w.writeConfig nulls)) (null : α)
    (w₀ : MainWidget α) (field : TextField) :
    (w₀.readConfig codec null (w.writeConfig nulls)).text field =
      stripWhiteSpace (nulls.print field) := by
  obtain ⟨⟨hname, hphone, hemail⟩, -, -⟩ := readConfig_codec h hreads null w₀ rfl
  cases field with
  | rtpName => rw [text_rtpName, hname]
  | rtpPhone => rw [text_rtpPhone, hphone]
  | rtpEmail => rw [text_rtpEmail, hemail]
  | gpioCommand chan state =>
      rw [text_gpioCommand, readConfig_settings h hreads, readLogin, if_pos (by simp)]

/-- A client that reads the file another one has written, as it was written, has the settings of
that one if and only if the login name has no `:` in it, and the texts are not null and trimmed. -/
theorem restored_iff (h : w.HasTexts) (hreads : codec.Reads (w.writeConfig nulls)) (null : α)
    (w₀ : MainWidget α) : Restored w (w₀.readConfig codec null (w.writeConfig nulls)) ↔
      ':' ∉ w.net_settings.set_username ∧
        ∀ field, nulls.isNull field = false ∧ IsTrimmed (w.text field) := by
  have hsettings := readConfig_settings h hreads null w₀
  have htext := readConfig_text h hreads null w₀
  obtain ⟨-, hinput, houtput⟩ := readConfig_codec h hreads null w₀ rfl
  generalize w₀.readConfig codec null (w.writeConfig nulls) = w' at hsettings htext hinput houtput ⊢
  obtain ⟨husername, hpassword⟩ := readLogin_iff hsettings.symm
  rw [readLogin, if_pos (by simp)] at hsettings
  constructor
  · intro hrestored
    exact ⟨husername.1 hrestored.username, fun field =>
      stripWhiteSpace_print_iff.1 ((htext field).symm.trans (hrestored.text field))⟩
  · rintro ⟨hcolon, hfields⟩
    exact
      { username := husername.2 hcolon
        password := hpassword hcolon
        format := by
          rw [hsettings]
          exact fun _ => rfl
        channels := by
          rw [hsettings]
          exact fun _ => rfl
        sample_rate := by rw [hsettings]
        bit_rate := by
          rw [hsettings]
          exact fun _ => rfl
        stream_ratio := by
          rw [hsettings]
          exact fun _ => rfl
        enable_processor := by
          rw [hsettings]
          exact fun _ => rfl
        input_gain := by rw [hsettings]
        use_realtime := by rw [hsettings]
        rml_port := by rw [hsettings]
        input_device := hinput
        output_device := houtput
        text := fun field => (htext field).trans (stripWhiteSpace_print_iff.2 (hfields field))
        gpio_address := by
          rw [hsettings]
          exact fun _ _ => rfl
        gpio_port := by
          rw [hsettings]
          exact fun _ _ => rfl }

/-! ## Files that are read as something else -/

/-- A client that has no GPIO commands yet, as one that has just been started. -/
def Fresh (w : MainWidget α) : Prop := ∀ chan state, w.net_settings.set_gpio_command chan state = []

section
variable {c : Char} {p : Profile} {s : ClientSettings α}

/-- The commands that have been set have no more of a character than the profile has for them. -/
def CommandsBounded (p : Profile) (c : Char) (s : ClientSettings α) : Prop :=
  ∀ chan state, (s.set_gpio_command chan state).count c ≤
    (p.stringValue "NetISDN" (TextField.gpioCommand chan state).tag []).count c

omit [HostAddress α] in
/-- A command that is set from the profile has no more of a character than that has. -/
theorem CommandsBounded.setGpioCommand (h : CommandsBounded p c s)
    (chan : Fin 32) (state : Fin 2) : CommandsBounded p c (s.setGpioCommand chan state
      (p.stringValue "NetISDN" (TextField.gpioCommand chan state).tag
        (s.set_gpio_command chan state))) := by
  intro chan' state'
  have hset := count_stringValue_le (h chan state)
  simp only [ClientSettings.setGpioCommand]
  by_cases hchan : chan' = chan
  · subst hchan
    rw [Function.update_self]
    by_cases hstate : state' = state
    · subst hstate
      rw [Function.update_self]
      exact hset
    · rw [Function.update_of_ne hstate]
      exact h chan' state'
  · rw [Function.update_of_ne hchan]
    exact h chan' state'

variable {st : ClientSettings α × α}

/-- The step lemma: a pass of the loop. -/
theorem CommandsBounded.readGpio (h : CommandsBounded p c st.1) (i : Fin 32) :
    CommandsBounded p c (readGpio p st i).1 :=
  (h.setGpioCommand i 0).setGpioCommand i 1

/-- The run lemma: the loop. -/
theorem CommandsBounded.foldl (h : CommandsBounded p c st.1) (l : List (Fin 32)) :
    CommandsBounded p c (l.foldl (MainWidget.readGpio p) st).1 := by
  induction l generalizing st with
  | nil => exact h
  | cons i l ih =>
      rw [List.foldl_cons]
      exact ih (h.readGpio i)

end

/-- A text that a fresh client reads has no more of a character than the file has for it. -/
theorem count_text_le {w₀ : MainWidget α} {c : Char} (hfresh : w₀.Fresh) (null : α) (file : QString)
    (field : TextField) : ((w₀.readConfig codec null file).text field).count c ≤
      ((Profile.setSource codec file).stringValue "NetISDN" field.tag []).count c := by
  rw [readConfig]
  generalize Profile.setSource codec file = p
  have hkept : (readSettings p w₀.net_settings).set_gpio_command =
      w₀.net_settings.set_gpio_command := rfl
  have hstart : CommandsBounded p c (readSettings p w₀.net_settings) := fun chan state => by
    rw [hkept, hfresh]
    exact Nat.zero_le _
  cases field with
  | rtpName => rw [text_rtpName]; exact Nat.le_refl _
  | rtpPhone => rw [text_rtpPhone]; exact Nat.le_refl _
  | rtpEmail => rw [text_rtpEmail]; exact Nat.le_refl _
  | gpioCommand chan state =>
      have hloop : CommandsBounded p c ((List.finRange 32).foldl (MainWidget.readGpio p)
          (readSettings p w₀.net_settings, null)).1 := CommandsBounded.foldl hstart _
      specialize hloop chan state
      rw [text_gpioCommand, readLogin]
      split
      · exact hloop
      · exact hloop

/-- A fresh client that has the texts of another one after it has read its file has read the file as
it was written: what a codec changes loses characters, and the file has none to spare. -/
theorem reads_of_restored {w₀ : MainWidget α} {null : α} (hfresh : w₀.Fresh)
    (hrestored : Restored w (w₀.readConfig codec null (w.writeConfig nulls))) :
    codec.Reads (w.writeConfig nulls) := by
  refine codec.letters _ fun c hc => ?_
  have hentry : ∀ e ∈ w.configEntries nulls, e.2.count c ≤
      ((Profile.setSource codec (w.writeConfig nulls)).stringValue "NetISDN" e.1 []).count c := by
    intro e he
    rcases mem_configEntries he with hplain | ⟨field, rfl⟩
    · have hzero : e.2.count c = 0 := List.count_eq_zero.2 fun hmem => hc (hplain c hmem).2
      exact hzero.trans_le (Nat.zero_le _)
    · calc (nulls.print field).count c
          _ ≤ (w.text field).count c := count_print_le hc
          _ = ((w₀.readConfig codec null (w.writeConfig nulls)).text field).count c := by
            rw [hrestored.text field]
          _ ≤ _ := count_text_le hfresh null _ field
  have hnodup : ((w.configEntries nulls).map Prod.fst).Nodup :=
    configEntries_tags w nulls ▸ nodup_configTags
  calc (w.writeConfig nulls).count c
    _ = ((w.configEntries nulls).map fun e => e.2.count c).sum :=
      count_iniText isTag_NetISDN (fun e he => isTag_of_mem he) hc
    _ ≤ ((w.configEntries nulls).map fun e => ((Profile.setSource codec
          (w.writeConfig nulls)).stringValue "NetISDN" e.1 []).count c).sum :=
      List.sum_le_sum hentry
    _ = (((w.configEntries nulls).map Prod.fst).map fun tag => ((Profile.setSource codec
          (w.writeConfig nulls)).stringValue "NetISDN" tag []).count c).sum := by
      rw [List.map_map]
      rfl
    _ ≤ _ := sum_count_stringValue_le hnodup _

omit [HostAddress α] in
/-- Texts that are printed as they are. -/
theorem Survives.print_eq (h : w.Survives codec nulls) (field : TextField) :
    nulls.print field = w.text field := by
  rw [NullTexts.print, h.not_null field, if_neg Bool.false_ne_true,
    cString_eq fun c hc => ne_of_mem_of_not_mem hc (h.trimmed field).no_null]

/-- **A restart.** A client that reads the file another one has written has the settings of that one
if the login name has no `:` in it, and none of the RTP texts and GPIO commands is null, begins or
ends with white space, has a null character in it, or is changed by the codec of the locale. A
client that has just been started has them in no other case. -/
theorem readConfig_writeConfig_iff (codec : TextCodec) (h : w.HasTexts) (nulls : w.NullTexts)
    (null : α) (w₀ : MainWidget α) :
    (w.Survives codec nulls → Restored w (w₀.readConfig codec null (w.writeConfig nulls))) ∧
      (w₀.Fresh → Restored w (w₀.readConfig codec null (w.writeConfig nulls)) →
        w.Survives codec nulls) := by
  constructor
  · intro hsurvives
    have hreads : codec.Reads (w.writeConfig nulls) := reads_writeConfig_iff.2 fun field =>
      (hsurvives.print_eq field).symm ▸ hsurvives.reads field
    exact (restored_iff h hreads null w₀).2
      ⟨hsurvives.username, fun field => ⟨hsurvives.not_null field, hsurvives.trimmed field⟩⟩
  · intro hfresh hrestored
    have hreads := reads_of_restored hfresh hrestored
    obtain ⟨husername, hfields⟩ := (restored_iff h hreads null w₀).1 hrestored
    have hprinted := reads_writeConfig_iff.1 hreads
    refine ⟨husername, fun field => (hfields field).1, fun field => (hfields field).2, fun field =>
      ?_⟩
    obtain ⟨hnull, htrimmed⟩ := hfields field
    have hprint : nulls.print field = w.text field := by
      rw [NullTexts.print, hnull, if_neg Bool.false_ne_true,
        cString_eq fun c hc => ne_of_mem_of_not_mem hc htrimmed.no_null]
    exact hprint ▸ hprinted field

/-- The receive buffers are printed as `unsigned` and read as an `int`. -/
theorem readConfig_receiveBuffers (h : w.HasTexts) (hreads : codec.Reads (w.writeConfig nulls))
    (null : α) (w₀ : MainWidget α) :
    (w₀.readConfig codec null (w.writeConfig nulls)).net_codec.codec_buffer_setpoint =
      if w.net_codec.codec_buffer_setpoint.toNat < 2 ^ 31 then w.net_codec.codec_buffer_setpoint
      else w₀.net_codec.codec_buffer_setpoint := by
  have hread := stringValue_general h hreads []
  have hcodec : (w₀.readConfig codec null (w.writeConfig nulls)).net_codec.codec_buffer_setpoint =
      readNumber (Profile.setSource codec (w.writeConfig nulls)) "ReceiveBuffers"
        w₀.net_codec.codec_buffer_setpoint.toInt := rfl
  rw [hcodec]
  generalize Profile.setSource codec (w.writeConfig nulls) = p at hread
  simp only [generalEntries, List.forall_mem_cons] at hread
  obtain ⟨-, -, -, -, -, -, -, -, -, -, -, -, -, -, -, -, hbuffers, -⟩ := hread
  have hnumber (k : Nat) : stripWhiteSpace (sprintfU k) = sprintfU k :=
    stripWhiteSpace_of_forall fun c hc => isSpace_of_isDigit (isDigit_of_mem_sprintfU hc)
  rw [readNumber, Profile.intValue, hbuffers, hnumber]
  split
  · next hlt => rw [toInt?_sprintfU hlt, Option.getD_some, BitVec.ofInt_natCast, BitVec.ofNat_toNat,
      BitVec.setWidth_eq]
  · next hle => rw [toInt?_sprintfU_of_le (not_lt.1 hle), Option.getD_none, BitVec.ofInt_toInt]

end

/-! ## Two clients -/

/-- A client with an RTP name. -/
def named (name : QString) : MainWidget QHostAddress where
  net_settings :=
    { set_format := fun _ => .vorbis
      set_channels := fun _ => 2
      set_sample_rate := 44100
      set_username := "studio"
      set_password := "a:b c"
      set_gpio_command := fun _ _ => "Play = [1]"
      set_gpio_address := fun _ _ => ⟨0xc0a80001⟩ }
  net_codec :=
    { codec_sdes_fields := fun field => if field = .sdesName then name else []
      codec_input_pdev := 1
      codec_output_pdev := -1
      codec_buffer_setpoint := 4
      codec_transmit_cname := [] }

/-- A client with default settings has the name it was given. -/
theorem named_hasTexts {name : QString} (h : IsText name) : (named name).HasTexts where
  username := (isText_of_all (by decide) : IsText "studio")
  password := (isText_of_all (by decide) : IsText "a:b c")
  text
    | .rtpName => h
    | .rtpPhone => (isText_of_all (by decide) : IsText [])
    | .rtpEmail => (isText_of_all (by decide) : IsText [])
    | .gpioCommand _ _ => (isText_of_all (by decide) : IsText "Play = [1]")

/-- None of the texts is null. -/
def noNulls (w : MainWidget α) : w.NullTexts where
  isNull _ := false
  isEmpty := fun _ h => Bool.noConfusion h

/-- A client whose texts survive in every locale. -/
theorem readConfig_writeConfig_demo : Restored (named "Studio A")
    ((named []).readConfig TextCodec.latin1 QHostAddress.null
      ((named "Studio A").writeConfig (noNulls _))) := by
  refine (readConfig_writeConfig_iff TextCodec.latin1 (named_hasTexts (isText_of_all (by decide)))
    (noNulls _) QHostAddress.null (named [])).1
    { username := by decide
      not_null := fun _ => rfl
      trimmed := ?_
      reads := fun _ => rfl }
  intro field
  cases field with
  | rtpName => exact (isTrimmed_of_all (by decide) : IsTrimmed "Studio A")
  | rtpPhone => exact (isTrimmed_of_all (by decide) : IsTrimmed [])
  | rtpEmail => exact (isTrimmed_of_all (by decide) : IsTrimmed [])
  | gpioCommand chan state => exact (isTrimmed_of_all (by decide) : IsTrimmed "Play = [1]")

/-- The name `" Studio A"` is read without the blank in front of it. -/
theorem readConfig_not_restored : ¬∀ (codec : TextCodec) (null : QHostAddress)
    (w w₀ : MainWidget QHostAddress) (nulls : w.NullTexts), w.HasTexts →
    Restored w (w₀.readConfig codec null (w.writeConfig nulls)) := by
  intro hall
  have htexts : (named " Studio A").HasTexts := named_hasTexts (isText_of_all (by decide))
  have hrestored := hall TextCodec.latin1 QHostAddress.null _ (named []) (noNulls _) htexts
  obtain ⟨-, hfields⟩ :=
    (restored_iff htexts TextCodec.reads_latin1 QHostAddress.null _).1 hrestored
  have hfirst := (hfields .rtpName).2.first ' ' rfl
  revert hfirst
  decide

end MainWidget

end NetISDN
