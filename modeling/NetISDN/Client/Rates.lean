import NetISDN.Client.MirrorImages

/-!
# The rate of an encoder

The settings dialog offers rates in kbit/s for Layer 3 and Vorbis, and qualities for Speex. `okData`
stores a thousand times the selected number, a call carries it to the client that transmits, and
`connectToHost` divides it by 1000. For Speex `InitEncoder` divides by 1000 once more: the encoder
gets the number that was selected with the other formats, and quality 0 with Speex
(`MainObject.ratesArrive_iff`).
-/

namespace NetISDN

open AudioSettings

/-! ## The dialog -/

/-- The numbers of the rate box (`CheckSettings`, `audiosettings_dialog.cpp:665`). -/
def offered (fmt : Format) (channels samprate : Int) : List Nat :=
  match fmt with
  | .vorbis =>
      if channels = 1 ∨ channels = 2 then [64, 96, 128, 160, 192, 224, 256, 288, 320, 352, 384]
      else []
  | .speex => [0, 1, 2, 3, 4, 5, 6, 7, 8, 9, 10]
  | .layer3 =>
      if samprate = 32000 then
        if channels = 1 then [48, 56, 64, 80, 96, 112, 128, 160, 192, 224, 256, 320]
        else if channels = 2 then [128, 160, 192, 224, 256, 320]
        else []
      else if samprate = 48000 then
        if channels = 1 then [64, 80, 96, 112, 128, 160, 192, 224, 256, 320]
        else if channels = 2 then [128, 160, 192, 224, 256, 320]
        else []
      else []
  | .noFormat | .unnamed _ _ => []

/-- A number as the rate box shows it. -/
def rateText (fmt : Format) (q : Nat) : QString :=
  if fmt = .speex then sprintfU q else sprintfU q ++ " kbps"

/-- `sscanf(str,"%d",&rate)`. A text that does not begin with a number leaves `rate` as it is. -/
def scanRate (str : QString) (rate : BitVec 32) : BitVec 32 :=
  let p := str.dropWhile isSpace
  let digits := (spanDigits (if p.head? = some '-' ∨ p.head? = some '+' then p.tail else p)).1
  if digits = [] then rate
  else if p.head? = some '-' then -BitVec.ofNat 32 (Nat.ofDigitChars 10 digits 0)
  else BitVec.ofNat 32 (Nat.ofDigitChars 10 digits 0)

/-- The fields of `AudioSettingsDialog` that `okData` reads: the texts of the boxes, and the indices
of their current items. -/
structure AudioSettingsDialog where
  username_edit : QString
  format_box : Direction → QString
  channels_box : Direction → Nat
  bitrate_box : Direction → QString
  samprate_box : QString
  preprocess_box : Direction → Bool
  hyperstream_box : Direction → Nat

namespace AudioSettingsDialog

/-- `ReadFormat` (`audiosettings_dialog.cpp:1073`). -/
def readFormat (d : AudioSettingsDialog) (dir : Direction) : Format :=
  if dir = .receive ∧ d.format_box dir = "Use Transmit Settings" then .noFormat
  else if d.format_box dir = "Vorbis" then .vorbis
  else if d.format_box dir = "MPEG Layer 3" then .layer3
  else .speex

/-- The ratio of a hyperstream box. -/
def streamRatio (d : AudioSettingsDialog) (dir : Direction) : BitVec 32 :=
  if d.hyperstream_box dir = 1 then 2 else 1

/-- `okData` (`audiosettings_dialog.cpp:567`), up to the fields that are no settings; without a user
name it stores nothing. `rate` is one variable for all three numbers. -/
def okData (d : AudioSettingsDialog) (s : AudioSettings) : Option AudioSettings :=
  if d.username_edit = [] then none
  else
    let rate := scanRate (d.bitrate_box .transmit) 0
    let s := s
      |>.setFormat .transmit (d.readFormat .transmit)
      |>.setChannels .transmit (BitVec.ofNat 32 (d.channels_box .transmit + 1))
      |>.setBitRate .transmit (rate * 1000)
      |>.setFormat .receive (d.readFormat .receive)
      |>.setChannels .receive (BitVec.ofNat 32 (d.channels_box .receive + 1))
    let rate := if d.bitrate_box .receive ≠ [] then scanRate (d.bitrate_box .receive) 0 else 0
    some (s
      |>.setBitRate .receive (rate * 1000)
      |>.setSampleRate (scanRate d.samprate_box rate)
      |>.setEnableProcessor .transmit (d.preprocess_box .transmit)
      |>.setEnableProcessor .receive (d.preprocess_box .receive)
      |>.setStreamRatio .transmit (d.streamRatio .transmit)
      |>.setStreamRatio .receive (d.streamRatio .receive)
      |>.setUsername d.username_edit)

/-- In the rate box of a direction `q` is selected, one of the numbers offered for its format. -/
def Selected (d : AudioSettingsDialog) (dir : Direction) (q : Nat) : Prop :=
  (∃ channels samprate, q ∈ offered (d.readFormat dir) channels samprate) ∧
    d.bitrate_box dir = rateText (d.readFormat dir) q

/-- The direction whose boxes count: with `Use Transmit Settings` those of the other one. -/
def vector (d : AudioSettingsDialog) (dir : Direction) : Direction :=
  if d.readFormat .receive = .noFormat then .transmit else dir

end AudioSettingsDialog

/-! ## The encoder -/

/-- A call of an initialiser by `InitEncoder`. -/
inductive EncoderCall where
  | initLayer3Encoder (chans samprate bitrate : BitVec 32)
  | initSpeexEncoder (samprate quality : BitVec 32)
  | initVorbisEncoder (chans samprate bitrate : BitVec 32)
  deriving DecidableEq

/-- The format of an initialiser. -/
def EncoderCall.format : EncoderCall → Format
  | .initLayer3Encoder _ _ _ => .layer3
  | .initSpeexEncoder _ _ => .speex
  | .initVorbisEncoder _ _ _ => .vorbis

/-- The rate or quality that an initialiser receives. -/
def EncoderCall.rate : EncoderCall → BitVec 32
  | .initLayer3Encoder _ _ bitrate => bitrate
  | .initSpeexEncoder _ quality => quality
  | .initVorbisEncoder _ _ bitrate => bitrate

/-- The switch of `InitEncoder` (`codec.cpp:918`). -/
def encoderCall (format : Format) (chans samprate bitrate : BitVec 32) : Option EncoderCall :=
  match format with
  | .layer3 => some (.initLayer3Encoder chans samprate bitrate)
  | .speex => some (.initSpeexEncoder samprate (bitrate / 1000))
  | .vorbis => some (.initVorbisEncoder chans samprate bitrate)
  | .noFormat | .unnamed _ _ => none

/-- The call of `InitEncoder` by `connectToHost` (`codec.cpp:570`), on a codec that is idle. -/
def connectEncoder (s : AudioSettings) : Option EncoderCall :=
  encoderCall (s.format .transmit) (s.channels .transmit) s.sampleRate (s.bitRate .transmit / 1000)

/-- The initialiser of the format receives exactly `q`. -/
def Receives (s : AudioSettings) (format : Format) (q : Nat) : Prop :=
  ∃ call, connectEncoder s = some call ∧ call.format = format ∧ call.rate = BitVec.ofNat 32 q

/-! ## From the dialog to the encoder -/

section
variable {fmt : Format} {q : Nat} {channels samprate : Int} {d : AudioSettingsDialog}
  {s settings : AudioSettings} {dir : Direction} {chans : BitVec 32}

/-- The numbers are small, and a quality is at most 10. -/
theorem offered_le (h : q ∈ offered fmt channels samprate) : q ≤ 384 ∧ (fmt = .speex → q ≤ 10) := by
  have hle {l : List Nat} {n : Nat} (hq : q ∈ l) (hl : l.all (· ≤ n) = true) : q ≤ n :=
    of_decide_eq_true (List.all_eq_true.1 hl q hq)
  cases fmt with
  | noFormat => cases h
  | unnamed => cases h
  | speex => exact ⟨hle h rfl, fun _ => hle h rfl⟩
  | vorbis =>
      refine ⟨?_, nofun⟩
      simp only [offered] at h
      split at h
      · exact hle h rfl
      · cases h
  | layer3 =>
      refine ⟨?_, nofun⟩
      simp only [offered] at h
      split_ifs at h
      · exact hle h rfl
      · exact hle h rfl
      · cases h
      · exact hle h rfl
      · exact hle h rfl
      · cases h
      · cases h

/-- `sscanf` reads the number at the front of a text. -/
theorem scanRate_append {rest : QString} (hrest : ∀ c ∈ rest.head?, c.isDigit = false)
    (rate : BitVec 32) : scanRate (sprintfU q ++ rest) rate = BitVec.ofNat 32 q := by
  obtain ⟨c, cs, hcs, hc⟩ := exists_sprintfU q
  obtain ⟨-, hplus, hminus⟩ := @dropWhile_sprintfU q
  have hdrop : (sprintfU q ++ rest).dropWhile isSpace = sprintfU q ++ rest := by
    rw [hcs, List.cons_append, List.dropWhile_cons, isSpace_of_isDigit hc]
    rfl
  have hhead : (sprintfU q ++ rest).head? = (sprintfU q).head? := by
    rw [hcs, List.cons_append, List.head?_cons, List.head?_cons]
  have hspan : (spanDigits (sprintfU q ++ rest)).1 = sprintfU q := by
    rw [spanDigits, List.takeWhile_append_of_pos fun x hx => isDigit_of_mem_sprintfU hx]
    cases rest with
    | nil => exact List.append_nil _
    | cons x rest =>
        rw [List.takeWhile_cons_of_neg (ne_true_of_eq_false (hrest x rfl)), List.append_nil]
  simp only [scanRate, hdrop, hhead, hminus, hplus, or_self, if_false, hspan, sprintfU_ne_nil]
  rw [sprintfU, Nat.ofDigitChars_ten_toDigits]

/-- `sscanf` reads back what the rate box shows. -/
theorem scanRate_rateText (rate : BitVec 32) :
    scanRate (rateText fmt q) rate = BitVec.ofNat 32 q := by
  rw [rateText]
  split
  · have h := @scanRate_append q [] (fun c hc => nomatch hc) rate
    rwa [List.append_nil] at h
  · exact scanRate_append (fun c hc => by cases hc; rfl) rate

/-- A rate is never written as nothing. -/
theorem rateText_ne_nil : rateText fmt q ≠ [] := by
  rw [rateText]
  split
  · exact sprintfU_ne_nil
  · exact List.append_ne_nil_of_left_ne_nil sprintfU_ne_nil _

/-- What `okData` stores in one direction. -/
theorem okData_fields (h : d.okData s = some settings) (dir : Direction) :
    settings.set_format dir = d.readFormat dir ∧
    (d.Selected dir q → settings.set_bit_rate dir = BitVec.ofNat 32 q * 1000) := by
  rw [AudioSettingsDialog.okData] at h
  split at h
  · cases h
  · obtain rfl := Option.some.inj h
    cases dir with
    | transmit =>
        refine ⟨rfl, fun hq => ?_⟩
        exact congrArg (· * 1000) (by rw [hq.2, scanRate_rateText])
    | receive =>
        refine ⟨rfl, fun hq => ?_⟩
        exact congrArg (· * 1000) (by rw [hq.2, if_pos rateText_ne_nil, scanRate_rateText])

/-- What the settings that `okData` stores say of a direction. -/
theorem okData_spec (h : d.okData s = some settings) (dir : Direction) :
    settings.format dir = d.readFormat (d.vector dir) ∧
    (d.Selected (d.vector dir) q → settings.bitRate dir = BitVec.ofNat 32 q * 1000) := by
  have hvector : settings.autoVector dir = d.vector dir := by
    rw [autoVector, (okData_fields (q := 0) h .receive).1]
    rfl
  rw [format, bitRate, hvector]
  exact okData_fields h _

/-- What an initialiser receives of a number that was multiplied by 1000. -/
theorem receives_iff (hq : q ∈ offered fmt channels samprate)
    (hformat : s.format .transmit = fmt) (hrate : s.bitRate .transmit = BitVec.ofNat 32 q * 1000) :
    Receives s fmt q ↔ fmt ≠ .speex ∨ q = 0 := by
  obtain ⟨hle, hquality⟩ := offered_le hq
  have hdiv : BitVec.ofNat 32 q * 1000 / 1000 = BitVec.ofNat 32 q := by
    refine BitVec.eq_of_toNat_eq ?_
    have hmul : (BitVec.ofNat 32 q * 1000).toNat = q * 1000 := by
      rw [BitVec.toNat_mul, BitVec.toNat_ofNat, Nat.mod_eq_of_lt (show q < 2 ^ 32 by omega)]
      exact Nat.mod_eq_of_lt (show q * 1000 < 2 ^ 32 by omega)
    rw [BitVec.toNat_udiv, hmul, BitVec.toNat_ofNat, Nat.mod_eq_of_lt (show q < 2 ^ 32 by omega)]
    exact Nat.mul_div_cancel q (by decide)
  rw [Receives, connectEncoder, hformat, hrate, hdiv]
  cases fmt with
  | noFormat => cases hq
  | unnamed => cases hq
  | layer3 => exact iff_of_true ⟨_, rfl, rfl, rfl⟩ (.inl nofun)
  | vorbis => exact iff_of_true ⟨_, rfl, rfl, rfl⟩ (.inl nofun)
  | speex =>
      have hzero : BitVec.ofNat 32 q / 1000 = 0 := by
        apply BitVec.eq_of_toNat_eq
        have := hquality rfl
        simp
        omega
      rw [or_iff_right (not_not.2 rfl)]
      constructor
      · rintro ⟨call, hcall, -, hreceived⟩
        obtain rfl := Option.some.inj hcall
        have hzero' : BitVec.ofNat 32 q = 0 := hreceived.symm.trans hzero
        have hnat := congrArg BitVec.toNat hzero'
        simp at hnat
        omega
      · rintro rfl
        exact ⟨_, rfl, rfl, rfl⟩

end

namespace MainObject

open ControlConnect

/-- The clients of both ends of a call start the media, and the initialiser of the encoder that
sends in a direction, as the caller has it, receives the rate `q` that was selected for it in the
dialog: the caller's encoder where he transmits, the callee's where he receives. -/
def RateArrives (env : Env) (b : Build) (dialog : AudioSettingsDialog) (fd d : Int)
    (out : List Output) (dir : Direction) (q : Nat) : Prop :=
  ∃ caller callee, MediaEnds env b fd d out caller callee ∧
    Receives (if dir = .transmit then caller else callee).settings
      (dialog.readFormat (dialog.vector dir)) q

section
variable {env : Env} {b : Build} {s s' : MainObject} {e : Event} {out : List Output} {fd d : Int}
  {c cd : SipConnection} {name : QString} {settings s₀ : AudioSettings}
  {dialog : AudioSettingsDialog} {q q' : Nat}

/-- The transmit format box names a format. -/
theorem readFormat_transmit_ne : dialog.readFormat .transmit ≠ .noFormat := by
  rw [AudioSettingsDialog.readFormat, if_neg fun h => nomatch h.1]
  split_ifs
  · exact nofun
  · exact nofun
  · exact nofun

/-- The rate that is read is the one that was entered, but for Speex. -/
theorem receives_of_stream {read : AudioSettings} {dir : Direction}
    (hok : dialog.okData s₀ = some settings) (hq : dialog.Selected (dialog.vector dir) q)
    (hstream : read.stream .transmit = settings.stream dir) :
    Receives read (dialog.readFormat (dialog.vector dir)) q ↔
      dialog.readFormat (dialog.vector dir) ≠ .speex ∨ q = 0 := by
  obtain ⟨channels, samprate, hoffered⟩ := hq.1
  obtain ⟨hformat, hrate⟩ := okData_spec (q := q) hok dir
  have hstream' := Prod.mk.inj hstream
  refine receives_iff hoffered (hstream'.1.trans hformat) ?_
  exact (Prod.mk.inj hstream'.2).2.trans (hrate hq)

/-- The clients of both ends transmit with the settings of the caller for their direction. -/
theorem media_of_okData (hb : b.mpegL3 = true ∨ ∀ dir, dialog.readFormat dir ≠ .layer3)
    (h : Calls s e name settings fd d c cd) (hname : IsName name) (hcaller : IsName c.username)
    (hcallee : IsName cd.username) (haddr : (callAddrs c cd).1.isNull = false)
    (haddr' : (callAddrs c cd).2.isNull = false) (hs : step env s e = some (s', out))
    (hok : dialog.okData s₀ = some settings) :
    ∃ caller callee, MediaEnds env b fd d out caller callee ∧
      caller.settings.stream .transmit = settings.stream .transmit ∧
      callee.settings.stream .transmit = settings.stream .receive := by
  have htransmit : settings.set_format .transmit ≠ .noFormat := by
    rw [(okData_fields (q := 0) hok .transmit).1]
    exact readFormat_transmit_ne
  have hformat := format_ne_noFormat htransmit
  have hbuild : b.mpegL3 = true ∨ ∀ dir, settings.format dir ≠ .layer3 :=
    hb.imp_right fun hall dir => (okData_spec (q := 0) hok dir).1 ▸ hall _
  obtain ⟨addr, addr', port, port', hends⟩ :=
    ends_of_calls hbuild h hname hcaller hcallee haddr haddr' htransmit hs
  exact ⟨_, _, hends, (caller_settings _ _ _ _ (hformat .receive)).1,
    (callee_settings _ _ _ _ (hformat .transmit)).1⟩

/-- **The initialiser of each direction receives what was selected for it if and only if** the
format of that direction is not Speex or the quality is 0. -/
theorem ratesArrive_iff (hb : b.mpegL3 = true ∨ ∀ dir, dialog.readFormat dir ≠ .layer3)
    (h : Calls s e name settings fd d c cd) (hname : IsName name) (hcaller : IsName c.username)
    (hcallee : IsName cd.username) (haddr : (callAddrs c cd).1.isNull = false)
    (haddr' : (callAddrs c cd).2.isNull = false) (hs : step env s e = some (s', out))
    (hok : dialog.okData s₀ = some settings) (dir : Direction)
    (hq : dialog.Selected (dialog.vector dir) q) :
    RateArrives env b dialog fd d out dir q ↔
      dialog.readFormat (dialog.vector dir) ≠ .speex ∨ q = 0 := by
  obtain ⟨caller, callee, hends, hforth, hback⟩ :=
    media_of_okData hb h hname hcaller hcallee haddr haddr' hs hok
  have hstream : (if dir = .transmit then caller else callee).settings.stream .transmit =
      settings.stream dir := by
    cases dir with
    | transmit => exact hforth
    | receive => exact hback
  rw [← receives_of_stream hok hq hstream]
  constructor
  · rintro ⟨caller', callee', hends', hrate⟩
    obtain ⟨rfl, rfl⟩ := hends.det hends'
    exact hrate
  · intro hrate
    exact ⟨caller, callee, hends, hrate⟩

end

/-- Alice selects a quality of Speex for both directions. -/
def speexDialog (q : Nat) : AudioSettingsDialog where
  username_edit := "alice"
  format_box dir := if dir = .transmit then "Speex" else "Use Transmit Settings"
  channels_box _ := 0
  bitrate_box dir := if dir = .transmit then sprintfU q else []
  samprate_box := "32000"
  preprocess_box _ := false
  hyperstream_box _ := 0

/-- Vorbis at 128 kbit/s one way and Layer 3 at 64 kbit/s the other. -/
def vorbisDialog : AudioSettingsDialog where
  username_edit := "alice"
  format_box dir := if dir = .transmit then "Vorbis" else "MPEG Layer 3"
  channels_box dir := if dir = .transmit then 1 else 0
  bitrate_box dir := if dir = .transmit then "128 kbps" else "64 kbps"
  samprate_box := "48000"
  preprocess_box _ := false
  hyperstream_box _ := 0

/-- The caller's name is a name. -/
theorem isName_alice : IsName "alice" := ⟨by decide, by decide, by decide⟩

/-- The callee's name is a name. -/
theorem isName_bob : IsName "bob" := ⟨by decide, by decide, by decide⟩

/-- A call in Vorbis whose rates arrive. -/
theorem ratesArrive_iff_demo : ∃ settings s' out, vorbisDialog.okData {} = some settings ∧
    step demoEnv (calling settings) demoEnd = some (s', out) ∧
    RateArrives demoEnv ⟨true, []⟩ vorbisDialog 5 6 out .transmit 128 ∧
    RateArrives demoEnv ⟨true, []⟩ vorbisDialog 5 6 out .receive 64 := by
  obtain ⟨settings, hok, hstep⟩ : ∃ settings, vorbisDialog.okData {} = some settings ∧
      (step demoEnv (calling settings) demoEnd).isSome = true := ⟨_, rfl, by decide +kernel⟩
  obtain ⟨⟨s', out⟩, hs⟩ := Option.isSome_iff_exists.1 hstep
  have hq : vorbisDialog.Selected (vorbisDialog.vector .transmit) 128 :=
    ⟨⟨2, 48000, by decide⟩, by decide⟩
  have hq' : vorbisDialog.Selected (vorbisDialog.vector .receive) 64 :=
    ⟨⟨1, 48000, by decide⟩, by decide⟩
  refine ⟨settings, s', out, hok, hs, ?_, ?_⟩
  · exact (ratesArrive_iff (.inl rfl) (calls_calling settings) isName_bob isName_alice
      isName_bob rfl
      rfl hs hok .transmit hq).2 (.inl (by decide))
  · exact (ratesArrive_iff (.inl rfl) (calls_calling settings) isName_bob isName_alice
      isName_bob rfl
      rfl hs hok .receive hq').2 (.inl (by decide))

/-- Quality 8 arrives as 0. -/
theorem ratesArrive_fails : ∃ settings s' out, (speexDialog 8).okData {} = some settings ∧
    step demoEnv (calling settings) demoEnd = some (s', out) ∧
    ¬ RateArrives demoEnv ⟨true, []⟩ (speexDialog 8) 5 6 out .transmit 8 := by
  obtain ⟨settings, hok, hstep⟩ : ∃ settings, (speexDialog 8).okData {} = some settings ∧
      (step demoEnv (calling settings) demoEnd).isSome = true := ⟨_, rfl, by decide +kernel⟩
  obtain ⟨⟨s', out⟩, hs⟩ := Option.isSome_iff_exists.1 hstep
  refine ⟨settings, s', out, hok, hs, ?_⟩
  rintro ⟨caller', callee', hends', hreceives⟩
  obtain ⟨caller, callee, hends, hforth, -⟩ := media_of_okData (b := ⟨true, []⟩) (.inl rfl)
    (calls_calling settings) isName_bob isName_alice isName_bob rfl rfl hs hok
  obtain ⟨rfl, rfl⟩ := hends.det hends'
  have hq : (speexDialog 8).Selected .transmit 8 := ⟨⟨1, 32000, by decide⟩, by decide⟩
  rcases (receives_of_stream hok hq hforth).1 hreceives with hformat | hzero
  · exact hformat (by decide)
  · cases hzero

end MainObject

end NetISDN
