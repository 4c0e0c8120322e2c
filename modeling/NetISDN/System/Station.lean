import NetISDN.Client.Instructions
import NetISDN.Lib.IdleCodec
import NetISDN.System.Commands

/-!
# A client program

`MainWidget` (`netisdn.cpp`) as far as calls are concerned: its control connection and its codec,
whose signals it joins. Its slots are steps of their own, since no event is handled within one. What
a client plays is what its codec was started with (`Station.playing`), and each byte that it reads
does to that what the command says that the byte completes (`Station.readByte_mark`).
-/

namespace NetISDN

open AudioSettings ControlConnect Steering Framing

/-- What a client meets while it handles an event: how the calls in `connectToHost` turn out, the
headers of a Vorbis encoder, and whether libvorbis takes those that arrive. -/
structure Surroundings where
  outcome : Outcome := {}
  headers : List (BitVec 8) × List (BitVec 8) × List (BitVec 8) := ([], [], [])
  accepted : Bool := true

/-- The client can start what is offered: the calls in `connectToHost` succeed. -/
def Surroundings.Opens (w : Surroundings) (m : MediaStart) : Prop :=
  (w.outcome.opens m.addr && w.outcome.srcNew && w.outcome.streams) = true

instance (w : Surroundings) (m : MediaStart) : Decidable (w.Opens m) :=
  inferInstanceAs (Decidable (_ = true))

/-- `MainWidget`. `src_port` is the port to which `InitSockets` has bound the RTP socket. -/
structure Station where
  build : Build
  net_control : ControlConnect := {}
  net_codec : CodecSession := {}
  net_settings : AudioSettings := {}
  src_port : BitVec 16 := 0

namespace Station

/-- The slot `disconnect` of the codec is called. -/
def disconnect (s : Station) : Option Station :=
  s.net_codec.disconnect.map fun x => { s with net_codec := x.1 }

/-- `responseReceivedData` (`netisdn.cpp:354`). Of the responses this one alone does more than to
change the window. The message box that it shows is taken to be closed before anything else arrives.
-/
def responseReceivedData (s : Station) (code : Nat) : Option Station :=
  if code = ResponseCode.formatUnsupported.toNat then
    { s with net_control := s.net_control.endCall }.disconnect
  else some s

/-- The signal `codebookChanged` of `InitVorbisEncoder` (`codec.cpp:1376`), if `connectToHost` gets
there. -/
def codebookChanged (w : Surroundings) (s : Station) (settings : AudioSettings) : ControlConnect :=
  if s.net_codec.connectionState = .idle ∧ settings.format .transmit = .vorbis then
    s.net_control.sendCodebook (NetDataToBase64 w.headers.1) (NetDataToBase64 w.headers.2.1)
      (NetDataToBase64 w.headers.2.2)
  else s.net_control

section
variable (lib : Libraries) (w : Surroundings)

/-- `mediaStartReceivedData` (`netisdn.cpp:429`). -/
def mediaStartReceivedData (s : Station) (src_port : BitVec 16) (addr : QHostAddress)
    (dest_port : BitVec 16) (settings : AudioSettings) : Option Station :=
  (s.net_codec.connectToHost lib addr dest_port settings w.outcome).map fun x => { s with
    net_control := s.codebookChanged w settings
    net_codec := x.1
    src_port := if s.net_codec.connectionState = .idle then src_port else s.src_port }

/-- What is connected to a signal of the control connection. -/
def receive (s : Station) : Signal → Option Station
  | .responseReceived code => s.responseReceivedData code
  | .mediaStartReceived src_port addr dest_port settings =>
      s.mediaStartReceivedData lib w src_port addr dest_port settings
  | .mediaStopReceived => s.disconnect
  | .codebookReceived _ _ _ =>
      (s.net_codec.setCodebook w.accepted).map fun codec => { s with net_codec := codec }
  | .metadataReceived _ _ => some s

/-- The signals that the control connection has emitted are received. -/
def handleSignals (s : Station) : Option Station :=
  s.net_control.signals.foldlM (receive lib w)
    { s with net_control := { s.net_control with signals := [] } }

/-- The client reads a byte. -/
def readByte (env : Env) (s : Station) (byte : Char) : Option Station :=
  { s with
    net_control := { s.net_control with signals := [] }.readByte env s.build byte
  }.handleSignals
    lib w

end

/-- `connectClickedData` (`netisdn.cpp:512`). -/
def connectClickedData (s : Station) (uri : QString) : Station :=
  match s.net_codec.connectionState with
  | .connecting | .connected => { s with net_control := s.net_control.endCall }
  | .idle => { s with net_control := s.net_control.initiateCall uri s.net_settings }

/-- What the settings dialog leaves: the login, the settings, and the texts of the RTP identity.
`written` tells whether `WriteConfig` can write the settings file. -/
structure Entered where
  username : QString
  password : QString
  settings : AudioSettings
  name : QString
  email : QString
  phone : QString
  written : Bool := true

/-- The metadata that `WriteConfig` sends (`netisdn.cpp:1061`). -/
def writeConfig (c : ControlConnect) (d : Entered) : ControlConnect :=
  if d.written then
    ((c.sendMetadata .name d.name).sendMetadata .email d.email).sendMetadata .phone d.phone
  else c

/-- `ControlConnect::connectToHost` (`controlconnect.cpp:53`) on a socket that is connected. -/
def connectToHost (b : Build) (c : ControlConnect) (username passwd : QString) : ControlConnect :=
  { c with
    conn_username := username
    conn_password := passwd }.connectedData b

/-- `settingsClickedData` (`netisdn.cpp:527`), of which `controlRegistrationData` is the end. -/
def settingsClickedData (s : Station) (d : Entered) : Station :=
  { s with
    net_settings := d.settings
    net_control := connectToHost s.build (writeConfig s.net_control d) d.username d.password }

/-- What happens at a client, apart from what the server sends: a click, the timer that logs in
again, the settings dialog, and what the codec's timers, its peer and the audio thread do. -/
inductive Act where
  | connectClickedData (uri : QString)
  | connectedData
  | settingsClickedData (d : Entered)
  | bye
  | timeoutData
  | meterData
  | audio (locked : Bool)

/-- The codec's timer and its peer end a call that the server knows nothing of. -/
def Act.behindBack : Act → Bool
  | .bye | .timeoutData => true
  | .connectClickedData _ | .connectedData | .settingsClickedData _ | .meterData | .audio _ => false

/-- What a client does. The settings button is disabled in a call. -/
def act (lib : Libraries) (s : Station) : Act → Option Station
  | .connectClickedData uri => some (s.connectClickedData uri)
  | .connectedData => some { s with net_control := s.net_control.connectedData s.build }
  | .settingsClickedData d =>
      if s.net_codec.connectionState = .idle then some (s.settingsClickedData d) else none
  | .bye => codec .bye
  | .timeoutData => codec .timeoutData
  | .meterData => codec .meterData
  | .audio locked => codec (.audio locked)
where
  codec (e : CodecSession.Event) : Option Station :=
    (CodecSession.step lib s.net_codec e).map fun x => { s with net_codec := x.1 }

/-- What was written has left. -/
def flush (s : Station) : Station := { s with net_control := { s.net_control with sent := [] } }

/-- What a client plays: the port at which it listens, the address and the port to which it sends,
and the settings. -/
def playing (s : Station) : Option MediaStart :=
  if s.net_codec.connectionState = .idle then none
  else some ⟨s.src_port, s.net_codec.destAddr.getD .null, s.net_codec.port, s.net_codec.settings⟩

/-! ## What a client plays -/

section
variable {lib : Libraries} {w : Surroundings} {env : Env} {s s' : Station} {c c' : CodecSession}
  {out : List CodecEvent} {m : MediaStart} {byte : Char} {signal : Signal}

/-- A codec that has been started sends where it was told to. -/
theorem connectToHost_dest {addr : QHostAddress} {port : BitVec 16} {settings : AudioSettings}
    {o : Outcome} (hidle : c.connectionState = .idle)
    (ho : (o.opens addr && o.srcNew && o.streams) = true)
    (h : c.connectToHost lib addr port settings o = some (c', out)) :
    c'.destAddr = some addr ∧ c'.port = port := by
  unfold CodecSession.connectToHost at h
  rw [if_neg (not_not.2 hidle)] at h
  simp only [Option.bind_eq_bind, Option.bind_eq_some_iff] at h
  obtain ⟨c₁, h₁, c₂, h₂, h⟩ := h
  obtain ⟨l₂, rfl, -⟩ := CodecSession.initCodec_spec rfl h₁ h₂
  simp only [Outcome.opens, Bool.and_eq_true, Bool.not_eq_true'] at ho
  obtain ⟨⟨⟨⟨hrtp, hrtcp⟩, hnull⟩, hsrc⟩, hstreams⟩ := ho
  obtain ⟨l₃, h₃, -⟩ := CodecSession.initSockets_spec { c with
    connectionState := .connecting
    settings := settings
    ledger := l₂
    transmitHeader := true } o
  simp only [h₃, hrtp, hrtcp, Bool.and_self, Bool.true_or, CodecSession.setDestinationAddress,
    hnull,
    Bool.false_eq_true, if_false] at h
  obtain ⟨l₄, k, h₄, -⟩ := CodecSession.initAudioInterface_spec { c with
    connectionState := .connecting
    settings := settings
    ledger := l₃
    transmitHeader := true
    destAddr := some addr
    port := port
    rtcpTransmitTimer := true
    rtcpReceiveTimer := true } o
  simp only [h₄, hsrc, hstreams, Bool.and_self] at h
  obtain rfl : _ = c' := congrArg Prod.fst (Option.some.inj h)
  exact ⟨rfl, rfl⟩

/-- A codec that has been disconnected is idle. -/
theorem disconnect_idle (h : c.disconnect = some (c', out)) : c'.connectionState = .idle := by
  rcases eq_or_ne c.connectionState .idle with hidle | hbusy
  · obtain rfl : c = c' :=
      congrArg Prod.fst (Option.some.inj ((CodecSession.disconnect_idle hidle).symm.trans h))
    exact hidle
  · have hended : CodecSession.Ended ⟨fun _ => false, false⟩ c c' :=
      CodecSession.disconnect_spec hbusy h
    exact hended.connectionState

/-- A station plays nothing exactly when its codec is idle. -/
theorem playing_eq_none : s.playing = none ↔ s.net_codec.connectionState = .idle := by
  unfold playing
  split
  · next hidle => exact ⟨fun _ => hidle, fun _ => rfl⟩
  · next hbusy => exact ⟨fun h => (nomatch h), fun hidle => absurd hidle hbusy⟩

/-- What a client plays depends on its codec, and on the port that goes with it. -/
theorem playing_congr
    (hidle : s'.net_codec.connectionState = .idle ↔ s.net_codec.connectionState = .idle)
    (hport : s'.src_port = s.src_port) (haddr : s'.net_codec.destAddr = s.net_codec.destAddr)
    (hdest : s'.net_codec.port = s.net_codec.port)
    (hsettings : s'.net_codec.settings = s.net_codec.settings) : s'.playing = s.playing := by
  simp only [playing, hidle, hport, haddr, hdest, hsettings]

/-- Commands are sent, each with its mark. -/
structure Sends (s s' : Station) (texts : List QString) : Prop where
  sent : s'.net_control.sent = s.net_control.sent ++ texts
  line : s'.net_control.conn_cmdline = s.net_control.conn_cmdline
  build : s'.build = s.build
  closed : ∀ text ∈ texts, Closed '!' text

/-- Nothing is sent. -/
theorem Sends.refl (s : Station) : Sends s s [] :=
  ⟨(List.append_nil _).symm, rfl, rfl, fun _ h => nomatch h⟩

/-- What the control connection sends without a signal is what the station sends. -/
theorem Sends.reacts {texts : List QString} (h : Reacts s.net_control s'.net_control texts none)
    (hline : s'.net_control.conn_cmdline = s.net_control.conn_cmdline)
    (hbuild : s'.build = s.build) :
    Sends s s' texts :=
  ⟨h.sent, hline, hbuild, h.closed⟩

/-- A station whose control connection is as before has sent nothing. -/
theorem Sends.same (hcontrol : s'.net_control = s.net_control) (hbuild : s'.build = s.build) :
    Sends s s' [] :=
  .reacts (hcontrol ▸ .refl _) (congrArg _ hcontrol) hbuild

/-- Disconnecting the codec sends nothing and ends what is played. -/
theorem disconnect_spec (h : s.disconnect = some s') : Sends s s' [] ∧ s'.playing = none := by
  obtain ⟨⟨c', out⟩, hc, rfl⟩ := Option.map_eq_some_iff.1 h
  exact ⟨.same rfl rfl, playing_eq_none.2 (disconnect_idle hc)⟩

/-- A change of the codebook is sent without a signal. -/
theorem reacts_codebookChanged (s : Station) (w : Surroundings) (settings : AudioSettings) :
    ∃ texts, Reacts s.net_control (s.codebookChanged w settings) texts none := by
  unfold codebookChanged
  split
  · exact ⟨_, reacts_sendCommand s.net_control ("CB ".toList ++ NetDataToBase64 w.headers.1 ++
      " ".toList ++ NetDataToBase64 w.headers.2.1 ++ " ".toList ++ NetDataToBase64 w.headers.2.2)⟩
  · exact ⟨[], .refl _⟩

/-- A change of the codebook leaves the unfinished command alone. -/
theorem conn_cmdline_codebookChanged {settings : AudioSettings} :
    (s.codebookChanged w settings).conn_cmdline = s.net_control.conn_cmdline := by
  unfold codebookChanged
  split <;> rfl

/-- What has been entered is sent without a signal. -/
theorem reacts_writeConfig {c : ControlConnect} {d : Entered} :
    ∃ texts, Reacts c (writeConfig c d) texts none := by
  unfold writeConfig
  split
  · obtain ⟨_, hname⟩ := reacts_sendMetadata (c := c) .name d.name
    obtain ⟨_, hemail⟩ := reacts_sendMetadata .email d.email
    obtain ⟨_, hphone⟩ := reacts_sendMetadata .phone d.phone
    exact ⟨_, (hname.trans hemail).trans hphone⟩
  · exact ⟨[], .refl c⟩

/-- Writing what has been entered leaves the unfinished command alone. -/
theorem conn_cmdline_writeConfig (c : ControlConnect) (d : Entered) :
    (writeConfig c d).conn_cmdline = c.conn_cmdline := by
  unfold writeConfig
  split <;> rfl

/-! ## Commands -/

/-- What a command does to what a client plays, and to what it sends. What the client cannot start
it does not play. -/
inductive Turns (b : Build) (w : Surroundings) (d d' : Option MediaStart) (texts : List QString) :
    Option (Instruction MediaStart) → Prop
  | obeys {i : Instruction MediaStart} (h : ∀ d₁, obey d i = some d₁ → d' = d₁) :
      Turns b w d d' texts (some i)
  | fails {m : MediaStart} (hnot : ¬ (b.Plays m ∧ w.Opens m)) (h : d' = none) :
      Turns b w d d' texts (some (.on m))
  | keeps (h : d' = d) : Turns b w d d' texts none
  | quits (pre : List QString) (h : d' = none) (hbye : texts = pre ++ ["BY!".toList]) :
      Turns b w d d' texts none

/-- Texts that were sent earlier go in front. -/
theorem Turns.prepend {b : Build} {d d' : Option MediaStart} {texts : List QString}
    {i : Option (Instruction MediaStart)} (h : Turns b w d d' texts i) (pre : List QString) :
    Turns b w d d' (pre ++ texts) i := by
  cases h with
  | obeys h => exact .obeys h
  | fails hnot h => exact .fails hnot h
  | keeps h => exact .keeps h
  | quits pre' h hbye => exact .quits (pre ++ pre') h (by rw [hbye, List.append_assoc])

/-- A client that plays something cannot be told to start. -/
theorem Turns.busy {b : Build} {d d' : Option MediaStart} {texts : List QString} (hd : d ≠ none) :
    Turns b w d d' texts (some (.on m)) := by
  refine .obeys fun d₁ hd₁ => ?_
  cases d with
  | none => exact absurd rfl hd
  | some m' => cases hd₁

/-- A client that plays nothing plays what is offered if it can start that, and otherwise nothing.
-/
theorem receive_start (h : s.receive lib w m.signal = some s') : ∃ texts, Sends s s' texts ∧
    (s.playing = none → s'.playing = if w.Opens m then some m else none) := by
  obtain ⟨⟨c', out⟩, hc, rfl⟩ := Option.map_eq_some_iff.1 h
  have hplaying (hnone : s.playing = none) : playing { s with
      net_control := s.codebookChanged w m.settings
      net_codec := c'
      src_port := if s.net_codec.connectionState = .idle then m.src_port else s.src_port } =
        if w.Opens m then some m else none := by
    have hidle := playing_eq_none.1 hnone
    have hspec := CodecSession.connectToHost_spec hidle hc
    by_cases hw : w.Opens m
    · obtain ⟨haddr, hport⟩ := connectToHost_dest hidle hw hc
      rw [if_pos hw]
      unfold Surroundings.Opens at hw
      rw [if_pos hw] at hspec
      rw [playing, if_neg (by simp [hspec.connectionState]), if_pos hidle, haddr, hport,
        hspec.settings]
      rfl
    · rw [if_neg hw]
      unfold Surroundings.Opens at hw
      rw [if_neg hw] at hspec
      exact playing_eq_none.2 hspec.connectionState
  obtain ⟨texts, hsends⟩ := s.reacts_codebookChanged w m.settings
  exact ⟨texts, .reacts hsends conn_cmdline_codebookChanged rfl, hplaying⟩

/-- What a client does with a signal that its command emits. -/
theorem receive_emits {cmds : QStringList} (hsignal : Emits s.build cmds (some signal))
    (h : s.receive lib w signal = some s') :
    ∃ texts, Sends s s' texts ∧
      Turns s.build w s.playing s'.playing texts (instruction cmds) := by
  cases hsignal with
  | @start m hon hplays =>
      obtain ⟨texts, hsends, hplaying⟩ := receive_start h
      refine ⟨texts, hsends, ?_⟩
      rw [hon]
      rcases ne_or_eq s.playing none with hbusy | hnone
      · exact .busy hbusy
      · by_cases hw : w.Opens m
        · rw [hnone, hplaying hnone, if_pos hw]
          exact .obeys fun d₁ hd₁ => Option.some.inj hd₁
        · exact .fails (fun hcan => hw hcan.2) ((hplaying hnone).trans (if_neg hw))
  | stop hoff =>
      obtain ⟨hsends, hnone⟩ := disconnect_spec h
      refine ⟨[], hsends, hoff ▸ .obeys fun d₁ hd₁ => ?_⟩
      rw [obey_off] at hd₁
      exact hnone.trans (Option.some.inj hd₁)
  | response hnone code =>
      rcases eq_or_ne code ResponseCode.formatUnsupported.toNat with hcode | hcode
      · have hbye : disconnect { s with net_control := s.net_control.endCall } = some s' :=
          (if_pos hcode).symm.trans h
        obtain ⟨hsends, hoff⟩ := disconnect_spec hbye
        have hsent := reacts_sendCommand s.net_control "BY"
        exact ⟨_, ⟨hsends.sent.trans (List.append_nil _), hsends.line, hsends.build, hsent.closed⟩,
          hnone ▸ .quits [] hoff rfl⟩
      · obtain rfl := Option.some.inj ((if_neg hcode).symm.trans h)
        exact ⟨[], .refl s, hnone ▸ .keeps rfl⟩
  | codebook hnone start_pkt comment_pkt codebook_pkt =>
      obtain ⟨c', hc, rfl⟩ := Option.map_eq_some_iff.1 h
      have hstep : CodecSession.step lib s.net_codec (.setCodebook w.accepted) = some (c', []) := by
        rw [CodecSession.step, hc]
        rfl
      refine ⟨[], .same rfl rfl, hnone ▸ .keeps ?_⟩
      unfold CodecSession.setCodebook at hc
      split at hc
      · obtain ⟨c₁, hc₁, hc⟩ := Option.bind_eq_some_iff.1 hc
        obtain ⟨-, hc₁⟩ := Option.ite_none_right_eq_some.1 hc₁
        obtain rfl := Option.some.inj hc₁
        obtain rfl := Option.some.inj hc
        rfl
      · obtain rfl := Option.some.inj hc
        rfl
  | metadata hnone mf str =>
      obtain rfl := Option.some.inj h
      exact ⟨[], .refl s, hnone ▸ .keeps rfl⟩

/-- **A command that a client takes** does to what it plays what the command says, or asks the
server to end the call; what the client cannot start it does not play. -/
theorem readByte_mark (h : s.readByte lib w env '!' = some s') : ∃ texts,
      s'.net_control.sent = s.net_control.sent ++ texts ∧ s'.net_control.conn_cmdline = [] ∧
      s'.build = s.build ∧ (∀ text ∈ texts, Closed '!' text) ∧
      Turns s.build w s.playing s'.playing texts
        (instruction (split ' ' s.net_control.conn_cmdline)) := by
  obtain ⟨texts, signal, hreacts, hsignal⟩ := parseCommand_reacts env s.build
    { s.net_control with signals := [] }
  have hline : ({ s.net_control with signals := [] }.parseCommand env s.build).conn_cmdline = [] :=
    conn_cmdline_parseCommand
  set c' := { s.net_control with signals := [] }.parseCommand env s.build
  have hread : c'.signals.foldlM (receive lib w)
      { s with net_control := { c' with signals := [] } } =
      some s' := h
  rw [hreacts.signals, List.nil_append] at hread
  cases signal with
  | none =>
      obtain rfl := Option.some.inj hread
      refine ⟨texts, hreacts.sent, hline, rfl, hreacts.closed, ?_⟩
      cases hsignal with
      | refuse hon hplays =>
          rw [hon]
          rcases ne_or_eq s.playing none with hbusy | hnone
          · exact .busy hbusy
          · exact .fails (fun hcan => hplays hcan.1) hnone
      | silent hnone => exact hnone ▸ .keeps rfl
  | some signal =>
      obtain ⟨s₁, hs₁, hread⟩ := Option.bind_eq_some_iff.1 hread
      obtain rfl := Option.some.inj hread
      obtain ⟨texts', hsends, hturns⟩ := receive_emits
        (s := { s with net_control := { c' with signals := [] } }) hsignal hs₁
      refine ⟨texts ++ texts', ?_, hsends.line.trans hline, hsends.build,
        List.forall_mem_append.2 ⟨hreacts.closed, hsends.closed⟩, ?_⟩
      · rw [hsends.sent, ← List.append_assoc]
        exact congrArg (· ++ texts') hreacts.sent
      · exact hturns.prepend texts

/-- Other bytes are kept. -/
theorem readByte_other (hbyte : byte ≠ '!') (h : s.readByte lib w env byte = some s') :
    s'.net_control.sent = s.net_control.sent ∧
      s'.net_control.conn_cmdline = s.net_control.conn_cmdline ++ [byte] ∧ s'.build = s.build ∧
      s'.playing = s.playing := by
  unfold readByte handleSignals at h
  rw [ControlConnect.readByte_other hbyte] at h
  obtain rfl := Option.some.inj h
  exact ⟨rfl, rfl, rfl, rfl⟩

/-- The codec's timeout and its peer end a call, and nothing is sent. -/
theorem act_behindBack {a : Act} (ha : a.behindBack = true) (h : s.act lib a = some s') :
    Sends s s' [] ∧ s'.net_codec.connectionState = .idle := by
  cases a with
  | bye | timeoutData =>
      obtain ⟨⟨c', out⟩, hc, rfl⟩ := Option.map_eq_some_iff.1 h
      exact ⟨.same rfl rfl, disconnect_idle (Option.ite_none_right_eq_some.1 hc).2⟩
  | connectClickedData | connectedData | settingsClickedData | meterData | audio => cases ha

/-- What a client does of its own. Only the codec's timeout and its peer end a call behind the
server's back. -/
theorem act_spec {a : Act} (h : s.act lib a = some s') : ∃ texts, Sends s s' texts ∧
    (s'.playing = s.playing ∨ a.behindBack = true ∧ s'.playing = none) := by
  have hcodec {e : CodecSession.Event} (he : act.codec lib s e = some s')
      (hquiet : ∀ c' out, CodecSession.step lib s.net_codec e = some (c', out) →
        playing { s with net_codec := c' } = s.playing) :
      ∃ texts, Sends s s' texts ∧
        (s'.playing = s.playing ∨ a.behindBack = true ∧ s'.playing = none) := by
    obtain ⟨⟨c', out⟩, hc, rfl⟩ := Option.map_eq_some_iff.1 he
    exact ⟨[], .same rfl rfl, .inl (hquiet c' out hc)⟩
  cases a with
  | connectClickedData uri =>
      obtain rfl := Option.some.inj h
      unfold connectClickedData
      split
      · exact ⟨_, .reacts (reacts_sendCommand s.net_control "BY") rfl rfl, .inl rfl⟩
      · exact ⟨_, .reacts (reacts_sendCommand s.net_control "BY") rfl rfl, .inl rfl⟩
      · exact ⟨_, .reacts (reacts_sendCommand s.net_control
          ("CA ".toList ++ uri ++ MainObject.sprintfUs (callNumbers s.net_settings))) rfl rfl,
          .inl rfl⟩
  | connectedData =>
      obtain rfl := Option.some.inj h
      obtain ⟨texts, hlogin⟩ := reacts_connectedData (c := s.net_control) (b := s.build)
      exact ⟨texts, .reacts hlogin rfl rfl, .inl rfl⟩
  | settingsClickedData d =>
      obtain ⟨-, h⟩ := Option.ite_none_right_eq_some.1 h
      obtain rfl := Option.some.inj h
      obtain ⟨texts, hconfig⟩ := reacts_writeConfig (c := s.net_control) (d := d)
      obtain ⟨texts', hlogin⟩ := reacts_connectedData (b := s.build)
        (c := { writeConfig s.net_control d with
          conn_username := d.username, conn_password := d.password })
      exact ⟨_, .reacts (hconfig.trans ⟨hlogin.sent, hlogin.signals, hlogin.closed⟩)
        (conn_cmdline_writeConfig ..) rfl, .inl rfl⟩
  | bye | timeoutData =>
      obtain ⟨hsends, hidle⟩ := act_behindBack rfl h
      exact ⟨[], hsends, .inr ⟨rfl, playing_eq_none.2 hidle⟩⟩
  | meterData =>
      refine hcodec h fun c' out hc => ?_
      obtain ⟨hmeter, hc⟩ := Option.ite_none_right_eq_some.1 hc
      obtain rfl : _ = c' := congrArg Prod.fst (Option.some.inj hc)
      have hquiet := CodecSession.quiet_meterData hmeter
      refine playing_congr hquiet.idle rfl hquiet.destAddr ?_ hquiet.settings
      unfold CodecSession.meterData CodecSession.connectLocked
      split
      · split <;> rfl
      · rfl
  | audio locked =>
      refine hcodec h fun c' out hc => ?_
      obtain ⟨-, hc⟩ := Option.ite_none_right_eq_some.1 hc
      obtain rfl : _ = c' := congrArg Prod.fst (Option.some.inj hc)
      rfl

end

end Station

end NetISDN
