import NetISDN.Lib.AudioSettings
import NetISDN.Server.Netsipd

/-!
# The control connection of a client

`ControlConnect` (`controlconnect.cpp`), each member function under its own name. What a client
writes to its socket while it handles an event collects in `sent`, what it emits in `signals`. A
slot is taken to end before the next event is handled: the event loop that a message box of
`netisdn.cpp` runs inside one is left out.
-/

namespace NetISDN

open AudioSettings

namespace ControlConnect

/-- `ControlConnect::MetadataField`. -/
inductive MetadataField where
  | unknown
  | name
  | email
  | phone
  | location
  | last
  deriving DecidableEq

/-- The signals of `ControlConnect`. -/
inductive Signal where
  | responseReceived (code : Nat)
  | mediaStartReceived (src_port : BitVec 16) (addr : QHostAddress) (dest_port : BitVec 16)
      (settings : AudioSettings)
  | mediaStopReceived
  | codebookReceived (start_pkt comment_pkt codebook_pkt : QString)
  | metadataReceived (mf : MetadataField) (str : QString)

/-- What a build of the client is compiled with: `HAVE_MPEG_L3`, and the name of the platform in
front of `VERSION`. -/
structure Build where
  mpegL3 : Bool
  version : QString

end ControlConnect

open ControlConnect

/-- `ControlConnect`. The socket is represented by its own address, the timer that logs in again by
the time for which it was last started. -/
structure ControlConnect where
  conn_username : QString := []
  conn_password : QString := []
  conn_cmdline : QString := []
  address : QHostAddress := .null
  reauthenticate : Option Int := none
  sent : List QString := []
  signals : List Signal := []

namespace ControlConnect

/-- `SendCommand` (`controlconnect.cpp:379`). -/
def sendCommand (c : ControlConnect) (cmd : QString) : ControlConnect :=
  { c with sent := c.sent ++ [cmd] }

/-- A signal is emitted. -/
def emit (c : ControlConnect) (signal : Signal) : ControlConnect :=
  { c with signals := c.signals ++ [signal] }

/-- The numbers that `initiateCall` prints. -/
def callNumbers (settings : AudioSettings) : List Nat :=
  [(settings.format .transmit).number.toNat,
   settings.sampleRate.toNat,
   (settings.channels .transmit).toNat,
   (settings.bitRate .transmit).toNat,
   (settings.enableProcessor .transmit).toNat,
   (settings.streamRatio .transmit).toNat,
   (settings.format .receive).number.toNat,
   settings.sampleRate.toNat,
   (settings.channels .receive).toNat,
   (settings.bitRate .receive).toNat,
   (settings.enableProcessor .receive).toNat,
   (settings.streamRatio .receive).toNat]

/-- The command of `initiateCall` (`controlconnect.cpp:70`). -/
def callCommand (username : QString) (settings : AudioSettings) : QString :=
  "CA " ++ username ++ MainObject.sprintfUs (callNumbers settings) ++ "!"

/-- `initiateCall`. -/
def initiateCall (c : ControlConnect) (username : QString) (settings : AudioSettings) :
    ControlConnect :=
  c.sendCommand (callCommand username settings)

/-- `endCall`. -/
def endCall (c : ControlConnect) : ControlConnect := c.sendCommand "BY!"

/-- `sendMetadata` (`controlconnect.cpp:112`). -/
def sendMetadata (c : ControlConnect) (mf : MetadataField) (str : QString) : ControlConnect :=
  match mf with
  | .name => c.sendCommand ("MD FN " ++ NetStringToBase64 str ++ "!")
  | .email => c.sendCommand ("MD MA " ++ NetStringToBase64 str ++ "!")
  | .phone => c.sendCommand ("MD PH " ++ NetStringToBase64 str ++ "!")
  | .location | .unknown | .last => c

/-- `sendCodebook`. -/
def sendCodebook (c : ControlConnect) (start_pkt comment_pkt codebook_pkt : QString) :
    ControlConnect :=
  c.sendCommand ("CB " ++ start_pkt ++ " " ++ comment_pkt ++ " " ++ codebook_pkt ++ "!")

/-- `connectedData` (`controlconnect.cpp:144`). -/
def connectedData (b : Build) (c : ControlConnect) : ControlConnect :=
  c.sendCommand ("LI " ++ c.conn_username ++ " " ++ c.address.toString ++ "  " ++ b.version ++ "!")

/-- `Challenge` (`controlconnect.cpp:200`). -/
def challenge (env : Env) (c : ControlConnect) (cmd : QStringList) : ControlConnect :=
  if cmd.length ≠ 2 then c
  else c.sendCommand ("PW " ++ passwordHash env c.conn_password (cmd.at 1) ++ "!")

/-- `Login` (`controlconnect.cpp:210`). -/
def login (c : ControlConnect) (cmd : QStringList) : ControlConnect :=
  if cmd.length ≠ 2 then c.emit (.responseReceived ResponseCode.malformed.toNat)
  else
    match toInt? (cmd.at 1) with
    | none => c.emit (.responseReceived ResponseCode.malformed.toNat)
    | some secs =>
        -- the product is an `int`, which wraps
        { c with reauthenticate := some (BitVec.ofInt 32 (secs * 1000)).toInt }.emit
          (.responseReceived ResponseCode.loginOk.toNat)

/-- `Response` (`controlconnect.cpp:228`). -/
def response (c : ControlConnect) (cmd : QStringList) : ControlConnect :=
  if cmd.length ≠ 2 then c else c.emit (.responseReceived (toUInt (cmd.at 1)))

/-- The settings that `MediaStart` reads from a command (`controlconnect.cpp:258`). The second
sample rate, token 12, is not read. -/
def mediaSettings (cmd : QStringList) : AudioSettings :=
  let number (i : Nat) : BitVec 32 := BitVec.ofNat 32 (toUInt (cmd.at i))
  (({} : AudioSettings)
    |>.setUsername (cmd.at 1)
    |>.setFormat .transmit (Format.cast (number 5))
    |>.setSampleRate (number 6)
    |>.setChannels .transmit (number 7)
    |>.setBitRate .transmit (number 8)
    |>.setEnableProcessor .transmit (number 9 ≠ 0)
    |>.setStreamRatio .transmit (number 10)
    |>.setFormat .receive (Format.cast (number 11))
    |>.setChannels .receive (number 13)
    |>.setBitRate .receive (number 14))

/-- `MediaStart` (`controlconnect.cpp:237`). A port is an `int` stored in 16 bits. A build without
Layer 3 asks twice for the receive format. -/
def mediaStart (b : Build) (c : ControlConnect) (cmd : QStringList) : ControlConnect :=
  if cmd.length ≠ 15 then c
  else
    let addr := QHostAddress.setAddress (cmd.at 3)
    if addr.isNull then c
    else
      match toInt? (cmd.at 2), toInt? (cmd.at 4) with
      | some src_port, some dest_port =>
          let settings := mediaSettings cmd
          if b.mpegL3 = false ∧
              (settings.format .receive = .layer3 ∨ settings.format .receive = .layer3) then
            c.sendCommand (erCommand .formatUnsupported)
          else
            c.emit (.mediaStartReceived (BitVec.ofInt 16 src_port) addr (BitVec.ofInt 16 dest_port)
              settings)
      | _, _ => c

/-- `MediaStop`. -/
def mediaStop (c : ControlConnect) : ControlConnect := c.emit .mediaStopReceived

/-- `CodeBook` (`controlconnect.cpp:292`). -/
def codeBook (c : ControlConnect) (cmd : QStringList) : ControlConnect :=
  if cmd.length ≠ 4 then c else c.emit (.codebookReceived (cmd.at 1) (cmd.at 2) (cmd.at 3))

/-- The field that a tag of `MD` names. -/
def fieldOf (tag : QString) : Option MetadataField :=
  if tag = "FN" then some .name
  else if tag = "MA" then some .email
  else if tag = "PH" then some .phone
  else if tag = "LC" then some .location
  else none

/-- `Metadata` (`controlconnect.cpp:301`). -/
def metadata (c : ControlConnect) (cmd : QStringList) : ControlConnect :=
  match cmd.length, fieldOf (cmd.at 1) with
  | 2, some mf => c.emit (.metadataReceived mf [])
  | 3, some mf => c.emit (.metadataReceived mf ((NetBase64ToString (cmd.at 2)).getD []))
  | _, _ => c

/-- The dispatch of `ParseCommand` on the tokens of a command. -/
def dispatch (env : Env) (b : Build) (c : ControlConnect) (cmds : QStringList) : ControlConnect :=
  if cmds.at 0 = "LI" then c.challenge env cmds
  else if cmds.at 0 = "OK" then c.login cmds
  else if cmds.at 0 = "ER" then c.response cmds
  else if cmds.at 0 = "ME" then c.mediaStart b cmds
  else if cmds.at 0 = "MS" then c.mediaStop
  else if cmds.at 0 = "MD" then c.metadata cmds
  else if cmds.at 0 = "CB" then c.codeBook cmds
  else if cmds.at 0 = "PG" then c.sendCommand "PG!"
  else c

/-- `ParseCommand` (`controlconnect.cpp:341`). -/
def parseCommand (env : Env) (b : Build) (c : ControlConnect) : ControlConnect :=
  let cmds := split ' ' c.conn_cmdline
  let c := { c with conn_cmdline := [] }
  if cmds.length < 1 then c else c.dispatch env b cmds

/-- The body of the loop of `readyReadData` (`controlconnect.cpp:178`), at one byte. -/
def readByte (env : Env) (b : Build) (c : ControlConnect) (byte : Char) : ControlConnect :=
  if byte = '!' then c.parseCommand env b
  else { c with conn_cmdline := c.conn_cmdline ++ [byte] }

/-- `readyReadData`, at the bytes that arrive. -/
def readyReadData (env : Env) (b : Build) (c : ControlConnect) (bytes : QString) : ControlConnect :=
  bytes.foldl (readByte env b) c

/-- A command that arrives whole is parsed. -/
theorem readyReadData_command {env : Env} {b : Build} {c : ControlConnect} {line : QString}
    (hempty : c.conn_cmdline = []) (hline : '!' ∉ line) :
    c.readyReadData env b (line ++ ['!']) =
      { c with conn_cmdline := line }.parseCommand env b := by
  have hread : ∀ (cs : QString) (c : ControlConnect), '!' ∉ cs →
      cs.foldl (readByte env b) c = { c with conn_cmdline := c.conn_cmdline ++ cs } := by
    intro cs
    induction cs with
    | nil =>
        intro c _
        simp
    | cons byte cs ih =>
        intro c hcs
        obtain ⟨hbyte, hcs⟩ := not_or.1 (mt List.mem_cons.2 hcs)
        rw [List.foldl_cons, ih _ hcs, readByte, if_neg (Ne.symm hbyte)]
        simp
  rw [readyReadData, List.foldl_append, hread line c hline, hempty, List.nil_append,
    List.foldl_cons, List.foldl_nil, readByte, if_pos rfl]

end ControlConnect

end NetISDN
