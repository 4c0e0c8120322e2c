import NetISDN.Lib.Netconf
import NetISDN.Server.SipConnection

/-!
# The command handlers of `netsipd`

`MainObject`'s member functions (`netsipd.cpp`), each under its own name. A handler returns
`none` where the process has no next state: it dereferences a null entry of
`sip_connections`, or `GeneratePort` finds no free port and loops forever. SQL statements are
the operations of `Database`.
-/

namespace NetISDN

/-- `NetConfig::ResponseCode` (`netconfig.h:49`). -/
inductive ResponseCode where
  | loginOk | userInvalid | userActive | malformed | unknownCommand | authenticationNeeded
  | callProceeding | callerUnknown | callerOffline | callerBusy | formatUnsupported
  deriving DecidableEq

/-- The number of a response code. -/
def ResponseCode.toNat : ResponseCode → Nat
  | .loginOk => 0
  | .userInvalid => 1
  | .userActive => 2
  | .malformed => 3
  | .unknownCommand => 4
  | .authenticationNeeded => 5
  | .callProceeding => 10
  | .callerUnknown => 11
  | .callerOffline => 12
  | .callerBusy => 13
  | .formatUnsupported => 14

/-- `sprintf("ER %u!",code)`. -/
def erCommand (code : ResponseCode) : QString := "ER " ++ sprintfU code.toNat ++ "!"

/-- The command that stops the media. -/
def msCommand : QString := "MS!"

/-- `ControlConnect::passwordHash` (`controlconnect.cpp:97`): MD5 of `chal|passwd`. -/
def passwordHash (env : Env) (passwd chal : QString) : QString :=
  env.md5 (chal ++ "|" ++ passwd)

/-- `GenerateChallenge` (`netsipd.cpp:733`). -/
def generateChallenge (w : World) : QString :=
  sprintf08x w.rand.1 ++ sprintf08x w.rand.2.1 ++ sprintf08x w.rand.2.2.1 ++
    sprintf08x w.rand.2.2.2

/-- `NETSIP_RTP_PORT`. -/
def rtpPort : Nat := 5004

/-- `NETSIP_REGISTRATION_INTERVAL`, in seconds. -/
def registrationInterval : Nat := 300

/-- `NETSIPD_PING_TIMEOUT`, in milliseconds. -/
def pingTimeout : Nat := 6000

/-- A 32-bit `unsigned` passed to `%d`. -/
def toInt32 (n : Nat) : Int := if n < 2 ^ 31 then n else n - 2 ^ 32

/-- What `Login` sets on a connection that names the user `u`. -/
@[simps] def SipConnection.identify (env : Env) (w : World) (u : UserRow) (cmd : QStringList)
    (c : SipConnection) : SipConnection :=
  { c with
    uid := u.id
    username := u.name
    localAddress := QHostAddress.setAddress (cmd.at 2)
    clientVersion := cmd.at 3
    hash := passwordHash env u.password (generateChallenge w) }

/-- A byte of a command arrives. -/
@[simps] def SipConnection.appendLine (b : Char) (c : SipConnection) : SipConnection :=
  { c with cmdline := c.cmdline ++ [b] }

/-- The command line is taken. -/
@[simps] def SipConnection.clearLine (c : SipConnection) : SipConnection := { c with cmdline := [] }

/-- `setPingTimestamp(now)`. -/
@[simps] def SipConnection.setPingTimestamp (now : Nat) (c : SipConnection) : SipConnection :=
  { c with pingTimestamp := now }

/-- `setIsAuthenticated(true)`. -/
@[simps] def SipConnection.setAuthenticated (c : SipConnection) : SipConnection :=
  { c with isAuthenticated := true }

/-- `setZombie(true)`. -/
@[simps] def SipConnection.setZombie (c : SipConnection) : SipConnection :=
  { c with zombie := true }

/-- What `Logout` resets on a connection at its end. -/
@[simps] def SipConnection.forget (c : SipConnection) : SipConnection :=
  { c with uid := 0, username := [], hash := [], localAddress := .null }

/-- What `Logout` asks for before it does anything: `isAuthenticated` and a positive `uid`. -/
def SipConnection.loggedIn (c : SipConnection) : Bool := c.isAuthenticated && 0 < c.uid

@[simp] theorem SipConnection.loggedIn_clearCall (c : SipConnection) :
    c.clearCall.loggedIn = c.loggedIn := rfl

/-- `pingTimestamp()<dt` of `pingTimerData`, `dt` being `NETSIPD_PING_TIMEOUT` ago. -/
def SipConnection.timedOut (w : World) (c : SipConnection) : Bool :=
  c.pingTimestamp + pingTimeout < w.now

namespace MainObject

/-- `SendCommand` (`netsipd.cpp:714`). -/
def sendCommand (s : MainObject) (fd : Int) (cmd : QString) : MainObject :=
  s.emit (.command fd cmd)

/-- `SendUidUpdate` (`netsipd.cpp:620`). -/
def sendUidUpdate (s : MainObject) (uid : Int) : MainObject :=
  s.emit (.status ("u" ++ sprintfD uid))

/-- `SendCidUpdate` (`netsipd.cpp:629`). -/
def sendCidUpdate (s : MainObject) (cid : Int) : MainObject :=
  s.emit (.status ("c" ++ sprintfD cid))

/-- `SendMetadata` (`netsipd.cpp:638`): the row's columns go out in the order in which the
statement selects them. -/
def sendMetadata (s : MainObject) (id fd : Int) : MainObject :=
  match s.db.selectUser id with
  | some u => s
      |>.sendCommand fd ("MD FN " ++ NetStringToBase64 u.fullName ++ "!")
      |>.sendCommand fd ("MD MA " ++ NetStringToBase64 u.phoneNumber ++ "!")
      |>.sendCommand fd ("MD PH " ++ NetStringToBase64 u.email ++ "!")
      |>.sendCommand fd ("MD LC " ++ NetStringToBase64 u.location ++ "!")
  | none => s

/-- `GetFdByUid` (`netsipd.cpp:721`): the first match in the order of the table. -/
def getFdByUid (s : MainObject) (uid exceptFd : Int) : Int :=
  match s.sip_connections.toList.find? fun (fd, c) => c.uid = uid ∧ fd ≠ exceptFd with
  | some (fd, _) => fd
  | none => -1

/-- One pass of `GeneratePort` over the table: the port after the pass, and `found`. -/
def portPass (s : MainObject) (addr : QHostAddress) (port : Nat) : Nat × Bool :=
  s.sip_connections.foldl
    (fun (port, found) _ c =>
      if c.peerAddress = addr ∧ c.sourcePort = port then ((port + 2) % 2 ^ 16, true)
      else (port, found))
    (port, false)

/-- The passes of `GeneratePort`, at most `fuel` of them. -/
def portPasses (s : MainObject) (addr : QHostAddress) : Nat → Nat → Option Nat
  | 0, _ => none
  | fuel + 1, port =>
    match s.portPass addr port with
    | (port', true) => portPasses s addr fuel port'
    | (port', false) => some port'

/-- `GeneratePort` (`netsipd.cpp:744`). A pass starts at one of the 2^15 even ports and is
determined by it, so a loop that runs for more passes than that never ends. -/
def generatePort (s : MainObject) (addr : QHostAddress) : Option Nat :=
  s.portPasses addr (2 ^ 15 + 1) rtpPort

/-- `EndCall` (`netsipd.cpp:502`). The partner is cleared first, and `fd` is read again after
that: a connection in a call with itself has lost its `cid` by then. -/
def endCall (w : World) (s : MainObject) (fd : Int) : Option MainObject := do
  let c ← s.conn fd
  let src_uid := c.uid
  let (s, dest_uid) ←
    if 0 ≤ c.connectionFd then do
      let d ← s.conn c.connectionFd
      pure ((s.sendCommand c.connectionFd msCommand).modifyConn c.connectionFd
        SipConnection.clearCall, d.uid)
    else pure (s, 0)
  let c ← s.conn fd
  let cid := c.cid
  let s := s.withDb fun db => db.updateCallEnd cid w.sqlNow
  let s := (s.sendCommand fd msCommand).modifyConn fd SipConnection.clearCall
  return ((s.sendUidUpdate src_uid).sendUidUpdate dest_uid).sendCidUpdate cid

/-- `Logout` behind `EndCall` (`netsipd.cpp:600`). -/
def forgetUser (w : World) (s : MainObject) (fd : Int) : Option MainObject := do
  let c ← s.conn fd
  let s ←
    if 0 ≤ c.connectionFd then do
      let _ ← s.conn c.connectionFd
      pure (s.modifyConn c.connectionFd (SipConnection.setConnectionFd (-1)))
    else pure s
  let s := s.modifyConn fd (SipConnection.setConnectionFd (-1))
  let s := s.withDb fun db => db.updateUser c.uid (UserRow.offline w.sqlNow)
  return (s.modifyConn fd SipConnection.forget).sendUidUpdate c.uid

/-- `Logout` (`netsipd.cpp:586`). -/
def logout (w : World) (s : MainObject) (fd : Int) : Option MainObject := do
  let c ← s.conn fd
  if ¬ c.loggedIn then return s
  else if 0 ≤ c.cid then (← s.endCall w fd).forgetUser w fd
  else s.forgetUser w fd

/-- `socketKill` (`netsipd.cpp:176`). -/
def socketKill (w : World) (s : MainObject) (fd : Int) : Option MainObject := do
  let c ← s.conn fd
  if c.zombie then return s
  let s ← s.logout w fd
  return s.modifyConn fd SipConnection.setZombie

/-- `Login` (`netsipd.cpp:233`). -/
def login (env : Env) (w : World) (s : MainObject) (fd : Int) (cmd : QStringList) :
    Option MainObject :=
  if cmd.length ≠ 4 then (s.sendCommand fd (erCommand .malformed)).socketKill w fd
  else
    let s := s.sendCommand fd ("LI " ++ generateChallenge w ++ "!")
    match w.lookup s.db (cmd.at 1) with
    | some u => some (s.modifyConn fd (SipConnection.identify env w u cmd))
    | none => some s

/-- `Password` from `setIsAuthenticated(true)` on (`netsipd.cpp:298`). -/
def acceptLogin (env : Env) (w : World) (s : MainObject) (fd : Int) (c : SipConnection) :
    MainObject :=
  let s := s.modifyConn fd SipConnection.setAuthenticated
  let s := s.withDb fun db => db.updatePasted w c.clientVersion c.uid (UserRow.goOnline w.sqlNow
    c.peerAddress.toString (w.stored c.clientVersion) (env.location c.peerAddress))
  let s := s.sendCommand fd ("OK " ++ sprintfU registrationInterval ++ "!")
  s.sendUidUpdate c.uid

/-- `Password` (`netsipd.cpp:266`). -/
def password (env : Env) (w : World) (s : MainObject) (fd : Int) (cmd : QStringList) :
    Option MainObject := do
  if cmd.length ≠ 2 then (s.sendCommand fd (erCommand .malformed)).socketKill w fd
  else
    let c ← s.conn fd
    if c.uid = 0 then (s.sendCommand fd (erCommand .userInvalid)).socketKill w fd
    else if cmd.at 1 ≠ c.hash then (s.sendCommand fd (erCommand .userInvalid)).socketKill w fd
    else if 0 ≤ s.getFdByUid c.uid fd then
      (s.sendCommand fd (erCommand .userActive)).socketKill w fd
    else return s.acceptLogin env w fd c

/-- The callee search of `InitiateCall`: the last match in the order of the table, or `-1`. -/
def calleeFd (s : MainObject) (uid : Int) : Int :=
  s.sip_connections.foldl (fun dest fd c => if c.uid = uid then fd else dest) (-1)

/-- `sprintf(" %u %u ...",...)`. -/
def sprintfUs (l : List Nat) : QString := l.flatMap fun n => ' ' :: sprintfU n

/-- The `ME` command to the caller (`netsipd.cpp:460`). Its last number goes through `%d`. -/
def callerMe (username : QString) (srcPort : Nat) (addr : QHostAddress) (port : Nat)
    (cmd : QStringList) : QString :=
  "ME " ++ username ++ " " ++ sprintfU srcPort ++ " " ++ addr.toString ++
    sprintfUs (port :: [2, 3, 4, 5, 6, 7, 8, 9, 10].map fun i => toUInt (cmd.at i)) ++
    " " ++ sprintfD (toInt32 (toUInt (cmd.at 11))) ++ "!"

/-- The `ME` command to the callee (`netsipd.cpp:475`). -/
def calleeMe (username : QString) (srcPort : Nat) (addr : QHostAddress) (port : Nat)
    (cmd : QStringList) : QString :=
  "ME " ++ username ++ " " ++ sprintfU srcPort ++ " " ++ addr.toString ++
    sprintfUs (port :: [8, 9, 10, 11, 12, 13, 2, 3, 4, 5].map fun i => toUInt (cmd.at i)) ++ "!"

/-- The addresses of the caller and of the callee (`netsipd.cpp:384`): those behind a router
that they share, or those the server sees. Nothing that `InitiateCall` sets enters them. -/
def callAddrs (c d : SipConnection) : QHostAddress × QHostAddress :=
  if c.peerAddress = d.peerAddress then (c.localAddress, d.localAddress)
  else (c.peerAddress, d.peerAddress)

/-- `InitiateCall` from `// Generate addresses and ports` on (`netsipd.cpp:381`). -/
def assignPorts (s : MainObject) (fd dest_fd : Int) : Option MainObject := do
  let c ← s.conn fd
  let d ← s.conn dest_fd
  let port ← s.generatePort (callAddrs c d).1
  let s := s.modifyConn fd (SipConnection.setSourcePort port)
  let port ← s.generatePort (callAddrs c d).2
  return s.modifyConn dest_fd (SipConnection.setSourcePort port)

/-- The row that `InitiateCall` inserts into `CALLS` for a call from `c` to `d`. -/
def callRow (w : World) (c d : SipConnection) (cmd : QStringList) : CallRow where
  id := 0
  origUid := c.uid
  origAddr := (callAddrs c d).1.toString
  origPort := c.sourcePort
  destUid := d.uid
  destAddr := (callAddrs c d).2.toString
  destPort := d.sourcePort
  startDatetime := w.seconds
  format := toUInt (cmd.at 2)
  sampleRate := toUInt (cmd.at 3)
  channels := toUInt (cmd.at 4)
  bitRate := toUInt (cmd.at 5)
  destFormat := toUInt (cmd.at 8)
  destSampleRate := toUInt (cmd.at 9)
  destChannels := toUInt (cmd.at 10)
  destBitRate := toUInt (cmd.at 11)

/-- `InitiateCall` from `// Log the call` on (`netsipd.cpp:398`). -/
def logCall (w : World) (s : MainObject) (fd dest_fd : Int) (cmd : QStringList) :
    Option MainObject := do
  let c ← s.conn fd
  let d ← s.conn dest_fd
  let s := s.withDb fun db => db.insertCall (callRow w c d cmd)
  match s.db.selectLatestCall c.uid w.pick with
  | some id =>
    let s := s.modifyConn fd (SipConnection.setCid id)
    return s.modifyConn dest_fd (SipConnection.setCid id)
  | none => return s

/-- `InitiateCall` from `// Start the encoders` on (`netsipd.cpp:443`). -/
def startEncoders (s : MainObject) (fd dest_fd : Int) (cmd : QStringList) :
    Option MainObject := do
  let c ← s.conn fd
  let d ← s.conn dest_fd
  let (src_addr, dest_addr) := callAddrs c d
  let s := s.sendCommand fd (callerMe d.username c.sourcePort dest_addr d.sourcePort cmd)
  let s := s.sendCommand dest_fd (calleeMe c.username d.sourcePort src_addr c.sourcePort cmd)
  let s := s.sendMetadata c.uid dest_fd
  let s := s.sendMetadata d.uid fd
  return ((s.sendUidUpdate c.uid).sendUidUpdate d.uid).sendCidUpdate c.cid

/-- `InitiateCall` from `// Setup the connection and log the call` on (`netsipd.cpp:372`). -/
def setupCall (w : World) (s : MainObject) (fd dest_fd : Int) (cmd : QStringList) :
    Option MainObject := do
  let s := s.sendCommand fd (erCommand .callProceeding)
  let s := s.modifyConn fd (SipConnection.setConnectionFd dest_fd)
  let s := s.modifyConn dest_fd (SipConnection.setConnectionFd fd)
  let s ← s.assignPorts fd dest_fd
  let s ← s.logCall w fd dest_fd cmd
  s.startEncoders fd dest_fd cmd

/-- `InitiateCall` (`netsipd.cpp:326`). -/
def initiateCall (w : World) (s : MainObject) (fd : Int) (cmd : QStringList) :
    Option MainObject :=
  if cmd.length ≠ 14 then some (s.sendCommand fd (erCommand .malformed))
  else
    match w.lookup s.db (cmd.at 1) with
    | none => some (s.sendCommand fd (erCommand .callerUnknown))
    | some u =>
      let dest_fd := s.calleeFd u.id
      if dest_fd < 0 then some (s.sendCommand fd (erCommand .callerOffline))
      else do
        let d ← s.conn dest_fd
        if 0 ≤ d.connectionFd then return s.sendCommand fd (erCommand .callerBusy)
        else s.setupCall w fd dest_fd cmd

/-- `ForwardMessage` (`netsipd.cpp:533`). -/
def forwardMessage (s : MainObject) (fd : Int) (cmd : QStringList) : Option MainObject := do
  let c ← s.conn fd
  if c.connectionFd < 0 then return s
  let _ ← s.conn c.connectionFd
  let msg : QString := cmd.flatMap fun t => t ++ " ".toList
  return s.sendCommand c.connectionFd (msg.dropLast ++ "!")

/-- `ReceiveMetadata` (`netsipd.cpp:547`). Each tag sets its own column to the decoded third
token; at two tokens that is the end node's null text. -/
def receiveMetadata (w : World) (s : MainObject) (fd : Int) (cmd : QStringList) :
    Option MainObject := do
  let c ← s.conn fd
  if cmd.length ≠ 2 ∧ cmd.length ≠ 3 then return s
  let value := (NetBase64ToString (cmd.at 2)).getD []
  let s := if cmd.at 1 = "FN" then s.withDb fun db =>
      db.updatePasted w value c.uid fun u => { u with fullName := w.stored value } else s
  let s := if cmd.at 1 = "MA" then s.withDb fun db =>
      db.updatePasted w value c.uid fun u => { u with email := w.stored value } else s
  let s := if cmd.at 1 = "PH" then s.withDb fun db =>
      db.updatePasted w value c.uid fun u => { u with phoneNumber := w.stored value } else s
  return s.sendUidUpdate c.uid

/-- `UpdatePing` (`netsipd.cpp:656`). -/
def updatePing (w : World) (s : MainObject) (id : Int) : MainObject :=
  s.modifyConn id (SipConnection.setPingTimestamp w.now)

/-- The tokens of the command line that `ParseCommand` takes from a connection. -/
def tokens (c : SipConnection) : QStringList := split ' ' (stripWhiteSpace c.cmdline)

/-- The dispatch of `ParseCommand` (`netsipd.cpp:663`) on the tokens of a command. -/
def dispatch (env : Env) (w : World) (s : MainObject) (fd : Int) (cmds : QStringList) :
    Option MainObject := do
  let c ← s.conn fd
  if cmds.at 0 = "LI" then s.login env w fd cmds
  else if cmds.at 0 = "PW" then s.password env w fd cmds
  else if ¬ c.isAuthenticated then
    (s.sendCommand fd (erCommand .authenticationNeeded)).socketKill w fd
  else if cmds.at 0 = "CA" then s.initiateCall w fd cmds
  else if cmds.at 0 = "BY" then s.endCall w fd
  else if cmds.at 0 = "CB" then s.forwardMessage fd cmds
  else if cmds.at 0 = "MD" then s.receiveMetadata w fd cmds
  else if cmds.at 0 = "ER" then s.forwardMessage fd cmds
  else if cmds.at 0 = "PG" then return s.updatePing w fd
  else return s.sendCommand fd (erCommand .unknownCommand)

/-- The connection on `fd` once `ParseCommand` has taken its command line. -/
def takeLine (s : MainObject) (fd : Int) : MainObject := s.modifyConn fd SipConnection.clearLine

/-- `ParseCommand` (`netsipd.cpp:663`). -/
def parseCommand (env : Env) (w : World) (s : MainObject) (fd : Int) : Option MainObject := do
  let c ← s.conn fd
  (s.takeLine fd).dispatch env w fd (tokens c)

/-- The body of the loop of `socketReady` (`netsipd.cpp:158`), at one byte. -/
def readByte (env : Env) (w : World) (s : MainObject) (fd : Int) (b : Char) :
    Option MainObject := do
  let _ ← s.conn fd
  if b = '!' then s.parseCommand env w fd
  else return s.modifyConn fd (SipConnection.appendLine b)

/-- `newConnection` (`netsipd.cpp:144`). The system hands out a descriptor that is not open;
one that still has an entry is that of a connection which its peer has closed. -/
def newConnection (w : World) (s : MainObject) (fd : Int) (peer : QHostAddress) :
    Option MainObject :=
  if fd < 0 ∨ (s.conn fd).any (fun c => ¬ c.zombie) then none
  else some (s.insertConn fd { peerAddress := peer, pingTimestamp := w.now })

/-- One turn of the loop of `zombieData`. -/
def zombieTurn (s : MainObject) (fd : Int) : MainObject :=
  if (s.conn fd).any SipConnection.zombie then s.eraseConn fd else s

/-- `zombieData` (`netsipd.cpp:187`). The loop goes on behind an erased entry with the entry
that followed it. -/
def zombieData (s : MainObject) : MainObject := s.fds.foldl zombieTurn s

/-- One turn of the loop of `pingTimerData`. -/
def pingTurn (w : World) (s : MainObject) (fd : Int) : Option MainObject := do
  let c ← s.conn fd
  if c.timedOut w then return (← s.logout w fd).eraseConn fd
  else return s.sendCommand fd "PG!"

/-- `pingTimerData` (`netsipd.cpp:214`). The loop goes on behind an erased entry with the
entry that followed it. -/
def pingTimerData (w : World) (s : MainObject) : Option MainObject :=
  s.fds.foldlM (pingTurn w) s

end MainObject

/-! ## Events -/

/-- What the event loop calls. A read buffer arrives a byte at a time: `socketReady` handles
the bytes of a buffer one after the other, and nothing else runs between them. -/
inductive Slot where
  | newConnection (fd : Int) (peer : QHostAddress)
  | socketReady (fd : Int) (b : Char)
  | socketKill (fd : Int)
  | zombieData
  | pingTimerData
  deriving DecidableEq

/-- A call of a slot, with what the server reads from outside during it. -/
structure Event where
  slot : Slot
  world : World

namespace MainObject

/-- The state after a slot. -/
def runSlot (env : Env) (s : MainObject) (e : Event) : Option MainObject :=
  match e.slot with
  | .newConnection fd peer => s.newConnection e.world fd peer
  | .socketReady fd b => s.readByte env e.world fd b
  | .socketKill fd => s.socketKill e.world fd
  | .zombieData => some s.zombieData
  | .pingTimerData => s.pingTimerData e.world

/-- A step of the server: the slot runs, and what it sent leaves. -/
def step (env : Env) (s : MainObject) (e : Event) : Option (MainObject × List Output) := do
  let s' ← runSlot env s.flush e
  return (s'.flush, s'.sent)

/-- The server as it starts: no connections. -/
def start (db : Database) : MainObject := { db := db }

end MainObject

/-! ## A small installation -/

/-- Two users with the same password, and a server whose `rand()` is always 0. -/
def demoDb : Database where
  users := [{ id := 1, name := "alice", password := "secret" },
    { id := 2, name := "bob", password := "secret" }]
  users_nodup := by decide
  users_pos := by decide
  calls_nodup := by decide
  calls_bound := by decide
  nextCallId_pos := by decide

/-- The digest with which a user of `demoDb` answers the challenge. -/
def demoHash : QString := "77b487503c20b6e5b2494b5f191b94bb"

/-- MD5 on the one text that is hashed there. -/
def demoEnv : Env where
  md5 text := if text = "00000000000000000000000000000000|secret" then demoHash else []
  location _ := "Private/Unknown"

/-- The bytes of `text` arrive on `fd` one after the other. -/
def typed (fd : Int) (text : QString) (now : Nat) : List Event :=
  text.map fun b => ⟨.socketReady fd b, { now := now }⟩

/-- A client connects. -/
def connects (fd : Int) (now : Nat) : Event := ⟨.newConnection fd ⟨0⟩, { now := now }⟩

/-- The commands with which `name` logs in. -/
def loginText (name : QString) : QString := "LI " ++ name ++ " 0.0.0.0 1!PW " ++ demoHash ++ "!"

/-- The command with which `name` is called. -/
def callText (name : QString) : QString := "CA " ++ name ++ " 0 1 1 0 0 0 0 1 1 0 0 0!"

end NetISDN
