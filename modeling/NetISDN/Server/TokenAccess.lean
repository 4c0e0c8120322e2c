import NetISDN.General.Reading
import NetISDN.Server.Dispatch

/-!
# The tokens that the handlers examine

The index that `QStringList::operator[]` is given has to be smaller than the number of tokens. The
handlers of `netsipd` are read here for the tokens that they examine (`examineLogin` and so on),
and return what they return (`result_examineParseCommand`). `ParseCommand` compares the first token
without asking whether there is one, and `ReceiveMetadata` lets a command of two tokens through and
decodes the third. Everything else stays inside (`within_examineDispatch`).
-/

namespace NetISDN

open TransitionSystem Reading

namespace QStringList

variable {cmd : QStringList} {n i : Nat} {l : List Nat}

/-- `(*cmd)[i]` is examined. -/
def examine (cmd : QStringList) (i : Nat) : OptionT Reading QString :=
  OptionT.mk ⟨some (cmd.at i), [i]⟩

/-- One token after the other is examined. -/
def examineAll (cmd : QStringList) : List Nat → OptionT Reading (List QString)
  | [] => pure []
  | i :: l => do
      let t ← cmd.examine i
      let ts ← examineAll cmd l
      return t :: ts

/-- Looking at a token reads it. -/
theorem result_examine : (cmd.examine i).run.result = some (cmd.at i) := rfl

/-- Looking at several tokens reads them. -/
theorem result_examineAll : (cmd.examineAll l).run.result = some (l.map cmd.at) := by
  induction l with
  | nil => rfl
  | cons i l ih =>
      simp only [examineAll, result_run_bind, result_examine, Option.bind_some, ih, result_run_pure,
        List.map_cons]

/-- A token that is looked at is there if its index is small enough. -/
theorem within_examine : (cmd.examine i).run.Within n ↔ i < n := List.forall_mem_singleton

/-- And so are several. -/
theorem within_examineAll : (cmd.examineAll l).run.Within n ↔ ∀ i ∈ l, i < n := by
  induction l with
  | nil => exact iff_of_true (within_run_pure n []) (List.forall_mem_nil _)
  | cons i l ih =>
      simp only [examineAll, within_run_bind, within_examine, ih, within_run_pure, implies_true,
        and_true, List.forall_mem_cons, result_examine, Option.some.injEq, forall_eq']

/-- The tokens from the first to the last are all of them. -/
theorem map_at_range : (List.range cmd.length).map cmd.at = cmd := by
  refine List.ext_getElem (by simp) fun i _ hi => ?_
  simp [QStringList.at, List.getD, hi]

end QStringList

namespace MainObject

/-- `Login` (`netsipd.cpp:233`). -/
def examineLogin (env : Env) (w : World) (s : MainObject) (fd : Int) (cmd : QStringList) :
    OptionT Reading MainObject :=
  if cmd.length ≠ 4 then ofOption ((s.sendCommand fd (erCommand .malformed)).socketKill w fd)
  else do
    let s := s.sendCommand fd ("LI " ++ generateChallenge w ++ "!")
    let name ← cmd.examine 1
    match w.lookup s.db name with
    | some u => do
      let addr ← cmd.examine 2
      let version ← cmd.examine 3
      return s.modifyConn fd fun c =>
        { c with
          uid := u.id
          username := u.name
          localAddress := QHostAddress.setAddress addr
          clientVersion := version
          hash := passwordHash env u.password (generateChallenge w) }
    | none => return s

/-- `Password` (`netsipd.cpp:266`). -/
def examinePassword (env : Env) (w : World) (s : MainObject) (fd : Int) (cmd : QStringList) :
    OptionT Reading MainObject :=
  if cmd.length ≠ 2 then ofOption ((s.sendCommand fd (erCommand .malformed)).socketKill w fd)
  else do
    let c ← ofOption (s.conn fd)
    if c.uid = 0 then ofOption ((s.sendCommand fd (erCommand .userInvalid)).socketKill w fd)
    else do
      let answer ← cmd.examine 1
      if answer ≠ c.hash then ofOption ((s.sendCommand fd (erCommand .userInvalid)).socketKill w fd)
      else if 0 ≤ s.getFdByUid c.uid fd then
        ofOption ((s.sendCommand fd (erCommand .userActive)).socketKill w fd)
      else return s.acceptLogin env w fd c

/-- `InitiateCall` from `// Log the call` on (`netsipd.cpp:398`). -/
def examineLogCall (w : World) (s : MainObject) (fd dest_fd : Int) (cmd : QStringList) :
    OptionT Reading MainObject := do
  let c ← ofOption (s.conn fd)
  let d ← ofOption (s.conn dest_fd)
  let format ← cmd.examine 2
  let sampleRate ← cmd.examine 3
  let channels ← cmd.examine 4
  let bitRate ← cmd.examine 5
  let destFormat ← cmd.examine 8
  let destSampleRate ← cmd.examine 9
  let destChannels ← cmd.examine 10
  let destBitRate ← cmd.examine 11
  let s := s.withDb fun db => db.insertCall
    { id := 0
      origUid := c.uid
      origAddr := (callAddrs c d).1.toString
      origPort := c.sourcePort
      destUid := d.uid
      destAddr := (callAddrs c d).2.toString
      destPort := d.sourcePort
      startDatetime := w.seconds
      format := toUInt format
      sampleRate := toUInt sampleRate
      channels := toUInt channels
      bitRate := toUInt bitRate
      destFormat := toUInt destFormat
      destSampleRate := toUInt destSampleRate
      destChannels := toUInt destChannels
      destBitRate := toUInt destBitRate }
  match s.db.selectLatestCall c.uid w.pick with
  | some id =>
    let s := s.modifyConn fd (SipConnection.setCid id)
    return s.modifyConn dest_fd (SipConnection.setCid id)
  | none => return s

/-- `InitiateCall` from `// Start the encoders` on (`netsipd.cpp:443`). -/
def examineStartEncoders (s : MainObject) (fd dest_fd : Int) (cmd : QStringList) :
    OptionT Reading MainObject := do
  let c ← ofOption (s.conn fd)
  let d ← ofOption (s.conn dest_fd)
  let (src_addr, dest_addr) := callAddrs c d
  let caller ← cmd.examineAll [2, 3, 4, 5, 6, 7, 8, 9, 10]
  let last ← cmd.examine 11
  let s := s.sendCommand fd ("ME " ++ d.username ++ " " ++ sprintfU c.sourcePort ++ " " ++
    dest_addr.toString ++ sprintfUs (d.sourcePort :: caller.map toUInt) ++ " " ++
    sprintfD (toInt32 (toUInt last)) ++ "!")
  let callee ← cmd.examineAll [8, 9, 10, 11, 12, 13, 2, 3, 4, 5]
  let s := s.sendCommand dest_fd ("ME " ++ c.username ++ " " ++ sprintfU d.sourcePort ++ " " ++
    src_addr.toString ++ sprintfUs (c.sourcePort :: callee.map toUInt) ++ "!")
  let s := s.sendMetadata c.uid dest_fd
  let s := s.sendMetadata d.uid fd
  return ((s.sendUidUpdate c.uid).sendUidUpdate d.uid).sendCidUpdate c.cid

/-- `InitiateCall` from `// Setup the connection and log the call` on (`netsipd.cpp:372`). -/
def examineSetupCall (w : World) (s : MainObject) (fd dest_fd : Int) (cmd : QStringList) :
    OptionT Reading MainObject := do
  let s := s.sendCommand fd (erCommand .callProceeding)
  let s := s.modifyConn fd (SipConnection.setConnectionFd dest_fd)
  let s := s.modifyConn dest_fd (SipConnection.setConnectionFd fd)
  let s ← ofOption (s.assignPorts fd dest_fd)
  let s ← s.examineLogCall w fd dest_fd cmd
  s.examineStartEncoders fd dest_fd cmd

/-- `InitiateCall` (`netsipd.cpp:326`). -/
def examineInitiateCall (w : World) (s : MainObject) (fd : Int) (cmd : QStringList) :
    OptionT Reading MainObject :=
  if cmd.length ≠ 14 then return s.sendCommand fd (erCommand .malformed)
  else do
    let name ← cmd.examine 1
    match w.lookup s.db name with
    | none => return s.sendCommand fd (erCommand .callerUnknown)
    | some u =>
      let dest_fd := s.calleeFd u.id
      if dest_fd < 0 then return s.sendCommand fd (erCommand .callerOffline)
      else do
        let d ← ofOption (s.conn dest_fd)
        if 0 ≤ d.connectionFd then return s.sendCommand fd (erCommand .callerBusy)
        else s.examineSetupCall w fd dest_fd cmd

/-- `ForwardMessage` (`netsipd.cpp:533`). -/
def examineForwardMessage (s : MainObject) (fd : Int) (cmd : QStringList) :
    OptionT Reading MainObject := do
  let c ← ofOption (s.conn fd)
  if c.connectionFd < 0 then return s
  else do
    let ts ← cmd.examineAll (List.range cmd.length)
    let msg : QString := ts.flatMap fun t => t ++ " ".toList
    let _ ← ofOption (s.conn c.connectionFd)
    return s.sendCommand c.connectionFd (msg.dropLast ++ "!")

/-- One of the three comparisons of `ReceiveMetadata` (`netsipd.cpp:564`): where the second token is
`tag`, the third is decoded into a column. -/
def examineColumn (w : World) (s : MainObject) (uid : Int) (cmd : QStringList) (tag : QString)
    (f : QString → UserRow → UserRow) (hf : ∀ value u, (f value u).id = u.id := by intros; rfl) :
    OptionT Reading MainObject := do
  let t ← cmd.examine 1
  if t = tag then do
    let token ← cmd.examine 2
    let value := (NetBase64ToString token).getD []
    return s.withDb fun db => db.updatePasted w value uid (f (w.stored value)) (hf _)
  else return s

/-- `ReceiveMetadata` (`netsipd.cpp:547`). The text that is taken from a command of three tokens is
not used. -/
def examineReceiveMetadata (w : World) (s : MainObject) (fd : Int) (cmd : QStringList) :
    OptionT Reading MainObject := do
  let c ← ofOption (s.conn fd)
  if cmd.length ≠ 2 ∧ cmd.length ≠ 3 then return s
  else do
    let _ ← if cmd.length = 3 then cmd.examine 2 else pure []
    let s ← s.examineColumn w c.uid cmd "FN" fun value u => { u with fullName := value }
    let s ← s.examineColumn w c.uid cmd "MA" fun value u => { u with email := value }
    let s ← s.examineColumn w c.uid cmd "PH" fun value u => { u with phoneNumber := value }
    return s.sendUidUpdate c.uid

/-- The dispatch of `ParseCommand` (`netsipd.cpp:672`). Every comparison examines the first
token. -/
def examineDispatch (env : Env) (w : World) (s : MainObject) (fd : Int) (cmds : QStringList) :
    OptionT Reading MainObject := do
  let c ← ofOption (s.conn fd)
  let name ← cmds.examine 0
  if name = "LI" then s.examineLogin env w fd cmds
  else if name = "PW" then s.examinePassword env w fd cmds
  else if ¬ c.isAuthenticated then
    ofOption ((s.sendCommand fd (erCommand .authenticationNeeded)).socketKill w fd)
  else if name = "CA" then s.examineInitiateCall w fd cmds
  else if name = "BY" then ofOption (s.endCall w fd)
  else if name = "CB" then s.examineForwardMessage fd cmds
  else if name = "MD" then s.examineReceiveMetadata w fd cmds
  else if name = "ER" then s.examineForwardMessage fd cmds
  else if name = "PG" then return s.updatePing w fd
  else return s.sendCommand fd (erCommand .unknownCommand)

/-- `ParseCommand` (`netsipd.cpp:663`). -/
def examineParseCommand (env : Env) (w : World) (s : MainObject) (fd : Int) :
    OptionT Reading MainObject := do
  let c ← ofOption (s.conn fd)
  (s.takeLine fd).examineDispatch env w fd (tokens c)

variable {env : Env} {w : World} {s : MainObject} {fd dest_fd : Int} {c : SipConnection}
  {cmd cmds : QStringList}

/-! ## What is returned is what the handlers return -/

/-- The instrumented `Login` does what `Login` does. -/
theorem result_examineLogin :
    (s.examineLogin env w fd cmd).run.result = s.login env w fd cmd := by
  rw [examineLogin, login, result_run_ite]
  refine if_congr Iff.rfl rfl ?_
  simp only [result_run_bind, QStringList.result_examine, Option.bind_some]
  cases w.lookup (s.sendCommand fd ("LI " ++ generateChallenge w ++ "!")).db (cmd.at 1) with
  | none => rfl
  | some u => rfl

/-- The instrumented `Password` does what `Password` does. -/
theorem result_examinePassword :
    (s.examinePassword env w fd cmd).run.result = s.password env w fd cmd := by
  rw [examinePassword, password, result_run_ite]
  refine if_congr Iff.rfl rfl ?_
  simp only [result_run_bind, result_run_ite, run_ofOption, result_pure, result_run_pure,
    QStringList.result_examine, Option.bind_some, Option.bind_eq_bind, Option.pure_def]

/-- The instrumented logging of a call does what it does. -/
theorem result_examineLogCall :
    (s.examineLogCall w fd dest_fd cmd).run.result = s.logCall w fd dest_fd cmd := by
  simp only [examineLogCall, logCall, result_run_bind, run_ofOption, result_pure,
    QStringList.result_examine, Option.bind_some, Option.bind_eq_bind]
  refine Option.bind_congr fun c _ => Option.bind_congr fun d _ => ?_
  simp only [callRow]
  generalize Database.selectLatestCall _ c.uid w.pick = latest
  cases latest <;> rfl

/-- The instrumented start of the encoders does what it does. -/
theorem result_examineStartEncoders :
    (s.examineStartEncoders fd dest_fd cmd).run.result = s.startEncoders fd dest_fd cmd := by
  simp only [examineStartEncoders, startEncoders, result_run_bind, run_ofOption, result_pure,
    QStringList.result_examine, QStringList.result_examineAll, Option.bind_some,
    Option.bind_eq_bind]
  rfl

/-- The instrumented setup of a call does what it does. -/
theorem result_examineSetupCall :
    (s.examineSetupCall w fd dest_fd cmd).run.result = s.setupCall w fd dest_fd cmd := by
  simp only [examineSetupCall, setupCall, result_run_bind, run_ofOption, result_pure,
    result_examineLogCall, result_examineStartEncoders, Option.bind_eq_bind]

/-- The instrumented `InitiateCall` does what it does. -/
theorem result_examineInitiateCall :
    (s.examineInitiateCall w fd cmd).run.result = s.initiateCall w fd cmd := by
  rw [examineInitiateCall, initiateCall, result_run_ite]
  refine if_congr Iff.rfl rfl ?_
  simp only [result_run_bind, QStringList.result_examine, Option.bind_some]
  cases w.lookup s.db (cmd.at 1) with
  | none => rfl
  | some u =>
      simp only [result_run_ite, result_run_bind, result_run_pure, run_ofOption, result_pure,
        result_examineSetupCall, Option.bind_eq_bind, Option.pure_def]

/-- The instrumented `ForwardMessage` does what it does. -/
theorem result_examineForwardMessage :
    (s.examineForwardMessage fd cmd).run.result = s.forwardMessage fd cmd := by
  simp only [examineForwardMessage, forwardMessage, result_run_bind, result_run_ite,
    result_run_pure,
    run_ofOption, result_pure, QStringList.result_examineAll, QStringList.map_at_range,
    Option.bind_some, Option.bind_eq_bind, Option.pure_def]

/-- A column of `ReceiveMetadata` is set as it is without instruments. -/
theorem result_examineColumn {uid : Int} {tag : QString} {f : QString → UserRow → UserRow}
    {hf : ∀ value u, (f value u).id = u.id} :
    (s.examineColumn w uid cmd tag f hf).run.result =
      some (if cmd.at 1 = tag then s.withDb fun db =>
      db.updatePasted w ((NetBase64ToString (cmd.at 2)).getD []) uid
        (f (w.stored ((NetBase64ToString (cmd.at 2)).getD []))) (hf _) else s) := by
  simp only [examineColumn, result_run_bind, result_run_ite, result_run_pure,
    QStringList.result_examine, Option.bind_some]
  split <;> rfl

/-- The instrumented `ReceiveMetadata` does what it does. -/
theorem result_examineReceiveMetadata :
    (s.examineReceiveMetadata w fd cmd).run.result = s.receiveMetadata w fd cmd := by
  simp only [examineReceiveMetadata, receiveMetadata, result_run_bind, result_run_ite,
    result_run_pure,
    run_ofOption, result_pure, result_examineColumn, Option.bind_some, Option.bind_eq_bind,
    Option.pure_def]
  refine Option.bind_congr fun c _ => if_congr Iff.rfl rfl ?_
  rcases Decidable.em (cmd.length = 3) with hlen | hlen
  · rw [if_pos hlen, QStringList.result_examine]
    rfl
  · rw [if_neg hlen]

/-- The instrumented handlers do what the handlers do. -/
theorem result_examineDispatch :
    (s.examineDispatch env w fd cmds).run.result = s.dispatch env w fd cmds := by
  simp only [examineDispatch, dispatch, result_run_bind, result_run_ite, result_run_pure,
    run_ofOption, result_pure, QStringList.result_examine, Option.bind_some, Option.bind_eq_bind,
    Option.pure_def, result_examineLogin, result_examinePassword, result_examineInitiateCall,
    result_examineForwardMessage, result_examineReceiveMetadata]

/-- **What is examined is examined for what `ParseCommand` does.** -/
theorem result_examineParseCommand :
    (s.examineParseCommand env w fd).run.result = s.parseCommand env w fd := by
  simp only [examineParseCommand, parseCommand, result_run_bind, run_ofOption, result_pure,
    result_examineDispatch, Option.bind_eq_bind]

/-! ## What is examined -/

section
variable {n : Nat}

/-- A step that looks at no token. -/
theorem within_ofOption {α : Type} (o : Option α) : (ofOption o).run.Within n := within_pure n o

/-- `Login` stays inside its tokens. -/
theorem within_examineLogin : (s.examineLogin env w fd cmd).run.Within cmd.length := by
  rw [examineLogin, within_run_ite]
  split
  · exact within_ofOption _
  · next hlen =>
      rw [not_not] at hlen
      simp only [within_run_bind, QStringList.within_examine, QStringList.result_examine,
        Option.some.injEq, forall_eq', hlen]
      refine ⟨by decide, ?_⟩
      split
      · next u hu =>
          simp only [within_run_bind, QStringList.within_examine, QStringList.result_examine]
          exact ⟨by decide, fun _ _ => ⟨by decide, fun _ _ => within_run_pure 4 _⟩⟩
      · exact within_run_pure 4 _

/-- `Password` stays inside its tokens. -/
theorem within_examinePassword : (s.examinePassword env w fd cmd).run.Within cmd.length := by
  rw [examinePassword, within_run_ite]
  split
  · exact within_ofOption _
  · next hlen =>
      rw [not_not] at hlen
      rw [within_run_bind, hlen]
      refine ⟨within_ofOption _, fun c _ => ?_⟩
      rw [within_run_ite]
      split
      · exact within_ofOption _
      · rw [within_run_bind, QStringList.within_examine]
        refine ⟨by decide, fun answer _ => ?_⟩
        simp only [within_run_ite]
        split
        · exact within_ofOption _
        · split
          · exact within_ofOption _
          · exact within_run_pure 2 _

/-- Logging a call takes twelve tokens. -/
theorem within_examineLogCall (hn : 11 < n) :
    (s.examineLogCall w fd dest_fd cmd).run.Within n := by
  simp only [examineLogCall, within_run_bind, QStringList.within_examine]
  refine ⟨within_ofOption _, fun c _ => ⟨within_ofOption _, fun d _ => ?_⟩⟩
  refine ⟨by omega, fun _ _ =>
    ⟨by omega, fun _ _ => ⟨by omega, fun _ _ => ⟨by omega, fun _ _ => ?_⟩⟩⟩⟩
  refine ⟨by omega, fun _ _ => ⟨by omega, fun _ _ => ⟨by omega, fun _ _ => ⟨hn, fun _ _ => ?_⟩⟩⟩⟩
  split
  · exact within_run_pure n _
  · exact within_run_pure n _

/-- Starting the encoders takes fourteen. -/
theorem within_examineStartEncoders (hn : 13 < n) :
    (s.examineStartEncoders fd dest_fd cmd).run.Within n := by
  simp only [examineStartEncoders, within_run_bind, QStringList.within_examine,
    QStringList.within_examineAll]
  refine ⟨within_ofOption _, fun c _ => ⟨within_ofOption _, fun d _ => ?_⟩⟩
  refine ⟨?_, fun _ _ => ⟨by omega, fun _ _ => ⟨?_, fun _ _ => within_run_pure n _⟩⟩⟩
  · have hle : ∀ i ∈ [2, 3, 4, 5, 6, 7, 8, 9, 10], i ≤ 13 := by decide
    exact fun i hi => Nat.lt_of_le_of_lt (hle i hi) hn
  · have hle : ∀ i ∈ [8, 9, 10, 11, 12, 13, 2, 3, 4, 5], i ≤ 13 := by decide
    exact fun i hi => Nat.lt_of_le_of_lt (hle i hi) hn

/-- And so does setting up a call. -/
theorem within_examineSetupCall (hn : 13 < n) :
    (s.examineSetupCall w fd dest_fd cmd).run.Within n := by
  simp only [examineSetupCall, within_run_bind]
  exact ⟨within_ofOption _, fun _ _ => ⟨within_examineLogCall (by omega), fun _ _ =>
    within_examineStartEncoders hn⟩⟩

/-- `InitiateCall` stays inside its tokens. -/
theorem within_examineInitiateCall : (s.examineInitiateCall w fd cmd).run.Within cmd.length := by
  rw [examineInitiateCall, within_run_ite]
  split
  · exact within_run_pure _ _
  · next hlen =>
      rw [not_not] at hlen
      rw [within_run_bind, QStringList.within_examine, hlen]
      refine ⟨by decide, fun name _ => ?_⟩
      split
      · exact within_run_pure 14 _
      · next u _ =>
          rw [within_run_ite]
          split
          · exact within_run_pure 14 _
          · rw [within_run_bind]
            refine ⟨within_ofOption _, fun d _ => ?_⟩
            rw [within_run_ite]
            split
            · exact within_run_pure 14 _
            · exact within_examineSetupCall (by decide)

/-- The loop ends at the number of the tokens. -/
theorem within_examineForwardMessage :
    (s.examineForwardMessage fd cmd).run.Within cmd.length := by
  rw [examineForwardMessage, within_run_bind]
  refine ⟨within_ofOption _, fun c _ => ?_⟩
  rw [within_run_ite]
  split
  · exact within_run_pure _ _
  · rw [within_run_bind, QStringList.within_examineAll]
    refine ⟨fun i hi => List.mem_range.1 hi, fun ts _ => ?_⟩
    rw [within_run_bind]
    exact ⟨within_ofOption _, fun _ _ => within_run_pure _ _⟩

/-- A comparison that succeeds examines the third token. -/
theorem within_examineColumn {uid : Int} {tag : QString} {f : QString → UserRow → UserRow}
    {hf : ∀ value u, (f value u).id = u.id} (hn : 1 < n) :
    (s.examineColumn w uid cmd tag f hf).run.Within n ↔ (cmd.at 1 = tag → 2 < n) := by
  simp only [examineColumn, within_run_bind, QStringList.within_examine, hn, true_and,
    QStringList.result_examine, Option.some.injEq, forall_eq', within_run_ite, within_run_pure,
    implies_true, and_true]
  split
  · next htag => simp [htag]
  · next htag => simp [htag]

/-- The tags for which `ReceiveMetadata` sets a column. -/
def metadataTags : List QString := ["FN", "MA", "PH"]

/-- Of two tokens the third is examined if the second is one of the tags. -/
theorem within_examineReceiveMetadata (hc : s.conn fd = some c) :
    (s.examineReceiveMetadata w fd cmd).run.Within cmd.length ↔
      ¬ (cmd.length = 2 ∧ cmd.at 1 ∈ metadataTags) := by
  rw [examineReceiveMetadata, within_run_bind, run_ofOption, hc]
  simp only [within_pure, true_and, result_pure, Option.some.injEq, forall_eq', within_run_ite]
  split
  · next hlen => exact iff_of_true (within_run_pure _ _) fun h => hlen.1 h.1
  · next hlen =>
      have hcount : cmd.length = 2 ∨ cmd.length = 3 := by omega
      have h1 : 1 < cmd.length := by omega
      simp only [within_run_bind, result_examineColumn, Option.some.injEq, forall_eq',
        within_examineColumn h1, within_run_pure, QStringList.within_examine]
      rcases hcount with hlen | hlen
      · simp [hlen, metadataTags]
      · simp [hlen]

/-- What a command must be for its tokens to be enough: there is one, and behind a login it is not
an `MD` whose second and last token is one of the tags. -/
def Enough (c : SipConnection) (cmds : QStringList) : Prop :=
  cmds ≠ [] ∧
    ¬ (c.isAuthenticated ∧ cmds.at 0 = "MD" ∧ cmds.length = 2 ∧ cmds.at 1 ∈ metadataTags)

/-- **The step lemma: a command is examined inside its tokens exactly if they are enough.** -/
theorem within_examineDispatch (hc : s.conn fd = some c) :
    (s.examineDispatch env w fd cmds).run.Within cmds.length ↔ Enough c cmds := by
  have hfirst : 0 < cmds.length ↔ cmds ≠ [] := List.length_pos_iff
  rw [examineDispatch, within_run_bind, run_ofOption, hc]
  simp only [within_pure, true_and, result_pure, Option.some.injEq, forall_eq', within_run_bind,
    QStringList.within_examine, QStringList.result_examine, hfirst, Enough]
  refine and_congr_right fun _ => ?_
  simp only [within_run_ite, within_examineLogin, within_examinePassword, within_ofOption,
    within_examineInitiateCall, within_examineForwardMessage, within_run_pure,
    within_examineReceiveMetadata hc]
  rcases Decidable.em (cmds.at 0 = "MD") with hMD | hMD
  · simp [hMD]
  · simp only [hMD, if_false, ite_self, false_and, and_false, not_false_iff]

/-! ## Runs -/

/-- The tokens of the command that an event completes are examined below their number. -/
def TokensInside (env : Env) (s : MainObject) (e : Event) : Prop :=
  ∀ fd c cmds, s.received e = some (fd, c, cmds) →
    (s.examineParseCommand env e.world fd).run.Within cmds.length

/-- The tokens of the command that an event completes are enough. -/
def TokensEnough (s : MainObject) (e : Event) : Prop :=
  ∀ fd c cmds, s.received e = some (fd, c, cmds) → Enough c cmds

/-- The step lemma. -/
theorem tokensInside_step (s : MainObject) (e : Event) :
    TokensInside env s e ↔ TokensEnough s e := by
  refine forall_congr' fun fd => forall_congr' fun c => forall_congr' fun cmds =>
    forall_congr' fun h => ?_
  obtain ⟨c₀, hc₀, rfl, rfl⟩ := conn_of_received h
  have hline : (s.takeLine fd).conn fd = some c₀.clearLine := by
    rw [takeLine, conn_modifyConn, if_pos rfl, hc₀]
    rfl
  rw [examineParseCommand, within_run_bind, run_ofOption, hc₀]
  simp only [within_pure, true_and, result_pure, Option.some.injEq, forall_eq']
  exact within_examineDispatch hline

/-- **The server examines a command only below the number of its tokens, throughout a run, if and
only if no command of the run is empty and none is, behind a login, an `MD` that ends with a tag.**
-/
theorem tokensInside_iff (env : Env) (s : MainObject) (es : List Event) :
    Throughout (step env) (TokensInside env) s es ↔ Throughout (step env) TokensEnough s es :=
  throughout_congr tokensInside_step

/-- A client sends `!` and nothing before it. -/
theorem tokensInside_fails : ¬ ∀ (env : Env) (db : Database) (es : List Event),
    Throughout (step env) (TokensInside env) (start db) es := by
  intro hall
  obtain ⟨s, out, hs, c, hrec⟩ : ∃ s out,
      step demoEnv (start demoDb) (connects 5 0) = some (s, out) ∧
      ∃ c, s.received ⟨.socketReady 5 '!', { now := 0 }⟩ = some (5, c, []) :=
    ⟨_, _, rfl, _, rfl⟩
  have h := hall demoEnv demoDb (connects 5 0 :: typed 5 "!" 0) [connects 5 0] _ [] s _ rfl
    (Runs.single trivial hs)
  have henough := (tokensInside_step s _).1 h 5 c [] hrec
  exact henough.1 rfl

end

end MainObject

end NetISDN
