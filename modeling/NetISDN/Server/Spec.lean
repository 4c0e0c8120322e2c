import NetISDN.General.Runs
import NetISDN.Server.Netsipd

/-!
# What the handlers do

One specification for each member function of `MainObject` that changes the table: which
entries it touches and how, what it does to the database, and which commands go to whom. The
rest of the development reads the handlers through these and never unfolds them again.
-/

namespace NetISDN

/-! ## Commands sent to one connection -/

/-- The command in a piece of output, if it goes to the client on `fd`. -/
def Output.commandTo (fd : Int) : Output → Option QString
  | .command fd' cmd => if fd' = fd then some cmd else none
  | .status _ => none

/-- The commands in some output that go to the client on `fd`, in order. -/
def commandsTo (fd : Int) (out : List Output) : List QString :=
  out.filterMap (Output.commandTo fd)

section
variable (fd fd' : Int) (cmd text : QString) (out out' : List Output)

@[simp] theorem commandsTo_nil : commandsTo fd [] = [] := rfl

@[simp] theorem commandsTo_append :
    commandsTo fd (out ++ out') = commandsTo fd out ++ commandsTo fd out' :=
  List.filterMap_append ..

@[simp] theorem commandsTo_command :
    commandsTo fd [.command fd' cmd] = if fd' = fd then [cmd] else [] := by
  by_cases h : fd' = fd <;> simp [commandsTo, Output.commandTo, h]

@[simp] theorem commandsTo_status : commandsTo fd [.status text] = [] := rfl

end

/-! ## What a call leaves on its ends -/

/-- The `cid` that `EndCall` finds on `fd`. A connection in a call with itself has lost it when
`EndCall` reads it. -/
def SipConnection.endedCid (c : SipConnection) (fd : Int) : Int :=
  if 0 ≤ c.connectionFd ∧ c.connectionFd = fd then -1 else c.cid

/-- What `Logout` leaves of the call on either end: all of it is cleared if the connection that
logs out has a `cid`, else only the link. -/
def SipConnection.release (cid : Int) (c : SipConnection) : SipConnection :=
  if 0 ≤ cid then c.clearCall else c.setConnectionFd (-1)

@[simp] theorem SipConnection.clearCall_release (cid : Int) (c : SipConnection) :
    (c.release cid).clearCall = c.clearCall := by
  unfold release
  split <;> rfl

namespace MainObject

variable {env : Env} {w : World} {s s' : MainObject} {fd d k : Int} {c cd : SipConnection}
  {cmds : QStringList} {addr : QHostAddress} {port : Nat}

/-- The commands that the server has sent to the client on `fd` while it handles an event. -/
def sentTo (s : MainObject) (fd : Int) : List QString := commandsTo fd s.sent

@[simp] theorem sentTo_flush : s.flush.sentTo fd = [] := rfl
@[simp] theorem sentTo_modifyConn {f : SipConnection → SipConnection} :
    (s.modifyConn k f).sentTo fd = s.sentTo fd := rfl
@[simp] theorem sentTo_insertConn : (s.insertConn k c).sentTo fd = s.sentTo fd := rfl
@[simp] theorem sentTo_eraseConn : (s.eraseConn k).sentTo fd = s.sentTo fd := rfl
@[simp] theorem sentTo_withDb {g : Database → Database} : (s.withDb g).sentTo fd = s.sentTo fd :=
  rfl

/-! ## `SendCommand` and the status datagrams -/

section
variable {cmd : QString} {id : Int}

@[simp] theorem conn_sendCommand : (s.sendCommand fd cmd).conn k = s.conn k := rfl
@[simp] theorem conn_sendUidUpdate : (s.sendUidUpdate id).conn k = s.conn k := rfl
@[simp] theorem conn_sendCidUpdate : (s.sendCidUpdate id).conn k = s.conn k := rfl

@[simp] theorem db_sendCommand : (s.sendCommand fd cmd).db = s.db := rfl
@[simp] theorem db_sendUidUpdate : (s.sendUidUpdate id).db = s.db := rfl
@[simp] theorem db_sendCidUpdate : (s.sendCidUpdate id).db = s.db := rfl

@[simp] theorem sentTo_sendCommand :
    (s.sendCommand fd cmd).sentTo k = s.sentTo k ++ if fd = k then [cmd] else [] := by
  simp [sentTo, sendCommand]

@[simp] theorem sentTo_sendUidUpdate : (s.sendUidUpdate id).sentTo k = s.sentTo k := by
  simp [sentTo, sendUidUpdate]

@[simp] theorem sentTo_sendCidUpdate : (s.sendCidUpdate id).sentTo k = s.sentTo k := by
  simp [sentTo, sendCidUpdate]

end

/-! ## `SendMetadata` -/

/-- The `MD` commands that tell a client about the user in row `u`. -/
def metadata (u : UserRow) : List QString :=
  ["MD FN " ++ NetStringToBase64 u.fullName ++ "!",
    "MD MA " ++ NetStringToBase64 u.phoneNumber ++ "!",
    "MD PH " ++ NetStringToBase64 u.email ++ "!",
    "MD LC " ++ NetStringToBase64 u.location ++ "!"]

section
variable {id : Int}

@[simp] theorem conn_sendMetadata : (s.sendMetadata id fd).conn k = s.conn k := by
  unfold sendMetadata
  split <;> rfl

@[simp] theorem db_sendMetadata : (s.sendMetadata id fd).db = s.db := by
  unfold sendMetadata
  split <;> rfl

@[simp] theorem sentTo_sendMetadata : (s.sendMetadata id fd).sentTo k =
    s.sentTo k ++ if fd = k then ((s.db.selectUser id).map metadata).getD [] else [] := by
  unfold sendMetadata
  split
  · next u hu =>
      simp only [sentTo_sendCommand, hu, Option.map_some, Option.getD_some, metadata]
      split <;> simp
  · next hu => simp [hu]

end

/-! ## The two searches of the table -/

/-- A search that keeps the last match finds the greatest key in a sorted list, or nothing. -/
theorem foldl_last_match (uid : Int) (l : List (Int × SipConnection)) (dest : Int)
    (hl : l.Pairwise (·.1 < ·.1)) :
    (∃ x ∈ l, x.2.uid = uid ∧ (∀ y ∈ l, y.2.uid = uid → y.1 ≤ x.1) ∧
      l.foldl (fun dest x => if x.2.uid = uid then x.1 else dest) dest = x.1) ∨
    ((∀ y ∈ l, y.2.uid ≠ uid) ∧
      l.foldl (fun dest x => if x.2.uid = uid then x.1 else dest) dest = dest) := by
  induction l generalizing dest with
  | nil => exact .inr ⟨by simp, rfl⟩
  | cons x l ih =>
      rw [List.pairwise_cons] at hl
      rcases ih (if x.2.uid = uid then x.1 else dest) hl.2 with
        ⟨y, hy, hyu, hmax, hfold⟩ | ⟨hno, hfold⟩
      · refine .inl ⟨y, .tail _ hy, hyu, ?_, hfold⟩
        rintro z (_ | ⟨_, hz⟩) hzu
        · exact (hl.1 y hy).le
        · exact hmax z hz hzu
      · rw [List.foldl_cons, hfold]
        by_cases hx : x.2.uid = uid
        · refine .inl ⟨x, .head _, hx, ?_, if_pos hx⟩
          rintro z (_ | ⟨_, hz⟩) hzu
          · exact le_rfl
          · exact absurd hzu (hno z hz)
        · refine .inr ⟨?_, if_neg hx⟩
          rintro z (_ | ⟨_, hz⟩)
          · exact hx
          · exact hno z hz

/-- The callee search finds the greatest descriptor whose connection has the uid, or `-1`. -/
theorem calleeFd_spec (s : MainObject) (uid : Int) :
    (∃ c, s.conn (s.calleeFd uid) = some c ∧ c.uid = uid ∧
      ∀ k ck, s.conn k = some ck → ck.uid = uid → k ≤ s.calleeFd uid) ∨
    (s.calleeFd uid = -1 ∧ ∀ k ck, s.conn k = some ck → ck.uid ≠ uid) := by
  rw [calleeFd, Std.ExtTreeMap.foldl_eq_foldl_toList]
  rcases foldl_last_match uid s.sip_connections.toList (-1) s.toList_sorted with
    ⟨⟨fd, c⟩, hx, hu, hmax, hfold⟩ | ⟨hno, hfold⟩
  · refine .inl ⟨c, ?_, hu, fun k ck hk hku => ?_⟩
    · rw [hfold]
      exact mem_toList.1 hx
    · rw [hfold]
      exact hmax (k, ck) (mem_toList.2 hk) hku
  · exact .inr ⟨hfold, fun k ck hk => hno (k, ck) (mem_toList.2 hk)⟩

/-- The callee search looks at the `uid`s alone. -/
theorem calleeFd_congr (h : ∀ k, (s'.conn k).map SipConnection.uid =
    (s.conn k).map SipConnection.uid)
    (uid : Int) : s'.calleeFd uid = s.calleeFd uid := by
  have huid : ∀ k, (∃ c, s'.conn k = some c ∧ c.uid = uid) ↔
      ∃ c, s.conn k = some c ∧ c.uid = uid := by
    intro k
    rw [← Option.map_eq_some_iff, ← Option.map_eq_some_iff, h]
  rcases calleeFd_spec s' uid with ⟨c', hc', hu', hmax'⟩ | ⟨hneg', hno'⟩
  · obtain ⟨c, hc, hu⟩ := (huid _).1 ⟨c', hc', hu'⟩
    rcases calleeFd_spec s uid with ⟨c₁, hc₁, hu₁, hmax⟩ | ⟨-, hno⟩
    · obtain ⟨c₁', hc₁', hu₁'⟩ := (huid _).2 ⟨c₁, hc₁, hu₁⟩
      exact le_antisymm (hmax _ c hc hu) (hmax' _ c₁' hc₁' hu₁')
    · exact absurd hu (hno _ c hc)
  · rcases calleeFd_spec s uid with ⟨c₁, hc₁, hu₁, -⟩ | ⟨hneg, -⟩
    · obtain ⟨c₁', hc₁', hu₁'⟩ := (huid _).2 ⟨c₁, hc₁, hu₁⟩
      exact absurd hu₁' (hno' _ c₁' hc₁')
    · rw [hneg', hneg]

/-- `GetFdByUid` finds a descriptor other than `exceptFd` whose connection has the uid, or
`-1`. -/
theorem getFdByUid_spec (s : MainObject) (uid exceptFd : Int) :
    (∃ c, s.conn (s.getFdByUid uid exceptFd) = some c ∧ c.uid = uid ∧
      s.getFdByUid uid exceptFd ≠ exceptFd) ∨
    (s.getFdByUid uid exceptFd = -1 ∧
      ∀ k ck, s.conn k = some ck → k ≠ exceptFd → ck.uid ≠ uid) := by
  unfold getFdByUid
  split
  · next k c h =>
      have hp := List.find?_some h
      simp only [decide_eq_true_eq] at hp
      exact .inl ⟨c, mem_toList.1 (List.mem_of_find?_eq_some h), hp.1, hp.2⟩
  · next h =>
      refine .inr ⟨rfl, fun k ck hk hne hu => ?_⟩
      have := List.find?_eq_none.1 h (k, ck) (mem_toList.2 hk)
      simp [hne, hu] at this

/-! ## `EndCall` -/

/-- What `EndCall` on `fd`, whose connection is `c`, does. -/
structure EndsCall (w : World) (fd : Int) (c : SipConnection) (s s' : MainObject) : Prop where
  partner : 0 ≤ c.connectionFd → ∃ d, s.conn c.connectionFd = some d
  conn : ∀ k, s'.conn k =
    if fd = k ∨ 0 ≤ c.connectionFd ∧ c.connectionFd = k then
      (s.conn k).map SipConnection.clearCall
    else s.conn k
  db : s'.db = s.db.updateCallEnd (c.endedCid fd) w.sqlNow
  sentTo : ∀ k, s'.sentTo k = s.sentTo k ++
    (if 0 ≤ c.connectionFd ∧ c.connectionFd = k then [msCommand] else []) ++
    if fd = k then [msCommand] else []

/-- `EndCall` clears both ends of a call, ends the row of the call and stops the media. -/
theorem endCall_spec (hc : s.conn fd = some c) (h : s.endCall w fd = some s') :
    EndsCall w fd c s s' := by
  simp only [endCall, hc, Option.bind_eq_bind, Option.bind_some] at h
  split_ifs at h with hlink
  · simp only [Option.bind_eq_some_iff, Option.pure_def, Option.some.injEq,
      exists_eq_left', conn_modifyConn, conn_sendCommand] at h
    obtain ⟨d, hd, c₁, hc₁, rfl⟩ := h
    have hcid : c₁.cid = c.endedCid fd := by
      by_cases hself : c.connectionFd = fd
      · rw [if_pos hself, hc, Option.map_some, Option.some.injEq] at hc₁
        rw [SipConnection.endedCid, if_pos ⟨hlink, hself⟩, ← hc₁]
        rfl
      · rw [if_neg hself, hc, Option.some.injEq] at hc₁
        simp [← hc₁, SipConnection.endedCid, hself]
    refine ⟨fun _ => ⟨d, hd⟩, fun k => ?_, ?_, fun k => ?_⟩
    · simp only [conn_sendCidUpdate, conn_sendUidUpdate, conn_modifyConn, conn_sendCommand,
        conn_withDb]
      by_cases hk : fd = k <;> by_cases hk' : c.connectionFd = k
      · cases s.conn k <;> simp [hk, hk']
      · simp [hk, hk']
      · subst hk'
        simp [hk, hlink]
      · simp [hk, hk']
    · simp [hcid]
    · simp [hlink]
  · simp only [Option.bind_eq_some_iff, Option.pure_def, Option.some.injEq, Option.bind_some] at h
    obtain ⟨c₁, hc₁, rfl⟩ := h
    obtain rfl : c = c₁ := Option.some.inj (hc.symm.trans hc₁)
    refine ⟨fun h => absurd h hlink, fun k => ?_, ?_, fun k => ?_⟩
    · simp [conn_modifyConn, hlink]
    · simp [SipConnection.endedCid, hlink]
    · simp [hlink]

/-! ## `Logout` and `socketKill` -/

/-- What the part of `Logout` behind `EndCall` does on `fd`, whose connection is `c`. -/
structure ForgetsUser (w : World) (fd : Int) (c : SipConnection) (s s' : MainObject) : Prop where
  partner : 0 ≤ c.connectionFd → ∃ d, s.conn c.connectionFd = some d
  conn_self : s'.conn fd = some (c.setConnectionFd (-1)).forget
  conn : ∀ k, fd ≠ k → s'.conn k =
    if 0 ≤ c.connectionFd ∧ c.connectionFd = k then (s.conn k).map (·.setConnectionFd (-1))
    else s.conn k
  db : s'.db = s.db.updateUser c.uid (UserRow.offline w.sqlNow)
  sentTo : ∀ k, s'.sentTo k = s.sentTo k

/-- What forgetting the user does. -/
theorem forgetUser_spec (hc : s.conn fd = some c) (h : s.forgetUser w fd = some s') :
    ForgetsUser w fd c s s' := by
  simp only [forgetUser, hc, Option.bind_eq_bind, Option.bind_some] at h
  split_ifs at h with hlink
  · simp only [Option.bind_eq_some_iff, Option.pure_def, Option.some.injEq,
      exists_eq_left'] at h
    obtain ⟨d, hd, rfl⟩ := h
    refine ⟨fun _ => ⟨d, hd⟩, ?_, fun k hk => ?_, rfl, fun k => by simp⟩
    · by_cases hself : c.connectionFd = fd <;>
        simp [conn_modifyConn, hc, hself, SipConnection.setConnectionFd]
    · simp [conn_modifyConn, hk, hlink]
  · simp only [Option.pure_def, Option.some.injEq, Option.bind_some] at h
    subst h
    refine ⟨fun h => absurd h hlink, ?_, fun k hk => ?_, rfl, fun k => by simp⟩
    · simp [conn_modifyConn, hc]
    · simp [conn_modifyConn, hk, hlink]

/-- What `Logout` on `fd`, whose connection `c` is logged in, does. -/
structure LogsOut (w : World) (fd : Int) (c : SipConnection) (s s' : MainObject) : Prop where
  partner : 0 ≤ c.connectionFd → ∃ d, s.conn c.connectionFd = some d
  conn_self : s'.conn fd = some (c.release c.cid).forget
  conn : ∀ k, fd ≠ k → s'.conn k =
    if 0 ≤ c.connectionFd ∧ c.connectionFd = k then (s.conn k).map (·.release c.cid)
    else s.conn k
  db : s'.db = (if 0 ≤ c.cid then s.db.updateCallEnd (c.endedCid fd) w.sqlNow
    else s.db).updateUser c.uid (UserRow.offline w.sqlNow)
  sentTo : ∀ k, s'.sentTo k = s.sentTo k ++ if 0 ≤ c.cid then
    (if 0 ≤ c.connectionFd ∧ c.connectionFd = k then [msCommand] else []) ++
      if fd = k then [msCommand] else [] else []

/-- `Logout` does nothing unless the connection is logged in. -/
theorem logout_spec (hc : s.conn fd = some c) (h : s.logout w fd = some s') :
    c.loggedIn = false ∧ s' = s ∨ c.loggedIn = true ∧ LogsOut w fd c s s' := by
  simp only [logout, hc, Option.bind_eq_bind, Option.bind_some] at h
  by_cases hin : c.loggedIn = true
  · rw [if_neg (by simp [hin])] at h
    refine .inr ⟨hin, ?_⟩
    by_cases hcid : 0 ≤ c.cid
    · -- `EndCall` has cleared the link, so nothing is left to unlink
      rw [if_pos hcid, Option.bind_eq_some_iff] at h
      obtain ⟨s₁, hend, h⟩ := h
      have E := endCall_spec hc hend
      have hc₁ : s₁.conn fd = some c.clearCall := by
        rw [E.conn fd, if_pos (.inl rfl), hc, Option.map_some]
      have F := forgetUser_spec hc₁ h
      refine ⟨E.partner, ?_, fun k hk => ?_, ?_, fun k => ?_⟩
      · rw [F.conn_self, SipConnection.release, if_pos hcid]
        rfl
      · rw [F.conn k hk, if_neg (by simp [SipConnection.clearCall]), E.conn k]
        simp [hk, SipConnection.release, hcid]
      · rw [F.db, E.db, if_pos hcid]
        rfl
      · rw [F.sentTo, E.sentTo, if_pos hcid, List.append_assoc]
    · rw [if_neg hcid] at h
      have F := forgetUser_spec hc h
      refine ⟨F.partner, ?_, fun k hk => ?_, ?_, fun k => ?_⟩
      · rw [F.conn_self, SipConnection.release, if_neg hcid]
      · rw [F.conn k hk]
        simp [SipConnection.release, hcid]
      · rw [F.db, if_neg hcid]
      · rw [F.sentTo, if_neg hcid, List.append_nil]
  · rw [if_pos (by simp [hin])] at h
    exact .inl ⟨by simpa using hin, (Option.some.inj h).symm⟩

/-- `Logout` changes nothing but the call of another connection. -/
theorem logout_frame (hc : s.conn fd = some c) (h : s.logout w fd = some s') (hk : fd ≠ k) :
    (s'.conn k).map SipConnection.clearCall = (s.conn k).map SipConnection.clearCall := by
  rcases logout_spec hc h with ⟨-, rfl⟩ | ⟨-, hl⟩
  · rfl
  · rw [hl.conn k hk]
    split
    · cases s.conn k <;> simp
    · rfl

/-- `socketKill` leaves a zombie alone; another connection it logs out and marks. -/
theorem socketKill_spec (hc : s.conn fd = some c) (h : s.socketKill w fd = some s') :
    c.zombie = true ∧ s' = s ∨ c.zombie = false ∧ ∃ s₁, s.logout w fd = some s₁ ∧
      s' = s₁.modifyConn fd SipConnection.setZombie := by
  simp only [socketKill, hc, Option.bind_eq_bind, Option.bind_some] at h
  split_ifs at h with hz
  · exact .inl ⟨hz, (Option.some.inj h).symm⟩
  · simp only [Option.bind_eq_some_iff, Option.pure_def, Option.some.injEq] at h
    obtain ⟨s₁, h₁, rfl⟩ := h
    exact .inr ⟨by simpa using hz, s₁, h₁, rfl⟩

/-! ## `GeneratePort` -/

/-- A pass of `GeneratePort` keeps to 16 bits. -/
theorem portPass_lt (hport : port < 2 ^ 16) : (s.portPass addr port).1 < 2 ^ 16 := by
  rw [portPass, Std.ExtTreeMap.foldl_eq_foldl_toList]
  generalize s.sip_connections.toList = l
  generalize false = b
  induction l generalizing port b with
  | nil => exact hport
  | cons x l ih =>
      simp only [List.foldl_cons]
      split_ifs
      · exact ih (Nat.mod_lt _ (by decide)) _
      · exact ih hport _

/-- `GeneratePort` returns a port. -/
theorem generatePort_lt (h : s.generatePort addr = some port) : port < 2 ^ 16 := by
  have go : ∀ fuel p, p < 2 ^ 16 → s.portPasses addr fuel p = some port → port < 2 ^ 16 := by
    intro fuel
    induction fuel with
    | zero => intro p _ h; cases h
    | succ fuel ih =>
        intro p hp h
        have hlt := @portPass_lt s addr p hp
        rw [portPasses] at h
        generalize s.portPass addr p = r at h hlt
        match r, h with
        | (p', true), h => exact ih p' hlt h
        | (p', false), h => exact Option.some.inj h ▸ hlt
  exact go _ _ (by decide) h

/-! ## `InitiateCall` -/

/-- What `InitiateCall` does on `fd` once it has found that the connection on `d` is free. -/
structure SetsUpCall (w : World) (fd d : Int) (cmds : QStringList) (c cd : SipConnection)
    (port port' : Nat) (id : Int) (row : CallRow) (s s' : MainObject) : Prop where
  conn : ∀ k, s'.conn k = if fd = k ∨ d = k then (s.conn k).map fun x =>
      ((x.setConnectionFd (if d = k then fd else d)).setSourcePort
        (if d = k then port' else port)).setCid id
    else s.conn k
  db : s'.db = s.db.insertCall row
  origUid : row.origUid = c.uid
  startDatetime : row.startDatetime = w.seconds
  endDatetime : row.endDatetime = none
  cid : s'.db.selectLatestCall c.uid w.pick = some id
  port_lt : port < 2 ^ 16
  port_lt' : port' < 2 ^ 16
  sentTo : ∀ k, s'.sentTo k = s.sentTo k ++
    (if fd = k then [erCommand .callProceeding, callerMe cd.username
      (if d = fd then port' else port) (callAddrs c cd).2 port' cmds] else []) ++
    (if d = k then calleeMe c.username port' (callAddrs c cd).1
      (if d = fd then port' else port) cmds ::
        ((s.db.selectUser c.uid).map metadata).getD [] else []) ++
    if fd = k then ((s.db.selectUser cd.uid).map metadata).getD [] else []

/-- Where the query finds the row just inserted, the connections carry that row's identifier. -/
theorem SetsUpCall.cid_eq {port' : Nat} {id : Int} {row : CallRow}
    (h : SetsUpCall w fd d cmds c cd port port' id row s s')
    (hfinds : s.db.FindsInserted c.uid w.seconds w.pick) : id = s.db.nextCallId := by
  have hsel := Database.selectLatestCall_insertCall.2 (h.origUid ▸ h.startDatetime ▸ hfinds)
  have hcid := h.cid
  rw [h.db, ← h.origUid, hsel] at hcid
  exact (Option.some.inj hcid).symm

/-- The two ends get a port each. -/
theorem assignPorts_spec (hc : s.conn fd = some c) (hd : s.conn d = some cd)
    (h : s.assignPorts fd d = some s') : ∃ port port', port < 2 ^ 16 ∧ port' < 2 ^ 16 ∧
      s' = (s.modifyConn fd (SipConnection.setSourcePort port)).modifyConn d
        (SipConnection.setSourcePort port') := by
  simp only [assignPorts, hc, hd, Option.bind_eq_bind, Option.bind_some, Option.bind_eq_some_iff,
    Option.pure_def, Option.some.injEq] at h
  obtain ⟨port, hp, port', hp', rfl⟩ := h
  exact ⟨port, port', generatePort_lt hp, generatePort_lt hp', rfl⟩

/-- The call gets a row, and both ends the id that is selected for it. -/
theorem logCall_spec (hc : s.conn fd = some c) (hd : s.conn d = some cd)
    (h : s.logCall w fd d cmds = some s') :
    ∃ id row, row.origUid = c.uid ∧ row.startDatetime = w.seconds ∧ row.endDatetime = none ∧
      (s.db.insertCall row).selectLatestCall c.uid w.pick = some id ∧
      s' = ((s.withDb fun db => db.insertCall row).modifyConn fd
        (SipConnection.setCid id)).modifyConn d (SipConnection.setCid id) := by
  obtain ⟨r, -, -, hsel⟩ := @Database.selectLatestCall_isSome
    (s.db.insertCall (callRow w c cd cmds)) _ c.uid w.pick
    (List.mem_append_right _ (List.mem_singleton.2 rfl)) rfl
  simp only [logCall, hc, hd, Option.bind_eq_bind, Option.bind_some, db_withDb, hsel,
    Option.pure_def, Option.some.injEq] at h
  exact ⟨r.id, callRow w c cd cmds, rfl, rfl, rfl, hsel, h.symm⟩

/-- Both ends are told to start, with the other end's metadata, and nothing else changes. -/
theorem startEncoders_spec (hc : s.conn fd = some c) (hd : s.conn d = some cd)
    (h : s.startEncoders fd d cmds = some s') :
    (∀ k, s'.conn k = s.conn k) ∧ s'.db = s.db ∧ ∀ k, s'.sentTo k = s.sentTo k ++
      (if fd = k then [callerMe cd.username c.sourcePort (callAddrs c cd).2 cd.sourcePort cmds]
        else []) ++
      (if d = k then calleeMe c.username cd.sourcePort (callAddrs c cd).1 c.sourcePort cmds ::
        ((s.db.selectUser c.uid).map metadata).getD [] else []) ++
      if fd = k then ((s.db.selectUser cd.uid).map metadata).getD [] else [] := by
  simp only [startEncoders, hc, hd, Option.bind_eq_bind, Option.bind_some, Option.pure_def,
    Option.some.injEq] at h
  subst h
  refine ⟨fun k => by simp, by simp, fun k => ?_⟩
  simp only [sentTo_sendCidUpdate, sentTo_sendUidUpdate, sentTo_sendMetadata, sentTo_sendCommand,
    db_sendMetadata, db_sendCommand, List.append_assoc]
  by_cases hk : d = k <;> simp [hk]

/-- A setter called on both ends of a call. -/
theorem conn_modifyConn_modifyConn {f g : SipConnection → SipConnection}
    (hfg : ∀ x, g (f x) = g x) :
    ((s.modifyConn fd f).modifyConn d g).conn k =
      if fd = k ∨ d = k then (s.conn k).map (if d = k then g else f) else s.conn k := by
  rw [conn_modifyConn, conn_modifyConn]
  by_cases hd : d = k
  · by_cases hfd : fd = k
    · cases s.conn k <;> simp [hd, hfd, hfg]
    · simp [hd, hfd]
  · simp [hd]

/-- `InitiateCall` links the two connections, gives each a port, logs the call and starts the
media on both ends. -/
theorem setupCall_spec (hc : s.conn fd = some c) (hd : s.conn d = some cd)
    (h : s.setupCall w fd d cmds = some s') :
    ∃ port port' id row, SetsUpCall w fd d cmds c cd port port' id row s s' := by
  simp only [setupCall, Option.bind_eq_bind, Option.bind_eq_some_iff] at h
  obtain ⟨s₁, h₁, s₂, h₂, h₃⟩ := h
  set s₀ := ((s.sendCommand fd (erCommand .callProceeding)).modifyConn fd
    (SipConnection.setConnectionFd d)).modifyConn d (SipConnection.setConnectionFd fd) with hs₀
  have e₀ (k : Int) : s₀.conn k = if fd = k ∨ d = k then (s.conn k).map
      (if d = k then SipConnection.setConnectionFd fd else SipConnection.setConnectionFd d)
      else s.conn k := by
    rw [hs₀, conn_modifyConn_modifyConn (by intro; rfl), conn_sendCommand]
  obtain ⟨port, port', hp, hp', hs₁⟩ := @assignPorts_spec _ _ _ _ _ _
    (by rw [e₀, if_pos (.inl rfl), hc, Option.map_some])
    (by rw [e₀, if_pos (.inr rfl), hd, Option.map_some]) h₁
  have e₁ (k : Int) : s₁.conn k = if fd = k ∨ d = k then (s.conn k).map fun x =>
      (x.setConnectionFd (if d = k then fd else d)).setSourcePort (if d = k then port' else port)
      else s.conn k := by
    rw [hs₁, conn_modifyConn_modifyConn (by intro; rfl), e₀]
    by_cases hk : fd = k ∨ d = k
    · simp only [if_pos hk, Option.map_map]
      congr 1
      split_ifs <;> rfl
    · simp only [if_neg hk]
  obtain ⟨id, row, hou, hst, hen, hsel, hs₂⟩ := @logCall_spec _ _ _ _ _ _ _ _
    (by rw [e₁, if_pos (.inl rfl), hc, Option.map_some])
    (by rw [e₁, if_pos (.inr rfl), hd, Option.map_some]) h₂
  have e₂ (k : Int) : s₂.conn k = if fd = k ∨ d = k then (s.conn k).map fun x =>
      ((x.setConnectionFd (if d = k then fd else d)).setSourcePort
        (if d = k then port' else port)).setCid id
      else s.conn k := by
    rw [hs₂, conn_modifyConn_modifyConn (by intro; rfl), conn_withDb, e₁]
    by_cases hk : fd = k ∨ d = k
    · simp only [if_pos hk, ite_self, Option.map_map]
      rfl
    · simp only [if_neg hk]
  obtain ⟨e₃, hdb, hsent⟩ := @startEncoders_spec _ _ _ _ _ _ _
    (by rw [e₂, if_pos (.inl rfl), hc, Option.map_some])
    (by rw [e₂, if_pos (.inr rfl), hd, Option.map_some]) h₃
  have hdb₁ : s₁.db = s.db := by rw [hs₁, hs₀]; rfl
  refine ⟨port, port', id, row, fun k => (e₃ k).trans (e₂ k), ?_, hou, hst, hen, ?_, hp, hp',
    fun k => ?_⟩
  · rw [hdb, hs₂, ← hdb₁]
    rfl
  · rw [hdb, hs₂]
    exact hsel
  have hsent₂ : s₂.sentTo k = s.sentTo k ++ if fd = k then [erCommand .callProceeding] else [] := by
    rw [hs₂, hs₁, hs₀]
    simp
  have hdb₂ : s₂.db.users = s.db.users := by rw [hs₂, ← hdb₁]; rfl
  have hsel₂ (u : Int) : s₂.db.selectUser u = s.db.selectUser u := by
    rw [Database.selectUser, Database.selectUser, hdb₂]
  rw [hsent, hsent₂, hsel₂, hsel₂]
  by_cases hk : fd = k <;> simp [hk, callAddrs]

/-! ## `pingTimerData` -/

/-- A turn of the ping sweep logs out and removes a connection that has timed out, and pings
another. -/
theorem pingTurn_spec (hc : s.conn fd = some c) (h : s.pingTurn w fd = some s') :
    c.timedOut w = false ∧ s' = s.sendCommand fd "PG!" ∨
    c.timedOut w = true ∧ ∃ s₁, s.logout w fd = some s₁ ∧ s' = s₁.eraseConn fd := by
  simp only [pingTurn, hc, Option.bind_eq_bind, Option.bind_some] at h
  split at h
  · next ht =>
      obtain ⟨s₁, h₁, h⟩ := Option.bind_eq_some_iff.1 h
      exact .inr ⟨ht, s₁, h₁, (Option.some.inj h).symm⟩
  · next ht => exact .inl ⟨by simpa using ht, (Option.some.inj h).symm⟩

/-- What the ping sweep visits when it gets to `fd` has a smaller descriptor. -/
theorem fds_split {done rest : List Int} (h : s.fds = done ++ fd :: rest) :
    fd ∉ done ∧ (∃ c, s.conn fd = some c) ∧ ∀ k, k < fd → (∃ c, s.conn k = some c) → k ∈ done := by
  have hsorted := s.fds_sorted
  rw [h, List.pairwise_append, List.pairwise_cons] at hsorted
  refine ⟨fun hmem => lt_irrefl fd (hsorted.2.2 fd hmem fd (.head _)),
    mem_fds.1 (h ▸ by simp), fun k hk hc => ?_⟩
  have hmem := mem_fds.2 hc
  rw [h] at hmem
  rcases List.mem_append.1 hmem with hdone | hmem
  · exact hdone
  · rcases List.mem_cons.1 hmem with rfl | hrest
    · exact absurd hk (lt_irrefl _)
    · exact absurd (hsorted.2.1.1 k hrest) (not_lt.2 hk.le)

/-- Between the turns of the ping sweep: of what has been visited, that which had timed out is
gone; everything else has changed in its call only. -/
def Swept (w : World) (s : MainObject) (done : List Int) (s₁ : MainObject) : Prop :=
  ∀ k, (s₁.conn k).map SipConnection.clearCall =
    if k ∈ done ∧ (s.conn k).any (·.timedOut w) then none
    else (s.conn k).map SipConnection.clearCall

/-- A turn of the ping sweep over `s`, at `fd`, from `s₁` to `s₂`; `done` has been visited. -/
structure PingTurn (w : World) (s : MainObject) (done : List Int) (fd : Int) (c : SipConnection)
    (s₁ s₂ : MainObject) : Prop where
  visited : fd ∉ done
  before : ∀ k, k < fd → (∃ c, s.conn k = some c) → k ∈ done
  swept : Swept w s done s₁
  conn : s₁.conn fd = some c
  same : ∃ c₀, s.conn fd = some c₀ ∧ c.clearCall = c₀.clearCall
  turn : c.timedOut w = false ∧ s₂ = s₁.sendCommand fd "PG!" ∨
    c.timedOut w = true ∧ ∃ s₃, s₁.logout w fd = some s₃ ∧ s₂ = s₃.eraseConn fd

/-- The connection of a turn had timed out before the sweep exactly if it has now. -/
theorem PingTurn.timedOut {done : List Int} {s₁ s₂ : MainObject}
    (h : PingTurn w s done fd c s₁ s₂) :
    (s.conn fd).any (·.timedOut w) = c.timedOut w := by
  obtain ⟨c₀, hc₀, hsame⟩ := h.same
  have hping : c.pingTimestamp = c₀.pingTimestamp := by
    simpa using congrArg SipConnection.pingTimestamp hsame
  simp [hc₀, SipConnection.timedOut, hping]

/-- One more connection has been swept. -/
theorem PingTurn.swept_next {done : List Int} {s₁ s₂ : MainObject}
    (h : PingTurn w s done fd c s₁ s₂) : Swept w s (done ++ [fd]) s₂ := by
  intro k
  have hk := h.swept k
  simp only [List.mem_append, List.mem_singleton]
  rcases h.turn with ⟨ht, rfl⟩ | ⟨ht, s₃, hout, rfl⟩
  · by_cases hfd : k = fd
    · rw [← h.timedOut, ← hfd] at ht
      simp [ht] at hk ⊢
      exact hk
    · simpa [hfd] using hk
  · rw [conn_eraseConn]
    by_cases hfd : fd = k
    · subst hfd
      rw [if_pos rfl, if_pos ⟨.inr rfl, h.timedOut.trans ht⟩, Option.map_none]
    · rw [if_neg hfd, logout_frame h.conn hout hfd, hk]
      simp [Ne.symm hfd]

/-- **The rule of the ping sweep.** -/
theorem pingTimerData_rule {I : List Int → MainObject → Prop}
    (h : s.pingTimerData w = some s') (h₀ : I [] s)
    (hturn : ∀ done fd c s₁ s₂, PingTurn w s done fd c s₁ s₂ → I done s₁ → I (done ++ [fd]) s₂) :
    I s.fds s' ∧ Swept w s s.fds s' := by
  refine TransitionSystem.foldlM_rule (I := fun done s₁ => I done s₁ ∧ Swept w s done s₁) h
    ⟨h₀, fun k => by simp⟩ ?_
  rintro done fd rest s₁ s₂ hsplit ⟨hI, hswept⟩ hturn'
  obtain ⟨hfd, ⟨c₀, hc₀⟩, hbefore⟩ := fds_split hsplit
  obtain ⟨c, hc, hsame⟩ : ∃ c, s₁.conn fd = some c ∧ c.clearCall = c₀.clearCall := by
    have := hswept fd
    rwa [if_neg (fun h => hfd h.1), hc₀, Option.map_some, Option.map_eq_some_iff] at this
  have ht : PingTurn w s done fd c s₁ s₂ :=
    ⟨hfd, hbefore, hswept, hc, ⟨c₀, hc₀, hsame⟩, pingTurn_spec hc hturn'⟩
  exact ⟨hturn _ _ _ _ _ ht hI, ht.swept_next⟩

/-! ## `ReceiveMetadata` -/

/-- The value that an `MD` brings for its column. -/
def metadataValue (cmds : QStringList) : QString := (NetBase64ToString (cmds.at 2)).getD []

/-- What an `MD` does to the tables: it sets the column that its tag names, if it names one. -/
def setColumn (w : World) (uid : Int) (tag value : QString) (db : Database) : Database :=
  if UserRow.hasColumn tag then
    db.updatePasted w value uid (UserRow.setColumn tag (w.stored value)) (UserRow.setColumn_id _ _)
  else db

/-- An `MD` leaves the calls alone, whatever MySQL reads in it. -/
@[simp] theorem calls_setColumn {uid : Int} {tag value : QString} {db : Database} :
    (setColumn w uid tag value db).calls = db.calls := by
  unfold setColumn
  split
  · exact Database.calls_updatePasted
  · rfl

@[simp] theorem nextCallId_setColumn {uid : Int} {tag value : QString} {db : Database} :
    (setColumn w uid tag value db).nextCallId = db.nextCallId := by
  unfold setColumn
  split
  · exact Database.nextCallId_updatePasted
  · rfl

/-- `ReceiveMetadata` ignores a command of the wrong length; of another it sets one column. -/
theorem receiveMetadata_spec (hc : s.conn fd = some c)
    (h : s.receiveMetadata w fd cmds = some s') :
    (cmds.length ≠ 2 ∧ cmds.length ≠ 3) ∧ s' = s ∨ (cmds.length = 2 ∨ cmds.length = 3) ∧
      s' = (s.withDb (setColumn w c.uid (cmds.at 1) (metadataValue cmds))).sendUidUpdate c.uid := by
  simp only [receiveMetadata, hc, Option.bind_eq_bind, Option.bind_some] at h
  by_cases hlen : cmds.length ≠ 2 ∧ cmds.length ≠ 3
  · rw [if_pos hlen] at h
    exact .inl ⟨hlen, (Option.some.inj h).symm⟩
  · rw [if_neg hlen] at h
    refine .inr ⟨by omega, (Option.some.inj h).symm.trans ?_⟩
    by_cases hFN : cmds.at 1 = "FN"
    · simp only [hFN]
      rfl
    by_cases hMA : cmds.at 1 = "MA"
    · simp only [hMA]
      rfl
    by_cases hPH : cmds.at 1 = "PH"
    · simp only [hPH]
      rfl
    · have hnone : ¬ UserRow.hasColumn (cmds.at 1) = true := by
        rw [UserRow.hasColumn, decide_eq_false hFN, decide_eq_false hMA, decide_eq_false hPH]
        exact Bool.false_ne_true
      have hdb : s.withDb (setColumn w c.uid (cmds.at 1) (metadataValue cmds)) = s := by
        rw [withDb, setColumn, if_neg hnone]
      rw [hdb, if_neg hFN, if_neg hMA, if_neg hPH]

/-! ## `zombieData` -/

/-- A turn of the sweep removes the connection when it is a zombie. -/
theorem zombieTurn_spec : (∀ k, (s.zombieTurn fd).conn k =
      if fd = k then (s.conn k).filter fun c => ¬ c.zombie else s.conn k) ∧
    (s.zombieTurn fd).db = s.db ∧ (s.zombieTurn fd).sent = s.sent := by
  unfold zombieTurn
  split
  · next h =>
      refine ⟨fun k => ?_, rfl, rfl⟩
      rw [conn_eraseConn]
      split
      · next hk =>
          subst hk
          cases hc : s.conn fd with
          | none => rfl
          | some c => simpa [hc, Option.filter] using h
      · rfl
  · next h =>
      refine ⟨fun k => ?_, rfl, rfl⟩
      split
      · next hk =>
          subst hk
          cases hc : s.conn fd with
          | none => rfl
          | some c => simpa [hc, Option.filter] using h
      · rfl

/-- `zombieData` removes the zombies and does nothing else. -/
theorem zombieData_spec (s : MainObject) :
    (∀ k, s.zombieData.conn k = (s.conn k).filter fun c => ¬ c.zombie) ∧
    s.zombieData.db = s.db ∧ s.zombieData.sent = s.sent := by
  have go (l : List Int) (s : MainObject) : (∀ k, (l.foldl zombieTurn s).conn k =
      if k ∈ l then (s.conn k).filter fun c => ¬ c.zombie else s.conn k) ∧
      (l.foldl zombieTurn s).db = s.db ∧ (l.foldl zombieTurn s).sent = s.sent := by
    induction l generalizing s with
    | nil => simp
    | cons fd l ih =>
        obtain ⟨hconn, hdb, hsent⟩ := ih (s.zombieTurn fd)
        obtain ⟨hconn', hdb', hsent'⟩ := @zombieTurn_spec s fd
        refine ⟨fun k => ?_, hdb.trans hdb', hsent.trans hsent'⟩
        rw [List.foldl_cons, hconn, hconn']
        by_cases hk : fd = k
        · subst hk
          by_cases hl : fd ∈ l <;> simp [hl]
        · by_cases hl : k ∈ l <;> simp [hk, hl, Ne.symm hk]
  obtain ⟨hconn, hdb, hsent⟩ := go s.fds s
  refine ⟨fun k => (hconn k).trans ?_, hdb, hsent⟩
  split
  · rfl
  · next hk =>
      cases hc : s.conn k with
      | none => rfl
      | some c => exact absurd (mem_fds.2 ⟨c, hc⟩) hk

end MainObject

end NetISDN
