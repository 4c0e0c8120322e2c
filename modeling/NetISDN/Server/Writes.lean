import NetISDN.Server.Dispatch

/-!
# What the server writes

Every handler that changes a table does so by one of five statements, and announces each with a
status datagram once it has been executed. `Writes` lists the statements of a part of a step, and
`step_writes` those of a whole step, whatever it is.
-/

namespace NetISDN

/-- A statement that changes a table. `logCall` is the `insert` of `InitiateCall` with the row that
the query behind it finds; the text of a client goes into `goOnline` and `setColumn`. -/
inductive Write where
  | endCall (id : Int)
  | goOffline (uid : Int)
  | goOnline (uid : Int) (addr version location : QString)
  | setColumn (uid : Int) (tag value : QString)
  | logCall (row : CallRow) (found : Int)

namespace Write

/-- Logging out does not touch the identifier. -/
theorem id_offline (w : World) (u : UserRow) : (u.offline w.sqlNow).id = u.id := rfl

/-- Logging in does not touch the identifier. -/
theorem id_goOnline (w : World) (addr version location : QString) (u : UserRow) :
    (u.goOnline w.sqlNow addr (w.stored version) location).id = u.id := rfl

/-- The tables once a statement has been executed. -/
def apply (w : World) (db : Database) : Write → Database
  | .endCall id => db.updateCallEnd id w.sqlNow
  | .goOffline uid => db.updateUser uid (UserRow.offline w.sqlNow) (id_offline w)
  | .goOnline uid addr version location =>
    db.updatePasted w version uid (UserRow.goOnline w.sqlNow addr (w.stored version) location)
      (id_goOnline w addr version location)
  | .setColumn uid tag value => MainObject.setColumn w uid tag value db
  | .logCall row _ => db.insertCall row

/-- The datagram that announces a statement. -/
def notice : Write → QString
  | .endCall id => "c" ++ sprintfD id
  | .goOffline uid | .goOnline uid _ _ _ | .setColumn uid _ _ => "u" ++ sprintfD uid
  | .logCall _ found => "c" ++ sprintfD found

/-- All statements but the `insert`. -/
def isUpdate : Write → Bool
  | .logCall _ _ => false
  | _ => true

end Write

namespace MainObject

variable {env : Env} {w : World} {s s₁ s₂ s' : MainObject} {fd d : Int}
  {c cd : SipConnection} {cmds : QStringList} {ws ws' : List Write} {out : List Output} {e : Event}

/-- Between `s` and `s'` the server has executed the statements `ws` and announced each of them. -/
structure Writes (w : World) (s s' : MainObject) (ws : List Write) : Prop where
  db : s'.db = ws.foldl (Write.apply w) s.db
  sent : ∃ out, s'.sent = s.sent ++ out ∧ ∀ x ∈ ws, Output.status x.notice ∈ out

/-- Nothing is executed. -/
theorem Writes.refl (s : MainObject) : Writes w s s [] :=
  ⟨rfl, [], (List.append_nil _).symm, List.forall_mem_nil _⟩

/-- What is executed in two parts of a step. -/
theorem Writes.trans (h : Writes w s s₁ ws) (h' : Writes w s₁ s' ws') :
    Writes w s s' (ws ++ ws') := by
  obtain ⟨out, hout, htold⟩ := h.sent
  obtain ⟨out', hout', htold'⟩ := h'.sent
  refine ⟨by rw [h'.db, h.db, List.foldl_append], out ++ out',
    by rw [hout', hout, List.append_assoc], ?_⟩
  intro x hx
  rcases List.mem_append.1 hx with hx | hx
  · exact List.mem_append_left _ (htold x hx)
  · exact List.mem_append_right _ (htold' x hx)

/-- What touches neither the tables nor the sockets goes unnoticed. -/
theorem Writes.withConns (h : Writes w s s₁ ws)
    (conns : Std.ExtTreeMap Int SipConnection compare) :
    Writes w s { s₁ with sip_connections := conns } ws := ⟨h.db, h.sent⟩

/-- More output leaves what has been written. -/
theorem Writes.emit (h : Writes w s s₁ ws) (o : Output) : Writes w s (s₁.emit o) ws := by
  obtain ⟨out, hout, htold⟩ := h.sent
  refine ⟨h.db, out ++ [o], by rw [sent_emit, hout, List.append_assoc], fun x hx => ?_⟩
  exact List.mem_append_left _ (htold x hx)

/-- Metadata that are sent write nothing. -/
theorem Writes.sendMetadata (h : Writes w s s₁ ws) (uid : Int) :
    Writes w s (s₁.sendMetadata uid fd) ws := by
  unfold MainObject.sendMetadata
  split
  · exact (((h.emit _).emit _).emit _).emit _
  · exact h

/-- A statement, and output among which its announcement is. -/
theorem Writes.write (h : Writes w s s₁ ws) (x : Write) (out : List Output)
    (hdb : s'.db = x.apply w s₁.db) (hsent : s'.sent = s₁.sent ++ out)
    (hx : Output.status x.notice ∈ out) : Writes w s s' (ws ++ [x]) :=
  h.trans ⟨hdb, out, hsent, fun y hy => by rwa [List.mem_singleton.1 hy]⟩

/-- Between `s` and `s'` the server has executed and announced some statements, no `insert` among
them. -/
def Updates (w : World) (s s' : MainObject) : Prop :=
  ∃ ws, Writes w s s' ws ∧ ∀ x ∈ ws, x.isUpdate = true

/-- Nothing is executed. -/
theorem Updates.refl (s : MainObject) : Updates w s s :=
  ⟨[], .refl s, List.forall_mem_nil _⟩

/-- What is updated in two parts of a step. -/
theorem Updates.trans (h : Updates w s s₁) (h' : Updates w s₁ s') : Updates w s s' := by
  obtain ⟨ws, hw, hupdate⟩ := h
  obtain ⟨ws', hw', hupdate'⟩ := h'
  exact ⟨ws ++ ws', hw.trans hw', List.forall_mem_append.2 ⟨hupdate, hupdate'⟩⟩

/-- A change of the connections writes nothing. -/
theorem Updates.withConns (h : Updates w s s₁) (conns : Std.ExtTreeMap Int SipConnection compare) :
    Updates w s { s₁ with sip_connections := conns } := by
  obtain ⟨ws, hw, hupdate⟩ := h
  exact ⟨ws, hw.withConns conns, hupdate⟩

/-- And so does a change of one of them. -/
theorem Updates.modifyConn (h : Updates w s s₁) {f : SipConnection → SipConnection} :
    Updates w s (s₁.modifyConn fd f) := h.withConns _

/-- Output that is no datagram writes nothing. -/
theorem Updates.emit (h : Updates w s s₁) (o : Output) : Updates w s (s₁.emit o) := by
  obtain ⟨ws, hw, hupdate⟩ := h
  exact ⟨ws, hw.emit o, hupdate⟩

/-- One statement that is no `insert`. -/
theorem Updates.write (x : Write) (out : List Output) (hdb : s'.db = x.apply w s.db)
    (hsent : s'.sent = s.sent ++ out) (hx : Output.status x.notice ∈ out)
    (hupdate : x.isUpdate = true) :
    Updates w s s' :=
  ⟨[x], (Writes.refl s).write x out hdb hsent hx, by simpa using hupdate⟩

/-! ## The handlers -/

/-- `EndCall` from the row on, behind what it does to the partner. -/
theorem Updates.endCall (h : Updates w s s₁) (cid src_uid dest_uid : Int) :
    Updates w s (((((((s₁.withDb fun db => db.updateCallEnd cid w.sqlNow).sendCommand fd
      msCommand).modifyConn fd SipConnection.clearCall).sendUidUpdate src_uid).sendUidUpdate
        dest_uid)).sendCidUpdate cid) := by
  refine h.trans (.write (.endCall cid) [.command fd msCommand, .status ("u" ++ sprintfD src_uid),
    .status ("u" ++ sprintfD dest_uid), .status ("c" ++ sprintfD cid)] rfl ?_ ?_ rfl)
  · simp [sendCommand, sendUidUpdate, sendCidUpdate]
  · simp [Write.notice]

/-- The end of a call updates. -/
theorem endCall_updates (h : s.endCall w fd = some s') : Updates w s s' := by
  simp only [MainObject.endCall, Option.bind_eq_bind, Option.bind_eq_some_iff] at h
  obtain ⟨c, -, h⟩ := h
  split_ifs at h
  · simp only [Option.bind_eq_some_iff, Option.pure_def, Option.some.injEq, exists_eq_left'] at h
    obtain ⟨d, -, c₁, -, rfl⟩ := h
    exact ((Updates.refl s).emit _).modifyConn.endCall c₁.cid c.uid d.uid
  · simp only [Option.bind_eq_some_iff, Option.pure_def, Option.some.injEq, Option.bind_some] at h
    obtain ⟨c₁, -, rfl⟩ := h
    exact (Updates.refl s).endCall c₁.cid c.uid 0

/-- `Logout` from the row on, behind what it does to the links. -/
theorem Updates.forgetUser (h : Updates w s s₁) (uid : Int) :
    Updates w s (((s₁.withDb fun db => db.updateUser uid (UserRow.offline w.sqlNow)).modifyConn
      fd SipConnection.forget).sendUidUpdate uid) :=
  h.trans (.write (.goOffline uid) [.status ("u" ++ sprintfD uid)] rfl rfl
    (List.mem_singleton.2 rfl) rfl)

/-- A user that is forgotten is updated. -/
theorem forgetUser_updates (h : s.forgetUser w fd = some s') : Updates w s s' := by
  simp only [MainObject.forgetUser, Option.bind_eq_bind, Option.bind_eq_some_iff] at h
  obtain ⟨c, -, h⟩ := h
  split_ifs at h
  · simp only [Option.bind_eq_some_iff, Option.pure_def, Option.some.injEq, exists_eq_left'] at h
    obtain ⟨d, -, rfl⟩ := h
    exact (Updates.refl s).modifyConn.modifyConn.forgetUser c.uid
  · simp only [Option.pure_def, Option.some.injEq, Option.bind_some] at h
    subst h
    exact (Updates.refl s).modifyConn.forgetUser c.uid

/-- A logout updates. -/
theorem logout_updates (h : s.logout w fd = some s') : Updates w s s' := by
  simp only [logout, Option.bind_eq_bind, Option.bind_eq_some_iff] at h
  obtain ⟨c, -, h⟩ := h
  split at h
  · obtain rfl := Option.some.inj h
    exact .refl s
  split at h
  · obtain ⟨s₁, h₁, h⟩ := Option.bind_eq_some_iff.1 h
    exact (endCall_updates h₁).trans (forgetUser_updates h)
  · exact forgetUser_updates h

/-- A kill updates. -/
theorem socketKill_updates (hc : s.conn fd = some c) (h : s.socketKill w fd = some s') :
    Updates w s s' := by
  rcases socketKill_spec hc h with ⟨-, rfl⟩ | ⟨-, s₁, h₁, rfl⟩
  · exact .refl _
  · exact (logout_updates h₁).modifyConn

/-- The ping sweep updates. -/
theorem pingTimerData_updates (h : s.pingTimerData w = some s') : Updates w s s' := by
  refine (pingTimerData_rule (I := fun _ s₁ => Updates w s s₁) h (.refl s) ?_).1
  intro done fd c s₁ s₂ hturn hI
  rcases hturn.turn with ⟨-, rfl⟩ | ⟨-, s₃, h₃, rfl⟩
  · exact hI.emit _
  · exact (hI.trans (logout_updates h₃)).withConns _

/-- A login that is accepted updates. -/
theorem acceptLogin_updates : Updates w s (s.acceptLogin env w fd c) :=
  .write (.goOnline c.uid c.peerAddress.toString c.clientVersion (env.location c.peerAddress))
    [.command fd ("OK " ++ sprintfU registrationInterval ++ "!"), .status ("u" ++ sprintfD c.uid)]
      rfl
    (by simp [acceptLogin, sendCommand, sendUidUpdate]) (by simp [Write.notice]) rfl

/-- The row that a call gets, and the one that the query behind its insertion finds. -/
structure Logged (w : World) (db : Database) (c : SipConnection) (row : CallRow) (found : Int) :
    Prop where
  origUid : row.origUid = c.uid
  startDatetime : row.startDatetime = w.seconds
  endDatetime : row.endDatetime = none
  found : (db.insertCall row).selectLatestCall c.uid w.pick = some found

/-- The assignment of ports sends nothing. -/
theorem sent_assignPorts (h : s.assignPorts fd d = some s') : s'.sent = s.sent := by
  simp only [assignPorts, Option.bind_eq_bind, Option.bind_eq_some_iff, Option.pure_def,
    Option.some.injEq] at h
  obtain ⟨c, -, cd, -, port, -, port', -, rfl⟩ := h
  rfl

/-- The logging of a call sends nothing. -/
theorem sent_logCall (h : s.logCall w fd d cmds = some s') : s'.sent = s.sent := by
  simp only [logCall, Option.bind_eq_bind, Option.bind_eq_some_iff] at h
  obtain ⟨c, -, cd, -, h⟩ := h
  split at h
  · obtain rfl := Option.some.inj h
    rfl
  · obtain rfl := Option.some.inj h
    rfl

/-- `InitiateCall` ends with the datagram about the call. -/
theorem sent_startEncoders (hc : s.conn fd = some c) (h : s.startEncoders fd d cmds = some s') :
    ∃ out, s'.sent = s.sent ++ out ∧ Output.status ("c" ++ sprintfD c.cid) ∈ out := by
  simp only [startEncoders, hc, Option.bind_eq_bind, Option.bind_some, Option.bind_eq_some_iff,
    Option.pure_def, Option.some.injEq] at h
  obtain ⟨cd, -, rfl⟩ := h
  have hall : Writes { now := 0 } s
      (((((s.sendCommand fd (callerMe cd.username c.sourcePort (callAddrs c cd).2
        cd.sourcePort cmds)).sendCommand d (calleeMe c.username cd.sourcePort (callAddrs c cd).1
        c.sourcePort cmds)).sendMetadata c.uid d).sendMetadata cd.uid fd).sendUidUpdate c.uid
        |>.sendUidUpdate cd.uid) [] :=
    (((((Writes.refl s).emit _).emit _).sendMetadata c.uid).sendMetadata cd.uid).emit _ |>.emit _
  obtain ⟨out, hout, -⟩ := hall.sent
  exact ⟨out ++ [.status ("c" ++ sprintfD c.cid)], by rw [sendCidUpdate, sent_emit, hout,
    List.append_assoc], List.mem_append_right _ (List.mem_singleton.2 rfl)⟩

/-- A call that is set up is logged. -/
theorem setupCall_writes (hc : s.conn fd = some c) (hd : s.conn d = some cd)
    (h : s.setupCall w fd d cmds = some s') :
    ∃ row found, Writes w s s' [.logCall row found] ∧ Logged w s.db c row found := by
  obtain ⟨port, port', id, row, hset⟩ := setupCall_spec hc hd h
  refine ⟨row, id, ⟨hset.db, ?_⟩, hset.origUid, hset.startDatetime, hset.endDatetime,
    hset.db ▸ hset.cid⟩
  simp only [setupCall, Option.bind_eq_bind, Option.bind_eq_some_iff] at h
  obtain ⟨s₁, h₁, s₂, h₂, h₃⟩ := h
  have hthere := hset.conn fd
  rw [if_pos (.inl rfl), hc, Option.map_some] at hthere
  obtain ⟨c₂, hc₂⟩ : ∃ c₂, s₂.conn fd = some c₂ := by
    simp only [startEncoders, Option.bind_eq_bind, Option.bind_eq_some_iff] at h₃
    obtain ⟨c₂, hc₂, -⟩ := h₃
    exact ⟨c₂, hc₂⟩
  obtain ⟨cd₂, hcd₂⟩ : ∃ cd₂, s₂.conn d = some cd₂ := by
    simp only [startEncoders, Option.bind_eq_bind, Option.bind_eq_some_iff] at h₃
    obtain ⟨-, -, cd₂, hcd₂, -⟩ := h₃
    exact ⟨cd₂, hcd₂⟩
  have hcid : c₂.cid = id := by
    rw [(startEncoders_spec hc₂ hcd₂ h₃).1, hc₂, Option.some.injEq] at hthere
    rw [hthere]
    rfl
  obtain ⟨out, hout, hmem⟩ := sent_startEncoders hc₂ h₃
  refine ⟨.command fd (erCommand .callProceeding) :: out, ?_, ?_⟩
  · rw [hout, sent_logCall h₂, sent_assignPorts h₁]
    simp [sendCommand]
  · rintro x (_ | ⟨_, hx⟩)
    · exact .tail _ (hcid ▸ hmem)
    · cases hx

/-! ## A step -/

/-- The statements of a step, with what is known of an `insert`: it is the only statement of its
step, a call has been put through, and the row is that of the call. -/
structure Stores (s : MainObject) (e : Event) (s' : MainObject) (out : List Output)
    (ws : List Write) :
    Prop where
  db : s'.db = ws.foldl (Write.apply e.world) s.db
  told : ∀ x ∈ ws, Output.status x.notice ∈ out
  logged : ∀ row found, .logCall row found ∈ ws → ws = [.logCall row found] ∧
    ∃ p ∈ s.putThrough e, ∃ c ∈ s.conn p.1, Logged e.world s.db c row found

/-- A part of a step that is the whole step but for its output so far. -/
theorem Updates.stores (h : Updates e.world s.flush s₁) : ∃ ws, Stores s e s₁.flush s₁.sent ws := by
  obtain ⟨ws, ⟨hdb, out, hout, htold⟩, hupdate⟩ := h
  refine ⟨ws, hdb, fun x hx => ?_, fun row found hx => absurd (hupdate _ hx) nofun⟩
  rw [hout]
  exact List.mem_append_right _ (htold x hx)

/-- **The inversion of a step, as far as the tables go.** -/
theorem step_writes (h : step env s e = some (s', out)) : ∃ ws, Stores s e s' out ws := by
  obtain ⟨s₁, ht, rfl, rfl⟩ := step_transition h
  obtain ⟨slot, w⟩ := e
  cases ht with
  | newConnection | byte => exact Updates.stores (e := ⟨_, w⟩) ((Updates.refl _).withConns _)
  | zombieData =>
      obtain ⟨-, hdb, hsent⟩ := zombieData_spec s.flush
      exact ⟨[], hdb, List.forall_mem_nil _, nofun⟩
  | socketKill hc hkill => exact Updates.stores (e := ⟨_, w⟩) (socketKill_updates hc hkill)
  | pingTimerData hping => exact Updates.stores (e := ⟨_, w⟩) (pingTimerData_updates hping)
  | @command fd c s₁ hc hout =>
      have htake : (s.flush.takeLine fd).conn fd = some c.clearLine := by
        rw [takeLine, conn_modifyConn, if_pos rfl, hc, Option.map_some]
      have hline : Updates w s.flush (s.flush.takeLine fd) := (Updates.refl _).modifyConn
      cases hout with
      | kill _ hkill =>
          exact Updates.stores (e := ⟨_, w⟩) (hline.trans (((Updates.refl _).emit _).trans
            (socketKill_updates htake hkill)))
      | stranger | refuse | forward => exact Updates.stores (e := ⟨_, w⟩) (hline.emit _)
      | identify => exact Updates.stores (e := ⟨_, w⟩) (hline.emit _).modifyConn
      | accept => exact Updates.stores (e := ⟨_, w⟩) (hline.trans acceptLogin_updates)
      | bye _ _ hend => exact Updates.stores (e := ⟨_, w⟩) (hline.trans (endCall_updates hend))
      | mute => exact Updates.stores (e := ⟨_, w⟩) hline
      | ping => exact Updates.stores (e := ⟨_, w⟩) hline.modifyConn
      | metadata =>
          refine Updates.stores (e := ⟨_, w⟩) (hline.trans (.write (.setColumn c.uid
            ((tokens c).at 1) (metadataValue (tokens c))) [.status ("u" ++ sprintfD c.uid)] rfl rfl
            (List.mem_singleton.2 rfl) rfl))
      | @setup d cd s₁ hcallee hd hset =>
          obtain ⟨row, found, hw, hlogged⟩ := setupCall_writes htake hd hset
          obtain ⟨out, hout, htold⟩ := hw.sent
          refine ⟨_, hw.db, ?_, fun row' found' hx => ?_⟩
          · intro x hx
            rw [hout]
            exact List.mem_append_right _ (htold x hx)
          · obtain ⟨rfl, rfl⟩ := Write.logCall.inj (List.mem_singleton.1 hx)
            refine ⟨rfl, (fd, d), ?_, c, hc, hlogged.origUid, hlogged.startDatetime,
              hlogged.endDatetime,
              hlogged.found⟩
            exact putThrough_eq_some.2 ⟨c.clearLine, tokens c, received_eq rfl hc, hcallee⟩

end MainObject

end NetISDN
