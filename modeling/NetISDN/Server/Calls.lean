import NetISDN.Server.Dispatch
import NetISDN.Server.Switchboard

/-!
# What the handlers do to the calls

The call of a connection is in three of its fields (`CallState`). Most commands leave the calls
alone (`SameCalls`): they change no such field, no row of `CALLS`, and start and stop nobody's
media. What ends a call does the same thing everywhere (`HangsUpCall`).
-/

namespace NetISDN

/-! ## Media commands -/

/-- What a command tells a client about its media: `ME` and `MS` do. -/
def mediaOf : QString → Option Media
  | 'M' :: 'E' :: _ => some .start
  | 'M' :: 'S' :: _ => some .stop
  | _ => none

@[simp] theorem mediaOf_msCommand : mediaOf msCommand = some .stop := rfl

@[simp] theorem mediaOf_erCommand (code : ResponseCode) : mediaOf (erCommand code) = none := rfl

/-- `ForwardMessage` passes on commands that are not about media. -/
theorem mediaOf_forwardText {cmds : QStringList} (h : cmds.at 0 = "CB" ∨ cmds.at 0 = "ER") :
    mediaOf (MainObject.forwardText cmds) = none := by
  cases cmds with
  | nil => rcases h with h | h <;> cases h
  | cons t ts =>
      rcases h with h | h
      · obtain rfl : t = "CB" := h
        rfl
      · obtain rfl : t = "ER" := h
        rfl

/-- The media commands among `cmds`. -/
def mediaIn (cmds : List QString) : List Media := cmds.filterMap mediaOf

@[simp] theorem mediaIn_nil : mediaIn [] = [] := rfl

@[simp] theorem mediaIn_append (cmds cmds' : List QString) :
    mediaIn (cmds ++ cmds') = mediaIn cmds ++ mediaIn cmds' := List.filterMap_append ..

/-- The media commands of a text that is sent under a condition. -/
theorem mediaIn_ite {p : Prop} [Decidable p] (cmds : List QString) :
    mediaIn (if p then cmds else []) = if p then mediaIn cmds else [] := by
  split <;> rfl

/-! ## The call of a connection -/

/-- The fields of a connection that hold its call. -/
structure CallState where
  connectionFd : Int
  cid : Int
  sourcePort : Nat
  deriving DecidableEq

/-- The call fields of a connection. -/
def SipConnection.call (c : SipConnection) : CallState := ⟨c.connectionFd, c.cid, c.sourcePort⟩

/-- The call fields where there is no call. -/
def CallState.idle : CallState := ⟨-1, -1, 0⟩

@[simp] theorem SipConnection.call_clearCall (c : SipConnection) : c.clearCall.call = .idle := rfl

namespace MainObject

variable {env : Env} {w : World} {s s' s₁ : MainObject} {fd d k : Int} {c cd : SipConnection}
  {cmds : QStringList}

/-- The call fields of the connection on `fd`. -/
def callOf (s : MainObject) (fd : Int) : Option CallState := (s.conn fd).map SipConnection.call

/-- The media commands sent to the client on `fd`. -/
def media (s : MainObject) (fd : Int) : List Media := mediaIn (s.sentTo fd)

/-- A change that leaves the calls alone. -/
theorem callOf_modifyConn {f : SipConnection → SipConnection} (hf : ∀ c, (f c).call = c.call) :
    (s.modifyConn fd f).callOf k = s.callOf k := by
  rw [callOf, callOf, conn_modifyConn]
  split
  · cases s.conn k with
    | none => rfl
    | some c => simp [hf]
  · rfl

/-- Sending another command starts and stops no media. -/
theorem media_sendCommand {cmd : QString} (h : mediaOf cmd = none) :
    (s.sendCommand fd cmd).media k = s.media k := by
  rw [media, media, sentTo_sendCommand]
  split <;> simp [mediaIn, h]

/-! ## Handlers that leave the calls alone -/

/-- `s'` has the calls of `s`, and nobody's media have been started or stopped between them. -/
structure SameCalls (s s' : MainObject) : Prop where
  call : ∀ k, s'.callOf k = s.callOf k
  calls : s'.db.calls = s.db.calls
  nextCallId : s'.db.nextCallId = s.db.nextCallId
  media : ∀ k, s'.media k = s.media k

/-- Nothing has happened to the calls. -/
theorem SameCalls.refl (s : MainObject) : SameCalls s s := ⟨fun _ => rfl, rfl, rfl, fun _ => rfl⟩

/-- What leaves the calls alone twice leaves them alone. -/
theorem SameCalls.trans (h : SameCalls s s₁) (h' : SameCalls s₁ s') : SameCalls s s' :=
  ⟨fun k => (h'.call k).trans (h.call k), h'.calls.trans h.calls,
    h'.nextCallId.trans h.nextCallId, fun k => (h'.media k).trans (h.media k)⟩

/-- Sending another command leaves the calls alone. -/
theorem sameCalls_sendCommand {cmd : QString} (h : mediaOf cmd = none) :
    SameCalls s (s.sendCommand fd cmd) :=
  ⟨fun _ => rfl, rfl, rfl, fun _ => media_sendCommand h⟩

/-- Changing other parts of a connection leaves the calls alone. -/
theorem sameCalls_modifyConn {f : SipConnection → SipConnection}
    (hf : ∀ c, (f c).call = c.call) : SameCalls s (s.modifyConn fd f) :=
  ⟨fun _ => callOf_modifyConn hf, rfl, rfl, fun _ => rfl⟩

/-- Taking a command leaves the calls alone. -/
theorem sameCalls_takeLine : SameCalls s (s.takeLine fd) := sameCalls_modifyConn fun _ => rfl

/-- A statement that leaves `CALLS` alone. -/
theorem sameCalls_withDb {g : Database → Database} (hcalls : (g s.db).calls = s.db.calls)
    (hnext : (g s.db).nextCallId = s.db.nextCallId) : SameCalls s (s.withDb g) :=
  ⟨fun _ => rfl, hcalls, hnext, fun _ => rfl⟩

/-- The update of a user leaves the calls alone. -/
theorem sameCalls_sendUidUpdate {uid : Int} : SameCalls s (s.sendUidUpdate uid) :=
  ⟨fun _ => rfl, rfl, rfl, fun _ => by simp [media]⟩

/-- A command that does not kill, set up or end a call leaves the calls alone. -/
theorem Outcome.calls (h : Outcome env w s fd c cmds s') : SameCalls s s' ∨
    (∃ code, s.killCode fd c cmds = some code ∧
      (s.sendCommand fd (erCommand code)).socketKill w fd = some s') ∨
    (∃ d cd, s.callee w c cmds = some d ∧ s.conn d = some cd ∧ s.setupCall w fd d cmds = some s') ∨
    (cmds.at 0 = "BY" ∧ c.isAuthenticated ∧ s.endCall w fd = some s') := by
  cases h with
  | kill hcode hs => exact .inr (.inl ⟨_, hcode, hs⟩)
  | stranger => exact .inl (sameCalls_sendCommand rfl)
  | identify =>
      exact .inl ((sameCalls_sendCommand rfl).trans (sameCalls_modifyConn fun _ => rfl))
  | accept =>
      have h₁ : SameCalls s (s.modifyConn fd SipConnection.setAuthenticated) :=
        sameCalls_modifyConn fun _ => rfl
      have h₂ {s : MainObject} : SameCalls s (s.withDb fun db => db.updatePasted w c.clientVersion
          c.uid (UserRow.goOnline w.sqlNow c.peerAddress.toString (w.stored c.clientVersion)
          (env.location c.peerAddress))) :=
        sameCalls_withDb Database.calls_updatePasted Database.nextCallId_updatePasted
      exact .inl (((h₁.trans h₂).trans (sameCalls_sendCommand rfl)).trans sameCalls_sendUidUpdate)
  | refuse => exact .inl (sameCalls_sendCommand rfl)
  | setup hcallee hd hs => exact .inr (.inr (.inl ⟨_, _, hcallee, hd, hs⟩))
  | bye h0 hauth hs => exact .inr (.inr (.inr ⟨h0, hauth, hs⟩))
  | forward h0 => exact .inl (sameCalls_sendCommand (mediaOf_forwardText h0))
  | mute => exact .inl (.refl s)
  | metadata =>
      exact .inl ((sameCalls_withDb calls_setColumn nextCallId_setColumn).trans
        sameCalls_sendUidUpdate)
  | ping => exact .inl (sameCalls_modifyConn fun _ => rfl)

/-! ## Hanging up -/

/-- The call of `fd`, whose connection is `c`, is ended: both ends are cleared and told to stop
their media, and the row of the call is ended. -/
structure HangsUpCall (w : World) (fd : Int) (c : SipConnection) (s s' : MainObject) : Prop where
  call : ∀ k, s'.callOf k = if fd = k ∨ 0 ≤ c.connectionFd ∧ c.connectionFd = k then
      (s.callOf k).map fun _ => .idle
    else s.callOf k
  calls : s'.db.calls = (s.db.updateCallEnd (c.endedCid fd) w.sqlNow).calls
  nextCallId : s'.db.nextCallId = s.db.nextCallId
  media : ∀ k, s'.media k = s.media k ++
    (if 0 ≤ c.connectionFd ∧ c.connectionFd = k then [.stop] else []) ++
    if fd = k then [.stop] else []

/-- `EndCall` ends the call. -/
theorem EndsCall.hangsUp (h : EndsCall w fd c s s') : HangsUpCall w fd c s s' := by
  refine ⟨fun k => ?_, by rw [h.db], by rw [h.db]; rfl, fun k => ?_⟩
  · rw [callOf, callOf, h.conn]
    split
    · cases s.conn k <;> rfl
    · rfl
  · rw [media, media, h.sentTo]
    simp only [mediaIn, List.filterMap_append]
    split_ifs <;> rfl

/-- `Logout` ends the call of a connection that has one. -/
theorem LogsOut.hangsUp (hc : s.conn fd = some c) (hcid : 0 ≤ c.cid) (h : LogsOut w fd c s s') :
    HangsUpCall w fd c s s' := by
  refine ⟨fun k => ?_, by rw [h.db, if_pos hcid]; rfl, by rw [h.db, if_pos hcid]; rfl, fun k => ?_⟩
  · rw [callOf, callOf]
    by_cases hk : fd = k
    · subst hk
      rw [h.conn_self, if_pos (.inl rfl), hc]
      simp [SipConnection.release, hcid, SipConnection.call, CallState.idle]
    · rw [h.conn k hk]
      simp only [hk, false_or, SipConnection.release, if_pos hcid]
      split
      · cases s.conn k <;> rfl
      · rfl
  · rw [media, media, h.sentTo, if_pos hcid]
    simp only [mediaIn, List.filterMap_append]
    split_ifs <;> simp

/-- `Logout` leaves the calls alone if the connection has none. -/
theorem LogsOut.sameCalls (hc : s.conn fd = some c) (hidle : c.call = .idle)
    (h : LogsOut w fd c s s') : SameCalls s s' := by
  obtain ⟨hfd, hcid, hport⟩ : c.connectionFd = -1 ∧ c.cid = -1 ∧ c.sourcePort = 0 := by
    simpa [SipConnection.call, CallState.idle] using hidle
  refine ⟨fun k => ?_, by rw [h.db]; simp [hcid]; rfl, by rw [h.db]; simp [hcid]; rfl, fun k => ?_⟩
  · rw [callOf, callOf]
    by_cases hk : fd = k
    · subst hk
      rw [h.conn_self, hc]
      simp [SipConnection.release, SipConnection.call, hcid, hfd]
    · rw [h.conn k hk, if_neg (by simp [hfd])]
  · rw [media, media, h.sentTo, if_neg (by simp [hcid]), List.append_nil]

/-! ## Putting a call through -/

@[simp] theorem mediaIn_metadata (o : Option UserRow) :
    mediaIn ((o.map metadata).getD []) = [] := by
  cases o <;> rfl

section
variable {port port' : Nat} {id : Int} {row : CallRow}
  (h : SetsUpCall w fd d cmds c cd port port' id row s s')
include h

/-- The two connections point at each other and carry the same identifier. -/
theorem SetsUpCall.callOf (k : Int) : s'.callOf k = if fd = k ∨ d = k then
      (s.callOf k).map fun _ => ⟨if d = k then fd else d, id, if d = k then port' else port⟩
    else s.callOf k := by
  rw [MainObject.callOf, MainObject.callOf, h.conn]
  split
  · cases s.conn k <;> rfl
  · rfl

/-- The media of the two connections, and of no other, are started. -/
theorem SetsUpCall.media (k : Int) : s'.media k = s.media k ++
    (if fd = k then [.start] else []) ++ if d = k then [.start] else [] := by
  have hcaller (name : QString) (p p' : Nat) (addr : QHostAddress) :
      mediaIn [erCommand .callProceeding, callerMe name p addr p' cmds] = [.start] := rfl
  have hcallee (name : QString) (p p' : Nat) (addr : QHostAddress) (o : Option UserRow) :
      mediaIn (calleeMe name p addr p' cmds :: (o.map metadata).getD []) = [.start] := by
    rw [mediaIn, List.filterMap_cons, show mediaOf (calleeMe name p addr p' cmds) = some .start from
      rfl, ← mediaIn, mediaIn_metadata]
  rw [MainObject.media, MainObject.media, h.sentTo]
  simp only [mediaIn_append, mediaIn_ite, hcaller, hcallee, mediaIn_metadata, ite_self,
    List.append_nil]

end

end MainObject

end NetISDN
