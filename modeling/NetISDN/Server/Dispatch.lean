import NetISDN.Server.Spec

/-!
# What a step of the server can do

`ParseCommand` sends each command to its handler. `Outcome` lists the ways this can end, with
all that is known where it ends that way, and `Transition` the ways a slot can end. Every
invariant of the server is proved by cases on these two.
-/

namespace NetISDN

namespace MainObject

variable {env : Env} {w : World} {s s' : MainObject} {fd : Int} {c : SipConnection}
  {cmds : QStringList}

/-! ## What a command is about to do -/

/-- The response with which the server kills the connection `c` on `fd` over a command, if it
does: a malformed `LI` or `PW`, a `PW` that fails, or a command that needs a login. -/
def killCode (s : MainObject) (fd : Int) (c : SipConnection) (cmds : QStringList) :
    Option ResponseCode :=
  if cmds.at 0 = "LI" then if cmds.length ≠ 4 then some .malformed else none
  else if cmds.at 0 = "PW" then
    if cmds.length ≠ 2 then some .malformed
    else if c.uid = 0 ∨ cmds.at 1 ≠ c.hash then some .userInvalid
    else if 0 ≤ s.getFdByUid c.uid fd then some .userActive
    else none
  else if ¬ c.isAuthenticated then some .authenticationNeeded
  else none

/-- The user that MySQL finds for the name in an `LI`, if it finds one. -/
def namedUser (w : World) (s : MainObject) (cmds : QStringList) : Option UserRow :=
  if cmds.at 0 = "LI" ∧ cmds.length = 4 then w.lookup s.db (cmds.at 1) else none

/-- The connection that a `CA` on the connection `c` is about to be put through to, if it is:
the callee search finds it, and it is free. -/
def callee (w : World) (s : MainObject) (c : SipConnection) (cmds : QStringList) : Option Int :=
  if cmds.at 0 = "CA" ∧ c.isAuthenticated ∧ cmds.length = 14 then
    (w.lookup s.db (cmds.at 1)).bind fun u =>
      let d := s.calleeFd u.id
      if 0 ≤ d ∧ (s.conn d).any (·.connectionFd < 0) then some d else none
  else none

/-- A `CA` is put through to a connection that is free. -/
theorem callee_spec {d : Int} (h : s.callee w c cmds = some d) :
    (cmds.at 0 = "CA" ∧ c.isAuthenticated ∧ cmds.length = 14) ∧
      ∃ u, w.lookup s.db (cmds.at 1) = some u ∧ s.calleeFd u.id = d ∧ 0 ≤ d ∧
        ∃ cd, s.conn d = some cd ∧ cd.connectionFd < 0 := by
  rw [callee] at h
  split at h
  · next hcmd =>
      obtain ⟨u, hu, h⟩ := Option.bind_eq_some_iff.1 h
      refine ⟨hcmd, u, hu, ?_⟩
      dsimp only at h
      split at h
      · next hd =>
          obtain rfl := Option.some.inj h
          obtain ⟨cd, hcd, hfree⟩ := (Option.any_eq_true _ _).1 hd.2
          exact ⟨rfl, hd.1, cd, hcd, by simpa using hfree⟩
      · cases h
  · cases h

/-- The text that `ForwardMessage` makes of a command. -/
def forwardText (cmds : QStringList) : QString :=
  (cmds.flatMap fun t => t ++ " ".toList).dropLast ++ "!"

/-- `ForwardMessage` passes a command on to the partner, if there is one. -/
theorem forwardMessage_spec (hc : s.conn fd = some c) (h : s.forwardMessage fd cmds = some s') :
    c.connectionFd < 0 ∧ s' = s ∨ 0 ≤ c.connectionFd ∧ ∃ d, s.conn c.connectionFd = some d ∧
      s' = s.sendCommand c.connectionFd (forwardText cmds) := by
  simp only [forwardMessage, hc, Option.bind_eq_bind, Option.bind_some] at h
  split at h
  · next hlink => exact .inl ⟨hlink, (Option.some.inj h).symm⟩
  · next hlink =>
      obtain ⟨d, hd, h⟩ := Option.bind_eq_some_iff.1 h
      exact .inr ⟨not_lt.1 hlink, d, hd, (Option.some.inj h).symm⟩

/-! ## What an event is about to do -/

/-- The descriptor that a new connection gets in the event. -/
def opens (e : Event) : Option Int :=
  match e.slot with
  | .newConnection fd _ => some fd
  | _ => none

/-- A connection is opened by the slot for new ones. -/
theorem opens_eq_some {e : Event} : opens e = some fd ↔
    ∃ peer, e.slot = .newConnection fd peer := by
  unfold opens
  split
  · next k peer hslot => simp [hslot]
  · next hslot => exact iff_of_false (by simp) fun ⟨peer, h⟩ => hslot fd peer h

/-- The command that an event completes, with the connection it arrives on. -/
def received (s : MainObject) (e : Event) : Option (Int × SipConnection × QStringList) :=
  match e.slot with
  | .socketReady fd '!' => (s.conn fd).map fun c => (fd, c.clearLine, tokens c)
  | _ => none

/-- What `received` is where a command is complete. -/
theorem received_eq {e : Event} (hslot : e.slot = .socketReady fd '!') (hc : s.conn fd = some c) :
    s.received e = some (fd, c.clearLine, tokens c) := by
  rw [received, hslot]
  simp [hc]

/-- A command is complete when its last byte has arrived. -/
theorem slot_of_received {e : Event} (h : s.received e = some (fd, c, cmds)) :
    e.slot = .socketReady fd '!' := by
  unfold received at h
  split at h
  · next k hslot =>
      obtain ⟨c₀, -, heq⟩ := Option.map_eq_some_iff.1 h
      rw [hslot, (Prod.mk.inj heq).1]
  · cases h

/-- The connection on which a command is complete, before its command line is taken. -/
theorem conn_of_received {e : Event} (h : s.received e = some (fd, c, cmds)) :
    ∃ c₀, s.conn fd = some c₀ ∧ c = c₀.clearLine ∧ cmds = tokens c₀ := by
  unfold received at h
  split at h
  · obtain ⟨c₀, hc₀, heq⟩ := Option.map_eq_some_iff.1 h
    obtain ⟨rfl, rfl, rfl⟩ : _ = fd ∧ c₀.clearLine = c ∧ tokens c₀ = cmds := by simpa using heq
    exact ⟨c₀, hc₀, rfl, rfl⟩
  · cases h

/-- What a `PW` must be to be accepted. -/
theorem killCode_password (h0 : cmds.at 0 = "PW") : s.killCode fd c cmds = none ↔
    cmds.length = 2 ∧ c.uid ≠ 0 ∧ cmds.at 1 = c.hash ∧ s.getFdByUid c.uid fd < 0 := by
  have hLI : cmds.at 0 ≠ "LI" := by rw [h0]; decide
  rw [killCode, if_neg hLI, if_pos h0]
  split_ifs with hlen hinvalid hactive
  · simp [hlen]
  · rcases hinvalid with huid | hhash
    · simp [huid]
    · simp [hhash]
  · simp [not_lt.2 hactive]
  · rw [not_or] at hinvalid
    exact iff_of_true rfl ⟨not_not.1 hlen, hinvalid.1, not_not.1 hinvalid.2, not_le.1 hactive⟩

/-- A command on a connection that may give commands does not kill it, but for `LI` and `PW`. -/
theorem killCode_eq_none (hauth : c.isAuthenticated) (hLI : cmds.at 0 ≠ "LI")
    (hPW : cmds.at 0 ≠ "PW") : s.killCode fd c cmds = none := by
  rw [killCode, if_neg hLI, if_neg hPW, if_neg (not_not.2 hauth)]

/-- The connection that an event kills, if it does: `socketKill` and the commands that end in
it kill what is not a zombie yet. -/
def killed (s : MainObject) (e : Event) : Option Int :=
  match e.slot with
  | .socketKill fd => if (s.conn fd).any (¬ ·.zombie) then some fd else none
  | _ => (s.received e).bind fun (fd, c, cmds) =>
    if ¬ c.zombie ∧ ((s.takeLine fd).killCode fd c cmds).isSome then some fd else none

/-- The caller and the callee of the call that an event sets up, if it does. -/
def putThrough (s : MainObject) (e : Event) : Option (Int × Int) :=
  (s.received e).bind fun (fd, c, cmds) => ((s.takeLine fd).callee e.world c cmds).map fun d =>
    (fd, d)

/-- The connection whose `LI` an event completes, and the user that it names, if it names one. -/
def identified (s : MainObject) (e : Event) : Option (Int × UserRow) :=
  (s.received e).bind fun (fd, _, cmds) => (s.namedUser e.world cmds).map fun u => (fd, u)

/-- The connection whose `PW` an event completes, if it is accepted. -/
def accepted (s : MainObject) (e : Event) : Option Int :=
  (s.received e).bind fun (fd, c, cmds) =>
    if cmds.at 0 = "PW" ∧ (s.takeLine fd).killCode fd c cmds = none then some fd else none

/-- The connection whose `BY` an event completes. -/
def saysBye (s : MainObject) (e : Event) : Option Int :=
  (s.received e).bind fun (fd, c, cmds) =>
    if c.isAuthenticated ∧ cmds.at 0 = "BY" then some fd else none

/-- The text of the client that a command writes to `USERS`, if it does: the version, where a `PW`
is accepted, or the value of an `MD`. -/
def writtenText (s : MainObject) (fd : Int) (c : SipConnection) (cmds : QStringList) :
    Option QString :=
  if cmds.at 0 = "PW" then
    if s.killCode fd c cmds = none then some c.clientVersion else none
  else if cmds.at 0 = "MD" ∧ c.isAuthenticated ∧ (cmds.length = 2 ∨ cmds.length = 3) ∧
      UserRow.hasColumn (cmds.at 1) then some (metadataValue cmds)
  else none

/-- The text of a client that an event writes to `USERS`, if it does. -/
def written (s : MainObject) (e : Event) : Option QString :=
  (s.received e).bind fun (fd, c, cmds) => (s.takeLine fd).writtenText fd c cmds

/-- A text of a client that an event writes to `USERS` stands for itself. -/
def WritesPlain (s : MainObject) (e : Event) : Prop := ∀ text ∈ s.written e, Plain text

instance (s : MainObject) (e : Event) : Decidable (WritesPlain s e) :=
  decidable_of_iff ((s.written e).all fun text => decide (Plain text)) <| by
    rw [WritesPlain]
    cases s.written e with
    | none => exact iff_of_true rfl nofun
    | some text => simp

/-- MySQL takes the texts of a client in the statements of an event for what they are: the query for
the name in an `LI` finds a row of `USERS` if it finds any, and what is written to `USERS` is
plain. -/
structure SqlSafe (s : MainObject) (e : Event) : Prop where
  named : ∀ p ∈ s.identified e, p.2 ∈ s.db.users
  plain : WritesPlain s e

instance (s : MainObject) (e : Event) : Decidable (SqlSafe s e) :=
  decidable_of_iff ((s.identified e).all (fun p => s.db.users.contains p.2) = true ∧
      WritesPlain s e) <| by
    have hnamed : (s.identified e).all (fun p => s.db.users.contains p.2) = true ↔
        ∀ p ∈ s.identified e, p.2 ∈ s.db.users := by
      cases s.identified e with
      | none => exact iff_of_true rfl nofun
      | some p => simp
    rw [hnamed]
    exact ⟨fun ⟨h₁, h₂⟩ => ⟨h₁, h₂⟩, fun ⟨h₁, h₂⟩ => ⟨h₁, h₂⟩⟩

section
variable {e : Event} {d : Int} {u : UserRow}

/-- The version is written where a `PW` is accepted. -/
theorem writtenText_password (h0 : cmds.at 0 = "PW") (hcode : s.killCode fd c cmds = none) :
    s.writtenText fd c cmds = some c.clientVersion := by
  rw [writtenText, if_pos h0, if_pos hcode]

/-- The value of an `MD` is written to the column that its tag names. -/
theorem writtenText_metadata (h0 : cmds.at 0 = "MD") (hauth : c.isAuthenticated)
    (hlen : cmds.length = 2 ∨ cmds.length = 3) (htag : UserRow.hasColumn (cmds.at 1)) :
    s.writtenText fd c cmds = some (metadataValue cmds) := by
  have hPW : cmds.at 0 ≠ "PW" := by rw [h0]; decide
  rw [writtenText, if_neg hPW, if_pos ⟨h0, hauth, hlen, htag⟩]

/-- What a command writes is plain in an event that writes what is plain. -/
theorem WritesPlain.text (h : WritesPlain s e) (hrec : s.received e = some (fd, c, cmds)) :
    ∀ text ∈ (s.takeLine fd).writtenText fd c cmds, Plain text := by
  intro text htext
  exact h text (by rw [written, hrec]; exact htext)

/-- A connection is killed by its socket or by what it sent. -/
theorem killed_eq_some : s.killed e = some fd ↔
    (e.slot = .socketKill fd ∧ ∃ c, s.conn fd = some c ∧ c.zombie = false) ∨
    ∃ c cmds code, s.received e = some (fd, c, cmds) ∧ c.zombie = false ∧
      (s.takeLine fd).killCode fd c cmds = some code := by
  have hcmd : ((s.received e).bind fun (k, c, cmds) =>
        if ¬ c.zombie ∧ ((s.takeLine k).killCode k c cmds).isSome then some k else none) = some fd ↔
      ∃ c cmds code, s.received e = some (fd, c, cmds) ∧ c.zombie = false ∧
        (s.takeLine fd).killCode fd c cmds = some code := by
    simp only [Option.bind_eq_some_iff, Prod.exists, Option.ite_none_right_eq_some,
      Option.some.injEq, Bool.not_eq_true, Option.isSome_iff_exists]
    constructor
    · rintro ⟨k, c, cmds, hrec, ⟨hz, code, hcode⟩, rfl⟩
      exact ⟨c, cmds, code, hrec, hz, hcode⟩
    · rintro ⟨c, cmds, code, hrec, hz, hcode⟩
      exact ⟨fd, c, cmds, hrec, ⟨hz, code, hcode⟩, rfl⟩
  by_cases hslot : ∃ k, e.slot = .socketKill k
  · obtain ⟨k, hk⟩ := hslot
    have hnone : s.received e = none := by simp [received, hk]
    simp only [killed, hk, hnone, reduceCtorEq, false_and, exists_false, or_false,
      Option.ite_none_right_eq_some, Option.any_eq_true, Option.some.injEq, Slot.socketKill.injEq,
      decide_eq_true_eq, Bool.not_eq_true]
    constructor
    · rintro ⟨hc, rfl⟩
      exact ⟨rfl, hc⟩
    · rintro ⟨rfl, hc⟩
      exact ⟨hc, rfl⟩
  · have hslot' : e.slot ≠ .socketKill fd := fun h => hslot ⟨fd, h⟩
    rw [← hcmd, or_iff_right (fun h => hslot' h.1), killed]
    split
    · next k hk => exact absurd ⟨k, hk⟩ hslot
    · rfl

/-- A call is put through by the command that asks for it. -/
theorem putThrough_eq_some : s.putThrough e = some (fd, d) ↔
    ∃ c cmds, s.received e = some (fd, c, cmds) ∧
      (s.takeLine fd).callee e.world c cmds = some d := by
  simp only [putThrough, Option.bind_eq_some_iff, Prod.exists, Option.map_eq_some_iff,
    Prod.mk.injEq]
  constructor
  · rintro ⟨k, c, cmds, hrec, d', hd, rfl, rfl⟩
    exact ⟨c, cmds, hrec, hd⟩
  · rintro ⟨c, cmds, hrec, hd⟩
    exact ⟨fd, c, cmds, hrec, d, hd, rfl, rfl⟩

/-- A connection is identified by the command that names a user. -/
theorem identified_eq_some : s.identified e = some (fd, u) ↔
    ∃ c cmds, s.received e = some (fd, c, cmds) ∧ s.namedUser e.world cmds = some u := by
  simp only [identified, Option.bind_eq_some_iff, Prod.exists, Option.map_eq_some_iff,
    Prod.mk.injEq]
  constructor
  · rintro ⟨k, c, cmds, hrec, u', hu, rfl, rfl⟩
    exact ⟨c, cmds, hrec, hu⟩
  · rintro ⟨c, cmds, hrec, hu⟩
    exact ⟨fd, c, cmds, hrec, u, hu, rfl, rfl⟩

/-- A connection is accepted by the password it sends. -/
theorem accepted_eq_some : s.accepted e = some fd ↔
    ∃ c cmds, s.received e = some (fd, c, cmds) ∧ cmds.at 0 = "PW" ∧
      (s.takeLine fd).killCode fd c cmds = none := by
  simp only [accepted, Option.bind_eq_some_iff, Prod.exists, Option.ite_none_right_eq_some,
    Option.some.injEq]
  constructor
  · rintro ⟨k, c, cmds, hrec, h, rfl⟩
    exact ⟨c, cmds, hrec, h⟩
  · rintro ⟨c, cmds, hrec, h⟩
    exact ⟨fd, c, cmds, hrec, h, rfl⟩

/-- A connection says goodbye by the command for it. -/
theorem saysBye_eq_some : s.saysBye e = some fd ↔
    ∃ c cmds, s.received e = some (fd, c, cmds) ∧ c.isAuthenticated ∧ cmds.at 0 = "BY" := by
  simp only [saysBye, Option.bind_eq_some_iff, Prod.exists, Option.ite_none_right_eq_some,
    Option.some.injEq]
  constructor
  · rintro ⟨k, c, cmds, hrec, h, rfl⟩
    exact ⟨c, cmds, hrec, h⟩
  · rintro ⟨c, cmds, hrec, h⟩
    exact ⟨fd, c, cmds, hrec, h, rfl⟩

end

/-- The connection on `fd` is removed in this event because no ping came in time. -/
def TimesOut (s : MainObject) (e : Event) (fd : Int) : Prop :=
  e.slot = .pingTimerData ∧ (s.conn fd).any (·.timedOut e.world)

instance (s : MainObject) (e : Event) (fd : Int) : Decidable (s.TimesOut e fd) :=
  inferInstanceAs (Decidable (_ ∧ _))

/-! ## `ParseCommand` -/

/-- The ways the dispatch of the command `cmds` on `fd`, whose connection is `c`, can end. -/
inductive Outcome (env : Env) (w : World) (s : MainObject) (fd : Int) (c : SipConnection)
    (cmds : QStringList) : MainObject → Prop
  | kill {code s₁} : s.killCode fd c cmds = some code →
      (s.sendCommand fd (erCommand code)).socketKill w fd = some s₁ → Outcome env w s fd c cmds s₁
  | stranger : cmds.at 0 = "LI" → cmds.length = 4 → s.namedUser w cmds = none →
      Outcome env w s fd c cmds (s.sendCommand fd ("LI " ++ generateChallenge w ++ "!"))
  | identify {u} : s.namedUser w cmds = some u →
      Outcome env w s fd c cmds ((s.sendCommand fd ("LI " ++ generateChallenge w ++ "!")).modifyConn
        fd (SipConnection.identify env w u cmds))
  | accept : cmds.at 0 = "PW" → s.killCode fd c cmds = none →
      Outcome env w s fd c cmds (s.acceptLogin env w fd c)
  | refuse {code} : c.isAuthenticated →
      code ∈ [.malformed, .callerUnknown, .callerOffline, .callerBusy, .unknownCommand] →
      Outcome env w s fd c cmds (s.sendCommand fd (erCommand code))
  | setup {d cd s₁} : s.callee w c cmds = some d → s.conn d = some cd →
      s.setupCall w fd d cmds = some s₁ → Outcome env w s fd c cmds s₁
  | bye {s₁} : cmds.at 0 = "BY" → c.isAuthenticated → s.endCall w fd = some s₁ →
      Outcome env w s fd c cmds s₁
  | forward {d} : cmds.at 0 = "CB" ∨ cmds.at 0 = "ER" → c.isAuthenticated →
      0 ≤ c.connectionFd → s.conn c.connectionFd = some d →
      Outcome env w s fd c cmds (s.sendCommand c.connectionFd (forwardText cmds))
  | mute : c.isAuthenticated → (cmds.at 0 = "CB" ∨ cmds.at 0 = "ER") ∧ c.connectionFd < 0 ∨
      cmds.at 0 = "MD" ∧ cmds.length ≠ 2 ∧ cmds.length ≠ 3 → Outcome env w s fd c cmds s
  | metadata : cmds.at 0 = "MD" → c.isAuthenticated → cmds.length = 2 ∨ cmds.length = 3 →
      Outcome env w s fd c cmds
        ((s.withDb (setColumn w c.uid (cmds.at 1) (metadataValue cmds))).sendUidUpdate c.uid)
  | ping : cmds.at 0 = "PG" → c.isAuthenticated → Outcome env w s fd c cmds (s.updatePing w fd)

/-- The outcomes of `Login`. -/
theorem login_outcome (h0 : cmds.at 0 = "LI") (h : s.login env w fd cmds = some s') :
    Outcome env w s fd c cmds s' := by
  by_cases hlen : cmds.length = 4
  · have hnamed : s.namedUser w cmds = w.lookup s.db (cmds.at 1) := by
      rw [namedUser, if_pos ⟨h0, hlen⟩]
    simp only [login, if_neg (not_not.2 hlen), db_sendCommand, ← hnamed] at h
    cases hu : s.namedUser w cmds with
    | none =>
        rw [hu] at h
        obtain rfl := Option.some.inj h
        exact .stranger h0 hlen hu
    | some u =>
        rw [hu] at h
        obtain rfl := Option.some.inj h
        exact .identify hu
  · rw [login, if_pos hlen] at h
    exact .kill (by rw [killCode, if_pos h0, if_pos hlen]) h

/-- The outcomes of `Password`. -/
theorem password_outcome (hc : s.conn fd = some c) (h0 : cmds.at 0 = "PW")
    (h : s.password env w fd cmds = some s') : Outcome env w s fd c cmds s' := by
  have hLI : cmds.at 0 ≠ "LI" := by rw [h0]; decide
  have hcode : s.killCode fd c cmds = if cmds.length ≠ 2 then some .malformed
      else if c.uid = 0 ∨ cmds.at 1 ≠ c.hash then some .userInvalid
      else if 0 ≤ s.getFdByUid c.uid fd then some .userActive else none := by
    rw [killCode, if_neg hLI, if_pos h0]
  simp only [password, hc, Option.bind_eq_bind, Option.bind_some] at h
  by_cases hlen : cmds.length ≠ 2
  · rw [if_pos hlen] at h hcode
    exact .kill hcode h
  rw [if_neg hlen] at h hcode
  by_cases huid : c.uid = 0
  · rw [if_pos huid] at h
    rw [if_pos (.inl huid)] at hcode
    exact .kill hcode h
  rw [if_neg huid] at h
  by_cases hhash : cmds.at 1 ≠ c.hash
  · rw [if_pos hhash] at h
    rw [if_pos (.inr hhash)] at hcode
    exact .kill hcode h
  rw [if_neg hhash] at h
  rw [if_neg (not_or.2 ⟨huid, hhash⟩)] at hcode
  by_cases hactive : 0 ≤ s.getFdByUid c.uid fd
  · rw [if_pos hactive] at h hcode
    exact .kill hcode h
  · rw [if_neg hactive] at h hcode
    obtain rfl := Option.some.inj h
    exact .accept h0 hcode

/-- The outcomes of `InitiateCall`. -/
theorem initiateCall_outcome (h0 : cmds.at 0 = "CA") (hauth : c.isAuthenticated)
    (h : s.initiateCall w fd cmds = some s') : Outcome env w s fd c cmds s' := by
  by_cases hlen : cmds.length ≠ 14
  · rw [initiateCall, if_pos hlen] at h
    obtain rfl := Option.some.inj h
    exact .refuse hauth (by simp)
  rw [initiateCall, if_neg hlen] at h
  cases hu : w.lookup s.db (cmds.at 1) with
  | none =>
      rw [hu] at h
      obtain rfl := Option.some.inj h
      exact .refuse hauth (by simp)
  | some u =>
      simp only [hu] at h
      by_cases hoff : s.calleeFd u.id < 0
      · rw [if_pos hoff] at h
        obtain rfl := Option.some.inj h
        exact .refuse hauth (by simp)
      rw [if_neg hoff, Option.bind_eq_bind, Option.bind_eq_some_iff] at h
      obtain ⟨cd, hd, h⟩ := h
      by_cases hbusy : 0 ≤ cd.connectionFd
      · rw [if_pos hbusy] at h
        obtain rfl := Option.some.inj h
        exact .refuse hauth (by simp)
      · rw [if_neg hbusy] at h
        refine .setup ?_ hd h
        rw [callee, if_pos ⟨h0, hauth, not_not.1 hlen⟩, hu, Option.bind_some]
        simp only [hd, Option.any_some]
        rw [if_pos ⟨not_lt.1 hoff, by simpa using hbusy⟩]

/-- The outcomes of `ForwardMessage`. -/
theorem forwardMessage_outcome (hc : s.conn fd = some c)
    (h0 : cmds.at 0 = "CB" ∨ cmds.at 0 = "ER") (hauth : c.isAuthenticated)
    (h : s.forwardMessage fd cmds = some s') : Outcome env w s fd c cmds s' := by
  rcases forwardMessage_spec hc h with ⟨hlink, rfl⟩ | ⟨hlink, d, hd, rfl⟩
  · exact .mute hauth (.inl ⟨h0, hlink⟩)
  · exact .forward h0 hauth hlink hd

/-- **The inversion of `ParseCommand`.** A command that returns has one of the outcomes. -/
theorem dispatch_outcome (hc : s.conn fd = some c) (h : s.dispatch env w fd cmds = some s') :
    Outcome env w s fd c cmds s' := by
  simp only [dispatch, hc, Option.bind_eq_bind, Option.bind_some] at h
  by_cases hLI : cmds.at 0 = "LI"
  · rw [if_pos hLI] at h
    exact login_outcome hLI h
  rw [if_neg hLI] at h
  by_cases hPW : cmds.at 0 = "PW"
  · rw [if_pos hPW] at h
    exact password_outcome hc hPW h
  rw [if_neg hPW] at h
  by_cases hauth : ¬ c.isAuthenticated
  · rw [if_pos hauth] at h
    exact .kill (by rw [killCode, if_neg hLI, if_neg hPW, if_pos hauth]) h
  rw [if_neg hauth] at h
  rw [not_not] at hauth
  by_cases hCA : cmds.at 0 = "CA"
  · rw [if_pos hCA] at h
    exact initiateCall_outcome hCA hauth h
  rw [if_neg hCA] at h
  by_cases hBY : cmds.at 0 = "BY"
  · rw [if_pos hBY] at h
    exact .bye hBY hauth h
  rw [if_neg hBY] at h
  by_cases hCB : cmds.at 0 = "CB"
  · rw [if_pos hCB] at h
    exact forwardMessage_outcome hc (.inl hCB) hauth h
  rw [if_neg hCB] at h
  by_cases hMD : cmds.at 0 = "MD"
  · rw [if_pos hMD] at h
    rcases receiveMetadata_spec hc h with ⟨hlen, rfl⟩ | ⟨hlen, rfl⟩
    · exact .mute hauth (.inr ⟨hMD, hlen⟩)
    · exact .metadata hMD hauth hlen
  rw [if_neg hMD] at h
  by_cases hER : cmds.at 0 = "ER"
  · rw [if_pos hER] at h
    exact forwardMessage_outcome hc (.inr hER) hauth h
  rw [if_neg hER] at h
  by_cases hPG : cmds.at 0 = "PG"
  · rw [if_pos hPG] at h
    obtain rfl := Option.some.inj h
    exact .ping hPG hauth
  · rw [if_neg hPG] at h
    obtain rfl := Option.some.inj h
    exact .refuse hauth (by simp)

/-- A command over which the server kills the connection does just that. -/
theorem dispatch_kill {code : ResponseCode} (hc : s.conn fd = some c)
    (h : s.killCode fd c cmds = some code) :
    s.dispatch env w fd cmds = (s.sendCommand fd (erCommand code)).socketKill w fd := by
  simp only [dispatch, hc, Option.bind_eq_bind, Option.bind_some]
  unfold killCode at h
  by_cases hLI : cmds.at 0 = "LI"
  · rw [if_pos hLI] at h ⊢
    by_cases hlen : cmds.length ≠ 4
    · rw [if_pos hlen, Option.some.injEq] at h
      rw [login, if_pos hlen, ← h]
    · rw [if_neg hlen] at h
      cases h
  rw [if_neg hLI] at h ⊢
  by_cases hPW : cmds.at 0 = "PW"
  · rw [if_pos hPW] at h ⊢
    simp only [password, hc, Option.bind_eq_bind, Option.bind_some]
    by_cases hlen : cmds.length ≠ 2
    · rw [if_pos hlen, Option.some.injEq] at h
      rw [if_pos hlen, ← h]
    rw [if_neg hlen] at h ⊢
    by_cases hinvalid : c.uid = 0 ∨ cmds.at 1 ≠ c.hash
    · rw [if_pos hinvalid, Option.some.injEq] at h
      rw [← h]
      rcases hinvalid with huid | hhash
      · rw [if_pos huid]
      · rw [if_pos hhash, ite_self]
    rw [if_neg hinvalid] at h
    rw [not_or] at hinvalid
    rw [if_neg hinvalid.1, if_neg hinvalid.2]
    by_cases hactive : 0 ≤ s.getFdByUid c.uid fd
    · rw [if_pos hactive, Option.some.injEq] at h
      rw [if_pos hactive, ← h]
    · rw [if_neg hactive] at h
      cases h
  rw [if_neg hPW] at h ⊢
  by_cases hauth : ¬ c.isAuthenticated
  · rw [if_pos hauth, Option.some.injEq] at h
    rw [if_pos hauth, ← h]
  · rw [if_neg hauth] at h
    cases h

/-- A `BY` of a connection that may give commands ends its call. -/
theorem dispatch_bye (hc : s.conn fd = some c) (h0 : cmds.at 0 = "BY") (hauth : c.isAuthenticated) :
    s.dispatch env w fd cmds = s.endCall w fd := by
  simp [dispatch, hc, h0, hauth]

/-- An `LI` that names a user is answered with a challenge. -/
theorem dispatch_identify {u : UserRow} (hc : s.conn fd = some c)
    (h : s.namedUser w cmds = some u) :
    s.dispatch env w fd cmds =
      some ((s.sendCommand fd ("LI " ++ generateChallenge w ++ "!")).modifyConn
      fd (SipConnection.identify env w u cmds)) := by
  rw [namedUser] at h
  split at h
  · next hLI => simp [dispatch, hc, hLI.1, login, hLI.2, h]
  · cases h

/-- A `PW` that is accepted logs the connection in. -/
theorem dispatch_accept (hc : s.conn fd = some c) (h0 : cmds.at 0 = "PW")
    (h : s.killCode fd c cmds = none) :
    s.dispatch env w fd cmds = some (s.acceptLogin env w fd c) := by
  obtain ⟨hlen, huid, hhash, hfree⟩ := (killCode_password h0).1 h
  simp [dispatch, hc, h0, password, hlen, huid, hhash, not_le.2 hfree]

/-- A `CB` or `ER` of a connection that may give commands is forwarded. -/
theorem dispatch_forward (hc : s.conn fd = some c) (h0 : cmds.at 0 = "CB" ∨ cmds.at 0 = "ER")
    (hauth : c.isAuthenticated) : s.dispatch env w fd cmds = s.forwardMessage fd cmds := by
  rcases h0 with h0 | h0 <;> simp [dispatch, hc, h0, hauth]

/-- An `MD` of a connection that may give commands is received. -/
theorem dispatch_metadata (hc : s.conn fd = some c) (h0 : cmds.at 0 = "MD")
    (hauth : c.isAuthenticated) : s.dispatch env w fd cmds = s.receiveMetadata w fd cmds := by
  simp [dispatch, hc, h0, hauth]

/-- A `CA` that is put through sets up a call. -/
theorem dispatch_setup (env : Env) (w : World) {d : Int} (hc : s.conn fd = some c)
    (h : s.callee w c cmds = some d) :
    ∃ cd, s.conn d = some cd ∧ s.dispatch env w fd cmds = s.setupCall w fd d cmds := by
  obtain ⟨⟨h0, hauth, hlen⟩, u, hu, hfd, hd, cd, hcd, hfree⟩ := callee_spec h
  refine ⟨cd, hcd, ?_⟩
  simp [dispatch, hc, h0, hauth, initiateCall, hlen, hu, hfd, not_lt.2 hd, hcd, not_le.2 hfree]

/-! ## Transitions -/

/-- The ways a slot can end. -/
inductive Transition (env : Env) (w : World) (s : MainObject) : Slot → MainObject → Prop
  | newConnection {fd : Int} {peer : QHostAddress} : 0 ≤ fd →
    (∀ c, s.conn fd = some c → c.zombie = true) →
      Transition env w s (.newConnection fd peer)
        (s.insertConn fd { peerAddress := peer, pingTimestamp := w.now })
  | byte {fd : Int} {b : Char} {c : SipConnection} : b ≠ '!' → s.conn fd = some c →
      Transition env w s (.socketReady fd b)
      (s.modifyConn fd (SipConnection.appendLine b))
  | command {fd : Int} {c : SipConnection} {s₁ : MainObject} : s.conn fd = some c →
      Outcome env w (s.takeLine fd) fd c.clearLine (tokens c) s₁ →
      Transition env w s (.socketReady fd '!') s₁
  | socketKill {fd : Int} {c : SipConnection} {s₁ : MainObject} : s.conn fd = some c →
      s.socketKill w fd = some s₁ →
      Transition env w s (.socketKill fd) s₁
  | zombieData : Transition env w s .zombieData s.zombieData
  | pingTimerData {s₁} : s.pingTimerData w = some s₁ → Transition env w s .pingTimerData s₁

/-- Every slot makes a transition of its kind. -/
theorem runSlot_transition {e : Event} (h : runSlot env s e = some s') :
    Transition env e.world s e.slot s' := by
  obtain ⟨slot, w⟩ := e
  cases slot with
  | newConnection fd peer =>
      simp only [runSlot, newConnection] at h
      split at h
      · cases h
      · next hfree =>
          obtain rfl := Option.some.inj h
          rw [not_or, not_lt] at hfree
          refine .newConnection hfree.1 fun c hc => ?_
          simpa [hc] using hfree.2
  | socketReady fd b =>
      simp only [runSlot, readByte, Option.bind_eq_bind, Option.bind_eq_some_iff] at h
      obtain ⟨c, hc, h⟩ := h
      split at h
      · next hb =>
          subst hb
          simp only [parseCommand, hc, Option.bind_eq_bind, Option.bind_some] at h
          refine .command hc (dispatch_outcome ?_ h)
          rw [takeLine, conn_modifyConn, if_pos rfl, hc, Option.map_some]
      · next hb =>
          obtain rfl := Option.some.inj h
          exact .byte hb hc
  | socketKill fd =>
      simp only [runSlot] at h
      have h' := h
      simp only [socketKill, Option.bind_eq_bind, Option.bind_eq_some_iff] at h'
      obtain ⟨c, hc, -⟩ := h'
      exact .socketKill hc h
  | zombieData =>
      obtain rfl := Option.some.inj h
      exact .zombieData
  | pingTimerData => exact .pingTimerData h

/-- A step runs the slot, and what it sent leaves. -/
theorem step_runSlot {e : Event} {out : List Output} (h : step env s e = some (s', out)) :
    ∃ s₁, runSlot env s.flush e = some s₁ ∧ s' = s₁.flush ∧ out = s₁.sent := by
  simp only [step, Option.bind_eq_bind, Option.bind_eq_some_iff, Option.pure_def,
    Option.some.injEq, Prod.mk.injEq] at h
  obtain ⟨s₁, h₁, rfl, rfl⟩ := h
  exact ⟨s₁, h₁, rfl, rfl⟩

/-- **The inversion of a step.** -/
theorem step_transition {e : Event} {out : List Output} (h : step env s e = some (s', out)) :
    ∃ s₁, Transition env e.world s.flush e.slot s₁ ∧ s' = s₁.flush ∧ out = s₁.sent := by
  obtain ⟨s₁, h₁, hs', hout⟩ := step_runSlot h
  exact ⟨s₁, runSlot_transition h₁, hs', hout⟩

/-! ## What the events named above do -/

/-- A command that is complete is dispatched. -/
theorem runSlot_received (env : Env) {e : Event} (h : s.received e = some (fd, c, cmds)) :
    (s.takeLine fd).conn fd = some c ∧
      runSlot env s e = (s.takeLine fd).dispatch env e.world fd cmds := by
  obtain ⟨slot, w⟩ := e
  unfold received at h
  split at h
  · next k hslot =>
      simp only at hslot
      obtain ⟨c₀, hc₀, heq⟩ := Option.map_eq_some_iff.1 h
      obtain ⟨rfl, rfl, rfl⟩ : k = fd ∧ c₀.clearLine = c ∧ tokens c₀ = cmds := by simpa using heq
      subst hslot
      refine ⟨by rw [takeLine, conn_modifyConn, if_pos rfl, hc₀, Option.map_some], ?_⟩
      simp [runSlot, readByte, parseCommand, hc₀]
  · cases h

/-- An event that kills a connection runs `socketKill` on it. -/
theorem runSlot_killed (env : Env) {e : Event} (h : s.killed e = some fd) :
    ∃ s₀ c, s₀.conn fd = some c ∧
    c.zombie = false ∧ (s₀ = s ∨ ∃ code, s₀ = (s.takeLine fd).sendCommand fd (erCommand code)) ∧
    runSlot env s e = s₀.socketKill e.world fd := by
  rcases killed_eq_some.1 h with ⟨hslot, c, hc, hz⟩ | ⟨c, cmds, code, hrec, hz, hcode⟩
  · exact ⟨s, c, hc, hz, .inl rfl, by rw [runSlot, hslot]⟩
  · obtain ⟨hc, hrun⟩ := runSlot_received env hrec
    exact ⟨(s.takeLine fd).sendCommand fd (erCommand code), c, hc, hz, .inr ⟨code, rfl⟩,
      hrun.trans (dispatch_kill hc hcode)⟩

/-- An `LI` that names a user sets the `uid` of its connection, and is answered with a challenge. -/
theorem step_identified {e : Event} {u : UserRow} {out : List Output}
    (h : s.identified e = some (fd, u)) (hs : step env s e = some (s', out)) :
    (∃ c, s'.conn fd = some c ∧ c.uid = u.id) ∧
      commandsTo fd out = ["LI " ++ generateChallenge e.world ++ "!"] := by
  obtain ⟨s₁, h₁, rfl, rfl⟩ := step_runSlot hs
  obtain ⟨c, cmds, hrec, hu⟩ := identified_eq_some.1 h
  obtain ⟨hc, hrun⟩ := runSlot_received (s := s.flush) env hrec
  obtain rfl := Option.some.inj ((h₁.symm.trans hrun).trans (dispatch_identify hc hu))
  refine ⟨⟨c.identify env e.world u cmds, ?_, rfl⟩, (commandsTo_command ..).trans (if_pos rfl)⟩
  rw [conn_flush, conn_modifyConn, if_pos rfl, conn_sendCommand, hc, Option.map_some]

/-- A `CA` that is put through runs `InitiateCall` from its link step on. -/
theorem runSlot_putThrough (env : Env) {e : Event} {d : Int} (h : s.putThrough e = some (fd, d)) :
    ∃ c cmds cd, (s.takeLine fd).conn fd = some c ∧ (s.takeLine fd).conn d = some cd ∧
      runSlot env s e = (s.takeLine fd).setupCall e.world fd d cmds := by
  obtain ⟨c, cmds, hrec, hcallee⟩ := putThrough_eq_some.1 h
  obtain ⟨hc, hrun⟩ := runSlot_received env hrec
  obtain ⟨cd, hcd, hdispatch⟩ := dispatch_setup env e.world hc hcallee
  exact ⟨c, cmds, cd, hc, hcd, hrun.trans hdispatch⟩

/-- A `BY` runs `EndCall`. -/
theorem runSlot_saysBye (env : Env) {e : Event} (h : s.saysBye e = some fd) :
    ∃ c, (s.takeLine fd).conn fd = some c ∧
      runSlot env s e = (s.takeLine fd).endCall e.world fd := by
  obtain ⟨c, cmds, hrec, hauth, h0⟩ := saysBye_eq_some.1 h
  obtain ⟨hc, hrun⟩ := runSlot_received env hrec
  exact ⟨c, hc, hrun.trans (dispatch_bye hc h0 hauth)⟩

end MainObject

end NetISDN
