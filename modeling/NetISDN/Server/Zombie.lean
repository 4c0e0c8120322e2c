import NetISDN.Server.Accounts

/-!
# What a killed connection can still do

`socketKill` only marks a connection; its entry stays until `zombieData` removes it, and
`socketReady` goes on parsing what is left in the read buffer. None of the handlers looks at the
mark. A byte of a killed connection is inert exactly if the command that it completes is
`Harmless`.
-/

namespace NetISDN

open TransitionSystem

/-- What a connection is to the others: who it is, and the call it is in. -/
structure Standing where
  uid : Int
  isAuthenticated : Bool
  connectionFd : Int
  cid : Int
  sourcePort : Nat
  deriving DecidableEq

/-- The standing of a connection. -/
@[simps] def SipConnection.standing (c : SipConnection) : Standing :=
  ⟨c.uid, c.isAuthenticated, c.connectionFd, c.cid, c.sourcePort⟩

/-- An update with a client's text in it finds every row as it is to be: the rows it sets, if the
text is plain, and otherwise all that MySQL sets for what it reads. -/
def Database.Stored (w : World) (db : Database) (text : QString) (id : Int)
    (f : UserRow → UserRow) : Prop :=
  if Plain text then ∀ u ∈ db.users, u.id = id → f u = u else (w.misread db).users = db.users

instance {w : World} {db : Database} {text : QString} {id : Int} {f : UserRow → UserRow} :
    Decidable (db.Stored w text id f) := by
  unfold Database.Stored
  infer_instance

/-- An update keeps the users exactly if it finds them as they are to be. -/
theorem Database.users_updatePasted_iff {w : World} {db : Database} {text : QString} {id : Int}
    {f : UserRow → UserRow} {hf : ∀ u, (f u).id = u.id} :
    (db.updatePasted w text id f hf).users = db.users ↔ db.Stored w text id f := by
  unfold updatePasted Stored
  split
  · rw [updateUser, updateRows_eq_self]
    exact forall₂_congr fun u _ => imp_congr_left decide_eq_true_iff
  · rfl

namespace MainObject

variable {env : Env} {w : World} {db : Database} {s s' s₁ s₂ : MainObject} {e : Event}
  {es es₁ es₂ : List Event} {tr₁ tr₂ out out₁ : List Output} {k fd d : Int} {a : Account}
  {c : SipConnection} {cmds : QStringList}

/-- The standing of the connection on `fd`. -/
def standingOf (s : MainObject) (fd : Int) : Option Standing :=
  (s.conn fd).map SipConnection.standing

/-- Nothing that a handler did on `fd` concerns another connection or the database. -/
structure Quiet (fd : Int) (s s' : MainObject) : Prop where
  standing : ∀ k, s'.standingOf k = s.standingOf k
  users : s'.db.users = s.db.users
  calls : s'.db.calls = s.db.calls
  sentTo : ∀ k, k ≠ fd → s'.sentTo k = s.sentTo k

/-- Nothing has happened. -/
theorem Quiet.refl (fd : Int) (s : MainObject) : Quiet fd s s :=
  ⟨fun _ => rfl, rfl, rfl, fun _ _ => rfl⟩

/-- What is quiet twice is quiet. -/
theorem Quiet.trans (h : Quiet fd s s₁) (h' : Quiet fd s₁ s') : Quiet fd s s' :=
  ⟨fun k => (h'.standing k).trans (h.standing k), h'.users.trans h.users,
    h'.calls.trans h.calls, fun k hk => (h'.sentTo k hk).trans (h.sentTo k hk)⟩

/-- Sending a command leaves the connection's standing alone. -/
theorem quiet_sendCommand {cmd : QString} : Quiet fd s (s.sendCommand fd cmd) :=
  ⟨fun _ => rfl, rfl, rfl, fun k hk => by simp [Ne.symm hk]⟩

/-- The update of a user leaves the connection's standing alone. -/
theorem quiet_sendUidUpdate {uid : Int} : Quiet fd s (s.sendUidUpdate uid) :=
  ⟨fun _ => rfl, rfl, rfl, fun k _ => by simp⟩

/-- A change that keeps the standing is quiet. -/
theorem quiet_modifyConn {f : SipConnection → SipConnection} (hc : s.conn fd = some c)
    (hf : (f c).standing = c.standing) : Quiet fd s (s.modifyConn fd f) := by
  refine ⟨fun k => ?_, rfl, rfl, fun _ _ => rfl⟩
  rw [standingOf, standingOf, conn_modifyConn]
  split
  · next hk => rw [← hk, hc, Option.map_some, Option.map_some, Option.map_some, hf]
  · rfl

/-- A statement that keeps the rows of both tables is quiet. -/
theorem quiet_withDb {g : Database → Database} (husers : (g s.db).users = s.db.users)
    (hcalls : (g s.db).calls = s.db.calls) : Quiet fd s (s.withDb g) :=
  ⟨fun _ => rfl, husers, hcalls, fun _ _ => rfl⟩

/-! ## Harmless commands -/

/-- The command changes nothing when the killed connection `c` on `fd` gives it: an `LI` names no
other user than the connection has; a `PW` is not accepted, or repeats what `USERS` already says; a
`CA` is not put through; a `BY` finds no trace of a call; a `CB` or `ER` has no other connection to
go to; and an `MD` sets nothing to another value. Which user a name stands for, and what an update
sets whose text does not stand for itself, is what MySQL answers. -/
structure Harmless (env : Env) (w : World) (s : MainObject) (fd : Int) (c : SipConnection)
    (cmds : QStringList) : Prop where
  li : ∀ u ∈ s.namedUser w cmds, u.id = c.uid
  pw : cmds.at 0 = "PW" → s.killCode fd c cmds = none → c.isAuthenticated ∧
    s.db.Stored w c.clientVersion c.uid (UserRow.goOnline w.sqlNow c.peerAddress.toString
      (w.stored c.clientVersion) (env.location c.peerAddress))
  ca : s.callee w c cmds = none
  bye : cmds.at 0 = "BY" → c.isAuthenticated →
    c.connectionFd = -1 ∧ c.cid = -1 ∧ c.sourcePort = 0
  forward : cmds.at 0 = "CB" ∨ cmds.at 0 = "ER" → c.isAuthenticated →
    c.connectionFd < 0 ∨ c.connectionFd = fd
  md : cmds.at 0 = "MD" → c.isAuthenticated → cmds.length = 2 ∨ cmds.length = 3 →
    UserRow.hasColumn (cmds.at 1) → s.db.Stored w (metadataValue cmds) c.uid
      (UserRow.setColumn (cmds.at 1) (w.stored (metadataValue cmds)))

/-- The command that the event completes, if it does so on a killed connection, is harmless. -/
def ZombieSafe (env : Env) (s : MainObject) (e : Event) : Prop :=
  ∀ x ∈ s.received e, x.2.1.zombie = true →
    Harmless env e.world (s.takeLine x.1) x.1 x.2.1 x.2.2

set_option synthInstance.maxSize 512 in
instance : Decidable (Harmless env w s fd c cmds) :=
  decidable_of_iff ((∀ u ∈ s.namedUser w cmds, u.id = c.uid) ∧
      (cmds.at 0 = "PW" → s.killCode fd c cmds = none → c.isAuthenticated ∧
        s.db.Stored w c.clientVersion c.uid (UserRow.goOnline w.sqlNow c.peerAddress.toString
          (w.stored c.clientVersion) (env.location c.peerAddress))) ∧
      s.callee w c cmds = none ∧
      (cmds.at 0 = "BY" → c.isAuthenticated →
        c.connectionFd = -1 ∧ c.cid = -1 ∧ c.sourcePort = 0) ∧
      (cmds.at 0 = "CB" ∨ cmds.at 0 = "ER" → c.isAuthenticated →
        c.connectionFd < 0 ∨ c.connectionFd = fd) ∧
      (cmds.at 0 = "MD" → c.isAuthenticated → cmds.length = 2 ∨ cmds.length = 3 →
        UserRow.hasColumn (cmds.at 1) → s.db.Stored w (metadataValue cmds) c.uid
          (UserRow.setColumn (cmds.at 1) (w.stored (metadataValue cmds)))))
    ⟨fun ⟨h₁, h₂, h₃, h₄, h₅, h₆⟩ => ⟨h₁, h₂, h₃, h₄, h₅, h₆⟩,
      fun ⟨h₁, h₂, h₃, h₄, h₅, h₆⟩ => ⟨h₁, h₂, h₃, h₄, h₅, h₆⟩⟩

instance (s : MainObject) (e : Event) : Decidable (ZombieSafe env s e) := by
  unfold ZombieSafe
  infer_instance

/-- `EndCall` is quiet where there is no trace of a call. -/
theorem EndsCall.quiet (h : EndsCall w fd c s s') (hc : s.conn fd = some c)
    (hidle : c.connectionFd = -1 ∧ c.cid = -1 ∧ c.sourcePort = 0) : Quiet fd s s' := by
  obtain ⟨hlink, hcid, hport⟩ := hidle
  have hlink' : ¬ 0 ≤ c.connectionFd := by omega
  refine ⟨fun k => ?_, by rw [h.db]; rfl, ?_, fun k hk => ?_⟩
  · rw [standingOf, standingOf, h.conn]
    split
    · next hk =>
        obtain rfl : fd = k := hk.resolve_right fun hk => hlink' hk.1
        simp [hc, SipConnection.standing, hlink, hcid, hport]
    · rfl
  · -- no row has the identifier `-1`
    have hended : c.endedCid fd = -1 := by simp [SipConnection.endedCid, hcid]
    rw [h.db, hended]
    refine Database.updateRows_eq_self.2 fun r hr hid => ?_
    have hpos := (s.db.calls_bound r hr).1
    have hid := of_decide_eq_true hid
    omega
  · rw [h.sentTo, if_neg fun hk' => hlink' hk'.1, if_neg hk.symm, List.append_nil, List.append_nil]

/-- An `MD` keeps the users exactly if it finds the column that it sets as it is to be. -/
theorem users_setColumn_iff {uid : Int} {tag value : QString} :
    (setColumn w uid tag value db).users = db.users ↔
      (UserRow.hasColumn tag → db.Stored w value uid (UserRow.setColumn tag (w.stored value))) := by
  unfold setColumn
  split
  · next htag => exact Database.users_updatePasted_iff.trans ⟨fun h _ => h, fun h => h htag⟩
  · next htag => exact iff_of_true rfl fun h => absurd h htag

/-- A harmless command of a killed connection is quiet. -/
theorem Outcome.quiet (hc : s.conn fd = some c) (hz : c.zombie = true)
    (hP : Harmless env w s fd c cmds) (h : Outcome env w s fd c cmds s') : Quiet fd s s' := by
  cases h with
  | kill _ hs =>
      rcases socketKill_spec (c := c) (by exact hc) hs with ⟨-, rfl⟩ | ⟨hz', -⟩
      · exact quiet_sendCommand
      · rw [hz] at hz'
        cases hz'
  | stranger => exact quiet_sendCommand
  | identify hu =>
      refine quiet_sendCommand.trans (quiet_modifyConn (by exact hc) ?_)
      simp [SipConnection.standing, hP.li _ hu]
  | accept h0 hcode =>
      obtain ⟨hauth, hstored⟩ := hP.pw h0 hcode
      have h₁ : Quiet fd s (s.modifyConn fd SipConnection.setAuthenticated) :=
        quiet_modifyConn hc (by simp [SipConnection.standing, hauth])
      refine ((h₁.trans (quiet_withDb ?_ ?_)).trans quiet_sendCommand).trans quiet_sendUidUpdate
      · exact Database.users_updatePasted_iff.2 hstored
      · exact Database.calls_updatePasted
  | refuse => exact quiet_sendCommand
  | setup hcallee => cases hP.ca.symm.trans hcallee
  | bye h0 hauth hs => exact (endCall_spec hc hs).quiet hc (hP.bye h0 hauth)
  | forward h0 hauth hlink =>
      rw [(hP.forward h0 hauth).resolve_left (not_lt.2 hlink)]
      exact quiet_sendCommand
  | mute => exact .refl fd s
  | metadata h0 hauth hlen =>
      exact (quiet_withDb (users_setColumn_iff.2 (hP.md h0 hauth hlen)) calls_setColumn).trans
        quiet_sendUidUpdate
  | ping => exact quiet_modifyConn hc rfl

/-- The standing of the connection that gives a quiet command. -/
theorem Quiet.standing_eq {c' : SipConnection} (hQ : Quiet fd s s') (hc : s.conn k = some c)
    (hc' : s'.conn k = some c') : c'.standing = c.standing := by
  have h := hQ.standing k
  rwa [standingOf, standingOf, hc, hc', Option.map_some, Option.map_some, Option.some.injEq] at h

/-- A command that is quiet is harmless. -/
theorem harmless_of_quiet (hfd : 0 ≤ fd) (hc : s.conn fd = some c)
    (h : s.dispatch env w fd cmds = some s') (hQ : Quiet fd s s') :
    Harmless env w s fd c cmds where
  li u hu := by
    obtain rfl := Option.some.inj (h.symm.trans (dispatch_identify hc hu))
    have hc' : ((s.sendCommand fd ("LI " ++ generateChallenge w ++ "!")).modifyConn fd
        (SipConnection.identify env w u cmds)).conn fd = some (c.identify env w u cmds) := by
      rw [conn_modifyConn, if_pos rfl, conn_sendCommand, hc, Option.map_some]
    exact congrArg Standing.uid (hQ.standing_eq hc hc')
  pw h0 hcode := by
    obtain rfl := Option.some.inj (h.symm.trans (dispatch_accept hc h0 hcode))
    have hc' : (s.acceptLogin env w fd c).conn fd = some c.setAuthenticated := by
      rw [acceptLogin, conn_sendUidUpdate, conn_sendCommand, conn_withDb, conn_modifyConn,
        if_pos rfl, hc, Option.map_some]
    exact ⟨(congrArg Standing.isAuthenticated (hQ.standing_eq hc hc')).symm,
      Database.users_updatePasted_iff.1 hQ.users⟩
  ca := by
    cases hcallee : s.callee w c cmds with
    | none => rfl
    | some d =>
        -- the callee was free, and is linked behind the command
        obtain ⟨-, u, -, -, -, cd, hcd, hfree⟩ := callee_spec hcallee
        obtain ⟨cd', hcd', hsetup⟩ := dispatch_setup env w hc hcallee
        obtain ⟨port, port', id, row, hset⟩ := setupCall_spec hc hcd (hsetup.symm.trans h)
        have hc' := hset.conn d
        rw [if_pos (.inr rfl), hcd, Option.map_some] at hc'
        have hlink := congrArg Standing.connectionFd (hQ.standing_eq hcd hc')
        have hlink : fd = cd.connectionFd := by simpa using hlink
        omega
  bye h0 hauth := by
    have hends := endCall_spec hc ((dispatch_bye hc h0 hauth).symm.trans h)
    have hc' := hends.conn fd
    rw [if_pos (.inl rfl), hc, Option.map_some] at hc'
    have hstand := hQ.standing_eq hc hc'
    exact ⟨(congrArg Standing.connectionFd hstand).symm, (congrArg Standing.cid hstand).symm,
      (congrArg Standing.sourcePort hstand).symm⟩
  forward h0 hauth := by
    rcases forwardMessage_spec hc ((dispatch_forward hc h0 hauth).symm.trans h) with
      ⟨hlink, -⟩ | ⟨-, d, hd, rfl⟩
    · exact .inl hlink
    · right
      by_contra hne
      simpa using hQ.sentTo c.connectionFd hne
  md h0 hauth hlen := by
    rcases receiveMetadata_spec hc ((dispatch_metadata hc h0 hauth).symm.trans h) with
      ⟨hlen', -⟩ | ⟨-, rfl⟩
    · omega
    · exact users_setColumn_iff.1 hQ.users

/-! ## A byte of a killed connection -/

/-- What a step that handles a byte of `fd` leaves as it was: who each connection is and the call
it is in, and the tables `USERS` and `CALLS`; and it sends nothing to another connection. -/
structure Inert (fd : Int) (s s' : MainObject) (out : List Output) : Prop where
  standing : ∀ k, s'.standingOf k = s.standingOf k
  users : s'.db.users = s.db.users
  calls : s'.db.calls = s.db.calls
  silent : ∀ k, k ≠ fd → commandsTo k out = []

/-- A byte of a killed connection is quiet exactly if the command that it completes is harmless. -/
theorem quiet_iff (hfd : 0 ≤ fd) {b : Char} (hz : ∀ c, s.conn fd = some c → c.zombie = true)
    (h : runSlot env s ⟨.socketReady fd b, w⟩ = some s') :
    Quiet fd s s' ↔ ZombieSafe env s ⟨.socketReady fd b, w⟩ := by
  by_cases hb : b = '!'
  · subst hb
    cases runSlot_transition h with
    | byte hne => exact absurd rfl hne
    | @command _ c _ hc ho =>
        have hrec := received_eq (e := ⟨.socketReady fd '!', w⟩) rfl hc
        obtain ⟨hc', hrun⟩ := runSlot_received env hrec
        have htake : Quiet fd s (s.takeLine fd) := quiet_modifyConn hc rfl
        constructor
        · intro hQ x hx _
          obtain rfl := Option.some.inj (hrec.symm.trans hx)
          refine harmless_of_quiet hfd hc' (hrun.symm.trans h) ?_
          exact ⟨fun k => (hQ.standing k).trans (htake.standing k).symm, hQ.users, hQ.calls,
            hQ.sentTo⟩
        · intro hP
          exact htake.trans (ho.quiet hc' (hz c hc) (hP _ hrec (hz c hc)))
  · cases runSlot_transition h with
    | byte _ hc =>
        refine iff_of_true (quiet_modifyConn hc rfl) fun x hrec => ?_
        have hslot := slot_of_received hrec
        simp only [Slot.socketReady.injEq] at hslot
        exact absurd hslot.2 hb
    | command => exact absurd rfl hb

/-- What has been sent plays no part. -/
theorem zombieSafe_flush : ZombieSafe env s.flush e ↔ ZombieSafe env s e :=
  ⟨fun h x hx hz => ⟨(h x hx hz).li, (h x hx hz).pw, (h x hx hz).ca, (h x hx hz).bye,
      (h x hx hz).forward, (h x hx hz).md⟩,
    fun h x hx hz => ⟨(h x hx hz).li, (h x hx hz).pw, (h x hx hz).ca, (h x hx hz).bye,
      (h x hx hz).forward, (h x hx hz).md⟩⟩

/-- A byte of a killed connection is inert exactly if the command that it completes is harmless. -/
theorem inert_iff (hfd : 0 ≤ fd) {b : Char} (hz : ∀ c, s.conn fd = some c → c.zombie = true)
    (hs : step env s ⟨.socketReady fd b, w⟩ = some (s', out)) :
    Inert fd s s' out ↔ ZombieSafe env s ⟨.socketReady fd b, w⟩ := by
  obtain ⟨s₁, h₁, rfl, rfl⟩ := step_runSlot hs
  rw [← zombieSafe_flush, ← quiet_iff hfd (s := s.flush) hz h₁]
  exact ⟨fun h => ⟨h.standing, h.users, h.calls, h.silent⟩,
    fun h => ⟨h.standing, h.users, h.calls, h.sentTo⟩⟩

/-! ## Runs -/

/-- What has been killed is marked. -/
@[simp] theorem zombie_kill : a.kill.zombie = true := by
  unfold Account.kill
  split
  · next hz => exact hz
  · rfl

/-- A zombie stays one until its entry is gone. -/
theorem AccountMove.zombie_kept (h : AccountMove env s e s')
    (hz : ∀ a, s.accountOf k = some a → a.zombie = true)
    (hnew : opens e ≠ some k) (ha : s'.accountOf k = some a) :
    a.zombie = true := by
  cases h with
  | same h => exact hz a ((h k).symm.trans ha)
  | connect hslot _ hacc =>
      rw [hacc] at ha
      split at ha
      · next hk =>
          exact absurd (hk ▸ hslot.2) hnew
      · exact hz a ha
  | kill ha₀ _ hacc =>
      rw [hacc] at ha
      split at ha
      · rw [← Option.some.inj ha, zombie_kill]
      · exact hz a ha
  | identify _ ha₀ hacc | accept _ ha₀ hacc =>
      rw [hacc] at ha
      split at ha
      · next hk =>
          have hold := hz _ (hk ▸ ha₀)
          rw [← Option.some.inj ha]
          exact hold
      · exact hz a ha
  | purge _ hacc =>
      rw [hacc] at ha
      exact hz a (Option.filter_eq_some_iff.1 ha).1
  | sweep _ hacc =>
      rw [hacc] at ha
      split at ha
      · cases ha
      · exact hz a ha

/-- What an event kills has an entry. -/
theorem conn_of_killed (hk : s.killed e = some fd) : ∃ c, s.conn fd = some c := by
  rcases killed_eq_some.1 hk with ⟨-, c, hc, -⟩ | ⟨c, cmds, code, hrec, -⟩
  · exact ⟨c, hc⟩
  · obtain ⟨c₀, hc₀, -⟩ := conn_of_received hrec
    exact ⟨c₀, hc₀⟩

/-- What an event kills is a zombie behind it. -/
theorem zombie_of_killed (hk : s.killed e = some fd) (hs : step env s e = some (s', out))
    (ha : s'.accountOf fd = some a) : a.zombie = true := by
  obtain ⟨s₁, h₁, rfl, -⟩ := step_runSlot hs
  obtain ⟨s₀, c, hc, -, -, hrun⟩ := runSlot_killed (s := s.flush) env hk
  have hacc := socketKill_account (k := fd) hc (hrun.symm.trans h₁)
  rw [if_pos rfl] at hacc
  obtain rfl := Option.some.inj (ha.symm.trans hacc)
  exact zombie_kill

/-- **Killed connections.** In every run in which the connection on `fd` is killed, each byte of
it that is handled behind that, before `fd` is given to a new connection, is inert exactly if the
command that it completes is harmless. -/
theorem inert_iff_of_runs (h₁ : Runs (step env) Always (start db) es₁ s₁ tr₁)
    (hk : s₁.killed e = some fd) (hs₁ : step env s₁ e = some (s₂, out₁))
    (h₂ : Runs (step env) (fun _ e => opens e ≠ some fd) s₂ es₂ s tr₂)
    {b : Char} (hs : step env s ⟨.socketReady fd b, w⟩ = some (s', out)) :
    Inert fd s s' out ↔ ZombieSafe env s ⟨.socketReady fd b, w⟩ := by
  have hnonneg : ∀ k a, s₁.accountOf k = some a → 0 ≤ k :=
    h₁.invariant (I := fun s => ∀ k a, s.accountOf k = some a → 0 ≤ k)
      (fun _ _ ha => nomatch ha) fun _ _ _ _ hI _ hs k a => (step_accountMove hs).nonneg hI
  have hfd : 0 ≤ fd := by
    obtain ⟨c, hc⟩ := conn_of_killed hk
    exact hnonneg fd c.account (by rw [accountOf, hc, Option.map_some])
  have hz : ∀ a, s.accountOf fd = some a → a.zombie = true := by
    refine h₂.invariant (I := fun s => ∀ a, s.accountOf fd = some a → a.zombie = true)
      (fun a => zombie_of_killed hk hs₁) fun s e s' out hI hnew hs a => ?_
    exact (step_accountMove hs).zombie_kept hI hnew
  exact inert_iff hfd (fun c hc => hz c.account (by rw [accountOf, hc, Option.map_some])) hs

/-- Alice logs in and closes; a `PG` is still in her buffer, and it is inert. -/
theorem inert_iff_of_runs_demo : ∃ s s' out,
    step demoEnv s ⟨.socketReady 5 '!', { now := 0 }⟩ = some (s', out) ∧
      (s.conn 5).map SipConnection.cmdline = some "PG".toList ∧ Inert 5 s s' out := by
  let kill : Event := ⟨.socketKill 5, { now := 0 }⟩
  let bang : Event := ⟨.socketReady 5 '!', { now := 0 }⟩
  have hrun : (run (step demoEnv) Always (start demoDb)
      (connects 5 0 :: typed 5 (loginText "alice") 0)).any fun x₁ =>
        x₁.1.killed kill = some 5 ∧ (step demoEnv x₁.1 kill).any fun x₂ =>
          (run (step demoEnv) (fun _ e => opens e ≠ some 5) x₂.1 (typed 5 "PG" 0)).any fun x =>
            (step demoEnv x.1 bang).isSome ∧
              (x.1.conn 5).map SipConnection.cmdline = some "PG".toList ∧
              ZombieSafe demoEnv x.1 bang := by decide +kernel
  obtain ⟨⟨s₁, tr₁⟩, hr₁, h⟩ := (Option.any_eq_true _ _).1 hrun
  obtain ⟨hk, h⟩ := of_decide_eq_true h
  obtain ⟨⟨s₂, out₁⟩, hs₁, h⟩ := (Option.any_eq_true _ _).1 h
  obtain ⟨⟨s, tr₂⟩, hr₂, h⟩ := (Option.any_eq_true _ _).1 h
  obtain ⟨hs, hline, hsafe⟩ := of_decide_eq_true h
  obtain ⟨⟨s', out⟩, hs⟩ := Option.isSome_iff_exists.1 hs
  exact ⟨s, s', out, hs, hline,
    (inert_iff_of_runs (runs_of_run hr₁) hk hs₁ (runs_of_run hr₂) hs).2 hsafe⟩

/-- The peer's buffer holds a malformed `LI`, over which the server kills the connection, and
another `LI`, which names Alice: the killed connection gets her `uid`. -/
theorem inert_needs_zombieSafe : ¬ ∀ (env : Env) (db : Database) es₁ s₁ tr₁ e s₂ out₁ es₂ s tr₂
    (fd : Int) b w s' out, Runs (step env) Always (start db) es₁ s₁ tr₁ → s₁.killed e = some fd →
      step env s₁ e = some (s₂, out₁) →
      Runs (step env) (fun _ e => opens e ≠ some fd) s₂ es₂ s tr₂ →
      step env s ⟨.socketReady fd b, w⟩ = some (s', out) → Inert fd s s' out := by
  intro h
  let bang : Event := ⟨.socketReady 5 '!', { now := 0 }⟩
  have hrun : (run (step demoEnv) Always (start demoDb)
      (connects 5 0 :: typed 5 "LI" 0)).any fun x₁ =>
        x₁.1.killed bang = some 5 ∧ (step demoEnv x₁.1 bang).any fun x₂ =>
          (run (step demoEnv) (fun _ e => opens e ≠ some 5) x₂.1
            (typed 5 "LI alice 0.0.0.0 1" 0)).any fun x =>
              (step demoEnv x.1 bang).any fun y => y.1.standingOf 5 ≠ x.1.standingOf 5 := by
    decide +kernel
  obtain ⟨⟨s₁, tr₁⟩, hr₁, hstep⟩ := (Option.any_eq_true _ _).1 hrun
  obtain ⟨hk, hstep⟩ := of_decide_eq_true hstep
  obtain ⟨⟨s₂, out₁⟩, hs₁, hstep⟩ := (Option.any_eq_true _ _).1 hstep
  obtain ⟨⟨s, tr₂⟩, hr₂, hstep⟩ := (Option.any_eq_true _ _).1 hstep
  obtain ⟨⟨s', out⟩, hs, hne⟩ := (Option.any_eq_true _ _).1 hstep
  exact of_decide_eq_true hne ((h demoEnv demoDb _ s₁ tr₁ bang s₂ out₁ _ s tr₂ 5 _ _ s' out
    (runs_of_run hr₁) hk hs₁ (runs_of_run hr₂) hs).standing 5)

end MainObject

end NetISDN
