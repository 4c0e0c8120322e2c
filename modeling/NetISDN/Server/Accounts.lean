import NetISDN.General.Runs
import NetISDN.Server.Dispatch

/-!
# What the handlers do to the accounts

Who a connection says it is, whether it has proved that, and whether it has been killed are in
four of its fields (`Account`). Only `LI`, `PW` and `Logout` touch them; the other handlers leave
the accounts and the credentials in `USERS` alone (`SameAccounts`), as long as MySQL takes what an
`MD` or a `PW` writes for what it is.
-/

namespace NetISDN

open TransitionSystem

/-- The fields of a connection that say who it is and whether it has been killed. -/
structure Account where
  uid : Int
  hash : QString
  isAuthenticated : Bool
  zombie : Bool
  deriving DecidableEq

/-- The account fields of a connection. -/
@[simps] def SipConnection.account (c : SipConnection) : Account :=
  ⟨c.uid, c.hash, c.isAuthenticated, c.zombie⟩

namespace Account

/-- The account of a new connection. -/
def fresh : Account := ⟨0, [], false, false⟩

/-- What `Logout` asks for, and resets. -/
def loggedIn (a : Account) : Bool := a.isAuthenticated && 0 < a.uid

/-- What is left of an account after `Logout`. -/
def logout (a : Account) : Account := if a.loggedIn then { a with uid := 0, hash := [] } else a

/-- What is left of an account after `socketKill`. -/
def kill (a : Account) : Account := if a.zombie then a else { a.logout with zombie := true }

end Account

@[simp] theorem SipConnection.account_clearCall (c : SipConnection) :
    c.clearCall.account = c.account := rfl

@[simp] theorem SipConnection.loggedIn_account (c : SipConnection) :
    c.account.loggedIn = c.loggedIn := rfl

/-- The columns of `USERS` that a login reads, and the one that shows it. -/
def UserRow.credentials (u : UserRow) : Int × QString × QString := (u.id, u.name, u.password)

namespace MainObject

variable {env : Env} {w : World} {s s' s₁ : MainObject} {fd k : Int} {c : SipConnection}
  {cmds : QStringList} {e : Event}

/-- The account fields of the connection on `fd`. -/
def accountOf (s : MainObject) (fd : Int) : Option Account := (s.conn fd).map SipConnection.account

/-- The credentials and the online flags of the users. -/
def presence (s : MainObject) : List ((Int × QString × QString) × Bool) :=
  s.db.users.map fun u => (u.credentials, u.online)

/-- What a login reads from `USERS`. -/
def credentials (s : MainObject) : List (Int × QString × QString) :=
  s.db.users.map UserRow.credentials

/-- `s'` has the accounts of `s`, and the users have the credentials and the online flags they
had. -/
structure SameAccounts (s s' : MainObject) : Prop where
  account : ∀ k, s'.accountOf k = s.accountOf k
  presence : s'.presence = s.presence

/-- Who is online is a matter of the presence. -/
theorem online_congr (h : s'.presence = s.presence) {u : Int} :
    s'.db.Online u ↔ s.db.Online u := by
  have hmem (s : MainObject) :
      s.db.Online u ↔ ∃ x ∈ s.presence, x.1.1 = u ∧ x.2 = true := by
    simp [presence, Database.Online, UserRow.credentials]
  rw [hmem, hmem, h]

/-- The credentials are a part of the presence. -/
theorem credentials_congr (h : s'.presence = s.presence) : s'.credentials = s.credentials := by
  have hmap (s : MainObject) : s.credentials = s.presence.map Prod.fst := by
    simp [presence, credentials, Function.comp_def]
  rw [hmap, hmap, h]

/-- Users with the same credentials have the same keys. -/
theorem exists_user_congr (h : s'.credentials = s.credentials) {id : Int} :
    (∃ r ∈ s'.db.users, r.id = id) ↔ ∃ r ∈ s.db.users, r.id = id := by
  have hmem (s : MainObject) :
      (∃ r ∈ s.db.users, r.id = id) ↔ ∃ x ∈ s.credentials, x.1 = id := by
    simp [credentials, UserRow.credentials]
  rw [hmem, hmem, h]

/-- Nothing has happened to the accounts. -/
theorem SameAccounts.refl (s : MainObject) : SameAccounts s s := ⟨fun _ => rfl, rfl⟩

/-- What leaves the accounts alone twice leaves them alone. -/
theorem SameAccounts.trans (h : SameAccounts s s₁) (h' : SameAccounts s₁ s') :
    SameAccounts s s' :=
  ⟨fun k => (h'.account k).trans (h.account k), h'.presence.trans h.presence⟩

/-- A setter that leaves the account fields alone. -/
theorem accountOf_modifyConn {f : SipConnection → SipConnection}
    (hf : ∀ c, (f c).account = c.account) : (s.modifyConn fd f).accountOf k = s.accountOf k := by
  rw [accountOf, accountOf, conn_modifyConn]
  split
  · cases s.conn k with
    | none => rfl
    | some c => simp [hf]
  · rfl

/-- Taking a command line leaves the accounts alone. -/
theorem sameAccounts_takeLine : SameAccounts s (s.takeLine fd) :=
  ⟨fun _ => accountOf_modifyConn fun _ => rfl, rfl⟩

/-- `EndCall` leaves the accounts alone. -/
theorem EndsCall.accounts (h : EndsCall w fd c s s') : SameAccounts s s' := by
  refine ⟨fun k => ?_, by rw [presence, presence, h.db]; rfl⟩
  rw [accountOf, accountOf, h.conn]
  split
  · cases s.conn k <;> rfl
  · rfl

/-- Setting up a call leaves the accounts alone. -/
theorem SetsUpCall.accounts {d : Int} {cd : SipConnection} {port port' : Nat} {id : Int}
    {row : CallRow} (h : SetsUpCall w fd d cmds c cd port port' id row s s') :
    SameAccounts s s' := by
  refine ⟨fun k => ?_, by rw [presence, presence, h.db]; rfl⟩
  rw [accountOf, accountOf, h.conn]
  split
  · cases s.conn k <;> rfl
  · rfl

/-- An `MD` with a plain value leaves the credentials and the online flags alone. -/
theorem presence_setColumn {uid : Int} {tag value : QString}
    (h : UserRow.hasColumn tag → Plain value) :
    (s.withDb (setColumn w uid tag value)).presence = s.presence := by
  rw [presence, presence, db_withDb, setColumn]
  split
  · next htag =>
      rw [Database.updatePasted_plain (h htag)]
      refine Database.map_updateRows (fun u => ?_) _
      simp [UserRow.credentials]
  · rfl

/-- A command leaves the accounts alone unless it kills the connection, names a user or proves a
login; and the users as well, if it writes nothing that MySQL misreads. -/
theorem Outcome.accounts (hc : s.conn fd = some c) (h : Outcome env w s fd c cmds s') :
    ((∀ k, s'.accountOf k = s.accountOf k) ∧
      ((∀ text ∈ s.writtenText fd c cmds, Plain text) → s'.presence = s.presence)) ∨
    (∃ code, s.killCode fd c cmds = some code ∧
      (s.sendCommand fd (erCommand code)).socketKill w fd = some s') ∨
    (∃ u, s.namedUser w cmds = some u ∧
      s' = (s.sendCommand fd ("LI " ++ generateChallenge w ++ "!")).modifyConn fd
        (SipConnection.identify env w u cmds)) ∨
    (cmds.at 0 = "PW" ∧ s.killCode fd c cmds = none ∧ s' = s.acceptLogin env w fd c) := by
  cases h with
  | kill hcode hs => exact .inr (.inl ⟨_, hcode, hs⟩)
  | stranger => exact .inl ⟨fun _ => rfl, fun _ => rfl⟩
  | identify hu => exact .inr (.inr (.inl ⟨_, hu, rfl⟩))
  | accept h0 hcode => exact .inr (.inr (.inr ⟨h0, hcode, rfl⟩))
  | refuse => exact .inl ⟨fun _ => rfl, fun _ => rfl⟩
  | setup hcallee hd hs =>
      obtain ⟨_, _, _, _, hset⟩ := setupCall_spec hc hd hs
      exact .inl ⟨hset.accounts.account, fun _ => hset.accounts.presence⟩
  | bye _ _ hs =>
      have hsame := (endCall_spec hc hs).accounts
      exact .inl ⟨hsame.account, fun _ => hsame.presence⟩
  | forward => exact .inl ⟨fun _ => rfl, fun _ => rfl⟩
  | mute => exact .inl ⟨fun _ => rfl, fun _ => rfl⟩
  | metadata h0 hauth hlen =>
      refine .inl ⟨fun _ => rfl, fun hplain => presence_setColumn fun htag => hplain _ ?_⟩
      exact writtenText_metadata h0 hauth hlen htag
  | ping => exact .inl ⟨fun _ => accountOf_modifyConn fun _ => rfl, fun _ => rfl⟩

/-! ## `Logout` and `socketKill` -/

/-- `Logout` on the accounts: the connection forgets who it was, if it was logged in. -/
theorem logout_account (hc : s.conn fd = some c) (h : s.logout w fd = some s') :
    s'.accountOf k = if fd = k then some c.account.logout else s.accountOf k := by
  rcases logout_spec hc h with ⟨hout, rfl⟩ | ⟨hin, hl⟩
  · split
    · next hk => rw [← hk, accountOf, hc, Account.logout, if_neg (by simp [hout])]; rfl
    · rfl
  · rw [accountOf]
    split
    · next hk =>
        subst hk
        rw [hl.conn_self, Account.logout, if_pos (by simp [hin])]
        simp only [SipConnection.release]
        split <;> rfl
    · next hk =>
        simpa [accountOf, Function.comp_def] using
          congrArg (Option.map SipConnection.account) (logout_frame hc h hk)

/-- `Logout` takes the user of the connection offline, if it was logged in. -/
theorem logout_presence (hc : s.conn fd = some c) (h : s.logout w fd = some s') :
    s'.credentials = s.credentials ∧
      ∀ u, s'.db.Online u ↔ s.db.Online u ∧ ¬ (c.account.loggedIn ∧ c.account.uid = u) := by
  rcases logout_spec hc h with ⟨hout, rfl⟩ | ⟨hin, hl⟩
  · simp [hout]
  · have hcred : ∀ u : UserRow, (u.offline w.sqlNow).credentials = u.credentials := fun _ => rfl
    have hdb : s'.db.users = (s.db.updateUser c.uid (UserRow.offline w.sqlNow)).users := by
      rw [hl.db]
      split <;> rfl
    refine ⟨?_, fun u => ?_⟩
    · rw [credentials, hdb]
      exact Database.map_updateRows hcred _
    · have hiff : s'.db.Online u ↔
          (s.db.updateUser c.uid (UserRow.offline w.sqlNow)).Online u := by
        rw [Database.Online, Database.Online, hdb]
      refine hiff.trans ((Database.online_updateUser_offline
        (f := UserRow.offline w.sqlNow) (fun _ => rfl) fun _ => rfl).trans ?_)
      simp [hin]

/-- `socketKill` on the accounts. -/
theorem socketKill_account (hc : s.conn fd = some c) (h : s.socketKill w fd = some s') :
    s'.accountOf k = if fd = k then some c.account.kill else s.accountOf k := by
  rcases socketKill_spec hc h with ⟨hz, rfl⟩ | ⟨hz, s₁, h₁, rfl⟩
  · split
    · next hk => rw [← hk, accountOf, hc, Account.kill, if_pos (by exact hz)]; rfl
    · rfl
  · have hacc := logout_account (k := k) hc h₁
    rw [accountOf] at hacc ⊢
    rw [conn_modifyConn]
    split
    · next hk =>
        rw [if_pos hk, Option.map_eq_some_iff] at hacc
        obtain ⟨c₁, hc₁, hacc⟩ := hacc
        rw [hc₁, Account.kill, if_neg (by exact (by simp [hz] : ¬ c.zombie = true)), ← hacc]
        rfl
    · next hk => rw [hacc, if_neg hk]

/-! ## The moves of a step -/

/-- What a step does to the accounts. -/
inductive AccountMove (env : Env) (s : MainObject) (e : Event) (s' : MainObject) : Prop
  | same : (∀ k, s'.accountOf k = s.accountOf k) →
      (s.WritesPlain e → s'.presence = s.presence) → AccountMove env s e s'
  | connect {fd : Int} : 0 ≤ fd ∧ opens e = some fd →
      (∀ a, s.accountOf fd = some a → a.zombie = true) →
      (∀ k, s'.accountOf k = if fd = k then some .fresh else s.accountOf k) →
      s'.presence = s.presence → AccountMove env s e s'
  | kill {fd : Int} {a : Account} : s.accountOf fd = some a →
      (a.zombie = false → s.killed e = some fd) →
      (∀ k, s'.accountOf k = if fd = k then some a.kill else s.accountOf k) →
      s'.credentials = s.credentials →
      (∀ u, s'.db.Online u ↔ s.db.Online u ∧ ¬ (a.zombie = false ∧ a.loggedIn ∧ a.uid = u)) →
      AccountMove env s e s'
  | identify {fd : Int} {u : UserRow} {a : Account} : s.identified e = some (fd, u) →
      s.accountOf fd = some a →
      (∀ k, s'.accountOf k = if fd = k then some { a with
        uid := u.id
        hash := passwordHash env u.password (generateChallenge e.world) } else s.accountOf k) →
      s'.presence = s.presence → AccountMove env s e s'
  | accept {fd : Int} {a : Account} : s.accepted e = some fd → s.accountOf fd = some a →
      (∀ k, s'.accountOf k = if fd = k then some { a with isAuthenticated := true }
        else s.accountOf k) →
      (s.WritesPlain e → s'.credentials = s.credentials ∧
        ∀ u, s'.db.Online u ↔ s.db.Online u ∨ a.uid = u ∧ ∃ r ∈ s.db.users, r.id = u) →
      AccountMove env s e s'
  | purge : e.slot = .zombieData →
      (∀ k, s'.accountOf k = (s.accountOf k).filter fun a => ¬ a.zombie) →
      s'.presence = s.presence → AccountMove env s e s'
  | sweep : e.slot = .pingTimerData →
      (∀ k, s'.accountOf k = if s.TimesOut e k then none else s.accountOf k) →
      s'.credentials = s.credentials →
      (∀ u, s'.db.Online u ↔ s.db.Online u ∧
        ¬ ∃ k a, s.TimesOut e k ∧ s.accountOf k = some a ∧ a.loggedIn ∧ a.uid = u) →
      AccountMove env s e s'

/-- `socketKill` on the users. -/
theorem socketKill_presence (hc : s.conn fd = some c) (h : s.socketKill w fd = some s') :
    s'.credentials = s.credentials ∧ ∀ u, s'.db.Online u ↔ s.db.Online u ∧
      ¬ (c.account.zombie = false ∧ c.account.loggedIn ∧ c.account.uid = u) := by
  rcases socketKill_spec hc h with ⟨hz, rfl⟩ | ⟨hz, s₁, h₁, rfl⟩
  · simp [hz]
  · obtain ⟨hcred, hon⟩ := logout_presence hc h₁
    exact ⟨hcred, fun u => (hon u).trans (by simp [hz])⟩

/-- The account moves of a command. -/
theorem Outcome.accountMove (hslot : e.slot = .socketReady fd '!') (hc : s.conn fd = some c)
    (h : Outcome env e.world (s.takeLine fd) fd c.clearLine (tokens c) s') :
    AccountMove env s e s' := by
  have hrec := received_eq hslot hc
  have htake : SameAccounts s (s.takeLine fd) := sameAccounts_takeLine
  have hc' : (s.takeLine fd).conn fd = some c.clearLine := by
    rw [takeLine, conn_modifyConn, if_pos rfl, hc, Option.map_some]
  have hacc : s.accountOf fd = some c.account := by rw [accountOf, hc, Option.map_some]
  rcases h.accounts hc' with ⟨hsame, hpres⟩ | ⟨code, hcode, hkill⟩ | ⟨u, hu, rfl⟩ | ⟨h0, hcode, rfl⟩
  · exact .same (fun k => (hsame k).trans (htake.account k)) fun hplain => hpres (hplain.text hrec)
  · obtain ⟨hcred, hon⟩ := socketKill_presence (by exact hc') hkill
    refine .kill hacc (fun hz => ?_) (fun k => ?_) hcred hon
    · have hz : c.zombie = false := hz
      simp [killed, hslot, hrec, hz, hcode]
    · rw [socketKill_account (by exact hc') hkill, ← htake.account k]
      rfl
  · refine .identify (u := u) ?_ hacc (fun k => ?_) rfl
    · rw [identified, hrec]
      exact congrArg (Option.map (Prod.mk fd)) hu
    · rw [accountOf, conn_modifyConn]
      split
      · next hk =>
          subst hk
          rw [conn_sendCommand, hc']
          rfl
      · exact htake.account k
  · refine .accept ?_ hacc (fun k => ?_) fun hplain => ?_
    · simp [accepted, hrec, h0, hcode]
    · rw [accountOf, acceptLogin, conn_sendUidUpdate, conn_sendCommand, conn_withDb,
        conn_modifyConn]
      split
      · next hk =>
          subst hk
          rw [hc']
          rfl
      · exact htake.account k
    · have hversion : Plain c.clearLine.clientVersion :=
        hplain.text hrec _ (writtenText_password h0 hcode)
      have hdb : ((s.takeLine fd).acceptLogin env e.world fd c.clearLine).db =
          s.db.updateUser c.uid (UserRow.goOnline e.world.sqlNow c.peerAddress.toString
            (e.world.stored c.clientVersion) (env.location c.peerAddress)) :=
        Database.updatePasted_plain hversion
      refine ⟨?_, fun u => ?_⟩
      · rw [credentials, hdb]
        exact Database.map_updateRows (f := UserRow.goOnline _ _ _ _) (fun _ => rfl) _
      · rw [hdb]
        exact Database.online_updateUser_online (f := UserRow.goOnline _ _ _ _) (fun _ => rfl)
          fun _ => rfl

/-- Between the turns of the ping sweep, the users of what has timed out and been visited are
offline. -/
structure SweepUsers (s : MainObject) (e : Event) (done : List Int) (s₁ : MainObject) : Prop where
  credentials : s₁.credentials = s.credentials
  online : ∀ u, s₁.db.Online u ↔ s.db.Online u ∧ ¬ ∃ k a, (k ∈ done ∧ s.TimesOut e k) ∧
    s.accountOf k = some a ∧ a.loggedIn ∧ a.uid = u

/-- One more connection has been swept. -/
theorem SweepUsers.turn {done : List Int} {s₂ : MainObject} (hslot : e.slot = .pingTimerData)
    (ht : PingTurn e.world s done fd c s₁ s₂) (hI : SweepUsers s e done s₁) :
    SweepUsers s e (done ++ [fd]) s₂ := by
  obtain ⟨hcred, hon⟩ := hI
  obtain ⟨c₀, hc₀, hsame⟩ := ht.same
  have htimes : s.TimesOut e fd ↔ c.timedOut e.world = true := by
    rw [TimesOut, ht.timedOut, and_iff_right hslot]
  rcases ht.turn with ⟨hto, rfl⟩ | ⟨hto, s₃, hout, rfl⟩
  · have hnot : ¬ s.TimesOut e fd := by rw [htimes, hto]; decide
    refine ⟨hcred, fun u => (hon u).trans (and_congr_right fun _ => not_congr ?_)⟩
    constructor
    · rintro ⟨k, a, ⟨hk, hkt⟩, ha⟩
      exact ⟨k, a, ⟨List.mem_append_left _ hk, hkt⟩, ha⟩
    · rintro ⟨k, a, ⟨hk, hkt⟩, ha⟩
      rcases List.mem_append.1 hk with hk | hk
      · exact ⟨k, a, ⟨hk, hkt⟩, ha⟩
      · exact absurd (List.mem_singleton.1 hk ▸ hkt) hnot
  · obtain ⟨hcred', hon'⟩ := logout_presence ht.conn hout
    have hacc : s.accountOf fd = some c.account := by
      rw [accountOf, hc₀, Option.map_some, ← SipConnection.account_clearCall c, hsame,
        SipConnection.account_clearCall]
    refine ⟨hcred'.trans hcred, fun u => (hon' u).trans ?_⟩
    rw [hon u, and_assoc, ← not_or]
    refine and_congr_right fun _ => not_congr ?_
    constructor
    · rintro (⟨k, a, ⟨hk, hkt⟩, ha⟩ | ⟨hin, huid⟩)
      · exact ⟨k, a, ⟨List.mem_append_left _ hk, hkt⟩, ha⟩
      · exact ⟨fd, _, ⟨List.mem_append_right _ (.head _), htimes.2 hto⟩, hacc, hin, huid⟩
    · rintro ⟨k, a, ⟨hk, hkt⟩, ha, hin, huid⟩
      rcases List.mem_append.1 hk with hk | hk
      · exact .inl ⟨k, a, ⟨hk, hkt⟩, ha, hin, huid⟩
      · rw [List.mem_singleton.1 hk, hacc, Option.some.injEq] at ha
        exact .inr ⟨ha ▸ hin, ha ▸ huid⟩

/-- **The accounts after a step.** -/
theorem Transition.accountMove (h : Transition env e.world s e.slot s') :
    AccountMove env s e s' := by
  obtain ⟨slot, w⟩ := e
  cases h with
  | @newConnection fd peer hfd hz =>
      refine .connect ⟨hfd, rfl⟩ (fun a ha => ?_) (fun k => ?_) rfl
      · obtain ⟨c, hc, rfl⟩ := Option.map_eq_some_iff.1 ha
        exact hz c hc
      · rw [accountOf, conn_insertConn]
        split <;> rfl
  | byte hb hc => exact .same (fun _ => accountOf_modifyConn fun _ => rfl) fun _ => rfl
  | command hc ho => exact ho.accountMove rfl hc
  | @socketKill fd c _ hc hk =>
      obtain ⟨hcred, hon⟩ := socketKill_presence hc hk
      refine .kill (by rw [accountOf, hc, Option.map_some]) (fun hz => ?_)
        (fun k => socketKill_account hc hk) hcred hon
      have hz : c.zombie = false := hz
      simp [killed, hc, hz]
  | zombieData =>
      obtain ⟨hconn, hdb, -⟩ := zombieData_spec s
      refine .purge rfl (fun k => ?_) (by rw [presence, presence, hdb])
      rw [accountOf, accountOf, hconn]
      cases s.conn k with
      | none => rfl
      | some c => by_cases hz : c.zombie = true <;> simp [Option.filter, hz]
  | pingTimerData hp =>
      obtain ⟨hI, hswept⟩ := pingTimerData_rule (I := SweepUsers s ⟨.pingTimerData, w⟩) hp
        ⟨rfl, fun u => by simp⟩ fun _ _ _ _ _ ht hI => hI.turn rfl ht
      have hmem (k : Int) : k ∈ s.fds ∧ s.TimesOut ⟨.pingTimerData, w⟩ k ↔
          s.TimesOut ⟨.pingTimerData, w⟩ k := by
        refine and_iff_right_of_imp fun hto => mem_fds.2 ?_
        obtain ⟨c, hc, -⟩ := (Option.any_eq_true _ _).1 hto.2
        exact ⟨c, hc⟩
      refine .sweep rfl (fun k => ?_) hI.credentials fun u => by simp only [hI.online, hmem]
      have hk := congrArg (Option.map SipConnection.account) (hswept k)
      rw [accountOf, accountOf, ← if_congr (hmem k) rfl rfl]
      split
      · next hto =>
          rw [if_pos ⟨hto.1, hto.2.2⟩] at hk
          simpa [Function.comp_def] using hk
      · next hto =>
          rw [if_neg fun h => hto ⟨h.1, rfl, h.2⟩] at hk
          simpa [Function.comp_def] using hk

/-- **The accounts after a step of the server.** -/
theorem step_accountMove {out : List Output} (h : step env s e = some (s', out)) :
    AccountMove env s e s' := by
  obtain ⟨s₁, htr, rfl, -⟩ := step_transition h
  cases htr.accountMove with
  | same hacc hp => exact .same hacc hp
  | connect hslot hz hacc hp => exact .connect hslot hz hacc hp
  | kill ha hk hacc hcred hon => exact .kill ha hk hacc hcred hon
  | identify hi ha hacc hp => exact .identify hi ha hacc hp
  | accept hi ha hacc husers => exact .accept hi ha hacc husers
  | purge hslot hacc hp => exact .purge hslot hacc hp
  | sweep hslot hacc hcred hon => exact .sweep hslot hacc hcred hon

/-- The credentials of the users do not change, unless MySQL misreads an update. -/
theorem AccountMove.credentials_eq (h : AccountMove env s e s') (hplain : s.WritesPlain e) :
    s'.credentials = s.credentials := by
  cases h with
  | same _ hp => exact credentials_congr (hp hplain)
  | connect _ _ _ h => exact credentials_congr h
  | kill _ _ _ h => exact h
  | identify _ _ _ h => exact credentials_congr h
  | accept _ _ _ h => exact (h hplain).1
  | purge _ _ h => exact credentials_congr h
  | sweep _ _ h => exact h

/-- Descriptors are not negative. -/
theorem AccountMove.nonneg (h : AccountMove env s e s')
    (hs : ∀ k a, s.accountOf k = some a → 0 ≤ k) {a : Account} (ha : s'.accountOf k = some a) :
    0 ≤ k := by
  cases h with
  | same hacc => exact hs k a ((hacc k).symm.trans ha)
  | connect hfd _ hacc =>
      rw [hacc] at ha
      split at ha
      · next hk => exact hk ▸ hfd.1
      · exact hs k a ha
  | kill ha₀ _ hacc | identify _ ha₀ hacc | accept _ ha₀ hacc =>
      rw [hacc] at ha
      split at ha
      · next hk => exact hk ▸ hs _ _ ha₀
      · exact hs k a ha
  | purge _ hacc =>
      rw [hacc] at ha
      exact hs k a (Option.filter_eq_some_iff.1 ha).1
  | sweep _ hacc =>
      rw [hacc] at ha
      split at ha
      · cases ha
      · exact hs k a ha

end MainObject

end NetISDN
