import NetISDN.Server.Accounts

/-!
# An authenticated identity is a proven one

A connection that is authenticated as a user has answered the challenge that it was sent for that
user with the hash of that user's password (`Proven`). `Login` may be sent again on a connection
that is authenticated already, and sets the `uid` at once; and it pastes the name into its query as
it is. As long as it does not change the `uid` there, and no text of a client makes MySQL find a
user that there is not or change one (`IdentitySafe`), every authenticated identity is proven.
-/

namespace NetISDN

open TransitionSystem

namespace MainObject

variable {env : Env} {db : Database} {s s' : MainObject} {e : Event} {es : List Event}
  {tr out : List Output} {k fd : Int} {a : Account} {c : SipConnection} {u : UserRow}
  {chal : QString}

/-! ## Histories of a login -/

/-- The connection on `fd` was there before the event `e`, and its `uid` is `uid` behind it. -/
def Keeps (e : Event) (s' : MainObject) (fd uid : Int) : Prop :=
  opens e ≠ some fd ∧ ∃ c, s'.conn fd = some c ∧ c.uid = uid

/-- In the run over the events, which ends in the state, an `LI` on `fd` named the user `u` and
was answered with the challenge `chal`; the connection and its `uid` have been kept since. -/
inductive Challenged (env : Env) (db : Database) (fd : Int) (u : UserRow) (chal : QString) :
    List Event → MainObject → Prop
  | login {es : List Event} {s s' : MainObject} {tr out : List Output} {e : Event} {v : UserRow} :
      Runs (step env) Always (start db) es s tr →
      step env s e = some (s', out) → s.identified e = some (fd, v) →
      v.credentials = u.credentials → commandsTo fd out = ["LI " ++ chal ++ "!"] →
      Keeps e s' fd u.id → Challenged env db fd u chal (es ++ [e]) s'
  | later {es : List Event} {s s' : MainObject} {out : List Output} {e : Event} :
      Challenged env db fd u chal es s → step env s e = some (s', out) →
      Keeps e s' fd u.id → Challenged env db fd u chal (es ++ [e]) s'

/-- In the run over the events, which ends in the state, a `PW` was accepted on `fd` that answered
the challenge for the user `u` with the hash of that user's password; the connection and its `uid`
have been kept since the `LI`. -/
inductive Proven (env : Env) (db : Database) (fd : Int) (u : UserRow) :
    List Event → MainObject → Prop
  | password {chal : QString} {es : List Event} {s s' : MainObject} {c : SipConnection}
      {cmds : QStringList} {out : List Output} {e : Event} : Challenged env db fd u chal es s →
      s.received e = some (fd, c, cmds) → s.accepted e = some fd →
      cmds.at 1 = passwordHash env u.password chal → step env s e = some (s', out) →
      Keeps e s' fd u.id → Proven env db fd u (es ++ [e]) s'
  | later {es : List Event} {s s' : MainObject} {out : List Output} {e : Event} :
      Proven env db fd u es s → step env s e = some (s', out) → Keeps e s' fd u.id →
      Proven env db fd u (es ++ [e]) s'

/-- Who has been challenged has come there by a run. -/
theorem Challenged.runs (h : Challenged env db fd u chal es s) :
    ∃ tr, Runs (step env) Always (start db) es s tr := by
  induction h with
  | login hr hs => exact ⟨_, hr.snoc trivial hs⟩
  | later _ hs _ ih =>
      obtain ⟨tr, hr⟩ := ih
      exact ⟨_, hr.snoc trivial hs⟩

/-- Who has proven a name has come there by a run. -/
theorem Proven.runs (h : Proven env db fd u es s) :
    ∃ tr, Runs (step env) Always (start db) es s tr := by
  induction h with
  | password hch _ _ _ hs =>
      obtain ⟨tr, hr⟩ := hch.runs
      exact ⟨_, hr.snoc trivial hs⟩
  | later _ hs _ ih =>
      obtain ⟨tr, hr⟩ := ih
      exact ⟨_, hr.snoc trivial hs⟩

/-- Who has proven a name has its account. -/
theorem Proven.uid (h : Proven env db fd u es s) : ∃ c, s.conn fd = some c ∧ c.uid = u.id := by
  cases h with
  | password _ _ _ _ _ hk => exact hk.2
  | later _ _ hk => exact hk.2

/-! ## What a step does to the identities -/

/-- The event does not change the `uid` of a connection that is authenticated, and MySQL takes the
texts of the client in it for what they are. -/
structure IdentitySafe (s : MainObject) (e : Event) : Prop where
  keeps : ∀ p ∈ s.identified e, ∀ c ∈ s.conn p.1, c.isAuthenticated → c.uid = p.2.id
  sql : SqlSafe s e

instance (s : MainObject) (e : Event) : Decidable (IdentitySafe s e) :=
  decidable_of_iff ((∀ p ∈ s.identified e, ∀ c ∈ s.conn p.1, c.isAuthenticated → c.uid = p.2.id) ∧
    SqlSafe s e) ⟨fun ⟨h₁, h₂⟩ => ⟨h₁, h₂⟩, fun ⟨h₁, h₂⟩ => ⟨h₁, h₂⟩⟩

/-- A new connection names no user. -/
theorem not_opens (hs : step env s e = some (s', out)) (ha : s'.accountOf k = some a)
    (hu : 0 < a.uid) : opens e ≠ some k := by
  intro hopens
  obtain ⟨peer, hslot⟩ := opens_eq_some.1 hopens
  obtain ⟨s₁, htr, rfl, -⟩ := step_transition hs
  obtain ⟨slot, w⟩ := e
  obtain rfl : slot = .newConnection k peer := hslot
  cases htr with
  | newConnection =>
      rw [accountOf, conn_flush, conn_insertConn, if_pos rfl, Option.map_some,
        Option.some.injEq] at ha
      rw [← ha] at hu
      exact absurd hu (lt_irrefl 0)

/-- A connection that names a user did so before the step, and has been authenticated in it at
most; or the step is the `LI` with which it does. -/
theorem AccountMove.identity (h : AccountMove env s e s') (ha : s'.accountOf k = some a)
    (hu : a.uid ≠ 0) : ∃ a', s.accountOf k = some a' ∧
      (a.uid = a'.uid ∧ a.hash = a'.hash ∧
        (a.isAuthenticated = a'.isAuthenticated ∨ s.accepted e = some k) ∨
      ∃ u, s.identified e = some (k, u) ∧ a.uid = u.id ∧
        a.hash = passwordHash env u.password (generateChallenge e.world) ∧
        a.isAuthenticated = a'.isAuthenticated) := by
  have hkeep (h : s.accountOf k = some a) : ∃ a', s.accountOf k = some a' ∧
      (a.uid = a'.uid ∧ a.hash = a'.hash ∧
        (a.isAuthenticated = a'.isAuthenticated ∨ s.accepted e = some k) ∨
      ∃ u, s.identified e = some (k, u) ∧ a.uid = u.id ∧
        a.hash = passwordHash env u.password (generateChallenge e.world) ∧
        a.isAuthenticated = a'.isAuthenticated) :=
    ⟨a, h, .inl ⟨rfl, rfl, .inl rfl⟩⟩
  cases h with
  | same h => exact hkeep ((h k).symm.trans ha)
  | connect _ _ hacc =>
      rw [hacc] at ha
      split at ha
      · rw [← Option.some.inj ha] at hu
        exact absurd hu (by decide)
      · exact hkeep ha
  | @kill fd a₀ ha₀ _ hacc =>
      rw [hacc] at ha
      split at ha
      · next hfd =>
          subst hfd
          refine ⟨a₀, ha₀, .inl ?_⟩
          obtain rfl := Option.some.inj ha
          rw [Account.kill] at hu ⊢
          split
          · exact ⟨rfl, rfl, .inl rfl⟩
          · next hz =>
              rw [if_neg hz, Account.logout] at hu
              rw [Account.logout]
              split
              · next hin =>
                  rw [if_pos hin] at hu
                  exact absurd rfl hu
              · exact ⟨rfl, rfl, .inl rfl⟩
      · exact hkeep ha
  | @identify fd u a₀ hid ha₀ hacc =>
      rw [hacc] at ha
      split at ha
      · next hfd =>
          subst hfd
          obtain rfl := Option.some.inj ha
          exact ⟨a₀, ha₀, .inr ⟨u, hid, rfl, rfl, rfl⟩⟩
      · exact hkeep ha
  | @accept fd a₀ hacc' ha₀ hacc =>
      rw [hacc] at ha
      split at ha
      · next hfd =>
          subst hfd
          obtain rfl := Option.some.inj ha
          exact ⟨a₀, ha₀, .inl ⟨rfl, rfl, .inr hacc'⟩⟩
      · exact hkeep ha
  | purge _ hacc =>
      rw [hacc] at ha
      exact hkeep (Option.filter_eq_some_iff.1 ha).1
  | sweep _ hacc =>
      rw [hacc] at ha
      split at ha
      · cases ha
      · exact hkeep ha

/-- A `PW` that is accepted presents the hash of the connection. -/
theorem hash_of_accepted (h : s.accepted e = some fd) (ha : s.accountOf fd = some a) :
    ∃ c cmds, s.received e = some (fd, c, cmds) ∧ cmds.at 1 = a.hash := by
  obtain ⟨c, cmds, hrec, h0, hcode⟩ := accepted_eq_some.1 h
  obtain ⟨c₀, hc₀, rfl, -⟩ := conn_of_received hrec
  rw [accountOf, hc₀, Option.map_some, Option.some.injEq] at ha
  refine ⟨_, cmds, hrec, ?_⟩
  rw [((killCode_password h0).1 hcode).2.2.1, ← ha]
  rfl

/-! ## Runs -/

/-- What the run keeps: each `uid` was named in an `LI`, and answered by the hash that the
connection holds; and it is proven where the connection is authenticated. -/
structure IdentityInv (env : Env) (db : Database) (es : List Event) (s : MainObject) : Prop where
  credentials : s.credentials = db.users.map UserRow.credentials
  challenged : ∀ k a, s.accountOf k = some a → 0 < a.uid → ∃ u ∈ db.users, u.id = a.uid ∧
    ∃ chal, Challenged env db k u chal es s ∧ a.hash = passwordHash env u.password chal
  proven : ∀ k a, s.accountOf k = some a → a.isAuthenticated → 0 < a.uid →
    ∃ u ∈ db.users, u.id = a.uid ∧ Proven env db k u es s

/-- The rows of `USERS` have the credentials that they had at the start. -/
theorem IdentityInv.exists_row (h : IdentityInv env db es s) (hu : u ∈ s.db.users) :
    ∃ v ∈ db.users, v.credentials = u.credentials := by
  have hmem : u.credentials ∈ s.credentials := List.mem_map_of_mem hu
  rw [h.credentials] at hmem
  exact List.mem_map.1 hmem

/-- **The step lemma.** -/
theorem IdentityInv.step (h : IdentityInv env db es s)
    (hr : Runs (step env) Always (start db) es s tr) (hP : IdentitySafe s e)
    (hs : MainObject.step env s e = some (s', out)) : IdentityInv env db (es ++ [e]) s' := by
  have hmove := step_accountMove hs
  have hkeeps {k a} (ha : s'.accountOf k = some a) (hu : 0 < a.uid) : Keeps e s' k a.uid := by
    obtain ⟨c, hc, rfl⟩ := Option.map_eq_some_iff.1 ha
    exact ⟨not_opens hs ha hu, c, hc, rfl⟩
  refine ⟨(hmove.credentials_eq hP.sql.plain).trans h.credentials, fun k a ha hu =>
    ?_, fun k a ha hauth hu => ?_⟩
  · obtain ⟨a', ha', ⟨huid, hhash, -⟩ | ⟨u, hid, huid, hhash, -⟩⟩ := hmove.identity ha hu.ne'
    · obtain ⟨u, hmem, hu', chal, hch, hhash'⟩ := h.challenged k a' ha' (huid ▸ hu)
      rw [← huid] at hu'
      exact ⟨u, hmem, hu', chal, hch.later hs (hu' ▸ hkeeps ha hu), hhash.trans hhash'⟩
    · -- the row that the `LI` names has the credentials of one of the rows at the start
      obtain ⟨v, hmem, hv⟩ := h.exists_row (hP.sql.named _ hid)
      have hid' : v.id = a.uid := (congrArg Prod.fst hv).trans huid.symm
      have hpass : v.password = u.password := congrArg (fun x => x.2.2) hv
      exact ⟨v, hmem, hid', _, .login hr hs hid hv.symm (step_identified hid hs).2
        (hid' ▸ hkeeps ha hu), hpass ▸ hhash⟩
  · obtain ⟨a', ha', ⟨huid, hhash, hsame | hacc⟩ | ⟨u, hid, huid, -, hsame⟩⟩ :=
      hmove.identity ha hu.ne'
    · obtain ⟨u, hmem, hu', hpr⟩ := h.proven k a' ha' (hsame ▸ hauth) (huid ▸ hu)
      rw [← huid] at hu'
      exact ⟨u, hmem, hu', hpr.later hs (hu' ▸ hkeeps ha hu)⟩
    · obtain ⟨u, hmem, hu', chal, hch, hhash'⟩ := h.challenged k a' ha' (huid ▸ hu)
      obtain ⟨c, cmds, hrec, harg⟩ := hash_of_accepted hacc ha'
      rw [← huid] at hu'
      exact ⟨u, hmem, hu', .password hch hrec hacc (harg.trans hhash') hs (hu' ▸ hkeeps ha hu)⟩
    · obtain ⟨c, hc, rfl⟩ := Option.map_eq_some_iff.1 ha'
      have hauth' : c.account.isAuthenticated := hsame ▸ hauth
      have huid' := hP.keeps _ hid c hc hauth'
      obtain ⟨v, hmem, hv, hpr⟩ := h.proven k _ ha' hauth' (by
        rw [SipConnection.account_uid, huid', ← huid]
        exact hu)
      have hv : v.id = a.uid := hv.trans (huid'.trans huid.symm)
      exact ⟨v, hmem, hv, hpr.later hs (hv ▸ hkeeps ha hu)⟩

/-- The authenticated identities of the state `s`, behind the events `es`, are proven: on each
connection that is authenticated as a user, and on each that gets a command through which needs a
login. -/
structure ProvenIdentities (env : Env) (db : Database) (es : List Event) (s : MainObject) :
    Prop where
  authenticated : ∀ k c, s.conn k = some c → c.isAuthenticated → 0 < c.uid →
    ∃ u ∈ db.users, u.id = c.uid ∧ Proven env db k u es s
  executed : ∀ e k c cmds, s.received e = some (k, c, cmds) →
    cmds.at 0 ∈ (["CA", "BY", "CB", "MD", "ER"] : List QString) →
    (s.takeLine k).killCode k c cmds = none → 0 < c.uid →
    ∃ u ∈ db.users, u.id = c.uid ∧ Proven env db k u es s

/-- **Authenticated identities are proven.** In every run whose steps all meet `IdentitySafe`, the
authenticated identities are proven in every state reached. -/
theorem provenIdentities_of_runs (h : Runs (step env) IdentitySafe (start db) es s tr) :
    ProvenIdentities env db es s := by
  have hI : IdentityInv env db es s := by
    refine h.invariant_history (I := fun es s _ => IdentityInv env db es s) ?_ ?_
    · have hnone : ∀ k a, (start db).accountOf k ≠ some a := fun _ _ ha => nomatch ha
      exact ⟨rfl, fun k a ha => absurd ha (hnone k a), fun k a ha => absurd ha (hnone k a)⟩
    · intro es s tr e s' out hr hI hP hs
      exact hI.step (hr.mono fun _ _ _ => trivial) hP hs
  have hauth {k c} (hc : s.conn k = some c) (hauth : c.isAuthenticated) (hu : 0 < c.uid) :
      ∃ u ∈ db.users, u.id = c.uid ∧ Proven env db k u es s :=
    hI.proven k c.account (by rw [accountOf, hc, Option.map_some]) hauth hu
  refine ⟨fun k c hc => hauth hc, fun e k c cmds hrec hcmd hcode hu => ?_⟩
  obtain ⟨c₀, hc₀, rfl, -⟩ := conn_of_received hrec
  refine hauth (c := c₀) hc₀ ?_ hu
  by_contra hnot
  have hLI : cmds.at 0 ≠ "LI" := fun h0 => absurd (h0 ▸ hcmd) (by decide)
  have hPW : cmds.at 0 ≠ "PW" := fun h0 => absurd (h0 ▸ hcmd) (by decide)
  rw [killCode, if_neg hLI, if_neg hPW, if_pos (by exact hnot)] at hcode
  cases hcode

/-- Alice logs in: she is authenticated, and has proven that. -/
theorem provenIdentities_of_runs_demo : ∃ s tr,
    Runs (step demoEnv) IdentitySafe (start demoDb)
      (connects 5 0 :: typed 5 (loginText "alice") 0) s tr ∧
      s.accountOf 5 = some ⟨1, demoHash, true, false⟩ ∧
      ProvenIdentities demoEnv demoDb (connects 5 0 :: typed 5 (loginText "alice") 0) s := by
  have hrun : (run (step demoEnv) IdentitySafe (start demoDb)
      (connects 5 0 :: typed 5 (loginText "alice") 0)).any
      (fun x => x.1.accountOf 5 = some ⟨1, demoHash, true, false⟩) := by decide +kernel
  obtain ⟨⟨s, tr⟩, hrun, hacc⟩ := (Option.any_eq_true _ _).1 hrun
  have hruns := runs_of_run hrun
  exact ⟨s, tr, hruns, of_decide_eq_true hacc, provenIdentities_of_runs hruns⟩

/-! ## `Login` on an authenticated connection -/

/-- An `LI` that changes the `uid` of a connection leaves it with an identity that is not proven,
whatever the connection has proven before. -/
theorem not_proven_of_identified (hr : Runs (step env) Always (start db) es s tr)
    (hs : step env s e = some (s', out)) (hid : s.identified e = some (fd, u))
    (hc : s.conn fd = some c) (hne : c.uid ≠ u.id) {v : UserRow} :
    ¬ Proven env db fd v (es ++ [e]) s' := by
  generalize hes : es ++ [e] = es'
  intro h
  cases h with
  | password hch hrec hacc =>
      obtain ⟨rfl, rfl⟩ : es = _ ∧ e = _ := by simpa using hes
      obtain ⟨tr', hr'⟩ := hch.runs
      obtain ⟨rfl, -⟩ := hr.det hr'
      obtain ⟨c₁, cmds₁, hrec₁, hu⟩ := identified_eq_some.1 hid
      obtain ⟨c₂, cmds₂, hrec₂, h0, -⟩ := accepted_eq_some.1 hacc
      obtain ⟨rfl, rfl⟩ : c₁ = c₂ ∧ cmds₁ = cmds₂ := by simpa [hrec₁] using hrec₂
      rw [namedUser, if_neg fun hLI => absurd (h0.symm.trans hLI.1) (by decide)] at hu
      cases hu
  | later hpr _ hk =>
      obtain ⟨rfl, rfl⟩ : es = _ ∧ e = _ := by simpa using hes
      obtain ⟨tr', hr'⟩ := hpr.runs
      obtain ⟨rfl, -⟩ := hr.det hr'
      obtain ⟨c₁, hc₁, huid₁⟩ := hpr.uid
      obtain ⟨-, c₂, hc₂, huid₂⟩ := hk
      obtain ⟨⟨c₃, hc₃, huid₃⟩, -⟩ := step_identified hid hs
      obtain rfl : c = c₁ := Option.some.inj (hc.symm.trans hc₁)
      obtain rfl : c₂ = c₃ := Option.some.inj (hc₂.symm.trans hc₃)
      exact hne (huid₁.trans (huid₂.symm.trans huid₃))

/-- Alice logs in and then names Bob: she is authenticated as Bob, whose password she has not
shown. -/
theorem provenIdentities_needs_identitySafe : ¬ ∀ (env : Env) (db : Database) es s tr,
    Runs (step env) Always (start db) es s tr → ProvenIdentities env db es s := by
  intro h
  let e : Event := ⟨.socketReady 5 '!', { now := 0 }⟩
  have hrun : (run (step demoEnv) Always (start demoDb)
      (connects 5 0 :: typed 5 (loginText "alice" ++ "LI bob 0.0.0.0 1") 0)).any (fun x =>
        x.1.accountOf 5 = some ⟨1, demoHash, true, false⟩ ∧
        (x.1.identified e).map (fun p => (p.1, p.2.id)) = some (5, 2) ∧
        (step demoEnv x.1 e).any fun y => y.1.accountOf 5 = some ⟨2, demoHash, true, false⟩) := by
    decide +kernel
  obtain ⟨⟨s, tr⟩, hrun, hafter⟩ := (Option.any_eq_true _ _).1 hrun
  obtain ⟨hacc, hid, hafter⟩ := of_decide_eq_true hafter
  obtain ⟨⟨fd, u⟩, hid, heq⟩ := Option.map_eq_some_iff.1 hid
  obtain ⟨rfl, hu⟩ := Prod.mk.inj heq
  obtain ⟨⟨s', out⟩, hs, hacc'⟩ := (Option.any_eq_true _ _).1 hafter
  obtain ⟨c, hc, hca⟩ := Option.map_eq_some_iff.1 hacc
  obtain ⟨c', hc', hca'⟩ := Option.map_eq_some_iff.1 (of_decide_eq_true hacc')
  have hr := runs_of_run hrun
  obtain ⟨v, -, -, hproven⟩ := (h demoEnv demoDb _ s' _ (hr.snoc trivial hs)).authenticated 5 c' hc'
    (congrArg Account.isAuthenticated hca') (by
      rw [show c'.uid = 2 from congrArg Account.uid hca']
      decide)
  refine not_proven_of_identified hr hs hid hc ?_ hproven
  rw [show c.uid = 1 from congrArg Account.uid hca, show u.id = 2 from hu]
  decide

end MainObject

end NetISDN
