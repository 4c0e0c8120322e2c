import NetISDN.General.Mirror
import NetISDN.Server.Identity

/-!
# Presence is consistent

`USERS.ONLINE` mirrors the table of connections: no user has two sessions, and a user is online
exactly while there is one. `Password` raises the flag and `Logout` takes it down; `Login` changes
the `uid` without touching it, and a client version or an `MD` that MySQL misreads may set it, so
that presence stays consistent only over steps that meet `PresenceSafe`.
-/

namespace NetISDN

open TransitionSystem

/-- A session: a connection that is authenticated and has not been killed. -/
def Account.session (a : Account) : Bool := a.isAuthenticated && !a.zombie

/-- A session of a connection. -/
def SipConnection.session (c : SipConnection) : Bool := c.isAuthenticated && !c.zombie

namespace MainObject

variable {env : Env} {db : Database} {s s' : MainObject} {e : Event} {es : List Event}
  {tr out : List Output} {k u : Int} {a : Account} {c : SipConnection}

/-- No two sessions are of one user, and exactly the users that have a session are online. -/
structure PresenceConsistent (s : MainObject) : Prop where
  unique : ∀ j k c d, s.conn j = some c → s.conn k = some d → c.session → d.session →
    0 < c.uid → c.uid = d.uid → j = k
  online : ∀ u ∈ s.db.users, u.online = true ↔ ∃ k c, s.conn k = some c ∧ c.session ∧ c.uid = u.id

/-- The event keeps presence consistent: an `LI` does not change the `uid` of a session, no `PW`
is accepted on a zombie, no zombie that has been given the user of a session times out
without that session, and MySQL takes the texts of the client for what they are. -/
structure PresenceSafe (s : MainObject) (e : Event) : Prop where
  identify : ∀ p ∈ s.identified e, ∀ c ∈ s.conn p.1, c.session → c.uid = p.2.id
  accept : ∀ fd ∈ s.accepted e, ∀ c ∈ s.conn fd, c.zombie = false
  sweep : ∀ x ∈ s.sip_connections.toList, s.TimesOut e x.1 → x.2.loggedIn → x.2.zombie →
    ∀ y ∈ s.sip_connections.toList, y.2.session → y.2.uid = x.2.uid → s.TimesOut e y.1
  sql : SqlSafe s e

instance (s : MainObject) (e : Event) : Decidable (PresenceSafe s e) :=
  decidable_of_iff
    ((∀ p ∈ s.identified e, ∀ c ∈ s.conn p.1, c.session → c.uid = p.2.id) ∧
      (∀ fd ∈ s.accepted e, ∀ c ∈ s.conn fd, c.zombie = false) ∧
      (∀ x ∈ s.sip_connections.toList, s.TimesOut e x.1 → x.2.loggedIn → x.2.zombie →
        ∀ y ∈ s.sip_connections.toList, y.2.session → y.2.uid = x.2.uid → s.TimesOut e y.1) ∧
      SqlSafe s e)
    ⟨fun ⟨h₁, h₂, h₃, h₄⟩ => ⟨h₁, h₂, h₃, h₄⟩, fun ⟨h₁, h₂, h₃, h₄⟩ => ⟨h₁, h₂, h₃, h₄⟩⟩

/-- The connection on `k` is a session of the user `u`. -/
def Here (s : MainObject) (k u : Int) : Prop :=
  0 < u ∧ ∃ a, s.accountOf k = some a ∧ a.session ∧ a.uid = u

/-- Who is here has a session under the user's id. -/
theorem here_of_account (ha : s.accountOf k = some a) :
    s.Here k u ↔ 0 < u ∧ a.session ∧ a.uid = u := by
  simp [Here, ha]

/-- The sessions behind a step that changes one account. -/
theorem here_update {fd : Int} {b : Account}
    (hacc : ∀ k, s'.accountOf k = if fd = k then some b else s.accountOf k) :
    s'.Here k u ↔ fd = k ∧ 0 < u ∧ b.session ∧ b.uid = u ∨ fd ≠ k ∧ s.Here k u := by
  rw [Here, hacc]
  split
  · next hk => simp [hk]
  · next hk => simp [hk, Here]

/-- A session of a user is logged in. -/
theorem loggedIn_of_session (hu : 0 < u) :
    a.session ∧ a.uid = u ↔ a.zombie = false ∧ a.loggedIn ∧ a.uid = u := by
  simp only [Account.session, Account.loggedIn, Bool.and_eq_true, Bool.not_eq_true',
    decide_eq_true_eq]
  constructor
  · rintro ⟨⟨hauth, hz⟩, rfl⟩
    exact ⟨hz, ⟨hauth, hu⟩, rfl⟩
  · rintro ⟨hz, ⟨hauth, -⟩, huid⟩
    exact ⟨⟨hauth, hz⟩, huid⟩

/-- What has been killed is no session. -/
theorem session_kill : a.kill.session = false := by
  unfold Account.kill Account.session
  split
  · next hz => simp [hz]
  · simp

/-- The flags of `USERS` mirror the sessions. A connection names no user or one in `USERS`. -/
structure PresenceInv (s : MainObject) : Prop where
  mirror : Mirror s.Here s.db.Online
  known : ∀ k a, s.accountOf k = some a → a.uid = 0 ∨ ∃ r ∈ s.db.users, r.id = a.uid
  nonneg : ∀ k a, s.accountOf k = some a → 0 ≤ k

/-- The invariant makes presence consistent. -/
theorem PresenceInv.consistent (h : PresenceInv s) : PresenceConsistent s := by
  have hacc {k c} (hc : s.conn k = some c) : s.accountOf k = some c.account := by
    rw [accountOf, hc, Option.map_some]
  refine ⟨fun j k c d hj hk hc hd hpos huid => ?_, fun u hu => ?_⟩
  · exact h.mirror.unique (u := c.uid) ⟨hpos, _, hacc hj, hc, rfl⟩ ⟨hpos, _, hacc hk, hd, huid.symm⟩
  · have hon : u.online = true ↔ s.db.Online u.id := by
      constructor
      · intro hon
        exact ⟨u, hu, rfl, hon⟩
      · intro hon
        obtain ⟨v, hv, hid, hon⟩ := hon
        rwa [← List.inj_on_of_nodup_map s.db.users_nodup hv hu hid]
    rw [hon, h.mirror.flag_iff]
    constructor
    · rintro ⟨k, -, a, ha, hsession, huid⟩
      obtain ⟨c, hc, rfl⟩ := Option.map_eq_some_iff.1 ha
      exact ⟨k, c, hc, hsession, huid⟩
    · rintro ⟨k, c, hc, hsession, huid⟩
      exact ⟨k, s.db.users_pos u hu, _, hacc hc, hsession, huid⟩

/-- No other connection has the `uid` with which a `PW` is accepted, and it is some user's. -/
theorem PresenceInv.accepted {fd : Int} (h : PresenceInv s) (hac : s.accepted e = some fd)
    (ha : s.accountOf fd = some a) : (∃ r ∈ s.db.users, r.id = a.uid) ∧
      ∀ k a', s.accountOf k = some a' → a'.uid = a.uid → k = fd := by
  obtain ⟨c, cmds, hrec, h0, hcode⟩ := accepted_eq_some.1 hac
  obtain ⟨c₀, hc₀, rfl, -⟩ := conn_of_received hrec
  obtain ⟨-, hne, -, hfree⟩ := (killCode_password h0).1 hcode
  rw [accountOf, hc₀, Option.map_some, Option.some.injEq] at ha
  subst ha
  refine ⟨(h.known fd _ (by rw [accountOf, hc₀, Option.map_some])).resolve_left hne,
    fun k a' ha' huid => ?_⟩
  have htake : SameAccounts s (s.takeLine fd) := sameAccounts_takeLine
  rcases getFdByUid_spec (s.takeLine fd) c₀.clearLine.uid fd with ⟨c, hc, -⟩ | ⟨-, hnone⟩
  · -- the search has found a connection, and the descriptor of one is not negative
    have hacc : s.accountOf ((s.takeLine fd).getFdByUid c₀.clearLine.uid fd) = some c.account := by
      rw [← htake.account, accountOf, hc, Option.map_some]
    exact absurd (h.nonneg _ _ hacc) (not_le.2 hfree)
  · by_contra hk
    rw [← htake.account] at ha'
    obtain ⟨c', hc', rfl⟩ := Option.map_eq_some_iff.1 ha'
    exact hnone k c' hc' hk huid

/-- The zombies that time out take no session's flag down. -/
theorem PresenceInv.swept (h : PresenceInv s) (hP : PresenceSafe s e) (hon : s.db.Online u) :
    (∃ k a, s.TimesOut e k ∧ s.accountOf k = some a ∧ a.loggedIn ∧ a.uid = u) ↔
      ∃ k, s.TimesOut e k ∧ s.Here k u := by
  constructor
  · rintro ⟨k, a, hto, ha, hin, huid⟩
    obtain ⟨j, hj⟩ := (h.mirror.flag_iff u).1 hon
    obtain ⟨hu, b, hb, hsession, hbu⟩ := hj
    cases hz : a.zombie with
    | false => exact ⟨k, hto, hu, a, ha, (loggedIn_of_session hu).2 ⟨hz, hin, huid⟩⟩
    | true =>
        obtain ⟨c, hc, rfl⟩ := Option.map_eq_some_iff.1 ha
        obtain ⟨d, hd, rfl⟩ := Option.map_eq_some_iff.1 hb
        have htj := hP.sweep (k, c) (mem_toList.2 hc) hto hin hz (j, d) (mem_toList.2 hd)
          hsession (hbu.trans huid.symm)
        exact ⟨j, htj, hu, _, hb, hsession, hbu⟩
  · rintro ⟨k, hto, hu, a, ha, hsession⟩
    obtain ⟨-, hin, huid⟩ := (loggedIn_of_session hu).1 hsession
    exact ⟨k, a, hto, ha, hin, huid⟩

/-- **The step lemma.** -/
theorem PresenceInv.mirror_step (h : PresenceInv s) (hP : PresenceSafe s e)
    (hmove : AccountMove env s e s') : Mirror s'.Here s'.db.Online := by
  cases hmove with
  | same hacc hp =>
      refine h.mirror.congr (fun k u => ?_) fun u => online_congr (hp hP.sql.plain)
      rw [Here, Here, hacc]
  | @connect fd _ hz hacc hp =>
      refine h.mirror.congr (fun k u => ?_) fun u => online_congr hp
      rw [here_update hacc]
      constructor
      · rintro (⟨-, -, hno, -⟩ | ⟨-, hk⟩)
        · cases hno
        · exact hk
      · intro hk
        refine .inr ⟨fun hfd => ?_, hk⟩
        obtain ⟨-, a, ha, hsession, -⟩ := hk
        rw [← hfd] at ha
        simp [Account.session, hz a ha] at hsession
  | @kill fd a ha _ hacc _ hon =>
      refine h.mirror.leave (fd = ·) (fun k u => ?_) fun u => ?_
      · rw [here_update hacc, session_kill]
        simp [and_comm]
      · rw [hon]
        refine and_congr_right fun hu => not_congr ?_
        simp only [exists_eq_left', here_of_account ha]
        obtain ⟨r, hr, rfl, -⟩ := hu
        have hpos := s.db.users_pos r hr
        rw [and_iff_right hpos, loggedIn_of_session hpos]
  | @identify fd u₀ a hid ha hacc hp =>
      refine h.mirror.congr (fun k u => ?_) fun u => online_congr hp
      rw [here_update hacc]
      by_cases hk : fd = k
      · subst hk
        obtain ⟨c, hc, rfl⟩ := Option.map_eq_some_iff.1 ha
        rw [here_of_account ha]
        simp only [true_and, ne_eq, not_true_eq_false, false_and, or_false]
        refine and_congr_right fun _ => and_congr_right fun hsession => ?_
        rw [← hP.identify _ hid c hc hsession]
        rfl
      · simp [hk]
  | @accept fd a hac ha hacc husers =>
      have hon := (husers hP.sql.plain).2
      obtain ⟨⟨r, hr, hid⟩, honly⟩ := h.accepted hac ha
      obtain ⟨c, hc, rfl⟩ := Option.map_eq_some_iff.1 ha
      have hz : c.account.zombie = false := hP.accept fd hac c hc
      have hpos : 0 < c.account.uid := hid ▸ s.db.users_pos r hr
      refine h.mirror.enter fd c.account.uid (fun k u => ?_) (fun u => ?_)
        fun k hk => ?_
      · rw [here_update hacc]
        by_cases hk : fd = k
        · subst hk
          rw [here_of_account ha]
          simp only [Account.session, hz, true_and, ne_eq, not_true_eq_false, false_and, or_false]
          constructor
          · rintro ⟨-, -, rfl⟩
            exact .inr rfl
          · rintro (⟨hu, -, huid⟩ | rfl)
            · exact ⟨hu, rfl, huid⟩
            · exact ⟨hpos, rfl, rfl⟩
        · simp [hk, Ne.symm hk]
      · rw [hon]
        refine or_congr_right ⟨fun hu => hu.1.symm, ?_⟩
        rintro rfl
        exact ⟨rfl, r, hr, hid⟩
      · obtain ⟨-, a, ha', -, huid⟩ := hk
        exact honly k a ha' huid
  | purge _ hacc hp =>
      refine h.mirror.congr (fun k u => ?_) fun u => online_congr hp
      rw [Here, Here, hacc]
      refine and_congr_right fun _ => exists_congr fun a => ?_
      rw [Option.filter_eq_some_iff, and_assoc, and_congr_right_iff]
      intro _
      refine ⟨And.right, fun hsession => ⟨?_, hsession⟩⟩
      simp only [Account.session, Bool.and_eq_true, Bool.not_eq_true'] at hsession
      simp [hsession.1.2]
  | sweep hslot hacc _ hon =>
      refine h.mirror.leave (s.TimesOut e) (fun k u => ?_) fun u => ?_
      · rw [Here, Here, hacc]
        split
        · next hto => simp [hto]
        · next hto => simp [hto]
      · rw [hon]
        exact and_congr_right fun hu => not_congr (h.swept hP hu)

/-- A connection names no user or one in `USERS`, behind every step. -/
theorem PresenceInv.known_step (h : PresenceInv s) (hP : PresenceSafe s e)
    (hmove : AccountMove env s e s') (ha : s'.accountOf k = some a) :
    a.uid = 0 ∨ ∃ r ∈ s'.db.users, r.id = a.uid := by
  rw [or_iff_not_imp_left, exists_user_congr (hmove.credentials_eq hP.sql.plain)]
  intro hne
  obtain ⟨a', ha', ⟨huid, -⟩ | ⟨r, hid, huid, -⟩⟩ := hmove.identity ha hne
  · rw [huid] at hne ⊢
    exact (h.known k a' ha').resolve_left hne
  · exact ⟨r, hP.sql.named _ hid, huid.symm⟩

/-- **Presence is consistent.** In every run from users that are all offline whose steps all meet
`PresenceSafe`, presence is consistent in every state reached. -/
theorem presenceConsistent_of_runs (hoff : ∀ u ∈ db.users, u.online = false)
    (h : Runs (step env) PresenceSafe (start db) es s tr) : PresenceConsistent s := by
  refine PresenceInv.consistent (h.invariant ?_ fun s e s' out hI hP hs => ?_)
  · have hnone (k a) : (start db).accountOf k ≠ some a := fun ha => nomatch ha
    refine ⟨.empty (fun k u hk => ?_) fun u hu => ?_, fun k a ha => absurd ha (hnone k a),
      fun k a ha => absurd ha (hnone k a)⟩
    · obtain ⟨-, a, ha, -⟩ := hk
      exact hnone k a ha
    · obtain ⟨r, hr, -, hon⟩ := hu
      exact Bool.false_ne_true ((hoff r hr).symm.trans hon)
  · have hmove := step_accountMove hs
    exact ⟨hI.mirror_step hP hmove, fun k a => hI.known_step hP hmove,
      fun k a => hmove.nonneg hI.nonneg⟩

/-- Alice logs in from a table without sessions: she is online. -/
theorem presenceConsistent_of_runs_demo : ∃ s tr,
    Runs (step demoEnv) PresenceSafe (start demoDb)
      (connects 5 0 :: typed 5 (loginText "alice") 0) s tr ∧
      s.db.users.map UserRow.online = [true, false] ∧ PresenceConsistent s := by
  have hrun : (run (step demoEnv) PresenceSafe (start demoDb)
      (connects 5 0 :: typed 5 (loginText "alice") 0)).any
      (fun x => x.1.db.users.map UserRow.online = [true, false]) := by decide +kernel
  obtain ⟨⟨s, tr⟩, hrun, hon⟩ := (Option.any_eq_true _ _).1 hrun
  have hruns := runs_of_run hrun
  exact ⟨s, tr, hruns, of_decide_eq_true hon, presenceConsistent_of_runs (by decide) hruns⟩

/-- Alice logs in and then names Bob: she is online without a session. -/
theorem presenceConsistent_needs_presenceSafe : ¬ ∀ (env : Env) (db : Database) es s tr,
    (∀ u ∈ db.users, u.online = false) → Runs (step env) Always (start db) es s tr →
      PresenceConsistent s := by
  intro h
  have hrun : (run (step demoEnv) Always (start demoDb)
      (connects 5 0 :: typed 5 (loginText "alice" ++ "LI bob 0.0.0.0 1!") 0)).any (fun x =>
        (x.1.db.users.head?.any fun u => u.id = 1 ∧ u.online = true) ∧
        x.1.sip_connections.toList.all fun p => p.2.uid ≠ 1) := by decide +kernel
  obtain ⟨⟨s, tr⟩, hrun, hstate⟩ := (Option.any_eq_true _ _).1 hrun
  obtain ⟨hon, huid⟩ := of_decide_eq_true hstate
  obtain ⟨u, hu, hon⟩ := (Option.any_eq_true _ _).1 hon
  obtain ⟨hid, hon⟩ := of_decide_eq_true hon
  have hcons := h demoEnv demoDb _ s tr (by decide) (runs_of_run hrun)
  obtain ⟨k, c, hc, -, hcu⟩ := (hcons.online u (List.mem_of_mem_head? hu)).1 hon
  exact of_decide_eq_true (List.all_eq_true.1 huid (k, c) (mem_toList.2 hc)) (hcu.trans hid)

end MainObject

end NetISDN
