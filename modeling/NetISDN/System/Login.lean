import NetISDN.System.Conversation

/-!
# Server and clients agree on who is logged in

A client logs in with an `LI`, answers the challenge with a `PW`, and is welcome or is killed. Other
clients say what they like in between, and the client may log in again, under the name of another
account, at any time. When nothing is under way any more, the server has killed the connection or
has logged it in as the account whose name the client has, and the client knows that it is welcome
(`Network.loggedIn_of_runs`). MySQL is taken to read the names and texts of the clients literally.
-/

namespace NetISDN

open ControlConnect Framing TransitionSystem MainObject

/-- An account keeps its name and its identifier. -/
theorem selectUserByName_of_credentials {s s' : MainObject} (h : s'.credentials = s.credentials)
    (name : QString) : (s'.db.selectUserByName name).map UserRow.id =
      (s.db.selectUserByName name).map UserRow.id := by
  have hname (s : MainObject) : (s.db.selectUserByName name).map UserRow.id =
      (s.credentials.find? fun a => a.2.1 = name).map Prod.fst := by
    rw [MainObject.credentials, List.find?_map, Option.map_map]
    rfl
  rw [hname, hname, h]

/-- Which names are known is a matter of the credentials. -/
theorem isSome_selectUserByName_of_credentials {s s' : MainObject}
    (h : s'.credentials = s.credentials)
    (name : QString) :
    (s'.db.selectUserByName name).isSome = (s.db.selectUserByName name).isSome := by
  have hids := congrArg Option.isSome (selectUserByName_of_credentials h name)
  rwa [Option.isSome_map, Option.isSome_map] at hids

/-! ## One client -/

/-- How far a client's login has come, with `ups` under way to the server and `downs` to the client.
-/
structure Handshake (db : Database) (s : Station) (x : SipConnection) (ups downs : List QString) :
    Prop where
  welcomed : s.net_control.reauthenticate.isSome ∨ (∃ cmd ∈ downs, IsWelcome cmd) ↔
    x.isAuthenticated = true
  decided : x.zombie = false → x.isAuthenticated = true ∨
    (∃ cmd ∈ ups, (asked cmd).at 0 = "LI" ∨ (asked cmd).at 0 = "PW") ∨
      ∃ cmd ∈ downs, IsChallenge cmd
  latest : ∀ name ∈ (ups.filterMap loginName).getLast?, name = s.net_control.conn_username
  known : x.zombie = false → ups.filterMap loginName = [] →
    ∀ id ∈ (db.selectUserByName s.net_control.conn_username).map UserRow.id, x.uid = id
  nobody : x.zombie = false → (db.selectUserByName s.net_control.conn_username).isSome ∨
    x.uid = 0 ∧ ∀ name ∈ ups.filterMap loginName, (db.selectUserByName name).isSome = false

section
variable {env : Env} {server server' : MainObject} {e : NetISDN.Event} {k : Int} {s s' : Station}
  {x x' : SipConnection} {ups downs texts : List QString} {cmd : QString} {db : Database}
  {out : List Output}

/-- A step of the server in which it takes no command from the client. -/
theorem Handshake.other (h : Handshake server.db s x ups downs) (hw : AllConns Worded server)
    (hliteral : Literal server e)
    (hs : MainObject.step env server e = some (server', out))
    (hf : Follows server e k x.account x'.account) (hslot : e.slot ≠ .socketReady k '!') :
    Handshake server'.db s x' ups (downs ++ commandsTo k out) := by
  have haccepted : server.accepted e ≠ some k := by
    intro hacc
    obtain ⟨c, cmds, hrec, -⟩ := accepted_eq_some.1 hacc
    exact hslot (slot_of_received hrec)
  have hidentified (u : UserRow) : server.identified e ≠ some (k, u) := by
    intro hident
    obtain ⟨c, cmds, hrec, -⟩ := identified_eq_some.1 hident
    exact hslot (slot_of_received hrec)
  have hnone : ∀ cmd ∈ commandsTo k out, ¬ IsWelcome cmd := fun cmd hcmd hwelcome =>
    haccepted ((step_said hw hs hcmd).accepted hwelcome)
  have hauth : x'.isAuthenticated = true ↔ x.isAuthenticated = true :=
    ⟨fun hx => (hf.authenticated hx).resolve_right haccepted, hf.kept⟩
  have hcred := (step_accountMove hs).credentials_eq hliteral.plain
  refine ⟨?_, fun hz => ?_, h.latest, fun hz hnil => ?_, fun hz => ?_⟩
  · rw [hauth, ← h.welcomed]
    refine or_congr_right ⟨?_, ?_⟩
    · rintro ⟨cmd, hcmd, hwelcome⟩
      rcases List.mem_append.1 hcmd with hcmd | hcmd
      · exact ⟨cmd, hcmd, hwelcome⟩
      · exact absurd hwelcome (hnone cmd hcmd)
    · rintro ⟨cmd, hcmd, hwelcome⟩
      exact ⟨cmd, List.mem_append_left _ hcmd, hwelcome⟩
  · rcases h.decided (hf.zombie hz) with hx | hup | ⟨cmd, hcmd, hchallenge⟩
    · exact .inl (hauth.2 hx)
    · exact .inr (.inl hup)
    · exact .inr (.inr ⟨cmd, List.mem_append_left _ hcmd, hchallenge⟩)
  · rw [selectUserByName_of_credentials hcred]
    intro id hid
    exact (hf.unnamed hz hidentified).trans (h.known (hf.zombie hz) hnil id hid)
  · simp only [isSome_selectUserByName_of_credentials hcred]
    exact (h.nobody (hf.zombie hz)).imp_right (.imp_left (hf.unnamed hz hidentified).trans)

/-- The server takes a command from the client. -/
theorem Handshake.command (h : Handshake server.db s x (cmd :: ups) downs)
    (hw : AllConns Worded server)
    (hliteral : Literal server e)
    (hs : MainObject.step env server e = some (server', out)) (hx' : server'.conn k = some x')
    (hf : Follows server e k x.account x'.account)
    (hrec : server.received e = some (k, x.clearLine, asked cmd)) :
    Handshake server'.db s x' ups (downs ++ commandsTo k out) := by
  have hauth : x'.isAuthenticated = true ↔ x.isAuthenticated = true ∨
      server.accepted e = some k := by
    refine ⟨hf.authenticated, fun hor => hor.elim hf.kept fun hacc => ?_⟩
    have hx := step_accepted hs hacc
    rwa [hx', Option.any_some] at hx
  have hcred := (step_accountMove hs).credentials_eq hliteral.plain
  -- who is identified is the user of the name in the command
  have hident {u : UserRow} (hu : server.identified e = some (k, u)) :
      loginName cmd = some ((asked cmd).at 1) ∧
        server.db.selectUserByName ((asked cmd).at 1) = some u := by
    obtain ⟨c, cmds, hrec', -, h0, -, hname⟩ := hliteral.identified hu
    obtain ⟨-, rfl⟩ := Prod.mk.inj (Prod.mk.inj (Option.some.inj (hrec'.symm.trans hrec))).2
    exact ⟨if_pos h0, hname⟩
  refine ⟨?_, fun hz => ?_, fun name hname => ?_, fun hz hnil => ?_, fun hz => ?_⟩
  · rw [hauth, ← h.welcomed, or_assoc]
    refine or_congr_right ⟨?_, ?_⟩
    · rintro ⟨cmd, hcmd, hwelcome⟩
      rcases List.mem_append.1 hcmd with hcmd | hcmd
      · exact .inl ⟨cmd, hcmd, hwelcome⟩
      · exact .inr ((step_said hw hs hcmd).accepted hwelcome)
    · rintro (⟨cmd, hcmd, hwelcome⟩ | hacc)
      · exact ⟨cmd, List.mem_append_left _ hcmd, hwelcome⟩
      · obtain ⟨cmd, hcmd, hwelcome⟩ := step_welcomes hacc hs
        exact ⟨cmd, List.mem_append_right _ hcmd, hwelcome⟩
  · rcases h.decided (hf.zombie hz) with hx | ⟨cmd', hcmd', hlogin⟩ | ⟨cmd', hcmd', hchallenge⟩
    · exact .inl (hauth.2 (.inl hx))
    · rcases List.mem_cons.1 hcmd' with rfl | hcmd'
      · rcases hlogin with h0 | h0
        · obtain ⟨⟨reply, hreply, hchallenge⟩, -⟩ := step_login hrec h0 hs hx' hz
          exact .inr (.inr ⟨reply, List.mem_append_right _ hreply, hchallenge⟩)
        · exact .inl (hauth.2 (.inr (step_password hrec h0 hs hx' hz)))
      · exact .inr (.inl ⟨cmd', hcmd', hlogin⟩)
    · exact .inr (.inr ⟨cmd', List.mem_append_left _ hcmd', hchallenge⟩)
  · refine h.latest name ?_
    rw [List.filterMap_cons]
    split
    · exact hname
    · rw [List.getLast?_cons, hname]
      rfl
  · rw [selectUserByName_of_credentials hcred]
    intro id hid
    obtain ⟨u, hu, rfl⟩ := Option.map_eq_some_iff.1 hid
    by_cases h0 : (asked cmd).at 0 = "LI"
    · -- this is the last login that was under way, so it gives the name that the client has
      have hname : loginName cmd = some ((asked cmd).at 1) := if_pos h0
      have hlast : (asked cmd).at 1 = s.net_control.conn_username := by
        refine h.latest _ ?_
        rw [List.filterMap_cons, hname, hnil]
        rfl
      obtain ⟨-, hlogin⟩ := step_login hrec h0 hs hx' hz
      rw [hliteral.names _ hrec h0, hlast, hu] at hlogin
      obtain ⟨⟨y, hy, hyu⟩, -⟩ := step_identified hlogin hs
      rwa [Option.some.inj (hy.symm.trans hx')] at hyu
    · have hname : loginName cmd = none := if_neg h0
      have hnone (u : UserRow) : server.identified e ≠ some (k, u) := by
        intro hu
        cases hname.symm.trans (hident hu).1
      refine (hf.unnamed hz hnone).trans (h.known (hf.zombie hz) ?_ u.id hid)
      rw [List.filterMap_cons, hname]
      exact hnil
  · simp only [isSome_selectUserByName_of_credentials hcred]
    refine (h.nobody (hf.zombie hz)).imp_right fun ⟨huid, hunknown⟩ => ?_
    -- a name that has no account identifies nobody
    have hnone (u : UserRow) : server.identified e ≠ some (k, u) := by
      intro hu
      obtain ⟨hname, hsel⟩ := hident hu
      have hmem : (asked cmd).at 1 ∈ (cmd :: ups).filterMap loginName :=
        List.mem_filterMap.2 ⟨cmd, .head _, hname⟩
      have hsome := hunknown _ hmem
      rw [hsel] at hsome
      cases hsome
    refine ⟨(hf.unnamed hz hnone).trans huid, fun name hname => hunknown name ?_⟩
    obtain ⟨cmd', hcmd', hname⟩ := List.mem_filterMap.1 hname
    exact List.mem_filterMap.2 ⟨cmd', .tail _ hcmd', hname⟩

/-- The client says something that is no login, and has read what makes no difference or what it has
answered. -/
theorem Handshake.say {downs' : List QString} (h : Handshake db s x ups downs)
    (husername : s'.net_control.conn_username = s.net_control.conn_username)
    (hnoLogin : ∀ text ∈ texts, NoLogin text)
    (hwelcome : s'.net_control.reauthenticate.isSome ∨ (∃ cmd ∈ downs', IsWelcome cmd) ↔
      s.net_control.reauthenticate.isSome ∨ ∃ cmd ∈ downs, IsWelcome cmd)
    (hchallenge : ∀ cmd ∈ downs, IsChallenge cmd →
      cmd ∈ downs' ∨ ∃ text ∈ texts, (asked text).at 0 = "PW") :
    Handshake db s' x (ups ++ texts) downs' := by
  have hnone : texts.filterMap loginName = [] :=
    List.filterMap_eq_nil_iff.2 fun text htext => (hnoLogin text htext).unnamed
  have hsame : (ups ++ texts).filterMap loginName = ups.filterMap loginName := by
    rw [List.filterMap_append, hnone, List.append_nil]
  refine ⟨hwelcome.trans h.welcomed, fun hz => ?_, ?_, ?_, ?_⟩
  · rcases h.decided hz with hx | ⟨cmd, hcmd, hlogin⟩ | ⟨cmd, hcmd, hcmd'⟩
    · exact .inl hx
    · exact .inr (.inl ⟨cmd, List.mem_append_left _ hcmd, hlogin⟩)
    · rcases hchallenge cmd hcmd hcmd' with hlater | ⟨text, htext, hPW⟩
      · exact .inr (.inr ⟨cmd, hlater, hcmd'⟩)
      · exact .inr (.inl ⟨text, List.mem_append_right _ htext, .inr hPW⟩)
  · rw [hsame, husername]
    exact h.latest
  · rw [hsame, husername]
    exact h.known
  · rw [hsame, husername]
    exact h.nobody

/-- The client takes a command. -/
theorem Handshake.takes (h : Handshake db s x ups (cmd :: downs))
    (ht : Takes s.net_control s'.net_control (answered cmd) texts) :
    Handshake db s' x (ups ++ texts) downs := by
  refine h.say ht.username ht.noLogin ?_ fun cmd' hcmd' hchallenge => ?_
  · rw [ht.timer, or_assoc, List.exists_mem_cons_iff]
    rfl
  · rcases List.mem_cons.1 hcmd' with rfl | hcmd'
    · exact .inr (ht.challenged hchallenge)
    · exact .inl hcmd'

/-- The client says something that is no login. -/
theorem Handshake.talks (h : Handshake db s x ups downs)
    (ht : Talks s.net_control s'.net_control texts) : Handshake db s' x (ups ++ texts) downs :=
  h.say ht.username ht.noLogin (by rw [ht.timer]) fun _ hcmd _ => .inl hcmd

/-- The client logs in, perhaps under another name. -/
theorem Handshake.login (h : Handshake db s x ups downs)
    (htimer : s'.net_control.reauthenticate = s.net_control.reauthenticate)
    (hnoLogin : ∀ text ∈ texts, NoLogin text)
    (hknown : s'.net_control.conn_username = s.net_control.conn_username ∨
      (db.selectUserByName s'.net_control.conn_username).isSome)
    (hname : loginName cmd = some s'.net_control.conn_username) :
    Handshake db s' x (ups ++ (texts ++ [cmd])) downs := by
  have h0 : (asked cmd).at 0 = "LI" := by
    by_contra h0
    cases hname.symm.trans (if_neg h0)
  have hnone : texts.filterMap loginName = [] :=
    List.filterMap_eq_nil_iff.2 fun text htext => (hnoLogin text htext).unnamed
  have hlast : (ups ++ (texts ++ [cmd])).filterMap loginName =
      ups.filterMap loginName ++ [s'.net_control.conn_username] := by
    rw [List.filterMap_append, List.filterMap_append, hnone, List.nil_append, List.filterMap_cons,
      hname,
      List.filterMap_nil]
  refine ⟨?_, fun hz => ?_, fun name hmem => ?_, fun hz hnil => ?_, fun hz => ?_⟩
  · rw [← h.welcomed, htimer]
  · exact .inr (.inl ⟨cmd, by simp, .inl h0⟩)
  · rw [hlast, List.getLast?_concat] at hmem
    exact (Option.some.inj hmem).symm
  · rw [hlast] at hnil
    exact absurd hnil (List.append_ne_nil_of_right_ne_nil _ (List.cons_ne_nil _ _))
  · cases hsome : (db.selectUserByName s'.net_control.conn_username).isSome with
    | true => exact .inl rfl
    | false =>
        -- the name is the one that the client has had before
        have hsame := hknown.resolve_right (by simp [hsome])
        refine (h.nobody hz).imp (fun hold => ?_) fun ⟨huid, hunknown⟩ =>
          ⟨huid, fun name hmem => ?_⟩
        · rw [← hsame, hsome] at hold
          exact hold
        · rw [hlast] at hmem
          rcases List.mem_append.1 hmem with hmem | hmem
          · exact hunknown name hmem
          · rw [List.mem_singleton.1 hmem, hsome]

/-- What the client has sent is in the channel. -/
theorem Handshake.flush (h : Handshake db s x ups downs) : Handshake db s.flush x ups downs :=
  ⟨h.welcomed, h.decided, h.latest, h.known, h.nobody⟩

/-- A client that has just connected has sent its login. -/
theorem handshake_login (hnone : s.net_control.reauthenticate = none)
    (hauth : x.isAuthenticated = false)
    (huid : x.uid = 0) (hname : loginName cmd = some s.net_control.conn_username) :
    Handshake db s x [cmd] [] := by
  have h0 : (asked cmd).at 0 = "LI" := by
    by_contra h0
    cases hname.symm.trans (if_neg h0)
  have hnames : [cmd].filterMap loginName = [s.net_control.conn_username] := by
    rw [List.filterMap_cons, hname, List.filterMap_nil]
  refine ⟨?_, fun _ => ?_, fun name hmem => ?_, fun _ hnil => ?_, fun _ => ?_⟩
  · rw [hnone, hauth]
    simp
  · exact .inr (.inl ⟨_, .head _, .inl h0⟩)
  · rw [hnames] at hmem
    exact (Option.some.inj hmem).symm
  · rw [hnames] at hnil
    cases hnil
  · cases hsome : (db.selectUserByName s.net_control.conn_username).isSome with
    | true => exact .inl rfl
    | false =>
        refine .inr ⟨huid, fun name hmem => ?_⟩
        rw [hnames] at hmem
        rw [List.mem_singleton.1 hmem, hsome]

end

/-! ## The network -/

/-- The client's login has come so far. -/
def LogsIn : Conversation := fun server x s ups downs => Handshake server.db s x ups downs

/-- What the client hears keeps the two in step. -/
theorem heard_logsIn : Conversation.Heard LogsIn where
  takes h ht := Handshake.takes (Handshake.flush h) ht
  talks h ht := Handshake.talks (Handshake.flush h) ht
  login h htimer hnoLogin hknown hname := Handshake.login h htimer hnoLogin hknown hname

/-- What the server does keeps the two in step. -/
theorem served_logsIn {env : Env} {server server' : MainObject} {e : NetISDN.Event}
    {out : List Output}
    (hw : AllConns Worded server) (hliteral : Literal server e)
    (hs : MainObject.step env server e = some (server', out)) :
    Conversation.Served server e server' out LogsIn LogsIn where
  other hx hx' hopens hslot h := by
    obtain ⟨y, hy, hf⟩ := step_follows hs hx' hopens
    obtain rfl := Option.some.inj (hx.symm.trans hy)
    exact Handshake.other h hw hliteral hs hf hslot
  command hx hx' hrec h := by
    have hopens : opens e = none := by
      rw [opens, slot_of_received hrec]
    obtain ⟨y, hy, hf⟩ := step_follows hs hx' fun hk => Option.some_ne_none _ (hk.symm.trans hopens)
    obtain rfl := Option.some.inj (hx.symm.trans hy)
    exact Handshake.command h hw hliteral hs hx' hf hrec

namespace Network

variable {env : Env} {lib : Libraries} {n n' : Network} {e : Event} {out tr : List Unit}
  {db : Database}
  {es : List Event}

/-- The login goes on over every step. -/
theorem Converses.logsIn (h : Converses LogsIn n) (henv : ∀ text, '!' ∉ env.md5 text)
    (hP : Introduces n e)
    (hs : n.step env lib e = some (n', out)) : Converses LogsIn n' := by
  unfold Network.step at hs
  split at hs
  · next e' he =>
      obtain ⟨⟨server, sent⟩, hserver, heq⟩ := Option.map_eq_some_iff.1 hs
      obtain rfl := (Prod.mk.inj heq).1
      have hserved := served_logsIn h.worded (hP.server e' he) hserver
      refine h.serve hserved hP he hserver fun _ hnone hname hstation => ?_
      obtain rfl := Option.some.inj hstation
      exact handshake_login hnone rfl rfl (loginName_loginCommand hname)
  · obtain ⟨n₁, hclient, heq⟩ := Option.map_eq_some_iff.1 hs
    obtain rfl := (Prod.mk.inj heq).1
    exact h.clientStep heard_logsIn henv hP.client hclient

/-- **Server and clients agree on who is logged in.** Where nothing is under way between a client
and its connection, the client has been welcome if and only if the connection is authenticated; and
a connection that has not been killed is, and there is an account with the name that the client has,
which is the connection's. -/
theorem loggedIn_of_runs (henv : ∀ text, '!' ∉ env.md5 text)
    (h : Runs (step env lib) Introduces (start db) es n tr) {k : Int} {s : Station}
    {c : SipConnection}
    (hs : Settled n k s) (hc : n.server.conn k = some c) :
    (s.net_control.reauthenticate.isSome = true ↔ c.isAuthenticated = true) ∧
    (c.zombie = false → c.isAuthenticated = true ∧
      ∃ u, n.server.db.selectUserByName s.net_control.conn_username = some u ∧ c.uid = u.id) := by
  have hinv : Converses LogsIn n :=
    h.invariant (converses_start db) fun _ _ _ _ hn hP hstep => hn.logsIn henv hP hstep
  obtain ⟨ups, downs, hup, hdown, hshake⟩ := (hinv.talks k s hs.station).talk c hc
  rw [hs.up] at hup
  rw [hs.down] at hdown
  obtain ⟨-, rfl⟩ := hup.done
  obtain ⟨-, rfl⟩ := hdown.done
  refine ⟨?_, fun hz => ?_⟩
  · rw [← hshake.welcomed, or_iff_left fun ⟨_, hcmd, _⟩ => nomatch hcmd]
  · have hauth : c.isAuthenticated = true := by
      rcases hshake.decided hz with hauth | ⟨_, hcmd, _⟩ | ⟨_, hcmd, _⟩
      · exact hauth
      · cases hcmd
      · cases hcmd
    have huid : c.uid ≠ 0 :=
      hinv.known k c.account (by rw [accountOf, hc, Option.map_some]) hauth hz
    -- a connection that is somebody has got there under the name of an account
    have hsome := (hshake.nobody hz).resolve_right fun h => huid h.1
    obtain ⟨u, hu⟩ := Option.isSome_iff_exists.1 hsome
    exact ⟨hauth, u, hu, hshake.known hz rfl u.id (by rw [hu]; rfl)⟩

/-- Alice and Bob log in, each while the other one does. -/
def demoLogins : List Event :=
  .connects 5 ⟨5⟩ (some (demoStation "alice")) { now := 0 } ::
    .connects 6 ⟨6⟩ (some (demoStation "bob")) { now := 0 } ::
      (served 5 20 ++ served 6 18 ++ heard 5 36 ++
    heard 6 36 ++ served 6 36 ++ served 5 36 ++ heard 5 7 ++ heard 6 7)

/-- Bob logs in, up to the answer to his password. -/
theorem loggedIn_of_runs_demo : ∃ (n : Network) (tr : List Unit) (s : Station) (c : SipConnection),
    Runs (step demoEnv demoLibraries) Introduces (start demoDb) demoLogins n tr ∧
    Settled n 6 s ∧ n.server.conn 6 = some c ∧ s.net_control.reauthenticate.isSome = true ∧
    c.isAuthenticated = true ∧ c.uid = 2 := by
  have henv : ∀ text, '!' ∉ demoEnv.md5 text := by
    intro text
    unfold demoEnv
    dsimp only
    split <;> decide
  have hrun : (run (step demoEnv demoLibraries) Introduces (start demoDb) demoLogins).any fun x =>
      (x.1.channel 6).station.isSome ∧ (x.1.channel 6).up = [] ∧ (x.1.channel 6).down = [] ∧
      (x.1.server.conn 6).any (fun c => c.zombie = false ∧ c.uid = 2) := by
    decide +kernel
  obtain ⟨⟨n, tr⟩, hrun, hend⟩ := (Option.any_eq_true _ _).1 hrun
  obtain ⟨hs, hup, hdown, hc⟩ := of_decide_eq_true hend
  obtain ⟨s, hs⟩ := Option.isSome_iff_exists.1 hs
  obtain ⟨c, hc, hz⟩ := (Option.any_eq_true _ _).1 hc
  obtain ⟨hz, huid⟩ := of_decide_eq_true hz
  have hruns := runs_of_run hrun
  obtain ⟨hwelcome, hauth⟩ := loggedIn_of_runs henv hruns ⟨hs, hup, hdown⟩ hc
  exact ⟨n, tr, s, c, hruns, ⟨hs, hup, hdown⟩, hc, hwelcome.2 (hauth hz).1, (hauth hz).1, huid⟩

end Network

end NetISDN
