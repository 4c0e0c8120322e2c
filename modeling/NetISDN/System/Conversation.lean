import NetISDN.System.Agreement
import NetISDN.System.Requests

/-!
# Conversations

A client and the server talk over a connection, and each takes the commands of the other one in
their order, but late. A relation between the two ends and the commands that are still under way is
kept by the network as soon as each end keeps it by itself: the server when it takes a command and
when it does something else (`Conversation.Served`), the client when it takes a command, when it
talks and when it logs in (`Conversation.Heard`). The rules of the network are
`Network.Converses.serve` and `Network.Converses.clientStep`.
-/

namespace NetISDN

open ControlConnect Framing MainObject

/-- A relation between the server, its connection to a client, the client, and the commands under
way to the server and to the client. -/
abbrev Conversation := MainObject → SipConnection → Station → List QString → List QString → Prop

/-- A client that talks to the server over a channel, on which the server may have a connection. -/
structure Conversing (R : Conversation) (server : MainObject) (k : Int) (c : Channel)
    (s : Station) :
    Prop where
  name : IsName s.net_control.conn_username
  version : '!' ∉ s.build.version
  talk : ∀ x, server.conn k = some x → ∃ ups downs, Holds '!' x.cmdline c.up ups ∧
    Holds '!' s.net_control.conn_cmdline c.down downs ∧ R server x s ups downs

namespace Conversation

/-- A step of the server leads from one relation to another one. -/
structure Served (server : MainObject) (e : NetISDN.Event) (server' : MainObject)
    (out : List Output)
    (R R' : Conversation) : Prop where
  other : ∀ {k x x' s ups downs}, server.conn k = some x → server'.conn k = some x' →
    opens e ≠ some k →
    e.slot ≠ .socketReady k '!' → R server x s ups downs →
    R' server' x' s ups (downs ++ commandsTo k out)
  command : ∀ {k x x' s cmd ups downs}, server.conn k = some x → server'.conn k = some x' →
    server.received e = some (k, x.clearLine, asked cmd) → R server x s (cmd :: ups) downs →
    R' server' x' s ups (downs ++ commandsTo k out)

/-- What a client does keeps a relation. -/
structure Heard (R : Conversation) : Prop where
  takes : ∀ {server x s s' cmd ups downs texts}, R server x s ups (cmd :: downs) →
    Takes s.flush.net_control s'.net_control (answered cmd) texts →
      R server x s' (ups ++ texts) downs
  talks : ∀ {server x s s' ups downs texts}, R server x s ups downs →
    Talks s.flush.net_control s'.net_control texts → R server x s' (ups ++ texts) downs
  login : ∀ {server x s s' ups downs texts cmd}, R server x s ups downs →
    s'.net_control.reauthenticate = s.net_control.reauthenticate → (∀ text ∈ texts, NoLogin text) →
    s'.net_control.conn_username = s.net_control.conn_username ∨
      (server.db.selectUserByName s'.net_control.conn_username).isSome →
    loginName cmd = some s'.net_control.conn_username →
      R server x s' (ups ++ (texts ++ [cmd])) downs

end Conversation

section
variable {env : Env} {server server' : MainObject} {e : NetISDN.Event} {k : Int} {s s' : Station}
  {c : Channel} {out : List Output} {R R' : Conversation} {texts : List QString}
  {up' down' : QString}
  {lib : Libraries} {w : Surroundings} {b byte : Char}

/-- The server sends whole commands. -/
theorem messages_out (hw : AllConns Worded server)
    (hs : MainObject.step env server e = some (server', out)) :
    ∀ cmd ∈ commandsTo k out, IsMessage '!' cmd :=
  fun _ hcmd => (step_isCommand hw hs hcmd).message

/-- What stands in the command line of a connection to which the server does not listen in a step.
-/
theorem lineAfter_of_other {line : QString} (hopens : opens e ≠ some k)
    (hslot : ∀ b, e.slot ≠ .socketReady k b) : e.slot.lineAfter k line = line := by
  obtain ⟨slot, w⟩ := e
  cases slot with
  | newConnection fd peer =>
      refine if_neg ?_
      rintro rfl
      exact hopens rfl
  | socketReady fd b =>
      refine if_neg ?_
      rintro rfl
      exact hslot b rfl
  | socketKill | zombieData | pingTimerData => rfl

/-- A slot of the server in which it does not listen to the client. -/
theorem Conversing.serve (h : Conversing R server k c s)
    (hR : Conversation.Served server e server' out R R')
    (hw : AllConns Worded server) (hs : MainObject.step env server e = some (server', out))
    (hopens : opens e ≠ some k) (hslot : ∀ b, e.slot ≠ .socketReady k b) :
    Conversing R' server' k (c.receive (commandsTo k out)) s := by
  refine ⟨h.name, h.version, fun x' hx' => ?_⟩
  obtain ⟨x, hx, -⟩ := step_follows hs hx' hopens
  obtain ⟨ups, downs, hup, hdown, hold⟩ := h.talk x hx
  have hline : x'.cmdline = x.cmdline := by
    rw [← lineOf_of_conn hx', step_line hs hx', lineAfter_of_other hopens hslot, lineOf_of_conn hx]
  exact ⟨ups, downs ++ commandsTo k out, hline ▸ hup, hdown.send (messages_out hw hs),
    hR.other hx hx' hopens (hslot '!') hold⟩

/-- The server reads a byte from the client. -/
theorem Conversing.serverReads (h : Conversing R server k c s)
    (hR : Conversation.Served server e server' out R R') (hw : AllConns Worded server)
    (hs : MainObject.step env server e = some (server', out)) (hslot : e.slot = .socketReady k b)
    (hup' : c.up = b :: up') :
    Conversing R' server' k ({ c with up := up' }.receive (commandsTo k out)) s := by
  refine ⟨h.name, h.version, fun x' hx' => ?_⟩
  have hopens : opens e ≠ some k := by
    rw [opens, hslot]
    exact nofun
  obtain ⟨x, hx, -⟩ := step_follows hs hx' hopens
  obtain ⟨ups, downs, hup, hdown, hold⟩ := h.talk x hx
  have hline : x'.cmdline = if b = '!' then [] else x.cmdline ++ [b] := by
    rw [← lineOf_of_conn hx', step_line hs hx', hslot, Slot.lineAfter, if_pos rfl,
      lineOf_of_conn hx]
  rw [hup'] at hup
  by_cases hb : b = '!'
  · subst hb
    obtain ⟨ups', rfl, hrest⟩ := hup.complete
    rw [if_pos rfl] at hline
    have hrec : server.received e = some (k, x.clearLine, asked (x.cmdline ++ ['!'])) := by
      rw [received_eq hslot hx, asked, List.dropLast_concat, tokens]
    exact ⟨ups', downs ++ commandsTo k out, hline ▸ hrest, hdown.send (messages_out hw hs),
      hR.command hx hx' hrec hold⟩
  · rw [if_neg hb] at hline
    have hother : e.slot ≠ .socketReady k '!' := by
      rw [hslot]
      rintro ⟨⟩
      exact hb rfl
    exact ⟨ups, downs ++ commandsTo k out, hline ▸ hup.receive hb, hdown.send (messages_out hw hs),
      hR.other hx hx' hopens hother hold⟩

/-- The client has said something, and has read what it has read. -/
theorem Conversing.client (h : Conversing R server k c s)
    (hname : IsName s'.net_control.conn_username)
    (hbuild : s'.build = s.build) (hsent : s'.net_control.sent = texts)
    (hmessages : ∀ text ∈ texts, IsMessage '!' text)
    (htalk : ∀ x ups downs, Holds '!' s.net_control.conn_cmdline c.down downs →
      R server x s ups downs → ∃ downs', Holds '!' s'.net_control.conn_cmdline down' downs' ∧
        R server x s' (ups ++ texts) downs') :
    Conversing R server k ({ c with down := down' }.hear s') s' := by
  refine ⟨hname, hbuild ▸ h.version, fun x hx => ?_⟩
  obtain ⟨ups, downs, hup, hdown, hold⟩ := h.talk x hx
  obtain ⟨downs', hdown', hnew⟩ := htalk x ups downs hdown hold
  refine ⟨ups ++ texts, downs', ?_, hdown', hnew⟩
  rw [Channel.hear, hsent]
  exact hup.send hmessages

/-- The client reads a byte. -/
theorem Conversing.read (h : Conversing R server k c s) (hR : Conversation.Heard R)
    (henv : ∀ text, '!' ∉ env.md5 text) (hread : s.flush.readByte lib w env byte = some s')
    (hdown' : c.down = byte :: down') :
    Conversing R server k ({ c with down := down' }.hear s') s' := by
  by_cases hbyte : byte = '!'
  · subst hbyte
    obtain ⟨⟨texts, htakes⟩, hbuild, hline⟩ := Station.readByte_takes henv hread
    refine h.client (htakes.username ▸ h.name) hbuild htakes.sent
      (fun text htext => (htakes.noLogin text htext).message) fun x ups downs hdown hold => ?_
    rw [hdown'] at hdown
    obtain ⟨downs', rfl, hrest⟩ := hdown.complete
    refine ⟨downs', hline ▸ hrest, hR.takes hold ?_⟩
    rw [answered, List.dropLast_concat]
    exact htakes
  · obtain ⟨htalks, hbuild, hline⟩ := Station.readByte_keeps hbyte hread
    refine h.client (htalks.username ▸ h.name) hbuild htalks.sent (List.forall_mem_nil _)
      fun x ups downs hdown hold => ?_
    rw [hdown'] at hdown
    exact ⟨downs, hline ▸ hdown.receive hbyte, hR.talks hold htalks⟩

/-- The client does something of its own accord. -/
theorem Conversing.act {a : Station.Act} (h : Conversing R server k c s) (hR : Conversation.Heard R)
    (huri : ∀ uri, a = .connectClickedData uri → '!' ∉ uri)
    (hname : IsName s'.net_control.conn_username)
    (hknown : s'.net_control.conn_username = s.net_control.conn_username ∨
      (server.db.selectUserByName s'.net_control.conn_username).isSome)
    (hact : s.flush.act lib a = some s') : Conversing R server k (c.hear s') s' := by
  obtain ⟨hspeaks, hbuild, hline⟩ := Station.act_speaks huri hact
  cases hspeaks with
  | talks htalks =>
      exact h.client hname hbuild htalks.sent (fun text htext =>
        (htalks.noLogin text htext).message)
        fun x ups downs hdown hold => ⟨downs, hline ▸ hdown, hR.talks hold htalks⟩
  | @login texts c₁ htexts htimer hlogin =>
      have husername : s'.net_control.conn_username = c₁.conn_username := by rw [hlogin]; rfl
      have hname₁ : IsName c₁.conn_username := husername ▸ hname
      have hsent : s'.net_control.sent = texts ++ [c₁.loginCommand s.build] := by
        rw [hlogin]
        exact congrArg (· ++ [c₁.loginCommand s.build]) htexts.1
      refine h.client hname hbuild hsent (List.forall_mem_append.2
        ⟨fun text htext => (htexts.2 text htext).message,
          List.forall_mem_singleton.2 (message_loginCommand hname₁ h.version)⟩)
        fun x ups downs hdown hold => ⟨downs, hline ▸ hdown, hR.login hold ?_ htexts.2 hknown ?_⟩
      · rw [hlogin]
        exact htimer
      · rw [husername]
        exact loginName_loginCommand hname₁

/-- A client that has just connected has sent its login. -/
theorem conversing_opened (hs : (Channel.opened (some s)).station = some s')
    (hempty : s.net_control.conn_cmdline = []) (hname : IsName s.net_control.conn_username)
    (hversion : '!' ∉ s.build.version) (hconn : ∀ x, server.conn k = some x → x.cmdline = [] ∧
      R server x s' [s.flush.net_control.loginCommand s.build] []) :
    Conversing R server k (Channel.opened (some s)) s' := by
  obtain rfl := Option.some.inj hs
  refine ⟨hname, hversion, fun x hx => ?_⟩
  obtain ⟨hline, hR⟩ := hconn x hx
  refine ⟨[s.flush.net_control.loginCommand s.build], [], ?_, ?_, hR⟩
  · rw [hline]
    exact holds_nil.send (List.forall_mem_singleton.2 (message_loginCommand hname hversion))
  · have hline' : (connectedData s.build s.flush.net_control).conn_cmdline = [] := hempty
    rw [hline']
    exact holds_nil

end

/-! ## The texts of the clients in statements -/

namespace MainObject

/-- MySQL takes the texts of a client in the statements of an event literally: it answers the query
for the name in an `LI` with the user of that name, and what is written to `USERS` is plain. -/
structure Literal (s : MainObject) (e : Event) : Prop where
  names : ∀ x ∈ s.received e, x.2.2.at 0 = "LI" →
    e.world.lookup s.db (x.2.2.at 1) = s.db.selectUserByName (x.2.2.at 1)
  plain : WritesPlain s e

instance (s : MainObject) (e : Event) : Decidable (Literal s e) :=
  decidable_of_iff ((∀ x ∈ s.received e, x.2.2.at 0 = "LI" →
      e.world.lookup s.db (x.2.2.at 1) = s.db.selectUserByName (x.2.2.at 1)) ∧ WritesPlain s e)
    ⟨fun ⟨h, h'⟩ => ⟨h, h'⟩, fun ⟨h, h'⟩ => ⟨h, h'⟩⟩

variable {s : MainObject} {e : Event}

/-- Then the user of a name is identified. -/
theorem Literal.identified {k : Int} {u : UserRow} (h : Literal s e)
    (hident : s.identified e = some (k, u)) : ∃ c cmds, s.received e = some (k, c, cmds) ∧
      s.namedUser e.world cmds = some u ∧ cmds.at 0 = "LI" ∧
      e.world.lookup s.db (cmds.at 1) = s.db.selectUserByName (cmds.at 1) ∧
      s.db.selectUserByName (cmds.at 1) = some u := by
  obtain ⟨c, cmds, hrec, hnamed⟩ := identified_eq_some.1 hident
  have hu := hnamed
  rw [namedUser] at hu
  obtain ⟨⟨h0, -⟩, hu⟩ := Option.ite_none_right_eq_some.1 hu
  have hlookup := h.names _ hrec h0
  exact ⟨c, cmds, hrec, hnamed, h0, hlookup, hlookup.symm.trans hu⟩

/-- Then a name that is found is one that a command can carry. -/
theorem Literal.nameSafe (h : Literal s e) (hw : AllConns Worded s) : NameSafe s e := by
  rintro ⟨k, u⟩ hident
  obtain ⟨c, cmds, hrec, hnamed, -, hlookup, -⟩ := h.identified hident
  obtain ⟨c₀, hc₀, -, rfl⟩ := conn_of_received hrec
  exact isName_of_lookup (hw k c₀ hc₀).line hlookup hnamed

/-- Then a user that is found has a row. -/
theorem Literal.named (h : Literal s e) : ∀ p ∈ s.identified e, p.2 ∈ s.db.users := by
  rintro ⟨k, u⟩ hident
  obtain ⟨c, cmds, -, -, -, -, hu⟩ := h.identified hident
  exact List.mem_of_find?_eq_some hu

end MainObject

/-! ## The network -/

namespace Network

variable {env : Env} {lib : Libraries} {n n' : Network} {e : Event} {out : List Unit}
  {R R' : Conversation}

/-- The clients' part in a conversation. One that connects has kept nothing of an old connection,
what a user enters does not end a command, and another name that is entered is that of an account.
-/
def ClientIntroduces (n : Network) : Event → Prop
  | .connects _ _ client _ => ∀ s ∈ client, s.net_control.reauthenticate = none ∧
      s.net_control.conn_cmdline = [] ∧ IsName s.net_control.conn_username ∧ '!' ∉ s.build.version
  | .clientActs _ (.connectClickedData uri) => '!' ∉ uri
  | .clientActs _ (.settingsClickedData d) => IsName d.username ∧
      (n.server.db.selectUserByName d.username).isSome
  | _ => True

/-- The steps that keep a conversation. MySQL's part is to take what a client says literally. -/
structure Introduces (n : Network) (e : Event) : Prop where
  server : ∀ e' ∈ n.serves e, MainObject.Literal n.server e'
  client : n.ClientIntroduces e

instance (n : Network) : (e : Event) → Decidable (n.ClientIntroduces e)
  | .connects _ _ client _ => inferInstanceAs (Decidable (∀ s ∈ client,
      s.net_control.reauthenticate = none ∧ s.net_control.conn_cmdline = [] ∧
        IsName s.net_control.conn_username ∧ '!' ∉ s.build.version))
  | .clientActs _ (.connectClickedData uri) => inferInstanceAs (Decidable ('!' ∉ uri))
  | .clientActs _ (.settingsClickedData d) => inferInstanceAs (Decidable (IsName d.username ∧
      (n.server.db.selectUserByName d.username).isSome))
  | .clientActs _ .connectedData | .clientActs _ .bye | .clientActs _ .timeoutData
  | .clientActs _ .meterData | .clientActs _ (.audio _) | .serverReads _ _ | .socketKill _ _
  | .zombieData _ | .pingTimerData _ | .clientReads _ _ | .writes _ _ | .leaves _ =>
      inferInstanceAs (Decidable True)

instance (n : Network) (e : Event) : Decidable (Introduces n e) :=
  decidable_of_iff ((∀ e' ∈ n.serves e, MainObject.Literal n.server e') ∧ n.ClientIntroduces e)
    ⟨fun ⟨h, h'⟩ => ⟨h, h'⟩, fun ⟨h, h'⟩ => ⟨h, h'⟩⟩

/-- The relation holds between the server and each client. -/
structure Converses (R : Conversation) (n : Network) : Prop where
  worded : AllConns Worded n.server
  known : LogsInKnown n.server
  talks : ∀ k s, (n.channel k).station = some s → Conversing R n.server k (n.channel k) s

/-- At the start no client is connected. -/
theorem converses_start (db : Database) : Converses R (start db) :=
  ⟨worded_start db, fun _ _ ha => (nomatch ha), fun _ _ hs => nomatch hs⟩

/-- The client of a channel does something. -/
theorem Converses.set {fd : Int} {c : Channel} (h : Converses R n)
    (hc : ∀ s, c.station = some s → Conversing R n.server fd c s) : Converses R (n.set fd c) := by
  refine ⟨h.worded, h.known, fun k s hs => ?_⟩
  rw [channel_set] at hs ⊢
  split at hs
  · next hk =>
      subst hk
      rw [if_pos rfl]
      exact hc s hs
  · next hk =>
      rw [if_neg hk]
      exact h.talks k s hs

/-- A step of a client, or of another program. -/
theorem Converses.clientStep (h : Converses R n) (hR : Conversation.Heard R)
    (henv : ∀ text, '!' ∉ env.md5 text) (hP : n.ClientIntroduces e)
    (hs : n.clientStep env lib e = some n') : Converses R n' := by
  cases e with
  | clientReads fd w =>
      obtain ⟨s, hstation, hs⟩ := Option.bind_eq_some_iff.1 hs
      obtain ⟨byte, hbyte, hs⟩ := Option.bind_eq_some_iff.1 hs
      obtain ⟨s', hread, hs⟩ := Option.bind_eq_some_iff.1 hs
      obtain rfl := Option.some.inj hs
      obtain ⟨down', hdown⟩ := List.head?_eq_some_iff.1 hbyte
      refine h.set fun x hx => ?_
      obtain rfl := Option.some.inj hx
      rw [hdown, List.tail_cons]
      exact (h.talks fd s hstation).read hR henv hread hdown
  | clientActs fd a =>
      obtain ⟨s, hstation, hs⟩ := Option.bind_eq_some_iff.1 hs
      obtain ⟨s', hact, hs⟩ := Option.bind_eq_some_iff.1 hs
      obtain rfl := Option.some.inj hs
      refine h.set fun x hx => ?_
      obtain rfl := Option.some.inj hx
      have htalks := h.talks fd s hstation
      have huri : ∀ uri, a = .connectClickedData uri → '!' ∉ uri := by
        rintro uri rfl
        exact hP
      rcases Station.act_username hact with hsame | ⟨d, rfl, hd⟩
      · exact htalks.act hR huri (hsame ▸ htalks.name) (.inl hsame) hact
      · exact htalks.act hR huri (hd ▸ hP.1) (.inr (hd ▸ hP.2)) hact
  | writes fd text =>
      obtain ⟨hnone, hs⟩ := Option.ite_none_right_eq_some.1 hs
      obtain rfl := Option.some.inj hs
      refine h.set fun x hx => ?_
      rw [show (n.channel fd).station = none from Option.isNone_iff_eq_none.1 hnone] at hx
      cases hx
  | leaves fd =>
      obtain rfl := Option.some.inj hs
      exact h.set fun x hx => nomatch hx
  | connects | serverReads | socketKill | zombieData | pingTimerData => cases hs

/-- A slot of the server. -/
theorem Converses.serve {e' : NetISDN.Event} {server : MainObject} {sent : List Output}
    (h : Converses R n)
    (hR : Conversation.Served n.server e' server sent R R') (hP : Introduces n e)
    (he : n.serves e = some e') (hs : MainObject.step env n.server e' = some (server, sent))
    (hopened : ∀ {fd peer s s' w}, e = .connects fd peer (some s) w →
      s.net_control.reauthenticate = none →
      IsName s.net_control.conn_username → (Channel.opened (some s)).station = some s' →
      R' server { peerAddress := peer, pingTimestamp := w.now } s'
        [s.flush.net_control.loginCommand s.build] []) :
    Converses R' ⟨server, fun k => (n.taken e k).receive (commandsTo k sent)⟩ := by
  have hliteral := hP.server e' he
  refine ⟨worded_step h.worded (hliteral.nameSafe h.worded) hs, h.known.step hliteral.named hs,
    fun k s hstation => ?_⟩
  replace hstation : (n.taken e k).station = some s := hstation
  have hother (htaken : n.taken e k = n.channel k) (hopens : opens e' ≠ some k)
      (hslot : ∀ b, e'.slot ≠ .socketReady k b) :
      Conversing R' server k ((n.taken e k).receive (commandsTo k sent)) s := by
    rw [htaken] at hstation ⊢
    exact (h.talks k s hstation).serve hR h.worded hs hopens hslot
  cases e with
  | connects fd peer client w =>
      obtain rfl := Option.some.inj he
      rcases eq_or_ne k fd with rfl | hk
      · obtain ⟨hconn, rfl⟩ := MainObject.step_newConnection hs
        have htaken : n.taken (.connects k peer client w) k = .opened client :=
          Function.update_self ..
        rw [htaken] at hstation
        dsimp only
        rw [htaken]
        cases client with
        | none => cases hstation
        | some s₀ =>
            obtain ⟨hnone, hempty, hname, hversion⟩ := hP.client s₀ rfl
            refine conversing_opened hstation hempty hname hversion fun x hx => ?_
            rw [← Option.some.inj (hconn.symm.trans hx)]
            exact ⟨rfl, hopened rfl hnone hname hstation⟩
      · refine hother (Function.update_of_ne hk ..)
          (fun heq => hk (Option.some.inj heq).symm) fun b => by
          rintro ⟨⟩
  | serverReads fd w =>
      obtain ⟨b, hup, rfl⟩ := Option.map_eq_some_iff.1 he
      rcases eq_or_ne k fd with rfl | hk
      · obtain ⟨up', hup⟩ := List.head?_eq_some_iff.1 hup
        have htaken : n.taken (.serverReads k w) k = { n.channel k with up := up' } := by
          rw [taken, Function.update_self, hup, List.tail_cons]
        rw [htaken] at hstation
        dsimp only
        rw [htaken]
        exact (h.talks k s hstation).serverReads hR h.worded hs rfl hup
      · refine hother (Function.update_of_ne hk ..) (by rintro ⟨⟩) fun b => ?_
        rintro ⟨⟩
        exact hk rfl
  | socketKill fd w | zombieData w | pingTimerData w =>
      obtain rfl := Option.some.inj he
      exact hother rfl (by rintro ⟨⟩) fun b => by rintro ⟨⟩
  | clientReads | clientActs | writes | leaves => cases he

end Network

end NetISDN
