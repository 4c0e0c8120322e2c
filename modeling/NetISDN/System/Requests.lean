import NetISDN.Lib.Profile
import NetISDN.Server.Replies
import NetISDN.System.Station

/-!
# What a client asks of the server

A client sends an `LI` when it connects, when the timer runs out or when its settings have been
changed, and a `PW` when it is challenged (`ControlConnect.Takes`). The server makes of each what
was meant, as long as the name has no space in it.
-/

namespace NetISDN

open Framing ControlConnect

/-! ## Texts as the server reads them -/

section
variable {a b : Char} {t name addr version : QString}

/-- The server finds the two letters with which a command begins at the front of the first token. -/
theorem asked_letters (ha : isSpace a = false) (hb : isSpace b = false) :
    ∃ s, (asked (a :: b :: t ++ ['!'])).at 0 = a :: b :: s := by
  have hspace {c : Char} (hc : isSpace c = false) : c ≠ ' ' := by
    rintro rfl
    cases hc
  have hstrip : stripWhiteSpace (a :: b :: t) = a :: b :: t.rdropWhile isSpace := by
    rw [stripWhiteSpace_cons ha]
    exact rdropWhile_append_cons (s := [a]) hb
  obtain ⟨s, ts, hs⟩ := split_two (t := t.rdropWhile isSpace) (hspace ha) (hspace hb)
  refine ⟨s, ?_⟩
  rw [asked, List.dropLast_concat, hstrip, hs]
  rfl

/-- A token is what stands in front of a space. -/
theorem split_word {w : QString} (hw : w ≠ []) (hspace : ' ' ∉ w) : split ' ' w = [w] := by
  rw [split, List.splitOn_eq_singleton hspace, List.filter_cons_of_pos (by simpa using hw)]
  rfl

/-- A word, a blank, and the rest. -/
theorem split_word_cons {w : QString} (hw : w ≠ []) (hspace : ' ' ∉ w) :
    split ' ' (w ++ ' ' :: t) = w :: split ' ' t := by
  rw [split, List.splitOn_append_cons_self_of_not_mem hspace,
    List.filter_cons_of_pos (by simpa using hw)]
  rfl

/-- The first token of a command that begins with a word of two letters. -/
theorem asked_word (ha : isSpace a = false) (hb : isSpace b = false) :
    (asked (a :: b :: ' ' :: t ++ ['!'])).at 0 = [a, b] := by
  have hspace : ' ' ∉ [a, b] := by
    rintro (_ | ⟨_, _ | ⟨_, h⟩⟩)
    · cases ha
    · cases hb
    · cases h
  have hstrip : stripWhiteSpace (a :: b :: ' ' :: t) = [a, b] ++ (' ' :: t).rdropWhile isSpace := by
    rw [stripWhiteSpace_cons ha]
    exact rdropWhile_append_cons (s := [a]) hb
  rw [asked, List.dropLast_concat, hstrip]
  cases hrest : (' ' :: t).rdropWhile isSpace with
  | nil =>
      rw [List.append_nil, split_word (List.cons_ne_nil _ _) hspace]
      rfl
  | cons c rest =>
      obtain rfl : ' ' = c := by
        have hprefix := List.rdropWhile_prefix isSpace (l := ' ' :: t)
        rw [hrest] at hprefix
        exact (List.cons_prefix_cons.1 hprefix).1.symm
      rw [split_word_cons (List.cons_ne_nil _ _) hspace]
      rfl

/-- The server reads the name with which a client logs in. -/
theorem asked_login (hname : name ≠ []) (hspace : ' ' ∉ name) (haddr : addr ≠ [])
    (haddr' : ∀ c ∈ addr, isSpace c = false) :
    ∃ ts, asked ("LI " ++ name ++ " " ++ addr ++ "  " ++ version ++ "!") =
      "LI".toList :: name :: ts := by
  rcases List.eq_nil_or_concat' addr with rfl | ⟨front, c, rfl⟩
  · exact absurd rfl haddr
  have hline : "LI " ++ name ++ " " ++ (front ++ [c]) ++ "  " ++ version ++ "!" =
      ('L' :: 'I' :: ' ' :: (name ++ ' ' :: (front ++ c :: ' ' :: ' ' :: version))) ++ ['!'] := by
    simp [show "LI ".toList = ['L', 'I', ' '] from rfl, show " ".toList = [' '] from rfl,
      show "  ".toList = [' ', ' '] from rfl, show "!".toList = ['!'] from rfl]
  have hc : isSpace c = false := haddr' c (by simp)
  have hstrip : stripWhiteSpace
      ('L' :: 'I' :: ' ' :: (name ++ ' ' :: (front ++ c :: ' ' :: ' ' :: version))) =
      "LI".toList ++ ' ' ::
        (name ++ ' ' :: (front ++ c :: (' ' :: ' ' :: version).rdropWhile isSpace)) := by
    have h := rdropWhile_append_cons (s := 'L' :: 'I' :: ' ' :: (name ++ ' ' :: front))
      (t := ' ' :: ' ' :: version) hc
    rw [stripWhiteSpace_cons (by decide)]
    simpa using h
  rw [asked, hline, List.dropLast_concat, hstrip, split_word_cons (by decide) (by decide),
    split_word_cons hname hspace]
  exact ⟨_, rfl⟩

end

/-! ## Requests -/

/-- The name that a command to the server gives for a login. -/
def loginName (cmd : QString) : Option QString :=
  if (asked cmd).at 0 = "LI" then some ((asked cmd).at 1) else none

/-- A command to the server that is no login. -/
structure NoLogin (cmd : QString) : Prop where
  message : IsMessage '!' cmd
  unnamed : loginName cmd = none

/-- A text that begins with two other letters is no `LI`. -/
theorem noLogin_of_letters {a b : Char} {t : QString} (ha : isSpace a = false ∧ a ≠ '!' ∧ a ≠ 'L')
    (hb : isSpace b = false ∧ b ≠ '!') (ht : '!' ∉ t) : NoLogin (a :: b :: t ++ ['!']) where
  message := by
    refine ⟨a :: b :: t, rfl, ?_⟩
    rintro (_ | ⟨_, _ | ⟨_, h⟩⟩)
    · exact ha.2.1 rfl
    · exact hb.2 rfl
    · exact ht h
  unnamed := by
    obtain ⟨s, hs⟩ := asked_letters (t := t) ha.1 hb.1
    refine if_neg fun h0 => ha.2.2 ?_
    rw [hs] at h0
    exact (List.cons.inj h0).1

/-- What `connectedData` sends. -/
def ControlConnect.loginCommand (b : Build) (c : ControlConnect) : QString :=
  "LI " ++ c.conn_username ++ " " ++ c.address.toString ++ "  " ++ b.version ++ "!"

section
variable {c : ControlConnect} {b : Build}

/-- The name that a client gives when it logs in. -/
theorem loginName_loginCommand (hname : IsName c.conn_username) :
    loginName (c.loginCommand b) = some c.conn_username := by
  have haddr : ∀ x ∈ c.address.toString, isSpace x = false := by
    intro x hx
    by_contra hspace
    refine QHostAddress.not_mem_toString ?_ ?_ hx
    · cases hdigit : x.isDigit with
      | false => rfl
      | true => exact absurd (isSpace_of_isDigit hdigit) hspace
    · rintro rfl
      exact hspace rfl
  obtain ⟨ts, hts⟩ : ∃ ts, asked (c.loginCommand b) = "LI".toList :: c.conn_username :: ts :=
    asked_login hname.ne_nil hname.no_space QHostAddress.toString_ne_nil haddr
  rw [loginName, hts]
  rfl

/-- The `LI` of a client is a message. -/
theorem message_loginCommand (hname : IsName c.conn_username) (hversion : '!' ∉ b.version) :
    IsMessage '!' (c.loginCommand b) := by
  have haddr : '!' ∉ c.address.toString := QHostAddress.not_mem_toString rfl (by decide)
  refine ⟨"LI " ++ c.conn_username ++ " " ++ c.address.toString ++ "  " ++ b.version, rfl, ?_⟩
  simp [hname.no_end, haddr, hversion]

end

namespace ControlConnect

variable {env : Env} {b : Build} {c c' c'' : ControlConnect} {texts texts' : List QString}
  {cmds : QStringList}

/-- A client sends commands that are no logins, and keeps its name and the timer that logs it in
again. -/
structure Talks (c c' : ControlConnect) (texts : List QString) : Prop where
  sent : c'.sent = c.sent ++ texts
  username : c'.conn_username = c.conn_username
  timer : c'.reauthenticate = c.reauthenticate
  noLogin : ∀ text ∈ texts, NoLogin text

/-- Nothing is sent. -/
theorem Talks.refl (c : ControlConnect) : Talks c c [] :=
  ⟨(List.append_nil _).symm, rfl, rfl, List.forall_mem_nil _⟩

/-- What is sent in two parts of a step. -/
theorem Talks.trans (h : Talks c c' texts) (h' : Talks c' c'' texts') :
    Talks c c'' (texts ++ texts') where
  sent := by rw [h'.sent, h.sent, List.append_assoc]
  username := h'.username.trans h.username
  timer := h'.timer.trans h.timer
  noLogin := List.forall_mem_append.2 ⟨h.noLogin, h'.noLogin⟩

/-- A command that is no `LI`. -/
theorem talks_sendCommand {text : QString} (h : NoLogin text) :
    Talks c (c.sendCommand text) [text] :=
  ⟨rfl, rfl, rfl, List.forall_mem_singleton.2 h⟩

/-- A signal sends nothing. -/
theorem talks_emit (signal : Signal) : Talks c (c.emit signal) [] :=
  ⟨(List.append_nil _).symm, rfl, rfl, List.forall_mem_nil _⟩

/-- `BY` is no `LI`. -/
theorem noLogin_endCall : NoLogin "BY!" :=
  noLogin_of_letters (t := []) (by decide) (by decide) (by decide)

/-- An `ER` is no `LI`. -/
theorem noLogin_erCommand (code : ResponseCode) : NoLogin (erCommand code) :=
  noLogin_of_letters (t := ' ' :: sprintfU code.toNat) (by decide) (by decide)
    fun h => (List.mem_cons.1 h).elim (by decide) (not_mem_sprintfU rfl)

/-- Metadata that are sent. -/
theorem talks_sendMetadata (mf : MetadataField) (str : QString) :
    ∃ texts, Talks c (c.sendMetadata mf str) texts := by
  have hmd (tag : QString) (htag : '!' ∉ tag) :
      NoLogin ('M' :: 'D' :: (tag ++ NetStringToBase64 str) ++ ['!']) :=
    noLogin_of_letters (by decide) (by decide) fun hmem =>
      (List.mem_append.1 hmem).elim htag fun hb => (base64_plain hb).2.1 rfl
  cases mf with
  | name => exact ⟨_, talks_sendCommand (hmd " FN " (by decide))⟩
  | email => exact ⟨_, talks_sendCommand (hmd " MA " (by decide))⟩
  | phone => exact ⟨_, talks_sendCommand (hmd " PH " (by decide))⟩
  | location | unknown | last => exact ⟨[], .refl c⟩

/-- What a client makes of the tokens of a command: it answers a challenge with a `PW`, and starts
its timer when it is welcome. -/
structure Takes (c c' : ControlConnect) (cmds : QStringList) (texts : List QString) : Prop where
  sent : c'.sent = c.sent ++ texts
  username : c'.conn_username = c.conn_username
  noLogin : ∀ text ∈ texts, NoLogin text
  challenged : cmds.at 0 = "LI" ∧ cmds.length = 2 → ∃ text ∈ texts, (asked text).at 0 = "PW"
  timer : c'.reauthenticate.isSome ↔ c.reauthenticate.isSome ∨
    cmds.at 0 = "OK" ∧ cmds.length = 2 ∧ (toInt? (cmds.at 1)).isSome

/-- A command that is neither a challenge nor a welcome. -/
theorem Talks.takes (h : Talks c c' texts) (hLI : cmds.at 0 ≠ "LI") (hOK : cmds.at 0 ≠ "OK") :
    Takes c c' cmds texts where
  sent := h.sent
  username := h.username
  noLogin := h.noLogin
  challenged h := absurd h.1 hLI
  timer := by rw [h.timer, or_iff_left fun h => hOK h.1]

/-- A challenge is answered. -/
theorem takes_challenge (henv : ∀ text, '!' ∉ env.md5 text) (h0 : cmds.at 0 = "LI") :
    ∃ texts, Takes c (c.challenge env cmds) cmds texts := by
  have hOK : cmds.at 0 ≠ "OK" := by rw [h0]; decide
  unfold challenge
  split
  · next hlen =>
      refine ⟨[], (List.append_nil _).symm, rfl, List.forall_mem_nil _,
        fun h => absurd h.2 hlen, ?_⟩
      rw [or_iff_left fun h => hOK h.1]
  · next hlen =>
      have hmark : '!' ∉ passwordHash env c.conn_password (cmds.at 1) := henv _
      have htext : NoLogin ('P' :: 'W' :: ' ' :: passwordHash env c.conn_password (cmds.at 1) ++
          ['!']) :=
        noLogin_of_letters (by decide) (by decide) fun h =>
          (List.mem_cons.1 h).elim (by decide) hmark
      refine ⟨_, rfl, rfl, List.forall_mem_singleton.2 htext, fun _ => ⟨_, .head _, ?_⟩, ?_⟩
      · exact asked_word (a := 'P') (b := 'W') (by decide) (by decide)
      · exact (or_iff_left fun h => hOK h.1).symm

/-- The welcome starts the timer. -/
theorem takes_login (h0 : cmds.at 0 = "OK") : Takes c (c.login cmds) cmds [] := by
  have hLI : cmds.at 0 ≠ "LI" := by rw [h0]; decide
  unfold login
  split
  · next hlen =>
      refine ⟨(List.append_nil _).symm, rfl, List.forall_mem_nil _, fun h => absurd h.1 hLI, ?_⟩
      exact (or_iff_left fun h => hlen h.2.1).symm
  · next hlen =>
      split
      · next hnone =>
          refine ⟨(List.append_nil _).symm, rfl, List.forall_mem_nil _, fun h => absurd h.1 hLI, ?_⟩
          refine (or_iff_left fun h => ?_).symm
          rw [hnone] at h
          cases h.2.2
      · next secs hsome =>
          refine ⟨(List.append_nil _).symm, rfl, List.forall_mem_nil _, fun h => absurd h.1 hLI, ?_⟩
          exact iff_of_true rfl (.inr ⟨h0, not_not.1 hlen, by rw [hsome]; rfl⟩)

/-- What a client makes of a command. -/
theorem dispatch_takes (henv : ∀ text, '!' ∉ env.md5 text) (cmds : QStringList) :
    ∃ texts, Takes c (c.dispatch env b cmds) cmds texts := by
  have htalks {c' : ControlConnect} {texts : List QString} (h : Talks c c' texts)
      (hLI : cmds.at 0 ≠ "LI") (hOK : cmds.at 0 ≠ "OK") : ∃ texts, Takes c c' cmds texts :=
    ⟨texts, h.takes hLI hOK⟩
  unfold dispatch
  split_ifs with hLI hOK hER hME hMS hMD hCB hPG
  · exact takes_challenge henv hLI
  · exact ⟨[], takes_login hOK⟩
  · unfold response
    split
    · exact htalks (.refl c) hLI hOK
    · exact htalks (talks_emit _) hLI hOK
  · rw [mediaStart_eq]
    split
    · exact htalks (.refl c) hLI hOK
    · split
      · exact htalks (talks_emit _) hLI hOK
      · exact htalks (talks_sendCommand (noLogin_erCommand _)) hLI hOK
  · exact htalks (talks_emit _) hLI hOK
  · unfold metadata
    split
    · exact htalks (talks_emit _) hLI hOK
    · exact htalks (talks_emit _) hLI hOK
    · exact htalks (.refl c) hLI hOK
  · unfold codeBook
    split
    · exact htalks (.refl c) hLI hOK
    · exact htalks (talks_emit _) hLI hOK
  · exact htalks (talks_sendCommand (noLogin_of_letters (t := []) (by decide) (by decide)
      (by decide))) hLI hOK
  · exact htalks (.refl c) hLI hOK

/-- What a client makes of a command line. -/
theorem parseCommand_takes (henv : ∀ text, '!' ∉ env.md5 text) : ∃ texts,
    Takes c (c.parseCommand env b) (split ' ' c.conn_cmdline) texts := by
  unfold parseCommand
  dsimp only
  split
  · next hlen =>
      have hnil : split ' ' c.conn_cmdline = [] := List.length_eq_zero_iff.1 (by omega)
      rw [hnil]
      refine ⟨[], (List.append_nil _).symm, rfl, List.forall_mem_nil _, fun h => ?_, ?_⟩
      · cases h.2
      · refine (or_iff_left fun h => ?_).symm
        cases h.2.1
  · obtain ⟨texts, h⟩ := dispatch_takes (c := { c with conn_cmdline := [] }) (b := b) henv
      (split ' ' c.conn_cmdline)
    exact ⟨texts, h.sent, h.username, h.noLogin, h.challenged, h.timer⟩

end ControlConnect

/-! ## A client's steps -/

namespace Station

variable {env : Env} {lib : Libraries} {w : Surroundings} {s s' : Station} {signal : Signal}
  {byte : Char}
  {a : Act}

/-- The headers that are sent are no `LI`. -/
theorem talks_codebookChanged {settings : AudioSettings} :
    ∃ texts, Talks s.net_control (s.codebookChanged w settings) texts := by
  unfold codebookChanged
  split
  · refine ⟨_, talks_sendCommand (noLogin_of_letters (a := 'C') (b := 'B')
      (t := ' ' :: (NetDataToBase64 w.headers.1 ++ " ".toList ++ NetDataToBase64 w.headers.2.1 ++
        " ".toList ++ NetDataToBase64 w.headers.2.2)) (by decide) (by decide) ?_)⟩
    have hmark (data : List (BitVec 8)) : '!' ∉ NetDataToBase64 data := fun h =>
      (base64_plain h).2.1 rfl
    simp [hmark]
  · exact ⟨[], .refl _⟩

/-- And neither is what a change of the settings sends. -/
theorem talks_writeConfig {c : ControlConnect} {d : Entered} :
    ∃ texts, Talks c (writeConfig c d) texts := by
  unfold writeConfig
  split
  · obtain ⟨_, hname⟩ := talks_sendMetadata (c := c) .name d.name
    obtain ⟨_, hemail⟩ := talks_sendMetadata .email d.email
    obtain ⟨_, hphone⟩ := talks_sendMetadata .phone d.phone
    exact ⟨_, (hname.trans hemail).trans hphone⟩
  · exact ⟨[], .refl c⟩

/-- What is connected to the signals of the control connection sends no login. -/
theorem receive_talks (h : s.receive lib w signal = some s') :
    (∃ texts, Talks s.net_control s'.net_control texts) ∧ s'.build = s.build ∧
      s'.net_control.conn_cmdline = s.net_control.conn_cmdline := by
  cases signal with
  | responseReceived code =>
      have h : s.responseReceivedData code = some s' := h
      unfold responseReceivedData at h
      split at h
      · obtain ⟨x, -, rfl⟩ := Option.map_eq_some_iff.1 h
        exact ⟨⟨_, talks_sendCommand noLogin_endCall⟩, rfl, rfl⟩
      · obtain rfl := Option.some.inj h
        exact ⟨⟨[], .refl _⟩, rfl, rfl⟩
  | mediaStartReceived src_port addr dest_port settings =>
      obtain ⟨x, -, rfl⟩ := Option.map_eq_some_iff.1 h
      exact ⟨talks_codebookChanged, rfl, conn_cmdline_codebookChanged⟩
  | mediaStopReceived | codebookReceived =>
      obtain ⟨x, -, rfl⟩ := Option.map_eq_some_iff.1 h
      exact ⟨⟨[], .refl _⟩, rfl, rfl⟩
  | metadataReceived =>
      obtain rfl := Option.some.inj h
      exact ⟨⟨[], .refl _⟩, rfl, rfl⟩

/-- What a client sends on its signals is no `LI`. -/
theorem foldlM_receive_talks {signals : List Signal}
    (h : signals.foldlM (receive lib w) s = some s') :
    (∃ texts, Talks s.net_control s'.net_control texts) ∧ s'.build = s.build ∧
      s'.net_control.conn_cmdline = s.net_control.conn_cmdline := by
  induction signals generalizing s with
  | nil =>
      obtain rfl := Option.some.inj h
      exact ⟨⟨[], .refl _⟩, rfl, rfl⟩
  | cons signal signals ih =>
      rw [List.foldlM_cons, Option.bind_eq_bind, Option.bind_eq_some_iff] at h
      obtain ⟨s₁, h₁, h⟩ := h
      obtain ⟨⟨texts, htalks⟩, hbuild, hline⟩ := receive_talks h₁
      obtain ⟨⟨texts', htalks'⟩, hbuild', hline'⟩ := ih h
      exact ⟨⟨_, htalks.trans htalks'⟩, hbuild'.trans hbuild, hline'.trans hline⟩

/-- **A command that a client takes**, with what its signals bring about. -/
theorem readByte_takes (henv : ∀ text, '!' ∉ env.md5 text)
    (h : s.readByte lib w env '!' = some s') :
    (∃ texts, Takes s.net_control s'.net_control (split ' ' s.net_control.conn_cmdline) texts) ∧
      s'.build = s.build ∧ s'.net_control.conn_cmdline = [] := by
  obtain ⟨texts, htakes⟩ := parseCommand_takes (c := { s.net_control with signals := [] })
    (b := s.build) henv
  have hline : ({ s.net_control with signals := [] }.parseCommand env s.build).conn_cmdline = [] :=
    conn_cmdline_parseCommand
  obtain ⟨⟨texts', htalks⟩, hbuild, hline'⟩ := foldlM_receive_talks h
  refine ⟨⟨texts ++ texts', ?_, ?_, ?_, fun hcmd => ?_, ?_⟩, hbuild, hline'.trans hline⟩
  · rw [htalks.sent, ← List.append_assoc]
    exact congrArg (· ++ texts') htakes.sent
  · exact htalks.username.trans htakes.username
  · exact List.forall_mem_append.2 ⟨htakes.noLogin, htalks.noLogin⟩
  · obtain ⟨text, htext, hPW⟩ := htakes.challenged hcmd
    exact ⟨text, List.mem_append_left _ htext, hPW⟩
  · rw [htalks.timer]
    exact htakes.timer

/-- A byte of a command is kept. -/
theorem readByte_keeps (hbyte : byte ≠ '!') (h : s.readByte lib w env byte = some s') :
    Talks s.net_control s'.net_control [] ∧ s'.build = s.build ∧
      s'.net_control.conn_cmdline = s.net_control.conn_cmdline ++ [byte] := by
  unfold readByte handleSignals at h
  rw [ControlConnect.readByte_other hbyte] at h
  obtain rfl := Option.some.inj h
  exact ⟨⟨(List.append_nil _).symm, rfl, rfl, List.forall_mem_nil _⟩, rfl, rfl⟩

/-- What a client does of its own accord, which may be to log in. -/
inductive Speaks (s s' : Station) : Prop
  | talks {texts : List QString} (h : Talks s.net_control s'.net_control texts) : Speaks s s'
  | login {texts : List QString} {c : ControlConnect}
      (h : c.sent = s.net_control.sent ++ texts ∧ ∀ text ∈ texts, NoLogin text)
      (htimer : c.reauthenticate = s.net_control.reauthenticate)
      (hlogin : s'.net_control = c.connectedData s.build) : Speaks s s'

/-- What a user makes a client send. -/
theorem act_speaks (huri : ∀ uri, a = .connectClickedData uri → '!' ∉ uri)
    (h : s.act lib a = some s') :
    Speaks s s' ∧ s'.build = s.build ∧
      s'.net_control.conn_cmdline = s.net_control.conn_cmdline := by
  have hcodec {e : CodecSession.Event} (he : act.codec lib s e = some s') :
      Speaks s s' ∧ s'.build = s.build ∧
        s'.net_control.conn_cmdline = s.net_control.conn_cmdline := by
    obtain ⟨x, -, rfl⟩ := Option.map_eq_some_iff.1 he
    exact ⟨.talks (.refl _), rfl, rfl⟩
  cases a with
  | connectClickedData uri =>
      obtain rfl := Option.some.inj h
      unfold connectClickedData
      split
      · exact ⟨.talks (talks_sendCommand noLogin_endCall), rfl, rfl⟩
      · exact ⟨.talks (talks_sendCommand noLogin_endCall), rfl, rfl⟩
      · refine ⟨.talks (talks_sendCommand (noLogin_of_letters (a := 'C') (b := 'A')
          (t := ' ' :: (uri ++ MainObject.sprintfUs (callNumbers s.net_settings)))
          (by decide) (by decide) ?_)), rfl, rfl⟩
        have hnumbers : '!' ∉ MainObject.sprintfUs (callNumbers s.net_settings) := by
          intro hmem
          obtain ⟨n, -, hmem⟩ := List.mem_flatMap.1 hmem
          exact (List.mem_cons.1 hmem).elim (by decide) (not_mem_sprintfU rfl)
        simp [huri uri rfl, hnumbers]
  | connectedData =>
      obtain rfl := Option.some.inj h
      exact ⟨@Speaks.login _ _ [] _ ⟨(List.append_nil _).symm, List.forall_mem_nil _⟩ rfl rfl, rfl,
        rfl⟩
  | settingsClickedData d =>
      obtain ⟨-, h⟩ := Option.ite_none_right_eq_some.1 h
      obtain rfl := Option.some.inj h
      obtain ⟨texts, htalks⟩ := talks_writeConfig (c := s.net_control) (d := d)
      exact ⟨.login (c := { writeConfig s.net_control d with
        conn_username := d.username
        conn_password := d.password }) ⟨htalks.sent, htalks.noLogin⟩ htalks.timer rfl, rfl,
        conn_cmdline_writeConfig ..⟩
  | bye | timeoutData | meterData | audio => exact hcodec h

/-- Only the settings dialog gives a client another name. -/
theorem act_username (h : s.act lib a = some s') :
    s'.net_control.conn_username = s.net_control.conn_username ∨
      ∃ d, a = .settingsClickedData d ∧ s'.net_control.conn_username = d.username := by
  have hcodec {e : CodecSession.Event} (he : act.codec lib s e = some s') :
      s'.net_control.conn_username = s.net_control.conn_username := by
    obtain ⟨x, -, rfl⟩ := Option.map_eq_some_iff.1 he
    rfl
  cases a with
  | connectClickedData uri =>
      obtain rfl := Option.some.inj h
      unfold connectClickedData
      split
      all_goals exact .inl rfl
  | connectedData =>
      obtain rfl := Option.some.inj h
      exact .inl rfl
  | settingsClickedData d =>
      obtain ⟨-, h⟩ := Option.ite_none_right_eq_some.1 h
      obtain rfl := Option.some.inj h
      exact .inr ⟨d, rfl, rfl⟩
  | bye | timeoutData | meterData | audio => exact .inl (hcodec h)

end Station

end NetISDN
