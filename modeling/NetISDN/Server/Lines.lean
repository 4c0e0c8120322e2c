import NetISDN.Client.Codebooks
import NetISDN.Client.Instructions
import NetISDN.Client.Reconnect
import NetISDN.Lib.Base64
import NetISDN.Server.Dispatch

/-!
# What stands on the connections

What the handlers do to the fields of a connection that hold texts. Only a byte that arrives and the
end of a command touch a command line, and only `LI` and `Logout` a name, so both stay free of the
mark that ends a command, and so does every command that the server sends (`IsCommand`).
-/

namespace NetISDN

open Framing ControlConnect

/-! ## Properties of connections -/

/-- A property that survives what the handlers do to a connection, `LI`, `PG` and the command line
aside. -/
structure SipConnection.Stable (P : SipConnection → Prop) : Prop where
  connectionFd : ∀ fd c, P c → P (c.setConnectionFd fd)
  cid : ∀ id c, P c → P (c.setCid id)
  sourcePort : ∀ port c, P c → P (c.setSourcePort port)
  authenticated : ∀ c, P c → P c.setAuthenticated
  zombie : ∀ c, P c → P c.setZombie
  forget : ∀ c, P c → P c.forget

section
variable {P : SipConnection → Prop} {c : SipConnection}

/-- The end of a call keeps what is stable. -/
theorem SipConnection.Stable.clearCall (hP : Stable P) (h : P c) : P c.clearCall :=
  hP.sourcePort _ _ (hP.cid _ _ (hP.connectionFd _ _ h))

/-- And so does a release. -/
theorem SipConnection.Stable.release (hP : Stable P) (cid : Int) (h : P c) : P (c.release cid) := by
  unfold SipConnection.release
  split
  · exact hP.clearCall h
  · exact hP.connectionFd _ _ h

end

namespace MainObject

variable {env : Env} {w : World} {s s' s₁ : MainObject} {fd d k : Int} {c cd : SipConnection}
  {cmds : QStringList} {e : Event} {P : Int → SipConnection → Prop} {out : List Output}

/-- `P` holds of every connection and its descriptor. -/
def AllConns (P : Int → SipConnection → Prop) (s : MainObject) : Prop :=
  ∀ k c, s.conn k = some c → P k c

/-- A change that keeps the property of the connection it is made to. -/
theorem AllConns.modifyConn {f : SipConnection → SipConnection} (h : AllConns P s)
    (hf : ∀ c, P fd c → P fd (f c)) : AllConns P (s.modifyConn fd f) := by
  intro k c hc
  rw [conn_modifyConn] at hc
  split at hc
  · next hk =>
      subst hk
      obtain ⟨c₀, hc₀, rfl⟩ := Option.map_eq_some_iff.1 hc
      exact hf c₀ (h fd c₀ hc₀)
  · exact h k c hc

/-- The other connections keep theirs. -/
theorem AllConns.eraseConn (h : AllConns P s) : AllConns P (s.eraseConn fd) := by
  intro k c hc
  rw [conn_eraseConn] at hc
  split at hc
  · cases hc
  · exact h k c hc

section
variable (hP : ∀ k, SipConnection.Stable (P k))
include hP

/-- A property of all connections survives the end of a call. -/
theorem AllConns.endsCall (h : AllConns P s) (hend : EndsCall w fd c s s') : AllConns P s' := by
  intro k x hx
  rw [hend.conn] at hx
  split at hx
  · obtain ⟨x₀, hx₀, rfl⟩ := Option.map_eq_some_iff.1 hx
    exact (hP k).clearCall (h k x₀ hx₀)
  · exact h k x hx

/-- A logout keeps what all connections have. -/
theorem AllConns.logout (h : AllConns P s) (hc : s.conn fd = some c)
    (hout : s.logout w fd = some s') : AllConns P s' := by
  rcases logout_spec hc hout with ⟨-, rfl⟩ | ⟨-, hl⟩
  · exact h
  · intro k x hx
    by_cases hk : fd = k
    · subst hk
      obtain rfl := Option.some.inj (hl.conn_self.symm.trans hx)
      exact (hP fd).forget _ ((hP fd).release _ (h fd c hc))
    · rw [hl.conn k hk] at hx
      split at hx
      · obtain ⟨x₀, hx₀, rfl⟩ := Option.map_eq_some_iff.1 hx
        exact (hP k).release _ (h k x₀ hx₀)
      · exact h k x hx

/-- And so does a kill. -/
theorem AllConns.socketKill (h : AllConns P s) (hc : s.conn fd = some c)
    (hkill : s.socketKill w fd = some s') : AllConns P s' := by
  rcases socketKill_spec hc hkill with ⟨-, rfl⟩ | ⟨-, s₁, hout, rfl⟩
  · exact h
  · exact (h.logout hP hc hout).modifyConn fun x => (hP fd).zombie x

/-- A call that is set up keeps what all connections have. -/
theorem AllConns.setsUpCall {port port' : Nat} {id : Int} {row : CallRow} (h : AllConns P s)
    (hset : SetsUpCall w fd d cmds c cd port port' id row s s') : AllConns P s' := by
  intro k x hx
  rw [hset.conn] at hx
  split at hx
  · obtain ⟨x₀, hx₀, rfl⟩ := Option.map_eq_some_iff.1 hx
    exact (hP k).cid _ _ ((hP k).sourcePort _ _ ((hP k).connectionFd _ _ (h k x₀ hx₀)))
  · exact h k x hx

/-- A property of all connections survives a command, if it survives an `LI` and a `PG`. -/
theorem AllConns.outcome (h : AllConns P s) (hc : s.conn fd = some c)
    (hident : ∀ u, s.namedUser w cmds = some u → ∀ c, P fd c → P fd (c.identify env w u cmds))
    (hping : cmds.at 0 = "PG" → ∀ c, P fd c → P fd (c.setPingTimestamp w.now))
    (ho : Outcome env w s fd c cmds s') : AllConns P s' := by
  cases ho with
  | @kill code _ _ hkill =>
      have hsent : AllConns P (s.sendCommand fd (erCommand code)) := h
      exact hsent.socketKill hP hc hkill
  | stranger => exact h
  | identify hu =>
      exact AllConns.modifyConn (s := s.sendCommand fd _) h (hident _ hu)
  | accept => exact h.modifyConn fun x => (hP fd).authenticated x
  | refuse => exact h
  | setup _ hd hsetup =>
      obtain ⟨port, port', id, row, hset⟩ := setupCall_spec hc hd hsetup
      exact h.setsUpCall hP hset
  | bye _ _ hend => exact h.endsCall hP (endCall_spec hc hend)
  | forward => exact h
  | mute => exact h
  | metadata => exact h
  | ping h0 => exact h.modifyConn (hping h0)

/-- The ping sweep keeps what all connections have. -/
theorem AllConns.pingTimerData (h : AllConns P s) (hsweep : s.pingTimerData w = some s') :
    AllConns P s' := by
  refine (pingTimerData_rule (I := fun _ s₁ => AllConns P s₁) hsweep h ?_).1
  intro done fd c s₁ s₂ ht hI
  rcases ht.turn with ⟨-, rfl⟩ | ⟨-, s₃, hout, rfl⟩
  · exact hI
  · exact (hI.logout hP ht.conn hout).eraseConn

/-- A property of all connections survives a slot, if it holds of a new connection, and survives a
byte, the end of a command, an `LI` and a `PG`. -/
theorem AllConns.transition (h : AllConns P s) (htr : Transition env e.world s e.slot s')
    (hnew : ∀ fd peer, e.slot = .newConnection fd peer →
      P fd { peerAddress := peer, pingTimestamp := e.world.now })
    (hbyte : ∀ fd b, e.slot = .socketReady fd b → b ≠ '!' → ∀ c, P fd c → P fd (c.appendLine b))
    (hline : ∀ fd, e.slot = .socketReady fd '!' → ∀ c, P fd c → P fd c.clearLine)
    (hident : ∀ fd c u, s.received e = some (fd, c.clearLine, tokens c) → s.conn fd = some c →
      s.namedUser e.world (tokens c) = some u →
      ∀ x, P fd x → P fd (x.identify env e.world u (tokens c)))
    (hping : ∀ fd c, s.received e = some (fd, c.clearLine, tokens c) → (tokens c).at 0 = "PG" →
      ∀ x, P fd x → P fd (x.setPingTimestamp e.world.now)) :
    AllConns P s' := by
  obtain ⟨slot, w⟩ := e
  cases htr with
  | @newConnection fd peer =>
      intro k x hx
      rw [conn_insertConn] at hx
      split at hx
      · next hk =>
          subst hk
          obtain rfl := Option.some.inj hx
          exact hnew fd peer rfl
      · exact h k x hx
  | @byte fd b c hb hc => exact h.modifyConn (hbyte fd b rfl hb)
  | @command fd c _ hc ho =>
      have htaken : AllConns P (s.takeLine fd) := h.modifyConn (hline fd rfl)
      have hc' : (s.takeLine fd).conn fd = some c.clearLine := by
        rw [takeLine, conn_modifyConn, if_pos rfl, hc, Option.map_some]
      exact htaken.outcome hP hc' (hident fd c · (received_eq rfl hc) hc)
        (hping fd c (received_eq rfl hc)) ho
  | socketKill hc hkill => exact h.socketKill hP hc hkill
  | zombieData =>
      intro k x hx
      rw [(zombieData_spec s).1] at hx
      exact h k x (Option.filter_eq_some_iff.1 hx).1
  | pingTimerData hsweep => exact h.pingTimerData hP hsweep

end

end MainObject

/-! ## Texts without marks -/

section
variable {sep x : Char} {t text : QString}

/-- A token is a part of the text without separators. -/
theorem mem_split (h : t ∈ split sep text) : t ≠ [] ∧ sep ∉ t ∧ ∀ c ∈ t, c ∈ text := by
  have hflat {c : Char} (hc : c ∈ t) : c ∈ text.filter (· ≠ sep) := by
    rw [← flatten_split]
    exact List.mem_flatten.2 ⟨t, h, hc⟩
  refine ⟨by simpa using (List.mem_filter.1 h).2, fun hsep => ?_, fun c hc => ?_⟩
  · simpa using (List.mem_filter.1 (hflat hsep)).2
  · exact (List.mem_filter.1 (hflat hc)).1

/-- The characters of a text without its white space are those of the text. -/
theorem mem_stripWhiteSpace (h : x ∈ stripWhiteSpace text) : x ∈ text := by
  rw [stripWhiteSpace, List.mem_reverse] at h
  have hsub := (List.dropWhile_sublist isSpace).subset h
  exact (List.dropWhile_sublist isSpace).subset (List.mem_reverse.1 hsub)

/-- No mark is among the tokens of a command line without one. -/
theorem not_mem_tokens {c : SipConnection} (hline : '!' ∉ c.cmdline)
    (h : t ∈ MainObject.tokens c) : '!' ∉ t :=
  fun hmark => hline (mem_stripWhiteSpace ((mem_split h).2.2 '!' hmark))

/-- The digits of a challenge are those of the base 16. -/
theorem not_mem_sprintf08x (hx : ∀ d < 16, x ≠ Nat.digitChar d) (n : Nat) : x ∉ sprintf08x n := by
  have hdigits : ∀ m, x ∉ Nat.toDigits 16 m := by
    intro m
    induction m using Nat.strong_induction_on with
    | _ m ih =>
        rw [Nat.toDigits_eq_if (by decide)]
        split
        · next hm => exact fun h => hx m hm (List.mem_singleton.1 h)
        · next hm =>
            intro h
            rcases List.mem_append.1 h with h | h
            · exact ih (m / 16) (Nat.div_lt_self (by omega) (by decide)) h
            · exact hx (m % 16) (Nat.mod_lt _ (by decide)) (List.mem_singleton.1 h)
  intro h
  rcases List.mem_append.1 h with h | h
  · exact hx 0 (by decide) (List.eq_of_mem_replicate h)
  · exact hdigits n h

/-- A challenge consists of hexadecimal digits. -/
theorem not_mem_generateChallenge (hx : ∀ d < 16, x ≠ Nat.digitChar d) (w : World) :
    x ∉ generateChallenge w := by
  simp only [generateChallenge, List.mem_append, not_mem_sprintf08x hx, or_self, not_false_eq_true]

end

/-! ## Commands -/

/-- A command that the server sends: it ends with the only mark in it, an `MS` is just that, and
what is neither an `MS` nor an `ME` means nothing to the media of a client. -/
structure IsCommand (cmd : QString) : Prop where
  message : IsMessage '!' cmd
  none : mediaOf cmd = none → instructionOf cmd = none
  stop : mediaOf cmd = some .stop → cmd = msCommand

section
variable {a a' : Char} {t cmd : QString}

/-- What begins with two letters other than those of the media commands is a command. -/
theorem isCommand_of_letters (ha : a ≠ ' ' ∧ a ≠ '!') (ha' : a' ≠ ' ' ∧ a' ≠ '!')
    (hmedia : a ≠ 'M' ∨ a' ≠ 'E' ∧ a' ≠ 'S') (ht : '!' ∉ t) :
    IsCommand (a :: a' :: t ++ ['!']) where
  message := by
    refine ⟨a :: a' :: t, rfl, fun h => ?_⟩
    rcases List.mem_cons.1 h with h | h
    · exact ha.2 h.symm
    · rcases List.mem_cons.1 h with h | h
      · exact ha'.2 h.symm
      · exact ht h
  none _ := by
    rw [instructionOf, List.dropLast_concat]
    exact instruction_eq_none ha.1 ha'.1 hmedia
  stop h := by
    have hnone : mediaOf (a :: a' :: t ++ ['!']) = none := by
      unfold mediaOf
      split
      · next heq => simp_all
      · next heq => simp_all
      · rfl
    cases hnone.symm.trans h

/-- What begins with `ME` is a command. -/
theorem isCommand_me (ht : '!' ∉ t) : IsCommand ('M' :: 'E' :: t ++ ['!']) where
  message := ⟨'M' :: 'E' :: t, rfl, by simp [ht]⟩
  none h := nomatch h
  stop h := nomatch h

/-- `MS` is a command. -/
theorem isCommand_msCommand : IsCommand msCommand :=
  ⟨⟨"MS", rfl, by decide⟩, fun h => (nomatch h), fun _ => rfl⟩

/-- An `ER` is a command. -/
theorem isCommand_erCommand (code : ResponseCode) : IsCommand (erCommand code) :=
  isCommand_of_letters (t := ' ' :: sprintfU code.toNat) (by decide) (by decide) (by decide)
    fun h => (List.mem_cons.1 h).elim (by decide) (not_mem_sprintfU rfl)

/-- And so is a challenge. -/
theorem isCommand_challenge (w : World) : IsCommand ("LI " ++ generateChallenge w ++ "!") := by
  refine isCommand_of_letters (t := ' ' :: generateChallenge w) (by decide) (by decide)
    (by decide) ?_
  intro h
  rcases List.mem_cons.1 h with h | h
  · cases h
  · exact not_mem_generateChallenge (by decide) w h

/-- And each of the metadata. -/
theorem isCommand_metadata {u : UserRow} (h : cmd ∈ MainObject.metadata u) : IsCommand cmd := by
  have hmd (tag str : QString) (htag : '!' ∉ tag) :
      IsCommand ('M' :: 'D' :: (tag ++ NetStringToBase64 str) ++ ['!']) :=
    isCommand_of_letters (by decide) (by decide) (by decide) fun hmem =>
      (List.mem_append.1 hmem).elim htag fun hb => (base64_plain hb).2.1 rfl
  simp only [MainObject.metadata, List.mem_cons, List.not_mem_nil, or_false] at h
  rcases h with rfl | rfl | rfl | rfl
  · exact hmd " FN " _ (by decide)
  · exact hmd " MA " _ (by decide)
  · exact hmd " PH " _ (by decide)
  · exact hmd " LC " _ (by decide)

/-- What `ForwardMessage` passes on is a command. -/
theorem isCommand_forwardText {cmds : QStringList} (h0 : cmds.at 0 = "CB" ∨ cmds.at 0 = "ER")
    (hcmds : ∀ t ∈ cmds, '!' ∉ t) : IsCommand (MainObject.forwardText cmds) := by
  obtain ⟨t, ts, rfl⟩ : ∃ t ts, cmds = t :: ts := by
    cases cmds with
    | nil => rcases h0 with h0 | h0 <;> cases h0
    | cons t ts => exact ⟨t, ts, rfl⟩
  have hrest : '!' ∉ ts.flatMap (' ' :: ·) := by
    intro h
    obtain ⟨u, hu, h⟩ := List.mem_flatMap.1 h
    rcases List.mem_cons.1 h with h | h
    · cases h
    · exact hcmds u (List.mem_cons_of_mem _ hu) h
  rw [forwardText_eq (List.cons_ne_nil t ts), join_cons]
  rcases h0 with h0 | h0
  · obtain rfl : t = "CB" := h0
    exact isCommand_of_letters (by decide) (by decide) (by decide) hrest
  · obtain rfl : t = "ER" := h0
    exact isCommand_of_letters (by decide) (by decide) (by decide) hrest

/-- An `ME` is a command. -/
theorem isCommand_mediaTokens {name : QString} {port port' : Nat} {addr : QHostAddress}
    {ts : QStringList} (hname : '!' ∉ name) (hts : ∀ t ∈ ts, '!' ∉ t) :
    IsCommand (join [' '] (mediaTokens name port addr port' ts) ++ ['!']) := by
  rw [mediaTokens, join_cons]
  refine isCommand_me (t := List.flatMap (' ' :: ·) _) fun hmem => ?_
  obtain ⟨u, hu, hmark⟩ := List.mem_flatMap.1 hmem
  have hmark : '!' ∈ u := (List.mem_cons.1 hmark).resolve_left (by decide)
  simp only [List.mem_cons] at hu
  rcases hu with rfl | rfl | rfl | rfl | hu
  · exact hname hmark
  · exact not_mem_sprintfU rfl hmark
  · exact QHostAddress.not_mem_toString rfl (by decide) hmark
  · exact not_mem_sprintfU rfl hmark
  · exact hts u hu hmark

end

namespace MainObject

variable {env : Env} {w : World} {s s' s₁ s₂ s₃ : MainObject} {fd d k : Int} {c cd : SipConnection}
  {cmds : QStringList} {e : Event} {cmd : QString} {out : List Output}

/-! ## The texts of the connections -/

/-- No text of the connection contains the mark, and one that has a `uid` has a name. -/
structure Worded (_ : Int) (c : SipConnection) : Prop where
  line : '!' ∉ c.cmdline
  name : '!' ∉ c.username
  known : c.uid ≠ 0 → IsName c.username

/-- What a connection has been told about its user stays as it is. -/
theorem stable_worded (k : Int) : SipConnection.Stable (Worded k) where
  connectionFd _ _ h := ⟨h.line, h.name, h.known⟩
  cid _ _ h := ⟨h.line, h.name, h.known⟩
  sourcePort _ _ h := ⟨h.line, h.name, h.known⟩
  authenticated _ h := ⟨h.line, h.name, h.known⟩
  zombie _ h := ⟨h.line, h.name, h.known⟩
  forget _ h := ⟨h.line, List.not_mem_nil, fun huid => absurd rfl huid⟩

/-- Where an `LI` names a user, MySQL finds one whose name a command can carry. -/
def NameSafe (s : MainObject) (e : Event) : Prop := ∀ p ∈ s.identified e, IsName p.2.name

instance (s : MainObject) (e : Event) : Decidable (NameSafe s e) :=
  decidable_of_iff ((s.identified e).all fun p => decide (IsName p.2.name)) <| by
    rw [NameSafe]
    cases s.identified e with
    | none => exact iff_of_true rfl nofun
    | some p => simp

/-- A name that is looked up as it stands is one that a command can carry. -/
theorem isName_of_lookup {u : UserRow} (hline : '!' ∉ c.cmdline)
    (hverbatim : w.lookup s.db ((tokens c).at 1) = s.db.selectUserByName ((tokens c).at 1))
    (h : s.namedUser w (tokens c) = some u) : IsName u.name := by
  rw [namedUser] at h
  split at h
  · next hLI =>
      rw [hverbatim] at h
      have hname : u.name = (tokens c).at 1 := by simpa using List.find?_some h
      have hmem : (tokens c).at 1 ∈ tokens c := by
        rw [QStringList.at, List.getD_eq_getElem _ _ (by omega)]
        exact List.getElem_mem _
      obtain ⟨hne, hspace, -⟩ := mem_split hmem
      rw [hname]
      exact ⟨hne, hspace, not_mem_tokens hline hmem⟩
  · cases h

/-- The texts stay free of marks. -/
theorem worded_transition (h : AllConns Worded s) (hP : NameSafe s e)
    (htr : Transition env e.world s e.slot s') : AllConns Worded s' := by
  refine h.transition stable_worded htr (fun fd peer _ => ?_) (fun fd b _ hb c hc => ?_)
    (fun fd _ c hc => ?_) (fun fd c u hrec _ hu x hx => ?_) fun fd c _ _ x hx => ?_
  · exact ⟨List.not_mem_nil, List.not_mem_nil, fun huid => absurd rfl huid⟩
  · refine ⟨fun hmem => ?_, hc.name, hc.known⟩
    rcases List.mem_append.1 hmem with hmem | hmem
    · exact hc.line hmem
    · exact hb (List.mem_singleton.1 hmem).symm
  · exact ⟨List.not_mem_nil, hc.name, hc.known⟩
  · have hname := hP (fd, u) (identified_eq_some.2 ⟨_, _, hrec, hu⟩)
    exact ⟨hx.line, hname.no_end, fun _ => hname⟩
  · exact ⟨hx.line, hx.name, hx.known⟩

/-- The step lemma: user names keep to what a command may have in it. -/
theorem worded_step (h : AllConns Worded s) (hP : NameSafe s e)
    (hs : step env s e = some (s', out)) : AllConns Worded s' := by
  obtain ⟨s₁, htr, rfl, -⟩ := step_transition hs
  have hw : AllConns Worded s₁ := worded_transition (s := s.flush) h hP htr
  exact hw

/-- There is no connection yet. -/
theorem worded_start (db : Database) : AllConns Worded (start db) := fun _ _ hc => nomatch hc

/-! ## What the server sends -/

/-- The commands that the server sends to `k` while it handles an event. -/
inductive Says (s : MainObject) (e : Event) (k : Int) : QString → Prop
  | stop : Says s e k msCommand
  | response (code : ResponseCode) : Says s e k (erCommand code)
  | challenge {c : SipConnection} {cmds : QStringList} (h : s.received e = some (k, c, cmds))
      (h0 : cmds.at 0 = "LI") : Says s e k ("LI " ++ generateChallenge e.world ++ "!")
  | welcome (h : s.accepted e = some k) : Says s e k "OK 300!"
  | start {name : QString} {port port' : Nat} {addr : QHostAddress} {ts : QStringList}
      (hname : '!' ∉ name) (hts : ∀ t ∈ ts, '!' ∉ t) :
      Says s e k (join [' '] (mediaTokens name port addr port' ts) ++ ['!'])
  | metadata {u : UserRow} {cmd : QString} (h : cmd ∈ MainObject.metadata u) : Says s e k cmd
  | forward {cmds : QStringList} (h0 : cmds.at 0 = "CB" ∨ cmds.at 0 = "ER")
    (hcmds : ∀ t ∈ cmds, '!' ∉ t) :
      Says s e k (forwardText cmds)
  | ping : Says s e k "PG!"

/-- All that a server says to a client is a command. -/
theorem Says.isCommand (h : Says s e k cmd) : IsCommand cmd := by
  cases h with
  | stop => exact isCommand_msCommand
  | response code => exact isCommand_erCommand code
  | challenge => exact isCommand_challenge e.world
  | welcome =>
      exact isCommand_of_letters (t := " 300".toList) (by decide) (by decide)
        (by decide) (by decide)
  | start hname hts => exact isCommand_mediaTokens hname hts
  | metadata h => exact isCommand_metadata h
  | forward h0 hcmds => exact isCommand_forwardText h0 hcmds
  | ping => exact isCommand_of_letters (t := []) (by decide) (by decide) (by decide) (by decide)

/-- What is sent between `s₁` and `s₂` is what the server says in the event. -/
def Sends (s : MainObject) (e : Event) (s₁ s₂ : MainObject) : Prop :=
  ∀ k, ∀ cmd ∈ s₂.sentTo k, cmd ∈ s₁.sentTo k ∨ Says s e k cmd

/-- Nothing is sent. -/
theorem Sends.refl (s₁ : MainObject) : Sends s e s₁ s₁ := fun _ _ h => .inl h

/-- What is sent in two parts of a step. -/
theorem Sends.trans (h : Sends s e s₁ s₂) (h' : Sends s e s₂ s₃) : Sends s e s₁ s₃ :=
  fun k cmd hcmd => (h' k cmd hcmd).elim (h k cmd) .inr

/-- A command that the event lets the server say. -/
theorem sends_sendCommand (h : Says s e fd cmd) : Sends s e s₁ (s₁.sendCommand fd cmd) := by
  intro k x hx
  rw [sentTo_sendCommand] at hx
  rcases List.mem_append.1 hx with hx | hx
  · exact .inl hx
  · split at hx
    · next hk => exact .inr (List.mem_singleton.1 hx ▸ hk ▸ h)
    · cases hx

/-- More commands are sent. -/
theorem sends_of_append (sent : Int → List QString) (h : ∀ k, s₂.sentTo k = s₁.sentTo k ++ sent k)
    (hsent : ∀ k, ∀ cmd ∈ sent k, Says s e k cmd) : Sends s e s₁ s₂ := by
  intro k cmd hcmd
  rw [h] at hcmd
  exact (List.mem_append.1 hcmd).imp_right (hsent k cmd)

/-- The end of a call sends nothing else. -/
theorem EndsCall.sends (h : EndsCall w fd c s₁ s₂) : Sends s e s₁ s₂ := by
  refine sends_of_append _ (fun k => by rw [h.sentTo, List.append_assoc]) fun k cmd hcmd => ?_
  have hms : cmd = msCommand := by
    rcases List.mem_append.1 hcmd with hcmd | hcmd <;> simp_all
  exact hms ▸ .stop

/-- And neither does a logout. -/
theorem logout_sends (hc : s₁.conn fd = some c) (h : s₁.logout w fd = some s₂) :
    Sends s e s₁ s₂ := by
  rcases logout_spec hc h with ⟨-, rfl⟩ | ⟨-, hl⟩
  · exact .refl s₂
  · refine sends_of_append _ hl.sentTo fun k cmd hcmd => ?_
    have hms : cmd = msCommand := by
      split at hcmd
      · rcases List.mem_append.1 hcmd with hcmd | hcmd <;> simp_all
      · cases hcmd
    exact hms ▸ .stop

/-- And neither does a kill. -/
theorem socketKill_sends (hc : s₁.conn fd = some c) (h : s₁.socketKill w fd = some s₂) :
    Sends s e s₁ s₂ := by
  rcases socketKill_spec hc h with ⟨-, rfl⟩ | ⟨-, s₃, h₃, rfl⟩
  · exact .refl s₂
  · have hout : Sends s e s₁ s₃ := logout_sends hc h₃
    exact hout

/-- Metadata of a user may be sent to anyone. -/
theorem says_metadataOf {o : Option UserRow} (h : cmd ∈ (o.map metadata).getD []) :
    Says s e k cmd := by
  cases o with
  | none => cases h
  | some u => exact .metadata h

/-- What `InitiateCall` sends. -/
theorem SetsUpCall.sends {port port' : Nat} {id : Int} {row : CallRow} (hc : '!' ∉ c.username)
    (hd : '!' ∉ cd.username) (h : SetsUpCall w fd d cmds c cd port port' id row s₁ s₂) :
    Sends s e s₁ s₂ := by
  refine sends_of_append _
    (fun k => by rw [h.sentTo, List.append_assoc, List.append_assoc]) fun k cmd hcmd => ?_
  have hnumbers (is : List Nat) :
      ∀ t ∈ is.map fun i => sprintfU (toUInt (cmds.at i)), '!' ∉ t := by
    intro t ht
    obtain ⟨i, -, rfl⟩ := List.mem_map.1 ht
    exact not_mem_sprintfU rfl
  rcases List.mem_append.1 hcmd with hcmd | hcmd
  · split at hcmd
    · simp only [List.mem_cons, List.not_mem_nil, or_false] at hcmd
      rcases hcmd with rfl | rfl
      · exact .response _
      · rw [callerMe_eq]
        refine .start hd fun t ht => ?_
        rcases List.mem_append.1 ht with ht | ht
        · exact hnumbers _ t ht
        · obtain rfl := List.mem_singleton.1 ht
          exact (isName_int _).no_end
    · cases hcmd
  · rcases List.mem_append.1 hcmd with hcmd | hcmd
    · split at hcmd
      · rcases List.mem_cons.1 hcmd with rfl | hcmd
        · rw [calleeMe_eq]
          exact .start hc (hnumbers _)
        · exact says_metadataOf hcmd
      · cases hcmd
    · split at hcmd
      · exact says_metadataOf hcmd
      · cases hcmd

/-- What is sent while a command is handled. -/
theorem Outcome.sends (hw : AllConns Worded s) (hslot : e.slot = .socketReady fd '!')
    (hc : s.conn fd = some c)
    (h : Outcome env e.world (s.takeLine fd) fd c.clearLine (tokens c) s') :
    Sends s e (s.takeLine fd) s' := by
  have hrec := received_eq hslot hc
  have hc' : (s.takeLine fd).conn fd = some c.clearLine := by
    rw [takeLine, conn_modifyConn, if_pos rfl, hc, Option.map_some]
  have htaken : AllConns Worded (s.takeLine fd) := hw.modifyConn fun x hx =>
    ⟨List.not_mem_nil, hx.name, hx.known⟩
  cases h with
  | @kill code _ _ hkill =>
      exact (sends_sendCommand (.response code)).trans
        (socketKill_sends ((conn_sendCommand ..).trans hc') hkill)
  | stranger h0 => exact sends_sendCommand (.challenge hrec h0)
  | identify hu =>
      have h0 : (tokens c).at 0 = "LI" := by
        rw [namedUser] at hu
        split at hu
        · next hLI => exact hLI.1
        · cases hu
      exact sends_sendCommand (.challenge hrec h0)
  | accept h0 hcode =>
      refine sends_of_append (fun k => if fd = k then ["OK 300!".toList] else [])
        (fun k => ?_) fun k cmd hcmd => ?_
      · rw [acceptLogin, sentTo_sendUidUpdate, sentTo_sendCommand]
        rfl
      · split at hcmd
        · next hk =>
            subst hk
            obtain rfl := List.mem_singleton.1 hcmd
            exact .welcome (accepted_eq_some.2 ⟨_, _, hrec, h0, hcode⟩)
        · cases hcmd
  | refuse => exact sends_sendCommand (.response _)
  | setup _ hd hsetup =>
      obtain ⟨port, port', id, row, hset⟩ := setupCall_spec hc' hd hsetup
      exact hset.sends (htaken fd _ hc').name (htaken _ _ hd).name
  | bye _ _ hend => exact (endCall_spec hc' hend).sends
  | forward h0 =>
      exact sends_sendCommand (.forward h0 fun t ht => not_mem_tokens (hw fd c hc).line ht)
  | mute => exact .refl _
  | metadata =>
      refine sends_of_append (fun _ => []) (fun k => ?_) fun _ _ h => absurd h List.not_mem_nil
      rw [sentTo_sendUidUpdate, sentTo_withDb, List.append_nil]
  | ping => exact .refl _

/-- What is sent in a slot. -/
theorem Transition.sends (hw : AllConns Worded s) (h : Transition env e.world s e.slot s') :
    Sends s e s s' := by
  obtain ⟨slot, w⟩ := e
  cases h with
  | newConnection => exact fun k cmd hcmd => .inl hcmd
  | byte => exact .refl s
  | @command fd c _ hc ho =>
      have hsends := ho.sends (e := ⟨.socketReady fd '!', w⟩) hw rfl hc
      exact hsends
  | socketKill hc hkill => exact socketKill_sends hc hkill
  | zombieData =>
      obtain ⟨-, -, hsent⟩ := zombieData_spec s
      intro k cmd hcmd
      rw [sentTo, hsent] at hcmd
      exact .inl hcmd
  | pingTimerData hsweep =>
      refine (pingTimerData_rule (I := fun _ s₁ => Sends s _ s s₁) hsweep (.refl s) ?_).1
      intro done fd c s₁ s₂ ht hI
      refine hI.trans ?_
      rcases ht.turn with ⟨-, rfl⟩ | ⟨-, s₃, h₃, rfl⟩
      · exact sends_sendCommand .ping
      · have hout : Sends s ⟨.pingTimerData, w⟩ s₁ s₃ := logout_sends ht.conn h₃
        exact hout

/-- **What the server sends in a step.** -/
theorem step_said (hw : AllConns Worded s) (hs : step env s e = some (s', out))
    (hcmd : cmd ∈ commandsTo k out) : Says s e k cmd := by
  obtain ⟨s₁, htr, rfl, rfl⟩ := step_transition hs
  have hsends : Sends s.flush e s.flush s₁ := htr.sends hw
  have hsays : Says s.flush e k cmd := (hsends k cmd hcmd).resolve_left (by simp)
  cases hsays with
  | stop => exact .stop
  | response code => exact .response code
  | challenge h h0 => exact .challenge h h0
  | welcome h => exact .welcome h
  | start hname hts => exact .start hname hts
  | metadata h => exact .metadata h
  | forward h0 hcmds => exact .forward h0 hcmds
  | ping => exact .ping

/-- Everything that the server sends in a step is commands. -/
theorem step_isCommand (hw : AllConns Worded s) (hs : step env s e = some (s', out))
    (hcmd : cmd ∈ commandsTo k out) : IsCommand cmd := (step_said hw hs hcmd).isCommand

end MainObject

end NetISDN
