import NetISDN.General.Runs
import NetISDN.System.Network

/-!
# Server and clients agree on the calls

A client that has read everything that was sent to it plays if and only if the server has it in a
call, and what the two clients of a call play matches (`Network.agree_of_runs`). This holds in every
run whose steps are `Sound`: the code does not tell the server of a call that a client's codec
cannot start, or ends behind the server's back, and the server then keeps the call
(`Network.linked_of_behindBack`). In sound runs the two sides agree on who is in a call whenever
nothing is under way (`Network.callsAgree_of_runs`).
-/

namespace NetISDN

open ControlConnect Framing Steering TransitionSystem

/-- What a client is about to be told to start, if the command that it is reading is finished. -/
def Station.offered (s : Station) : Option MediaStart :=
  match instruction (split ' ' s.net_control.conn_cmdline) with
  | some (.on m) => some m
  | some .off | none => none

namespace Network

/-- The call of the client on `fd` is over: the server has it in none, or has yet to read that it
hangs up. -/
def Over (n : Network) (fd : Int) : Prop :=
  (∀ c ∈ n.server.conn fd, c.connectionFd < 0) ∨
    Contains '!' "BY!".toList (n.server.lineOf fd ++ (n.channel fd).up)

instance (n : Network) (fd : Int) : Decidable (n.Over fd) := inferInstanceAs (Decidable (_ ∨ _))

/-- The part of the clients in what keeps them together with the server. A client that connects has
no call, and has kept nothing of an old connection; what a client is told to start it can play, and
the start succeeds; and a call ends by way of the server, unless it is over anyway. -/
def ClientSound (n : Network) : Event → Prop
  | .connects _ _ client _ => ∀ s ∈ client, s.net_codec.connectionState = .idle ∧
      s.net_control.conn_cmdline = []
  | .clientReads fd w => (n.channel fd).down.head? = some '!' → ∀ s ∈ (n.channel fd).station,
      ∀ m ∈ s.offered, s.build.Plays m ∧ w.Opens m ∨ n.Over fd
  | .clientActs fd a => a.behindBack = true → ∀ s ∈ (n.channel fd).station,
      s.net_codec.connectionState = .idle ∨ n.Over fd
  | .serverReads _ _ | .socketKill _ _ | .zombieData _ | .pingTimerData _ | .writes _ _
  | .leaves _ => True

/-- The steps that keep server and clients together. The part of the server is to keep its links in
order, to announce addresses, and to be answered by MySQL with users whose names can be sent. -/
structure Sound (n : Network) (e : Event) : Prop where
  server : ∀ e' ∈ n.serves e, MainObject.LinkSafe n.server e' ∧ MainObject.Announces n.server e' ∧
    MainObject.LooksUp n.server e'
  client : n.ClientSound e

instance (n : Network) (e : Event) : Decidable (n.ClientSound e) :=
  match e with
  | .connects _ _ client _ => inferInstanceAs (Decidable (∀ s ∈ client, _ ∧ _))
  | .clientReads fd _ => inferInstanceAs (Decidable (_ → ∀ s ∈ (n.channel fd).station, ∀ m ∈ _, _))
  | .clientActs fd _ => inferInstanceAs (Decidable (_ → ∀ s ∈ (n.channel fd).station, _))
  | .serverReads _ _ | .socketKill _ _ | .zombieData _ | .pingTimerData _ | .writes _ _
  | .leaves _ => .isTrue trivial

instance (n : Network) (e : Event) : Decidable (Sound n e) :=
  decidable_of_iff ((∀ e' ∈ n.serves e, MainObject.LinkSafe n.server e' ∧
      MainObject.Announces n.server e' ∧ MainObject.LooksUp n.server e') ∧ n.ClientSound e)
    ⟨fun ⟨h, h'⟩ => ⟨h, h'⟩, fun ⟨h, h'⟩ => ⟨h, h'⟩⟩

/-! ## One client -/

/-- A client is in touch with a server that has told it `told`, and has read `line` of its next
command: it is in step, or has asked the server to end the call. -/
structure InTouch (told : Option MediaStart) (line : QString) (c : Channel) (s : Station) :
    Prop where
  closed : Closed '!' (line ++ c.up)
  inStep : ∃ cmds, Holds '!' s.net_control.conn_cmdline c.down cmds ∧
    (∀ cmd ∈ cmds, IsCommand cmd) ∧
    InStep (Contains '!' "BY!".toList (line ++ c.up)) told s.playing (instructionsIn cmds)

section
variable {env : Env} {lib : Libraries} {w : Surroundings} {told told' : Option MediaStart}
  {line line' up' down' : QString} {c : Channel} {s s' : Station} {byte : Char}
  {texts new : List QString}

/-- The server takes bytes from the channel, and sends commands. -/
theorem InTouch.serve (h : InTouch told line c s) (hnew : ∀ cmd ∈ new, IsCommand cmd)
    (hobey : obeyAll told (instructionsIn new) = some told') (hclosed : Closed '!' (line' ++ up'))
    (hbye : Contains '!' "BY!".toList (line ++ c.up) →
      Contains '!' "BY!".toList (line' ++ up') ∨ told' = none) :
    InTouch told' line' ({ c with up := up' }.receive new) s := by
  obtain ⟨cmds, hholds, hcmds, hin⟩ := h.inStep
  refine ⟨hclosed, cmds ++ new, hholds.send fun cmd hcmd => (hnew cmd hcmd).message,
    List.forall_mem_append.2 ⟨hcmds, hnew⟩, ?_⟩
  rw [instructionsIn_append]
  have hsent := hin.send hobey
  rcases eq_or_ne told' none with rfl | hon
  · exact hsent.settle
  · exact hsent.mono fun hasked => (hbye hasked).resolve_right hon

/-- The client has done something: it has sent what ends with a mark, and is in step as it was, or
has asked the server to end the call. -/
theorem InTouch.client {cmds : List QString} {d : Option MediaStart}
    (h : InTouch told line c s) (hsent : s'.net_control.sent = texts)
    (htexts : ∀ text ∈ texts, Closed '!' text)
    (hholds : Holds '!' s'.net_control.conn_cmdline down' cmds)
    (hcmds : ∀ cmd ∈ cmds, IsCommand cmd)
    (hin : InStep (Contains '!' "BY!".toList (line ++ c.up)) told d (instructionsIn cmds))
    (hplaying : s'.playing = d ∨ s'.playing = none ∧ ∃ pre, texts = pre ++ ["BY!".toList]) :
    InTouch told line ({ c with down := down' }.hear s') s' := by
  have hup : line ++ ({ c with down := down' }.hear s').up = line ++ c.up ++ texts.flatten := by
    rw [Channel.hear, hsent, List.append_assoc]
  refine ⟨hup ▸ h.closed.append (closed_flatten htexts), cmds, hholds, hcmds, ?_⟩
  rw [hup]
  rcases hplaying with hsame | ⟨hoff, pre, rfl⟩
  · rw [hsame]
    exact hin.mono Contains.append
  · rw [hoff]
    refine hin.quit ?_
    have hpre : Closed '!' (line ++ c.up ++ pre.flatten) :=
      h.closed.append (closed_flatten fun text ht => htexts text (List.mem_append_left _ ht))
    rw [List.flatten_append, List.flatten_singleton, ← List.append_assoc]
    exact contains_of_closed hpre

/-- The client reads a byte. -/
theorem InTouch.read (h : InTouch told line c s) (hread : s.flush.readByte lib w env byte = some s')
    (hdown : c.down = byte :: down')
    (hw : byte = '!' → ∀ m ∈ s.offered, s.build.Plays m ∧ w.Opens m ∨
      told = none ∨ Contains '!' "BY!".toList (line ++ c.up)) :
    InTouch told line ({ c with down := down' }.hear s') s' := by
  obtain ⟨cmds, hholds, hcmds, hin⟩ := h.inStep
  rw [hdown] at hholds
  by_cases hbyte : byte = '!'
  · subst hbyte
    obtain ⟨cmds', rfl, hholds'⟩ := hholds.complete
    obtain ⟨-, hcmds'⟩ := List.forall_mem_cons.1 hcmds
    obtain ⟨texts, hsent, hline, -, htexts, hturns⟩ := Station.readByte_mark hread
    rw [← hline] at hholds'
    rw [instructionsIn_cons, instructionOf, List.dropLast_concat] at hin
    have hsame : s.flush.net_control.conn_cmdline = s.net_control.conn_cmdline := rfl
    rw [hsame] at hturns
    cases hi : instruction (split ' ' s.net_control.conn_cmdline) with
    | none =>
        rw [hi] at hin hturns
        refine h.client hsent htexts hholds' hcmds' hin ?_
        cases hturns with
        | keeps hkeeps => exact .inl hkeeps
        | quits pre hoff hbye => exact .inr ⟨hoff, pre, hbye⟩
    | some i =>
        rw [hi] at hin hturns
        obtain ⟨d', hd', hin'⟩ := hin.obey
        cases hturns with
        | obeys hobeys => exact h.client hsent htexts hholds' hcmds' hin' (.inl (hobeys d' hd'))
        | @fails m hnot hoff =>
            -- what the client cannot start does no harm if the call is over
            have hoffered : s.offered = some m := by rw [Station.offered, hi]
            have hover := (hw rfl m hoffered).resolve_left hnot
            exact h.client hsent htexts hholds' hcmds' (hin'.drop hover) (.inl hoff)
  · obtain ⟨hsent, hline, -, hplaying⟩ := Station.readByte_other hbyte hread
    have hholds' := hholds.receive hbyte
    rw [← show _ = s.net_control.conn_cmdline ++ [byte] from hline] at hholds'
    exact h.client hsent (List.forall_mem_nil _) hholds' hcmds hin (.inl hplaying)

/-- The client does something else. -/
theorem InTouch.act {a : Station.Act} (h : InTouch told line c s)
    (hact : s.flush.act lib a = some s')
    (ha : a.behindBack = true → s.net_codec.connectionState = .idle ∨
      told = none ∨ Contains '!' "BY!".toList (line ++ c.up)) :
    InTouch told line (c.hear s') s' := by
  obtain ⟨cmds, hholds, hcmds, hin⟩ := h.inStep
  obtain ⟨texts, hsends, hplaying⟩ := Station.act_spec hact
  rw [← show _ = s.net_control.conn_cmdline from hsends.line] at hholds
  rcases hplaying with hsame | ⟨hback, hoff⟩
  · exact h.client hsends.sent hsends.closed hholds hcmds hin (.inl hsame)
  · rcases ha hback with hidle | hover
    · have hsame : s'.playing = s.playing := hoff.trans (Station.playing_eq_none.2 hidle).symm
      exact h.client hsends.sent hsends.closed hholds hcmds hin (.inl hsame)
    · exact h.client hsends.sent hsends.closed hholds hcmds (hin.drop hover) (.inl hoff)

/-- A client that has just connected has sent its login. -/
theorem inTouch_opened (hs : (Channel.opened (some s)).station = some s')
    (hidle : s.net_codec.connectionState = .idle) (hempty : s.net_control.conn_cmdline = []) :
    InTouch none [] (Channel.opened (some s)) s' := by
  obtain ⟨texts, hreacts⟩ := reacts_connectedData (c := s.flush.net_control) (b := s.build)
  obtain rfl := Option.some.inj hs
  refine ⟨?_, [], ?_, fun _ h => (nomatch h), ?_⟩
  · have hup : (Channel.opened (some s)).up = texts.flatten := congrArg List.flatten hreacts.sent
    rw [List.nil_append, hup]
    exact closed_flatten hreacts.closed
  · have hline : (s.flush.net_control.connectedData s.build).conn_cmdline = [] := hempty
    rw [hline]
    exact holds_nil
  · have hoff : Station.playing { s.flush with
        net_control := s.flush.net_control.connectedData s.build } = none :=
      Station.playing_eq_none.2 hidle
    rw [hoff]
    exact inStep_off

end

/-! ## The network -/

/-- The invariant: the server has its clients under control, and each of ours is in touch with it.
-/
def Agrees (n : Network) : Prop :=
  ∃ told, MainObject.Controls n.server told ∧ ∀ k s, (n.channel k).station = some s →
    InTouch (told k) (n.server.lineOf k) (n.channel k) s

variable {env : Env} {lib : Libraries} {n n' : Network} {e : Event} {out : List Unit}

/-- At the start there is no call to agree on. -/
theorem agrees_start (db : Database) : Agrees (start db) :=
  ⟨fun _ => none, MainObject.controls_start db, fun _ _ hs => nomatch hs⟩

/-- A connection that the server has in no call has not been told to start anything. -/
theorem told_eq_none {server : MainObject} {told : Int → Option MediaStart} {k : Int}
    (h : MainObject.Tells server told) (hk : ∀ c, server.conn k = some c → c.connectionFd < 0) :
    told k = none := by
  rw [← Option.not_isSome_iff_eq_none, h.linked]
  rintro ⟨c, hc, hlink⟩
  exact absurd (hk c hc) (not_lt.2 hlink)

/-- What a call that is over means for what the client has been told. -/
theorem Over.told {told : Int → Option MediaStart} {k : Int} (hover : n.Over k)
    (h : MainObject.Controls n.server told) :
    told k = none ∨ Contains '!' "BY!".toList (n.server.lineOf k ++ (n.channel k).up) :=
  hover.imp_left (told_eq_none h.tells)

/-- The client of a channel does something. -/
theorem Agrees.set {fd : Int} {c : Channel} (h : Agrees n)
    (hc : ∀ told s, MainObject.Controls n.server told → c.station = some s →
      (∀ s₀, (n.channel fd).station = some s₀ →
        InTouch (told fd) (n.server.lineOf fd) (n.channel fd) s₀) →
      InTouch (told fd) (n.server.lineOf fd) c s) : Agrees (n.set fd c) := by
  obtain ⟨told, hcontrols, htouch⟩ := h
  refine ⟨told, hcontrols, fun k s hs => ?_⟩
  rw [channel_set] at hs ⊢
  split at hs
  · next hk =>
      subst hk
      rw [if_pos rfl]
      exact hc told s hcontrols hs (htouch k)
  · next hk =>
      rw [if_neg hk]
      exact htouch k s hs

/-- A step of a client, or of another program. -/
theorem Agrees.clientStep (h : Agrees n) (hP : n.ClientSound e)
    (hs : n.clientStep env lib e = some n') : Agrees n' := by
  cases e with
  | clientReads fd w =>
      obtain ⟨s, hstation, hs⟩ := Option.bind_eq_some_iff.1 hs
      obtain ⟨byte, hbyte, hs⟩ := Option.bind_eq_some_iff.1 hs
      obtain ⟨s', hread, hs⟩ := Option.bind_eq_some_iff.1 hs
      obtain rfl := Option.some.inj hs
      obtain ⟨down', hdown⟩ := List.head?_eq_some_iff.1 hbyte
      refine h.set fun told x hcontrols hx htouch => ?_
      obtain rfl := Option.some.inj hx
      rw [hdown, List.tail_cons]
      exact (htouch s hstation).read hread hdown fun hmark m hm =>
        (hP (hmark ▸ hbyte) s hstation m hm).imp_right fun hover => hover.told hcontrols
  | clientActs fd a =>
      obtain ⟨s, hstation, hs⟩ := Option.bind_eq_some_iff.1 hs
      obtain ⟨s', hact, hs⟩ := Option.bind_eq_some_iff.1 hs
      obtain rfl := Option.some.inj hs
      refine h.set fun told x hcontrols hx htouch => ?_
      obtain rfl := Option.some.inj hx
      exact (htouch s hstation).act hact fun ha =>
        (hP ha s hstation).imp_right fun hover => hover.told hcontrols
  | writes fd text =>
      obtain ⟨hnone, hs⟩ := Option.ite_none_right_eq_some.1 hs
      obtain rfl := Option.some.inj hs
      refine h.set fun told x _ hx _ => ?_
      rw [show (n.channel fd).station = none from Option.isNone_iff_eq_none.1 hnone] at hx
      cases hx
  | leaves fd =>
      obtain rfl := Option.some.inj hs
      exact h.set fun _ _ _ hx _ => nomatch hx
  | connects | serverReads | socketKill | zombieData | pingTimerData => cases hs

/-- A slot of the server. -/
theorem Agrees.serve {e' : NetISDN.Event} {server : MainObject} {sent : List Output} (h : Agrees n)
    (hP : Sound n e) (he : n.serves e = some e')
    (hs : MainObject.step env n.server e' = some (server, sent)) :
    Agrees ⟨server, fun k => (n.taken e k).receive (commandsTo k sent)⟩ := by
  obtain ⟨told, hcontrols, htouch⟩ := h
  obtain ⟨hsafe, hannounces, hlooksUp⟩ := hP.server e' he
  obtain ⟨told', hcontrols', hobey, hcmds⟩ := hcontrols.step hsafe hannounces hlooksUp hs
  have hnone {k : Int} (hk : ∀ c, server.conn k = some c → c.connectionFd < 0) : told' k = none :=
    told_eq_none hcontrols'.tells hk
  -- a channel that the server does not read from
  have hother (k : Int) (s : Station) (htaken : n.taken e k = n.channel k)
      (hline : ∀ line, e'.slot.lineAfter k line = line) (hstation : (n.channel k).station = some s)
        :
      InTouch (told' k) (server.lineOf k) ((n.taken e k).receive (commandsTo k sent)) s := by
    have hk := htouch k s hstation
    rw [htaken]
    rcases MainObject.lineOf_of_other hs hline with hsame | hgone
    · exact hk.serve (hcmds k) (hobey k) (by rw [hsame]; exact hk.closed) fun hbye =>
        .inl (by rwa [hsame])
    · have hempty : server.lineOf k = [] := by rw [MainObject.lineOf, hgone]; rfl
      have htold : told' k = none := hnone fun c hc => by
        rw [hgone] at hc
        cases hc
      refine hk.serve (hcmds k) (hobey k) ?_ fun _ => .inr htold
      rw [hempty]
      exact hk.closed.tail
  refine ⟨told', hcontrols', fun k s hstation => ?_⟩
  replace hstation : (n.taken e k).station = some s := hstation
  cases e with
  | connects fd peer client w =>
      obtain rfl := Option.some.inj he
      rcases eq_or_ne k fd with rfl | hk
      · obtain ⟨hconn, rfl⟩ := MainObject.step_newConnection hs
        have hline : server.lineOf k = [] := MainObject.lineOf_of_conn hconn
        have htold : told' k = none := hnone fun c hc => by
          rw [← Option.some.inj (hconn.symm.trans hc)]
          exact (by decide : (-1 : Int) < 0)
        have htaken : n.taken (.connects k peer client w) k = .opened client :=
          Function.update_self ..
        rw [htaken] at hstation
        dsimp only
        rw [hline, htold, htaken]
        cases client with
        | none => cases hstation
        | some s₀ =>
            obtain ⟨hidle, hempty⟩ := hP.client s₀ rfl
            exact inTouch_opened hstation hidle hempty
      · exact hother k s (Function.update_of_ne hk ..) (fun _ => if_neg (Ne.symm hk))
          (by rwa [taken, Function.update_of_ne hk] at hstation)
  | serverReads fd w =>
      obtain ⟨b, hup, rfl⟩ := Option.map_eq_some_iff.1 he
      rcases eq_or_ne k fd with rfl | hk
      · obtain ⟨up', hup⟩ := List.head?_eq_some_iff.1 hup
        have htaken : n.taken (.serverReads k w) k = { n.channel k with up := up' } := by
          rw [taken, Function.update_self, hup, List.tail_cons]
        rw [htaken] at hstation
        dsimp only
        rw [htaken]
        have htouched := htouch k s hstation
        refine htouched.serve (hcmds k) (hobey k)
          (MainObject.closed_of_read hs (hup ▸ htouched.closed)) fun hbye => ?_
        rw [hup] at hbye
        exact (MainObject.lineOf_of_read hcontrols.links hcontrols.worded hsafe hs hbye).imp_right
          hnone
      · exact hother k s (Function.update_of_ne hk ..) (fun _ => if_neg (Ne.symm hk))
          (by rwa [taken, Function.update_of_ne hk] at hstation)
  | socketKill fd w | zombieData w | pingTimerData w =>
      obtain rfl := Option.some.inj he
      exact hother k s rfl (fun _ => rfl) hstation
  | clientReads | clientActs | writes | leaves => cases he

/-- The two ends still agree after every step. -/
theorem Agrees.step (h : Agrees n) (hP : Sound n e) (hs : n.step env lib e = some (n', out)) :
    Agrees n' := by
  unfold Network.step at hs
  split at hs
  · next e' he =>
      obtain ⟨⟨server, sent⟩, hserver, heq⟩ := Option.map_eq_some_iff.1 hs
      obtain rfl := (Prod.mk.inj heq).1
      exact h.serve hP he hserver
  · obtain ⟨n₁, hclient, heq⟩ := Option.map_eq_some_iff.1 hs
    obtain rfl := (Prod.mk.inj heq).1
    exact h.clientStep hP.client hclient

variable {db : Database} {es : List Event} {tr : List Unit}

/-- The two ends agree in every run. -/
theorem agrees_of_runs (h : Runs (step env lib) Sound (start db) es n tr) : Agrees n :=
  h.invariant (agrees_start db) fun _ _ _ _ hn hP hs => hn.step hP hs

/-- The client `s` is connected on `k`, and nothing is under way between it and the server. -/
structure Settled (n : Network) (k : Int) (s : Station) : Prop where
  station : (n.channel k).station = some s
  up : (n.channel k).up = []
  down : (n.channel k).down = []

/-- A client between which and the server nothing is under way plays what it has been told to. -/
theorem InTouch.settled {told : Option MediaStart} {line : QString} {c : Channel} {s : Station}
    (h : InTouch told line c s) (hline : '!' ∉ line) (hup : c.up = []) (hdown : c.down = []) :
    s.playing = told := by
  obtain ⟨cmds, hholds, -, hin⟩ := h.inStep
  rw [hdown] at hholds
  obtain ⟨-, rfl⟩ := hholds.done
  refine hin.agree ?_
  rw [hup, List.append_nil]
  rintro ⟨pre, post, rfl, -⟩
  exact hline (by simp)

/-- A settled client plays what it has been told to. -/
theorem Settled.playing {told : Int → Option MediaStart} {k : Int} {s : Station}
    (hs : Settled n k s) (hcontrols : MainObject.Controls n.server told)
    (htouch : InTouch (told k) (n.server.lineOf k) (n.channel k) s) : s.playing = told k := by
  refine htouch.settled ?_ hs.up hs.down
  unfold MainObject.lineOf
  cases hc : n.server.conn k with
  | none => exact List.not_mem_nil
  | some c => exact (hcontrols.worded k c hc).line

/-- A settled client has a call if and only if the server has it in one. -/
theorem Agrees.busy_iff {k : Int} {s : Station} (h : Agrees n) (hs : Settled n k s) :
    s.net_codec.connectionState ≠ .idle ↔
      ∃ c, n.server.conn k = some c ∧ 0 ≤ c.connectionFd := by
  obtain ⟨told, hcontrols, htouch⟩ := h
  rw [← hcontrols.tells.linked, ne_eq, ← Station.playing_eq_none,
    hs.playing hcontrols (htouch k s hs.station), Option.isSome_iff_ne_none]

/-- A client as it starts, with its settings as they are by default. -/
def demoStation (name : QString) : Station where
  build := ⟨true, "1"⟩
  net_control := { conn_username := name, conn_password := "secret", address := ⟨7⟩ }
  net_settings := { set_format := fun _ => .layer3 }

def demoLibraries : Libraries := ⟨fun _ => false, true⟩

/-- The server reads the next `n` bytes from `fd`. -/
def served (fd : Int) (n : Nat) : List Event := List.replicate n (.serverReads fd { now := 0 })

/-- The client on `fd` reads the next `n` bytes. -/
def heard (fd : Int) (n : Nat) : List Event := List.replicate n (.clientReads fd {})

/-- A client connects and logs in. -/
def logsIn (fd : Int) (name : QString) : List Event :=
  .connects fd ⟨fd.toNat⟩ (some (demoStation name)) { now := 0 } :: served fd (15 + name.length) ++
    heard fd 36 ++ served fd 36 ++ heard fd 7

/-- Alice calls Bob, and the server puts the call through. -/
def demoCall : List Event :=
  logsIn 5 "alice" ++ logsIn 6 "bob" ++ .clientActs 5 (.connectClickedData "bob") :: served 5 31

/-- No control message is under way. -/
def Quiet (n : Network) : Prop :=
  ∀ x ∈ n.server.sip_connections.toList, (n.channel x.1).up = [] ∧ (n.channel x.1).down = []

instance (n : Network) : Decidable n.Quiet :=
  inferInstanceAs (Decidable (∀ x ∈ n.server.sip_connections.toList, _))

/-- Server and clients agree on who is in a call. -/
def CallsAgree (n : Network) : Prop :=
  ∀ fd s c, (n.channel fd).station = some s → n.server.conn fd = some c →
    c.isAuthenticated = true → (0 ≤ c.connectionFd ↔ s.net_codec.connectionState ≠ .idle)

/-- In every run whose steps are sound, server and clients agree on who is in a call whenever no
control message is under way. -/
theorem callsAgree_of_runs (h : Runs (step env lib) Sound (start db) es n tr) (hquiet : n.Quiet) :
    n.CallsAgree := by
  intro fd s c hstation hc _
  obtain ⟨hup, hdown⟩ := hquiet (fd, c) (MainObject.mem_toList.2 hc)
  rw [(agrees_of_runs h).busy_iff ⟨hstation, hup, hdown⟩, hc]
  constructor
  · exact fun hlink => ⟨c, rfl, hlink⟩
  · rintro ⟨c', hc', hlink⟩
    rwa [Option.some.inj hc']

/-- A call that ends behind the server's back is one that the server keeps. -/
theorem linked_of_behindBack {fd : Int} {s : Station} {a : Station.Act} (h : Agrees n)
    (hs : Settled n fd s) (hbusy : s.net_codec.connectionState ≠ .idle) (ha : a.behindBack = true)
    (hstep : n.step env lib (.clientActs fd a) = some (n', out)) :
    ∃ s' c, Settled n' fd s' ∧ s'.net_codec.connectionState = .idle ∧
      n'.server.conn fd = some c ∧ 0 ≤ c.connectionFd := by
  obtain ⟨c, hc, hlink⟩ := (h.busy_iff hs).1 hbusy
  obtain ⟨n₁, hclient, heq⟩ := Option.map_eq_some_iff.1 hstep
  obtain rfl := (Prod.mk.inj heq).1
  obtain ⟨s₀, hstation, hclient⟩ := Option.bind_eq_some_iff.1 hclient
  obtain rfl := Option.some.inj (hstation.symm.trans hs.station)
  obtain ⟨s', hact, hclient⟩ := Option.bind_eq_some_iff.1 hclient
  obtain rfl := Option.some.inj hclient
  obtain ⟨hsends, hidle⟩ := Station.act_behindBack ha hact
  have hsent : s'.net_control.sent = [] := hsends.sent
  refine ⟨s', c, ⟨?_, ?_, ?_⟩, hidle, hc, hlink⟩
  · rw [channel_set, if_pos rfl, Channel.hear]
  · rw [channel_set, if_pos rfl, Channel.hear, hsent, hs.up]
    rfl
  · rw [channel_set, if_pos rfl, Channel.hear, hs.down]

/-- Alice and Bob have been told of their call. -/
def demoTalk : List Event := demoCall ++ heard 5 99 ++ heard 6 95

/-- Alice hangs up, and the `BYE` of her codec reaches Bob before his `MS` does. -/
def demoHangUp : List Event :=
  .clientActs 5 (.connectClickedData "") :: served 5 3 ++ heard 5 3 ++
    .clientActs 6 .bye :: heard 6 3

/-- A call, and its end, which Bob's codec learns of before his control connection does. -/
theorem callsAgree_of_runs_demo : ∃ n tr n' tr',
    Runs (step demoEnv demoLibraries) Sound (start demoDb) demoTalk n tr ∧ n.Quiet ∧
    (∃ c, n.server.conn 5 = some c ∧ c.isAuthenticated = true ∧ c.connectionFd = 6) ∧
    n.CallsAgree ∧
    Runs (step demoEnv demoLibraries) Sound (start demoDb) (demoTalk ++ demoHangUp) n' tr' ∧
    n'.Quiet ∧ n'.CallsAgree := by
  have htalk : (run (step demoEnv demoLibraries) Sound (start demoDb) demoTalk).any fun x =>
      x.1.Quiet ∧ (x.1.server.conn 5).any fun c => c.isAuthenticated ∧ c.connectionFd = 6 := by
    decide +kernel
  have hend : (run (step demoEnv demoLibraries) Sound (start demoDb)
      (demoTalk ++ demoHangUp)).any fun x => x.1.Quiet := by
    decide +kernel
  obtain ⟨⟨n, tr⟩, hrun, h⟩ := (Option.any_eq_true _ _).1 htalk
  obtain ⟨⟨n', tr'⟩, hrun', h'⟩ := (Option.any_eq_true _ _).1 hend
  obtain ⟨hquiet, hc⟩ := of_decide_eq_true h
  obtain ⟨c, hc, hcall⟩ := (Option.any_eq_true _ _).1 hc
  have hquiet' : n'.Quiet := of_decide_eq_true h'
  exact ⟨n, tr, n', tr', runs_of_run hrun, hquiet, ⟨c, hc, of_decide_eq_true hcall⟩,
    callsAgree_of_runs (runs_of_run hrun) hquiet, runs_of_run hrun', hquiet',
    callsAgree_of_runs (runs_of_run hrun') hquiet'⟩

/-- Alice's codec finds Bob's stream and loses it again, and its timeout ends the call. -/
def demoSilence : List Event :=
  [.clientActs 5 (.audio true), .clientActs 5 .meterData, .clientActs 5 (.audio false),
    .clientActs 5 .meterData, .clientActs 5 .timeoutData]

/-- The server is not told of the timeout, and keeps both ends in the call. -/
theorem callsAgree_needs_sound : ¬ ∀ (env : Env) (lib : Libraries) (db : Database) es n tr,
    Runs (step env lib) Always (start db) es n tr → n.Quiet → n.CallsAgree := by
  intro h
  have hrun : (run (step demoEnv demoLibraries) Always (start demoDb)
      (demoTalk ++ demoSilence)).any fun x => x.1.Quiet ∧
        ((x.1.channel 5).station.any fun s => s.net_codec.connectionState = .idle) ∧
        (x.1.server.conn 5).any fun c => c.isAuthenticated ∧ c.connectionFd = 6 := by
    decide +kernel
  obtain ⟨⟨n, tr⟩, hrun, hend⟩ := (Option.any_eq_true _ _).1 hrun
  obtain ⟨hquiet, hs, hc⟩ := of_decide_eq_true hend
  obtain ⟨s, hs, hidle⟩ := (Option.any_eq_true _ _).1 hs
  obtain ⟨c, hc, hcall⟩ := (Option.any_eq_true _ _).1 hc
  obtain ⟨hauth, hlink⟩ := of_decide_eq_true hcall
  have hagree := h demoEnv demoLibraries demoDb _ n tr (runs_of_run hrun) hquiet 5 s c hs hc hauth
  exact hagree.1 (by omega) (of_decide_eq_true hidle)

/-- **No call is missed.** In every run whose steps are sound, a client that is about to take an
`ME` has no call, so that `connectToHost` does not ignore it. -/
theorem idle_of_offered (h : Runs (step env lib) Sound (start db) es n tr) {k : Int} {s : Station}
    {m : MediaStart} (hs : (n.channel k).station = some s)
    (hmark : (n.channel k).down.head? = some '!')
    (hoffered : s.offered = some m) : s.net_codec.connectionState = .idle := by
  obtain ⟨told, -, htouch⟩ := agrees_of_runs h
  obtain ⟨cmds, hholds, -, hin⟩ := (htouch k s hs).inStep
  obtain ⟨down', hdown⟩ := List.head?_eq_some_iff.1 hmark
  rw [hdown] at hholds
  obtain ⟨cmds', rfl, -⟩ := hholds.complete
  have hon : instruction (split ' ' s.net_control.conn_cmdline) = some (.on m) := by
    unfold Station.offered at hoffered
    split at hoffered
    · next h => rw [h, Option.some.inj hoffered]
    · cases hoffered
    · cases hoffered
  rw [instructionsIn_cons, instructionOf, List.dropLast_concat, hon] at hin
  obtain ⟨d', hd', -⟩ := hin.obey
  refine Station.playing_eq_none.1 ?_
  cases hd : s.playing with
  | none => rfl
  | some m' =>
      rw [hd] at hd'
      cases hd'

/-- Alice's client has read all but the last byte of the `ME` that puts her through to Bob. -/
theorem idle_of_offered_demo : ∃ n tr s m,
    Runs (step demoEnv demoLibraries) Sound (start demoDb) (demoCall ++ heard 5 50) n tr ∧
    (n.channel 5).station = some s ∧ s.offered = some m ∧ s.net_codec.connectionState = .idle := by
  have hrun : (run (step demoEnv demoLibraries) Sound (start demoDb) (demoCall ++ heard 5 50)).any
      fun x => (x.1.channel 5).down.head? = some '!' ∧
        (x.1.channel 5).station.any (·.offered.isSome) := by
    decide +kernel
  obtain ⟨⟨n, tr⟩, hrun, hend⟩ := (Option.any_eq_true _ _).1 hrun
  obtain ⟨hmark, hs⟩ := of_decide_eq_true hend
  obtain ⟨s, hs, hoffered⟩ := (Option.any_eq_true _ _).1 hs
  obtain ⟨m, hm⟩ := Option.isSome_iff_exists.1 hoffered
  have hruns := runs_of_run hrun
  exact ⟨n, tr, s, m, hruns, hs, hm, idle_of_offered hruns hs hmark hm⟩

end Network

end NetISDN
