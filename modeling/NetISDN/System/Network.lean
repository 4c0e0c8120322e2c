import NetISDN.System.Station
import NetISDN.System.Told

/-!
# The server, its clients and what is under way

One `netsipd` and the programs that are connected to it, joined by channels that lose nothing and
keep the order of their bytes. Whoever is connected reads and writes a byte at a time, in any order:
the server reads from any of its connections, a client from its own, and neither knows how far the
other has come. A program that is not a client of ours may be connected, too, and writes what it
likes.
-/

namespace NetISDN

open ControlConnect Framing

/-! ## The bytes of a command -/

/-- What stands in a command line after a slot. -/
def Slot.lineAfter (k : Int) (line : QString) : Slot → QString
  | .newConnection fd _ => if fd = k then [] else line
  | .socketReady fd b => if fd = k then if b = '!' then [] else line ++ [b] else line
  | .socketKill _ | .zombieData | .pingTimerData => line

namespace MainObject

variable {env : Env} {s s' : MainObject} {e : Event} {k fd : Int} {c c' : SipConnection}
  {out : List Output} {told : Int → Option MediaStart}

/-- What the server has read of a command from `k`. -/
def lineOf (s : MainObject) (k : Int) : QString := ((s.conn k).map SipConnection.cmdline).getD []

/-- The line of a connection is what it has sent of a command. -/
theorem lineOf_of_conn (hc : s.conn k = some c) : s.lineOf k = c.cmdline := by
  rw [lineOf, hc]
  rfl

/-- The line of a connection is stable. -/
theorem stable_line (line : QString) : SipConnection.Stable fun c => c.cmdline = line :=
  ⟨fun _ _ h => h, fun _ _ h => h, fun _ _ h => h, fun _ h => h, fun _ h => h, fun _ h => h⟩

/-- Only what a connection sends itself gets into its command line. -/
theorem transition_line (h : Transition env e.world s e.slot s') (hc : s'.conn k = some c') :
    c'.cmdline = e.slot.lineAfter k (s.lineOf k) := by
  have hsame : AllConns (fun k c => c.cmdline = s.lineOf k) s := fun _ _ hc =>
    (lineOf_of_conn hc).symm
  obtain ⟨slot, w⟩ := e
  cases h with
  | @newConnection fd peer =>
      rw [conn_insertConn] at hc
      rw [Slot.lineAfter]
      split at hc
      · next hk =>
          obtain rfl := Option.some.inj hc
          rw [if_pos hk]
      · next hk =>
          rw [if_neg hk]
          exact hsame k c' hc
  | @byte fd b _ hb =>
      rw [conn_modifyConn] at hc
      rw [Slot.lineAfter, if_neg hb]
      split at hc
      · next hk =>
          obtain ⟨c₀, hc₀, rfl⟩ := Option.map_eq_some_iff.1 hc
          rw [if_pos hk, lineOf_of_conn hc₀]
          rfl
      · next hk =>
          rw [if_neg hk]
          exact hsame k c' hc
  | @command fd c _ hfd ho =>
      have htaken : AllConns (fun k c => c.cmdline = if fd = k then [] else s.lineOf k)
          (s.takeLine fd) := by
        intro k x hx
        rw [takeLine, conn_modifyConn] at hx
        split at hx
        · next hk =>
            obtain ⟨c, hc, rfl⟩ := Option.map_eq_some_iff.1 hx
            rw [if_pos hk]
            rfl
        · next hk =>
            rw [if_neg hk]
            exact hsame k x hx
      have hfd' : (s.takeLine fd).conn fd = some c.clearLine := by
        rw [takeLine, conn_modifyConn, if_pos rfl, hfd, Option.map_some]
      exact htaken.outcome (fun _ => stable_line _) hfd' (fun u _ x hx => hx) (fun _ x hx =>
        hx) ho k c' hc
  | socketKill hfd hkill => exact hsame.socketKill (fun _ => stable_line _) hfd hkill k c' hc
  | zombieData =>
      rw [(zombieData_spec s).1] at hc
      exact hsame k c' (Option.filter_eq_some_iff.1 hc).1
  | pingTimerData hsweep => exact hsame.pingTimerData (fun _ => stable_line _) hsweep k c' hc

/-- The command line of a connection after a step. -/
theorem step_line (hs : step env s e = some (s', out)) (hc : s'.conn k = some c') :
    s'.lineOf k = e.slot.lineAfter k (s.lineOf k) := by
  obtain ⟨s₁, htr, rfl, -⟩ := step_transition hs
  rw [lineOf_of_conn hc]
  exact transition_line (s := s.flush) htr hc

/-- Whoever says good-bye is in no call then. -/
theorem step_bye (h : LinkInv s) (hP : LinkSafe s e) (hs : step env s e = some (s', out))
    (hslot : e.slot = .socketReady fd '!') (hline : s.lineOf fd = "BY".toList)
    (hc : s'.conn fd = some c') : c'.connectionFd < 0 := by
  obtain ⟨b, hR⟩ := h.1
  have hsafe := h.callSafe hP hs
  obtain ⟨s₁, htr, rfl, -⟩ := step_transition hs
  obtain ⟨slot, w⟩ := e
  obtain rfl : slot = .socketReady fd '!' := hslot
  cases htr with
  | byte hb => exact absurd rfl hb
  | @command fd c _ hfd ho =>
      have hfd' : s.conn fd = some c := hfd
      have htokens : tokens c = ["BY".toList] := by
        rw [tokens, ← lineOf_of_conn hfd', hline]
        decide
      have hrec := received_eq (e := ⟨.socketReady fd '!', w⟩) rfl hfd'
      rw [htokens] at hrec ho
      have hname : QStringList.at ["BY".toList] 0 = "BY" := rfl
      cases hauth : c.isAuthenticated with
      | true =>
          refine step_ends hR hsafe hs (.inl ?_) hc
          rw [saysBye, hrec]
          exact if_pos ⟨hauth, rfl⟩
      | false =>
          have hcode : (s.takeLine fd).killCode fd c.clearLine ["BY".toList] =
              some .authenticationNeeded := by
            rw [killCode, if_neg (by decide), if_neg (by decide), if_pos (by simpa using hauth)]
          cases hz : c.zombie with
          | false =>
              refine step_ends hR hsafe hs (.inr (.inl ?_)) hc
              exact killed_eq_some.2 (.inr ⟨c.clearLine, _, _, hrec, hz, hcode⟩)
          | true =>
              -- a zombie is in no call, and is not killed again
              have hfree := h.2 fd c hfd' hz
              cases ho with
              | @kill code _ _ hkill =>
                  have hsent : ((s.flush.takeLine fd).sendCommand fd (erCommand code)).conn fd =
                      some c.clearLine := by
                    rw [conn_sendCommand, takeLine, conn_modifyConn, if_pos rfl, hfd,
                      Option.map_some]
                  rcases socketKill_spec hsent hkill with ⟨-, rfl⟩ | ⟨hlive, -⟩
                  · obtain rfl := Option.some.inj (hsent.symm.trans hc)
                    exact hfree
                  · rw [SipConnection.clearLine, hz] at hlive
                    cases hlive
              | stranger h0 => exact absurd h0 (by decide)
              | identify hu => exact absurd hu (by simp [namedUser])
              | accept h0 => exact absurd h0 (by decide)
              | setup hd =>
                  obtain ⟨⟨-, hauth', -⟩, -⟩ := callee_spec hd
                  cases hauth.symm.trans hauth'
              | refuse hauth' | bye _ hauth' | forward _ hauth' | mute hauth' | metadata _ hauth'
              | ping _ hauth' => cases hauth.symm.trans hauth'

/-- What stands in the command line of `k` if its channel is not what the server reads from. -/
theorem lineOf_of_other (hs : step env s e = some (s', out))
    (hslot : ∀ line, e.slot.lineAfter k line = line) :
    s'.lineOf k = s.lineOf k ∨ s'.conn k = none := by
  cases hc : s'.conn k with
  | none => exact .inr rfl
  | some c' => exact .inl ((step_line hs hc).trans (hslot _))

/-- The server reads up to a mark, or the mark is still to come. -/
theorem closed_of_read {b : Char} {w : World} {up : QString}
    (hs : step env s ⟨.socketReady fd b, w⟩ = some (s', out))
    (hclosed : Framing.Closed '!' (s.lineOf fd ++ b :: up)) :
    Framing.Closed '!' (s'.lineOf fd ++ up) := by
  have hrest : Framing.Closed '!' up := (List.append_cons (s.lineOf fd) b up ▸ hclosed).tail
  cases hc : s'.conn fd with
  | none =>
      have hempty : s'.lineOf fd = [] := by rw [lineOf, hc]; rfl
      rwa [hempty]
  | some c' =>
      rw [step_line hs hc, Slot.lineAfter, if_pos rfl]
      split
      · exact hrest
      · rwa [List.append_assoc]

/-- A new connection is in no call, and nothing is sent. -/
theorem step_newConnection {peer : QHostAddress} {w : World}
    (hs : step env s ⟨.newConnection fd peer, w⟩ = some (s', out)) :
    s'.conn fd = some { peerAddress := peer, pingTimestamp := w.now } ∧ out = [] := by
  obtain ⟨s₁, htr, rfl, rfl⟩ := step_transition hs
  cases htr with
  | newConnection => exact ⟨conn_insertConn.trans (if_pos rfl), rfl⟩

/-- What the server does not read stays in the channel. A good-bye ends the call once it has been
read. -/
theorem lineOf_of_read {b : Char} {w : World} {up : QString} (h : LinkInv s)
    (hworded : AllConns Worded s) (hP : LinkSafe s ⟨.socketReady fd b, w⟩)
    (hs : step env s ⟨.socketReady fd b, w⟩ = some (s', out))
    (hbye : Contains '!' "BY!".toList (s.lineOf fd ++ b :: up)) :
    Contains '!' "BY!".toList (s'.lineOf fd ++ up) ∨
      ∀ c', s'.conn fd = some c' → c'.connectionFd < 0 := by
  cases hc : s'.conn fd with
  | none => exact .inr fun _ hc' => nomatch hc'
  | some c' =>
      have hline := step_line hs hc
      rw [Slot.lineAfter, if_pos rfl] at hline
      by_cases hb : b = '!'
      · subst hb
        rw [if_pos rfl] at hline
        have hmark : '!' ∉ s.lineOf fd := by
          unfold lineOf
          cases hfd : s.conn fd with
          | none => exact List.not_mem_nil
          | some c => exact (hworded fd c hfd).line
        rcases hbye.complete ⟨"BY".toList, rfl, by decide⟩ hmark with hby | hlater
        · have hby : s.lineOf fd = "BY".toList := (List.append_cancel_right hby).symm
          exact .inr fun x hx => step_bye h hP hs rfl hby (hc.trans hx)
        · exact .inl (by rwa [hline])
      · rw [if_neg hb] at hline
        rw [hline, List.append_assoc]
        exact .inl hbye

end MainObject

/-! ## The network -/

/-- The channel of a connection: what is under way to the server, what is under way from it, and the
client, if it is one of ours. -/
structure Channel where
  station : Option Station := none
  up : QString := []
  down : QString := []

/-- The server and its channels, by the descriptors that the server has for them. -/
structure Network where
  server : MainObject
  channel : Int → Channel := fun _ => {}

/-- What the client has written comes into its channel. -/
def Channel.hear (c : Channel) (s : Station) : Channel :=
  { c with
    station := some s
    up := c.up ++ s.net_control.sent.flatten }

/-- What the server has sent comes into the channel. -/
def Channel.receive (c : Channel) (cmds : List QString) : Channel :=
  { c with down := c.down ++ cmds.flatten }

/-- The channel of a connection that has just been made. A client logs in. -/
def Channel.opened : Option Station → Channel
  | none => {}
  | some s => ({} : Channel).hear
      { s.flush with net_control := s.flush.net_control.connectedData s.build }

namespace Network

/-- What happens in the network. Who connects is a client, or another program. Of a client that
leaves, what it has sent before may still arrive. -/
inductive Event where
  | connects (fd : Int) (peer : QHostAddress) (client : Option Station) (w : World)
  | serverReads (fd : Int) (w : World)
  | socketKill (fd : Int) (w : World)
  | zombieData (w : World)
  | pingTimerData (w : World)
  | clientReads (fd : Int) (w : Surroundings)
  | clientActs (fd : Int) (a : Station.Act)
  | writes (fd : Int) (text : QString)
  | leaves (fd : Int)

/-- The slot of the server that an event calls, if it does. -/
def serves (n : Network) : Event → Option NetISDN.Event
  | .connects fd peer _ w => some ⟨.newConnection fd peer, w⟩
  | .serverReads fd w => (n.channel fd).up.head?.map fun b => ⟨.socketReady fd b, w⟩
  | .socketKill fd w => some ⟨.socketKill fd, w⟩
  | .zombieData w => some ⟨.zombieData, w⟩
  | .pingTimerData w => some ⟨.pingTimerData, w⟩
  | .clientReads _ _ | .clientActs _ _ | .writes _ _ | .leaves _ => none

/-- The channels once the server has taken what the event lets it have. -/
def taken (n : Network) : Event → Int → Channel
  | .connects fd _ client _ => Function.update n.channel fd (.opened client)
  | .serverReads fd _ =>
      Function.update n.channel fd { n.channel fd with up := (n.channel fd).up.tail }
  | .socketKill _ _ | .zombieData _ | .pingTimerData _ | .clientReads _ _ | .clientActs _ _
  | .writes _ _
  | .leaves _ => n.channel

/-- The channel of `fd` becomes `c`. -/
def set (n : Network) (fd : Int) (c : Channel) : Network :=
  { n with channel := Function.update n.channel fd c }

@[simp] theorem server_set (n : Network) (fd : Int) (c : Channel) :
    (n.set fd c).server = n.server := rfl

/-- A channel that is set, and the others. -/
theorem channel_set (n : Network) (fd k : Int) (c : Channel) :
    (n.set fd c).channel k = if k = fd then c else n.channel k := Function.update_apply ..

variable (env : Env) (lib : Libraries)

/-- What a client does with an event. -/
def clientStep (n : Network) : Event → Option Network
  | .clientReads fd w => do
      let s ← (n.channel fd).station
      let byte ← (n.channel fd).down.head?
      let s ← s.flush.readByte lib w env byte
      return n.set fd ({ n.channel fd with down := (n.channel fd).down.tail }.hear s)
  | .clientActs fd a => do
      let s ← (n.channel fd).station
      let s ← s.flush.act lib a
      return n.set fd ((n.channel fd).hear s)
  | .writes fd text =>
      if (n.channel fd).station.isNone then
        some (n.set fd { n.channel fd with up := (n.channel fd).up ++ text })
      else none
  | .leaves fd => some (n.set fd { up := (n.channel fd).up })
  | _ => none

/-- A step of the network. What the server sends comes into the channels. -/
def step (n : Network) (e : Event) : Option (Network × List Unit) :=
  match n.serves e with
  | some e' => (MainObject.step env n.server e').map fun x =>
      (⟨x.1, fun k => (n.taken e k).receive (commandsTo k x.2)⟩, [])
  | none => (n.clientStep env lib e).map fun n' => (n', [])

/-- The network as it starts: nobody is connected. -/
def start (db : Database) : Network := { server := .start db }

end Network

end NetISDN
