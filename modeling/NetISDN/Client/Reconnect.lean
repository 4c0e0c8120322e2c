import Mathlib.Data.List.DropRight
import NetISDN.Client.ControlConnect

/-!
# Control connections one after the other

A client that loses its control connection opens another one. What it has received of a command by
then stays in `conn_cmdline`, which nothing clears, so the commands of the new connection are cut
from the text that begins with it. They are the commands that arrive there if and only if what has
stayed is spaces, or no command arrives (`parsedAfresh_iff`).
-/

namespace NetISDN

/-! ## Commands of a text -/

section
variable {text line r t : QString} {sep c : Char}

/-- What stands behind the last command of a text. -/
def unfinished (text : QString) : QString := text.rtakeWhile (· ≠ '!')

/-- The tokens of the commands of a text, those with no token left out. -/
def commandsOf (text : QString) : List QStringList :=
  ((frames text).map (split ' ')).filter (· ≠ [])

/-- Without a mark there is no line. -/
theorem frames_of_not_mem (h : '!' ∉ text) : frames text = [] := by
  rw [frames, List.splitOn_eq_singleton h]
  rfl

/-- The first mark ends the first line. -/
theorem frames_append_cons (h : '!' ∉ line) :
    frames (line ++ '!' :: text) = line :: frames text := by
  rw [frames, List.splitOn_append_cons_self_of_not_mem h,
    List.dropLast_cons_of_ne_nil (List.splitOn_ne_nil _ _)]
  rfl

/-- What is not finished stands behind the last command. -/
theorem unfinished_append_cons (line text : QString) :
    unfinished (line ++ '!' :: text) = unfinished text := by
  have hstop : ('!' :: line.reverse).takeWhile (· ≠ '!') = [] :=
    List.takeWhile_cons_of_neg (by simp)
  rw [unfinished, unfinished, List.rtakeWhile, List.rtakeWhile, List.reverse_append,
    List.reverse_cons, List.append_assoc, List.singleton_append, List.takeWhile_append, hstop,
    List.append_nil]
  split
  · next hall => rw [(List.takeWhile_sublist _).eq_of_length hall]
  · rfl

/-- What stands in front of an unfinished command does not matter. -/
theorem unfinished_unfinished_append (line text : QString) :
    unfinished (unfinished line ++ text) = unfinished (line ++ text) := by
  rw [unfinished, unfinished, unfinished, List.rtakeWhile, List.rtakeWhile, List.rtakeWhile,
    List.reverse_append, List.reverse_append, List.reverse_reverse, List.takeWhile_append,
    List.takeWhile_append, List.takeWhile_idem]

/-- Without an end there is no command, and all of the text is unfinished. -/
theorem unfinished_of_not_mem (h : '!' ∉ text) : unfinished text = text :=
  List.rtakeWhile_eq_self_iff.2 fun _ hc => decide_eq_true fun heq => h (heq ▸ hc)

/-- What is left has no mark. -/
theorem not_mem_unfinished : '!' ∉ unfinished text := by
  intro h
  rw [unfinished, List.rtakeWhile, List.mem_reverse] at h
  exact absurd (List.mem_takeWhile_imp h) (by decide)

/-- A separator in front makes no difference. -/
theorem split_cons_sep : split sep (sep :: t) = split sep t := by
  rw [split, List.splitOn_cons_eq_if_modifyHead, if_pos (beq_self_eq_true sep)]
  rfl

/-- A symbol in front of the first part is in front of the whole. -/
theorem flatten_modifyHead_cons {l : List QString} (h : l ≠ []) :
    (l.modifyHead (List.cons c)).flatten = c :: l.flatten := by
  cases l with
  | nil => exact absurd rfl h
  | cons => rfl

/-- Splitting drops the separators and nothing else. -/
theorem flatten_split (t : QString) : (split sep t).flatten = t.filter (· ≠ sep) := by
  have hfilter (l : List QString) : (l.filter (· ≠ [])).flatten = l.flatten := by
    induction l with
    | nil => rfl
    | cons s l ih =>
        rw [List.filter_cons]
        split
        · rw [List.flatten_cons, List.flatten_cons, ih]
        · next hnil =>
            have hnil : s = [] := by simpa using hnil
            rw [ih, hnil]
            rfl
  rw [split, hfilter]
  induction t with
  | nil => rfl
  | cons c t ih =>
      rw [List.splitOn_cons_eq_if_modifyHead, List.filter_cons]
      by_cases hc : c = sep
      · simp [hc, ih]
      · simp [hc, flatten_modifyHead_cons (List.splitOn_ne_nil sep t), ih]

/-- Spaces in front of a command do not matter. -/
theorem split_append_of_spaces (h : ∀ c ∈ r, c = sep) : split sep (r ++ t) = split sep t := by
  induction r with
  | nil => rfl
  | cons c r ih =>
      obtain ⟨rfl, hr⟩ := List.forall_mem_cons.1 h
      rw [List.cons_append, split_cons_sep, ih hr]

/-- What stands in front of a command does not matter only if it is spaces. -/
theorem split_append_eq_iff : split sep (r ++ t) = split sep t ↔ ∀ c ∈ r, c = sep := by
  refine ⟨fun h => ?_, split_append_of_spaces⟩
  have hflat := congrArg List.flatten h
  rw [flatten_split, flatten_split, List.filter_append] at hflat
  have hnil := List.append_cancel_right (hflat.trans (List.nil_append _).symm)
  intro c hc
  by_contra hne
  exact List.filter_eq_nil_iff.1 hnil c hc (decide_eq_true hne)

/-- Without a mark there is no command. -/
theorem commandsOf_of_not_mem (h : '!' ∉ text) : commandsOf text = [] := by
  rw [commandsOf, frames_of_not_mem h]
  rfl

/-- The tokens of a command, if there are any. -/
def commandOf (line : QString) : List QStringList := [split ' ' line].filter (· ≠ [])

/-- The first mark ends the first command. -/
theorem commandsOf_append_cons (h : '!' ∉ line) :
    commandsOf (line ++ '!' :: text) = commandOf line ++ commandsOf text := by
  rw [commandsOf, frames_append_cons h, List.map_cons, ← List.singleton_append, List.filter_append]
  rfl

/-- A command tells its tokens. -/
theorem commandOf_inj (h : commandOf line = commandOf t) : split ' ' line = split ' ' t := by
  rw [commandOf, commandOf] at h
  by_cases hline : split ' ' line = []
  · by_cases ht : split ' ' t = []
    · rw [hline, ht]
    · simp [hline, ht] at h
  · by_cases ht : split ' ' t = []
    · simp [hline, ht] at h
    · simpa [hline, ht] using h

/-- Text in front of a text leaves its commands as they are if and only if it is spaces, or there
are no commands. -/
theorem commandsOf_append_iff (hr : '!' ∉ r) :
    commandsOf (r ++ text) = commandsOf text ↔ (∀ c ∈ r, c = ' ') ∨ '!' ∉ text := by
  by_cases hmem : '!' ∈ text
  · obtain ⟨line, rest, rfl, hline⟩ := List.eq_append_cons_of_mem hmem
    have happend : '!' ∉ r ++ line := fun h => (List.mem_append.1 h).elim hr hline
    rw [← List.append_assoc, commandsOf_append_cons happend, commandsOf_append_cons hline,
      ← split_append_eq_iff (t := line)]
    refine ⟨fun h => .inl (commandOf_inj (List.append_cancel_right h)), ?_⟩
    rintro (h | h)
    · rw [commandOf, h, commandOf]
    · exact absurd hmem h
  · have happend : '!' ∉ r ++ text := fun h => (List.mem_append.1 h).elim hr hmem
    rw [commandsOf_of_not_mem happend, commandsOf_of_not_mem hmem]
    exact ⟨fun _ => .inr hmem, fun _ => rfl⟩

end

namespace ControlConnect

variable {env : Env} {b : Build} {c : ControlConnect} {cmds : QStringList}

/-! ## What is dispatched -/

/-- The command that `ParseCommand` passes on, if it has tokens. -/
def parsed (c : ControlConnect) : List QStringList :=
  let cmds := split ' ' c.conn_cmdline
  if cmds.length < 1 then [] else [cmds]

/-- The commands that are passed on while bytes are read. -/
def dispatched (env : Env) (b : Build) (c : ControlConnect) : QString → List QStringList
  | [] => []
  | byte :: bytes =>
      (if byte = '!' then c.parsed else []) ++ dispatched env b (c.readByte env b byte) bytes

/-- What is parsed of a connection is what its line says. -/
theorem parsed_eq (c : ControlConnect) : c.parsed = commandOf c.conn_cmdline := by
  rw [parsed, commandOf]
  cases split ' ' c.conn_cmdline <;> rfl

section
variable (c) (cmds)

/-- A challenge leaves the line. -/
theorem conn_cmdline_challenge : (c.challenge env cmds).conn_cmdline = c.conn_cmdline := by
  unfold challenge
  split <;> rfl

/-- `Login` leaves the line. -/
theorem conn_cmdline_login : (c.login cmds).conn_cmdline = c.conn_cmdline := by
  unfold login
  split
  · rfl
  · split <;> rfl

/-- `Response` leaves the line. -/
theorem conn_cmdline_response : (c.response cmds).conn_cmdline = c.conn_cmdline := by
  unfold response
  split <;> rfl

/-- `MediaStart` leaves the line. -/
theorem conn_cmdline_mediaStart : (c.mediaStart b cmds).conn_cmdline = c.conn_cmdline := by
  unfold mediaStart
  split
  · rfl
  · dsimp only
    split
    · rfl
    · split
      · split <;> rfl
      · rfl

/-- `Metadata` leaves the line. -/
theorem conn_cmdline_metadata : (c.metadata cmds).conn_cmdline = c.conn_cmdline := by
  unfold metadata
  split <;> rfl

/-- `CodeBook` leaves the line. -/
theorem conn_cmdline_codeBook : (c.codeBook cmds).conn_cmdline = c.conn_cmdline := by
  unfold codeBook
  split <;> rfl

/-- A command does not change what is kept of the next one. -/
theorem conn_cmdline_dispatch : (c.dispatch env b cmds).conn_cmdline = c.conn_cmdline := by
  unfold dispatch
  split_ifs
  · exact conn_cmdline_challenge c cmds
  · exact conn_cmdline_login c cmds
  · exact conn_cmdline_response c cmds
  · exact conn_cmdline_mediaStart c cmds
  · rfl
  · exact conn_cmdline_metadata c cmds
  · exact conn_cmdline_codeBook c cmds
  · rfl
  · rfl

end

/-- Nothing is kept of a command that has been parsed. -/
theorem conn_cmdline_parseCommand : (c.parseCommand env b).conn_cmdline = [] := by
  unfold parseCommand
  dsimp only
  split
  · rfl
  · exact conn_cmdline_dispatch _ _

/-- The commands are cut from what has been kept and what arrives, and what is not finished is
kept. -/
theorem dispatched_eq {bytes : QString} (hc : '!' ∉ c.conn_cmdline) :
    c.dispatched env b bytes = commandsOf (c.conn_cmdline ++ bytes) ∧
      (c.readyReadData env b bytes).conn_cmdline = unfinished (c.conn_cmdline ++ bytes) := by
  induction bytes generalizing c with
  | nil =>
      rw [List.append_nil]
      exact ⟨(commandsOf_of_not_mem hc).symm, (unfinished_of_not_mem hc).symm⟩
  | cons byte bytes ih =>
      rw [dispatched, readyReadData, List.foldl_cons]
      by_cases hbyte : byte = '!'
      · have hparsed : c.readByte env b byte = c.parseCommand env b := if_pos hbyte
        have hempty : '!' ∉ (c.parseCommand env b).conn_cmdline := by
          rw [conn_cmdline_parseCommand]
          exact List.not_mem_nil
        obtain ⟨hdispatched, hkept⟩ := ih hempty
        rw [conn_cmdline_parseCommand, List.nil_append] at hdispatched hkept
        rw [hparsed, if_pos hbyte, hbyte, commandsOf_append_cons hc, parsed_eq, hdispatched]
        exact ⟨rfl, hkept.trans (unfinished_append_cons _ _).symm⟩
      · have hkeeps : c.readByte env b byte = { c with conn_cmdline := c.conn_cmdline ++ [byte] } :=
          if_neg hbyte
        have hnot : '!' ∉ (c.readByte env b byte).conn_cmdline := by
          rw [hkeeps]
          simpa using ⟨hc, Ne.symm hbyte⟩
        obtain ⟨hdispatched, hkept⟩ := ih hnot
        rw [hkeeps] at hdispatched hkept ⊢
        rw [if_neg hbyte, List.nil_append, List.append_cons c.conn_cmdline byte bytes]
        exact ⟨hdispatched, hkept⟩

end ControlConnect

/-! ## Connections -/

/-- `QSocket::state`, as far as it is asked for. -/
inductive SocketState where
  | idle
  | connecting
  | connected
  deriving DecidableEq

/-- A client with what it needs to connect again; `reconnect` is the time for which the timer was
last started that does so. -/
structure Reconnector where
  control : ControlConnect := {}
  conn_hostname : QString := []
  conn_tcp_port : BitVec 16 := 0
  conn_connected_once : Bool := false
  state : SocketState := .idle
  reconnect : Option Int := none

namespace Reconnector

/-- `NETSIP_RECONNECT_INTERVAL`, in seconds. -/
def reconnectInterval : Int := 10

/-- `connectedData` (`controlconnect.cpp:144`), which sets a flag before it logs in. -/
def connectedData (b : ControlConnect.Build) (p : Reconnector) : Reconnector :=
  { p with conn_connected_once := true, control := p.control.connectedData b }

/-- `connectToHost` (`controlconnect.cpp:54`). -/
def connectToHost (b : ControlConnect.Build) (p : Reconnector) (username passwd hostname : QString)
    (tcp_port : BitVec 16) : Reconnector :=
  let p := { p with
    control := { p.control with conn_username := username, conn_password := passwd }
    conn_hostname := hostname
    conn_tcp_port := tcp_port }
  if p.state = .connected then p.connectedData b else { p with state := .connecting }

/-- `reconnectData` (`controlconnect.cpp:157`). -/
def reconnectData (b : ControlConnect.Build) (p : Reconnector) : Reconnector :=
  p.connectToHost b p.control.conn_username p.control.conn_password p.conn_hostname p.conn_tcp_port

/-- `connectionClosedData` (`controlconnect.cpp:163`). -/
def connectionClosedData (p : Reconnector) : Reconnector :=
  { p with
    control := { p.control with reauthenticate := none }
    reconnect := some (reconnectInterval * 1000) }

/-- `readyReadData`. -/
def readyReadData (env : Env) (b : ControlConnect.Build) (p : Reconnector) (bytes : QString) :
    Reconnector :=
  { p with control := p.control.readyReadData env b bytes }

/-- The socket comes to be connected, at its own address. -/
def established (b : ControlConnect.Build) (p : Reconnector) (address : QHostAddress) :
    Reconnector :=
  { p with state := .connected, control := { p.control with address := address } }.connectedData b

/-- The far end closes the connection. -/
def closed (p : Reconnector) : Reconnector := { p with state := .idle }.connectionClosedData

/-- A connection as long as it lasts, from one address and with the bytes that arrive on it, and the
timer that opens the next one. -/
def serve (env : Env) (b : ControlConnect.Build) (p : Reconnector) (conn : QHostAddress × QString) :
    Reconnector :=
  (((p.established b conn.1).readyReadData env b conn.2).closed).reconnectData b

/-- A new client that is told where to connect to. -/
def start (b : ControlConnect.Build) (username passwd hostname : QString) (tcp_port : BitVec 16) :
    Reconnector :=
  ({} : Reconnector).connectToHost b username passwd hostname tcp_port

variable {env : Env} {b : ControlConnect.Build} {p : Reconnector}
  {conns : List (QHostAddress × QString)}

/-- Of all that has arrived on the connections so far, what stands behind the last command is
kept. -/
theorem conn_cmdline_serve (hp : '!' ∉ p.control.conn_cmdline) :
    (conns.foldl (serve env b) p).control.conn_cmdline =
      unfinished (p.control.conn_cmdline ++ (conns.map Prod.snd).flatten) := by
  induction conns generalizing p with
  | nil =>
      rw [List.map_nil, List.flatten_nil, List.append_nil]
      exact (unfinished_of_not_mem hp).symm
  | cons conn conns ih =>
      have hserve : (p.serve env b conn).control.conn_cmdline =
          unfinished (p.control.conn_cmdline ++ conn.2) :=
        (ControlConnect.dispatched_eq (c := (p.established b conn.1).control) hp).2
      rw [List.foldl_cons, ih (by rw [hserve]; exact not_mem_unfinished), hserve, List.map_cons,
        List.flatten_cons, ← List.append_assoc, unfinished_unfinished_append]

/-- The commands passed on while the bytes of a new connection are read are the commands of these
bytes. -/
def ParsedAfresh (env : Env) (b : ControlConnect.Build) (p : Reconnector) (address : QHostAddress)
    (bytes : QString) : Prop :=
  (p.established b address).control.dispatched env b bytes = commandsOf bytes

/-- The commands of a new connection are cut from what has been kept and what arrives. -/
theorem dispatched_serve {username passwd hostname : QString} {tcp_port : BitVec 16}
    {address : QHostAddress} {bytes : QString} :
    (((conns.foldl (serve env b) (start b username passwd hostname tcp_port)).established b
      address).control.dispatched env b bytes) =
      commandsOf (unfinished (conns.map Prod.snd).flatten ++ bytes) := by
  have hkept :
    ((conns.foldl (serve env b) (start b username passwd hostname tcp_port)).established b
      address).control.conn_cmdline = unfinished (conns.map Prod.snd).flatten :=
    conn_cmdline_serve (p := start b username passwd hostname tcp_port) List.not_mem_nil
  rw [(ControlConnect.dispatched_eq (by rw [hkept]; exact not_mem_unfinished)).1, hkept]

/-- **A new connection is parsed afresh if and only if the bytes of those before it have left
nothing but spaces behind the last command, or no command arrives on it.** -/
theorem parsedAfresh_iff (env : Env) (b : ControlConnect.Build)
    (username passwd hostname : QString) (tcp_port : BitVec 16)
    (conns : List (QHostAddress × QString)) (address : QHostAddress) (bytes : QString) :
    ParsedAfresh env b (conns.foldl (serve env b) (start b username passwd hostname tcp_port))
    address
        bytes ↔
      (∀ c ∈ unfinished (conns.map Prod.snd).flatten, c = ' ') ∨ '!' ∉ bytes := by
  rw [ParsedAfresh, dispatched_serve, commandsOf_append_iff not_mem_unfinished]

/-- A connection that breaks inside a command takes the challenge of the next one with it. -/
theorem parsedAfresh_fails : ¬ ∀ (env : Env) (b : ControlConnect.Build)
    (username passwd hostname : QString) (tcp_port : BitVec 16)
    (conns : List (QHostAddress × QString)) (address : QHostAddress) (bytes : QString),
    ParsedAfresh env b (conns.foldl (serve env b) (start b username passwd hostname tcp_port))
    address
      bytes := by
  intro hall
  have hafresh := hall demoEnv ⟨true, []⟩ [] [] [] 0 [(.null, "P")] .null "LI 0123!"
  rw [ParsedAfresh, dispatched_serve] at hafresh
  exact absurd hafresh (by decide)

end Reconnector

end NetISDN
