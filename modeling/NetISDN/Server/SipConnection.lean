import Mathlib.Tactic.Common
import Mathlib.Tactic.Simps.Basic
import NetISDN.General.SqlLiteral
import NetISDN.Qt.QHostAddress
import NetISDN.Server.Database

/-!
# The state of `netsipd`

`SipConnection` is one control connection (`sipconnection.h`), `MainObject` the server: the
table `sip_connections`, keyed by file descriptor, and the database. What the server writes
while it handles an event collects in `sent`.
-/

namespace NetISDN

open Std

/-- `SipConnection`, with the values of `SipConnection::clear`. The socket is represented by
the address of its peer. -/
structure SipConnection where
  cmdline : QString := []
  peerAddress : QHostAddress
  uid : Int := 0
  cid : Int := -1
  username : QString := []
  hash : QString := []
  connectionFd : Int := -1
  sourcePort : Nat := 0
  localAddress : QHostAddress := .null
  clientVersion : QString := "0.0.0"
  zombie : Bool := false
  isAuthenticated : Bool := false
  pingTimestamp : Nat
  deriving DecidableEq

/-! ## The setters that a call needs -/

namespace SipConnection

/-- `SipConnection::setConnectionFd`. -/
@[simps] def setConnectionFd (fd : Int) (c : SipConnection) : SipConnection :=
  { c with connectionFd := fd }

/-- `SipConnection::setCid`. -/
@[simps] def setCid (id : Int) (c : SipConnection) : SipConnection := { c with cid := id }

/-- `SipConnection::setSourcePort`. -/
@[simps] def setSourcePort (port : Nat) (c : SipConnection) : SipConnection :=
  { c with sourcePort := port }

/-- The three setters as `EndCall` calls them. -/
@[simps!] def clearCall (c : SipConnection) : SipConnection :=
  ((c.setConnectionFd (-1)).setCid (-1)).setSourcePort 0

@[simp] theorem clearCall_clearCall (c : SipConnection) : c.clearCall.clearCall = c.clearCall := rfl

end SipConnection

/-- What leaves the server: a command to the client on `fd`, or a status datagram. -/
inductive Output where
  | command (fd : Int) (cmd : QString)
  | status (text : QString)
  deriving DecidableEq

/-- `MainObject`. -/
structure MainObject where
  sip_connections : ExtTreeMap Int SipConnection compare := ∅
  db : Database
  sent : List Output := []

/-- The parts of the program's environment that do not change: MD5, as the hexadecimal text
that `passwordHash` makes of it, and the location that GeoIP gives for an address (the
constant `Private/Unknown` on a build without it). -/
structure Env where
  md5 : QString → QString
  location : QHostAddress → QString

/-- What the server reads from outside while it handles one event. `now` is the host's clock in
milliseconds and `rand` the next four values of `rand()`; the rest is up to MySQL. `sqlNow` is its
`now()` in seconds, `pick` decides which of several equally recent rows it lists first, and
`stored` what a column holds of a text that is written to it. A client's text is pasted into some
of the statements: `lookup` is the answer to `select ... from USERS where NAME="name"`, whatever
MySQL reads in the name, and `misread` what becomes of the users by an update whose text does not
stand for itself. -/
structure World where
  now : Nat
  rand : Nat × Nat × Nat × Nat := (0, 0, 0, 0)
  pick : Nat := 0
  sqlNow : Nat := now / 1000
  stored : QString → QString := id
  lookup : Database → QString → Option UserRow := Database.selectUserByName
  misread : Database → Database := id

/-- The host's clock in seconds, as the text `yyyy-MM-dd hh:mm:ss` has it. -/
def World.seconds (w : World) : Nat := w.now / 1000

/-! ## Texts in updates -/

/-- A text that MySQL reads between double quotes as it is, however it gets there: `%s` and the
local 8-bit encoding leave ASCII alone, and a NUL ends a C string. -/
def Plain (text : QString) : Prop :=
  SqlLiteral.Verbatim text ∧ ∀ ch ∈ text, ch ≠ '\x00' ∧ isAscii ch

instance (text : QString) : Decidable (Plain text) :=
  decidable_of_iff (SqlLiteral.readLiteral (text ++ ['"']) = some (text, []) ∧
      text.all fun ch => decide (ch ≠ '\x00') && isAscii ch) <| by
    have hverbatim : SqlLiteral.readLiteral (text ++ ['"']) = some (text, []) ↔
        SqlLiteral.Verbatim text := SqlLiteral.reads_iff_verbatim nofun
    simp only [Plain, hverbatim, List.all_eq_true, Bool.and_eq_true, decide_eq_true_eq]

/-- `update USERS set ... where ID=id` with `text` pasted into it. -/
def Database.updatePasted (w : World) (db : Database) (text : QString) (id : Int)
    (f : UserRow → UserRow) (hf : ∀ u, (f u).id = u.id := by intro; rfl) : Database :=
  if Plain text then db.updateUser id f hf else db.withUsers (w.misread db)

section
variable {w : World} {db : Database} {text : QString} {id : Int} {f : UserRow → UserRow}
  {hf : ∀ u, (f u).id = u.id}

/-- A plain text is what it stands for. -/
theorem Database.updatePasted_plain (h : Plain text) :
    db.updatePasted w text id f hf = db.updateUser id f hf := if_pos h

/-- An update of `USERS` leaves the calls alone, whatever MySQL reads in it. -/
@[simp] theorem Database.calls_updatePasted :
    (db.updatePasted w text id f hf).calls = db.calls := by
  unfold updatePasted
  split <;> rfl

@[simp] theorem Database.nextCallId_updatePasted :
    (db.updatePasted w text id f hf).nextCallId = db.nextCallId := by
  unfold updatePasted
  split <;> rfl

end

namespace MainObject

/-- `sip_connections[fd]`; `none` is a null pointer. -/
def conn (s : MainObject) (fd : Int) : Option SipConnection := s.sip_connections[fd]?

/-- A setter called on `sip_connections[fd]`. -/
def modifyConn (s : MainObject) (fd : Int) (f : SipConnection → SipConnection) : MainObject :=
  { s with sip_connections := s.sip_connections.modify fd f }

/-- `sip_connections[fd]=c`. -/
def insertConn (s : MainObject) (fd : Int) (c : SipConnection) : MainObject :=
  { s with sip_connections := s.sip_connections.insert fd c }

/-- `delete sip_connections[fd]` and `sip_connections.erase`. -/
def eraseConn (s : MainObject) (fd : Int) : MainObject :=
  { s with sip_connections := s.sip_connections.erase fd }

/-- The file descriptors, in the order an iterator visits them. -/
def fds (s : MainObject) : List Int := s.sip_connections.keys

/-- Writes one piece of output. -/
def emit (s : MainObject) (o : Output) : MainObject := { s with sent := s.sent ++ [o] }

/-- The output so far has left. -/
def flush (s : MainObject) : MainObject := { s with sent := [] }

/-- Executes a statement on the database. -/
def withDb (s : MainObject) (f : Database → Database) : MainObject := { s with db := f s.db }

/-! ## What each operation leaves alone -/

section
variable {s : MainObject} {fd k : Int} {f : SipConnection → SipConnection} {c : SipConnection}
  {o : Output} {g : Database → Database}

/-- A change of one connection. -/
theorem conn_modifyConn :
    (s.modifyConn fd f).conn k = if fd = k then (s.conn k).map f else s.conn k := by
  simp only [conn, modifyConn, ExtTreeMap.getElem?_modify, LawfulEqCmp.compare_eq_iff_eq]
  split
  · next h => rw [h]
  · rfl

/-- A connection that is inserted, and the others. -/
theorem conn_insertConn :
    (s.insertConn fd c).conn k = if fd = k then some c else s.conn k := by
  simp only [conn, insertConn, ExtTreeMap.getElem?_insert, LawfulEqCmp.compare_eq_iff_eq]

/-- A connection that is erased, and the others. -/
theorem conn_eraseConn :
    (s.eraseConn fd).conn k = if fd = k then none else s.conn k := by
  simp only [conn, eraseConn, ExtTreeMap.getElem?_erase, LawfulEqCmp.compare_eq_iff_eq]

@[simp] theorem conn_emit : (s.emit o).conn k = s.conn k := rfl
@[simp] theorem conn_withDb : (s.withDb g).conn k = s.conn k := rfl
@[simp] theorem conn_flush : s.flush.conn k = s.conn k := rfl

@[simp] theorem sip_connections_emit : (s.emit o).sip_connections = s.sip_connections := rfl
@[simp] theorem sip_connections_withDb : (s.withDb g).sip_connections = s.sip_connections := rfl
@[simp] theorem sip_connections_flush : s.flush.sip_connections = s.sip_connections := rfl

@[simp] theorem db_modifyConn : (s.modifyConn fd f).db = s.db := rfl
@[simp] theorem db_insertConn : (s.insertConn fd c).db = s.db := rfl
@[simp] theorem db_eraseConn : (s.eraseConn fd).db = s.db := rfl
@[simp] theorem db_emit : (s.emit o).db = s.db := rfl
@[simp] theorem db_withDb : (s.withDb g).db = g s.db := rfl
@[simp] theorem db_flush : s.flush.db = s.db := rfl

@[simp] theorem sent_modifyConn : (s.modifyConn fd f).sent = s.sent := rfl
@[simp] theorem sent_insertConn : (s.insertConn fd c).sent = s.sent := rfl
@[simp] theorem sent_eraseConn : (s.eraseConn fd).sent = s.sent := rfl
@[simp] theorem sent_emit : (s.emit o).sent = s.sent ++ [o] := rfl
@[simp] theorem sent_withDb : (s.withDb g).sent = s.sent := rfl
@[simp] theorem sent_flush : s.flush.sent = [] := rfl

/-- The descriptors are those of the connections. -/
theorem mem_fds : fd ∈ s.fds ↔ ∃ c, s.conn fd = some c := by
  rw [fds, ExtTreeMap.mem_keys, conn, ← Option.isSome_iff_exists,
    ← ExtTreeMap.mem_iff_isSome_getElem?]

/-- The entries of the table are its connections. -/
theorem mem_toList : (fd, c) ∈ s.sip_connections.toList ↔ s.conn fd = some c :=
  ExtTreeMap.mem_toList_iff_getElem?_eq_some

/-- The entries stand in increasing order of their descriptors. -/
theorem toList_sorted (s : MainObject) :
    s.sip_connections.toList.Pairwise (·.1 < ·.1) := by
  have h := ExtTreeMap.ordered_keys_toList (t := s.sip_connections)
  exact h.imp fun hab => by simpa [compare_lt_iff_lt] using hab

/-- An iterator visits the descriptors in increasing order. -/
theorem fds_sorted (s : MainObject) : s.fds.Pairwise (· < ·) := by
  have h := ExtTreeMap.ordered_keys (t := s.sip_connections)
  exact h.imp fun hab => by simpa [compare_lt_iff_lt] using hab

end

end MainObject

end NetISDN
