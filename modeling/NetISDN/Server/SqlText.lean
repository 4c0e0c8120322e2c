import NetISDN.Lib.EscapeString
import NetISDN.Qt.TextCodec
import NetISDN.Server.Dispatch

/-!
# The texts of the SQL statements

What `Login`, `Password`, `InitiateCall` and `ReceiveMetadata` hand to MySQL, as text. The names,
the client version and the metadata are put between double quotes as they are; only the location is
escaped. What goes through `%s` ends at a NUL, and is read as UTF-8. So a statement is the one that
`Database` has for it as long as these texts stand for themselves there, and no longer
(`MainObject.statements_iff`). The texts are taken to be in Latin-1, as they come from a socket and
from the database of places.
-/

namespace NetISDN

open SqlLiteral

/-- `(const char *)str`. -/
def constChar (str : QString) : QString := str.takeWhile (· ≠ '\x00')

/-- `QDateTime`. -/
structure QDateTime where
  year : Nat
  month : Nat
  day : Nat
  hour : Nat
  minute : Nat
  second : Nat

/-- A number with zeros in front. -/
def zeroPadded (width n : Nat) : QString :=
  List.replicate (width - (sprintfU n).length) '0' ++ sprintfU n

/-- `toString("yyyy-MM-dd hh:mm:ss")`. -/
def QDateTime.toString (dt : QDateTime) : QString :=
  zeroPadded 4 dt.year ++ "-" ++ zeroPadded 2 dt.month ++ "-" ++ zeroPadded 2 dt.day ++ " " ++
    zeroPadded 2 dt.hour ++ ":" ++ zeroPadded 2 dt.minute ++ ":" ++ zeroPadded 2 dt.second

/-! ## Places -/

section
variable {a b : QString} {n : Nat} {i : Int}

/-- Texts without quotes have none together. -/
theorem quote_append (ha : '"' ∉ a) (hb : '"' ∉ b) : '"' ∉ a ++ b := List.not_mem_append ha hb

/-- A number has no quote. -/
theorem quote_sprintfU : '"' ∉ sprintfU n := not_mem_sprintfU rfl

/-- And neither has a signed one. -/
theorem quote_sprintfD : '"' ∉ sprintfD i := by
  cases i with
  | ofNat n => exact quote_sprintfU
  | negSucc n => exact mt List.mem_cons.1 (not_or.2 ⟨by decide, quote_sprintfU⟩)

end

/-- A place that is filled with `+`. -/
def plusPlace (code value : QString) (h : '"' ∉ code) : Place where
  code := code
  text := value
  value := value
  code_quote := h

/-- A place that is filled with `%s`. -/
def stringPlace (utf8 : Utf8Codec) (code value : QString) (h : '"' ∉ code) : Place where
  code := code
  text := utf8.toUnicode (constChar value)
  value := value
  code_quote := h

/-! ## Texts in their places -/

section
variable {str rest : QString} {n : Nat}

/-- A text without a NUL is handed over whole. -/
theorem constChar_eq (h : '\x00' ∉ str) : constChar str = str :=
  List.takeWhile_eq_self_iff.2 fun _ hc => decide_eq_true fun heq => h (heq ▸ hc)

/-- A text that `%s` puts through as it is. -/
def Printed (text : QString) : Prop := ∀ ch ∈ text, ch ≠ '\x00' ∧ isAscii ch

/-- What is cut off of a text is not printed. -/
theorem isPrefix_constChar : constChar str <+: str := List.takeWhile_prefix _

/-- Escape sequences stand for ASCII. -/
theorem count_unescape {ch : Char} (hch : ¬ isAscii ch) (c : Char) :
    (unescape c).count ch ≤ [c].count ch := by
  have hne {d : Char} (hd : isAscii d) : d ≠ ch := fun heq => hch (heq ▸ hd)
  unfold unescape
  split
  all_goals first
    | exact Nat.le_refl _
    | exact (List.count_cons_of_ne (hne rfl)).le
    | exact (List.count_cons_of_ne (hne rfl)).trans_le (Nat.zero_le _)

/-- What is read as UTF-8 for its value has no other characters than ASCII, if there are no more of
them in it than in the value. -/
theorem ascii_of_readLiteral {utf8 : Utf8Codec} {printed : QString}
    (h : readLiteral (utf8.toUnicode printed ++ '"' :: rest) = some (str, rest))
    (hle : ∀ ch, ¬ isAscii ch → printed.count ch ≤ str.count ch) : ∀ ch ∈ printed, isAscii ch := by
  refine utf8.own printed (utf8.letters printed fun ch hch => (hle ch hch).trans ?_)
  have hcount := count_readLiteral (count_unescape hch) h
  have hquote : '"' ≠ ch := fun heq => hch (heq ▸ rfl)
  rw [List.count_append, List.count_cons_of_ne hquote] at hcount
  omega

/-- A text that is put into its place with `%s` stands for itself if it also has no end in it and is
ASCII. -/
theorem reads_constChar_iff {utf8 : Utf8Codec} (hrest : rest.head? ≠ some '"') :
    readLiteral (utf8.toUnicode (constChar str) ++ '"' :: rest) = some (str, rest) ↔
      Plain str := by
  constructor
  · intro h
    have hascii := ascii_of_readLiteral h fun ch _ => isPrefix_constChar.sublist.count_le ch
    rw [TextCodec.reads_of_ascii hascii] at h
    -- the literal is not shorter than the text, so nothing has been cut off
    have hle := length_readLiteral h
    rw [List.length_append, List.length_cons] at hle
    have hwhole : constChar str = str := isPrefix_constChar.eq_of_length_le (by omega)
    rw [hwhole] at h hascii
    refine ⟨verbatim_of_readLiteral h, fun ch hch => ⟨?_, hascii ch hch⟩⟩
    exact of_decide_eq_true (List.takeWhile_eq_self_iff.1 hwhole ch hch)
  · rintro ⟨hverbatim, hchars⟩
    rw [constChar_eq fun hzero => (hchars _ hzero).1 rfl,
      TextCodec.reads_of_ascii fun ch hch => (hchars ch hch).2]
    exact hverbatim.readLiteral hrest

section
variable {code value tail : QString} {h : '"' ∉ code} {places : List Place}
  (hcode : ∀ place ∈ places, place.code ≠ []) (htail : '"' ∉ tail)
include hcode htail

/-- A place that is filled with `+` keeps the template if its text stands for itself. -/
theorem keepsTemplate_plusPlace : KeepsTemplate (plusPlace code value h :: places) tail ↔
    Verbatim value ∧ KeepsTemplate places tail :=
  and_congr_left' (reads_iff_verbatim (head?_placesText hcode htail))

/-- A place that is filled with `%s` keeps it if its text is plain. -/
theorem keepsTemplate_stringPlace {utf8 : Utf8Codec} :
    KeepsTemplate (stringPlace utf8 code value h :: places) tail ↔
      Plain value ∧ KeepsTemplate places tail :=
  and_congr_left' (reads_constChar_iff (head?_placesText hcode htail))

end

/-- Escaping does not move the end of a text. -/
theorem constChar_escapeString : constChar (escapeString str) = escapeString (constChar str) := by
  induction str with
  | nil => rfl
  | cons c str ih =>
      rw [escapeString_cons]
      rcases eq_or_ne c '\x00' with rfl | hc
      · rfl
      · have hcons (s : QString) : constChar (c :: s) = c :: constChar s :=
          List.takeWhile_cons_of_pos (decide_eq_true hc)
        rw [hcons, escapeString_cons, ← ih]
        split
        · show constChar ('\\' :: c :: escapeString str) = '\\' :: c :: constChar (escapeString str)
          rw [← hcons]
          exact List.takeWhile_cons_of_pos (by decide)
        · exact hcons _

/-- Only ASCII is escaped. -/
theorem count_escapeString {ch : Char} (hch : ¬ isAscii ch) :
    (escapeString str).count ch = str.count ch := by
  induction str with
  | nil => rfl
  | cons c str ih =>
      have hbackslash : '\\' ≠ ch := fun heq => hch (heq ▸ rfl)
      rw [escapeString_cons, List.count_append, ih, ← List.singleton_append (l := str),
        List.count_append]
      split
      · rw [List.count_cons_of_ne hbackslash]
      · rfl

/-- The characters of a text are in what it is escaped to. -/
theorem mem_escapeString {c : Char} (h : c ∈ str) : c ∈ escapeString str := by
  refine List.mem_flatMap.2 ⟨c, h, ?_⟩
  split
  · exact .tail _ (.head _)
  · exact .head _

/-- An escaped text that is put into its place with `%s` stands for the text exactly if `%s` puts
that through. -/
theorem reads_escapeString_iff {utf8 : Utf8Codec} (hrest : rest.head? ≠ some '"') :
    readLiteral (utf8.toUnicode (constChar (escapeString str)) ++ '"' :: rest) = some (str, rest) ↔
      Printed str := by
  rw [constChar_escapeString]
  constructor
  · intro h
    have hascii := ascii_of_readLiteral h fun ch hch =>
      (count_escapeString hch).trans_le (isPrefix_constChar.sublist.count_le ch)
    rw [TextCodec.reads_of_ascii hascii, readLiteral_escapeString _ hrest] at h
    have hwhole : constChar str = str := (Prod.mk.inj (Option.some.inj h)).1
    rw [hwhole] at hascii
    refine fun ch hch => ⟨?_, hascii ch (mem_escapeString hch)⟩
    exact of_decide_eq_true (List.takeWhile_eq_self_iff.1 hwhole ch hch)
  · intro h
    have hascii : ∀ ch ∈ escapeString str, isAscii ch := by
      intro ch hch
      by_contra hnot
      have hcount : (escapeString str).count ch = str.count ch := count_escapeString hnot
      have hpos := List.count_pos_iff.2 hch
      exact hnot (h ch (List.count_pos_iff.1 (by omega))).2
    rw [constChar_eq fun hzero => (h _ hzero).1 rfl, TextCodec.reads_of_ascii hascii]
    exact readLiteral_escapeString _ hrest

/-- Texts of digits and a few other characters stand for themselves. -/
theorem plain_of_forall (h : ∀ c ∈ str, c.isDigit ∨ c ∈ ['.', '-', ':', ' ', 'Y']) :
    Plain str := by
  have hchar : ∀ c, (c.isDigit ∨ c ∈ ['.', '-', ':', ' ', 'Y']) →
      (c ≠ '"' ∧ c ≠ '\\') ∧ c ≠ '\x00' ∧ isAscii c := by
    rintro c (hc | hc)
    · refine ⟨⟨?_, ?_⟩, ?_, ?_⟩
      · rintro rfl
        cases hc
      · rintro rfl
        cases hc
      · rintro rfl
        cases hc
      · have hle := (Char.isDigit_iff_toNat.1 hc).2
        exact decide_eq_true (lt_of_le_of_lt hle (by decide))
    · have hall : (['.', '-', ':', ' ', 'Y'].all fun c => decide ((c ≠ '"' ∧ c ≠ '\\') ∧
          c ≠ '\x00' ∧ isAscii c)) = true := by decide
      exact of_decide_eq_true (List.all_eq_true.1 hall c hc)
  exact ⟨verbatim_of_forall fun c hc => (hchar c (h c hc)).1, fun c hc => (hchar c (h c hc)).2⟩

end

namespace MainObject

/-! ## The statements -/

/-- The line break and the indentation in a text that goes on in the next line. -/
def indent : QString := List.replicate 25 ' '

/-- The indentation has no quote. -/
theorem quote_indent : '"' ∉ indent := by decide

/-- `netsipd.cpp:251`. -/
def loginSql (cmd : QStringList) : Statement where
  places := [plusPlace "select ID,NAME,PASSWORD from USERS where NAME=" (cmd.at 1) (by decide)]
  tail := []
  tail_quote := by decide

/-- `netsipd.cpp:311`. -/
def passwordSql (utf8 : Utf8Codec) (env : Env) (c : SipConnection) : Statement where
  places := [
    stringPlace utf8 ("update USERS set LAST_ACCESS_DATETIME=now()," ++ indent ++
      "LAST_ACCESS_ADDR=")
      c.peerAddress.toString (by decide),
    plusPlace ",ONLINE=" "Y" (by decide),
    stringPlace utf8 ("," ++ indent ++ "CLIENT_VERSION=") c.clientVersion (by decide),
    { code := ",LOCATION="
      text := utf8.toUnicode (constChar (escapeString (env.location c.peerAddress)))
      value := env.location c.peerAddress
      code_quote := by decide }]
  tail := " where ID=" ++ sprintfD c.uid
  tail_quote := quote_append (by decide) quote_sprintfD

/-- `netsipd.cpp:339`. -/
def calleeSql (cmd : QStringList) : Statement where
  places := [plusPlace "select ID from USERS where NAME=" (cmd.at 1) (by decide)]
  tail := []
  tail_quote := by decide

/-- A column of a row that is inserted, set to a number. -/
def setNumber (column : QString) (n : Nat) : QString := "," ++ indent ++ column ++ "=" ++ sprintfU n

/-- A number that is set brings no quote. -/
theorem quote_setNumber {column : QString} {n : Nat} (h : '"' ∉ column) :
    '"' ∉ setNumber column n :=
  quote_append (quote_append (quote_append (by decide) h) (by decide)) quote_sprintfU

/-- `netsipd.cpp:401`. -/
def logSql (utf8 : Utf8Codec) (row : CallRow) (dt : QDateTime) : Statement where
  places := [
    stringPlace utf8 ("insert into CALLS set ORIG_UID=" ++ sprintfD row.origUid ++ "," ++ indent ++
      "ORIG_ADDR=") row.origAddr
      (quote_append
        (quote_append (quote_append (quote_append (by decide) quote_sprintfD) (by decide))
        quote_indent) (by decide)),
    stringPlace utf8 (setNumber "ORIG_PORT" row.origPort ++ "," ++ indent ++ "DEST_UID=" ++
      sprintfD row.destUid ++ "," ++ indent ++ "DEST_ADDR=") row.destAddr
      (quote_append (quote_append (quote_append (quote_append (quote_append (quote_append
        (quote_append (quote_setNumber (by decide)) (by decide)) quote_indent) (by decide))
        quote_sprintfD) (by decide)) quote_indent) (by decide)),
    stringPlace utf8 (setNumber "DEST_PORT" row.destPort ++ "," ++ indent ++ "START_DATETIME=")
      dt.toString
      (quote_append (quote_append (quote_append (quote_setNumber (by decide)) (by decide))
        quote_indent) (by decide))]
  tail := setNumber "FORMAT" row.format ++ setNumber "SAMPLE_RATE" row.sampleRate ++
    setNumber "CHANNELS" row.channels ++ setNumber "BIT_RATE" row.bitRate ++
    setNumber "DEST_FORMAT" row.destFormat ++ setNumber "DEST_SAMPLE_RATE" row.destSampleRate ++
    setNumber "DEST_CHANNELS" row.destChannels ++ setNumber "DEST_BIT_RATE" row.destBitRate
  tail_quote := by
    refine quote_append (quote_append (quote_append (quote_append (quote_append (quote_append
      (quote_append ?_ ?_) ?_) ?_) ?_) ?_) ?_) ?_
    all_goals exact quote_setNumber (by decide)

/-- `netsipd.cpp:433`. -/
def latestSql (uid : Int) : Statement where
  places := []
  tail := "select ID from CALLS where ORIG_UID=" ++ sprintfD uid ++ " " ++ indent ++
    "order by START_DATETIME desc"
  tail_quote := quote_append (quote_append (quote_append (quote_append (by decide) quote_sprintfD)
    (by decide)) quote_indent) (by decide)

/-- The column that a tag of `MD` names. -/
def columnOf (tag : QString) : Option {column : QString // '"' ∉ column} :=
  if tag = "FN" then some ⟨"FULL_NAME", by decide⟩
  else if tag = "MA" then some ⟨"EMAIL", by decide⟩
  else if tag = "PH" then some ⟨"PHONE_NUMBER", by decide⟩
  else none

/-- `netsipd.cpp:566`. -/
def metadataSql (uid : Int) (column : {column : QString // '"' ∉ column}) (value : QString) :
    Statement where
  places := [plusPlace ("update USERS set " ++ column.1 ++ "=") value
    (quote_append (quote_append (by decide) column.2) (by decide))]
  tail := " where ID=" ++ sprintfD uid
  tail_quote := quote_append (by decide) quote_sprintfD

/-! ## The statements of a command -/

/-- The statements of `InitiateCall` behind the search for the callee. -/
def setupCallSql (utf8 : Utf8Codec) (s : MainObject) (w : World) (dt : QDateTime) (fd dest_fd : Int)
    (cmd : QStringList) : Option (List Statement) := do
  let s := s.modifyConn fd (SipConnection.setConnectionFd dest_fd)
  let s := s.modifyConn dest_fd (SipConnection.setConnectionFd fd)
  let s ← s.assignPorts fd dest_fd
  let c ← s.conn fd
  let d ← s.conn dest_fd
  return [logSql utf8 (callRow w c d cmd) dt, latestSql c.uid]

/-- The statements of `ReceiveMetadata`. -/
def receiveMetadataSql (uid : Int) (cmd : QStringList) : List Statement :=
  if cmd.length ≠ 2 ∧ cmd.length ≠ 3 then []
  else
    match columnOf (cmd.at 1) with
    | some column => [metadataSql uid column ((NetBase64ToString (cmd.at 2)).getD [])]
    | none => []

/-- The statements of `Login`, `Password`, `InitiateCall` and `ReceiveMetadata` on a command from
the connection `c` on `fd`, at the time `dt`. -/
def statements (utf8 : Utf8Codec) (env : Env) (w : World) (dt : QDateTime) (s : MainObject)
    (fd : Int) (c : SipConnection) (cmd : QStringList) : List Statement :=
  if cmd.at 0 = "LI" then if cmd.length ≠ 4 then [] else [loginSql cmd]
  else if cmd.at 0 = "PW" then
    if s.killCode fd c cmd = none then [passwordSql utf8 env c] else []
  else if ¬ c.isAuthenticated then []
  else if cmd.at 0 = "CA" then
    if cmd.length ≠ 14 then []
    else calleeSql cmd ::
      ((s.callee w c cmd).bind fun d => s.setupCallSql utf8 w dt fd d cmd).getD []
  else if cmd.at 0 = "MD" then receiveMetadataSql c.uid cmd
  else []

/-- What the client has put into the statements of a command stands for itself, and `%s` puts the
place through that the client is at. -/
structure VerbatimTexts (env : Env) (s : MainObject) (fd : Int) (c : SipConnection)
    (cmd : QStringList) : Prop where
  login : cmd.at 0 = "LI" → cmd.length = 4 → Verbatim (cmd.at 1)
  password : cmd.at 0 = "PW" → s.killCode fd c cmd = none → Plain c.clientVersion
  location : cmd.at 0 = "PW" → s.killCode fd c cmd = none → Printed (env.location c.peerAddress)
  call : cmd.at 0 = "CA" → c.isAuthenticated = true → cmd.length = 14 → Verbatim (cmd.at 1)
  metadata : cmd.at 0 = "MD" → c.isAuthenticated = true → cmd.length = 2 ∨ cmd.length = 3 →
    (columnOf (cmd.at 1)).isSome = true → Verbatim ((NetBase64ToString (cmd.at 2)).getD [])

/-! ## How they are read -/

section
variable {utf8 : Utf8Codec} {env : Env} {w : World} {dt : QDateTime} {s : MainObject}
  {fd d uid : Int}
  {c : SipConnection} {cmd : QStringList}

/-- The query of `Login` is read as meant if the user name stands for itself. -/
theorem loginSql_iff : (loginSql cmd).ReadsAsTemplate ↔ Verbatim (cmd.at 1) :=
  (Statement.readsAsTemplate_iff _).trans ((keepsTemplate_plusPlace (List.forall_mem_nil _)
    (loginSql cmd).tail_quote).trans (and_iff_left trivial))

/-- The query of `InitiateCall` is if the name that is called does. -/
theorem calleeSql_iff : (calleeSql cmd).ReadsAsTemplate ↔ Verbatim (cmd.at 1) :=
  (Statement.readsAsTemplate_iff _).trans ((keepsTemplate_plusPlace (List.forall_mem_nil _)
    (calleeSql cmd).tail_quote).trans (and_iff_left trivial))

/-- The query for the latest call has nothing of the client in it. -/
theorem latestSql_reads : (latestSql uid).ReadsAsTemplate :=
  (Statement.readsAsTemplate_iff _).2 trivial

/-- The update of `ReceiveMetadata` is if the value stands for itself. -/
theorem metadataSql_iff {column : {column : QString // '"' ∉ column}} {value : QString} :
    (metadataSql uid column value).ReadsAsTemplate ↔ Verbatim value :=
  (Statement.readsAsTemplate_iff _).trans ((keepsTemplate_plusPlace (List.forall_mem_nil _)
    (metadataSql uid column value).tail_quote).trans (and_iff_left trivial))

/-- The text of an address is plain. -/
theorem plain_toString (addr : QHostAddress) : Plain addr.toString := by
  refine plain_of_forall fun c hc => ?_
  by_contra hnot
  obtain ⟨hdigit, hother⟩ := not_or.1 hnot
  exact QHostAddress.not_mem_toString (by simpa using hdigit) (fun heq => hother (by simp [heq])) hc

/-- The version has to stand for itself, and the location, which is escaped, to be put through. -/
theorem passwordSql_iff : (passwordSql utf8 env c).ReadsAsTemplate ↔
    Plain c.clientVersion ∧ Printed (env.location c.peerAddress) := by
  have htail := (passwordSql utf8 env c).tail_quote
  have hlocation : readLiteral
      (utf8.toUnicode (constChar (escapeString (env.location c.peerAddress))) ++ '"' ::
        placesText [] (passwordSql utf8 env c).tail) =
      some (env.location c.peerAddress, placesText [] (passwordSql utf8 env c).tail) ↔
        Printed (env.location c.peerAddress) :=
    reads_escapeString_iff (head?_placesText (List.forall_mem_nil _) htail)
  have hyes : Verbatim "Y" := Verbatim.char (by decide) (by decide) Verbatim.nil
  rw [Statement.readsAsTemplate_iff]
  unfold passwordSql at htail hlocation ⊢
  dsimp only at htail hlocation ⊢
  rw [keepsTemplate_stringPlace (by simp [plusPlace, stringPlace]) htail,
    keepsTemplate_plusPlace (by simp [stringPlace]) htail,
    keepsTemplate_stringPlace (by simp) htail]
  constructor
  · rintro ⟨-, -, hversion, hread, -⟩
    exact ⟨hversion, hlocation.1 hread⟩
  · rintro ⟨hversion, hprinted⟩
    exact ⟨plain_toString _, hyes, hversion, hlocation.2 hprinted, trivial⟩

/-- A padded number consists of digits. -/
theorem plain_zeroPadded {width n : Nat} {ch : Char} (h : ch ∈ zeroPadded width n) :
    ch.isDigit = true := by
  rcases List.mem_append.1 h with h | h
  · obtain rfl := List.eq_of_mem_replicate h
    rfl
  · exact isDigit_of_mem_sprintfU h

/-- The text of a date is plain. -/
theorem plain_dateTime (dt : QDateTime) : Plain dt.toString := by
  refine plain_of_forall fun c hc => ?_
  have hother : ∀ ch, ((ch ∈ "-".toList ∨ ch ∈ " ".toList) ∨ ch ∈ ":".toList) →
      ch ∈ ['.', '-', ':', ' ', 'Y'] := by
    rintro ch ((h | h) | h) <;> obtain rfl := List.mem_singleton.1 h <;> decide
  simp only [QDateTime.toString, List.mem_append] at hc
  rcases hc with (((((((((hc | hc) | hc) | hc) | hc) | hc) | hc) | hc) | hc) | hc) | hc
  · exact .inl (plain_zeroPadded hc)
  · exact .inr (hother c (.inl (.inl hc)))
  · exact .inl (plain_zeroPadded hc)
  · exact .inr (hother c (.inl (.inl hc)))
  · exact .inl (plain_zeroPadded hc)
  · exact .inr (hother c (.inl (.inr hc)))
  · exact .inl (plain_zeroPadded hc)
  · exact .inr (hother c (.inr hc))
  · exact .inl (plain_zeroPadded hc)
  · exact .inr (hother c (.inr hc))
  · exact .inl (plain_zeroPadded hc)

/-- The row that `InitiateCall` logs brings nothing of the client but numbers and addresses. -/
theorem logSql_reads {w : World} {d : SipConnection} :
    (logSql utf8 (callRow w c d cmd) dt).ReadsAsTemplate := by
  have htail := (logSql utf8 (callRow w c d cmd) dt).tail_quote
  rw [Statement.readsAsTemplate_iff]
  unfold logSql at htail ⊢
  dsimp only at htail ⊢
  rw [keepsTemplate_stringPlace (by simp [stringPlace, setNumber]) htail,
    keepsTemplate_stringPlace (by simp [stringPlace, setNumber]) htail,
    keepsTemplate_stringPlace (List.forall_mem_nil _) htail]
  exact ⟨plain_toString _, plain_toString _, plain_dateTime dt, trivial⟩

/-- Whatever `InitiateCall` does behind the search for the callee, its statements are read as they
are meant. -/
theorem setupCallSql_reads {w : World} {d : Int} {st : Statement}
    (h : st ∈ (s.setupCallSql utf8 w dt fd d cmd).getD []) : st.ReadsAsTemplate := by
  cases hsql : s.setupCallSql utf8 w dt fd d cmd with
  | none =>
      rw [hsql] at h
      cases h
  | some l =>
      rw [hsql, Option.getD_some] at h
      simp only [setupCallSql, Option.bind_eq_bind, Option.bind_eq_some_iff, Option.pure_def,
        Option.some.injEq] at hsql
      obtain ⟨s₁, -, c, -, d, -, rfl⟩ := hsql
      rcases List.mem_cons.1 h with rfl | h
      · exact logSql_reads
      · obtain rfl := List.mem_singleton.1 h
        exact latestSql_reads

/-- Statements that are read as meant have texts that stand for themselves. -/
theorem verbatimTexts_of_reads
    (h : ∀ st ∈ statements utf8 env w dt s fd c cmd, st.ReadsAsTemplate) :
    VerbatimTexts env s fd c cmd where
  login := fun h0 hlen => loginSql_iff.1 (h _ (by simp [statements, h0, hlen]))
  password := fun h0 hkill => (passwordSql_iff.1 (h (passwordSql utf8 env c)
    (by simp [statements, h0, hkill]))).1
  location := fun h0 hkill => (passwordSql_iff.1 (h (passwordSql utf8 env c)
    (by simp [statements, h0, hkill]))).2
  call := fun h0 hauth hlen => calleeSql_iff.1 (h _ (by simp [statements, h0, hauth, hlen]))
  metadata := fun h0 hauth hlen hcolumn => by
    obtain ⟨column, hcolumn⟩ := Option.isSome_iff_exists.1 hcolumn
    have hlen' : ¬ (cmd.length ≠ 2 ∧ cmd.length ≠ 3) := by omega
    refine metadataSql_iff.1 (h (metadataSql c.uid column _) ?_)
    simp [statements, receiveMetadataSql, h0, hauth, hlen', hcolumn]

/-- Such texts make statements that are read as meant. -/
theorem VerbatimTexts.reads (hv : VerbatimTexts env s fd c cmd) :
    ∀ st ∈ statements utf8 env w dt s fd c cmd, st.ReadsAsTemplate := by
  unfold statements
  split
  · next h0 =>
      split
      · exact List.forall_mem_nil _
      · next hlen =>
          exact List.forall_mem_singleton.2 (loginSql_iff.2 (hv.login h0 (not_not.1 hlen)))
  split
  · next h0 =>
      split
      · next hkill =>
          exact List.forall_mem_singleton.2
            (passwordSql_iff.2 ⟨hv.password h0 hkill, hv.location h0 hkill⟩)
      · exact List.forall_mem_nil _
  split
  · exact List.forall_mem_nil _
  next hauth =>
  split
  · next h0 =>
      split
      · exact List.forall_mem_nil _
      · next hlen =>
          refine List.forall_mem_cons.2 ⟨calleeSql_iff.2 (hv.call h0 (not_not.1 hauth)
            (not_not.1 hlen)), fun st hst => ?_⟩
          cases hcallee : s.callee w c cmd with
          | none =>
              rw [hcallee] at hst
              cases hst
          | some d =>
              rw [hcallee, Option.bind_some] at hst
              exact setupCallSql_reads hst
  split
  · next h0 =>
      unfold receiveMetadataSql
      split
      · exact List.forall_mem_nil _
      · next hlen =>
          split
          · next column hcolumn =>
              exact List.forall_mem_singleton.2 (metadataSql_iff.2 (hv.metadata h0 (not_not.1 hauth)
                (by omega) (Option.isSome_iff_exists.2 ⟨column, hcolumn⟩)))
          · exact List.forall_mem_nil _
  · exact List.forall_mem_nil _

/-- **The statements of a command are read as their templates if and only if the client's texts in
them have no quote, and no backslash but in front of `%` or `_`; the client version also no end, and
nothing but ASCII, and so does the location that is written with it.** -/
theorem statements_iff (utf8 : Utf8Codec) (env : Env) (w : World) (dt : QDateTime) (s : MainObject)
    (fd : Int) (c : SipConnection) (cmd : QStringList) :
    (∀ st ∈ statements utf8 env w dt s fd c cmd, st.ReadsAsTemplate) ↔
    VerbatimTexts env s fd c cmd :=
  ⟨verbatimTexts_of_reads, VerbatimTexts.reads⟩

/-- A user name that closes its literal and goes on with a condition that always holds. -/
theorem statements_fail : ¬ ∀ (utf8 : Utf8Codec) (env : Env) (w : World) (dt : QDateTime)
    (s : MainObject) (fd : Int) (c : SipConnection) (line : QString),
    ∀ st ∈ statements utf8 env w dt s fd c (split ' ' (stripWhiteSpace line)),
      st.ReadsAsTemplate := by
  intro hall
  have hverbatim := (verbatimTexts_of_reads (hall default demoEnv { now := 0 } ⟨2010, 1, 1, 0, 0, 0⟩
    (start demoDb) 5 { peerAddress := ⟨1⟩, pingTimestamp := 0 } "LI x\"or\"1 0.0.0.0 1")).login
      (by decide) (by decide)
  have hread := hverbatim.readLiteral (show ([] : QString).head? ≠ some '"' by decide)
  exact absurd hread (by decide)

end

end MainObject

end NetISDN
