import NetISDN.Client.ControlConnect
import NetISDN.Server.Calls

/-!
# The two ends of a call

A call passes three commands: the caller prints its settings in a `CA`, the server permutes the
numbers into one `ME` for each end, and each client reads its own. The ends come out as mirror
images of each other, unless the bit rate that the caller is to receive is no `int`: the server
prints it with `%d` for the caller, where everything else is printed with `%u`
(`MainObject.mirrorImages_iff`).
-/

namespace NetISDN

open AudioSettings

/-- A name that a command can carry. -/
structure IsName (name : QString) : Prop where
  ne_nil : name ≠ []
  no_space : ' ' ∉ name
  no_end : '!' ∉ name

instance (name : QString) : Decidable (IsName name) :=
  decidable_of_iff ((!name.isEmpty && !name.contains ' ' && !name.contains '!') = true) <| by
    simp only [Bool.and_eq_true, Bool.not_eq_true', List.isEmpty_eq_false_iff, List.contains_eq_mem,
      decide_eq_false_iff_not]
    exact ⟨fun ⟨⟨h₁, h₂⟩, h₃⟩ => ⟨h₁, h₂, h₃⟩, fun h => ⟨⟨h.ne_nil, h.no_space⟩, h.no_end⟩⟩

namespace AudioSettings

/-- What a client's encoder in one direction and the other's decoder are set to. -/
def stream (s : AudioSettings) (dir : Direction) : Format × BitVec 32 × BitVec 32 :=
  (s.format dir, s.channels dir, s.bitRate dir)

/-- What is done to the audio of one direction before it is sent. -/
def processing (s : AudioSettings) (dir : Direction) : Bool × BitVec 32 :=
  (s.enableProcessor dir, s.streamRatio dir)

end AudioSettings

namespace ControlConnect

variable {env : Env} {b : Build} {c : ControlConnect} {settings : AudioSettings} {name : QString}
  {addr : QHostAddress} {port port' : Nat} {ts : QStringList}

/-! ## The command that calls -/

/-- The tokens of a command whose tokens behind the second are numbers. -/
theorem join_numbers {tag : QString} {ns : List Nat} :
    join [' '] (tag :: name :: ns.map sprintfU) =
      tag ++ ' ' :: name ++ MainObject.sprintfUs ns := by
  rw [join_cons, List.flatMap_cons, List.flatMap_map, MainObject.sprintfUs, List.append_assoc]

/-- The tokens of the command of `initiateCall`. -/
def callTokens (username : QString) (settings : AudioSettings) : QStringList :=
  "CA".toList :: username :: (callNumbers settings).map sprintfU

/-- The `CA` as its tokens. -/
theorem callCommand_eq :
    callCommand name settings = join [' '] (callTokens name settings) ++ ['!'] := by
  rw [callTokens, join_numbers, callCommand]
  rfl

/-- The tokens are none that splitting would change. -/
theorem mem_callTokens {t : QString} (hname : IsName name) (h : t ∈ callTokens name settings) :
    t ≠ [] ∧ ' ' ∉ t := by
  rcases List.mem_cons.1 h with rfl | h
  · decide
  rcases List.mem_cons.1 h with rfl | h
  · exact ⟨hname.ne_nil, hname.no_space⟩
  · obtain ⟨n, -, rfl⟩ := List.mem_map.1 h
    exact ⟨sprintfU_ne_nil, not_mem_sprintfU rfl⟩

/-- The server splits the command into its tokens. -/
theorem split_callCommand {line : QString} (hname : IsName name)
    (hline : line ++ ['!'] = callCommand name settings) :
    split ' ' (stripWhiteSpace line) = callTokens name settings := by
  obtain rfl : line = join [' '] (callTokens name settings) :=
    List.append_cancel_right (hline.trans callCommand_eq)
  have hstrip : stripWhiteSpace (join [' '] (callTokens name settings)) =
      join [' '] (callTokens name settings) := by
    refine stripWhiteSpace_join (fun t ht => (mem_callTokens hname ht).1) ?_ ?_
    · rintro t ⟨⟩ c ⟨⟩
      rfl
    · -- the last token is a number
      intro t ht c hc
      obtain rfl : sprintfU (settings.streamRatio .receive).toNat = t := Option.some.inj ht
      exact isSpace_of_isDigit (isDigit_of_mem_sprintfU (List.mem_of_mem_getLast? hc))
  rw [hstrip, split_join fun t ht => mem_callTokens hname ht]

/-! ## The command that starts the media -/

/-- What `mediaStartReceived` hands on. -/
structure MediaStart where
  src_port : BitVec 16
  addr : QHostAddress
  dest_port : BitVec 16
  settings : AudioSettings

/-- On `line` a client emits `m`, whatever its state, and does nothing else. -/
def Starts (env : Env) (b : Build) (line : QString) (m : MediaStart) : Prop :=
  ∀ c : ControlConnect, c.conn_cmdline = [] → c.readyReadData env b line =
    c.emit (.mediaStartReceived m.src_port m.addr m.dest_port m.settings)

/-- The tokens of an `ME`. -/
def mediaTokens (username : QString) (port : Nat) (addr : QHostAddress) (port' : Nat)
    (ts : QStringList) : QStringList :=
  "ME".toList :: username :: sprintfU port :: addr.toString :: sprintfU port' :: ts

/-- A number is a name. -/
theorem isName_number (n : Nat) : IsName (sprintfU n) :=
  ⟨sprintfU_ne_nil, not_mem_sprintfU rfl, not_mem_sprintfU rfl⟩

/-- A signed number is a name. -/
theorem isName_int (i : Int) : IsName (sprintfD i) := by
  cases i with
  | ofNat n => exact isName_number n
  | negSucc n =>
      have h := isName_number (n + 1)
      exact ⟨List.cons_ne_nil _ _, mt List.mem_cons.1 (not_or.2 ⟨by decide, h.no_space⟩),
        mt List.mem_cons.1 (not_or.2 ⟨by decide, h.no_end⟩)⟩

/-- A client takes an `ME` with fifteen tokens, unless it is built without the format to receive. -/
theorem starts_mediaTokens (hb : b.mpegL3 = true ∨
      (mediaSettings (mediaTokens name port addr port' ts)).format .receive ≠ .layer3)
    (hname : IsName name)
    (haddr : addr.isNull = false) (hport : port < 2 ^ 16) (hport' : port' < 2 ^ 16)
    (hlen : ts.length = 10) (hts : ∀ t ∈ ts, IsName t) :
    Starts env b (join [' '] (mediaTokens name port addr port' ts) ++ ['!'])
      ⟨BitVec.ofNat 16 port, addr, BitVec.ofNat 16 port',
        mediaSettings (mediaTokens name port addr port' ts)⟩ := by
  intro c hempty
  have htokens : ∀ t ∈ mediaTokens name port addr port' ts, IsName t := by
    simp only [mediaTokens, List.forall_mem_cons]
    exact ⟨⟨by decide, by decide, by decide⟩, hname, isName_number port,
      ⟨QHostAddress.toString_ne_nil, QHostAddress.not_mem_toString rfl (by decide),
        QHostAddress.not_mem_toString rfl (by decide)⟩, isName_number port', hts⟩
  have hline : '!' ∉ join [' '] (mediaTokens name port addr port' ts) :=
    not_mem_join (by decide) fun t ht => (htokens t ht).no_end
  rw [readyReadData_command hempty hline, parseCommand]
  simp only [split_join fun t ht => ⟨(htokens t ht).ne_nil, (htokens t ht).no_space⟩]
  have hint {n : Nat} (hn : n < 2 ^ 16) : toInt? (sprintfU n) = some (n : Int) :=
    toInt?_sprintfU (by omega)
  have hlen' : (mediaTokens name port addr port' ts).length = 15 := by simp [mediaTokens, hlen]
  rw [if_neg (by omega)]
  have hdispatch :
      dispatch env b { c with conn_cmdline := [] } (mediaTokens name port addr port' ts) =
      mediaStart b { c with conn_cmdline := [] } (mediaTokens name port addr port' ts) := rfl
  have haddr' : QHostAddress.setAddress ((mediaTokens name port addr port' ts).at 3) = addr :=
    QHostAddress.setAddress_toString
  have hsrc : toInt? ((mediaTokens name port addr port' ts).at 2) = some (port : Int) := hint hport
  have hdest : toInt? ((mediaTokens name port addr port' ts).at 4) = some (port' : Int) :=
    hint hport'
  rw [hdispatch, mediaStart, if_neg (not_not.2 hlen')]
  have hcmdline : { c with conn_cmdline := [] } = c := by
    cases c
    cases hempty
    rfl
  have hbuild : ¬ (b.mpegL3 = false ∧
      (mediaSettings (mediaTokens name port addr port' ts)).format .receive = .layer3) := by
    rintro ⟨hfalse, hlayer3⟩
    rcases hb with htrue | hne
    · rw [htrue] at hfalse
      cases hfalse
    · exact hne hlayer3
  simp only [haddr', haddr, hsrc, hdest, or_self, hbuild, Bool.false_eq_true, if_false,
    BitVec.ofInt_natCast, hcmdline]

/-- What a client reads from fifteen tokens, if the receive format is one. -/
theorem mediaSettings_spec (cmds : QStringList) (f f' : Format)
    (hf : toUInt (cmds.at 5) = f.number.toNat) (hf' : toUInt (cmds.at 11) = f'.number.toNat)
    (hformat : f' ≠ .noFormat) :
    let number (i : Nat) : BitVec 32 := BitVec.ofNat 32 (toUInt (cmds.at i))
    (mediaSettings cmds).stream .transmit = (f, number 7, number 8) ∧
      (mediaSettings cmds).processing .transmit = (decide (number 9 ≠ 0), number 10) ∧
      (mediaSettings cmds).stream .receive = (f', number 13, number 14) ∧
      (mediaSettings cmds).sampleRate = number 6 := by
  have hreceive : (mediaSettings cmds).set_format .receive = f' := by
    simp [mediaSettings, setFormat, setChannels, setBitRate, setStreamRatio,
      setEnableProcessor, setSampleRate, setUsername, hf']
  have hauto := autoVector_of_ne (hreceive ▸ hformat)
  simp only [stream, processing, format, channels, bitRate, enableProcessor, streamRatio, hauto]
  simp [mediaSettings, setFormat, setChannels, setBitRate, setStreamRatio,
      setEnableProcessor, setSampleRate, setUsername, hf, hf', sampleRate]

end ControlConnect

/-! ## The commands of the server -/

namespace MainObject

open ControlConnect

variable {name : QString} {addr : QHostAddress} {port port' : Nat} {cmds : QStringList}

/-- Numbers that are printed one after the other. -/
theorem sprintfUs_map {ι : Type} (is : List ι) (n : ι → Nat) :
    sprintfUs (is.map n) = (is.map fun i => sprintfU (n i)).flatMap (' ' :: ·) := by
  rw [sprintfUs, List.flatMap_map, List.flatMap_map]

/-- The text in front of the numbers of an `ME`. -/
theorem join_mediaTokens {ts : QStringList} : join [' '] (mediaTokens name port addr port' ts) =
    "ME " ++ name ++ " " ++ sprintfU port ++ " " ++ addr.toString ++
      ' ' :: sprintfU port' ++ ts.flatMap (' ' :: ·) := by
  have htag : "ME ".toList = "ME".toList ++ [' '] := rfl
  have hspace : " ".toList = [' '] := rfl
  rw [mediaTokens, join_cons, htag, hspace]
  simp only [List.flatMap_cons, List.append_assoc, List.cons_append, List.nil_append]

/-- The `ME` for the caller as its tokens. -/
theorem callerMe_eq : callerMe name port addr port' cmds =
    join [' '] (mediaTokens name port addr port'
      (([2, 3, 4, 5, 6, 7, 8, 9, 10].map fun i => sprintfU (toUInt (cmds.at i))) ++
        [sprintfD (toInt32 (toUInt (cmds.at 11)))])) ++ ['!'] := by
  have hspace : " ".toList = [' '] := rfl
  have hend : "!".toList = ['!'] := rfl
  unfold callerMe
  rw [join_mediaTokens, List.flatMap_append, ← sprintfUs_map, List.flatMap_singleton,
    sprintfUs, List.flatMap_cons, ← sprintfUs, hspace, hend]
  simp only [List.append_assoc, List.cons_append, List.nil_append]

/-- The `ME` for the callee as its tokens. -/
theorem calleeMe_eq : calleeMe name port addr port' cmds =
    join [' '] (mediaTokens name port addr port'
      ([8, 9, 10, 11, 12, 13, 2, 3, 4, 5].map fun i => sprintfU (toUInt (cmds.at i)))) ++
      ['!'] := by
  have hend : "!".toList = ['!'] := rfl
  unfold calleeMe
  rw [join_mediaTokens, ← sprintfUs_map, sprintfUs, List.flatMap_cons, ← sprintfUs, hend]
  simp only [List.append_assoc, List.cons_append]

end MainObject

namespace ControlConnect

variable {settings : AudioSettings} {name : QString}

/-- The numbers in a `CA` are of 32 bits. -/
theorem lt_of_mem_callNumbers {n : Nat} (h : n ∈ callNumbers settings) : n < 2 ^ 32 := by
  have hbool (x : Bool) : x.toNat < 2 ^ 32 := lt_of_le_of_lt (Bool.toNat_le x) (by decide)
  simp only [callNumbers, List.mem_cons, List.not_mem_nil, or_false] at h
  rcases h with rfl | rfl | rfl | rfl | rfl | rfl | rfl | rfl | rfl | rfl | rfl | rfl
  all_goals first | exact BitVec.isLt _ | exact hbool _

/-- The numbers that the server reads are those that were printed. -/
theorem toUInt_callTokens {i n : Nat} (h : (callNumbers settings)[i]? = some n) :
    toUInt ((callTokens name settings).at (i + 2)) = n := by
  have hat : (callTokens name settings).at (i + 2) = sprintfU n := by
    simp [callTokens, QStringList.at, h]
  rw [hat, toUInt_sprintfU (lt_of_mem_callNumbers (List.mem_of_getElem? h))]

/-- The numbers of the `ME` to the caller, the last of them printed with `%d`. -/
theorem callerMe_callTokens {username : QString} {addr : QHostAddress} {port port' : Nat} :
    MainObject.callerMe username port addr port' (callTokens name settings) =
      join [' '] (mediaTokens username port addr port'
      (((callNumbers settings).take 9).map sprintfU ++
        [sprintfD (toInt32 (settings.bitRate .receive).toNat)])) ++ ['!'] := by
  rw [MainObject.callerMe_eq]
  simp only [List.map_cons, List.map_nil]
  rw [toUInt_callTokens (i := 0) rfl, toUInt_callTokens (i := 1) rfl,
    toUInt_callTokens (i := 2) rfl,
    toUInt_callTokens (i := 3) rfl, toUInt_callTokens (i := 4) rfl, toUInt_callTokens (i := 5) rfl,
    toUInt_callTokens (i := 6) rfl, toUInt_callTokens (i := 7) rfl, toUInt_callTokens (i := 8) rfl,
    toUInt_callTokens (i := 9) rfl]
  rfl

/-- The numbers of the `ME` to the callee. -/
theorem calleeMe_callTokens {username : QString} {addr : QHostAddress} {port port' : Nat} :
    MainObject.calleeMe username port addr port' (callTokens name settings) =
      join [' '] (mediaTokens username port addr port'
        (((callNumbers settings).drop 6 ++ (callNumbers settings).take 4).map sprintfU)) ++
        ['!'] := by
  rw [MainObject.calleeMe_eq]
  simp only [List.map_cons, List.map_nil]
  rw [toUInt_callTokens (i := 0) rfl, toUInt_callTokens (i := 1) rfl,
    toUInt_callTokens (i := 2) rfl,
    toUInt_callTokens (i := 3) rfl, toUInt_callTokens (i := 6) rfl, toUInt_callTokens (i := 7) rfl,
    toUInt_callTokens (i := 8) rfl, toUInt_callTokens (i := 9) rfl, toUInt_callTokens (i := 10) rfl,
    toUInt_callTokens (i := 11) rfl]
  rfl

/-- A number of 32 bits is read back. -/
theorem read_number (x : BitVec 32) : BitVec.ofNat 32 (toUInt (sprintfU x.toNat)) = x := by
  rw [toUInt_sprintfU x.isLt, BitVec.ofNat_toNat, BitVec.setWidth_eq]

/-- A flag is read back. -/
theorem read_flag (x : Bool) : decide (BitVec.ofNat 32 (toUInt (sprintfU x.toNat)) ≠ 0) = x := by
  rw [toUInt_sprintfU (lt_of_le_of_lt (Bool.toNat_le x) (by decide))]
  cases x with
  | false => rfl
  | true => rfl

/-- What is read back of a number printed with `%d`. -/
theorem toUInt_toInt32 {n : Nat} (hn : n < 2 ^ 32) :
    toUInt (sprintfD (toInt32 n)) = if n < 2 ^ 31 then n else 0 := by
  unfold toInt32
  split
  · exact toUInt_sprintfU hn
  · exact toUInt_sprintfD (by omega)

section
variable (name : QString) (addr : QHostAddress) (port port' : Nat)

/-- The settings that the caller reads. -/
theorem caller_settings (hformat : settings.format .receive ≠ .noFormat) :
    let read := mediaSettings (mediaTokens name port addr port'
      (((callNumbers settings).take 9).map sprintfU ++
        [sprintfD (toInt32 (settings.bitRate .receive).toNat)]))
    read.stream .transmit = settings.stream .transmit ∧
      read.processing .transmit = settings.processing .transmit ∧
      read.stream .receive = (settings.format .receive, settings.channels .receive,
        if (settings.bitRate .receive).toNat < 2 ^ 31 then settings.bitRate .receive else 0) ∧
      read.sampleRate = settings.sampleRate := by
  obtain ⟨hstream, hprocessing, hreceive, hrate⟩ := mediaSettings_spec
    (mediaTokens name port addr port' (((callNumbers settings).take 9).map sprintfU ++
      [sprintfD (toInt32 (settings.bitRate .receive).toNat)]))
    (settings.format .transmit) (settings.format .receive)
    (toUInt_sprintfU (BitVec.isLt _)) (toUInt_sprintfU (BitVec.isLt _)) hformat
  have hbits : BitVec.ofNat 32 (toUInt (sprintfD (toInt32 (settings.bitRate .receive).toNat))) =
      if (settings.bitRate .receive).toNat < 2 ^ 31 then settings.bitRate .receive else 0 := by
    rw [toUInt_toInt32 (BitVec.isLt _)]
    split
    · exact BitVec.eq_of_toNat_eq (by rw [BitVec.toNat_ofNat, Nat.mod_eq_of_lt (BitVec.isLt _)])
    · rfl
  refine ⟨hstream.trans ?_, hprocessing.trans ?_, hreceive.trans ?_, hrate.trans (read_number _)⟩
  · exact congrArg₂ (fun x y => (_, x, y)) (read_number _) (read_number _)
  · exact congrArg₂ Prod.mk (read_flag _) (read_number _)
  · exact congrArg₂ (fun x y => (_, x, y)) (read_number _) hbits

/-- The settings that the callee reads. -/
theorem callee_settings (hformat : settings.format .transmit ≠ .noFormat) :
    let read := mediaSettings (mediaTokens name port addr port'
      (((callNumbers settings).drop 6 ++ (callNumbers settings).take 4).map sprintfU))
    read.stream .transmit = settings.stream .receive ∧
      read.processing .transmit = settings.processing .receive ∧
      read.stream .receive = settings.stream .transmit ∧
      read.sampleRate = settings.sampleRate := by
  obtain ⟨hstream, hprocessing, hreceive, hrate⟩ := mediaSettings_spec
    (mediaTokens name port addr port'
      (((callNumbers settings).drop 6 ++ (callNumbers settings).take 4).map sprintfU))
    (settings.format .receive) (settings.format .transmit)
    (toUInt_sprintfU (BitVec.isLt _)) (toUInt_sprintfU (BitVec.isLt _)) hformat
  refine ⟨hstream.trans ?_, hprocessing.trans ?_, hreceive.trans ?_, hrate.trans (read_number _)⟩
  · exact congrArg₂ (fun x y => (_, x, y)) (read_number _) (read_number _)
  · exact congrArg₂ Prod.mk (read_flag _) (read_number _)
  · exact congrArg₂ (fun x y => (_, x, y)) (read_number _) (read_number _)

end

/-! ## Mirror images -/

/-- What both ends of a call emit, as mirror images made of the caller's settings. -/
structure Mirrored (settings : AudioSettings) (caller callee : MediaStart) : Prop where
  forth : caller.settings.stream .transmit = callee.settings.stream .receive
  back : callee.settings.stream .transmit = caller.settings.stream .receive
  sampleRate : caller.settings.sampleRate = settings.sampleRate ∧
    callee.settings.sampleRate = settings.sampleRate
  transmit : caller.settings.stream .transmit = settings.stream .transmit ∧
    caller.settings.processing .transmit = settings.processing .transmit
  receive : callee.settings.stream .transmit = settings.stream .receive ∧
    callee.settings.processing .transmit = settings.processing .receive
  ports : caller.src_port = callee.dest_port ∧ callee.src_port = caller.dest_port

/-- What a client emits on a line is determined by the line. -/
theorem Starts.det {env : Env} {b : Build} {line : QString} {m m' : MediaStart}
    (h : Starts env b line m) (h' : Starts env b line m') : m = m' := by
  have hsignals := congrArg ControlConnect.signals ((h {} rfl).symm.trans (h' {} rfl))
  cases m
  cases m'
  cases hsignals
  rfl

/-- What the caller emits. -/
def callerMedia (settings : AudioSettings) (name : QString) (addr : QHostAddress)
    (port port' : Nat) : MediaStart where
  src_port := BitVec.ofNat 16 port
  addr := addr
  dest_port := BitVec.ofNat 16 port'
  settings := mediaSettings (mediaTokens name port addr port'
    (((callNumbers settings).take 9).map sprintfU ++
      [sprintfD (toInt32 (settings.bitRate .receive).toNat)]))

/-- What the callee emits. -/
def calleeMedia (settings : AudioSettings) (name : QString) (addr : QHostAddress)
    (port port' : Nat) : MediaStart where
  src_port := BitVec.ofNat 16 port
  addr := addr
  dest_port := BitVec.ofNat 16 port'
  settings := mediaSettings (mediaTokens name port addr port'
    (((callNumbers settings).drop 6 ++ (callNumbers settings).take 4).map sprintfU))

section
variable {env : Env} {b : Build} {username called : QString} {addr : QHostAddress}
  {port port' : Nat}

/-- The caller starts with its `ME`. -/
theorem starts_callerMe (hb : b.mpegL3 = true ∨
      (callerMedia settings username addr port port').settings.format .receive ≠ .layer3)
    (hname : IsName username)
    (haddr : addr.isNull = false) (hport : port < 2 ^ 16) (hport' : port' < 2 ^ 16) :
    Starts env b (MainObject.callerMe username port addr port' (callTokens called settings))
      (callerMedia settings username addr port port') := by
  rw [callerMe_callTokens]
  refine starts_mediaTokens hb hname haddr hport hport' rfl fun t ht => ?_
  rcases List.mem_append.1 ht with ht | ht
  · obtain ⟨n, -, rfl⟩ := List.mem_map.1 ht
    exact isName_number n
  · obtain rfl := List.mem_singleton.1 ht
    exact isName_int _

/-- The callee starts with its `ME`. -/
theorem starts_calleeMe (hb : b.mpegL3 = true ∨
      (calleeMedia settings username addr port port').settings.format .receive ≠ .layer3)
    (hname : IsName username)
    (haddr : addr.isNull = false) (hport : port < 2 ^ 16) (hport' : port' < 2 ^ 16) :
    Starts env b (MainObject.calleeMe username port addr port' (callTokens called settings))
      (calleeMedia settings username addr port port') := by
  rw [calleeMe_callTokens]
  refine starts_mediaTokens hb hname haddr hport hport' rfl fun t ht => ?_
  obtain ⟨n, -, rfl⟩ := List.mem_map.1 ht
  exact isName_number n

/-- The ends are mirror images exactly if the bit rate that the caller receives is an `int`. -/
theorem mirrored_media {username' : QString} {addr' : QHostAddress}
    (htransmit : settings.set_format .transmit ≠ .noFormat) :
    Mirrored settings (callerMedia settings username addr port port')
      (calleeMedia settings username' addr' port' port) ↔
      (settings.bitRate .receive).toNat < 2 ^ 31 := by
  have hformat := format_ne_noFormat htransmit
  obtain ⟨hstream, hprocessing, hreceive, hrate⟩ :=
    caller_settings username addr port port' (hformat .receive)
  obtain ⟨hstream', hprocessing', hreceive', hrate'⟩ :=
    callee_settings username' addr' port' port (hformat .transmit)
  constructor
  · intro h
    by_contra hlt
    rw [if_neg hlt] at hreceive
    have hback : settings.stream .receive = (_, _, 0) := hstream'.symm.trans (h.back.trans hreceive)
    have hzero : settings.bitRate .receive = 0 := (Prod.mk.inj (Prod.mk.inj hback).2).2
    rw [hzero] at hlt
    exact hlt (by decide)
  · intro hlt
    rw [if_pos hlt] at hreceive
    exact ⟨hstream.trans hreceive'.symm, hstream'.trans hreceive.symm, ⟨hrate, hrate'⟩,
      ⟨hstream, hprocessing⟩, ⟨hstream', hprocessing'⟩, rfl, rfl⟩

end

end ControlConnect

namespace MainObject

open ControlConnect

variable {env : Env} {b : Build} {s s' : MainObject} {e : Event} {out : List Output} {fd d : Int}
  {c cd : SipConnection} {name : QString} {settings : AudioSettings}

/-- The event completes the command with which the client on `fd` calls `name`, MySQL finds a user
for the name, and the callee search finds the connection on `d`, which is free. -/
structure Calls (s : MainObject) (e : Event) (name : QString) (settings : AudioSettings)
    (fd d : Int) (c cd : SipConnection) : Prop where
  slot : e.slot = .socketReady fd '!'
  caller : s.conn fd = some c
  line : c.cmdline ++ ['!'] = callCommand name settings
  authenticated : c.isAuthenticated = true
  callee : ∃ u, e.world.lookup s.db name = some u ∧ s.calleeFd u.id = d
  online : 0 ≤ d
  conn : s.conn d = some cd
  free : cd.connectionFd < 0

/-- The `ME`s among commands. -/
def startsIn (cmds : List QString) : List QString :=
  cmds.filter fun cmd => mediaOf cmd = some .start

/-- What is sent under a condition. -/
theorem startsIn_ite {p : Prop} [Decidable p] (cmds : List QString) :
    startsIn (if p then cmds else []) = if p then startsIn cmds else [] := by
  split
  · rfl
  · rfl

/-- Metadata start nothing. -/
theorem startsIn_metadata (o : Option UserRow) : startsIn ((o.map metadata).getD []) = [] := by
  cases o with
  | none => rfl
  | some u => rfl

/-- Of the two commands to the caller the `ME` starts it. -/
theorem startsIn_callerMe {addr : QHostAddress} {port port' : Nat} {cmds : QStringList} :
    startsIn [erCommand .callProceeding, callerMe name port addr port' cmds] =
      [callerMe name port addr port' cmds] := rfl

/-- And the `ME` the callee. -/
theorem startsIn_calleeMe {addr : QHostAddress} {port port' : Nat} {cmds : QStringList}
    {rest : List QString} : startsIn (calleeMe name port addr port' cmds :: rest) =
      calleeMe name port addr port' cmds :: startsIn rest := rfl

/-- The tokens of the line are those of the `CA`. -/
theorem tokens_of_calls (hname : IsName name) (h : Calls s e name settings fd d c cd) :
    tokens c = callTokens name settings := split_callCommand hname h.line

/-- The line that is taken is cleared. -/
theorem conn_flush_takeLine (k : Int) : (s.flush.takeLine fd).conn k =
    if fd = k then (s.conn k).map SipConnection.clearLine else s.conn k := conn_modifyConn

/-- Taking the line of the `CA` off leaves what the server knows of the callee's connection. -/
theorem exists_callee_of_calls (h : Calls s e name settings fd d c cd) :
    ∃ cd₀, (s.flush.takeLine fd).conn d = some cd₀ ∧ cd₀.username = cd.username ∧
      cd₀.peerAddress = cd.peerAddress ∧ cd₀.localAddress = cd.localAddress ∧
      cd₀.connectionFd = cd.connectionFd := by
  rw [conn_flush_takeLine, h.conn]
  split
  · exact ⟨_, rfl, rfl, rfl, rfl, rfl⟩
  · exact ⟨_, rfl, rfl, rfl, rfl, rfl⟩

/-- The `CA` finds the callee. -/
theorem callee_of_calls (hname : IsName name) (h : Calls s e name settings fd d c cd) :
    (s.flush.takeLine fd).callee e.world c.clearLine (tokens c) = some d := by
  obtain ⟨u, hu, hd⟩ := h.callee
  obtain ⟨cd₀, hcd₀, -, -, -, hfree⟩ := exists_callee_of_calls h
  have htokens : tokens c = callTokens name settings := tokens_of_calls hname h
  have hsearch : (s.flush.takeLine fd).calleeFd u.id = d := by
    rw [← hd]
    refine calleeFd_congr (fun k => ?_) u.id
    rw [conn_flush_takeLine]
    split
    · rw [Option.map_map]
      rfl
    · rfl
  have hselect : e.world.lookup (s.flush.takeLine fd).db ((tokens c).at 1) = some u := by
    rw [htokens]
    exact hu
  have hany : ((s.flush.takeLine fd).conn d).any (·.connectionFd < 0) = true := by
    rw [hcd₀]
    simpa [hfree] using h.free
  rw [callee, if_pos ⟨by rw [htokens]; rfl, h.authenticated, by rw [htokens]; rfl⟩, hselect,
    Option.bind_some]
  simp only [hsearch, h.online, hany, and_self, if_true]

/-- The `ME`s that a call leads to. -/
theorem startsIn_of_calls (hname : IsName name) (h : Calls s e name settings fd d c cd)
    (hs : step env s e = some (s', out)) : ∃ port port', port < 2 ^ 16 ∧ port' < 2 ^ 16 ∧
      ∀ k, startsIn (commandsTo k out) =
        (if fd = k then [callerMe cd.username port (callAddrs c cd).2 port'
          (callTokens name settings)] else []) ++
        if d = k then [calleeMe c.username port' (callAddrs c cd).1 port
          (callTokens name settings)] else [] := by
  obtain ⟨s₁, hrun, -, rfl⟩ := step_runSlot hs
  obtain ⟨hc, hdispatch⟩ := runSlot_received (s := s.flush) env (received_eq h.slot h.caller)
  obtain ⟨cd₀, hcd₀, husername, hpeer, hlocal, -⟩ := exists_callee_of_calls h
  have haddrs : callAddrs c.clearLine cd₀ = callAddrs c cd := by
    simp only [callAddrs, hpeer, hlocal, SipConnection.clearLine_peerAddress,
      SipConnection.clearLine_localAddress]
  obtain ⟨cd', hcd', hsetup⟩ := dispatch_setup env e.world hc (callee_of_calls hname h)
  obtain ⟨port, port', id, row, hcall⟩ :=
    setupCall_spec hc hcd₀ (hsetup.symm.trans (hdispatch.symm.trans hrun))
  refine ⟨if d = fd then port' else port, port', ?_, hcall.port_lt', fun k => ?_⟩
  · split
    · exact hcall.port_lt'
    · exact hcall.port_lt
  · have hsent : commandsTo k s₁.sent = _ := hcall.sentTo k
    have hnone : (s.flush.takeLine fd).sentTo k = [] := rfl
    rw [hsent, husername, haddrs, tokens_of_calls hname h, hnone, List.nil_append, startsIn,
      List.filter_append, List.filter_append, ← startsIn, ← startsIn, ← startsIn, startsIn_ite,
      startsIn_ite, startsIn_ite, startsIn_callerMe, startsIn_calleeMe, startsIn_metadata,
      startsIn_metadata, ite_self, List.append_nil]
    rfl

/-- The ends `fd` and `d` of a call are each sent one `ME`, on which their clients emit `caller` and
`callee`. -/
def MediaEnds (env : Env) (b : Build) (fd d : Int) (out : List Output)
    (caller callee : MediaStart) :
    Prop :=
  ∃ line line', (∀ k, startsIn (commandsTo k out) =
      (if fd = k then [line] else []) ++ if d = k then [line'] else []) ∧
    Starts env b line caller ∧ Starts env b line' callee

/-- What the clients of a call emit is determined by what they are sent. -/
theorem MediaEnds.det {caller callee caller' callee' : MediaStart}
    (h : MediaEnds env b fd d out caller callee)
    (h' : MediaEnds env b fd d out caller' callee') : caller = caller' ∧ callee = callee' := by
  obtain ⟨line, line', hsent, hstarts, hstarts'⟩ := h
  obtain ⟨line₁, line₁', hsent₁, hstarts₁, hstarts₁'⟩ := h'
  have hfd := (hsent fd).symm.trans (hsent₁ fd)
  have hd := (hsent d).symm.trans (hsent₁ d)
  rw [if_pos rfl, if_pos rfl] at hfd hd
  obtain rfl : line = line₁ := (List.cons.inj hfd).1
  obtain rfl : line' = line₁' := by
    have hlast := congrArg List.getLast? hd
    simpa using hlast
  exact ⟨hstarts.det hstarts₁, hstarts'.det hstarts₁'⟩

/-- The ends `fd` and `d` of a call are each sent one `ME`, on which their clients emit mirror
images of each other. -/
def MirrorImages (env : Env) (b : Build) (settings : AudioSettings) (fd d : Int)
    (out : List Output) : Prop :=
  ∃ line line' caller callee,
    (∀ k, startsIn (commandsTo k out) =
      (if fd = k then [line] else []) ++ if d = k then [line'] else []) ∧
    Starts env b line caller ∧ Starts env b line' callee ∧ Mirrored settings caller callee

/-- The clients of both ends start the media with what the caller's command says, unless they are
built without a format that it names. -/
theorem ends_of_calls (hb : b.mpegL3 = true ∨ ∀ dir, settings.format dir ≠ .layer3)
    (h : Calls s e name settings fd d c cd) (hname : IsName name) (hcaller : IsName c.username)
    (hcallee : IsName cd.username) (haddr : (callAddrs c cd).1.isNull = false)
    (haddr' : (callAddrs c cd).2.isNull = false)
    (htransmit : settings.set_format .transmit ≠ .noFormat) (hs : step env s e = some (s', out)) :
    ∃ addr addr' port port',
      MediaEnds env b fd d out (callerMedia settings cd.username addr port port')
        (calleeMedia settings c.username addr' port' port) := by
  obtain ⟨port, port', hport, hport', hsent⟩ := startsIn_of_calls hname h hs
  have hformat := format_ne_noFormat htransmit
  refine ⟨_, _, _, _, _, _, hsent,
    starts_callerMe (hb.imp_right fun hall => ?_) hcallee haddr' hport hport',
    starts_calleeMe (hb.imp_right fun hall => ?_) hcaller haddr hport' hport⟩
  · obtain ⟨-, -, hstream, -⟩ :=
      caller_settings cd.username (callAddrs c cd).2 port port' (hformat .receive)
    exact fun h => hall .receive ((Prod.mk.inj hstream).1.symm.trans h)
  · obtain ⟨-, -, hstream, -⟩ :=
      callee_settings c.username (callAddrs c cd).1 port' port (hformat .transmit)
    exact fun h => hall .transmit ((Prod.mk.inj hstream).1.symm.trans h)

section
variable (hb : b.mpegL3 = true) (h : Calls s e name settings fd d c cd) (hname : IsName name)
  (hcaller : IsName c.username) (hcallee : IsName cd.username)
  (haddr : (callAddrs c cd).1.isNull = false) (haddr' : (callAddrs c cd).2.isNull = false)
  (htransmit : settings.set_format .transmit ≠ .noFormat)
  (hs : step env s e = some (s', out))
include hb h hname hcaller hcallee haddr haddr' htransmit hs

/-- A rate that arrives is one of an `int`. -/
theorem lt_of_mirrorImages (hmirror : MirrorImages env b settings fd d out) :
    (settings.bitRate .receive).toNat < 2 ^ 31 := by
  obtain ⟨addr, addr', port, port', hends⟩ :=
    ends_of_calls (.inl hb) h hname hcaller hcallee haddr haddr' htransmit hs
  obtain ⟨line, line', caller, callee, hsent, hstarts, hstarts', hmirrored⟩ := hmirror
  obtain ⟨rfl, rfl⟩ := hends.det ⟨line, line', hsent, hstarts, hstarts'⟩
  exact (mirrored_media htransmit).1 hmirrored

/-- **The ends of a call are configured as mirror images if and only if the bit rate that the
caller is to receive is less than 2^31.** -/
theorem mirrorImages_iff :
    MirrorImages env b settings fd d out ↔ (settings.bitRate .receive).toNat < 2 ^ 31 := by
  refine ⟨lt_of_mirrorImages hb h hname hcaller hcallee haddr haddr' htransmit hs, fun hlt => ?_⟩
  obtain ⟨addr, addr', port, port', line, line', hsent, hstarts, hstarts'⟩ :=
    ends_of_calls (.inl hb) h hname hcaller hcallee haddr haddr' htransmit hs
  exact ⟨line, line', _, _, hsent, hstarts, hstarts', (mirrored_media htransmit).2 hlt⟩

end

/-! ## Two clients -/

/-- A logged-in client behind the address `addr`, whose command line is `line`. -/
def demoClient (uid : Int) (username : QString) (addr : QHostAddress) (line : QString) :
    SipConnection where
  cmdline := line
  peerAddress := addr
  uid := uid
  username := username
  isAuthenticated := true
  pingTimestamp := 0

/-- Alice is about to end the command with which she calls Bob. -/
def calling (settings : AudioSettings) : MainObject :=
  ((start demoDb).insertConn 5 (demoClient 1 "alice" ⟨1⟩
    (callCommand "bob" settings).dropLast)).insertConn 6 (demoClient 2 "bob" ⟨2⟩ [])

/-- She ends it. -/
def demoEnd : Event := ⟨.socketReady 5 '!', { now := 0 }⟩

/-- The server calls the second client of the demonstration. -/
theorem calleeFd_calling (settings : AudioSettings) : (calling settings).calleeFd 2 = 6 := by
  have hconn (k : Int) : (calling settings).conn k = _ := conn_insertConn
  rcases calleeFd_spec (calling settings) 2 with ⟨c, hc, huid, -⟩ | ⟨-, hno⟩
  · rw [hconn, conn_insertConn] at hc
    split at hc
    · next heq => exact heq.symm
    · split at hc
      · obtain rfl := Option.some.inj hc
        cases huid
      · cases hc
  · exact absurd rfl (hno 6 _ ((hconn 6).trans (if_pos rfl)))

/-- The call of the demonstration. -/
theorem calls_calling (settings : AudioSettings) :
    Calls (calling settings) demoEnd "bob" settings 5 6
    (demoClient 1 "alice" ⟨1⟩ (callCommand "bob" settings).dropLast)
    (demoClient 2 "bob" ⟨2⟩ []) where
  slot := rfl
  caller := by rw [calling, conn_insertConn, if_neg (by decide), conn_insertConn, if_pos rfl]
  line := by rw [callCommand_eq, List.dropLast_concat]; rfl
  authenticated := rfl
  callee := ⟨_, rfl, calleeFd_calling settings⟩
  online := by decide
  conn := by rw [calling, conn_insertConn, if_pos rfl]
  free := by decide

/-- Settings with a bit rate, the same both ways. -/
def demoSettings (rate : BitVec 32) : AudioSettings := { set_bit_rate := fun _ => rate }

/-- Alice is about to end the command with which she calls Bob. -/
def demoCalling (rate : BitVec 32) : MainObject := calling (demoSettings rate)

/-- And with the bit rate. -/
theorem demoCalls (rate : BitVec 32) :
    Calls (demoCalling rate) demoEnd "bob" (demoSettings rate) 5 6
    (demoClient 1 "alice" ⟨1⟩ (callCommand "bob" (demoSettings rate)).dropLast)
    (demoClient 2 "bob" ⟨2⟩ []) := calls_calling _

/-- Alice is to receive 64000 bits per second. -/
theorem mirrorImages_iff_demo : ∃ s' out,
    step demoEnv (demoCalling 64000) demoEnd = some (s', out) ∧
    MirrorImages demoEnv ⟨true, []⟩ (demoSettings 64000) 5 6 out := by
  have hstep : (step demoEnv (demoCalling 64000) demoEnd).isSome = true := by decide +kernel
  obtain ⟨⟨s', out⟩, hs⟩ := Option.isSome_iff_exists.1 hstep
  exact ⟨s', out, hs, (mirrorImages_iff rfl (demoCalls 64000) ⟨by decide, by decide, by decide⟩
    ⟨by decide, by decide, by decide⟩ ⟨by decide, by decide, by decide⟩ (by decide) (by decide)
    (by decide) hs).2 (by decide)⟩

/-- At 2^31 bits per second she receives a negative number, and reads none. -/
theorem mirrorImages_fails : ¬ ∀ (env : Env) (b : Build) (s s' : MainObject) (e : Event)
    (out : List Output) (fd d : Int) (c cd : SipConnection) (name : QString)
    (settings : AudioSettings), b.mpegL3 = true → Calls s e name settings fd d c cd →
    IsName name → IsName c.username → IsName cd.username → (callAddrs c cd).1.isNull = false →
    (callAddrs c cd).2.isNull = false → settings.set_format .transmit ≠ .noFormat →
    step env s e = some (s', out) → MirrorImages env b settings fd d out := by
  intro hall
  have hstep : (step demoEnv (demoCalling (2 ^ 31)) demoEnd).isSome = true := by decide +kernel
  obtain ⟨⟨s', out⟩, hs⟩ := Option.isSome_iff_exists.1 hstep
  have halice : IsName "alice" := ⟨by decide, by decide, by decide⟩
  have hbob : IsName "bob" := ⟨by decide, by decide, by decide⟩
  have hcalls := demoCalls (2 ^ 31)
  have hmirror := hall demoEnv ⟨true, []⟩ _ s' _ out 5 6 _ _ _ _ rfl hcalls hbob halice hbob rfl rfl
    (by decide) hs
  exact absurd (lt_of_mirrorImages rfl hcalls hbob halice hbob rfl rfl (by decide) hs hmirror)
    (by decide)

end MainObject

end NetISDN
