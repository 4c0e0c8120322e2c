import NetISDN.Client.MirrorImages
import NetISDN.General.Framing
import NetISDN.General.Steering

/-!
# Commands as instructions

To the media of a client a command is an instruction, or nothing: an `ME` that it can read says what
to start, an `MS` to stop, and the rest do not matter (`ControlConnect.Emits`).
-/

namespace NetISDN

open AudioSettings Steering Framing

namespace ControlConnect

variable {env : Env} {b : Build} {c : ControlConnect} {cmd cmds : QStringList} {m : MediaStart}
  {line : QString}

/-- What an `ME` offers, if it can be read. -/
def offer (cmd : QStringList) : Option MediaStart :=
  if cmd.length ≠ 15 then none
  else
    let addr := QHostAddress.setAddress (cmd.at 3)
    if addr.isNull then none
    else
      match toInt? (cmd.at 2), toInt? (cmd.at 4) with
      | some src_port, some dest_port =>
          some ⟨BitVec.ofInt 16 src_port, addr, BitVec.ofInt 16 dest_port, mediaSettings cmd⟩
      | _, _ => none

/-- The build can receive what is offered. -/
def Build.Plays (b : Build) (m : MediaStart) : Prop :=
  b.mpegL3 = true ∨ m.settings.format .receive ≠ .layer3

instance (b : Build) (m : MediaStart) : Decidable (b.Plays m) :=
  inferInstanceAs (Decidable (_ ∨ _))

/-- The signal that hands on what is offered. -/
def MediaStart.signal (m : MediaStart) : Signal :=
  .mediaStartReceived m.src_port m.addr m.dest_port m.settings

/-- `MediaStart` in terms of what is offered. -/
theorem mediaStart_eq : c.mediaStart b cmd = match offer cmd with
    | none => c
    | some m =>
    if b.Plays m then c.emit m.signal else c.sendCommand (erCommand .formatUnsupported) := by
  unfold mediaStart offer
  by_cases hlen : cmd.length ≠ 15
  · rw [if_pos hlen, if_pos hlen]
  rw [if_neg hlen, if_neg hlen]
  dsimp only
  by_cases hnull : (QHostAddress.setAddress (cmd.at 3)).isNull = true
  · rw [if_pos hnull, if_pos hnull]
  rw [if_neg hnull, if_neg hnull]
  cases toInt? (cmd.at 2) with
  | none => rfl
  | some src_port =>
      cases toInt? (cmd.at 4) with
      | none => rfl
      | some dest_port =>
          dsimp only
          have hplays : (b.mpegL3 = false ∧ ((mediaSettings cmd).format .receive = .layer3 ∨
                (mediaSettings cmd).format .receive = .layer3)) ↔
              ¬ b.Plays ⟨BitVec.ofInt 16 src_port, QHostAddress.setAddress (cmd.at 3),
                BitVec.ofInt 16 dest_port, mediaSettings cmd⟩ := by
            simp [Build.Plays]
          split
          · next h => rw [if_neg (hplays.1 h)]
          · next h =>
              rw [if_pos (not_not.1 (mt hplays.2 h))]
              rfl

/-- What the tokens of a command mean to the media of a client. -/
def instruction (cmds : QStringList) : Option (Instruction MediaStart) :=
  if cmds.at 0 = "ME" then (offer cmds).map .on
  else if cmds.at 0 = "MS" then some .off
  else none

/-- What a command, with the mark at its end, means to the media of a client. -/
def instructionOf (cmd : QString) : Option (Instruction MediaStart) :=
  instruction (split ' ' cmd.dropLast)

/-- The instructions among some commands. -/
def instructionsIn (cmds : List QString) : List (Instruction MediaStart) :=
  cmds.filterMap instructionOf

@[simp] theorem instructionsIn_nil : instructionsIn [] = [] := rfl

/-- The instructions of the first command, and those of the others. -/
theorem instructionsIn_cons {cmd : QString} {l : List QString} :
    instructionsIn (cmd :: l) = (instructionOf cmd).toList ++ instructionsIn l := by
  rw [instructionsIn, List.filterMap_cons]
  cases instructionOf cmd <;> rfl

@[simp] theorem instructionsIn_append (l l' : List QString) :
    instructionsIn (l ++ l') = instructionsIn l ++ instructionsIn l' := List.filterMap_append

/-! ## What a client does with a command -/

/-- The signal that a command makes a client emit, if any: its instruction says where there is one.
-/
inductive Emits (b : Build) (cmds : QStringList) : Option Signal → Prop
  | start {m : MediaStart} (h : instruction cmds = some (.on m)) (hplays : b.Plays m) :
      Emits b cmds (some m.signal)
  | refuse {m : MediaStart} (h : instruction cmds = some (.on m)) (hplays : ¬ b.Plays m) :
      Emits b cmds none
  | stop (h : instruction cmds = some .off) : Emits b cmds (some .mediaStopReceived)
  | response (h : instruction cmds = none) (code : Nat) :
    Emits b cmds (some (.responseReceived code))
  | codebook (h : instruction cmds = none) (start_pkt comment_pkt codebook_pkt : QString) :
      Emits b cmds (some (.codebookReceived start_pkt comment_pkt codebook_pkt))
  | metadata (h : instruction cmds = none) (mf : MetadataField) (str : QString) :
      Emits b cmds (some (.metadataReceived mf str))
  | silent (h : instruction cmds = none) : Emits b cmds none

/-- Commands are sent, and then a signal is emitted. -/
structure Reacts (c c' : ControlConnect) (texts : List QString) (signal : Option Signal) :
    Prop where
  sent : c'.sent = c.sent ++ texts
  signals : c'.signals = c.signals ++ signal.toList
  closed : ∀ text ∈ texts, Closed '!' text

/-- A text with a mark behind it is closed. -/
theorem closed_concat (text : QString) : Closed '!' (text ++ ['!']) := .inr List.getLast?_concat

/-- Nothing is done. -/
theorem Reacts.refl (c : ControlConnect) : Reacts c c [] none :=
  ⟨(List.append_nil _).symm, (List.append_nil _).symm, fun _ h => nomatch h⟩

/-- A signal is emitted and nothing is sent. -/
theorem reacts_emit (c : ControlConnect) (signal : Signal) :
    Reacts c (c.emit signal) [] (some signal) :=
  ⟨(List.append_nil _).symm, rfl, fun _ h => nomatch h⟩

/-- One command is sent and no signal is emitted. -/
theorem reacts_sendCommand (c : ControlConnect) (text : QString) :
    Reacts c (c.sendCommand (text ++ ['!'])) [text ++ ['!']] none :=
  ⟨rfl, (List.append_nil _).symm, fun _ ht => List.mem_singleton.1 ht ▸ closed_concat text⟩

/-- Two reactions without a signal, one after the other. -/
theorem Reacts.trans {c' c'' : ControlConnect} {texts texts' : List QString}
    (h : Reacts c c' texts none) (h' : Reacts c' c'' texts' none) :
    Reacts c c'' (texts ++ texts') none where
  sent := by rw [h'.sent, h.sent, List.append_assoc]
  signals := by rw [h'.signals, h.signals, Option.toList_none, List.append_nil]
  closed := List.forall_mem_append.2 ⟨h.closed, h'.closed⟩

/-- A metadata field is sent without a signal. -/
theorem reacts_sendMetadata (mf : MetadataField) (str : QString) :
    ∃ texts, Reacts c (c.sendMetadata mf str) texts none := by
  cases mf with
  | name | email | phone => exact ⟨_, reacts_sendCommand c _⟩
  | location | unknown | last => exact ⟨[], .refl c⟩

/-- The connection is set up without a signal. -/
theorem reacts_connectedData : ∃ texts, Reacts c (c.connectedData b) texts none :=
  ⟨_, reacts_sendCommand c ("LI ".toList ++ c.conn_username ++ " ".toList ++ c.address.toString ++
    "  ".toList ++ b.version)⟩

/-- A command with the code `ME` is the only one that may start the media. -/
theorem reacts_mediaStart (h : cmd.at 0 = "ME") :
    ∃ texts signal, Reacts c (c.mediaStart b cmd) texts signal ∧ Emits b cmd signal := by
  have hinstr : instruction cmd = (offer cmd).map .on := if_pos h
  rw [mediaStart_eq]
  cases hoffer : offer cmd with
  | none => exact ⟨[], none, .refl c, .silent (by rw [hinstr, hoffer]; rfl)⟩
  | some m =>
      have hon : instruction cmd = some (.on m) := by rw [hinstr, hoffer]; rfl
      dsimp only
      split
      · next hplays => exact ⟨[], some m.signal, reacts_emit c m.signal, .start hon hplays⟩
      · next hplays => exact ⟨_, none, reacts_sendCommand c _, .refuse hon hplays⟩

/-- The answer to the login carries no instruction. -/
theorem reacts_login (h : instruction cmd = none) :
    ∃ texts signal, Reacts c (c.login cmd) texts signal ∧ Emits b cmd signal := by
  unfold login
  split
  · exact ⟨[], _, reacts_emit c _, .response h _⟩
  · split
    · exact ⟨[], _, reacts_emit c _, .response h _⟩
    · exact ⟨[], _, ⟨(List.append_nil _).symm, rfl, fun _ ht => nomatch ht⟩, .response h _⟩

/-- Metadata carry no instruction. -/
theorem reacts_metadata (h : instruction cmd = none) :
    ∃ texts signal, Reacts c (c.metadata cmd) texts signal ∧ Emits b cmd signal := by
  unfold metadata
  split
  · exact ⟨[], _, reacts_emit c _, .metadata h _ _⟩
  · exact ⟨[], _, reacts_emit c _, .metadata h _ _⟩
  · exact ⟨[], none, .refl c, .silent h⟩

/-- What `ParseCommand` makes of the tokens of a command. -/
theorem dispatch_reacts (env : Env) (b : Build) (c : ControlConnect) (cmd : QStringList) :
    ∃ texts signal, Reacts c (c.dispatch env b cmd) texts signal ∧ Emits b cmd signal := by
  have hnone (hME : cmd.at 0 ≠ "ME") (hMS : cmd.at 0 ≠ "MS") : instruction cmd = none := by
    rw [instruction, if_neg hME, if_neg hMS]
  have htag {x : QString} (hx : cmd.at 0 = x) (hME : x ≠ "ME") (hMS : x ≠ "MS") :
      instruction cmd = none :=
    hnone (hx.trans_ne hME) (hx.trans_ne hMS)
  unfold dispatch
  split_ifs with hLI hOK hER hME hMS hMD hCB hPG
  · have h := htag hLI (by decide) (by decide)
    unfold challenge
    split
    · exact ⟨[], none, .refl c, .silent h⟩
    · exact ⟨_, none, reacts_sendCommand c _, .silent h⟩
  · exact reacts_login (htag hOK (by decide) (by decide))
  · have h := htag hER (by decide) (by decide)
    unfold response
    split
    · exact ⟨[], none, .refl c, .silent h⟩
    · exact ⟨[], _, reacts_emit c _, .response h _⟩
  · exact reacts_mediaStart hME
  · exact ⟨[], _, reacts_emit c _, .stop (by rw [instruction, if_neg hME, if_pos hMS])⟩
  · exact reacts_metadata (hnone hME hMS)
  · unfold codeBook
    split
    · exact ⟨[], none, .refl c, .silent (hnone hME hMS)⟩
    · exact ⟨[], _, reacts_emit c _, .codebook (hnone hME hMS) _ _ _⟩
  · exact ⟨_, none, reacts_sendCommand c "PG", .silent (hnone hME hMS)⟩
  · exact ⟨[], none, .refl c, .silent (hnone hME hMS)⟩

/-- What a client does with a command line. -/
theorem parseCommand_reacts (env : Env) (b : Build) (c : ControlConnect) : ∃ texts signal,
    Reacts c (c.parseCommand env b) texts signal ∧ Emits b (split ' ' c.conn_cmdline) signal := by
  unfold parseCommand
  dsimp only
  split
  · next hlen =>
      have hnil : split ' ' c.conn_cmdline = [] := List.length_eq_zero_iff.1 (by omega)
      exact ⟨[], none, ⟨(List.append_nil _).symm, (List.append_nil _).symm, fun _ ht => nomatch ht⟩,
        .silent (by rw [hnil]; decide)⟩
  · obtain ⟨texts, signal, h, hsignal⟩ := dispatch_reacts env b { c with conn_cmdline := [] }
      (split ' ' c.conn_cmdline)
    exact ⟨texts, signal, ⟨h.sent, h.signals, h.closed⟩, hsignal⟩

/-! ## The first token -/

/-- A character that is no separator goes into the first piece. -/
theorem splitOn_ne_nil_cons {sep a : Char} {t : QString} (ha : a ≠ sep) :
    ∃ s ss, (a :: t).splitOn sep = (a :: s) :: ss ∧ t.splitOn sep = s :: ss := by
  obtain ⟨s, ss, hs⟩ := List.exists_cons_of_ne_nil (List.splitOn_ne_nil sep t)
  refine ⟨s, ss, ?_, hs⟩
  rw [List.splitOn_cons_eq_if_modifyHead, if_neg (by simpa using ha), hs]
  rfl

/-- A text that begins with two letters has a first token that does. -/
theorem split_two {a a' : Char} {t : QString} (ha : a ≠ ' ') (ha' : a' ≠ ' ') :
    ∃ s ts, split ' ' (a :: a' :: t) = (a :: a' :: s) :: ts := by
  obtain ⟨s, ss, hs, hs'⟩ := splitOn_ne_nil_cons (t := a' :: t) ha
  obtain ⟨s₁, ss₁, hs₁, -⟩ := splitOn_ne_nil_cons (t := t) ha'
  obtain ⟨rfl, rfl⟩ : a' :: s₁ = s ∧ ss₁ = ss := by simpa using hs₁.symm.trans hs'
  exact ⟨s₁, ss₁.filter (· ≠ []), by rw [split, hs, List.filter_cons_of_pos (by simp)]⟩

/-- A command that begins with two letters that are not those of a media command is no instruction.
-/
theorem instruction_eq_none {a a' : Char} {t : QString} (ha : a ≠ ' ') (ha' : a' ≠ ' ')
    (hmedia : a ≠ 'M' ∨ a' ≠ 'E' ∧ a' ≠ 'S') : instruction (split ' ' (a :: a' :: t)) = none := by
  obtain ⟨s, ts, hs⟩ := split_two (t := t) ha ha'
  have hne {x : Char} (hx : a = 'M' → a' ≠ x) :
      QStringList.at ((a :: a' :: s) :: ts) 0 ≠ ['M', x] := by
    intro heq
    obtain ⟨rfl, rfl, -⟩ : a = 'M' ∧ a' = x ∧ s = [] := by simpa [QStringList.at] using heq
    exact hx rfl rfl
  have hME : QStringList.at ((a :: a' :: s) :: ts) 0 ≠ "ME".toList :=
    hne fun ham => (hmedia.resolve_left (not_not.2 ham)).1
  have hMS : QStringList.at ((a :: a' :: s) :: ts) 0 ≠ "MS".toList :=
    hne fun ham => (hmedia.resolve_left (not_not.2 ham)).2
  rw [hs, instruction, if_neg hME, if_neg hMS]

end ControlConnect

end NetISDN
