import NetISDN.Client.Reconnect
import NetISDN.Client.Rml

/-!
# The RML ports

`rmlReadData` (`netisdn.cpp:612`) reads the datagrams that wait on two ports, one after the other.
What it has read of a command stays in one text until the command ends, whoever goes on with it. The
commands are those of each sender if and only if, wherever one ends, what is in that text has the
tokens of what the sender itself has left (`rmlReadData_eq_iff`).
-/

namespace NetISDN

/-- A datagram that waits on a port. -/
structure Datagram where
  sender : QHostAddress
  bytes : QString
  deriving DecidableEq

/-- A call of `ProcessRml`: its tokens, and the address of the reply. -/
abbrev RmlCall := QStringList × QHostAddress

/-- What the loop over a port has made: the text of a command that has not ended, the commands that
have been passed to `ProcessRml`, and the datagrams that are still waiting. -/
structure PortRead where
  cmd : QString
  calls : List RmlCall
  waiting : List Datagram

/-- The loop over the bytes of a datagram. -/
def readRml (addr : QHostAddress) (cmd : QString) : QString → QString × List RmlCall
  | [] => (cmd, [])
  | c :: buf =>
      if c = '!' then
        let (cmd', calls) := readRml addr "" buf
        (cmd', (split ' ' cmd, addr) :: calls)
      else readRml addr (cmd ++ [c]) buf

/-- The loop over a port. It ends when there is no datagram, or an empty one; `readBlock` delivers
1500 bytes of a longer one. -/
def readPort (reply : QHostAddress → QHostAddress) (cmd : QString) : List Datagram → PortRead
  | [] => ⟨cmd, [], []⟩
  | d :: waiting =>
      let buf := d.bytes.take 1500
      if buf.length = 0 then ⟨cmd, [], waiting⟩
      else
        let (cmd, calls) := readRml (reply d.sender) cmd buf
        let port := readPort reply cmd waiting
        { port with calls := calls ++ port.calls }

/-- `rmlReadData` (`netisdn.cpp:612`): the commands that are passed to `ProcessRml`. -/
def rmlReadData (echo noecho : List Datagram) : List RmlCall :=
  let echoed := readPort id "" echo
  echoed.calls ++ (readPort (fun _ => .null) echoed.cmd noecho).calls

/-! ## Commands of a text -/

section
variable {r r' t text line bytes : QString} {sep c : Char} {n : Nat}

/-- The commands of a text, those without tokens too. -/
def commandsIn (text : QString) : List QStringList := (frames text).map (split ' ')

/-- A text without a mark holds no command. -/
theorem commandsIn_of_not_mem (h : '!' ∉ text) : commandsIn text = [] := by
  rw [commandsIn, frames_of_not_mem h]
  rfl

/-- The command before the first mark, and those behind it. -/
theorem commandsIn_append_cons (h : '!' ∉ line) :
    commandsIn (line ++ '!' :: text) = split ' ' line :: commandsIn text := by
  rw [commandsIn, frames_append_cons h]
  rfl

/-- A character that occurs, occurs for the last time. -/
theorem exists_last_of_mem (h : c ∈ text) : ∃ front back, text = front ++ c :: back ∧ c ∉ back := by
  obtain ⟨back, front, hrev, hback⟩ := List.eq_append_cons_of_mem (List.mem_reverse.2 h)
  refine ⟨front.reverse, back.reverse, ?_, fun hmem => hback (List.mem_reverse.1 hmem)⟩
  rw [← List.reverse_reverse text, hrev]
  simp

/-- The commands of a text that goes on are those that have ended, and those of what goes on from
what has not. -/
theorem commandsIn_append (text t : QString) :
    commandsIn (text ++ t) = commandsIn text ++ commandsIn (unfinished text ++ t) := by
  rcases Classical.em ('!' ∈ text) with hmem | hmem
  · obtain ⟨front, back, rfl, hback⟩ := exists_last_of_mem hmem
    have hframes (y : QString) : frames (front ++ '!' :: y) = front.splitOn '!' ++ frames y := by
      rw [frames, List.splitOn_append_cons_self,
        List.dropLast_append_of_ne_nil (List.splitOn_ne_nil _ _)]
      rfl
    rw [unfinished_append_cons, unfinished_of_not_mem hback, commandsIn, commandsIn, commandsIn,
      List.append_assoc, List.cons_append, hframes, hframes, frames_of_not_mem hback,
      List.append_nil, List.map_append]
  · rw [commandsIn_of_not_mem hmem, unfinished_of_not_mem hmem, List.nil_append]

/-- There are as many commands as ends of commands. -/
theorem length_commandsIn (text : QString) : (commandsIn text).length = text.count '!' := by
  have hsplit : (text.splitOn '!').length = text.count '!' + 1 := by
    induction text with
    | nil => rfl
    | cons c text ih =>
        rw [List.splitOn_cons_eq_if_modifyHead, List.count_cons]
        split
        · rw [List.length_cons, ih]
        · rw [List.length_modifyHead, ih]
  rw [commandsIn, List.length_map, frames, List.length_dropLast, hsplit, Nat.add_sub_cancel]

/-- A text without the separator adds nothing to what follows it but the beginning of its first
token, if that begins at once. -/
theorem exists_first (hc : c ≠ sep) (t : QString) : ∃ first more, ∀ r, sep ∉ r →
    split sep (r ++ c :: t) = (r ++ first) :: more := by
  rcases Classical.em (sep ∈ t) with hmem | hmem
  · obtain ⟨line, rest, rfl, hline⟩ := List.eq_append_cons_of_mem hmem
    refine ⟨c :: line, split sep rest, fun r hr => ?_⟩
    have hnot : sep ∉ r ++ c :: line := by
      simp [hr, hline, hc.symm]
    rw [← List.cons_append, ← List.append_assoc, split,
      List.splitOn_append_cons_self_of_not_mem hnot, List.filter_cons_of_pos (by simp)]
    rfl
  · refine ⟨c :: t, [], fun r hr => ?_⟩
    have hnot : sep ∉ r ++ c :: t := by
      simp [hr, hmem, hc.symm]
    rw [split, List.splitOn_eq_singleton hnot, List.filter_cons_of_pos (by simp)]
    rfl

/-- The token at the end of a text, if the text does not end with a separator. -/
def openToken (sep : Char) (text : QString) : QString := text.rtakeWhile (· ≠ sep)

/-- The open token holds no separator. -/
theorem not_mem_openToken : sep ∉ openToken sep text := by
  intro h
  rw [openToken, List.rtakeWhile, List.mem_reverse] at h
  simpa using List.mem_takeWhile_imp h

/-- The tokens in front of the one at the end stay as they are when the text goes on. -/
theorem exists_closed (sep : Char) (text : QString) : ∃ closed, ∀ t,
    split sep (text ++ t) = closed ++ split sep (openToken sep text ++ t) := by
  rcases Classical.em (sep ∈ text) with hmem | hmem
  · obtain ⟨front, back, rfl, hback⟩ := exists_last_of_mem hmem
    have hopen : openToken sep (front ++ sep :: back) = back := by
      rw [openToken, List.rtakeWhile, List.reverse_append, List.reverse_cons, List.append_assoc,
        List.singleton_append, List.takeWhile_append_of_pos, List.takeWhile_cons_of_neg (by simp),
        List.append_nil, List.reverse_reverse]
      intro a ha
      simpa using fun heq : a = sep => hback (heq ▸ List.mem_reverse.1 ha)
    refine ⟨split sep front, fun t => ?_⟩
    rw [hopen, List.append_assoc, List.cons_append, split, List.splitOn_append_cons_self,
      List.filter_append]
    rfl
  · have hopen : openToken sep text = text :=
      List.rtakeWhile_eq_self_iff.2 fun a ha => decide_eq_true fun heq => hmem (heq ▸ ha)
    exact ⟨[], fun t => by rw [hopen, List.nil_append]⟩

/-- Only one token can be found in the open token. -/
theorem split_openToken : split sep (openToken sep text) =
    if openToken sep text = [] then [] else [openToken sep text] := by
  rw [split, List.splitOn_eq_singleton not_mem_openToken]
  split
  · next h => rw [h]; rfl
  · next h => exact List.filter_cons_of_pos (by simpa using h)

/-- Two texts go on to the same tokens if and only if they have the same ones, and both end inside a
token or neither does, unless what follows begins with the separator, or there is nothing. -/
theorem split_append_congr_iff : split sep (r ++ t) = split sep (r' ++ t) ↔
    split sep r = split sep r' ∧
      ∀ c ∈ t.head?, c ≠ sep → (openToken sep r = [] ↔ openToken sep r' = []) := by
  cases t with
  | nil => simp
  | cons c t =>
      rcases eq_or_ne c sep with rfl | hc
      · have hsplit (x : QString) : split c (x ++ c :: t) = split c x ++ split c t := by
          rw [split, List.splitOn_append_cons_self, List.filter_append]
          rfl
        rw [hsplit, hsplit, List.append_cancel_right_eq]
        simp
      · obtain ⟨closed, hclosed⟩ := exists_closed sep r
        obtain ⟨closed', hclosed'⟩ := exists_closed sep r'
        obtain ⟨first, more, hfirst⟩ := exists_first hc t
        have hr := hclosed []
        have hr' := hclosed' []
        rw [List.append_nil, List.append_nil, split_openToken] at hr hr'
        rw [hclosed, hclosed', hfirst _ not_mem_openToken, hfirst _ not_mem_openToken, hr, hr',
          List.append_cons, List.append_cons closed', List.append_cancel_right_eq]
        have hparts : closed ++ [openToken sep r ++ first] =
            closed' ++ [openToken sep r' ++ first] ↔
            closed = closed' ∧ openToken sep r = openToken sep r' := by
          constructor
          · intro h
            obtain ⟨hfront, hback⟩ := List.append_inj' h rfl
            exact ⟨hfront, List.append_cancel_right (List.singleton_inj.1 hback)⟩
          · rintro ⟨rfl, h⟩
            rw [h]
        rw [hparts]
        constructor
        · rintro ⟨rfl, h⟩
          rw [h]
          exact ⟨rfl, fun _ _ _ => Iff.rfl⟩
        · rintro ⟨hsame, hends⟩
          have hends := hends c rfl hc
          split at hsame
          · next hnil =>
              rw [if_pos (hends.1 hnil), List.append_nil, List.append_nil] at hsame
              exact ⟨hsame, hnil.trans (hends.1 hnil).symm⟩
          · next hne =>
              rw [if_neg (fun hnil => hne (hends.2 hnil))] at hsame
              obtain ⟨hfront, hback⟩ := List.append_inj' hsame rfl
              exact ⟨hfront, List.singleton_inj.1 hback⟩

/-- What is left of two texts has the same effect on the command that `bytes` goes on with. -/
structure SameStart (r r' bytes : QString) : Prop where
  tokens : split ' ' r = split ' ' r'
  inside : ∀ c ∈ bytes.head?, c ≠ ' ' → c ≠ '!' → (openToken ' ' r = [] ↔ openToken ' ' r' = [])

/-- Behind two remainders a line has the same tokens exactly when they start the bytes in the same
way. -/
theorem split_append_line_iff (hmem : bytes = line ++ '!' :: t) (hline : '!' ∉ line) :
    split ' ' (r ++ line) = split ' ' (r' ++ line) ↔ SameStart r r' bytes := by
  subst hmem
  rw [split_append_congr_iff]
  constructor
  · rintro ⟨htokens, hinside⟩
    refine ⟨htokens, fun c hc hspace hend => hinside c ?_ hspace⟩
    cases line with
    | nil => exact absurd (Option.some.inj hc).symm hend
    | cons => exact hc
  · rintro ⟨htokens, hinside⟩
    refine ⟨htokens, fun c hc hspace => hinside c ?_ hspace ?_⟩
    · cases line with
      | nil => cases hc
      | cons => exact hc
    · rintro rfl
      exact hline (List.mem_of_mem_head? hc)

/-- The commands that end in `bytes`, of which the first `n` are read, are those that end in all of
it behind another text if and only if there is none, or all ends are read and the first command
starts the same. -/
theorem commandsIn_take_iff (hr : '!' ∉ r) (hr' : '!' ∉ r') (n : Nat) :
    commandsIn (r ++ bytes.take n) = commandsIn (r' ++ bytes) ↔
      ('!' ∈ bytes → '!' ∉ bytes.drop n ∧ SameStart r r' bytes) := by
  have hcount {x : QString} (hx : '!' ∉ x) (y : QString) : (x ++ y).count '!' = y.count '!' := by
    rw [List.count_append, List.count_eq_zero_of_not_mem hx, Nat.zero_add]
  have hparts : (bytes.take n).count '!' + (bytes.drop n).count '!' = bytes.count '!' := by
    rw [← List.count_append, List.take_append_drop]
  rcases Classical.em ('!' ∈ bytes) with hmem | hmem
  · rcases Classical.em ('!' ∈ bytes.drop n) with hdrop | hdrop
    · refine iff_of_false (fun h => ?_) fun h => (h hmem).1 hdrop
      have hlen := congrArg List.length h
      rw [length_commandsIn, length_commandsIn, hcount hr, hcount hr'] at hlen
      have hpos := List.count_pos_iff.2 hdrop
      omega
    · have htake : '!' ∈ bytes.take n :=
        (List.mem_append.1 ((List.take_append_drop n bytes).symm ▸ hmem :
          '!' ∈ bytes.take n ++ bytes.drop n)).resolve_right hdrop
      obtain ⟨line, rest, htake, hline⟩ := List.eq_append_cons_of_mem htake
      have hbytes : bytes = line ++ '!' :: (rest ++ bytes.drop n) := by
        rw [← List.cons_append, ← List.append_assoc, ← htake, List.take_append_drop]
      have hrest : commandsIn (rest ++ bytes.drop n) = commandsIn rest := by
        have hnot : '!' ∉ unfinished rest ++ bytes.drop n :=
          fun h => (List.mem_append.1 h).elim not_mem_unfinished hdrop
        rw [commandsIn_append, commandsIn_of_not_mem hnot, List.append_nil]
      have hleft : commandsIn (r ++ bytes.take n) = split ' ' (r ++ line) :: commandsIn rest := by
        rw [htake, ← List.append_assoc,
          commandsIn_append_cons fun h => (List.mem_append.1 h).elim hr hline]
      have hright : commandsIn (r' ++ bytes) = split ' ' (r' ++ line) :: commandsIn rest := by
        rw [hbytes, ← List.append_assoc,
          commandsIn_append_cons fun h => (List.mem_append.1 h).elim hr' hline, hrest]
      rw [hleft, hright, List.cons.injEq, and_iff_left rfl, split_append_line_iff hbytes hline]
      exact ⟨fun h _ => ⟨hdrop, h⟩, fun h => (h hmem).2⟩
  · have hleft : '!' ∉ r ++ bytes.take n :=
      fun h => (List.mem_append.1 h).elim hr fun h => hmem (List.mem_of_mem_take h)
    have hright : '!' ∉ r' ++ bytes := fun h => (List.mem_append.1 h).elim hr' hmem
    rw [commandsIn_of_not_mem hleft, commandsIn_of_not_mem hright]
    exact iff_of_true rfl fun h => absurd h hmem

end

/-! ## One port -/

section
variable {addr : QHostAddress} {reply : QHostAddress → QHostAddress} {cmd bytes : QString}
  {texts : QHostAddress → QString} {ds echo noecho : List Datagram} {d : Datagram}

/-- The loop over the bytes of a datagram goes on from the text that is there. -/
theorem readRml_eq (h : '!' ∉ cmd) : readRml addr cmd bytes =
    (unfinished (cmd ++ bytes), (commandsIn (cmd ++ bytes)).map (·, addr)) := by
  induction bytes generalizing cmd with
  | nil =>
      rw [List.append_nil, unfinished_of_not_mem h, commandsIn_of_not_mem h]
      rfl
  | cons c bytes ih =>
      rw [readRml]
      split
      · next hc =>
          have hbytes := @ih "" List.not_mem_nil
          rw [hbytes, hc, unfinished_append_cons, commandsIn_append_cons h]
          rfl
      · next hc =>
          have hnot : '!' ∉ cmd ++ [c] := by
            simp [h, Ne.symm hc]
          rw [ih hnot, List.append_assoc]
          rfl

/-- The datagrams that a loop reads: those in front of an empty one. -/
def readable (ds : List Datagram) : List Datagram := ds.takeWhile (·.bytes ≠ [])

/-- The text that a loop reads. -/
def textRead (ds : List Datagram) : QString := (readable ds).flatMap (·.bytes.take 1500)

/-- Nothing is read of a datagram exactly when it is empty. -/
theorem take_eq_nil_iff (bytes : QString) : (bytes.take 1500).length = 0 ↔ bytes = [] := by
  rw [List.length_eq_zero_iff, List.take_eq_nil_iff]
  simp

/-- An empty datagram ends the reading. -/
theorem readPort_nil (hd : d.bytes = []) : readPort reply cmd (d :: ds) = ⟨cmd, [], ds⟩ := by
  rw [readPort]
  simp only [(take_eq_nil_iff d.bytes).2 hd, if_true]

/-- A datagram is read behind the command that is unfinished. -/
theorem readPort_cons (h : '!' ∉ cmd) (hd : d.bytes ≠ []) : readPort reply cmd (d :: ds) =
    let port := readPort reply (unfinished (cmd ++ d.bytes.take 1500)) ds
    { port with
      calls := (commandsIn (cmd ++ d.bytes.take 1500)).map (·, reply d.sender) ++ port.calls } := by
  rw [readPort]
  simp only [if_neg (mt (take_eq_nil_iff d.bytes).1 hd), readRml_eq h]

/-- What a loop leaves of the text that it has read. -/
theorem cmd_readPort (h : '!' ∉ cmd) :
    (readPort reply cmd ds).cmd = unfinished (cmd ++ textRead ds) := by
  induction ds generalizing cmd with
  | nil =>
      rw [textRead, readable, List.takeWhile_nil, List.flatMap_nil, List.append_nil,
        unfinished_of_not_mem h]
      rfl
  | cons d ds ih =>
      rcases Classical.em (d.bytes = []) with hd | hd
      · have htext : textRead (d :: ds) = [] := by
          rw [textRead, readable, List.takeWhile_cons_of_neg (by simpa using hd), List.flatMap_nil]
        rw [readPort_nil hd, htext, List.append_nil, unfinished_of_not_mem h]
      · have htext : textRead (d :: ds) = d.bytes.take 1500 ++ textRead ds := by
          rw [textRead, readable, List.takeWhile_cons_of_pos (by simpa using hd), List.flatMap_cons]
          rfl
        rw [readPort_cons h hd, htext, ← List.append_assoc,
          ← unfinished_unfinished_append (cmd ++ d.bytes.take 1500)]
        exact ih not_mem_unfinished

/-! ## Each sender alone -/

/-- The commands of each sender, by its own datagrams alone, in the order in which they end; `texts`
is what each has left. -/
def readAlone (reply : QHostAddress → QHostAddress) (texts : QHostAddress → QString) :
    List Datagram → List RmlCall
  | [] => []
  | d :: ds =>
      let text := texts d.sender ++ d.bytes
      (commandsIn text).map (·, reply d.sender) ++
        readAlone reply (Function.update texts d.sender (unfinished text)) ds

/-- No sender's unfinished command holds a mark. -/
theorem not_mem_update (h : ∀ a, '!' ∉ texts a) (a : QHostAddress) :
    '!' ∉ Function.update texts d.sender (unfinished (texts d.sender ++ d.bytes)) a := by
  rw [Function.update_apply]
  split
  · exact not_mem_unfinished
  · exact h a

/-- The commands of a sender are those of its datagrams, one behind the other. -/
theorem readAlone_sender (h : ∀ a, '!' ∉ texts a) (a : QHostAddress) :
    ((readAlone id texts ds).filter (·.2 = a)).map Prod.fst =
      commandsIn (texts a ++ (ds.filter (·.sender = a)).flatMap (·.bytes)) := by
  induction ds generalizing texts with
  | nil =>
      rw [List.filter_nil, List.flatMap_nil, List.append_nil, commandsIn_of_not_mem (h a)]
      rfl
  | cons d ds ih =>
      rw [readAlone, List.filter_append, List.map_append, ih (not_mem_update h)]
      rcases eq_or_ne d.sender a with rfl | hne
      · have hall : ((commandsIn (texts d.sender ++ d.bytes)).map (·, id d.sender)).filter
            (·.2 = d.sender) = (commandsIn (texts d.sender ++ d.bytes)).map (·, id d.sender) :=
          List.filter_eq_self.2 fun call hcall => by
            obtain ⟨tokens, -, rfl⟩ := List.mem_map.1 hcall
            exact decide_eq_true rfl
        have hfst : (fun tokens : QStringList => (tokens, id d.sender).1) = id := rfl
        rw [hall, List.map_map, Function.update_self, List.filter_cons_of_pos (by simp),
          List.flatMap_cons, ← List.append_assoc, commandsIn_append (texts d.sender ++ d.bytes)]
        congr 1
        exact List.map_id _
      · have hnone : ((commandsIn (texts d.sender ++ d.bytes)).map (·, id d.sender)).filter
            (·.2 = a) = [] :=
          List.filter_eq_nil_iff.2 fun call hcall => by
            obtain ⟨tokens, -, rfl⟩ := List.mem_map.1 hcall
            simpa using hne
        rw [hnone, Function.update_of_ne hne.symm, List.filter_cons_of_neg (by simpa using hne)]
        rfl

/-- While the datagrams of a port are read, with `cmd` left of everything read before and `texts` of
what each sender has sent before: a datagram with the end of a command in it is not behind an empty
one, its ends are among the 1500 bytes that are read, and the first of these commands starts the
same with what is left of everything as with what is left of its sender. -/
def Undisturbed (cmd : QString) (texts : QHostAddress → QString) : List Datagram → Prop
  | [] => True
  | d :: ds =>
      (d.bytes = [] → ∀ behind ∈ ds, '!' ∉ behind.bytes) ∧
      (d.bytes ≠ [] →
        ('!' ∈ d.bytes → '!' ∉ d.bytes.drop 1500 ∧ SameStart cmd (texts d.sender) d.bytes) ∧
        Undisturbed (unfinished (cmd ++ d.bytes.take 1500))
          (Function.update texts d.sender (unfinished (texts d.sender ++ d.bytes))) ds)

/-- Two lists are equal part by part if no part is longer than its counterpart. -/
theorem append_eq_append_iff_of_length_le {α : Type*} {a b x y : List α}
    (hab : a.length ≤ b.length) (hxy : x.length ≤ y.length) :
    a ++ x = b ++ y ↔ a = b ∧ x = y := by
  constructor
  · intro h
    have hlen := congrArg List.length h
    rw [List.length_append, List.length_append] at hlen
    exact List.append_inj h (by omega)
  · rintro ⟨rfl, rfl⟩
    rfl

/-- A loop passes on no more commands than the senders have ended. -/
theorem length_commandsIn_take (hcmd : '!' ∉ cmd) (text bytes : QString) (n : Nat) :
    (commandsIn (cmd ++ bytes.take n)).length ≤ (commandsIn (text ++ bytes)).length := by
  rw [length_commandsIn, length_commandsIn, List.count_append, List.count_append,
    List.count_eq_zero_of_not_mem hcmd, Nat.zero_add]
  exact ((List.take_sublist n bytes).count_le '!').trans (Nat.le_add_left _ _)

/-- At one port no more commands are found than by keeping the senders apart. -/
theorem length_readPort_le (hcmd : '!' ∉ cmd) :
    (readPort reply cmd ds).calls.length ≤ (readAlone reply texts ds).length := by
  induction ds generalizing cmd texts with
  | nil => exact Nat.le_refl 0
  | cons d ds ih =>
      rcases Classical.em (d.bytes = []) with hd | hd
      · rw [readPort_nil hd]
        exact Nat.zero_le _
      · rw [readPort_cons hcmd hd, readAlone]
        simp only [List.length_append, List.length_map]
        exact Nat.add_le_add (length_commandsIn_take hcmd _ _ _) (ih not_mem_unfinished)

/-- Without a mark in any datagram no command is found. -/
theorem readAlone_eq_nil_iff (h : ∀ a, '!' ∉ texts a) :
    readAlone reply texts ds = [] ↔ ∀ d ∈ ds, '!' ∉ d.bytes := by
  induction ds generalizing texts with
  | nil => simp [readAlone]
  | cons d ds ih =>
      rw [readAlone, List.append_eq_nil_iff, List.map_eq_nil_iff, ih (not_mem_update h),
        List.forall_mem_cons]
      refine and_congr ⟨fun hnil hmem => ?_, fun hnot => ?_⟩ Iff.rfl
      · have hlen := congrArg List.length hnil
        rw [length_commandsIn, List.count_append] at hlen
        have hpos := List.count_pos_iff.2 hmem
        simp only [List.length_nil] at hlen
        omega
      · exact commandsIn_of_not_mem fun hmem => (List.mem_append.1 hmem).elim (h d.sender) hnot

/-- Lists with the same mate at each element are equal exactly when the lists are. -/
theorem map_pair_inj {α β : Type*} {b : β} {l l' : List α} :
    l.map (·, b) = l'.map (·, b) ↔ l = l' :=
  List.map_inj_right fun _ _ h => (Prod.mk.inj h).1

/-- One port passes on each sender's commands if and only if it is undisturbed. -/
theorem readPort_eq_iff (hcmd : '!' ∉ cmd) (htexts : ∀ a, '!' ∉ texts a) :
    (readPort reply cmd ds).calls = readAlone reply texts ds ↔ Undisturbed cmd texts ds := by
  induction ds generalizing cmd texts with
  | nil => exact iff_of_true rfl trivial
  | cons d ds ih =>
      rcases Classical.em (d.bytes = []) with hd | hd
      · have hnil : commandsIn (texts d.sender ++ d.bytes) = [] := by
          rw [hd, List.append_nil, commandsIn_of_not_mem (htexts d.sender)]
        rw [readPort_nil hd, readAlone, hnil, Undisturbed]
        simp only [List.map_nil, List.nil_append]
        rw [eq_comm, readAlone_eq_nil_iff (not_mem_update htexts)]
        exact ⟨fun h => ⟨fun _ => h, fun hne => absurd hd hne⟩, fun h => h.1 hd⟩
      · rw [readPort_cons hcmd hd, readAlone, Undisturbed]
        simp only
        rw [append_eq_append_iff_of_length_le, map_pair_inj,
          commandsIn_take_iff hcmd (htexts d.sender),
          ih not_mem_unfinished (not_mem_update htexts)]
        · exact ⟨fun h => ⟨fun hnil => absurd hnil hd, fun _ => h⟩, fun h => h.2 hd⟩
        · rw [List.length_map, List.length_map]
          exact length_commandsIn_take hcmd _ _ _
        · exact length_readPort_le not_mem_unfinished

/-! ## Two ports -/

/-- The commands that end in the datagrams of the echo port, each for its sender, and in those of
the other port. -/
def rmlCommands (echo noecho : List Datagram) : List RmlCall :=
  readAlone id (fun _ => "") echo ++ readAlone (fun _ => .null) (fun _ => "") noecho

/-- **Commands reach `ProcessRml` as their senders have sent them if and only if both ports are
undisturbed**, the second by what the first has left as well. -/
theorem rmlReadData_eq_iff (echo noecho : List Datagram) :
    rmlReadData echo noecho = rmlCommands echo noecho ↔
      Undisturbed "" (fun _ => "") echo ∧
      Undisturbed (unfinished (textRead echo)) (fun _ => "") noecho := by
  have hempty : '!' ∉ ("" : QString) := List.not_mem_nil
  have hcmd : (readPort id "" echo).cmd = unfinished (textRead echo) := cmd_readPort hempty
  rw [rmlReadData, rmlCommands]
  simp only [hcmd]
  rw [append_eq_append_iff_of_length_le (length_readPort_le hempty)
    (length_readPort_le not_mem_unfinished), readPort_eq_iff hempty fun _ => hempty,
    readPort_eq_iff not_mem_unfinished fun _ => hempty]

/-- What a datagram on the echo port leaves begins the command of another on the other port. -/
theorem rmlReadData_fails : ¬ ∀ echo noecho : List Datagram,
    rmlReadData echo noecho = rmlCommands echo noecho := by
  intro hall
  have h := hall [⟨⟨1⟩, "GO 0"⟩] [⟨⟨2⟩, "GO 0 O 1 1 0!"⟩]
  revert h
  decide

end

end NetISDN
