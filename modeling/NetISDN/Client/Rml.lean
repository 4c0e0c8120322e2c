import NetISDN.Qt.QHostAddress

/-!
# RML commands

`ProcessRml` (`netisdn.cpp:644`): the commands by which automation switches the GPIO lines. The only
one is `GO`, in a form with a type (`O`) and in an old form without it, which is made into the new
one first. Nothing checks the type, and a number that cannot be read counts as 0, so that more is
accepted than the two forms (`followsGrammar_iff`).
-/

namespace NetISDN

/-- What `ProcessRml` does. -/
inductive RmlAction where
  /-- `net_codec->sendGpio(line,state,interval)`. -/
  | sendGpio (line : Nat) (state : Bool) (interval : Nat)
  /-- `net_rml_return_socket->writeBlock(text,…,addr,port)`. -/
  | reply (text : QString) (addr : QHostAddress) (port : Nat)
  deriving DecidableEq

/-- The loop of the conversion: `for(unsigned i=3;i>=2;i--) cmd[i+1]=cmd[i];`. -/
def shiftUp (cmd : QStringList) : Nat → QStringList
  | 0 | 1 => cmd
  | i + 2 => shiftUp (cmd.set (i + 3) (cmd.at (i + 2))) (i + 1)

/-- A command of the old form is made into one of the new form (`netisdn.cpp:650`). -/
def upconvert (cmd : QStringList) : QStringList :=
  if cmd.length = 5 then (shiftUp (cmd ++ [cmd.at (cmd.length - 1)]) 3).set 2 "O" else cmd

/-- The command goes back to the sender, if there is one, with a verdict behind it. -/
def rmlReply (cmd : QStringList) (addr : QHostAddress) (verdict : QString) : List RmlAction :=
  if addr.isNull then [] else [.reply (join " " cmd ++ verdict) addr 5860]

/-- `ProcessRml` (`netisdn.cpp:644`). -/
def processRml (cmd : QStringList) (addr : QHostAddress) : List RmlAction :=
  if cmd.length = 0 then []
  else if cmd.at 0 = "GO" then
    let cmd := upconvert cmd
    if cmd.length ≠ 6 then rmlReply cmd addr "-!"
    else
      let matrix := toUInt (cmd.at 1)
      let line := toUInt (cmd.at 3)
      let state := toUInt (cmd.at 4)
      let interval := toUInt (cmd.at 5)
      if matrix ≠ 0 ∨ line = 0 ∨ line > 32 ∨ (state ≠ 0 ∧ state ≠ 1) then rmlReply cmd addr "-!"
      else .sendGpio (line - 1) (state ≠ 0) interval :: rmlReply cmd addr "+!"
  else rmlReply cmd addr "-!"

/-- The calls of `sendGpio` among what is done. -/
def gpioCalls (actions : List RmlAction) : List (Nat × Bool × Nat) :=
  actions.filterMap fun
    | .sendGpio line state interval => some (line, state, interval)
    | .reply _ _ _ => none

/-- The replies among what is done. -/
def rmlReplies (actions : List RmlAction) : List (QString × QHostAddress × Nat) :=
  actions.filterMap fun
    | .sendGpio _ _ _ => none
    | .reply text addr port => some (text, addr, port)

/-! ## The grammar -/

/-- The new form of the command, with its matrix, type, line, state and interval. -/
abbrev goCommand (m t l s i : QString) : QStringList := ["GO", m, t, l, s, i]

/-- The old form. -/
abbrev oldGoCommand (m l s i : QString) : QStringList := ["GO", m, l, s, i]

/-- The number that a text of digits is. -/
def decimal? (t : QString) : Option Nat :=
  if t ≠ [] ∧ t.all Char.isDigit then some (Nat.ofDigitChars 10 t 0) else none

/-- `GO 0 O <line> <state> <interval>`, or `GO 0 <line> <state> <interval>`: switch the line
(counted from 0) on or off. -/
structure GoCommand (cmd : QStringList) (line : Nat) (state : Bool) (interval : Nat) : Prop where
  form : ∃ l s i, (cmd = goCommand "0" "O" l s i ∨ cmd = oldGoCommand "0" l s i) ∧
    decimal? l = some (line + 1) ∧ line + 1 ≤ 32 ∧ decimal? s = some state.toNat ∧
    decimal? i = some interval

/-- A command that is no `GO`, or one with too many tokens or too few, or whose matrix, line or
state is a number that the form does not have. -/
inductive NoGoCommand (cmd : QStringList) : Prop
  | other (h : cmd.at 0 ≠ "GO")
  | length (h : cmd.length ≠ 5 ∧ cmd.length ≠ 6)
  | number (m t l s i : QString) (hform : cmd = goCommand m t l s i ∨ cmd = oldGoCommand m l s i)
      (h : (∃ n, decimal? m = some n ∧ n ∈ Set.Ioo 0 (2 ^ 32)) ∨
        (∃ n, decimal? l = some n ∧ n ∉ Set.Icc 1 32) ∨
        ∃ n, decimal? s = some n ∧ n ∈ Set.Ioo 1 (2 ^ 32))

section
variable {cmd : QStringList} {addr : QHostAddress} {g m t l s i : QString} {n line interval : Nat}
  {state : Bool}

/-- A decimal number is read as it stands. -/
theorem toNumber_of_decimal? (h : decimal? t = some n) : toNumber t = some n := by
  rw [decimal?] at h
  split at h
  · next hdigits =>
      obtain ⟨hne, hall⟩ := hdigits
      have hall : ∀ c ∈ t, Char.isDigit c = true := List.all_eq_true.1 hall
      rw [toNumber, spanDigits, List.takeWhile_eq_self_iff.2 hall, List.dropWhile_eq_nil_iff.2 hall]
      simpa [hne] using h
  · cases h

/-- A number below `2^32` is read as it is, and a larger one as 0. -/
theorem toUInt_of_decimal? (h : decimal? t = some n) :
    toUInt t = if n < 2 ^ 32 then n else 0 := by
  have hnumber := toNumber_of_decimal? h
  rw [decimal?] at h
  split at h
  · next hdigits =>
      obtain ⟨hne, hall⟩ := hdigits
      obtain ⟨c, cs, rfl⟩ := List.exists_cons_of_ne_nil hne
      have hc : c.isDigit := List.all_eq_true.1 hall c (.head _)
      have hplus : (c :: cs).head? ≠ some '+' := by
        rintro ⟨⟩
        cases hc
      have hdrop : (c :: cs).dropWhile isSpace = c :: cs :=
        List.dropWhile_cons_of_neg (by rw [isSpace_of_isDigit hc]; exact Bool.false_ne_true)
      simp only [toUInt, toUInt?, hdrop, if_neg hplus, hnumber, Option.filter_some,
        decide_eq_true_eq]
      split
      · rfl
      · rfl
  · cases h

/-- A decimal number that fits is read as it stands. -/
theorem toUInt_eq_of_decimal? (h : decimal? t = some n) (hn : n < 2 ^ 32) : toUInt t = n := by
  rw [toUInt_of_decimal? h, if_pos hn]

/-! ## What is accepted -/

/-- The five elements of a list. -/
theorem exists_of_length_eq_five {α : Type*} {l : List α} (h : l.length = 5) :
    ∃ a b c d e, l = [a, b, c, d, e] := by
  obtain ⟨a, l, rfl⟩ := List.exists_of_length_succ l h
  obtain ⟨b, c, d, e, rfl⟩ := List.length_eq_four.1 (Nat.succ.inj h)
  exact ⟨a, b, c, d, e, rfl⟩

/-- The old form gets the type of an output. -/
theorem upconvert_old : upconvert [g, m, l, s, i] = [g, m, "O", l, s, i] := rfl

/-- A command has the new form after the conversion if it had it before, or had the old one. -/
theorem upconvert_eq_iff : upconvert cmd = [g, m, t, l, s, i] ↔
    cmd = [g, m, t, l, s, i] ∨ (t = "O" ∧ cmd = [g, m, l, s, i]) := by
  constructor
  · intro h
    rcases Nat.decEq cmd.length 5 with hlen | hlen
    · rw [upconvert, if_neg hlen] at h
      exact .inl h
    · obtain ⟨g', m', l', s', i', rfl⟩ := exists_of_length_eq_five hlen
      rw [upconvert_old] at h
      obtain ⟨rfl, rfl, rfl, rfl, rfl, rfl⟩ : g' = g ∧ m' = m ∧ ("O" : QString) = t ∧ l' = l ∧
        s' = s ∧ i' = i := by simpa using h
      exact .inr ⟨rfl, rfl⟩
  · rintro (rfl | ⟨rfl, rfl⟩)
    · rfl
    · rfl

/-- The tokens of a command that is accepted. -/
structure Accepts (m l s : QString) : Prop where
  matrix : toUInt m = 0
  line : toUInt l ∈ Set.Icc 1 32
  state : toUInt s ≤ 1

instance : Decidable (Accepts m l s) :=
  decidable_of_iff (toUInt m = 0 ∧ (1 ≤ toUInt l ∧ toUInt l ≤ 32) ∧ toUInt s ≤ 1)
    ⟨fun ⟨hm, hl, hs⟩ => ⟨hm, hl, hs⟩, fun ⟨hm, hl, hs⟩ => ⟨hm, hl, hs⟩⟩

/-- A `GO` of the new form. -/
theorem processRml_new (h : upconvert cmd = goCommand m t l s i) :
    processRml cmd addr =
      if Accepts m l s then
        .sendGpio (toUInt l - 1) (toUInt s ≠ 0) (toUInt i) ::
          rmlReply (goCommand m t l s i) addr "+!"
      else rmlReply (goCommand m t l s i) addr "-!" := by
  have hhead : cmd.length ≠ 0 ∧ cmd.at 0 = "GO" := by
    rcases upconvert_eq_iff.1 h with rfl | ⟨-, rfl⟩
    · exact ⟨Nat.succ_ne_zero _, rfl⟩
    · exact ⟨Nat.succ_ne_zero _, rfl⟩
  rw [processRml, if_neg hhead.1, if_pos hhead.2, h]
  have hiff : (toUInt m ≠ 0 ∨ toUInt l = 0 ∨ toUInt l > 32 ∨ (toUInt s ≠ 0 ∧ toUInt s ≠ 1)) ↔
      ¬ Accepts m l s := by
    constructor
    · rintro hbad ⟨hm, ⟨hl, hl'⟩, hs⟩
      omega
    · intro hbad
      by_contra hgood
      exact hbad ⟨by omega, ⟨by omega, by omega⟩, by omega⟩
  have htokens : (goCommand m t l s i).at 1 = m ∧ (goCommand m t l s i).at 3 = l ∧
      (goCommand m t l s i).at 4 = s ∧ (goCommand m t l s i).at 5 = i := ⟨rfl, rfl, rfl, rfl⟩
  simp only [htokens, List.length_cons, List.length_nil, hiff, ite_not]
  rfl

/-- A command that is not of the new form is rejected, and one without tokens ignored. -/
theorem processRml_reject (h : ∀ m t l s i, upconvert cmd ≠ goCommand m t l s i) :
    ∃ tokens, processRml cmd addr = if cmd = [] then [] else rmlReply tokens addr "-!" := by
  cases cmd with
  | nil => exact ⟨[], rfl⟩
  | cons g rest =>
      have hlen : (g :: rest).length ≠ 0 := Nat.succ_ne_zero _
      simp only [reduceCtorEq, if_false]
      rw [processRml, if_neg hlen]
      split
      · next hgo =>
          dsimp only
          split
          · exact ⟨_, rfl⟩
          · next hsix =>
              obtain ⟨g', up, hup⟩ :=
                List.exists_of_length_succ (upconvert (g :: rest)) (not_not.1 hsix)
              obtain ⟨m, t, l, s, i, rfl⟩ :=
                exists_of_length_eq_five (l := up) (by simpa [hup] using hsix)
              have hg : g' = "GO" := by
                rcases upconvert_eq_iff.1 hup with hcmd | ⟨-, hcmd⟩
                · exact (List.cons.inj hcmd).1 ▸ hgo
                · exact (List.cons.inj hcmd).1 ▸ hgo
              rw [hg] at hup
              exact absurd hup (h m t l s i)
      · exact ⟨_, rfl⟩

@[simp] theorem gpioCalls_rmlReply (verdict : QString) :
    gpioCalls (rmlReply cmd addr verdict) = [] := by
  rw [rmlReply]
  split <;> rfl

/-- The reply goes to the port 5860 of the sender. -/
theorem rmlReplies_rmlReply (haddr : addr.isNull = false) (verdict : QString) :
    rmlReplies (rmlReply cmd addr verdict) = [(join " " cmd ++ verdict, addr, 5860)] := by
  rw [rmlReply, if_neg (by rw [haddr]; exact Bool.false_ne_true)]
  rfl

/-- The new form sets a line exactly when it is accepted. -/
theorem gpioCalls_new (h : upconvert cmd = goCommand m t l s i) :
    gpioCalls (processRml cmd addr) =
      if Accepts m l s then [(toUInt l - 1, decide (toUInt s ≠ 0), toUInt i)] else [] := by
  rw [processRml_new h]
  split
  · show _ :: gpioCalls (rmlReply (goCommand m t l s i) addr "+!") = _
    rw [gpioCalls_rmlReply]
  · exact gpioCalls_rmlReply _

/-- Every other command sets none. -/
theorem gpioCalls_reject (h : ∀ m t l s i, upconvert cmd ≠ goCommand m t l s i) :
    gpioCalls (processRml cmd addr) = [] := by
  obtain ⟨tokens, hreject⟩ : ∃ tokens, processRml cmd addr = _ := processRml_reject h
  rw [hreject]
  split
  · rfl
  · exact gpioCalls_rmlReply _

/-- `sendGpio` is called once, or not at all, with what the tokens of a `GO` read as. -/
theorem mem_gpioCalls : (line, state, interval) ∈ gpioCalls (processRml cmd addr) ↔
    ∃ m t l s i, upconvert cmd = goCommand m t l s i ∧ Accepts m l s ∧
      line = toUInt l - 1 ∧ state = decide (toUInt s ≠ 0) ∧ interval = toUInt i := by
  constructor
  · intro hmem
    by_contra hno
    rcases Classical.em (∃ m t l s i, upconvert cmd = goCommand m t l s i) with
      ⟨m, t, l, s, i, hup⟩ | hform
    · rw [gpioCalls_new hup] at hmem
      split at hmem
      · next hacc =>
          cases List.mem_singleton.1 hmem
          exact hno ⟨m, t, l, s, i, hup, hacc, rfl, rfl, rfl⟩
      · cases hmem
    · rw [gpioCalls_reject fun m t l s i hup => hform ⟨m, t, l, s, i, hup⟩] at hmem
      cases hmem
  · rintro ⟨m, t, l, s, i, hup, hacc, rfl, rfl, rfl⟩
    rw [gpioCalls_new hup, if_pos hacc]
    exact .head _

/-! ## The replies -/

/-- A reply that says that the command has been carried out. -/
abbrev Positive (text : QString) : Prop := ['+', '!'] <:+ text

/-- A reply with a plus is positive. -/
theorem positive_append (text : QString) : Positive (text ++ ("+!" : QString)) :=
  List.suffix_append _ _

/-- A reply with a minus is not. -/
theorem not_positive_append (text : QString) : ¬ Positive (text ++ ("-!" : QString)) := by
  rintro ⟨front, h⟩
  cases (List.append_inj' h rfl).2

/-- A command with tokens is answered once, with `+!` at the end exactly if `sendGpio` is called. -/
theorem rmlReplies_processRml (haddr : addr.isNull = false) (hne : cmd ≠ []) : ∃ text,
    rmlReplies (processRml cmd addr) = [(text, addr, 5860)] ∧
    (Positive text ↔ gpioCalls (processRml cmd addr) ≠ []) := by
  rcases Classical.em (∃ m t l s i, upconvert cmd = goCommand m t l s i) with
    ⟨m, t, l, s, i, hup⟩ | hform
  · rw [gpioCalls_new hup, processRml_new hup]
    split
    · exact ⟨_, rmlReplies_rmlReply haddr _, iff_of_true (positive_append _) (List.cons_ne_nil _ _)⟩
    · exact ⟨_, rmlReplies_rmlReply haddr _, iff_of_false (not_positive_append _) (fun h => h rfl)⟩
  · have hform : ∀ m t l s i, upconvert cmd ≠ goCommand m t l s i :=
      fun m t l s i hup => hform ⟨m, t, l, s, i, hup⟩
    obtain ⟨tokens, hreject⟩ : ∃ tokens, processRml cmd addr = _ := processRml_reject hform
    rw [gpioCalls_reject hform, hreject, if_neg hne]
    exact ⟨_, rmlReplies_rmlReply haddr _, iff_of_false (not_positive_append _) (fun h => h rfl)⟩

/-- A `GO` of the old form has the effect of the new form with `O` in it. -/
theorem processRml_old : processRml (oldGoCommand m l s i) addr =
    processRml (goCommand m "O" l s i) addr := by
  rw [processRml_new (upconvert_old), processRml_new (t := "O") rfl]

/-! ## Commands against the grammar -/

/-- The number of a state's text. -/
theorem toUInt_state (h : decimal? s = some state.toNat) : toUInt s = state.toNat :=
  toUInt_eq_of_decimal? h (by cases state <;> decide)

/-- A `GO` command in either form is accepted with the line, state and interval it names. -/
theorem GoCommand.upconvert (h : GoCommand cmd line state interval) : ∃ l s i,
    upconvert cmd = goCommand "0" "O" l s i ∧ Accepts "0" l s ∧
    line = toUInt l - 1 ∧ state = decide (toUInt s ≠ 0) ∧ decimal? l = some (line + 1) ∧
    decimal? s = some state.toNat ∧ decimal? i = some interval := by
  obtain ⟨l, s, i, hform, hl, hline, hs, hi⟩ := h.form
  have hreadL := toUInt_eq_of_decimal? hl (by omega)
  have hreadS := toUInt_state hs
  refine ⟨l, s, i, ?_, ⟨by decide, ?_, ?_⟩, ?_, ?_, hl, hs, hi⟩
  · refine upconvert_eq_iff.2 (hform.imp id fun hold => ⟨rfl, hold⟩)
  · rw [hreadL]
    exact ⟨by omega, hline⟩
  · rw [hreadS]
    exact Bool.toNat_le state
  · omega
  · rw [hreadS]
    cases state <;> rfl

/-- What the grammar says of a command and a reply address. -/
structure FollowsGrammar (cmd : QStringList) (addr : QHostAddress) : Prop where
  calls : ∀ line state interval, (line, state, interval) ∈ gpioCalls (processRml cmd addr) ↔
    GoCommand cmd line state interval
  oldForm : ∀ m l s i, cmd = oldGoCommand m l s i →
    processRml cmd addr = processRml (goCommand m "O" l s i) addr
  replies : addr.isNull = false → ∃ text,
    rmlReplies (processRml cmd addr) = [(text, addr, 5860)] ∧
    (Positive text ↔ gpioCalls (processRml cmd addr) ≠ [])

/-- A `GO` that is accepted has the tokens of the grammar: the matrix `0`, the type `O`, and for
line, state and interval the digits of the numbers that they are read as. -/
def StrictlyRead (cmd : QStringList) : Prop :=
  ∀ m t l s i, upconvert cmd = goCommand m t l s i → Accepts m l s →
    m = "0" ∧ t = "O" ∧ decimal? l = some (toUInt l) ∧ decimal? s = some (toUInt s) ∧
      decimal? i = some (toUInt i)

/-- An accepted state is 0 or 1, so that it is the number of the boolean it is turned into. -/
theorem Accepts.toNat_state (h : Accepts m l s) : (decide (toUInt s ≠ 0)).toNat = toUInt s := by
  rcases Nat.le_one_iff_eq_zero_or_eq_one.1 h.state with h0 | h1
  · rw [h0]
    rfl
  · rw [h1]
    rfl

/-- What is accepted of a command that follows the grammar is strictly read. -/
theorem FollowsGrammar.strictlyRead (h : FollowsGrammar cmd addr) : StrictlyRead cmd := by
  intro m t l s i hup hacc
  obtain ⟨l', s', i', hup', -, hline, hstate, hl, hs, hi⟩ :=
    ((h.calls _ _ _).1 (mem_gpioCalls.2 ⟨m, t, l, s, i, hup, hacc, rfl, rfl, rfl⟩)).upconvert
  obtain ⟨rfl, rfl, rfl, rfl, rfl⟩ : m = "0" ∧ t = "O" ∧ l = l' ∧ s = s' ∧ i = i' := by
    simpa using hup.symm.trans hup'
  have hone := hacc.line.1
  refine ⟨rfl, rfl, ?_, ?_, hi⟩
  · rw [hl]
    exact congrArg some (by omega)
  · rw [hs, hacc.toNat_state]

/-- Where what is accepted is strictly read, the calls are those of the grammar. -/
theorem StrictlyRead.calls (h : StrictlyRead cmd) (line : Nat) (state : Bool) (interval : Nat) :
    (line, state, interval) ∈ gpioCalls (processRml cmd addr) ↔
      GoCommand cmd line state interval := by
  rw [mem_gpioCalls]
  constructor
  · rintro ⟨m, t, l, s, i, hup, hacc, rfl, rfl, rfl⟩
    obtain ⟨rfl, rfl, hl, hs, hi⟩ := h m t l s i hup hacc
    have hone := hacc.line
    refine ⟨l, s, i, (upconvert_eq_iff.1 hup).imp id And.right, ?_, ?_, ?_, hi⟩
    · rw [hl, Nat.sub_add_cancel hone.1]
    · rw [Nat.sub_add_cancel hone.1]
      exact hone.2
    · rw [hs, hacc.toNat_state]
  · intro hgo
    obtain ⟨l, s, i, hup, hacc, hline, hstate, -, -, hi⟩ := hgo.upconvert
    obtain ⟨-, -, -, -, hi'⟩ := h _ _ _ _ _ hup hacc
    exact ⟨_, _, l, s, i, hup, hacc, hline, hstate, Option.some.inj (hi.symm.trans hi')⟩

/-- A command follows the grammar exactly if it has tokens, or comes without an address, and what is
accepted of it is strictly read. -/
theorem followsGrammar_iff (cmd : QStringList) (addr : QHostAddress) :
    FollowsGrammar cmd addr ↔ (cmd = [] → addr.isNull = true) ∧ StrictlyRead cmd := by
  constructor
  · intro h
    refine ⟨?_, h.strictlyRead⟩
    rintro rfl
    by_contra hnull
    obtain ⟨text, hreplies, -⟩ := h.replies (Bool.eq_false_iff.2 hnull)
    cases hreplies
  · rintro ⟨hnil, hstrict⟩
    refine ⟨hstrict.calls, ?_, ?_⟩
    · rintro m l s i rfl
      exact processRml_old
    · intro haddr
      refine rmlReplies_processRml haddr fun hcmd => ?_
      rw [hnil hcmd] at haddr
      cases haddr

/-- What `ProcessRml` does with a command. Of tokens that are no numbers, of numbers from `2^32` on
and of the type it says nothing. -/
structure AnswersRml (cmd : QStringList) (addr : QHostAddress) : Prop where
  accepts : ∀ line state interval, GoCommand cmd line state interval → interval < 2 ^ 32 →
    gpioCalls (processRml cmd addr) = [(line, state, interval)]
  rejects : NoGoCommand cmd → gpioCalls (processRml cmd addr) = []
  oldForm : ∀ m l s i, cmd = oldGoCommand m l s i →
    processRml cmd addr = processRml (goCommand m "O" l s i) addr
  replies : addr.isNull = false → cmd ≠ [] → ∃ text,
    rmlReplies (processRml cmd addr) = [(text, addr, 5860)] ∧
    (Positive text ↔ gpioCalls (processRml cmd addr) ≠ [])
  ignores : cmd = [] → processRml cmd addr = []

/-- A command that the grammar has no place for is not carried out. -/
theorem NoGoCommand.gpioCalls (h : NoGoCommand cmd) : gpioCalls (processRml cmd addr) = [] := by
  refine List.eq_nil_iff_forall_not_mem.2 fun ⟨line, state, interval⟩ hmem => ?_
  obtain ⟨m, t, l, s, i, hup, hacc, -⟩ := mem_gpioCalls.1 hmem
  have hform := upconvert_eq_iff.1 hup
  cases h with
  | other h =>
      rcases hform with rfl | ⟨-, rfl⟩
      · exact h rfl
      · exact h rfl
  | length h =>
      rcases hform with rfl | ⟨-, rfl⟩
      · exact h.2 rfl
      · exact h.1 rfl
  | number m' t' l' s' i' hform' h =>
      have hup' : ∃ t, upconvert cmd = goCommand m' t l' s' i' := by
        rcases hform' with rfl | rfl
        · exact ⟨t', rfl⟩
        · exact ⟨"O", rfl⟩
      obtain ⟨t', hup'⟩ := hup'
      obtain ⟨rfl, -, rfl, rfl, -⟩ : m = m' ∧ t = t' ∧ l = l' ∧ s = s' ∧ i = i' := by
        simpa using hup.symm.trans hup'
      obtain ⟨hm, ⟨hl, hl'⟩, hs⟩ := hacc
      rcases h with ⟨n, hn, hlow, hhigh⟩ | ⟨n, hn, hout⟩ | ⟨n, hn, hlow, hhigh⟩
      · rw [toUInt_eq_of_decimal? hn hhigh] at hm
        omega
      · rw [toUInt_of_decimal? hn] at hl hl'
        rw [Set.mem_Icc] at hout
        split at hl
        · next hlt =>
            rw [if_pos hlt] at hl'
            exact hout ⟨hl, hl'⟩
        · omega
      · rw [toUInt_eq_of_decimal? hn hhigh] at hs
        omega

end

/-- **A command in one of the two forms of `GO` is carried out**, and the two forms have the same
effect. A `GO` with a number that is out of range, and every other command, is not carried out. Each
is answered by one reply, if it has tokens and an address, which says which of the two has been. -/
theorem answersRml (cmd : QStringList) (addr : QHostAddress) : AnswersRml cmd addr where
  accepts line state interval h hinterval := by
    obtain ⟨l, s, i, hup, hacc, rfl, rfl, -, -, hi⟩ := h.upconvert
    rw [gpioCalls_new hup, if_pos hacc, toUInt_eq_of_decimal? hi hinterval]
  rejects h := h.gpioCalls
  oldForm m l s i h := by
    rw [h]
    exact processRml_old
  replies := rmlReplies_processRml
  ignores h := by
    rw [h]
    rfl

/-- A command without tokens is not answered, and a state that is no number switches a line off. -/
theorem followsGrammar_fails :
    ¬ FollowsGrammar [] ⟨1⟩ ∧ ¬ FollowsGrammar (goCommand "0" "O" "1" "on" "0") ⟨1⟩ := by
  constructor
  · intro h
    obtain ⟨text, hreplies, -⟩ := h.replies rfl
    cases hreplies
  · intro h
    obtain ⟨l, s, i, hform, -, -, hs, -⟩ := ((h.calls 0 false 0).1 (by decide)).form
    rcases hform with hform | hform
    · obtain ⟨-, rfl, -⟩ : ("1" : QString) = l ∧ ("on" : QString) = s ∧ ("0" : QString) = i := by
        simpa using hform
      cases hs
    · simp at hform

end NetISDN
