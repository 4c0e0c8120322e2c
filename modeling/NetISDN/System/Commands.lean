import NetISDN.Server.Lines

/-!
# From the server's commands to the client's

A client reads a stream of bytes, in reads that the network cuts as it likes. Because the server
ends each command with the only mark in it, the client takes the commands that were sent, one by one
and in order, whatever the other clients make the server say (`MainObject.commands_arrive`), as long
as MySQL answers the query for the name in an `LI` with a name that a command can carry.
-/

namespace NetISDN

open TransitionSystem Framing

namespace ControlConnect

variable {env : Env} {b : Build} {c : ControlConnect} {line text rest cmd : QString}
  {cmds : List QString}

/-- The client with other unread bytes of a command. -/
def withLine (c : ControlConnect) (line : QString) : ControlConnect :=
  { c with conn_cmdline := line }

/-- What a client does with a command that arrives, whole and with its mark. -/
def takeCommand (env : Env) (b : Build) (c : ControlConnect) (cmd : QString) : ControlConnect :=
  (c.withLine cmd.dropLast).parseCommand env b

@[simp] theorem withLine_withLine : (c.withLine line).withLine text = c.withLine text := rfl

@[simp] theorem withLine_self : c.withLine c.conn_cmdline = c := rfl

@[simp] theorem conn_cmdline_withLine : (c.withLine line).conn_cmdline = line := rfl

@[simp] theorem takeCommand_withLine :
    (c.withLine line).takeCommand env b cmd = c.takeCommand env b cmd := rfl

/-- After a command nothing of the next one has been read. -/
theorem conn_cmdline_takeCommand : (c.takeCommand env b cmd).conn_cmdline = [] := by
  unfold takeCommand parseCommand
  dsimp only
  split
  · rfl
  · exact conn_cmdline_dispatch _ _

/-- When the mark arrives, the command is taken. -/
theorem readByte_mark : c.readByte env b '!' = c.takeCommand env b (c.conn_cmdline ++ ['!']) := by
  rw [readByte, if_pos rfl, takeCommand, List.dropLast_concat, withLine_self]

/-- A byte that is no mark is put behind the unfinished command. -/
theorem readByte_other {byte : Char} (h : byte ≠ '!') :
    c.readByte env b byte = c.withLine (c.conn_cmdline ++ [byte]) := if_neg h

/-- What is left of a command does not matter once another has been taken. -/
theorem foldl_takeCommand_withLine :
    (cmds.foldl (takeCommand env b) (c.withLine line)).withLine text =
      (cmds.foldl (takeCommand env b) c).withLine text := by
  cases cmds with
  | nil => rfl
  | cons cmd cmds => rw [List.foldl_cons, List.foldl_cons, takeCommand_withLine]

/-- A client that reads a part of a stream of commands takes those that are complete. -/
theorem readyReadData_commands (env : Env) (b : Build)
    (h : Holds '!' c.conn_cmdline (text ++ rest) cmds) :
    ∃ done todo line, cmds = done ++ todo ∧ Holds '!' line rest todo ∧
      c.readyReadData env b text = (done.foldl (takeCommand env b) c).withLine line := by
  unfold readyReadData
  induction text generalizing c cmds with
  | nil => exact ⟨[], cmds, c.conn_cmdline, rfl, h, rfl⟩
  | cons byte text ih =>
      rw [List.foldl_cons]
      by_cases hbyte : byte = '!'
      · subst hbyte
        obtain ⟨cmds', rfl, h'⟩ := h.complete
        rw [readByte_mark]
        have hempty : (c.takeCommand env b (c.conn_cmdline ++ ['!'])).conn_cmdline = [] :=
          conn_cmdline_takeCommand
        rw [← hempty] at h'
        obtain ⟨done, todo, line, rfl, htodo, hread⟩ := ih h'
        exact ⟨(c.conn_cmdline ++ ['!']) :: done, todo, line, rfl, htodo, hread⟩
      · rw [readByte_other hbyte]
        obtain ⟨done, todo, line, rfl, htodo, hread⟩ :=
          ih (c := c.withLine (c.conn_cmdline ++ [byte])) (h.receive hbyte)
        exact ⟨done, todo, line, rfl, htodo, hread.trans foldl_takeCommand_withLine⟩

end ControlConnect

namespace MainObject

variable {env : Env} {db : Database} {es es₀ : List Event} {s₀ s : MainObject} {fd k : Int}
  {tr tr₀ : List Output} {cmd : QString}

/-- Everything that the server sends in a run is commands. -/
theorem runs_isCommand (hw : AllConns Worded s₀) (h : Runs (step env) NameSafe s₀ es s tr) :
    ∀ cmd ∈ commandsTo k tr, IsCommand cmd := by
  have hinv : AllConns Worded s ∧ ∀ cmd ∈ commandsTo k tr, IsCommand cmd := by
    refine h.invariant_history (I := fun _ s tr => AllConns Worded s ∧
      ∀ cmd ∈ commandsTo k tr, IsCommand cmd) ⟨hw, fun _ hcmd => nomatch hcmd⟩ ?_
    rintro es s tr e s' out - ⟨hs, htr⟩ hP hstep
    refine ⟨worded_step hs hP hstep, fun cmd hcmd => ?_⟩
    rw [commandsTo_append] at hcmd
    exact (List.mem_append.1 hcmd).elim (htr cmd) (step_isCommand hs hstep)
  exact hinv.2

/-- **The stream of commands.** From any state that the server reaches while MySQL finds names that
a command can carry, whatever its clients send, a client that has read a part of what the server has
sent to it since, in any number of reads, has taken the first of the commands that were sent, and
holds the part of the next that it has read. -/
theorem commands_arrive (h₀ : Runs (step env) NameSafe (start db) es₀ s₀ tr₀)
    (h : Runs (step env) NameSafe s₀ es s tr) (env' : Env) (b : ControlConnect.Build)
    (c : ControlConnect) (hempty : c.conn_cmdline = []) {reads : List QString} {rest : QString}
    (hreads : reads.flatten ++ rest = (commandsTo fd tr).flatten) :
    ∃ done todo line, commandsTo fd tr = done ++ todo ∧ line ++ rest = todo.flatten ∧ '!' ∉ line ∧
      reads.foldl (ControlConnect.readyReadData env' b) c =
        (done.foldl (ControlConnect.takeCommand env' b) c).withLine line := by
  have hw : AllConns Worded s₀ :=
    h₀.invariant (worded_start db) fun _ _ _ _ hw hP hs => worded_step hw hP hs
  have hcmds := runs_isCommand (k := fd) hw h
  have hholds : Holds '!' c.conn_cmdline (reads.flatten ++ rest) (commandsTo fd tr) :=
    ⟨by rw [hempty, List.nil_append, hreads], fun cmd hcmd => (hcmds cmd hcmd).message,
      by rw [hempty]; exact List.not_mem_nil⟩
  obtain ⟨done, todo, line, hsplit, htodo, hread⟩ :=
    ControlConnect.readyReadData_commands env' b hholds
  rw [ControlConnect.foldl_readyReadData]
  exact ⟨done, todo, line, hsplit, htodo.text, htodo.buffered, hread⟩

/-- Alice has logged in; her client has read the challenge, and the first byte of the answer to its
`PW`, in two reads. -/
theorem commands_arrive_demo : ∃ s tr, Runs (step demoEnv) NameSafe (start demoDb)
      (connects 5 0 :: typed 5 (loginText "alice") 0) s tr ∧
    ∃ done todo line, commandsTo 5 tr = done ++ todo ∧ line ++ "K 300!".toList = todo.flatten ∧
      '!' ∉ line ∧ ["LI 0".toList, List.replicate 31 '0' ++ ['!', 'O']].foldl
        (ControlConnect.readyReadData demoEnv ⟨true, "linux-1"⟩) {} =
      (done.foldl (ControlConnect.takeCommand demoEnv ⟨true, "linux-1"⟩) {}).withLine line := by
  have hrun : (run (step demoEnv) NameSafe (start demoDb)
      (connects 5 0 :: typed 5 (loginText "alice") 0)).any fun x => (commandsTo 5 x.2).flatten =
        ["LI 0".toList, List.replicate 31 '0' ++ ['!', 'O']].flatten ++ "K 300!".toList := by
    decide +kernel
  obtain ⟨⟨s, tr⟩, hrun, hsent⟩ := (Option.any_eq_true _ _).1 hrun
  have hruns := runs_of_run hrun
  exact ⟨s, tr, hruns, commands_arrive .nil hruns demoEnv ⟨true, "linux-1"⟩ {} rfl
    (of_decide_eq_true hsent).symm⟩

end MainObject

end NetISDN
