import NetISDN.Client.ControlConnect
import NetISDN.Lib.Base64
import NetISDN.Server.Dispatch

/-!
# Vorbis codebooks

The three packets that a Vorbis decoder starts from go from one client to the other in a `CB`, which
the server forwards. Base64 text means nothing to what frames and splits commands on the way
(`base64_plain`), so the packets arrive unaltered, however the two streams are cut into reads
(`MainObject.codebooks_arrive`).
-/

namespace NetISDN

open TransitionSystem

/-! ## The command -/

/-- A token that goes through framing, splitting and stripping as it is. -/
structure IsPlain (t : QString) : Prop where
  ne_nil : t ≠ []
  no_end : '!' ∉ t
  no_space : ∀ c ∈ t, isSpace c = false

section
variable {t : QString} {ts : QStringList} {data : List (BitVec 8)}

/-- A plain text holds no blank. -/
theorem IsPlain.not_mem_space (h : IsPlain t) : ' ' ∉ t := fun hc =>
  absurd (h.no_space ' ' hc) (by decide)

/-- Base64 text is plain. -/
theorem isPlain_base64 (h : data ≠ []) : IsPlain (NetDataToBase64 data) where
  ne_nil := NetDataToBase64_ne_nil h
  no_end hc := (base64_plain hc).2.1 rfl
  no_space _ hc := (base64_plain hc).1

/-- Plain tokens that are joined have no white space at their ends. -/
theorem stripWhiteSpace_plain (hts : ∀ t ∈ ts, IsPlain t) :
    stripWhiteSpace (join [' '] ts) = join [' '] ts :=
  stripWhiteSpace_join (fun t ht => (hts t ht).ne_nil)
    (fun t ht c hc => (hts t (List.mem_of_mem_head? ht)).no_space c (List.mem_of_mem_head? hc))
    fun t ht c hc =>
      (hts t (List.mem_of_mem_getLast? ht)).no_space c (List.mem_of_mem_getLast? hc)

/-- `ForwardMessage` joins the tokens again. -/
theorem forwardText_eq (hts : ts ≠ []) :
    MainObject.forwardText ts = join [' '] ts ++ ['!'] := by
  obtain ⟨t, ts, rfl⟩ := List.exists_cons_of_ne_nil hts
  have hjoin (t : QString) : (t :: ts).flatMap (fun t => t ++ " ".toList) =
      join [' '] (t :: ts) ++ [' '] := by
    induction ts generalizing t with
    | nil => simp [join_cons]
    | cons u us ih =>
        rw [List.flatMap_cons, ih (by simp), join_cons, join_cons]
        simp
  rw [MainObject.forwardText, hjoin, List.dropLast_concat]
  rfl

end

/-- The tokens of the command of `sendCodebook`. -/
def codebookTokens (start_pkt comment_pkt codebook_pkt : QString) : QStringList :=
  ["CB", start_pkt, comment_pkt, codebook_pkt]

/-- The tokens of a `CB` with three packets are plain. -/
theorem isPlain_codebookTokens {start comment codebook : List (BitVec 8)} (hstart : start ≠ [])
    (hcomment : comment ≠ []) (hcodebook : codebook ≠ []) :
    ∀ t ∈ codebookTokens (NetDataToBase64 start) (NetDataToBase64 comment)
      (NetDataToBase64 codebook), IsPlain t := by
  rw [codebookTokens]
  simp only [List.forall_mem_cons]
  exact ⟨⟨by decide, by decide, by simp [isSpace]⟩, isPlain_base64 hstart, isPlain_base64 hcomment,
    isPlain_base64 hcodebook, List.forall_mem_nil _⟩

/-- What is read back from a packet fits into a buffer of 32768 bytes. -/
theorem writtenData_fits {data : List (BitVec 8)} (h : data.length ≤ 32766) :
    ∀ written ∈ writtenData (NetDataToBase64 data), written.length ≤ 32768 := by
  intro written hwritten
  obtain ⟨hcount, heq⟩ := writtenData_encode data
  obtain rfl := Option.some.inj (heq.symm.trans hwritten)
  rw [List.length_append, List.length_replicate]
  omega

/-! ## The server -/

/-- Reads on `fd`, each at its time: the server handles the bytes one after the other. -/
def arrivals (fd : Int) (reads : List (World × QString)) : List Event :=
  reads.flatMap fun r => r.2.map fun b => ⟨.socketReady fd b, r.1⟩

/-- The slots of what arrives, byte by byte. -/
theorem arrivals_slots (fd : Int) (reads : List (World × QString)) :
    (arrivals fd reads).map Event.slot = (reads.flatMap Prod.snd).map (Slot.socketReady fd) := by
  rw [arrivals, List.map_flatMap, List.map_flatMap]
  refine List.flatMap_congr fun r _ => ?_
  rw [List.map_map]
  rfl

namespace MainObject

variable {env : Env} {s s' : MainObject} {fd d : Int} {c cd : SipConnection} {cs : QString}
  {es : List Event} {e : Event} {ts : QStringList}

/-- The connections on `fd` and `d` have logged in and are linked to each other, and the server has
taken all commands of `fd` so far. -/
structure LinkedTo (s : MainObject) (fd d : Int) : Prop where
  nonneg : 0 ≤ fd ∧ 0 ≤ d
  sender : ∃ c, s.conn fd = some c ∧ c.isAuthenticated = true ∧ c.connectionFd = d ∧ c.cmdline = []
  receiver : ∃ c, s.conn d = some c ∧ c.isAuthenticated = true ∧ c.connectionFd = fd

variable (env) in
/-- Bytes that end no command are kept, and nothing else happens. -/
theorem runs_bytes (hslots : es.map Event.slot = cs.map (Slot.socketReady fd)) (hcs : '!' ∉ cs)
    (hc : s.conn fd = some c) : ∃ s', Runs (step env) Always s es s' [] ∧
      s'.conn fd = some { c with cmdline := c.cmdline ++ cs } ∧
      ∀ k, fd ≠ k → s'.conn k = s.conn k := by
  induction cs generalizing s c es with
  | nil =>
      obtain rfl := List.map_eq_nil_iff.1 hslots
      exact ⟨s, .nil, by rw [hc, List.append_nil], fun _ _ => rfl⟩
  | cons b cs ih =>
      obtain ⟨⟨slot, w⟩, es, rfl, rfl, htail⟩ := List.map_eq_cons_iff.1 hslots
      obtain ⟨hb, hcs⟩ := not_or.1 (mt List.mem_cons.2 hcs)
      have hstep : step env s ⟨.socketReady fd b, w⟩ =
          some ((s.flush.modifyConn fd (SipConnection.appendLine b)).flush, []) := by
        simp only [step, runSlot, readByte, conn_flush, hc, Option.bind_eq_bind, Option.bind_some,
          if_neg (Ne.symm hb)]
        rfl
      obtain ⟨s', hruns, hconn, hothers⟩ := ih (c := c.appendLine b)
        (s := (s.flush.modifyConn fd (SipConnection.appendLine b)).flush) htail hcs
        (by rw [conn_flush, conn_modifyConn, if_pos rfl, conn_flush, hc, Option.map_some])
      refine ⟨s', (Runs.single trivial hstep).append hruns, ?_, fun k hk => ?_⟩
      · rw [hconn, SipConnection.appendLine]
        simp
      · rw [hothers k hk, conn_flush, conn_modifyConn, if_neg hk, conn_flush]

variable (env) in
/-- A `CB` of a connection that has logged in and is linked goes to its partner as it came. -/
theorem step_forward (hslot : e.slot = .socketReady fd '!') (hc : s.conn fd = some c)
    (hline : c.cmdline = join [' '] ts) (hts : ∀ t ∈ ts, IsPlain t) (h0 : ts.at 0 = "CB")
    (hauth : c.isAuthenticated = true) (hlink : 0 ≤ c.connectionFd)
    (hd : ∃ cd, s.conn c.connectionFd = some cd) :
    ∃ s', step env s e = some (s', [.command c.connectionFd (join [' '] ts ++ ['!'])]) := by
  have htokens : tokens c = ts := by
    rw [tokens, hline, stripWhiteSpace_plain hts,
      split_join fun t ht => ⟨(hts t ht).ne_nil, (hts t ht).not_mem_space⟩]
  have hne : ts ≠ [] := by
    rintro rfl
    cases h0
  obtain ⟨hc', hrun⟩ := runSlot_received (s := s.flush) env (received_eq hslot hc)
  obtain ⟨cd, hcd⟩ : ∃ cd, (s.flush.takeLine fd).conn c.connectionFd = some cd := by
    obtain ⟨cd, hcd⟩ := hd
    rw [takeLine, conn_modifyConn, conn_flush, hcd]
    split
    · exact ⟨_, rfl⟩
    · exact ⟨_, rfl⟩
  rw [dispatch_forward hc' (.inl (htokens ▸ h0)) hauth] at hrun
  have hforward : (s.flush.takeLine fd).forwardMessage fd (tokens c) = some
      ((s.flush.takeLine fd).sendCommand c.connectionFd (forwardText (tokens c))) := by
    simp only [forwardMessage, hc', Option.bind_eq_bind, Option.bind_some,
      SipConnection.clearLine_connectionFd, if_neg (not_lt.2 hlink), hcd]
    rfl
  rw [hforward, htokens, forwardText_eq hne] at hrun
  refine ⟨((s.flush.takeLine fd).sendCommand c.connectionFd (join [' '] ts ++ ['!'])).flush, ?_⟩
  rw [step, hrun]
  rfl

end MainObject

/-! ## The receiving client -/

namespace ControlConnect

variable {env : Env} {b : Build} {c : ControlConnect} {start_pkt comment_pkt codebook_pkt : QString}
  {reads : List QString}

/-- What `sendCodebook` sends. -/
theorem sendCodebook_sent : (c.sendCodebook start_pkt comment_pkt codebook_pkt).sent = c.sent ++
    [join [' '] (codebookTokens start_pkt comment_pkt codebook_pkt) ++ ['!']] := by
  rw [codebookTokens, join_cons]
  simp [sendCodebook, sendCommand]

/-- Reads are as good as one read of all bytes. -/
theorem foldl_readyReadData :
    reads.foldl (readyReadData env b) c = c.readyReadData env b reads.flatten := by
  induction reads generalizing c with
  | nil => rfl
  | cons buf reads ih =>
      rw [List.foldl_cons, ih, List.flatten_cons, readyReadData, readyReadData, readyReadData,
        List.foldl_append]

/-- A client that reads a `CB` hands its packets on, and does nothing else. -/
theorem readyReadData_codebook (hempty : c.conn_cmdline = [])
    (hts : ∀ t ∈ codebookTokens start_pkt comment_pkt codebook_pkt, IsPlain t) :
    c.readyReadData env b
        (join [' '] (codebookTokens start_pkt comment_pkt codebook_pkt) ++ ['!']) =
      c.emit (.codebookReceived start_pkt comment_pkt codebook_pkt) := by
  have hline : '!' ∉ join [' '] (codebookTokens start_pkt comment_pkt codebook_pkt) :=
    not_mem_join (by decide) fun t ht => (hts t ht).no_end
  have hcmdline : { c with conn_cmdline := [] } = c := by
    cases c
    cases hempty
    rfl
  rw [readyReadData_command hempty hline, parseCommand]
  simp only [split_join fun t ht => ⟨(hts t ht).ne_nil, (hts t ht).not_mem_space⟩]
  rw [hcmdline]
  rfl

end ControlConnect

/-! ## From one client to the other -/

namespace MainObject

variable {s : MainObject} {fd d : Int}

/-- What arrives of three packets: the receiver emits their texts once, does nothing else, and reads
each text as its packet, without writing past a buffer of 32768 bytes. -/
def ArriveUnaltered (receiver receiver' : ControlConnect)
    (start comment codebook : List (BitVec 8)) : Prop :=
  ∃ start_pkt comment_pkt codebook_pkt,
    receiver' = receiver.emit (.codebookReceived start_pkt comment_pkt codebook_pkt) ∧
    NetBase64ToData start_pkt = start ∧ NetBase64ToData comment_pkt = comment ∧
    NetBase64ToData codebook_pkt = codebook ∧
    ∀ pkt ∈ [start_pkt, comment_pkt, codebook_pkt], ∀ data ∈ writtenData pkt, data.length ≤ 32768

/-- The server takes in a plain command of `fd`, whenever its bytes come, and sends it on to `d`. -/
theorem runs_forward (env : Env) {ts : QStringList} (hlinked : LinkedTo s fd d)
    (hts : ∀ t ∈ ts, IsPlain t) (h0 : ts.at 0 = "CB") {reads : List (World × QString)}
    (hbytes : reads.flatMap Prod.snd = join [' '] ts ++ ['!']) :
    ∃ s', Runs (step env) Always s (arrivals fd reads) s'
      [.command d (join [' '] ts ++ ['!'])] := by
  have hslots := arrivals_slots fd reads
  rw [hbytes, List.map_append] at hslots
  obtain ⟨es, es', hes, hline, hend⟩ := List.map_eq_append_iff.1 hslots
  obtain ⟨e, rfl, hslot⟩ := List.map_eq_singleton_iff.1 hend
  obtain ⟨c, hc, hauth, hlink, hcmdline⟩ := hlinked.sender
  obtain ⟨cd, hcd, -⟩ := hlinked.receiver
  have hplain : '!' ∉ join [' '] ts := not_mem_join (by decide) fun t ht => (hts t ht).no_end
  obtain ⟨s₁, hruns, hc₁, hothers⟩ := runs_bytes env hline hplain hc
  have hpartner : ∃ cd, s₁.conn c.connectionFd = some cd := by
    by_cases hself : fd = d
    · exact ⟨_, by rw [hlink, ← hself]; exact hc₁⟩
    · exact ⟨cd, by rw [hlink, hothers d hself, hcd]⟩
  obtain ⟨s', hstep⟩ := step_forward env hslot hc₁ (by rw [hcmdline, List.nil_append]) hts h0 hauth
    (by rw [hlink]; exact hlinked.nonneg.2) hpartner
  refine ⟨s', ?_⟩
  rw [hes]
  exact hruns.snoc trivial (hlink ▸ hstep)

/-- A client that reads a `CB` with three packets gets them unaltered. -/
theorem arriveUnaltered_of_reads (env : Env) (b : ControlConnect.Build)
    {start comment codebook : List (BitVec 8)} (hstart : start ≠ [] ∧ start.length ≤ 32766)
    (hcomment : comment ≠ [] ∧ comment.length ≤ 32766)
    (hcodebook : codebook ≠ [] ∧ codebook.length ≤ 32766) {receiver : ControlConnect}
    (hempty : receiver.conn_cmdline = []) {reads : List QString}
    (hreads : reads.flatten = join [' '] (codebookTokens (NetDataToBase64 start)
      (NetDataToBase64 comment) (NetDataToBase64 codebook)) ++ ['!']) :
    ArriveUnaltered receiver (reads.foldl (ControlConnect.readyReadData env b) receiver)
      start comment codebook := by
  rw [ControlConnect.foldl_readyReadData, hreads, ControlConnect.readyReadData_codebook hempty
    (isPlain_codebookTokens hstart.1 hcomment.1 hcodebook.1)]
  refine ⟨_, _, _, rfl, NetBase64ToData_encode _, NetBase64ToData_encode _,
    NetBase64ToData_encode _, ?_⟩
  simp only [List.forall_mem_cons]
  exact ⟨writtenData_fits hstart.2, writtenData_fits hcomment.2, writtenData_fits hcodebook.2,
    List.forall_mem_nil _⟩

/-- **Codebooks.** Three packets that one client sends with `sendCodebook` arrive unaltered at the
client it is linked to, however the server reads the stream of the one, and the other the stream of
the server. -/
theorem codebooks_arrive (env : Env) (b : ControlConnect.Build)
    {start comment codebook : List (BitVec 8)} (hstart : start ≠ [] ∧ start.length ≤ 32766)
    (hcomment : comment ≠ [] ∧ comment.length ≤ 32766)
    (hcodebook : codebook ≠ [] ∧ codebook.length ≤ 32766) (hlinked : LinkedTo s fd d)
    (sender receiver : ControlConnect) (hempty : receiver.conn_cmdline = [])
    (reads : List (World × QString))
    (hreads : (sender.sendCodebook (NetDataToBase64 start) (NetDataToBase64 comment)
      (NetDataToBase64 codebook)).sent.flatten = sender.sent.flatten ++ reads.flatMap Prod.snd) :
    ∃ s' tr, Runs (step env) Always s (arrivals fd reads) s' tr ∧
      ∀ reads' : List QString, reads'.flatten = (commandsTo d tr).flatten →
        ArriveUnaltered receiver (reads'.foldl (ControlConnect.readyReadData env b) receiver)
          start comment codebook := by
  have hts := isPlain_codebookTokens hstart.1 hcomment.1 hcodebook.1
  -- what the server reads is the command
  rw [ControlConnect.sendCodebook_sent, List.flatten_append, List.flatten_singleton] at hreads
  obtain ⟨s', hruns⟩ := runs_forward env hlinked hts rfl (List.append_cancel_left hreads).symm
  refine ⟨s', _, hruns, fun reads' hreads' => ?_⟩
  rw [commandsTo_command, if_pos rfl, List.flatten_singleton] at hreads'
  exact arriveUnaltered_of_reads env b hstart hcomment hcodebook hempty hreads'

/-- A connection that has logged in and is linked to `fd`. -/
def linkedConn (fd : Int) : SipConnection where
  peerAddress := ⟨0⟩
  connectionFd := fd
  isAuthenticated := true
  pingTimestamp := 0

/-- A server with two connections that are linked to each other. -/
def linkedDemo : MainObject :=
  ((start demoDb).insertConn 5 (linkedConn 6)).insertConn 6 (linkedConn 5)

/-- Three packets of one, two and three bytes, whose command the server reads in two pieces. -/
theorem codebooks_arrive_demo : ∃ s' tr, Runs (step demoEnv) Always linkedDemo
      (arrivals 5 [({ now := 0 }, "CB AA== /wE= A"), ({ now := 1 }, "QID!")]) s' tr ∧
    ∀ reads' : List QString, reads'.flatten = (commandsTo 6 tr).flatten →
      ArriveUnaltered {} (reads'.foldl (ControlConnect.readyReadData demoEnv ⟨true, "linux-1"⟩) {})
        [0] [255, 1] [1, 2, 3] := by
  have hlinked : LinkedTo linkedDemo 5 6 := by
    refine ⟨by decide, ⟨linkedConn 6, ?_, rfl, rfl, rfl⟩, ⟨linkedConn 5, ?_, rfl, rfl⟩⟩
    · rw [linkedDemo, conn_insertConn, if_neg (by decide), conn_insertConn, if_pos rfl]
    · rw [linkedDemo, conn_insertConn, if_pos rfl]
  exact codebooks_arrive demoEnv ⟨true, "linux-1"⟩ (by decide) (by decide) (by decide) hlinked {} {}
    rfl _ (by decide)

end MainObject

end NetISDN
