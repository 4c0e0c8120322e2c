import NetISDN.Rtp.SourceDescription

/-!
# Compound RTCP packets

`RTPControlHeader` (`rtpcontrolheader.cpp`) walks a compound packet from one first word to the
next and keeps the first packet of each kind. Where the walk goes depends on the first words only
(`packets`), so it can be told apart from what is read on the way (`readLoop_eq`).
-/

namespace NetISDN

variable {m m' : ByteMemory} {p l i : Nat}

/-- What a `readBlock` leaves behind, unless it returns 0. -/
def unlessZero {α : Type} (read : α × Nat) : Option α := if read.2 = 0 then none else some read.1

/-- `RTPControlHeader` (`rtpcontrolheader.h:42`). -/
structure RTPControlHeader where
  version : BitVec 32 := 2
  paddingBit : Bool := false
  senderReport : Option RTPSenderReport := none
  receptionReport : Option RTPReceptionReport := none
  sourceDescription : Option RTPSourceDescription := none
  bye : Option RTPBye := none

namespace RTPControlHeader

variable {h : RTPControlHeader}

/-- One turn of the switch of `readBlock` (`rtpcontrolheader.cpp:99`): a packet of a kind that is
there already is passed over, and so are `PacketApp` and unknown types. -/
def readPacket (h : RTPControlHeader) (m : ByteMemory) (data type : Nat) : RTPControlHeader :=
  match type with
  | 200 =>
      if h.senderReport.isNone then
        { h with senderReport := unlessZero (RTPSenderReport.readBlock m data) }
      else h
  | 201 =>
      if h.receptionReport.isNone then
        { h with receptionReport := unlessZero (RTPReceptionReport.readBlock m data) }
      else h
  | 202 =>
      if h.sourceDescription.isNone then
        { h with sourceDescription := unlessZero (RTPSourceDescription.readBlock m data) }
      else h
  | 203 =>
      if h.bye.isNone then { h with bye := unlessZero (RTPBye.readBlock m data) } else h
  | _ => h

/-- The loop of `readBlock` (`rtpcontrolheader.cpp:97`), from the word `ptr` on. -/
def readLoop (h : RTPControlHeader) (m : ByteMemory) (data len ptr : Nat) : RTPControlHeader :=
  let fields := m.word (data + 4 * ptr)
  if ptr < len / 4 ∧ 0 < controlSize fields ∧ controlVersion fields = h.version then
    readLoop (h.readPacket m (data + 4 * ptr) (controlType fields)) m data len
      (ptr + controlSize fields)
  else h
termination_by len / 4 - ptr
decreasing_by
  have hpos := controlSize_pos (m.word (data + 4 * ptr))
  omega

/-- `readBlock` (`rtpcontrolheader.cpp:87`). -/
def readBlock (h : RTPControlHeader) (m : ByteMemory) (data len : Nat) : RTPControlHeader :=
  h.readLoop m data len 0

/-- The packets that the loop comes to, from the word `ptr` on, each with its place and type. -/
def packets (version : BitVec 32) (m : ByteMemory) (data len ptr : Nat) : List (Nat × Nat) :=
  let fields := m.word (data + 4 * ptr)
  if ptr < len / 4 ∧ 0 < controlSize fields ∧ controlVersion fields = version then
    (ptr, controlType fields) :: packets version m data len (ptr + controlSize fields)
  else []
termination_by len / 4 - ptr
decreasing_by
  have hpos := controlSize_pos (m.word (data + 4 * ptr))
  omega

@[simp] theorem readPacket_version {type : Nat} :
    (h.readPacket m p type).version = h.version := by
  unfold readPacket
  split <;> (try split) <;> rfl

/-- The loop reads the packets it comes to. -/
theorem readLoop_eq : h.readLoop m p l i =
    (packets h.version m p l i).foldl
      (fun h q => h.readPacket m (p + 4 * q.1) q.2) h := by
  fun_induction readLoop h m p l i with
  | case1 h i fields hcond ih =>
      rw [packets, if_pos hcond, List.foldl_cons, ih, readPacket_version]
  | case2 h i fields hcond => rw [packets, if_neg hcond, List.foldl_nil]

/-- A packet of the right version is visited, and then the one after it. -/
theorem packets_cons {version : BitVec 32} (hptr : i < l / 4)
    (hversion : controlVersion (m.word (p + 4 * i)) = version) :
    packets version m p l i = (i, controlType (m.word (p + 4 * i))) ::
      packets version m p l (i + controlSize (m.word (p + 4 * i))) := by
  rw [packets, if_pos ⟨hptr, controlSize_pos _, hversion⟩]

/-- The walk ends with the packet. -/
theorem packets_nil {version : BitVec 32} (hptr : l / 4 ≤ i) :
    packets version m p l i = [] := by
  rw [packets, if_neg fun hcond => Nat.not_lt.2 hptr hcond.1]

end RTPControlHeader

end NetISDN
