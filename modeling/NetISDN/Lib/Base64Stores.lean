import NetISDN.General.ByteMemory
import NetISDN.Lib.Base64

/-!
# What `NetBase64ToData` stores

`NetBase64ToData` writes the bytes of each group to `data` as it reads it, three at a time, and
takes the padding off its result at the end. Here the loop is run on the array itself. It stores at
the indices from 0 on, three for each group that is read before an illegal character
(`stores_loop`). What `NetDataToBase64` has made of an array is found there again
(`base64_roundTrip`). `maxlen` is not looked at, so it is respected by the texts that are short
enough only (`respectsLimit_iff`).
-/

namespace NetISDN

/-- The array of `NetBase64ToData`: what is in it, where the next byte goes, and the indices at
which one has been stored. -/
structure DataArray where
  data : ByteMemory
  ptr : Nat := 0
  stored : List Nat := []

namespace DataArray

/-- `data[ptr++]=byte`. -/
def put (a : DataArray) (byte : BitVec 8) : DataArray where
  data := a.data.setBytes a.ptr [byte]
  ptr := a.ptr + 1
  stored := a.stored ++ [a.ptr]

/-- The stores of a group. -/
def putGroup (a : DataArray) (ret : QString) : DataArray :=
  ret.foldl (fun a c => a.put (BitVec.ofNat 8 c.toNat)) a

/-- The last group of the loop, which may be a short one; the flag is false where
`NetBase64ToData` returns at an illegal character. -/
def putLast (a : DataArray) : Option QString → DataArray × Bool
  | none => (a, false)
  | some ret => (a.putGroup ret, true)

/-- The group loop of `NetBase64ToData`. -/
def loop (a : DataArray) : QString → DataArray × Bool
  | [] => (a, true)
  | [c0] => a.putLast (base64Group (some c0) none none none)
  | [c0, c1] => a.putLast (base64Group (some c0) (some c1) none none)
  | [c0, c1, c2] => a.putLast (base64Group (some c0) (some c1) (some c2) none)
  | c0 :: c1 :: c2 :: c3 :: base64 =>
      match base64Group (some c0) (some c1) (some c2) (some c3) with
      | none => (a, false)
      | some ret => (a.putGroup ret).loop base64

end DataArray

/-- `NetBase64ToData` (`netconf.cpp:483`): the array it leaves behind, and its result. -/
def base64ToData (base64 : QString) (data : ByteMemory) (_maxlen : Nat) : DataArray × Nat :=
  match ({ data := data } : DataArray).loop base64 with
  | (a, false) => (a, 0)
  | (a, true) =>
    let pad := base64.count '='
    if 2 < pad then (a, 0) else (a, a.ptr - pad)

/-- Whether a character is one of the dictionary or `=`. -/
def isLegal (c : Char) : Bool := (base64Value (some c)).isSome

/-- The groups that are read: those in front of the one with the first illegal character, a short
one at the end included. -/
def groupsRead (base64 : QString) : Nat :=
  if base64.all isLegal then (base64.length + 3) / 4 else (base64.takeWhile isLegal).length / 4

namespace DataArray

variable {a a' : DataArray} {c0 c1 c2 c3 : Option Char} {x ret : QString} {g : Option QString}
  {bs cs : List (BitVec 8)}

/-! ## Stores -/

/-- `a'` is `a` with the bytes `bs` stored one behind the other. -/
structure Stores (a : DataArray) (bs : List (BitVec 8)) (a' : DataArray) : Prop where
  data : a'.data = a.data.setBytes a.ptr bs
  ptr : a'.ptr = a.ptr + bs.length
  stored : a'.stored = a.stored ++ List.range' a.ptr bs.length

/-- Nothing is stored. -/
theorem Stores.nil : Stores a [] a where
  data := ByteMemory.setBytes_nil.symm
  ptr := rfl
  stored := (List.append_nil _).symm

/-- Storing two lists of bytes, one after the other. -/
theorem Stores.append {a₁ : DataArray} (h : Stores a bs a₁) (h' : Stores a₁ cs a') :
    Stores a (bs ++ cs) a' where
  data := by rw [h'.data, h.data, h.ptr, ByteMemory.setBytes_append]
  ptr := by rw [h'.ptr, h.ptr, List.length_append, Nat.add_assoc]
  stored := by
    rw [h'.stored, h.stored, h.ptr, List.length_append, List.append_assoc, List.range'_append_1]

/-- One byte is stored at the index, which is moved on. -/
theorem stores_put (byte : BitVec 8) : Stores a [byte] (a.put byte) := ⟨rfl, rfl, rfl⟩

/-- The bytes of some characters. -/
def bytesOf (ret : QString) : List (BitVec 8) := ret.map fun c => BitVec.ofNat 8 c.toNat

/-- A group of bytes is stored at the index. -/
theorem stores_putGroup (ret : QString) : Stores a (bytesOf ret) (a.putGroup ret) := by
  induction ret generalizing a with
  | nil => exact .nil
  | cons c ret ih => exact (stores_put _).append ih

/-! ## Groups -/

/-- A group is refused for an illegal character only. -/
theorem isSome_base64Group : (base64Group c0 c1 c2 c3).isSome =
    ((base64Value c0).isSome && (base64Value c1).isSome && (base64Value c2).isSome &&
      (base64Value c3).isSome) := by
  unfold base64Group
  cases base64Value c0 <;> cases base64Value c1 <;> cases base64Value c2 <;>
    cases base64Value c3 <;> rfl

/-- A whole group is read if its four characters are legal. -/
theorem isSome_base64Group_all {c0 c1 c2 c3 : Char} :
    (base64Group (some c0) (some c1) (some c2) (some c3)).isSome =
      ([c0, c1, c2, c3] : QString).all isLegal := by
  rw [isSome_base64Group]
  simp [isLegal, Bool.and_assoc]

/-- A group is three bytes. -/
theorem length_of_base64Group (h : base64Group c0 c1 c2 c3 = some ret) : ret.length = 3 := by
  simp only [base64Group, Option.bind_eq_bind, Option.bind_eq_some_iff, Option.pure_def,
    Option.some.injEq] at h
  obtain ⟨d0, -, d1, -, d2, -, d3, -, rfl⟩ := h
  rfl

/-- The end of the text counts as a legal character. -/
theorem base64Value_none : (base64Value none).isSome = true := rfl

/-- A legal group is read. -/
theorem groupsRead_cons {c0 c1 c2 c3 : Char} (h : ([c0, c1, c2, c3] : QString).all isLegal = true) :
    groupsRead (c0 :: c1 :: c2 :: c3 :: x) = groupsRead x + 1 := by
  simp only [List.all_cons, List.all_nil, Bool.and_true, Bool.and_eq_true] at h
  simp only [groupsRead, List.all_cons, List.takeWhile_cons, h, Bool.true_and, if_true,
    List.length_cons]
  split <;> omega

/-- An illegal group ends the reading. -/
theorem groupsRead_illegal (h : (x.take 4).all isLegal = false) : groupsRead x = 0 := by
  have hall : x.all isLegal = false := by
    rw [← List.take_append_drop 4 x, List.all_append, h, Bool.false_and]
  have hlt : (x.takeWhile isLegal).length < 4 := by
    by_contra hge
    have htake : x.take 4 = (x.takeWhile isLegal).take 4 := by
      conv_lhs => rw [← List.takeWhile_append_dropWhile (p := isLegal) (l := x)]
      exact List.take_append_of_le_length (by omega)
    rw [htake, List.all_eq_false] at h
    obtain ⟨c, hc, hillegal⟩ := h
    exact hillegal (List.mem_takeWhile_imp (List.mem_of_mem_take hc))
  rw [groupsRead, hall, if_neg Bool.false_ne_true]
  exact Nat.div_eq_of_lt hlt

/-- A last group that is short is read when it is legal. -/
theorem groupsRead_short (hne : x ≠ []) (hlt : x.length < 4) :
    groupsRead x = if x.all isLegal then 1 else 0 := by
  have hpos := List.length_pos_iff.2 hne
  split
  · next h => rw [groupsRead, if_pos h]; omega
  · next h =>
      refine groupsRead_illegal ?_
      rw [List.take_of_length_le (by omega)]
      exact Bool.eq_false_iff.2 h

/-! ## The loop -/

/-- What the loop does to the array: it stores three bytes for each group that is read, and they are
those of the text if it comes to its end. -/
structure LoopStores (a : DataArray) (x : QString) (bs : List (BitVec 8)) (r : DataArray × Bool) :
    Prop where
  stores : Stores a bs r.1
  length : bs.length = 3 * groupsRead x
  written : writtenData x = if r.2 then some bs else none

/-- The last group. -/
theorem putLast_spec (hne : x ≠ []) (hlt : x.length < 4) (hbytes : base64Bytes x = g)
    (hlegal : g.isSome = x.all isLegal) (hlength : ∀ ret, g = some ret → ret.length = 3) :
    ∃ bs, LoopStores a x bs (a.putLast g) := by
  have hread := groupsRead_short hne hlt
  cases g with
  | none =>
      rw [← hlegal, Option.isSome_none, if_neg Bool.false_ne_true] at hread
      exact ⟨[], .nil, by rw [hread]; rfl, by rw [writtenData, hbytes]; rfl⟩
  | some ret =>
      rw [← hlegal, Option.isSome_some, if_pos rfl] at hread
      refine ⟨bytesOf ret, stores_putGroup ret, ?_, by rw [writtenData, hbytes]; rfl⟩
      rw [bytesOf, List.length_map, hlength ret rfl, hread]

variable (a) (x) in
/-- What the loop stores. -/
theorem stores_loop : ∃ bs, LoopStores a x bs (a.loop x) := by
  fun_induction loop a x with
  | case1 a => exact ⟨[], .nil, rfl, rfl⟩
  | case2 a c0 =>
      refine putLast_spec (List.cons_ne_nil _ _) (by simp) rfl ?_ fun ret h =>
        length_of_base64Group h
      simp [isSome_base64Group, base64Value_none, isLegal]
  | case3 a c0 c1 =>
      refine putLast_spec (List.cons_ne_nil _ _) (by simp) rfl ?_ fun ret h =>
        length_of_base64Group h
      simp [isSome_base64Group, base64Value_none, isLegal]
  | case4 a c0 c1 c2 =>
      refine putLast_spec (List.cons_ne_nil _ _) (by simp) rfl ?_ fun ret h =>
        length_of_base64Group h
      simp [isSome_base64Group, base64Value_none, isLegal, Bool.and_assoc]
  | case5 a c0 c1 c2 c3 x hnone =>
      have hillegal : ([c0, c1, c2, c3] : QString).all isLegal = false := by
        rw [← isSome_base64Group_all, hnone, Option.isSome_none]
      have hread : groupsRead (c0 :: c1 :: c2 :: c3 :: x) = 0 := groupsRead_illegal hillegal
      refine ⟨[], .nil, by rw [hread]; rfl, ?_⟩
      rw [writtenData, base64Bytes, hnone]
      rfl
  | case6 a c0 c1 c2 c3 x ret hsome ih =>
      obtain ⟨bs, hstores, hlength, hwritten⟩ := ih
      have hlegal : ([c0, c1, c2, c3] : QString).all isLegal = true := by
        rw [← isSome_base64Group_all, hsome, Option.isSome_some]
      refine ⟨bytesOf ret ++ bs, (stores_putGroup ret).append hstores, ?_, ?_⟩
      · rw [List.length_append, bytesOf, List.length_map, length_of_base64Group hsome, hlength,
          groupsRead_cons hlegal]
        omega
      · rw [writtenData] at hwritten ⊢
        rw [base64Bytes, hsome, Option.bind_eq_bind, Option.bind_some]
        split at hwritten
        · next hflag =>
            obtain ⟨rest, hrest, rfl⟩ := Option.map_eq_some_iff.1 hwritten
            rw [hrest, if_pos hflag]
            simp [bytesOf]
        · next hflag =>
            rw [Option.map_eq_none_iff] at hwritten
            rw [hwritten, if_neg hflag]
            rfl

end DataArray

/-! ## The result -/

open DataArray

variable {base64 : QString} {data : ByteMemory} {maxlen : Nat}

variable (base64) (data) (maxlen) in
/-- What `NetBase64ToData` stores and returns. -/
theorem base64ToData_spec : ∃ bs, Stores { data := data } bs (base64ToData base64 data maxlen).1 ∧
    bs.length = 3 * groupsRead base64 ∧
    (base64ToData base64 data maxlen).2 ≤ bs.length ∧
    NetBase64ToData base64 = bs.take (base64ToData base64 data maxlen).2 := by
  obtain ⟨bs, hstores, hlength, hwritten⟩ := stores_loop { data := data } base64
  refine ⟨bs, ?_⟩
  rw [base64ToData, NetBase64ToData, hwritten]
  generalize DataArray.loop _ base64 = r at hstores
  obtain ⟨a, read⟩ := r
  have hptr : a.ptr = bs.length := hstores.ptr.trans (Nat.zero_add _)
  cases read with
  | false => exact ⟨hstores, hlength, Nat.zero_le _, rfl⟩
  | true =>
      simp only [if_true]
      split
      · exact ⟨hstores, hlength, Nat.zero_le _, rfl⟩
      · rw [hptr]
        exact ⟨hstores, hlength, Nat.sub_le _ _, rfl⟩

/-- The bytes stored are found in the array. -/
theorem DataArray.Stores.bytes {a a' : DataArray} {bs : List (BitVec 8)} (h : Stores a bs a')
    {n : Nat} (hn : n ≤ bs.length) : a'.data.bytes a.ptr n = bs.take n := by
  have hall : a'.data.bytes a.ptr bs.length = bs := by rw [h.data, ByteMemory.bytes_setBytes]
  rw [← Nat.add_sub_cancel' hn, ByteMemory.bytes_add] at hall
  have htake := congrArg (List.take n) hall
  rwa [List.take_left' ByteMemory.length_bytes] at htake

/-! ## Round trip -/

/-- The digits and the padding character are legal. -/
theorem isLegal_of_mem {c : Char} (h : c ∈ '=' :: base64_dict) : isLegal c = true := by
  have hall : ('=' :: base64_dict).all isLegal = true := by decide
  exact List.all_eq_true.1 hall c h

/-- Base64 text is four characters for each three that are begun. -/
theorem length_NetStringToBase64 (str : QString) :
    (NetStringToBase64 str).length = 4 * ((str.length + 2) / 3) := by
  have hlength := length_base64Groups str
  rw [NetStringToBase64]
  split
  · next hone =>
      have htwo : ("==" : QString).length = 2 := rfl
      rw [List.length_append, List.length_take, htwo]
      omega
  · next htwo =>
      have hone : ("=" : QString).length = 1 := rfl
      rw [List.length_append, List.length_take, hone]
      omega
  · exact hlength

/-- All of what `NetDataToBase64` makes is read. -/
theorem groupsRead_encode (d : List (BitVec 8)) :
    groupsRead (NetDataToBase64 d) = (d.length + 2) / 3 := by
  have hall : (NetDataToBase64 d).all isLegal = true :=
    List.all_eq_true.2 fun c hc => isLegal_of_mem (mem_base64 hc)
  have hlength := length_NetStringToBase64 (d.map latin1)
  rw [List.length_map] at hlength
  rw [groupsRead, if_pos hall, NetDataToBase64, hlength]
  omega

/-- **Decoding undoes encoding**: an array of bytes is found again where there is room for its
groups, and a text of bytes is read back. -/
theorem base64_roundTrip :
    (∀ (d : List (BitVec 8)) (data : ByteMemory) (maxlen : Nat),
      3 * ((d.length + 2) / 3) ≤ maxlen →
        let r := base64ToData (NetDataToBase64 d) data maxlen
        r.2 = d.length ∧ r.1.data.bytes 0 d.length = d ∧ ∀ i ∈ r.1.stored, i < maxlen) ∧
      ∀ str : QString, (∀ c ∈ str, c.toNat < 256) →
        NetBase64ToString (NetStringToBase64 str) = some str := by
  refine ⟨fun d data maxlen hmax => ?_, fun str h => NetBase64ToString_encode h⟩
  obtain ⟨bs, hstores, hlength, hle, htake⟩ := base64ToData_spec (NetDataToBase64 d) data maxlen
  rw [NetBase64ToData_encode] at htake
  rw [groupsRead_encode] at hlength
  have hresult : (base64ToData (NetDataToBase64 d) data maxlen).2 = d.length := by
    have hlen := congrArg List.length htake
    rw [List.length_take, Nat.min_eq_left hle] at hlen
    exact hlen.symm
  refine ⟨hresult, ?_, fun i hi => ?_⟩
  · rw [← hresult]
    exact (hstores.bytes hle).trans htake.symm
  · rw [hstores.stored, List.nil_append, hlength, List.mem_range'_1] at hi
    exact (Nat.zero_add (3 * _) ▸ hi.2).trans_le hmax

/-- Two bytes in an array of three, and a text of four. -/
theorem base64_roundTrip_demo :
    (base64ToData (NetDataToBase64 [7, 255]) (fun _ => 0) 3).2 = 2 ∧
      NetBase64ToString (NetStringToBase64 "Ünix") = some "Ünix" := by
  have hlatin : (("Ünix" : QString).all fun c => decide (c.toNat < 256)) = true := by decide
  exact ⟨(base64_roundTrip.1 [7, 255] (fun _ => 0) 3 (by decide)).1,
    base64_roundTrip.2 "Ünix" fun c hc => of_decide_eq_true (List.all_eq_true.1 hlatin c hc)⟩

/-! ## The limit -/

/-- `NetBase64ToData` stores nothing at `maxlen` or behind it, and returns at most `maxlen`. -/
def RespectsLimit (base64 : QString) (data : ByteMemory) (maxlen : Nat) : Prop :=
  let r := base64ToData base64 data maxlen
  (∀ i ∈ r.1.stored, i < maxlen) ∧ r.2 ≤ maxlen

variable (base64) (data) (maxlen) in
/-- Three bytes are stored for each group that is read, one behind the other. -/
theorem stored_base64ToData :
    (base64ToData base64 data maxlen).1.stored = List.range' 0 (3 * groupsRead base64) ∧
      (base64ToData base64 data maxlen).2 ≤ 3 * groupsRead base64 := by
  obtain ⟨bs, hstores, hlength, hle, -⟩ := base64ToData_spec base64 data maxlen
  exact ⟨by rw [← hlength, hstores.stored, List.nil_append], hlength ▸ hle⟩

/-- **The limit is respected if and only if three bytes for each group that is read do not exceed
it.** -/
theorem respectsLimit_iff (base64 : QString) (data : ByteMemory) (maxlen : Nat) :
    RespectsLimit base64 data maxlen ↔ 3 * groupsRead base64 ≤ maxlen := by
  obtain ⟨hstored, hle⟩ := stored_base64ToData base64 data maxlen
  rw [RespectsLimit, hstored]
  constructor
  · rintro ⟨hlt, -⟩
    by_contra hgt
    have hmem : maxlen ∈ List.range' 0 (3 * groupsRead base64) := by
      rw [List.mem_range'_1]
      omega
    exact absurd (hlt _ hmem) (Nat.lt_irrefl _)
  · intro hmax
    refine ⟨fun i hi => ?_, hle.trans hmax⟩
    rw [List.mem_range'_1] at hi
    omega

/-- A text for 32769 bytes, with the limit that `Codec::setCodebook` passes. -/
theorem respectsLimit_fails : ¬ ∀ (base64 : QString) (data : ByteMemory) (maxlen : Nat),
    RespectsLimit base64 data maxlen := by
  intro hall
  obtain ⟨hlt, -⟩ := hall (List.replicate 43692 'A') (fun _ => 0) 32767
  obtain ⟨hstored, -⟩ := stored_base64ToData (List.replicate 43692 'A') (fun _ => 0) 32767
  have hlegal : (List.replicate 43692 'A').all isLegal = true :=
    List.all_eq_true.2 fun c hc => by
      rw [List.eq_of_mem_replicate hc]
      decide
  have hread : groupsRead (List.replicate 43692 'A') = 10923 := by
    rw [groupsRead, if_pos hlegal, List.length_replicate]
  rw [hstored, hread] at hlt
  exact absurd (hlt 32767 (List.mem_range'_1.2 ⟨by decide, by decide⟩)) (by decide)

end NetISDN
