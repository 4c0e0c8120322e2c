import Mathlib.Data.List.GetD
import Mathlib.Data.List.Nodup
import NetISDN.Lib.Netconf

/-!
# Base64 text is read back

A text of bytes is its groups of three, and the padding concerns the last one only. The text of a
group is read as the group, so every text of bytes is read back (`NetBase64ToString_encode`,
`NetBase64ToData_encode`). What is written consists of digits and `=` (`mem_base64`), none of which
means anything to what frames and splits commands.
-/

namespace NetISDN

variable {a b c : Char} {c0 c1 c2 c3 : Option Char} {d0 d1 d2 d3 buf k : Nat} {str t : QString}

/-! ## Digits -/

/-- No digit stands twice in the dictionary. -/
theorem base64_dict_nodup : base64_dict.Nodup := by decide

/-- A digit has its value. -/
theorem base64Value_digit (hk : k < 64) : base64Value (some (base64_dict.getD k 'A')) = some k := by
  have hlength : base64_dict.length = 64 := rfl
  have hpad : '=' ∉ base64_dict := by decide
  have hk' : k < base64_dict.length := by omega
  have hne : base64_dict[k] ≠ '=' := fun h => hpad (h ▸ List.getElem_mem hk')
  rw [List.getD_eq_getElem _ _ hk', base64Value, if_neg hne]
  simp only [base64_dict_nodup.idxOf_getElem k hk']
  exact if_pos hk

/-- A digit is read as the number it stands for. -/
theorem base64Value_mod (n : Nat) :
    base64Value (some (base64_dict.getD (n % 64) 'A')) = some (n % 64) :=
  base64Value_digit (Nat.mod_lt _ (by decide))

/-- A padding character counts as a zero. -/
theorem base64Value_pad : base64Value (some '=') = some 0 := rfl

/-- The three bytes of a 24-bit group. -/
def groupBytes (buf : Nat) : QString := [2, 1, 0].map fun i => Char.ofNat (buf / 2 ^ (8 * i) % 256)

/-- Four digits are put together to three bytes. -/
theorem base64Group_eq (h0 : base64Value c0 = some d0) (h1 : base64Value c1 = some d1)
    (h2 : base64Value c2 = some d2) (h3 : base64Value c3 = some d3) :
    base64Group c0 c1 c2 c3 =
      some (groupBytes (d0 * 2 ^ 18 + d1 * 2 ^ 12 + d2 * 2 ^ 6 + d3)) := by
  rw [base64Group, h0, h1, h2, h3]
  rfl

/-- The four digits of a group are read as its bytes, and what follows them as before. -/
theorem base64Bytes_digits (hbuf : buf < 2 ^ 24) :
    base64Bytes (base64Digits buf ++ t) = (base64Bytes t).map (groupBytes buf ++ ·) := by
  have hdigits : base64Digits buf ++ t = base64_dict.getD (buf / 2 ^ 18 % 64) 'A' ::
      base64_dict.getD (buf / 2 ^ 12 % 64) 'A' :: base64_dict.getD (buf / 2 ^ 6 % 64) 'A' ::
      base64_dict.getD (buf / 2 ^ 0 % 64) 'A' :: t := rfl
  rw [hdigits, base64Bytes, base64Group_eq (base64Value_mod _) (base64Value_mod _)
    (base64Value_mod _) (base64Value_mod _)]
  have hsum : buf / 2 ^ 18 % 64 * 2 ^ 18 + buf / 2 ^ 12 % 64 * 2 ^ 12 +
      buf / 2 ^ 6 % 64 * 2 ^ 6 + buf / 2 ^ 0 % 64 = buf := by omega
  rw [hsum]
  cases base64Bytes t <;> rfl

/-! ## Groups -/

/-- Bytes are numbers below 256. -/
theorem byteOf_eq (h : a.toNat < 256) : byteOf a = a.toNat := Nat.mod_eq_of_lt h

/-- The bytes of a group that was made of three. -/
theorem groupBytes_eq (ha : a.toNat < 256) (hb : b.toNat < 256) (hc : c.toNat < 256) :
    groupBytes (byteOf a * 2 ^ 16 + byteOf b * 2 ^ 8 + byteOf c) = [a, b, c] := by
  rw [byteOf_eq ha, byteOf_eq hb, byteOf_eq hc]
  have h₂ : (a.toNat * 2 ^ 16 + b.toNat * 2 ^ 8 + c.toNat) / 2 ^ (8 * 2) % 256 = a.toNat := by omega
  have h₁ : (a.toNat * 2 ^ 16 + b.toNat * 2 ^ 8 + c.toNat) / 2 ^ (8 * 1) % 256 = b.toNat := by omega
  have h₀ : (a.toNat * 2 ^ 16 + b.toNat * 2 ^ 8 + c.toNat) / 2 ^ (8 * 0) % 256 = c.toNat := by omega
  simp only [groupBytes, List.map_cons, List.map_nil, h₂, h₁, h₀, Char.ofNat_toNat]

variable (str) in
/-- Each three bytes, also the last ones, give four digits. -/
theorem length_base64Groups : (base64Groups str).length = 4 * ((str.length + 2) / 3) := by
  induction str using base64Groups.induct with
  | case1 => rfl
  | case2 => simp [base64Groups, base64Digits]
  | case3 => simp [base64Groups, base64Digits]
  | case4 a b c str ih =>
      rw [base64Groups, List.length_append, ih]
      have hdigits : (base64Digits
        (byteOf a * 2 ^ 16 + byteOf b * 2 ^ 8 + byteOf c)).length = 4 := rfl
      simp only [hdigits, List.length_cons]
      omega

/-- The padding concerns the last group only. -/
theorem NetStringToBase64_cons : NetStringToBase64 (a :: b :: c :: str) =
    base64Digits (byteOf a * 2 ^ 16 + byteOf b * 2 ^ 8 + byteOf c) ++ NetStringToBase64 str := by
  have hlength := length_base64Groups str
  have hmod : (a :: b :: c :: str).length % 3 = str.length % 3 := by
    simp only [List.length_cons]
    omega
  have htake (n : Nat) (hn : n ≤ (base64Groups str).length) (pad : QString) :
      (base64Digits (byteOf a * 2 ^ 16 + byteOf b * 2 ^ 8 + byteOf c) ++ base64Groups str).take
        ((base64Digits (byteOf a * 2 ^ 16 + byteOf b * 2 ^ 8 + byteOf c) ++
          base64Groups str).length - n) ++ pad =
      base64Digits (byteOf a * 2 ^ 16 + byteOf b * 2 ^ 8 + byteOf c) ++
        ((base64Groups str).take ((base64Groups str).length - n) ++ pad) := by
    rw [List.length_append, Nat.add_sub_assoc hn, List.take_length_add_append, List.append_assoc]
  rw [NetStringToBase64, NetStringToBase64, base64Groups, hmod]
  split
  · next hone => exact htake 2 (by omega) _
  · next htwo => exact htake 1 (by omega) _
  · rfl

/-- A digit is in the dictionary. -/
theorem digit_mem (n : Nat) : base64_dict.getD (n % 64) 'A' ∈ base64_dict := by
  have hlt : n % 64 < base64_dict.length := Nat.mod_lt _ (by decide)
  rw [List.getD_eq_getElem _ _ hlt]
  exact List.getElem_mem hlt

/-- The digits are those of the dictionary. -/
theorem mem_base64Digits (h : c ∈ base64Digits buf) : c ∈ base64_dict := by
  obtain ⟨i, -, rfl⟩ := List.mem_map.1 h
  exact digit_mem _

/-- Digits are no padding. -/
theorem count_pad_dict (h : ∀ c ∈ str, c ∈ base64_dict) : str.count '=' = 0 := by
  have hpad : '=' ∉ base64_dict := by decide
  exact List.count_eq_zero.2 fun hc => hpad (h _ hc)

/-- The NUL is a character of Latin-1. -/
theorem toNat_zero_lt : (Char.ofNat 0).toNat < 256 := by decide

/-- A text of one byte is read as it and two zero bytes. -/
theorem base64Bytes_one (ha : a.toNat < 256) : (NetStringToBase64 [a]).count '=' = 2 ∧
    base64Bytes (NetStringToBase64 [a]) = some [a, Char.ofNat 0, Char.ofNat 0] := by
  have htext : NetStringToBase64 [a] =
      [base64_dict.getD (byteOf a * 2 ^ 16 / 2 ^ 18 % 64) 'A',
        base64_dict.getD (byteOf a * 2 ^ 16 / 2 ^ 12 % 64) 'A'] ++ ['=', '='] := rfl
  have hsum : byteOf a * 2 ^ 16 / 2 ^ 18 % 64 * 2 ^ 18 +
      byteOf a * 2 ^ 16 / 2 ^ 12 % 64 * 2 ^ 12 + 0 * 2 ^ 6 + 0 =
      byteOf a * 2 ^ 16 + byteOf (Char.ofNat 0) * 2 ^ 8 + byteOf (Char.ofNat 0) := by
    rw [byteOf_eq ha, byteOf_eq toNat_zero_lt]
    have hz : (Char.ofNat 0).toNat = 0 := rfl
    omega
  rw [htext]
  constructor
  · rw [List.count_append, count_pad_dict (by
      simp only [List.forall_mem_cons, digit_mem, List.not_mem_nil, false_implies, implies_true,
        and_self])]
    rfl
  · rw [List.cons_append, List.cons_append, List.nil_append, base64Bytes,
      base64Group_eq (base64Value_mod _) (base64Value_mod _) base64Value_pad base64Value_pad, hsum,
      groupBytes_eq ha toNat_zero_lt toNat_zero_lt]
    rfl

/-- A text of two bytes is read as them and a zero byte. -/
theorem base64Bytes_two (ha : a.toNat < 256) (hb : b.toNat < 256) :
    (NetStringToBase64 [a, b]).count '=' = 1 ∧
      base64Bytes (NetStringToBase64 [a, b]) = some [a, b, Char.ofNat 0] := by
  have htext : NetStringToBase64 [a, b] =
      [base64_dict.getD ((byteOf a * 2 ^ 16 + byteOf b * 2 ^ 8) / 2 ^ 18 % 64) 'A',
        base64_dict.getD ((byteOf a * 2 ^ 16 + byteOf b * 2 ^ 8) / 2 ^ 12 % 64) 'A',
        base64_dict.getD ((byteOf a * 2 ^ 16 + byteOf b * 2 ^ 8) / 2 ^ 6 % 64) 'A'] ++ ['='] := rfl
  have hsum : (byteOf a * 2 ^ 16 + byteOf b * 2 ^ 8) / 2 ^ 18 % 64 * 2 ^ 18 +
      (byteOf a * 2 ^ 16 + byteOf b * 2 ^ 8) / 2 ^ 12 % 64 * 2 ^ 12 +
      (byteOf a * 2 ^ 16 + byteOf b * 2 ^ 8) / 2 ^ 6 % 64 * 2 ^ 6 + 0 =
      byteOf a * 2 ^ 16 + byteOf b * 2 ^ 8 + byteOf (Char.ofNat 0) := by
    rw [byteOf_eq ha, byteOf_eq hb, byteOf_eq toNat_zero_lt]
    have hz : (Char.ofNat 0).toNat = 0 := rfl
    omega
  rw [htext]
  constructor
  · rw [List.count_append, count_pad_dict (by
      simp only [List.forall_mem_cons, digit_mem, List.not_mem_nil, false_implies, implies_true,
        and_self])]
    rfl
  · rw [List.cons_append, List.cons_append, List.cons_append, List.nil_append, base64Bytes,
      base64Group_eq (base64Value_mod _) (base64Value_mod _) (base64Value_mod _) base64Value_pad,
      hsum, groupBytes_eq ha hb toNat_zero_lt]
    rfl

variable (str) in
/-- Three bytes in front of a text are read as they are. -/
theorem base64Bytes_cons (ha : a.toNat < 256) (hb : b.toNat < 256) (hc : c.toNat < 256) :
    (NetStringToBase64 (a :: b :: c :: str)).count '=' = (NetStringToBase64 str).count '=' ∧
      base64Bytes (NetStringToBase64 (a :: b :: c :: str)) =
        (base64Bytes (NetStringToBase64 str)).map ([a, b, c] ++ ·) := by
  have hbuf : byteOf a * 2 ^ 16 + byteOf b * 2 ^ 8 + byteOf c < 2 ^ 24 := by
    rw [byteOf_eq ha, byteOf_eq hb, byteOf_eq hc]
    omega
  rw [NetStringToBase64_cons]
  constructor
  · rw [List.count_append, count_pad_dict fun c hc => mem_base64Digits hc, Nat.zero_add]
  · rw [base64Bytes_digits hbuf, groupBytes_eq ha hb hc]

/-- A text of bytes is read as itself and as many zero bytes as there is padding. -/
theorem base64Bytes_encode (h : ∀ c ∈ str, c.toNat < 256) :
    (NetStringToBase64 str).count '=' ≤ 2 ∧ base64Bytes (NetStringToBase64 str) =
      some (str ++ List.replicate ((NetStringToBase64 str).count '=') (Char.ofNat 0)) := by
  induction str using base64Groups.induct with
  | case1 => exact ⟨by decide, rfl⟩
  | case2 a =>
      obtain ⟨hcount, hbytes⟩ := base64Bytes_one (h a (.head _))
      rw [hcount, hbytes]
      exact ⟨le_rfl, rfl⟩
  | case3 a b =>
      obtain ⟨hcount, hbytes⟩ := base64Bytes_two (h a (.head _)) (h b (.tail _ (.head _)))
      rw [hcount, hbytes]
      exact ⟨by decide, rfl⟩
  | case4 a b c str ih =>
      obtain ⟨ha, hb, hc, h⟩ : a.toNat < 256 ∧ b.toNat < 256 ∧ c.toNat < 256 ∧
          ∀ c ∈ str, c.toNat < 256 := by
        simpa only [List.forall_mem_cons] using h
      obtain ⟨hcount, hbytes⟩ := ih h
      obtain ⟨hsame, hcons⟩ := base64Bytes_cons str ha hb hc
      rw [hsame, hcons, hbytes]
      exact ⟨hcount, rfl⟩

/-! ## Round trips -/

/-- **A text of bytes is read back.** -/
theorem NetBase64ToString_encode (h : ∀ c ∈ str, c.toNat < 256) :
    NetBase64ToString (NetStringToBase64 str) = some str := by
  obtain ⟨hcount, hbytes⟩ := base64Bytes_encode h
  rw [NetBase64ToString, hbytes, Option.bind_eq_bind, Option.bind_some,
    if_neg (not_lt.2 hcount), List.length_append, List.length_replicate, Nat.add_sub_cancel,
    List.take_left]

/-- The code of a byte's character. -/
theorem toNat_latin1 (b : BitVec 8) : (latin1 b).toNat = b.toNat := by
  have hlt := b.isLt
  have hvalid : b.toNat.isValidChar := .inl (by omega)
  rw [latin1, Char.ofNat, dif_pos hvalid]
  rfl

section
variable {data : List (BitVec 8)}

/-- A byte's character is one of Latin-1. -/
theorem toNat_lt_of_mem_latin1 (h : c ∈ data.map latin1) : c.toNat < 256 := by
  obtain ⟨b, -, rfl⟩ := List.mem_map.1 h
  rw [toNat_latin1]
  exact b.isLt

/-- The bytes are read back from their characters. -/
theorem map_latin1 : (data.map latin1).map (fun c => BitVec.ofNat 8 c.toNat) = data := by
  rw [List.map_map]
  refine (List.map_congr_left fun b _ => ?_).trans (List.map_id data)
  rw [Function.comp_apply, toNat_latin1, BitVec.ofNat_toNat, BitVec.setWidth_eq, id]

variable (data) in
/-- What is written to `data` are the bytes that were encoded, and up to two more. -/
theorem writtenData_encode : (NetDataToBase64 data).count '=' ≤ 2 ∧
    writtenData (NetDataToBase64 data) =
      some (data ++ List.replicate ((NetDataToBase64 data).count '=') 0) := by
  have hlatin : ∀ c ∈ data.map latin1, c.toNat < 256 := fun c hc => toNat_lt_of_mem_latin1 hc
  obtain ⟨hcount, hbytes⟩ := base64Bytes_encode hlatin
  refine ⟨hcount, ?_⟩
  rw [writtenData, NetDataToBase64, hbytes, Option.map_some, List.map_append, map_latin1,
    List.map_replicate]
  rfl

variable (data) in
/-- **An array of bytes is read back.** -/
theorem NetBase64ToData_encode : NetBase64ToData (NetDataToBase64 data) = data := by
  obtain ⟨hcount, hwritten⟩ := writtenData_encode data
  rw [NetBase64ToData, hwritten]
  simp only [if_neg (not_lt.2 hcount), List.length_append, List.length_replicate,
    Nat.add_sub_cancel, List.take_left]

/-! ## The alphabet -/

/-- The groups consist of digits. -/
theorem mem_base64Groups (h : c ∈ base64Groups str) : c ∈ base64_dict := by
  induction str using base64Groups.induct with
  | case1 => exact nomatch h
  | case2 => exact mem_base64Digits h
  | case3 => exact mem_base64Digits h
  | case4 a b c str ih =>
      rw [base64Groups] at h
      rcases List.mem_append.1 h with h | h
      · exact mem_base64Digits h
      · exact ih h

/-- Base64 text consists of digits and padding. -/
theorem mem_base64 (h : c ∈ NetStringToBase64 str) : c ∈ '=' :: base64_dict := by
  have hpadded (n : Nat) (pad : QString) (hpad : ∀ c ∈ pad, c = '=')
      (h : c ∈ (base64Groups str).take n ++ pad) : c ∈ '=' :: base64_dict := by
    rcases List.mem_append.1 h with h | h
    · exact .tail _ (mem_base64Groups (List.mem_of_mem_take h))
    · exact hpad c h ▸ .head _
  rw [NetStringToBase64] at h
  split at h
  · exact hpadded _ _ (by simp) h
  · exact hpadded _ _ (by simp) h
  · exact .tail _ (mem_base64Groups h)

/-- No character of base64 text frames or splits a command, or separates the parts of a setting. -/
theorem base64_plain (h : c ∈ NetStringToBase64 str) :
    isSpace c = false ∧ c ≠ '!' ∧ c ≠ ' ' ∧ c ≠ ':' := by
  have hall : ('=' :: base64_dict).all (fun c =>
      decide (isSpace c = false ∧ c ≠ '!' ∧ c ≠ ' ' ∧ c ≠ ':')) = true := by decide
  exact of_decide_eq_true (List.all_eq_true.1 hall c (mem_base64 h))

/-- The text of something is something. -/
theorem NetDataToBase64_ne_nil (h : data ≠ []) : NetDataToBase64 data ≠ [] := by
  intro hnil
  have hback := NetBase64ToData_encode data
  rw [hnil] at hback
  exact h hback.symm

end

end NetISDN
