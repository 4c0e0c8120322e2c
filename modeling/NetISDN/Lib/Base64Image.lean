import NetISDN.Lib.Base64Stores

/-!
# Which texts are taken for base64

The decoders of `netconf.cpp` count the `=` of the whole text and take a short last group for one
that is filled up. So they refuse a text for an illegal character or for more than two `=` only.
Each text that is properly padded is read, and encoding what is read gives it back, up to the bits
that the padding leaves unused (`IsBase64.groups`, `Groups.read`); the others are refused if and
only if one of the two reasons holds (`acceptsImage_iff`).
-/

namespace NetISDN

open DataArray

/-- Text that base64 knows: whole groups of digits, the last of which may end in one or two `=`. -/
def IsBase64 (x : QString) : Prop :=
  x.length % 4 = 0 ∧ ∃ ds n, n ≤ 2 ∧ x = ds ++ List.replicate n '=' ∧ ∀ c ∈ ds, c ∈ base64_dict

/-- Texts that differ at most in the last digit in front of the padding, and there in the bits only
that the padding leaves unused. -/
def SameUsedBits (x y : QString) : Prop :=
  x = y ∨ ∃ front c c' n, 0 < n ∧ n ≤ 2 ∧ x = front ++ c :: List.replicate n '=' ∧
    y = front ++ c' :: List.replicate n '=' ∧
    base64_dict.idxOf c / 4 ^ n = base64_dict.idxOf c' / 4 ^ n

/-- The decoders succeed on base64 text only, and on all of it; it is the text of what they read;
and on a text that is not empty the two read the same. -/
structure AcceptsImage (x : QString) : Prop where
  image : ∀ s, NetBase64ToString x = some s → IsBase64 x ∧ SameUsedBits x (NetStringToBase64 s)
  all : IsBase64 x → (NetBase64ToString x).isSome
  data : x ≠ [] → ∀ (data : ByteMemory) (maxlen : Nat),
    let r := base64ToData x data maxlen
    (0 < r.2 ↔ (NetBase64ToString x).isSome) ∧
      ∀ s, NetBase64ToString x = some s → r.1.data.bytes 0 r.2 = bytesOf s

variable {x s r : QString} {c c0 c1 c2 c3 : Char} {bs : QString}

/-! ## Digits -/

/-- A digit, its value, and the digit of that value. -/
theorem base64Value_of_mem (h : c ∈ base64_dict) :
    base64Value (some c) = some (base64_dict.idxOf c) ∧ base64_dict.idxOf c < 64 ∧
      base64_dict.getD (base64_dict.idxOf c) 'A' = c := by
  have hlt : base64_dict.idxOf c < base64_dict.length := List.idxOf_lt_length_iff.2 h
  have hget : base64_dict.getD (base64_dict.idxOf c) 'A' = c := by
    rw [List.getD_eq_getElem _ _ hlt, List.getElem_idxOf hlt]
  have hvalue := base64Value_digit hlt
  rw [hget] at hvalue
  exact ⟨hvalue, hlt, hget⟩

/-- What is legal is a digit or padding. -/
theorem isLegal_iff : isLegal c = true ↔ c ∈ base64_dict ∨ c = '=' := by
  constructor
  · intro h
    by_cases hpad : c = '='
    · exact .inr hpad
    · rw [isLegal, base64Value, if_neg hpad] at h
      by_cases hlt : base64_dict.idxOf c < 64
      · exact .inl (List.idxOf_lt_length_iff.1 hlt)
      · simp [hlt] at h
  · intro h
    exact isLegal_of_mem (List.mem_cons.2 h.symm)

/-! ## What is read -/

/-- Each four characters, also the last ones, give three bytes. -/
theorem length_base64Bytes (h : base64Bytes x = some bs) :
    bs.length = 3 * ((x.length + 3) / 4) := by
  induction x using base64Bytes.induct generalizing bs with
  | case1 => cases h; rfl
  | case2 => exact (length_of_base64Group h).trans (by simp)
  | case3 => exact (length_of_base64Group h).trans (by simp)
  | case4 => exact (length_of_base64Group h).trans (by simp)
  | case5 c0 c1 c2 c3 x ih =>
      simp only [base64Bytes, Option.bind_eq_bind, Option.bind_eq_some_iff, Option.pure_def,
        Option.some.injEq] at h
      obtain ⟨ret, hret, rest, hrest, rfl⟩ := h
      rw [List.length_append, length_of_base64Group hret, ih hrest]
      simp only [List.length_cons]
      omega

/-- The bytes of a text are there if and only if all its characters are legal. -/
theorem isSome_base64Bytes : (base64Bytes x).isSome = x.all isLegal := by
  induction x using base64Bytes.induct with
  | case1 => rfl
  | case2 => simp [base64Bytes, isSome_base64Group, base64Value_none, isLegal]
  | case3 => simp [base64Bytes, isSome_base64Group, base64Value_none, isLegal]
  | case4 => simp [base64Bytes, isSome_base64Group, base64Value_none, isLegal, Bool.and_assoc]
  | case5 c0 c1 c2 c3 x ih =>
      have hsplit : (c0 :: c1 :: c2 :: c3 :: x).all isLegal =
          (([c0, c1, c2, c3] : QString).all isLegal && x.all isLegal) :=
        @List.all_append _ isLegal [c0, c1, c2, c3] x
      rw [base64Bytes, hsplit, ← ih, ← isSome_base64Group_all]
      cases base64Group (some c0) (some c1) (some c2) (some c3) <;> cases base64Bytes x <;> rfl

/-- The decoder refuses a text for an illegal character or for more than two `=`. -/
theorem isSome_NetBase64ToString :
    (NetBase64ToString x).isSome ↔ x.all isLegal = true ∧ x.count '=' ≤ 2 := by
  have hbytes := @isSome_base64Bytes x
  rw [NetBase64ToString, ← hbytes]
  cases base64Bytes x with
  | none => simp
  | some ret =>
      simp only [Option.bind_eq_bind, Option.bind_some, Option.isSome_some, true_and]
      split
      · next h => simp [h]
      · next h => simp [Nat.not_lt.1 h]

/-- What is read is the bytes without as many as there is padding. -/
theorem NetBase64ToString_eq_some : NetBase64ToString x = some s ↔
    ∃ bs, base64Bytes x = some bs ∧ x.count '=' ≤ 2 ∧ s = bs.take (bs.length - x.count '=') := by
  simp only [NetBase64ToString, Option.bind_eq_bind, Option.bind_eq_some_iff]
  constructor
  · rintro ⟨bs, hbs, h⟩
    split at h
    · cases h
    · next hle => exact ⟨bs, hbs, Nat.not_lt.1 hle, (Option.some.inj h).symm⟩
  · rintro ⟨bs, hbs, hle, rfl⟩
    exact ⟨bs, hbs, if_neg (Nat.not_lt.2 hle)⟩

/-- Of a text that is not empty something is left. -/
theorem length_pos_of_read (h : NetBase64ToString x = some s) (hne : x ≠ []) : 0 < s.length := by
  obtain ⟨bs, hbs, hle, rfl⟩ := NetBase64ToString_eq_some.1 h
  have hlength := length_base64Bytes hbs
  have hpos := List.length_pos_iff.2 hne
  rw [List.length_take]
  omega

/-! ## Base64 text -/

/-- Base64 text, group by group. -/
inductive Groups : QString → Prop
  | nil : Groups []
  | one {c0 c1 : Char} : c0 ∈ base64_dict → c1 ∈ base64_dict → Groups [c0, c1, '=', '=']
  | two {c0 c1 c2 : Char} : c0 ∈ base64_dict → c1 ∈ base64_dict → c2 ∈ base64_dict →
      Groups [c0, c1, c2, '=']
  | cons {c0 c1 c2 c3 : Char} {x : QString} : c0 ∈ base64_dict → c1 ∈ base64_dict →
      c2 ∈ base64_dict → c3 ∈ base64_dict → Groups x → Groups (c0 :: c1 :: c2 :: c3 :: x)

/-- A text of base64 consists of groups. -/
theorem IsBase64.groups (h : IsBase64 x) : Groups x := by
  obtain ⟨hlength, ds, n, hn, rfl, hds⟩ := h
  rw [List.length_append, List.length_replicate] at hlength
  induction ds using base64Bytes.induct with
  | case1 =>
      obtain rfl : n = 0 := by simp at hlength; omega
      exact .nil
  | case2 => simp at hlength; omega
  | case3 c0 c1 =>
      obtain rfl : n = 2 := by simp at hlength; omega
      exact .one (hds c0 (by simp)) (hds c1 (by simp))
  | case4 c0 c1 c2 =>
      obtain rfl : n = 1 := by simp at hlength; omega
      exact .two (hds c0 (by simp)) (hds c1 (by simp)) (hds c2 (by simp))
  | case5 c0 c1 c2 c3 ds ih =>
      refine .cons (hds c0 (by simp)) (hds c1 (by simp)) (hds c2 (by simp)) (hds c3 (by simp)) ?_
      refine ih (fun c hc => hds c (by simp [hc])) ?_
      simp only [List.length_cons] at hlength
      omega

/-- All of it is legal, and the padding is not too long. -/
theorem IsBase64.legal (h : IsBase64 x) : x.all isLegal = true ∧ x.count '=' ≤ 2 := by
  obtain ⟨-, ds, n, hn, rfl, hds⟩ := h
  constructor
  · refine List.all_eq_true.2 fun c hc => isLegal_iff.2 ?_
    rcases List.mem_append.1 hc with hc | hc
    · exact .inl (hds c hc)
    · exact .inr (List.eq_of_mem_replicate hc)
  · rw [List.count_append, count_pad_dict hds, List.count_replicate_self, Nat.zero_add]
    exact hn

/-! ## Encoding what is read -/

/-- The bytes of a 24-bit number make it up again. -/
theorem byteOf_groupBytes (buf : Nat) (hbuf : buf < 2 ^ 24) :
    (groupBytes buf).map byteOf = [buf / 2 ^ 16, buf / 2 ^ 8 % 256, buf % 256] := by
  have hbyte (n : Nat) : byteOf (Char.ofNat (n % 256)) = n % 256 := by
    have hlt : n % 256 < 256 := Nat.mod_lt _ (by decide)
    have hvalid : (n % 256).isValidChar := .inl (by omega)
    rw [byteOf, Char.ofNat, dif_pos hvalid]
    exact Nat.mod_eq_of_lt hlt
  simp only [groupBytes, List.map_cons, List.map_nil, hbyte]
  have hhigh : buf / 2 ^ (8 * 2) % 256 = buf / 2 ^ 16 := by omega
  have hlow : buf / 2 ^ (8 * 0) % 256 = buf % 256 := by omega
  rw [hhigh, hlow]

/-- A 24-bit number as three bytes. -/
theorem exists_groupBytes (buf : Nat) (hbuf : buf < 2 ^ 24) : ∃ g2 g1 g0,
    groupBytes buf = [g2, g1, g0] ∧ byteOf g2 = buf / 2 ^ 16 ∧ byteOf g1 = buf / 2 ^ 8 % 256 ∧
      byteOf g0 = buf % 256 := by
  obtain ⟨g2, g1, g0, hgroup⟩ : ∃ g2 g1 g0, groupBytes buf = [g2, g1, g0] := ⟨_, _, _, rfl⟩
  have hvalue := byteOf_groupBytes buf hbuf
  rw [hgroup] at hvalue
  obtain ⟨hg2, hrest⟩ := List.cons.inj hvalue
  obtain ⟨hg1, hrest⟩ := List.cons.inj hrest
  exact ⟨g2, g1, g0, hgroup, hg2, hg1, (List.cons.inj hrest).1⟩

/-- There is no padding among digits. -/
theorem count_pad_append (ds t : QString) (hds : ∀ c ∈ ds, c ∈ base64_dict) :
    (ds ++ t).count '=' = t.count '=' := by
  rw [List.count_append, count_pad_dict hds, Nat.zero_add]

/-- The number of a digit. -/
theorem idxOf_digit {k : Nat} (hk : k < 64) :
    base64_dict.idxOf (base64_dict.getD k 'A') = k := by
  have hk' : k < base64_dict.length := hk
  rw [List.getD_eq_getElem _ _ hk', base64_dict_nodup.idxOf_getElem k hk']

/-- Two texts with the same used bits are so behind the same digits. -/
theorem SameUsedBits.append {x y : QString} (front : QString) (h : SameUsedBits x y) :
    SameUsedBits (front ++ x) (front ++ y) := by
  rcases h with rfl | ⟨front', c, c', n, hpos, hn, rfl, rfl, hbits⟩
  · exact .inl rfl
  · exact .inr ⟨front ++ front', c, c', n, hpos, hn, by simp, by simp, hbits⟩

section
variable {d0 d1 d2 d3 : Nat}

/-- The digits that are made of the first byte of a group. -/
theorem digits_one (h1 : d1 < 64) : ∀ a, a = (d0 * 2 ^ 18 + d1 * 2 ^ 12 + 0 * 2 ^ 6 + 0) / 2 ^ 16 →
    d0 < 64 → a * 2 ^ 16 / 2 ^ 18 % 64 = d0 ∧ a * 2 ^ 16 / 2 ^ 12 % 64 = d1 / 16 * 16 := by
  rintro a rfl h0
  constructor <;> omega

/-- The digits that are made of the first two bytes of a group. -/
theorem digits_two (h1 : d1 < 64) (h2 : d2 < 64) : ∀ a b,
    a = (d0 * 2 ^ 18 + d1 * 2 ^ 12 + d2 * 2 ^ 6 + 0) / 2 ^ 16 →
    b = (d0 * 2 ^ 18 + d1 * 2 ^ 12 + d2 * 2 ^ 6 + 0) / 2 ^ 8 % 256 → d0 < 64 →
    (a * 2 ^ 16 + b * 2 ^ 8) / 2 ^ 18 % 64 = d0 ∧ (a * 2 ^ 16 + b * 2 ^ 8) / 2 ^ 12 % 64 = d1 ∧
      (a * 2 ^ 16 + b * 2 ^ 8) / 2 ^ 6 % 64 = d2 / 4 * 4 := by
  rintro a b rfl rfl h0
  refine ⟨?_, ?_, ?_⟩ <;> omega

/-- The digits of a group. -/
theorem base64Digits_sum (h0 : d0 < 64) (h1 : d1 < 64) (h2 : d2 < 64) (h3 : d3 < 64) :
    base64Digits (d0 * 2 ^ 18 + d1 * 2 ^ 12 + d2 * 2 ^ 6 + d3) =
      [d0, d1, d2, d3].map (base64_dict.getD · 'A') := by
  have e3 : (d0 * 2 ^ 18 + d1 * 2 ^ 12 + d2 * 2 ^ 6 + d3) / 2 ^ (6 * 3) % 64 = d0 := by omega
  have e2 : (d0 * 2 ^ 18 + d1 * 2 ^ 12 + d2 * 2 ^ 6 + d3) / 2 ^ (6 * 2) % 64 = d1 := by omega
  have e1 : (d0 * 2 ^ 18 + d1 * 2 ^ 12 + d2 * 2 ^ 6 + d3) / 2 ^ (6 * 1) % 64 = d2 := by omega
  have e0 : (d0 * 2 ^ 18 + d1 * 2 ^ 12 + d2 * 2 ^ 6 + d3) / 2 ^ (6 * 0) % 64 = d3 := by omega
  simp only [base64Digits, List.map_cons, List.map_nil, e3, e2, e1, e0]

end

/-- A last group with one byte. -/
theorem read_one (h0 : c0 ∈ base64_dict) (h1 : c1 ∈ base64_dict) :
    ∃ s, NetBase64ToString [c0, c1, '=', '='] = some s ∧
      SameUsedBits [c0, c1, '=', '='] (NetStringToBase64 s) := by
  obtain ⟨hv0, hlt0, hd0⟩ := base64Value_of_mem h0
  obtain ⟨hv1, hlt1, hd1⟩ := base64Value_of_mem h1
  generalize hk0 : base64_dict.idxOf c0 = d0 at *
  generalize hk1 : base64_dict.idxOf c1 = d1 at *
  have hbytes : base64Bytes [c0, c1, '=', '='] =
      some (groupBytes (d0 * 2 ^ 18 + d1 * 2 ^ 12 + 0 * 2 ^ 6 + 0)) := by
    rw [base64Bytes, base64Group_eq hv0 hv1 base64Value_pad base64Value_pad]
    rfl
  have hcount : ([c0, c1, '=', '='] : QString).count '=' = 2 :=
    count_pad_append [c0, c1] ['=', '='] (by simp [h0, h1])
  obtain ⟨g2, g1, g0, hgroup, hg2, -, -⟩ :=
    exists_groupBytes (d0 * 2 ^ 18 + d1 * 2 ^ 12 + 0 * 2 ^ 6 + 0) (by omega)
  rw [hgroup] at hbytes
  refine ⟨[g2], NetBase64ToString_eq_some.2 ⟨_, hbytes, hcount.le, by rw [hcount]; rfl⟩, .inr ?_⟩
  have htext : NetStringToBase64 [g2] =
      [base64_dict.getD (byteOf g2 * 2 ^ 16 / 2 ^ 18 % 64) 'A',
        base64_dict.getD (byteOf g2 * 2 ^ 16 / 2 ^ 12 % 64) 'A', '=', '='] := rfl
  obtain ⟨hfirst, hsecond⟩ := digits_one hlt1 _ hg2 hlt0
  refine ⟨[c0], c1, base64_dict.getD (d1 / 16 * 16) 'A', 2, by decide, by decide, rfl, ?_, ?_⟩
  · rw [htext, hfirst, hsecond, hd0]
    rfl
  · rw [hk1, idxOf_digit (by omega)]
    omega

/-- A last group with two bytes. -/
theorem read_two (h0 : c0 ∈ base64_dict) (h1 : c1 ∈ base64_dict) (h2 : c2 ∈ base64_dict) :
    ∃ s, NetBase64ToString [c0, c1, c2, '='] = some s ∧
      SameUsedBits [c0, c1, c2, '='] (NetStringToBase64 s) := by
  obtain ⟨hv0, hlt0, hd0⟩ := base64Value_of_mem h0
  obtain ⟨hv1, hlt1, hd1⟩ := base64Value_of_mem h1
  obtain ⟨hv2, hlt2, hd2⟩ := base64Value_of_mem h2
  generalize hk0 : base64_dict.idxOf c0 = d0 at *
  generalize hk1 : base64_dict.idxOf c1 = d1 at *
  generalize hk2 : base64_dict.idxOf c2 = d2 at *
  have hbytes : base64Bytes [c0, c1, c2, '='] =
      some (groupBytes (d0 * 2 ^ 18 + d1 * 2 ^ 12 + d2 * 2 ^ 6 + 0)) := by
    rw [base64Bytes, base64Group_eq hv0 hv1 hv2 base64Value_pad]
    rfl
  have hcount : ([c0, c1, c2, '='] : QString).count '=' = 1 :=
    count_pad_append [c0, c1, c2] ['='] (by simp [h0, h1, h2])
  obtain ⟨g2, g1, g0, hgroup, hg2, hg1, -⟩ :=
    exists_groupBytes (d0 * 2 ^ 18 + d1 * 2 ^ 12 + d2 * 2 ^ 6 + 0) (by omega)
  rw [hgroup] at hbytes
  refine ⟨[g2, g1], NetBase64ToString_eq_some.2
    ⟨_, hbytes, hcount.le.trans (by decide), by rw [hcount]; rfl⟩, .inr ?_⟩
  have htext : NetStringToBase64 [g2, g1] =
      [base64_dict.getD ((byteOf g2 * 2 ^ 16 + byteOf g1 * 2 ^ 8) / 2 ^ 18 % 64) 'A',
        base64_dict.getD ((byteOf g2 * 2 ^ 16 + byteOf g1 * 2 ^ 8) / 2 ^ 12 % 64) 'A',
        base64_dict.getD ((byteOf g2 * 2 ^ 16 + byteOf g1 * 2 ^ 8) / 2 ^ 6 % 64) 'A', '='] := rfl
  obtain ⟨hfirst, hsecond, hthird⟩ := digits_two hlt1 hlt2 _ _ hg2 hg1 hlt0
  refine ⟨[c0, c1], c2, base64_dict.getD (d2 / 4 * 4) 'A', 1, by decide, by decide, rfl, ?_, ?_⟩
  · rw [htext, hfirst, hsecond, hthird, hd0, hd1]
    rfl
  · rw [hk2, idxOf_digit (by omega)]
    omega

/-- A group of four digits in front of a text that is read. -/
theorem read_cons (h0 : c0 ∈ base64_dict) (h1 : c1 ∈ base64_dict) (h2 : c2 ∈ base64_dict)
    (h3 : c3 ∈ base64_dict) (hread : NetBase64ToString x = some r) :
    ∃ s, NetBase64ToString (c0 :: c1 :: c2 :: c3 :: x) = some s ∧
      NetStringToBase64 s = [c0, c1, c2, c3] ++ NetStringToBase64 r := by
  obtain ⟨hv0, hlt0, hd0⟩ := base64Value_of_mem h0
  obtain ⟨hv1, hlt1, hd1⟩ := base64Value_of_mem h1
  obtain ⟨hv2, hlt2, hd2⟩ := base64Value_of_mem h2
  obtain ⟨hv3, hlt3, hd3⟩ := base64Value_of_mem h3
  generalize base64_dict.idxOf c0 = d0 at *
  generalize base64_dict.idxOf c1 = d1 at *
  generalize base64_dict.idxOf c2 = d2 at *
  generalize base64_dict.idxOf c3 = d3 at *
  obtain ⟨bs, hbs, hle, rfl⟩ := NetBase64ToString_eq_some.1 hread
  have hlength := length_base64Bytes hbs
  have hcountle := List.count_le_length (a := '=') (l := x)
  have hcount : (c0 :: c1 :: c2 :: c3 :: x).count '=' = x.count '=' :=
    count_pad_append [c0, c1, c2, c3] x (by simp [h0, h1, h2, h3])
  obtain ⟨g2, g1, g0, hgroup, hg2, hg1, hg0⟩ :=
    exists_groupBytes (d0 * 2 ^ 18 + d1 * 2 ^ 12 + d2 * 2 ^ 6 + d3) (by omega)
  have hbytes : base64Bytes (c0 :: c1 :: c2 :: c3 :: x) = some ([g2, g1, g0] ++ bs) := by
    rw [base64Bytes, base64Group_eq hv0 hv1 hv2 hv3, hbs, hgroup]
    rfl
  refine ⟨g2 :: g1 :: g0 :: bs.take (bs.length - x.count '='),
    NetBase64ToString_eq_some.2 ⟨_, hbytes, hcount.le.trans hle, ?_⟩, ?_⟩
  · have htake : ([g2, g1, g0] ++ bs).length - x.count '=' = 3 + (bs.length - x.count '=') := by
      rw [List.length_append]
      exact Nat.add_sub_assoc (by omega) 3
    have hthree : ([g2, g1, g0] : QString).length = 3 := rfl
    rw [hcount, htake, ← hthree, List.take_length_add_append]
    rfl
  · have hbuf : byteOf g2 * 2 ^ 16 + byteOf g1 * 2 ^ 8 + byteOf g0 =
        d0 * 2 ^ 18 + d1 * 2 ^ 12 + d2 * 2 ^ 6 + d3 := by
      rw [hg2, hg1, hg0]
      omega
    rw [NetStringToBase64_cons, hbuf, base64Digits_sum hlt0 hlt1 hlt2 hlt3, List.map_cons,
      List.map_cons, List.map_cons, List.map_cons, List.map_nil, hd0, hd1, hd2, hd3]

/-- Base64 text is read, and is the text of what is read. -/
theorem Groups.read (h : Groups x) :
    ∃ s, NetBase64ToString x = some s ∧ SameUsedBits x (NetStringToBase64 s) := by
  induction h with
  | nil => exact ⟨[], rfl, .inl rfl⟩
  | one h0 h1 => exact read_one h0 h1
  | two h0 h1 h2 => exact read_two h0 h1 h2
  | @cons c0 c1 c2 c3 x h0 h1 h2 h3 _ ih =>
      obtain ⟨r, hread, hsame⟩ := ih
      obtain ⟨s, hs, hencode⟩ := read_cons h0 h1 h2 h3 hread
      exact ⟨s, hs, hencode ▸ hsame.append [c0, c1, c2, c3]⟩

/-! ## What is accepted -/

/-- The two decoders read the same bytes. -/
theorem NetBase64ToData_eq : NetBase64ToData x = bytesOf ((NetBase64ToString x).getD []) := by
  rw [NetBase64ToData, writtenData, NetBase64ToString]
  cases base64Bytes x with
  | none => rfl
  | some ret =>
      simp only [Option.map_some, Option.bind_eq_bind, Option.bind_some]
      split
      · rfl
      · rw [Option.getD_some, bytesOf, List.map_take, List.length_map]

/-- On a text that is not empty the decoders agree. -/
theorem base64ToData_agrees (hne : x ≠ []) (data : ByteMemory) (maxlen : Nat) :
    (0 < (base64ToData x data maxlen).2 ↔ (NetBase64ToString x).isSome) ∧
      ∀ s, NetBase64ToString x = some s →
        (base64ToData x data maxlen).1.data.bytes 0 (base64ToData x data maxlen).2 = bytesOf s := by
  obtain ⟨bs, hstores, -, hle, htake⟩ := base64ToData_spec x data maxlen
  have hbytes : (base64ToData x data maxlen).1.data.bytes 0 (base64ToData x data maxlen).2 =
      bytesOf ((NetBase64ToString x).getD []) := by
    rw [← NetBase64ToData_eq, htake]
    exact hstores.bytes hle
  have hlength := congrArg List.length hbytes
  rw [ByteMemory.length_bytes] at hlength
  cases hread : NetBase64ToString x with
  | none =>
      rw [hread] at hlength
      refine ⟨?_, nofun⟩
      rw [hlength]
      exact ⟨fun h => absurd h (Nat.lt_irrefl 0), nofun⟩
  | some s =>
      rw [hread, Option.getD_some] at hbytes
      rw [hread, Option.getD_some, bytesOf, List.length_map] at hlength
      refine ⟨?_, fun s' hs' => Option.some.inj hs' ▸ hbytes⟩
      rw [hlength]
      exact ⟨fun _ => rfl, fun _ => length_pos_of_read hread hne⟩

/-- **The decoders accept base64 text exactly, as far as this text goes, if and only if it is base64
text, or has an illegal character, or more than two `=`.** -/
theorem acceptsImage_iff (x : QString) : AcceptsImage x ↔
    IsBase64 x ∨ (∃ c ∈ x, c ∉ base64_dict ∧ c ≠ '=') ∨ 2 < x.count '=' := by
  have hrefused : (NetBase64ToString x).isSome = false ↔
      (∃ c ∈ x, c ∉ base64_dict ∧ c ≠ '=') ∨ 2 < x.count '=' := by
    rw [← Bool.not_eq_true, isSome_NetBase64ToString, not_and_or, Bool.not_eq_true,
      List.all_eq_false, not_le]
    simp only [isLegal_iff, not_or]
  rw [← hrefused]
  constructor
  · intro h
    cases hread : NetBase64ToString x with
    | none => exact .inr rfl
    | some s => exact .inl (h.image s hread).1
  · rintro (h | h)
    · obtain ⟨s, hread, hsame⟩ := h.groups.read
      refine ⟨fun s' hs' => ?_, fun _ => by rw [hread]; rfl, fun hne => base64ToData_agrees hne⟩
      obtain rfl := Option.some.inj (hread.symm.trans hs')
      exact ⟨h, hsame⟩
    · have hnone := Option.isSome_eq_false_iff.1 h
      rw [Option.isNone_iff_eq_none] at hnone
      refine ⟨fun s hs => absurd (hnone.symm.trans hs) nofun, fun hx => ?_,
        fun hne => base64ToData_agrees hne⟩
      exact isSome_NetBase64ToString.2 hx.legal

/-- A single digit is read, as three bytes. -/
theorem acceptsImage_fails : ¬ ∀ x : QString, AcceptsImage x := by
  intro hall
  obtain ⟨⟨hlength, -⟩, -⟩ := (hall ['Q']).image _ rfl
  exact absurd hlength (by decide)

end NetISDN
