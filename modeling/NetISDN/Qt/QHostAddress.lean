import NetISDN.Qt.QString

/-!
# `QHostAddress`

An IPv4 address. `setAddress` reads dotted-quad text the way Qt 3 does (`QStringList::split`
on the dots, each part through `toUInt`), and leaves the address null when the text is none. IPv6
addresses, which Qt 3 reads as well, are not modelled: their texts are none here.
-/

namespace NetISDN

/-- `QHostAddress`, with the address in host order. -/
structure QHostAddress where
  ip4 : BitVec 32
  deriving DecidableEq, Repr

namespace QHostAddress

/-- `QHostAddress()`. -/
def null : QHostAddress := ⟨0⟩

/-- `QHostAddress::isNull`. -/
def isNull (a : QHostAddress) : Bool := a.ip4 = 0

/-- The four bytes of the address, the first one first. -/
def octets (a : QHostAddress) : List Nat :=
  [a.ip4.toNat / 2 ^ 24, a.ip4.toNat / 2 ^ 16 % 256, a.ip4.toNat / 2 ^ 8 % 256,
    a.ip4.toNat % 256]

/-- `QHostAddress::toString`. -/
def toString (a : QHostAddress) : QString := join "." (a.octets.map sprintfU)

/-- The address of four bytes, the first one first. -/
def ofOctets (bytes : List Nat) : QHostAddress :=
  ⟨BitVec.ofNat 32 (bytes.foldl (fun addr b => addr * 256 + b) 0)⟩

/-- `QHostAddress::setAddress(text)` on a new address, of an IPv4 address. -/
def setAddress (text : QString) : QHostAddress :=
  let parts := (split '.' text).map toUInt?
  if parts.length = 4 ∧ parts.all (fun p => p.any (· ≤ 255)) then ofOctets (parts.filterMap id)
  else null

/-! ## Addresses that are read back -/

variable {a : QHostAddress}

/-- Each octet is a byte. -/
theorem lt_of_mem_octets {n : Nat} (h : n ∈ a.octets) : n < 256 := by
  have hlt := a.ip4.isLt
  simp only [octets, List.mem_cons, List.not_mem_nil, or_false] at h
  omega

/-- An address is put together from its octets. -/
theorem ofOctets_octets : ofOctets a.octets = a := by
  have hlt := a.ip4.isLt
  obtain ⟨ip⟩ := a
  simp only [ofOctets, octets, List.foldl_cons, List.foldl_nil, mk.injEq]
  refine BitVec.eq_of_toNat_eq ?_
  rw [BitVec.toNat_ofNat]
  simp only at hlt
  omega

/-- The text of an address is read as the address. -/
theorem setAddress_toString : setAddress a.toString = a := by
  have htokens : ∀ t ∈ a.octets.map sprintfU, t ≠ [] ∧ '.' ∉ t := by
    intro t ht
    obtain ⟨n, -, rfl⟩ := List.mem_map.1 ht
    exact ⟨sprintfU_ne_nil, not_mem_sprintfU rfl⟩
  have hparts : (split '.' a.toString).map toUInt? = a.octets.map some := by
    rw [show a.toString = join ['.'] (a.octets.map sprintfU) from rfl, split_join htokens,
      List.map_map]
    refine List.map_congr_left fun n hn => ?_
    have hlt := lt_of_mem_octets hn
    exact toUInt?_sprintfU (by omega)
  have hall : (a.octets.map some).all (fun p => p.any (· ≤ 255)) = true := by
    rw [List.all_map, List.all_eq_true]
    intro n hn
    have hlt := lt_of_mem_octets hn
    simpa using Nat.le_of_lt_succ hlt
  rw [setAddress, hparts, if_pos ⟨rfl, hall⟩, List.filterMap_map]
  exact (congrArg ofOctets List.filterMap_some).trans ofOctets_octets

/-- An address is printed with digits and dots. -/
theorem not_mem_toString {c : Char} (hdigit : c.isDigit = false) (hdot : c ≠ '.') :
    c ∉ a.toString := by
  rw [toString, octets]
  simp [join_cons, show ".".toList = ['.'] from rfl, not_mem_sprintfU hdigit, hdot]

/-- An address is never printed as nothing. -/
theorem toString_ne_nil : a.toString ≠ [] := by
  rw [toString, octets]
  simp [join_cons, show ".".toList = ['.'] from rfl, sprintfU_ne_nil]

end QHostAddress

end NetISDN
