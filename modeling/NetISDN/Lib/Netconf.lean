import NetISDN.Qt.QString

/-!
# Base64 text of `netconf.cpp`

`NetStringToBase64` and `NetBase64ToString`, which carry metadata over the control
connection, and `NetDataToBase64` and `NetBase64ToData`, which carry Vorbis packets. A group of
three bytes is one 24-bit number, written as four digits of the dictionary; the padding is cut off
the whole text at the end, on both sides.
-/

namespace NetISDN

/-- `base64_dict`. -/
def base64_dict : List Char :=
  "ABCDEFGHIJKLMNOPQRSTUVWXYZabcdefghijklmnopqrstuvwxyz0123456789+/".toList

/-- `0xff&str.at(i)`. -/
def byteOf (c : Char) : Nat := c.toNat % 256

/-- The four digits of a 24-bit group, `base64_dict[0x3f&(buf>>(6*i))]` for `i` from 3 to 0. -/
def base64Digits (buf : Nat) : QString :=
  [3, 2, 1, 0].map fun i => base64_dict.getD (buf / 2 ^ (6 * i) % 64) 'A'

/-- The group loop of `NetStringToBase64`; a short last group is filled with zero bits. -/
def base64Groups : QString → QString
  | [] => []
  | [a] => base64Digits (byteOf a * 2 ^ 16)
  | [a, b] => base64Digits (byteOf a * 2 ^ 16 + byteOf b * 2 ^ 8)
  | a :: b :: c :: str =>
      base64Digits (byteOf a * 2 ^ 16 + byteOf b * 2 ^ 8 + byteOf c) ++ base64Groups str

/-- `NetStringToBase64` (`netconf.cpp:331`). -/
def NetStringToBase64 (str : QString) : QString :=
  let ret := base64Groups str
  match str.length % 3 with
  | 1 => ret.take (ret.length - 2) ++ "=="
  | 2 => ret.take (ret.length - 1) ++ "="
  | _ => ret

/-- `buf|=(k<<(6*(3-j)))` for the character at place `j` of a group: the digit's value, or
`none` at a character that is neither in the dictionary nor `=`. A `=` and a place past the
end of the text add nothing. -/
def base64Value (c : Option Char) : Option Nat :=
  match c with
  | none => some 0
  | some c => if c = '=' then some 0 else
      let k := base64_dict.idxOf c
      if k < 64 then some k else none

/-- The three bytes of the group of up to four characters, or `none` at an illegal one. -/
def base64Group (c0 c1 c2 c3 : Option Char) : Option QString := do
  let d0 ← base64Value c0
  let d1 ← base64Value c1
  let d2 ← base64Value c2
  let d3 ← base64Value c3
  let buf := d0 * 2 ^ 18 + d1 * 2 ^ 12 + d2 * 2 ^ 6 + d3
  return [2, 1, 0].map fun i => Char.ofNat (buf / 2 ^ (8 * i) % 256)

/-- The group loop of `NetBase64ToString`: the bytes of all groups, without the padding
applied. -/
def base64Bytes : QString → Option QString
  | [] => some []
  | [c0] => base64Group (some c0) none none none
  | [c0, c1] => base64Group (some c0) (some c1) none none
  | [c0, c1, c2] => base64Group (some c0) (some c1) (some c2) none
  | c0 :: c1 :: c2 :: c3 :: str => do
    let ret ← base64Group (some c0) (some c1) (some c2) (some c3)
    let rest ← base64Bytes str
    return ret ++ rest

/-- `NetBase64ToString` (`netconf.cpp:374`); `none` is the null string with `ok` false. Every
`=` of the text counts as padding, and more than two are an error. -/
def NetBase64ToString (str : QString) : Option QString := do
  let ret ← base64Bytes str
  let pad := str.count '='
  if 2 < pad then none else some (ret.take (ret.length - pad))

/-- A byte as the character that is read from it. -/
def latin1 (b : BitVec 8) : Char := Char.ofNat b.toNat

/-- `NetDataToBase64` (`netconf.cpp:440`): the loop of `NetStringToBase64` over an array. -/
def NetDataToBase64 (data : List (BitVec 8)) : QString := NetStringToBase64 (data.map latin1)

/-- What `NetBase64ToData` writes to `data` before it applies the padding: the loop of
`NetBase64ToString`. Its `maxlen` is not looked at. -/
def writtenData (base64 : QString) : Option (List (BitVec 8)) :=
  (base64Bytes base64).map fun ret => ret.map fun c => BitVec.ofNat 8 c.toNat

/-- `NetBase64ToData` (`netconf.cpp:481`): as many bytes of `data` as it returns. It returns 0 at an
illegal character, and at more than two `=`. -/
def NetBase64ToData (base64 : QString) : List (BitVec 8) :=
  match writtenData base64 with
  | none => []
  | some data =>
    let pad := base64.count '='
    if 2 < pad then [] else data.take (data.length - pad)

end NetISDN
