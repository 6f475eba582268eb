import Fluxpeer.Crypto.Primitives
import Fluxpeer.Lib.Text

/-!
# The text of public keys

A key is accepted in hexadecimal of either case or in padded base64; the control plane stores it
in lower-case hexadecimal. A text of 64 bytes is read as hexadecimal, any other as base64.
-/

namespace Fluxpeer.Net

open Lib Crypto

namespace PublicKey

/-! ## Hexadecimal -/

def hexValue (c : Char) : Option Nat :=
  if '0' ≤ c ∧ c ≤ '9' then some (c.toNat - '0'.toNat)
  else if 'a' ≤ c ∧ c ≤ 'f' then some (c.toNat - 'a'.toNat + 10)
  else if 'A' ≤ c ∧ c ≤ 'F' then some (c.toNat - 'A'.toNat + 10)
  else none

def hexDecode : List Char → Option Bytes
  | [] => some []
  | [_] => none
  | a :: b :: rest => do
    let high ← hexValue a
    let low ← hexValue b
    let bytes ← hexDecode rest
    some (UInt8.ofNat (16 * high + low) :: bytes)

def hexDigit (n : Nat) : Char :=
  if n < 10 then Char.ofNat ('0'.toNat + n) else Char.ofNat ('a'.toNat + (n - 10))

def hexEncode (bytes : Bytes) : List Char :=
  bytes.flatMap fun b => [hexDigit (b.toNat / 16), hexDigit (b.toNat % 16)]

lemma hexValue_hexDigit {n : Nat} (h : n < 16) : hexValue (hexDigit n) = some n := by
  have hall : ∀ n : Fin 16, hexValue (hexDigit n) = some n.val := by decide
  exact hall ⟨n, h⟩

lemma utf8Size_hexDigit {n : Nat} (h : n < 16) : (hexDigit n).utf8Size = 1 := by
  have hall : ∀ n : Fin 16, (hexDigit n).utf8Size = 1 := by decide
  exact hall ⟨n, h⟩

lemma hexDecode_hexEncode (bytes : Bytes) : hexDecode (hexEncode bytes) = some bytes := by
  induction bytes with
  | nil => rfl
  | cons b bytes ih =>
    have hb := b.toNat_lt
    have hhigh := hexValue_hexDigit (n := b.toNat / 16) (by omega)
    have hlow := hexValue_hexDigit (n := b.toNat % 16) (by omega)
    have hjoin : UInt8.ofNat (16 * (b.toNat / 16) + b.toNat % 16) = b := by
      rw [Nat.div_add_mod, UInt8.ofNat_toNat]
    rw [hexEncode, List.flatMap_cons, ← hexEncode]
    simp only [List.cons_append, List.nil_append, hexDecode, hhigh, hlow, ih, hjoin,
      Option.bind_eq_bind, Option.bind_some]

/-! ## Base64 -/

def base64Value (c : Char) : Option Nat :=
  if 'A' ≤ c ∧ c ≤ 'Z' then some (c.toNat - 'A'.toNat)
  else if 'a' ≤ c ∧ c ≤ 'z' then some (c.toNat - 'a'.toNat + 26)
  else if '0' ≤ c ∧ c ≤ '9' then some (c.toNat - '0'.toNat + 52)
  else if c = '+' then some 62
  else if c = '/' then some 63
  else none

/-- The standard alphabet. The last four characters are padded, and the bits that the padding
cuts off are zero. -/
def base64Decode : List Char → Option Bytes
  | [] => some []
  | a :: b :: c :: d :: rest => do
    let x ← base64Value a
    let y ← base64Value b
    let first := UInt8.ofNat (4 * x + y / 16)
    if rest = [] ∧ c = '=' ∧ d = '=' then
      if y % 16 = 0 then some [first] else none
    else
      let z ← base64Value c
      let second := UInt8.ofNat (16 * (y % 16) + z / 4)
      if rest = [] ∧ d = '=' then
        if z % 4 = 0 then some [first, second] else none
      else
        let w ← base64Value d
        let bytes ← base64Decode rest
        some (first :: second :: UInt8.ofNat (64 * (z % 4) + w) :: bytes)
  | _ => none

/-! ## Keys -/

def decode (value : String) : Option Key := do
  let bytes ← if byteLen value = 64 then hexDecode value.toList else base64Decode value.toList
  Block.ofBytes? 32 bytes

/-- The form in which a key is stored. -/
def canonical (key : Key) : String := String.ofList (hexEncode key.toList)

def normalize (value : String) : Option String := (decode value).map canonical

lemma byteLen_canonical (key : Key) : byteLen (canonical key) = 64 := by
  have hsum : ∀ bytes : Bytes, ((hexEncode bytes).map Char.utf8Size).sum = 2 * bytes.length := by
    intro bytes
    induction bytes with
    | nil => rfl
    | cons b bytes ih =>
      have hb := b.toNat_lt
      have hhigh := utf8Size_hexDigit (n := b.toNat / 16) (by omega)
      have hlow := utf8Size_hexDigit (n := b.toNat % 16) (by omega)
      rw [hexEncode, List.flatMap_cons, ← hexEncode, List.map_append, List.sum_append, ih]
      simp only [List.map_cons, List.map_nil, List.sum_cons, List.sum_nil, hhigh, hlow,
        List.length_cons]
      omega
  rw [byteLen, canonical, String.toList_ofList, hsum, Block.length_val]

/-- The stored form of a key is read as that key. -/
lemma decode_canonical (key : Key) : decode (canonical key) = some key := by
  rw [decode, if_pos (byteLen_canonical key), canonical, String.toList_ofList, hexDecode_hexEncode]
  exact Block.ofBytes?_toList key

lemma normalize_canonical (key : Key) : normalize (canonical key) = some (canonical key) := by
  rw [normalize, decode_canonical, Option.map_some]

end PublicKey

end Fluxpeer.Net
