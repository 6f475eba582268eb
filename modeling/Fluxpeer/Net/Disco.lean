import Fluxpeer.Lib.Bytes

/-!
# Disco messages

The control messages of NAT hole punching: a type byte, the length of the body in big-endian
order, and the body. Who sent a message is for the caller to establish.
-/

namespace Fluxpeer.Net

open Lib

inductive SocketAddr
  | v4 (ip : Block 4) (port : UInt16)
  | v6 (ip : Block 16) (port : UInt16) (flowinfo scopeId : UInt32)
deriving DecidableEq

abbrev TxId := Block 12

inductive Disco
  /-- A probe of a candidate endpoint. -/
  | ping (txId : TxId) (sender : Block 32)
  /-- The reply, with the address the probe was seen to come from. -/
  | pong (txId : TxId) (observed : SocketAddr)
  /-- The sender's endpoints, to start punching. -/
  | callMeMaybe (candidates : List SocketAddr)
deriving DecidableEq

namespace Disco

inductive Error
  | shortBuffer (need have_ : Nat)
  | unknownType (ty : UInt8)
  | malformed
  | tooManyCandidates (count : Nat)
deriving DecidableEq

def headerLen : Nat := 5

def txidLen : Nat := 12

def keyLen : Nat := 32

def maxCandidates : Nat := 64

def afV4 : UInt8 := 4

def afV6 : UInt8 := 6

def putAddr : SocketAddr → Bytes
  | .v4 ip port => afV4 :: (ip.toList ++ beBytes 2 port.toNat)
  | .v6 ip port _ _ => afV6 :: (ip.toList ++ beBytes 2 port.toNat)

/-- Read one address; the number is that of the bytes consumed. -/
def getAddr (b : Bytes) : Except Error (SocketAddr × Nat) :=
  match b with
  | [] => .error .malformed
  | af :: rest =>
    if af = afV4 then
      match Block.ofBytes? 4 (rest.take 4), Block.ofBytes? 2 (slice rest 4 6) with
      | some ip, some port => .ok (.v4 ip (UInt16.ofNat (fromBe port.toList)), 7)
      | _, _ => .error .malformed
    else if af = afV6 then
      match Block.ofBytes? 16 (rest.take 16), Block.ofBytes? 2 (slice rest 16 18) with
      | some ip, some port => .ok (.v6 ip (UInt16.ofNat (fromBe port.toList)) 0 0, 19)
      | _, _ => .error .malformed
    else .error .malformed

/-- Read `count` addresses from offset `off` on; the number is the offset behind them. -/
def getAddrs (body : Bytes) : Nat → Nat → Except Error (List SocketAddr × Nat)
  | 0, off => .ok ([], off)
  | count + 1, off => do
    let (a, n) ← getAddr (body.drop off)
    let (rest, off) ← getAddrs body count (off + n)
    .ok (a :: rest, off)

def typeByte : Disco → UInt8
  | .ping .. => 1
  | .pong .. => 2
  | .callMeMaybe .. => 3

def body : Disco → Bytes
  | .ping txId sender => txId.toList ++ sender.toList
  | .pong txId observed => txId.toList ++ putAddr observed
  | .callMeMaybe candidates => beBytes 2 candidates.length ++ candidates.flatMap putAddr

def encode (msg : Disco) : Bytes :=
  msg.typeByte :: (beBytes 4 msg.body.length ++ msg.body)

def decodeBody (ty : UInt8) (body : Bytes) : Except Error Disco :=
  if ty = 1 then
    match Block.ofBytes? txidLen (body.take txidLen), Block.ofBytes? keyLen (body.drop txidLen) with
    | some txId, some sender => .ok (.ping txId sender)
    | _, _ => .error .malformed
  else if ty = 2 then
    match Block.ofBytes? txidLen (body.take txidLen) with
    | none => .error .malformed
    | some txId => do
      let (observed, n) ← getAddr (body.drop txidLen)
      if txidLen + n ≠ body.length then .error .malformed else .ok (.pong txId observed)
  else if ty = 3 then
    match Block.ofBytes? 2 (body.take 2) with
    | none => .error .malformed
    | some countBytes =>
      let count := fromBe countBytes.toList
      if count > maxCandidates then .error (.tooManyCandidates count)
      else do
        let (candidates, off) ← getAddrs body count 2
        if off ≠ body.length then .error .malformed else .ok (.callMeMaybe candidates)
  else .error (.unknownType ty)

/-- The message at the front of a buffer, and how long its encoding is. -/
def decode (buf : Bytes) : Except Error (Disco × Nat) :=
  match buf with
  | [] => .error (.shortBuffer headerLen 0)
  | ty :: rest =>
    if buf.length < headerLen then .error (.shortBuffer headerLen buf.length)
    else
      let total := headerLen + fromBe (rest.take 4)
      if buf.length < total then .error (.shortBuffer total buf.length)
      else do
        let msg ← decodeBody ty (slice buf headerLen total)
        .ok (msg, total)

end Disco

end Fluxpeer.Net
