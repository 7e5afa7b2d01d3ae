import Mathlib

namespace Bitty.Vt

/-- Why an `APC G` buffer was rejected. -/
inductive KittyApcReject
  | notGraphics | malformedControl | missingFormat | badAction | badMore | badBase64 | unexpectedPayload
  | badPath | oversizeClaim | oversize | orphan | aborted
  deriving DecidableEq

/-- A `Vec<u8>` whose capacity is what was last reserved. -/
structure Buffer where
  bytes : List UInt8 := []
  capacity : Nat := 0
  deriving DecidableEq

def sextet (byte : UInt8) : Option Nat :=
  if 0x41 ≤ byte ∧ byte ≤ 0x5A then some (byte.toNat - 0x41)
  else if 0x61 ≤ byte ∧ byte ≤ 0x7A then some (byte.toNat - 0x61 + 26)
  else if 0x30 ≤ byte ∧ byte ≤ 0x39 then some (byte.toNat - 0x30 + 52)
  else if byte = 0x2B then some 62
  else if byte = 0x2F then some 63
  else none

def appendDecoded (output : Buffer) (bytes : List UInt8) (limit : Nat) : Except KittyApcReject Buffer :=
  let required := output.bytes.length + bytes.length
  if required > limit then .error .oversize
  else if output.capacity < required then
    let quantum := if limit ≥ 4096 then 4096 else 1
    let target := min ((required + (quantum - 1)) / quantum * quantum) limit
    if target < required then .error .oversize
    else .ok { bytes := output.bytes ++ bytes, capacity := target }
  else .ok { output with bytes := output.bytes ++ bytes }

/-- Fail-closed base64 decoder; `carry` holds the bytes of the open quantum. -/
structure Base64Stream where
  carry : List UInt8 := []
  padding : Nat := 0
  finished : Bool := false
  deriving DecidableEq

namespace Base64Stream

def finishFull (d : Base64Stream) (output : Buffer) (limit : Nat) : Except KittyApcReject (Base64Stream × Buffer) :=
  match d.carry.map sextet with
  | [some a, some b, some c, some e] => do
    let triple := (a <<< 18) ||| (b <<< 12) ||| (c <<< 6) ||| e
    let output ← appendDecoded output
      [UInt8.ofNat (triple >>> 16), UInt8.ofNat (triple >>> 8), UInt8.ofNat triple] limit
    return ({ d with carry := [] }, output)
  | _ => .error .badBase64

def finishPadded (d : Base64Stream) (output : Buffer) (limit : Nat) : Except KittyApcReject (Base64Stream × Buffer) :=
  let expected := if d.padding = 1 then 3 else 2
  if d.carry.length ≠ expected then .error .badBase64
  else match d.carry.map sextet with
    | [some first, some second, some third] => do
      let bits := (first <<< 18) ||| (second <<< 12) ||| (third <<< 6)
      let output ← appendDecoded output [UInt8.ofNat (bits >>> 16), UInt8.ofNat (bits >>> 8)] limit
      return ({ d with carry := [] }, output)
    | [some first, some second] => do
      let bits := (first <<< 18) ||| (second <<< 12)
      let output ← appendDecoded output [UInt8.ofNat (bits >>> 16)] limit
      return ({ d with carry := [] }, output)
    | _ => .error .badBase64

def finishTail (d : Base64Stream) (output : Buffer) (limit : Nat) : Except KittyApcReject Buffer :=
  match d.carry.map sextet with
  | [some first, some second, some third] =>
    let bits := (first <<< 18) ||| (second <<< 12) ||| (third <<< 6)
    appendDecoded output [UInt8.ofNat (bits >>> 16), UInt8.ofNat (bits >>> 8)] limit
  | [some first, some second] =>
    appendDecoded output [UInt8.ofNat (((first <<< 18) ||| (second <<< 12)) >>> 16)] limit
  | _ => .error .badBase64

/-- One byte of `push`. -/
def pushByte (d : Base64Stream) (byte : UInt8) (output : Buffer) (limit : Nat) :
    Except KittyApcReject (Base64Stream × Buffer) :=
  if d.finished then .error .badBase64
  else if d.padding ≠ 0 then
    if byte ≠ 0x3D then .error .badBase64
    else
      let d := { d with padding := d.padding + 1 }
      if d.padding > 2 then .error .badBase64
      else if d.padding = 2 then do
        let (d, output) ← d.finishPadded output limit
        return ({ d with finished := true }, output)
      else .ok (d, output)
  else if byte = 0x3D then
    if d.carry.length < 2 then .error .badBase64
    else
      let d := { d with padding := 1 }
      if d.carry.length = 3 then do
        let (d, output) ← d.finishPadded output limit
        return ({ d with finished := true }, output)
      else .ok (d, output)
  else if (sextet byte).isNone then .error .badBase64
  else
    let d := { d with carry := d.carry ++ [byte] }
    if d.carry.length = 4 then d.finishFull output limit else .ok (d, output)

def push (d : Base64Stream) : List UInt8 → Buffer → Nat → Except KittyApcReject (Base64Stream × Buffer)
  | [], output, _ => .ok (d, output)
  | byte :: rest, output, limit => do
    let (d, output) ← d.pushByte byte output limit
    d.push rest output limit

def finish (d : Base64Stream) (output : Buffer) (limit : Nat) : Except KittyApcReject (Base64Stream × Buffer) :=
  if d.finished then .ok (d, output)
  else if d.padding ≠ 0 then .error .badBase64
  else match d.carry.length with
    | 0 => .ok ({ d with finished := true }, output)
    | 1 => .error .badBase64
    | _ => do
      let output ← d.finishTail output limit
      return ({ d with finished := true }, output)

theorem push_append (d : Base64Stream) (xs ys : List UInt8) (output : Buffer) (limit : Nat) :
    d.push (xs ++ ys) output limit = (do
      let (d, output) ← d.push xs output limit
      d.push ys output limit) := by
  induction xs generalizing d output with
  | nil => rfl
  | cons x xs ih =>
    simp only [List.cons_append, push]
    cases d.pushByte x output limit with
    | error reason => rfl
    | ok next => exact ih next.1 next.2

end Base64Stream

end Bitty.Vt
