set_option autoImplicit false

namespace Pseudocode.Text

def encode (s : String) : List UInt8 :=
  s.toUTF8.toList

inductive DecodeReason where
  | start
  | continuation
  | truncated
  deriving Repr, DecidableEq

def DecodeReason.text : DecodeReason → String
  | .start => "invalid start byte"
  | .continuation => "invalid continuation byte"
  | .truncated => "unexpected end of data"

structure DecodeError where
  first : Nat
  count : Nat
  byte : UInt8
  reason : DecodeReason
  deriving Repr, DecidableEq

def hexByte (b : UInt8) : String :=
  String.ofList [Nat.digitChar (b.toNat / 16), Nat.digitChar (b.toNat % 16)]

def DecodeError.message (e : DecodeError) : String :=
  let bytes :=
    if e.count == 1 then "byte 0x" ++ hexByte e.byte ++ " in position " ++ toString e.first
    else "bytes in position " ++ toString e.first ++ "-" ++ toString (e.first + e.count - 1)
  "'utf-8' codec can't decode " ++ bytes ++ ": " ++ e.reason.text

def isContinuation (b : UInt8) : Bool :=
  0x80 ≤ b && b < 0xc0

/-- Which second bytes may follow a first one: none that would write a character too long, a half of
a pair, or a code beyond the last. -/
def mayFollow (first second : UInt8) : Bool :=
  isContinuation second &&
    !(first == 0xe0 && second < 0xa0) && !(first == 0xed && 0xa0 ≤ second) &&
    !(first == 0xf0 && second < 0x90) && !(first == 0xf4 && 0x90 ≤ second)

def following? (b : UInt8) : Option Nat :=
  if b < 0x80 then some 0
  else if b < 0xc2 then none
  else if b < 0xe0 then some 1
  else if b < 0xf0 then some 2
  else if b < 0xf5 then some 3
  else none

def low (b : UInt8) : Nat :=
  b.toNat % 0x40

def decodeChar : UInt8 → List UInt8 → Except (Nat × DecodeReason) (Char × List UInt8)
  | a, rest =>
    match following? a with
    | none => .error (1, .start)
    | some 0 => .ok (Char.ofNat a.toNat, rest)
    | some more =>
      match rest with
      | [] => .error (1, .truncated)
      | b :: rest =>
        if !mayFollow a b then .error (1, .continuation)
        else if more == 1 then .ok (Char.ofNat (a.toNat % 0x20 * 0x40 + low b), rest)
        else match rest with
          | [] => .error (2, .truncated)
          | c :: rest =>
            if !isContinuation c then .error (2, .continuation)
            else if more == 2 then
              .ok (Char.ofNat ((a.toNat % 0x10 * 0x40 + low b) * 0x40 + low c), rest)
            else match rest with
              | [] => .error (3, .truncated)
              | d :: rest =>
                if !isContinuation d then .error (3, .continuation)
                else
                  let code := ((a.toNat % 0x08 * 0x40 + low b) * 0x40 + low c) * 0x40 + low d
                  .ok (Char.ofNat code, rest)

def decodeFrom : Nat → Nat → List Char → List UInt8 → Except DecodeError String
  | 0, _, done, _ => .ok (String.ofList done.reverse)
  | _ + 1, _, done, [] => .ok (String.ofList done.reverse)
  | n + 1, position, done, a :: rest =>
    match decodeChar a rest with
    | .error (count, reason) => .error ⟨position, count, a, reason⟩
    | .ok (c, after) =>
      decodeFrom n (position + 1 + (rest.length - after.length)) (c :: done) after

def decode (bytes : List UInt8) : Except DecodeError String :=
  decodeFrom bytes.length 0 [] bytes

def unifyLines : List Char → List Char
  | [] => []
  | '\r' :: '\n' :: rest => '\n' :: unifyLines rest
  | '\r' :: rest => '\n' :: unifyLines rest
  | c :: rest => c :: unifyLines rest

end Pseudocode.Text
