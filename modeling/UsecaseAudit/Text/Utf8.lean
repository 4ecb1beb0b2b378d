/-!
# UTF-8 text

Source files and settings files arrive as bytes.  This module reads bytes as
UTF-8 one step at a time: a step is either a character or a fault, and each
step says how many bytes it takes.  A text is valid when no step is a fault;
the lossy reading keeps the characters and drops the faulty bytes.

The second byte of a sequence has a narrower range after the lead bytes
`E0`, `ED`, `F0` and `F4`, which excludes overlong forms,
surrogates and values above `10FFFF`.
-/

namespace UsecaseAudit
namespace Utf8

inductive Reason where
  | startByte
  | continuationByte
  | endOfData
  deriving DecidableEq, Repr

def Reason.message : Reason → String
  | .startByte => "invalid start byte"
  | .continuationByte => "invalid continuation byte"
  | .endOfData => "unexpected end of data"

/-- One step of reading: what stands at the front, and how many bytes it takes. -/
inductive Step where
  | char (c : Char) (width : Nat)
  | fault (reason : Reason) (width : Nat)
  deriving DecidableEq, Repr

def Step.width : Step → Nat
  | .char _ w => w
  | .fault _ w => w

def Step.char? : Step → Option Char
  | .char c _ => some c
  | .fault _ _ => none

/-!
# Byte classes
-/

/-- Number of bytes that follow the lead byte `b`, if `b` can lead at all. -/
def tailCount (b : UInt8) : Option Nat :=
  if b < 0x80 then some 0
  else if b < 0xC2 then none
  else if b < 0xE0 then some 1
  else if b < 0xF0 then some 2
  else if b < 0xF5 then some 3
  else none

def secondRange (lead : UInt8) : UInt8 × UInt8 :=
  if lead = 0xE0 then (0xA0, 0xBF)
  else if lead = 0xED then (0x80, 0x9F)
  else if lead = 0xF0 then (0x90, 0xBF)
  else if lead = 0xF4 then (0x80, 0x8F)
  else (0x80, 0xBF)

def isSecond (lead b : UInt8) : Bool :=
  decide ((secondRange lead).1 ≤ b) && decide (b ≤ (secondRange lead).2)

def isTail (b : UInt8) : Bool :=
  decide (0x80 ≤ b) && decide (b ≤ 0xBF)

def payload (b : UInt8) : Nat :=
  b.toNat % 64

/-!
# Steps
-/

def stepTwo (lead : UInt8) : List UInt8 → Step
  | [] => .fault .endOfData 1
  | b :: _ =>
      if isSecond lead b then
        .char (Char.ofNat (lead.toNat % 32 * 64 + payload b)) 2
      else
        .fault .continuationByte 1

def stepThree (lead : UInt8) : List UInt8 → Step
  | [] => .fault .endOfData 1
  | b :: rest =>
      if isSecond lead b then
        match rest with
        | [] => .fault .endOfData 2
        | c :: _ =>
            if isTail c then
              .char (Char.ofNat (lead.toNat % 16 * 4096 + payload b * 64 + payload c)) 3
            else
              .fault .continuationByte 2
      else
        .fault .continuationByte 1

def stepFour (lead : UInt8) : List UInt8 → Step
  | [] => .fault .endOfData 1
  | b :: rest =>
      if isSecond lead b then
        match rest with
        | [] => .fault .endOfData 2
        | c :: rest =>
            if isTail c then
              match rest with
              | [] => .fault .endOfData 3
              | d :: _ =>
                  if isTail d then
                    .char
                      (Char.ofNat (lead.toNat % 8 * 262144 + payload b * 4096
                        + payload c * 64 + payload d)) 4
                  else
                    .fault .continuationByte 3
            else
              .fault .continuationByte 2
      else
        .fault .continuationByte 1

def step (lead : UInt8) (rest : List UInt8) : Step :=
  match tailCount lead with
  | none => .fault .startByte 1
  | some 0 => .char (Char.ofNat lead.toNat) 1
  | some 1 => stepTwo lead rest
  | some 2 => stepThree lead rest
  | some _ => stepFour lead rest

def steps : List UInt8 → List Step
  | [] => []
  | lead :: rest => step lead rest :: steps (rest.drop ((step lead rest).width - 1))
termination_by bytes => bytes.length
decreasing_by
  simp only [List.length_drop, List.length_cons]
  omega

/-!
# Readings of a byte sequence
-/

structure Fault where
  reason : Reason
  offset : Nat
  width : Nat
  lead : UInt8
  deriving DecidableEq, Repr

/-- The first fault among `steps`, the first of which stands at `offset`. -/
def faultAmong (bytes : List UInt8) (offset : Nat) : List Step → Option Fault
  | [] => none
  | .char _ w :: rest => faultAmong (bytes.drop w) (offset + w) rest
  | .fault reason w :: _ => some ⟨reason, offset, w, bytes.headD 0⟩

def firstFault (bytes : List UInt8) : Option Fault :=
  faultAmong bytes 0 (steps bytes)

/-- The characters of a byte sequence; the bytes of a fault give none. -/
def chars (bytes : List UInt8) : List Char :=
  (steps bytes).filterMap Step.char?

def decodeLossy (bytes : List UInt8) : String :=
  String.ofList (chars bytes)

def decode (bytes : List UInt8) : Except Fault String :=
  match firstFault bytes with
  | some fault => .error fault
  | none => .ok (decodeLossy bytes)

/-- The bytes from `start` up to but not including `stop`, as far as they exist. -/
def slice (start stop : Nat) (bytes : List UInt8) : List UInt8 :=
  (bytes.take stop).drop start

def encode (text : String) : List UInt8 :=
  text.toUTF8.toList

/-!
# Wording of a fault
-/

def hexDigit (n : Nat) : Char :=
  if n < 10 then Char.ofNat (48 + n) else Char.ofNat (87 + n)

def hex : (width : Nat) → (n : Nat) → List Char
  | 0, _ => []
  | width + 1, n => hex width (n / 16) ++ [hexDigit (n % 16)]

/-- Names the faulty byte when it is a single one, else the range of positions. -/
def Fault.message (fault : Fault) : String :=
  let place :=
    if fault.width = 1 then
      "byte 0x" ++ String.ofList (hex 2 fault.lead.toNat) ++ s!" in position {fault.offset}"
    else
      s!"bytes in position {fault.offset}-{fault.offset + fault.width - 1}"
  "'utf-8' codec can't decode " ++ place ++ ": " ++ fault.reason.message

end Utf8
end UsecaseAudit
