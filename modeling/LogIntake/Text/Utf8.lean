/-! Reading bytes as characters. A byte string splits into characters and broken parts; a
broken part is the longest prefix of a character that the next byte does not continue, or a
byte that begins no character.
-/

namespace LogIntake.Text.Utf8

def encode (text : String) : List UInt8 :=
  text.toList.flatMap String.utf8EncodeChar

/-- The character with the given code point; surrogates do not arise from well-formed bytes. -/
def charOf (code : Nat) : Char :=
  Char.ofNat code

def isContinuation (byte : UInt8) : Bool :=
  0x80 ≤ byte && byte ≤ 0xBF

def payload (byte : UInt8) : Nat :=
  byte.toNat % 0x40

/-- Whether a byte may follow the lead byte of a character of three bytes. Overlong forms and
surrogates are excluded here.
-/
def followsLead3 (lead byte : UInt8) : Bool :=
  if lead = 0xE0 then 0xA0 ≤ byte && byte ≤ 0xBF
  else if lead = 0xED then 0x80 ≤ byte && byte ≤ 0x9F
  else isContinuation byte

/-- Whether a byte may follow the lead byte of a character of four bytes. Overlong forms and
code points past the last one are excluded here.
-/
def followsLead4 (lead byte : UInt8) : Bool :=
  if lead = 0xF0 then 0x90 ≤ byte && byte ≤ 0xBF
  else if lead = 0xF4 then 0x80 ≤ byte && byte ≤ 0x8F
  else isContinuation byte

/-- Splits bytes into characters and broken parts, the latter as none. -/
def parts : List UInt8 → List (Option Char)
  | [] => []
  | lead :: rest =>
      if lead < 0x80 then some (charOf lead.toNat) :: parts rest
      else if 0xC2 ≤ lead && lead ≤ 0xDF then
        match rest with
        | second :: rest2 =>
            if isContinuation second then
              some (charOf (lead.toNat % 0x20 * 0x40 + payload second)) :: parts rest2
            else none :: parts (second :: rest2)
        | [] => [none]
      else if 0xE0 ≤ lead && lead ≤ 0xEF then
        match rest with
        | second :: rest2 =>
            if followsLead3 lead second then
              match rest2 with
              | third :: rest3 =>
                  if isContinuation third then
                    some (charOf (lead.toNat % 0x10 * 0x1000 + payload second * 0x40
                      + payload third)) :: parts rest3
                  else none :: parts (third :: rest3)
              | [] => [none]
            else none :: parts (second :: rest2)
        | [] => [none]
      else if 0xF0 ≤ lead && lead ≤ 0xF4 then
        match rest with
        | second :: rest2 =>
            if followsLead4 lead second then
              match rest2 with
              | third :: rest3 =>
                  if isContinuation third then
                    match rest3 with
                    | fourth :: rest4 =>
                        if isContinuation fourth then
                          some (charOf (lead.toNat % 0x08 * 0x40000 + payload second * 0x1000
                            + payload third * 0x40 + payload fourth)) :: parts rest4
                        else none :: parts (fourth :: rest4)
                    | [] => [none]
                  else none :: parts (third :: rest3)
              | [] => [none]
            else none :: parts (second :: rest2)
        | [] => [none]
      else none :: parts rest

def replacement : Char :=
  Char.ofNat 0xFFFD

/-- Reads well-formed bytes; there is no result if any part is broken. -/
def decode? (bytes : List UInt8) : Option String :=
  ((parts bytes).mapM id).map String.ofList

/-- Reads any bytes, with one replacement character for each broken part. -/
def decodeLossy (bytes : List UInt8) : String :=
  String.ofList ((parts bytes).map fun part => part.getD replacement)

end LogIntake.Text.Utf8
