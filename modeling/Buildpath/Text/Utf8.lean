/-!
# Bytes as text

UTF-8, read strictly (`Utf8.decode?`) or with the replacement character in the place of whatever is
no character (`Utf8.decodeLossy`). A faulty stretch is the longest run of bytes that could still
have begun a character, and counts as one.

Models the texts of the standard library.
-/

namespace Buildpath.Utf8

/-- A byte of text. -/
abbrev Byte := UInt8

def isContinuation (b : Byte) : Bool :=
  0x80 ≤ b && b ≤ 0xBF

/-- The lowest and highest second byte after the first byte of a three-byte character. -/
def secondOfThree (first : Byte) : Byte × Byte :=
  if first = 0xE0 then (0xA0, 0xBF) else if first = 0xED then (0x80, 0x9F) else (0x80, 0xBF)

/-- The lowest and highest second byte after the first byte of a four-byte character. -/
def secondOfFour (first : Byte) : Byte × Byte :=
  if first = 0xF0 then (0x90, 0xBF) else if first = 0xF4 then (0x80, 0x8F) else (0x80, 0xBF)

def within (bounds : Byte × Byte) (b : Byte) : Bool :=
  bounds.1 ≤ b && b ≤ bounds.2

def payload (b : Byte) : Nat :=
  b.toNat % 64

/-- A step of decoding: the character at the front, if there is one, and the number of bytes
after the first that belong to it or to the faulty stretch. -/
def step (first : Byte) (rest : List Byte) : Option Char × Nat :=
  if first < 0x80 then (some (Char.ofNat first.toNat), 0)
  else if 0xC2 ≤ first && first ≤ 0xDF then
    match rest with
    | b :: _ =>
      if isContinuation b then (some (Char.ofNat ((first.toNat % 32) * 64 + payload b)), 1)
      else (none, 0)
    | [] => (none, 0)
  else if 0xE0 ≤ first && first ≤ 0xEF then
    match rest with
    | b :: tail =>
      if within (secondOfThree first) b then
        match tail with
        | c :: _ =>
          if isContinuation c then
            (some (Char.ofNat (((first.toNat % 16) * 64 + payload b) * 64 + payload c)), 2)
          else (none, 1)
        | [] => (none, 1)
      else (none, 0)
    | [] => (none, 0)
  else if 0xF0 ≤ first && first ≤ 0xF4 then
    match rest with
    | b :: tail =>
      if within (secondOfFour first) b then
        match tail with
        | c :: tail' =>
          if isContinuation c then
            match tail' with
            | d :: _ =>
              if isContinuation d then
                (some (Char.ofNat
                  ((((first.toNat % 8) * 64 + payload b) * 64 + payload c) * 64 + payload d)), 3)
              else (none, 2)
            | [] => (none, 2)
          else (none, 1)
        | [] => (none, 1)
      else (none, 0)
    | [] => (none, 0)
  else (none, 0)

/-- The characters of the bytes, `none` for each faulty stretch; `fuel` bounds their number. -/
def decodeWithin : Nat → List Byte → List (Option Char)
  | 0, _ => []
  | _ + 1, [] => []
  | fuel + 1, first :: rest =>
    let (c, used) := step first rest
    c :: decodeWithin fuel (rest.drop used)

/-- The text that the bytes spell, if all of them belong to characters. -/
def decode? (bytes : List Byte) : Option (List Char) :=
  (decodeWithin bytes.length bytes).mapM id

/-- The text that the bytes spell, with U+FFFD for each faulty stretch. -/
def decodeLossy (bytes : List Byte) : List Char :=
  (decodeWithin bytes.length bytes).map (·.getD '\uFFFD')

end Buildpath.Utf8
