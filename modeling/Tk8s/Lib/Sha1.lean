import Mathlib.Data.List.Basic

/-!
SHA-1 of a list of bytes.

* `pad`, `blocks`: the padded message in blocks of sixteen words.
* `schedule`, `round`, `compress`: one block.
* `hexdigest`: the digest in hexadecimal.
-/

namespace Sha1

/-- Rotation to the left. -/
def rotl (n x : UInt32) : UInt32 := x <<< n ||| x >>> (32 - n)

/-- The bytes of a number, big-endian. -/
def bigEndian (n : ℕ) : ℕ → List UInt8
  | 0 => []
  | len + 1 => UInt8.ofNat (n / 256 ^ len) :: bigEndian n len

/-- A one bit, zeros up to 56 modulo 64 bytes, and the length in bits. -/
def pad (message : List UInt8) : List UInt8 :=
  message ++ 0x80 :: List.replicate ((119 - message.length % 64) % 64) 0
    ++ bigEndian (8 * message.length) 8

/-- Four bytes a word. -/
def toWords : List UInt8 → List UInt32
  | a :: b :: c :: d :: rest =>
      (a.toUInt32 <<< 24 ||| b.toUInt32 <<< 16 ||| c.toUInt32 <<< 8 ||| d.toUInt32) :: toWords rest
  | _ => []

/-- `n` blocks of sixteen words. -/
def blocks (words : List UInt32) : ℕ → List (List UInt32)
  | 0 => []
  | n + 1 => words.take 16 :: blocks (words.drop 16) n

/-- `n` more words of the message schedule; the last one comes first. -/
def schedule (back : List UInt32) : ℕ → List UInt32
  | 0 => back
  | n + 1 =>
      let w (i : ℕ) := back.getD (i - 1) 0
      schedule (rotl 1 (w 3 ^^^ w 8 ^^^ w 14 ^^^ w 16) :: back) n

structure State where
  a : UInt32
  b : UInt32
  c : UInt32
  d : UInt32
  e : UInt32

def initial : State := ⟨0x67452301, 0xEFCDAB89, 0x98BADCFE, 0x10325476, 0xC3D2E1F0⟩

/-- Round number `t`. -/
def round (s : State) (t : ℕ) (w : UInt32) : State :=
  let (f, k) : UInt32 × UInt32 :=
    if t < 20 then (s.b &&& s.c ||| (~~~ s.b) &&& s.d, 0x5A827999)
    else if t < 40 then (s.b ^^^ s.c ^^^ s.d, 0x6ED9EBA1)
    else if t < 60 then (s.b &&& s.c ||| s.b &&& s.d ||| s.c &&& s.d, 0x8F1BBCDC)
    else (s.b ^^^ s.c ^^^ s.d, 0xCA62C1D6)
  ⟨rotl 5 s.a + f + s.e + k + w, s.a, rotl 30 s.b, s.c, s.d⟩

/-- One block of the message. -/
def compress (s : State) (block : List UInt32) : State :=
  let words := (schedule block.reverse 64).reverse
  let r := (words.zipIdx).foldl (fun s p => round s p.2 p.1) s
  ⟨s.a + r.a, s.b + r.b, s.c + r.c, s.d + r.d, s.e + r.e⟩

def digest (message : List UInt8) : List UInt8 :=
  let words := toWords (pad message)
  let s := (blocks words (words.length / 16)).foldl compress initial
  [s.a, s.b, s.c, s.d, s.e].flatMap fun w => bigEndian w.toNat 4

/-- The digest in hexadecimal. -/
def hexdigest (message : List UInt8) : String :=
  let digit (n : ℕ) : Char := "0123456789abcdef".toList.getD n '0'
  String.ofList ((digest message).flatMap fun b => [digit (b.toNat / 16), digit (b.toNat % 16)])

example : hexdigest ("abc".toList.map fun c => UInt8.ofNat c.toNat) =
    "a9993e364706816aba3e25717850c26c9cd0d89d" := by
  decide +kernel

end Sha1
