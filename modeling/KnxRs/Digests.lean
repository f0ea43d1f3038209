import KnxRs.HashWriter
import KnxRs.Octets

set_option autoImplicit false

/-!
# MD5 and Base64

The digest of octets and the text of a digest, as the crates of these names compute them.
-/
namespace KnxRs.Digests
open Texts Octets Hash

/-! ## MD5 -/

structure DigestState where
  a : UInt32
  b : UInt32
  c : UInt32
  d : UInt32

def rotations : List UInt32 :=
  [7, 12, 17, 22, 5, 9, 14, 20, 4, 11, 16, 23, 6, 10, 15, 21]

def sines : List UInt32 :=
  [
0xd76aa478, 0xe8c7b756, 0x242070db, 0xc1bdceee, 0xf57c0faf, 0x4787c62a,
    0xa8304613, 0xfd469501, 0x698098d8, 0x8b44f7af, 0xffff5bb1, 0x895cd7be,
    0x6b901122, 0xfd987193, 0xa679438e, 0x49b40821, 0xf61e2562, 0xc040b340,
    0x265e5a51, 0xe9b6c7aa, 0xd62f105d, 0x02441453, 0xd8a1e681, 0xe7d3fbc8,
    0x21e1cde6, 0xc33707d6, 0xf4d50d87, 0x455a14ed, 0xa9e3e905, 0xfcefa3f8,
    0x676f02d9, 0x8d2a4c8a, 0xfffa3942, 0x8771f681, 0x6d9d6122, 0xfde5380c,
    0xa4beea44, 0x4bdecfa9, 0xf6bb4b60, 0xbebfbc70, 0x289b7ec6, 0xeaa127fa,
    0xd4ef3085, 0x04881d05, 0xd9d4d039, 0xe6db99e5, 0x1fa27cf8, 0xc4ac5665,
    0xf4292244, 0x432aff97, 0xab9423a7, 0xfc93a039, 0x655b59c3, 0x8f0ccc92,
    0xffeff47d, 0x85845dd1, 0x6fa87e4f, 0xfe2ce6e0, 0xa3014314, 0x4e0811a1,
    0xf7537e82, 0xbd3af235, 0x2ad7d2bb, 0xeb86d391]

def rotateLeft (x n : UInt32) : UInt32 := x <<< n ||| x >>> (32 - n)

/-- What round `i` mixes of the state, and the word of the block that it adds. -/
def mixed (s : DigestState) (i : Nat) : UInt32 × Nat :=
  if i < 16 then (s.b &&& s.c ||| ~~~s.b &&& s.d, i)
  else if i < 32 then (s.d &&& s.b ||| ~~~s.d &&& s.c, (5 * i + 1) % 16)
  else if i < 48 then (s.b ^^^ s.c ^^^ s.d, (3 * i + 5) % 16)
  else (s.c ^^^ (s.b ||| ~~~s.d), 7 * i % 16)

def digestRound (words : List UInt32) (s : DigestState) (i : Nat) : DigestState :=
  let (f, g) := mixed s i
  let sum := s.a + f + sines.getD i 0 + words.getD g 0
  ⟨s.d, s.b + rotateLeft sum (rotations.getD (i / 16 * 4 + i % 4) 0), s.b, s.c⟩

def wordOf (octets : List UInt8) : UInt32 :=
  octets.foldr (fun octet word => word <<< 8 ||| octet.toUInt32) 0

def digestBlock (s : DigestState) (block : List UInt8) : DigestState :=
  let words := (List.range 16).map fun i => wordOf (slice block (4 * i) 4)
  let t := (List.range 64).foldl (digestRound words) s
  ⟨s.a + t.a, s.b + t.b, s.c + t.c, s.d + t.d⟩

/-- The octets, a set bit, zeros and the number of bits make whole blocks of 64. -/
def padded (octets : List UInt8) : List UInt8 :=
  octets ++ 0x80 :: List.replicate ((119 - octets.length % 64) % 64) 0 ++
    leOctets 8 (8 * octets.length)

def digest (octets : List UInt8) : List UInt8 :=
  let whole := padded octets
  let s := ((List.range (whole.length / 64)).map fun i => slice whole (64 * i) 64).foldl digestBlock
    ⟨0x67452301, 0xefcdab89, 0x98badcfe, 0x10325476⟩
  [s.a, s.b, s.c, s.d].flatMap fun word => leOctets 4 word.toNat

example : digest [0x61, 0x62, 0x63] = [0x90, 0x01, 0x50, 0x98, 0x3c, 0xd2, 0x4f, 0xb0, 0xd6, 0x96,
    0x3f, 0x7d, 0x28, 0xe1, 0x7f, 0x72] := by decide +kernel

/-! ## Base64 -/

def alphabet : Text :=
  "ABCDEFGHIJKLMNOPQRSTUVWXYZabcdefghijklmnopqrstuvwxyz0123456789+/".toList

def symbol (n : Nat) : Char := alphabet.getD (n % 64) '='

/-- Three octets are four symbols; what is missing at the end is padded. -/
def encode : List UInt8 → Text
  | a :: b :: c :: rest =>
    let n := a.toNat * 65536 + b.toNat * 256 + c.toNat
    symbol (n / 262144) :: symbol (n / 4096) :: symbol (n / 64) :: symbol n :: encode rest
  | [a, b] =>
    let n := a.toNat * 1024 + b.toNat * 4
    [symbol (n / 4096), symbol (n / 64), symbol n, '=']
  | [a] => [symbol (a.toNat / 4), symbol (a.toNat * 16), '=', '=']
  | [] => []

end KnxRs.Digests
