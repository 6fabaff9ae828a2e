import FileSharing.Database.Values

/-! The `md5` function of PostgreSQL. -/

namespace FileSharing

namespace Md5

def word (n : Nat) : Nat := n % 2 ^ 32

def rotate (x s : Nat) : Nat := word (x <<< s ||| x >>> (32 - s))

def complement (x : Nat) : Nat := 2 ^ 32 - 1 - x

def shifts : List Nat :=
  [7, 12, 17, 22, 5, 9, 14, 20, 4, 11, 16, 23, 6, 10, 15, 21]

def sines : List Nat :=
  [0xd76aa478, 0xe8c7b756, 0x242070db, 0xc1bdceee, 0xf57c0faf, 0x4787c62a, 0xa8304613, 0xfd469501,
    0x698098d8, 0x8b44f7af, 0xffff5bb1, 0x895cd7be, 0x6b901122, 0xfd987193, 0xa679438e, 0x49b40821,
    0xf61e2562, 0xc040b340, 0x265e5a51, 0xe9b6c7aa, 0xd62f105d, 0x02441453, 0xd8a1e681, 0xe7d3fbc8,
    0x21e1cde6, 0xc33707d6, 0xf4d50d87, 0x455a14ed, 0xa9e3e905, 0xfcefa3f8, 0x676f02d9, 0x8d2a4c8a,
    0xfffa3942, 0x8771f681, 0x6d9d6122, 0xfde5380c, 0xa4beea44, 0x4bdecfa9, 0xf6bb4b60, 0xbebfbc70,
    0x289b7ec6, 0xeaa127fa, 0xd4ef3085, 0x04881d05, 0xd9d4d039, 0xe6db99e5, 0x1fa27cf8, 0xc4ac5665,
    0xf4292244, 0x432aff97, 0xab9423a7, 0xfc93a039, 0x655b59c3, 0x8f0ccc92, 0xffeff47d, 0x85845dd1,
    0x6fa87e4f, 0xfe2ce6e0, 0xa3014314, 0x4e0811a1, 0xf7537e82, 0xbd3af235, 0x2ad7d2bb, 0xeb86d391]

structure State where
  a : Nat
  b : Nat
  c : Nat
  d : Nat
  deriving DecidableEq, Repr

def start : State := ⟨0x67452301, 0xefcdab89, 0x98badcfe, 0x10325476⟩

def mix (i b c d : Nat) : Nat :=
  if i < 16 then (b &&& c) ||| (complement b &&& d)
  else if i < 32 then (d &&& b) ||| (complement d &&& c)
  else if i < 48 then b ^^^ c ^^^ d
  else c ^^^ (b ||| complement d)

def wordIndex (i : Nat) : Nat :=
  if i < 16 then i
  else if i < 32 then (5 * i + 1) % 16
  else if i < 48 then (3 * i + 5) % 16
  else 7 * i % 16

def round (words : List Nat) (st : State) (i : Nat) : State :=
  let f := word (mix i st.b st.c st.d + st.a + sines.getD i 0 + words.getD (wordIndex i) 0)
  ⟨st.d, word (st.b + rotate f (shifts.getD (4 * (i / 16) + i % 4) 0)), st.b, st.c⟩

def chunk (st : State) (words : List Nat) : State :=
  let out := (List.range 64).foldl (round words) st
  ⟨word (st.a + out.a), word (st.b + out.b), word (st.c + out.c), word (st.d + out.d)⟩

def bytesOf (count n : Nat) : Bytea :=
  (List.range count).map fun i => UInt8.ofNat (n >>> (8 * i))

def wordOf (bytes : Bytea) : Nat := bytes.foldr (fun c n => c.toNat + 256 * n) 0

def padded (data : Bytea) : Bytea :=
  data ++ 128 :: List.replicate ((119 - data.length % 64) % 64) 0 ++ bytesOf 8 (8 * data.length)

def chunks (data : Bytea) : List (List Nat) :=
  (List.range (data.length / 64)).map fun i => (List.range 16).map fun j =>
    wordOf (substr data (64 * i + 4 * j + 1) 4)

def digest (data : Bytea) : Bytea :=
  let st := (chunks (padded data)).foldl chunk start
  bytesOf 4 st.a ++ bytesOf 4 st.b ++ bytesOf 4 st.c ++ bytesOf 4 st.d

end Md5

def hexChar (n : Nat) : UInt8 := UInt8.ofNat (if n < 10 then 48 + n else 87 + n)

/-- The digest as 32 hexadecimal characters. -/
def md5 (data : Bytea) : Text :=
  (Md5.digest data).flatMap fun c => [hexChar (c.toNat / 16), hexChar (c.toNat % 16)]

theorem length_digest (data : Bytea) : (Md5.digest data).length = 16 := by
  simp [Md5.digest, Md5.bytesOf]

@[simp] theorem length_md5 (data : Bytea) : (md5 data).length = 32 := by
  simp [md5, length_digest]

theorem plain_hexChar {n : Nat} (small : n < 16) : plain (hexChar n) = true := by
  interval_cases n <;> decide

theorem plain_md5 (data : Bytea) : Plain (md5 data) := by
  intro c member
  obtain ⟨byte, -, inside⟩ := List.mem_flatMap.mp member
  have bound : byte.toNat < 256 := byte.toNat_lt
  simp only [List.mem_cons, List.not_mem_nil, or_false] at inside
  rcases inside with rfl | rfl
  · exact plain_hexChar (by omega)
  · exact plain_hexChar (by omega)

example : md5 (ascii "abc") = ascii "900150983cd24fb0d6963f7d28e17f72" := by decide +kernel

end FileSharing
