import LamTo.Library.Hex

/-!
# SHA-256

The digest of FIPS 180-4 on words below `2 ^ 32`, as an executable definition, and its
hexadecimal text: 64 lower-case digits.
-/

set_option autoImplicit false

namespace LamTo.Library.Sha256

def roundConstants : List ℕ :=
  [0x428a2f98, 0x71374491, 0xb5c0fbcf, 0xe9b5dba5, 0x3956c25b, 0x59f111f1, 0x923f82a4,
   0xab1c5ed5, 0xd807aa98, 0x12835b01, 0x243185be, 0x550c7dc3, 0x72be5d74, 0x80deb1fe,
   0x9bdc06a7, 0xc19bf174, 0xe49b69c1, 0xefbe4786, 0x0fc19dc6, 0x240ca1cc, 0x2de92c6f,
   0x4a7484aa, 0x5cb0a9dc, 0x76f988da, 0x983e5152, 0xa831c66d, 0xb00327c8, 0xbf597fc7,
   0xc6e00bf3, 0xd5a79147, 0x06ca6351, 0x14292967, 0x27b70a85, 0x2e1b2138, 0x4d2c6dfc,
   0x53380d13, 0x650a7354, 0x766a0abb, 0x81c2c92e, 0x92722c85, 0xa2bfe8a1, 0xa81a664b,
   0xc24b8b70, 0xc76c51a3, 0xd192e819, 0xd6990624, 0xf40e3585, 0x106aa070, 0x19a4c116,
   0x1e376c08, 0x2748774c, 0x34b0bcb5, 0x391c0cb3, 0x4ed8aa4a, 0x5b9cca4f, 0x682e6ff3,
   0x748f82ee, 0x78a5636f, 0x84c87814, 0x8cc70208, 0x90befffa, 0xa4506ceb, 0xbef9a3f7,
   0xc67178f2]

def initialState : List ℕ :=
  [0x6a09e667, 0xbb67ae85, 0x3c6ef372, 0xa54ff53a,
   0x510e527f, 0x9b05688c, 0x1f83d9ab, 0x5be0cd19]

def wrap (n : ℕ) : ℕ := n % 2 ^ 32

def rotr (x n : ℕ) : ℕ := wrap ((x >>> n) ||| (x <<< (32 - n)))

/-! ## The message -/

/-- A one bit, zeros up to eight bytes short of a whole block, and the length in bits. -/
def pad (bytes : List ℕ) : List ℕ :=
  bytes ++ 0x80 :: List.replicate ((119 - bytes.length % 64) % 64) 0
    ++ (List.range 8).map fun i => (8 * bytes.length) >>> (8 * (7 - i)) % 256

def words : List ℕ → List ℕ
  | a :: b :: c :: d :: bytes => (((a * 256 + b) * 256 + c) * 256 + d) :: words bytes
  | _ => []

/-- The sixteen-word blocks; `n` is at least their number. -/
def blocks : ℕ → List ℕ → List (List ℕ)
  | 0, _ => []
  | n + 1, ws => if ws.length < 16 then [] else ws.take 16 :: blocks n (ws.drop 16)

/-! ## Compression -/

/-- The message schedule, newest word first. -/
def expand : ℕ → List ℕ → List ℕ
  | 0, ws => ws
  | n + 1, ws =>
    let s0 := rotr (ws.getD 14 0) 7 ^^^ rotr (ws.getD 14 0) 18 ^^^ (ws.getD 14 0) >>> 3
    let s1 := rotr (ws.getD 1 0) 17 ^^^ rotr (ws.getD 1 0) 19 ^^^ (ws.getD 1 0) >>> 10
    expand n (wrap (ws.getD 15 0 + s0 + ws.getD 6 0 + s1) :: ws)

/-- One round on the eight working words. -/
def round (s : List ℕ) (kw : ℕ × ℕ) : List ℕ :=
  match s with
  | [a, b, c, d, e, f, g, h] =>
    let s1 := rotr e 6 ^^^ rotr e 11 ^^^ rotr e 25
    let ch := (e &&& f) ^^^ ((2 ^ 32 - 1 - e) &&& g)
    let t1 := h + s1 + ch + kw.1 + kw.2
    let s0 := rotr a 2 ^^^ rotr a 13 ^^^ rotr a 22
    let maj := (a &&& b) ^^^ (a &&& c) ^^^ (b &&& c)
    [wrap (t1 + s0 + maj), a, b, c, wrap (d + t1), e, f, g]
  | _ => s

def compress (state block : List ℕ) : List ℕ :=
  let schedule := (expand 48 block.reverse).reverse
  List.zipWith (fun x y => wrap (x + y)) state
    ((roundConstants.zip schedule).foldl round state)

/-- The digest of a byte string, as eight words. -/
def digest (bytes : List ℕ) : List ℕ :=
  let ws := words (pad bytes)
  (blocks ws.length ws).foldl compress initialState

/-- The hexadecimal text of the first eight words. -/
def hexdigest (bytes : List ℕ) : Text :=
  (List.range 8).flatMap fun i => hexDigits 8 ((digest bytes).getD i 0)

theorem hexdigest_length (bytes : List ℕ) : (hexdigest bytes).length = 64 := by
  simp [hexdigest, List.length_flatMap]

theorem isLowerHex_of_mem_hexdigest (bytes : List ℕ) (c : Char) (hc : c ∈ hexdigest bytes) :
    isLowerHex c = true := by
  obtain ⟨i, _, hi⟩ := List.mem_flatMap.mp hc
  exact isLowerHex_of_mem_hexDigits 8 _ c hi

example : hexdigest [0x61, 0x62, 0x63]
    = "ba7816bf8f01cfea414140de5dae2223b00361a396177a9cb410ff61f20015ad".toList := by
  decide +kernel

end LamTo.Library.Sha256
