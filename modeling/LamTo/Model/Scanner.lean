import LamTo.Library.Framing
import Mathlib.Data.List.DropRight

/-!
# The malware scan of an upload

The embedding of `documents/scanner.py`: the file is sent to the scanning service in frames, and
the first bytes the service answers decide.

* A call of the socket fails or not as the `Connection` says; what `recv` returns depends on what
  was sent. `OSError` and `ValueError` are one failure, since the code handles them alike.
* `seek` of an open file succeeds.

SOURCE: src/lamto/documents/scanner.py
-/

set_option autoImplicit false

namespace LamTo.Model

open LamTo.Library

def asciiBytes (s : String) : List UInt8 := s.toList.map fun c => UInt8.ofNat c.toNat

/-- A file and where it is read. -/
structure OpenFile where
  content : List UInt8
  position : ℕ
deriving DecidableEq

namespace OpenFile

def seek (f : OpenFile) (position : ℕ) : OpenFile := { f with position := position }

/-- What `read(n)` returns. -/
def next (f : OpenFile) (n : ℕ) : List UInt8 := (f.content.drop f.position).take n

/-- The file after `read(n)`. -/
def advance (f : OpenFile) (n : ℕ) : OpenFile := f.seek (f.position + (f.next n).length)

end OpenFile

/-- `sends k` tells whether the `k`-th call of `sendall` succeeds. -/
structure Connection where
  connects : Bool
  sends : ℕ → Bool
  recv : List (List UInt8) → Option (List UInt8)

inductive ScanError where
  | unavailable (message : String)
deriving DecidableEq

def sendall (c : Connection) (sent : List (List UInt8)) (bytes : List UInt8) :
    Option (List (List UInt8)) :=
  if c.sends sent.length then some (sent ++ [bytes]) else none

/-- `while chunk := file_obj.read(8192)` -/
def sendChunks (c : Connection) (f : OpenFile) (sent : List (List UInt8)) :
    Option (List (List UInt8)) :=
  if f.next 8192 = [] then some sent
  else (sendall c sent (frame (f.next 8192))).bind fun sent => sendChunks c (f.advance 8192) sent
termination_by f.content.length - f.position
decreasing_by
  simp only [OpenFile.advance, OpenFile.seek, OpenFile.next, List.length_take, List.length_drop]
  rename_i hne
  have hpos := List.length_pos_iff.mpr hne
  simp only [OpenFile.next, List.length_take, List.length_drop] at hpos
  omega

/-- The calls that are guarded: what the service answered, if none of them failed. -/
def scanResponse (c : Connection) (f : OpenFile) : Option (List UInt8) := do
  if c.connects then
    let sent ← sendall c [] (asciiBytes "zINSTREAM" ++ [0])
    let sent ← sendChunks c (f.seek 0) sent
    let sent ← sendall c sent (packLength 0)
    c.recv sent
  else none

/-- What an answer means. -/
def readResponse (response : List UInt8) : Except ScanError Bool :=
  if response = [] ∨ ¬ [0] <:+ response then
    .error (.unavailable "ClamAV returned an invalid response.")
  else
    let text := response.rdropWhile fun b => b = 0
    if asciiBytes ": OK" <:+ text then .ok true
    else if asciiBytes ": FOUND" <:+ text then .ok false
    else .error (.unavailable "ClamAV returned an invalid response.")

/-- `scan_with_clamav`: the file is left at its beginning, whatever happened. -/
def scanWithClamav (c : Connection) (f : OpenFile) : OpenFile × Except ScanError Bool :=
  (f.seek 0, match scanResponse c f with
    | none => .error (.unavailable "ClamAV is unavailable.")
    | some response => readResponse response)

end LamTo.Model
