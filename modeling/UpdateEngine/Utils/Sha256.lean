import Mathlib.Algebra.Group.Int.Defs
import Mathlib.Algebra.Group.Nat.Defs
import UpdateEngine.Loop
import UpdateEngine.Firmware.Helper

/-!
# The digest of a file

`Sha256Utils` as it is written: the file is opened, its length is told, and a loop reads it through a buffer of 1024 bytes and hands
each buffer to the hash. `File` is a file together with what the C library makes of the calls on it, which may fail or deliver less
than was asked for. The flows use a shorter account of the same functions (`UpdateEngine.Sha256Utils`), in which a file that is there
is read as a whole.
-/

namespace UpdateEngine.Buffered

/-- A digest of SHA-256. -/
abbrev Digest := Vector UInt8 32

/-- A file, and how the calls on it end: whether it is found, whether its path can be resolved, whether it can be opened, whether
`ftell` tells its length, and how many bytes the `i`-th read delivers at most (a read delivers what it is asked for and remains,
unless it fails before). The length of a file fits a `long`. -/
structure File where
  content : Bytes
  isFileExist : Bool := true
  realpath : Bool := true
  fopen : Bool := true
  ftell : Bool := true
  fread : Nat → Nat
  fits : content.length < 2 ^ 63

namespace Sha256Utils

def SHA256_STRING_LEN : Nat := 65
def SHA256_LENGTH : Nat := 32
def MAX_BUFFER_LENGTH : Nat := 1024
def SHA256_TO_STRING_STEP : Nat := 2

/-! ## GetDigestFromFile -/

/-- The loop of `GetDigestFromFile` between two rounds: what is left by its count, the stream (its position, its end-of-file mark,
the reads so far) and what the hash was given. -/
structure Reading where
  fLen : Int
  position : Nat := 0
  eof : Bool := false
  reads : Nat := 0
  context : Bytes := []

/-- `(sizeof(buffer) > (uint32_t)fLen) ? fLen : sizeof(buffer)`, for what is left: the test is made on the lower 32 bits, and they
are what an `int` keeps of a `fLen` that passes it. -/
def readCount (fLen : Int) : Nat :=
  if fLen % 2 ^ 32 < MAX_BUFFER_LENGTH then (fLen % 2 ^ 32).toNat else MAX_BUFFER_LENGTH

/-- `fread(buffer, 1, count, fp)`: the bytes delivered. -/
def fread (f : File) (s : Reading) (count : Nat) : Bytes :=
  ((f.content.drop s.position).take count).take (f.fread s.reads)

/-- The loop after a read that delivered a whole buffer. -/
def Reading.feed (f : File) (s : Reading) (buffer : Bytes) : Reading where
  fLen := s.fLen - buffer.length
  position := s.position + buffer.length
  eof := f.content.length < s.position + readCount s.fLen
  reads := s.reads + 1
  context := s.context ++ buffer

/-- One round of the loop. A read that delivers another number of bytes than it was asked for breaks it. -/
def round (f : File) (s : Reading) : Option Reading :=
  if !s.eof && 0 < s.fLen then
    if (fread f s (readCount s.fLen)).length ≠ readCount s.fLen then none
    else some (s.feed f (fread f s (readCount s.fLen)))
  else none

/-- The loop where it starts: `fLen` is what `ftell` said at the end of the file. -/
def start (f : File) : Reading := { fLen := if f.ftell then f.content.length else -1 }

/-- `GetDigestFromFile`, the hash being a parameter: nothing while the fuel does not reach, then the digest it stores, or none when it
returns false and leaves the array as it was. -/
def getDigestFromFile (hash : Bytes → Digest) (f : File) (fuel : Nat) : Option (Option Digest) :=
  if !f.realpath then some none
  else if !f.fopen then some none
  else (Loop.run (round f) fuel (start f)).map fun s => some (hash s.context)

/-! ## TransDigestToSha256Result -/

/-- A digit of `%x`. -/
def hexDigit (n : Nat) : Char := Char.ofNat (if n < 10 then 48 + n else 87 + n)

/-- What `%02x` prints for a byte. -/
def hexDigits (b : UInt8) : List Char := [hexDigit (b.toNat / 16), hexDigit (b.toNat % 16)]

/-- `sprintf_s` with `%02x`: it fails when the digits and the zero that ends them do not fit. -/
def sprintfByte (destMax : Nat) (b : UInt8) : Option (List Char) := if 2 < destMax then some (hexDigits b) else none

/-- The loop of `TransDigestToSha256Result`, from the `i`-th byte on. -/
def transDigest (componentIdLen : Nat) : Nat → List UInt8 → Option (List Char)
  | _, [] => some []
  | i, b :: l =>
    let deviation := i * SHA256_TO_STRING_STEP
    if deviation ≥ componentIdLen then none
    else do
      let text ← sprintfByte (componentIdLen - deviation) b
      return text ++ (← transDigest componentIdLen (i + 1) l)

/-- `TransDigestToSha256Result`: the text; none when it returns false. -/
def transDigestToSha256Result (componentIdLen : Nat) (digest : Digest) : Option String :=
  (transDigest componentIdLen 0 digest.toList).map String.ofList

/-! ## CheckFileSha256String -/

/-- The 32 zero bytes an array of digests starts with. -/
def noDigest : Digest := Vector.replicate SHA256_LENGTH 0

/-- `GetFileSha256Str`: whether `GetDigestFromFile` returned true is not looked at. -/
def getFileSha256Str (hash : Bytes → Digest) (f : File) (len fuel : Nat) : Option (Option String) :=
  (getDigestFromFile hash f fuel).map fun digest => transDigestToSha256Result len (digest.getD noDigest)

/-- `c_str()` as the functions of C read it: up to the first zero. -/
def cStr (text : String) : String := String.ofList (text.toList.takeWhile (· ≠ '\x00'))

/-- `CheckFileSha256String`; nothing while the fuel does not reach. -/
def checkFileSha256String (hash : Bytes → Digest) (f : File) (sha256String : String) (fuel : Nat) : Option Bool :=
  if !f.isFileExist then some false
  else (getFileSha256Str hash f SHA256_STRING_LEN fuel).map fun
    | none => false
    | some sha256Result => strcasecmp sha256Result (cStr sha256String)

/-- The function returns the value. -/
def Returns {α : Type} (p : Nat → Option α) (a : α) : Prop := ∃ fuel, p fuel = some a

/-- A digest in hexadecimal. -/
def hexText (digest : Digest) : String := String.ofList (digest.toList.flatMap hexDigits)

end Sha256Utils

end UpdateEngine.Buffered
