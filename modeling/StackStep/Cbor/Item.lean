import StackStep.Bytes

/-!
Data items of the concise binary object representation, and the one form in which they
are written: every number in the fewest bytes that hold it, every length before its
content. A string that came in pieces keeps its pieces, because text is checked piece by
piece, and only such a string is written with an open length.
-/

namespace StackStep

namespace Bytes

/-- The last `width` bytes of `n`, the most significant first. -/
def ofNumber : (width : Nat) → (n : Nat) → Bytes
  | 0, _ => []
  | width + 1, n => ofNumber width (n / 256) ++ [(n % 256).toUInt8]

/-- The number that the bytes write out, the most significant first. -/
def toNumber (bs : Bytes) : Nat := bs.foldl (fun n b => n * 256 + b.toNat) 0

@[simp] theorem length_ofNumber (width n : Nat) : (ofNumber width n).length = width := by
  induction width generalizing n with
  | zero => rfl
  | succ width ih => simp [ofNumber, ih]

theorem toNumber_ofNumber (width n : Nat) : toNumber (ofNumber width n) = n % Nat.pow 256 width := by
  induction width generalizing n with
  | zero => simp [ofNumber, toNumber, Nat.mod_one]
  | succ width ih =>
    have step : toNumber (ofNumber (width + 1) n) =
        toNumber (ofNumber width (n / 256)) * 256 + (n % 256).toUInt8.toNat := by
      simp [ofNumber, toNumber]
    have low : (n % 256).toUInt8.toNat = n % 256 := by
      simp [Nat.toUInt8, UInt8.toNat_ofNat']
    have high : Nat.pow 256 (width + 1) = 256 * Nat.pow 256 width := Nat.pow_succ'
    rw [step, ih, low, high, Nat.mod_mul]
    omega

end Bytes

namespace Cbor

inductive Item where
  | unsigned (n : UInt64)
  /-- The integer `-1 - n`. -/
  | negative (n : UInt64)
  | bytes (pieces : List Bytes)
  | text (pieces : List Bytes)
  | array (items : List Item)
  | map (entries : List (Item × Item))
  | tag (number : UInt64) (content : Item)
  /-- Among the simple values, 20 and 21 are false and true, 22 is null and 23 is
  undefined. -/
  | simple (n : UInt8)
  /-- A floating-point number of two, four or eight bytes. -/
  | float (bits : Bytes)
  deriving Repr

/-- The seven kinds of item whose head carries a number. -/
inductive Major where
  | unsigned | negative | bytes | text | array | map | tag
  deriving DecidableEq, Repr

namespace Major

def code : Major → Nat
  | .unsigned => 0
  | .negative => 1
  | .bytes => 2
  | .text => 3
  | .array => 4
  | .map => 5
  | .tag => 6

/-- The major kind with this code. The codes above six belong to heads without a number. -/
def ofCode? : Nat → Option Major
  | 0 => some .unsigned
  | 1 => some .negative
  | 2 => some .bytes
  | 3 => some .text
  | 4 => some .array
  | 5 => some .map
  | 6 => some .tag
  | _ => none

@[simp] theorem ofCode?_code (m : Major) : ofCode? m.code = some m := by cases m <;> rfl

/-- The first byte of an item: the kind in the upper three bits, `info` in the rest. -/
def initial (m : Major) (info : Nat) : UInt8 := (m.code * 32 + info).toUInt8

end Major

/-- The head of an item, with its number in the fewest bytes. -/
def writeHead (m : Major) (n : UInt64) : Bytes :=
  if n < 24 then [m.initial n.toNat]
  else if n < 0x100 then m.initial 24 :: Bytes.ofNumber 1 n.toNat
  else if n < 0x10000 then m.initial 25 :: Bytes.ofNumber 2 n.toNat
  else if n < 0x100000000 then m.initial 26 :: Bytes.ofNumber 4 n.toNat
  else m.initial 27 :: Bytes.ofNumber 8 n.toNat

/-- The byte that ends an item of open length. -/
def stopByte : UInt8 := 0xFF

def writePiece (m : Major) (piece : Bytes) : Bytes :=
  writeHead m piece.length.toUInt64 ++ piece

/-- A string in one piece has its length in front, any other an open length. -/
def writeString (m : Major) : List Bytes → Bytes
  | [piece] => writePiece m piece
  | pieces => m.initial 31 :: pieces.flatMap (writePiece m) ++ [stopByte]

/-- Simple values below 24 stand in the initial byte. -/
def writeSimple (n : UInt8) : Bytes :=
  if n < 24 then [0xE0 + n] else [0xF8, n]

/-- The initial byte tells the size. -/
def writeFloat (bits : Bytes) : Bytes :=
  (if bits.length = 2 then 0xF9 else if bits.length = 4 then 0xFA else 0xFB) :: bits

namespace Item

mutual

def write : Item → Bytes
  | .unsigned n => writeHead .unsigned n
  | .negative n => writeHead .negative n
  | .bytes pieces => writeString .bytes pieces
  | .text pieces => writeString .text pieces
  | .array items => writeHead .array items.length.toUInt64 ++ writeAll items
  | .map entries => writeHead .map entries.length.toUInt64 ++ writeEntries entries
  | .tag number content => writeHead .tag number ++ write content
  | .simple n => writeSimple n
  | .float bits => writeFloat bits

def writeAll : List Item → Bytes
  | [] => []
  | item :: items => write item ++ writeAll items

def writeEntries : List (Item × Item) → Bytes
  | [] => []
  | (key, value) :: entries => write key ++ write value ++ writeEntries entries

end

def null : Item := .simple 22

def ofBool (b : Bool) : Item := .simple (if b then 21 else 20)

def ofInt64 (n : Int64) : Item :=
  if n < 0 then .negative (-1 - n).toUInt64 else .unsigned n.toUInt64

def ofText (t : Bytes) : Item := .text [t]

def ofBytes (bs : Bytes) : Item := .bytes [bs]

end Item

end Cbor

end StackStep
