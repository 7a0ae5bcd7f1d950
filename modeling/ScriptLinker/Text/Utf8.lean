/-!
# UTF-8 in byte strings

Byte strings are lists of bytes. `decode?` reads one as UTF-8 and refuses it
otherwise; it is the inverse of `encode`. `decodeLossy` reads any byte string:
every maximal ill-formed prefix becomes one replacement character. It is run
byte by byte, and the state between two bytes is the sequence that is open.
-/

namespace ScriptLinker

abbrev Bytes := List UInt8

namespace Utf8

def encode (text : String) : Bytes :=
  text.toByteArray.data.toList

/-- The text that `bytes` encodes, if they are UTF-8. -/
def decode? (bytes : Bytes) : Option String :=
  String.fromUTF8? ⟨bytes.toArray⟩

theorem length_encode (text : String) :
    (encode text).length = text.utf8ByteSize := rfl

/-- Reading accepts exactly what writing produces. -/
theorem decode?_eq_some_iff {bytes : Bytes} {text : String} :
    decode? bytes = some text ↔ bytes = encode text := by
  unfold decode? encode String.fromUTF8?
  constructor
  · intro h
    split at h
    · simp only [Option.some.injEq] at h
      subst h
      simp [String.fromUTF8]
    · simp at h
  · intro h
    subst h
    have hvalid : (⟨text.toByteArray.data.toList.toArray⟩ : ByteArray).IsValidUTF8 := by
      simpa using text.isValidUTF8
    rw [dif_pos hvalid]
    simp [String.fromUTF8]

@[simp] theorem decode?_encode (text : String) :
    decode? (encode text) = some text :=
  decode?_eq_some_iff.2 rfl

def replacement : Char := '\uFFFD'

/-- The sequence that is open between two bytes. -/
inductive Reading where
  /-- The next byte starts a sequence. -/
  | fresh
  /-- `value` holds the payload so far; the next byte has to lie between `low`
  and `high`, and `more` bytes follow it. -/
  | within (value : Nat) (more : Nat) (low high : UInt8)
  deriving DecidableEq

/-- Reads a byte that starts a sequence. The bounds of the second byte exclude
overlong forms, surrogates and values above U+10FFFF. -/
def start (b : UInt8) : List Char × Reading :=
  let payload (mask : Nat) := b.toNat % mask
  if b ≤ 0x7F then ([Char.ofNat b.toNat], .fresh)
  else if b < 0xC2 then ([replacement], .fresh)
  else if b ≤ 0xDF then ([], .within (payload 32) 0 0x80 0xBF)
  else if b = 0xE0 then ([], .within (payload 16) 1 0xA0 0xBF)
  else if b = 0xED then ([], .within (payload 16) 1 0x80 0x9F)
  else if b ≤ 0xEF then ([], .within (payload 16) 1 0x80 0xBF)
  else if b = 0xF0 then ([], .within (payload 8) 2 0x90 0xBF)
  else if b ≤ 0xF3 then ([], .within (payload 8) 2 0x80 0xBF)
  else if b = 0xF4 then ([], .within (payload 8) 2 0x80 0x8F)
  else ([replacement], .fresh)

/-- Reads one byte. A byte that does not continue the open sequence ends it
with a replacement character and starts a new one. -/
def step : Reading → UInt8 → List Char × Reading
  | .fresh, b => start b
  | .within value more low high, b =>
    if low ≤ b ∧ b ≤ high then
      let value := value * 64 + b.toNat % 64
      match more with
      | 0 => ([Char.ofNat value], .fresh)
      | more + 1 => ([], .within value more 0x80 0xBF)
    else
      (replacement :: (start b).1, (start b).2)

/-- What the end of the bytes leaves behind: an open sequence is ill-formed. -/
def Reading.atEnd : Reading → List Char
  | .fresh => []
  | .within .. => [replacement]

/-- The characters read from `bytes` when the sequence `reading` is open. -/
def readAll : Reading → Bytes → List Char
  | reading, [] => reading.atEnd
  | reading, b :: rest => (step reading b).1 ++ readAll (step reading b).2 rest

@[simp] theorem readAll_nil (reading : Reading) : readAll reading [] = reading.atEnd := rfl

theorem readAll_cons (reading : Reading) (b : UInt8) (rest : Bytes) :
    readAll reading (b :: rest) =
      (step reading b).1 ++ readAll (step reading b).2 rest := rfl

/-- Reads any bytes, with one replacement character for each maximal
ill-formed prefix. -/
def decodeLossy (bytes : Bytes) : String :=
  String.ofList (readAll .fresh bytes)

end Utf8

end ScriptLinker
