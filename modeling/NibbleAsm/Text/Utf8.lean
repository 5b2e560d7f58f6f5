/-!
# Bytes as text

A file name is a list of bytes that need not be UTF-8. `decode?` reads well-formed bytes only.
`lossy` reads any bytes: every longest beginning of a character that breaks off becomes one U+FFFD,
and so does every byte that can begin none.
-/
namespace NibbleAsm.Utf8

/-- The character written in place of bytes that are not text. -/
def replacement : Char := '\uFFFD'

/-- A character whose last bytes are still to come: the value so far, the number of bytes still
owed, and the bounds of the next one. -/
structure Open where
  value : Nat
  owed : Nat
  low : Nat
  high : Nat

/-- What a byte makes of the characters before it. -/
inductive Progress where
  | character (c : Char)
  | opened (state : Open)

/-- The first byte of a character. -/
def start (byte : Nat) : Option Progress :=
  if byte < 0x80 then some (.character (Char.ofNat byte))
  else if byte < 0xC2 then none
  else if byte < 0xE0 then some (.opened ⟨byte - 0xC0, 1, 0x80, 0xBF⟩)
  else if byte = 0xE0 then some (.opened ⟨0x0, 2, 0xA0, 0xBF⟩)
  else if byte = 0xED then some (.opened ⟨0xD, 2, 0x80, 0x9F⟩)
  else if byte < 0xF0 then some (.opened ⟨byte - 0xE0, 2, 0x80, 0xBF⟩)
  else if byte = 0xF0 then some (.opened ⟨0x0, 3, 0x90, 0xBF⟩)
  else if byte < 0xF4 then some (.opened ⟨byte - 0xF0, 3, 0x80, 0xBF⟩)
  else if byte = 0xF4 then some (.opened ⟨0x4, 3, 0x80, 0x8F⟩)
  else none

/-- A further byte of a character. -/
def Open.extend (state : Open) (byte : Nat) : Option Progress :=
  if state.low ≤ byte ∧ byte ≤ state.high then
    let value := state.value * 64 + (byte - 0x80)
    if state.owed ≤ 1 then some (.character (Char.ofNat value))
    else some (.opened ⟨value, state.owed - 1, 0x80, 0xBF⟩)
  else none

/-- A byte after a character (`none`) or inside one. -/
def step (state : Option Open) (byte : Nat) : Option Progress :=
  match state with
  | none => start byte
  | some state => state.extend byte

/-- The characters that a byte completes, and the state after it. A byte that does not continue an
open character closes it with a replacement and is read as a first byte. -/
def stepLossy (state : Option Open) (byte : Nat) : List Char × Option Open :=
  let begun := match start byte with
    | some (.character c) => ([c], none)
    | some (.opened next) => ([], some next)
    | none => ([replacement], none)
  match state with
  | none => begun
  | some state =>
    match state.extend byte with
    | some (.character c) => ([c], none)
    | some (.opened next) => ([], some next)
    | none => (replacement :: begun.1, begun.2)

def lossyFrom : Option Open → List UInt8 → List Char
  | none, [] => []
  | some _, [] => [replacement]
  | state, byte :: rest =>
    let (chars, next) := stepLossy state byte.toNat
    chars ++ lossyFrom next rest

/-- The text of any bytes, with replacements for what is not UTF-8. -/
def lossy (bytes : List UInt8) : String :=
  String.ofList (lossyFrom none bytes)

def unconsFrom : Option Open → List UInt8 → Option (Char × List UInt8)
  | _, [] => none
  | state, byte :: rest =>
    match step state byte.toNat with
    | some (.character c) => some (c, rest)
    | some (.opened next) => unconsFrom (some next) rest
    | none => none

/-- The first character and the bytes after it, if the bytes begin with a character. -/
def uncons? (bytes : List UInt8) : Option (Char × List UInt8) :=
  unconsFrom none bytes

/-- The text of well-formed bytes. -/
def decode? (bytes : List UInt8) : Option String :=
  String.fromUTF8? (ByteArray.mk bytes.toArray)

/-- The bytes of a text. -/
def encode (text : String) : List UInt8 :=
  text.toUTF8.data.toList

theorem encode_text_append (first second : String) :
    encode (first ++ second) = encode first ++ encode second := by
  simp [encode]

/-- A first character takes at least one byte. -/
theorem length_lt_of_unconsFrom {state : Option Open} {bytes rest : List UInt8} {c : Char}
    (h : unconsFrom state bytes = some (c, rest)) : rest.length < bytes.length := by
  induction bytes generalizing state with
  | nil => simp [unconsFrom] at h
  | cons byte bytes ih =>
    rw [unconsFrom] at h
    split at h
    · obtain ⟨-, rfl⟩ := Prod.mk.inj (Option.some.inj h)
      simp
    · exact Nat.lt_succ_of_lt (ih h)
    · cases h

end NibbleAsm.Utf8
