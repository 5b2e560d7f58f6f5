/-!
# Tokens

A token is an instruction name or an operand with its source line. Its address is its index among
all tokens. A cursor reads tokens from first to last: it holds all tokens and the index of the next
one, so a copy of a cursor is a place to return to.
-/
namespace NibbleAsm

structure Token where
  text : String
  line : Nat
  deriving DecidableEq

/-- A place among tokens. -/
structure Cursor where
  tokens : Array Token
  position : Nat
  deriving DecidableEq

namespace Cursor

/-- The place before the first token. -/
def start (tokens : List Token) : Cursor :=
  ⟨tokens.toArray, 0⟩

/-- The next token with its index, and the place after it. Behind the last token there is none, and
the place stays. -/
def advance (cursor : Cursor) : Option (Nat × Token) × Cursor :=
  match cursor.tokens[cursor.position]? with
  | none => (none, cursor)
  | some token => (some (cursor.position, token), { cursor with position := cursor.position + 1 })

/-- The number of tokens that are still to be read. -/
def unread (cursor : Cursor) : Nat :=
  cursor.tokens.size - cursor.position

/-- Reading a token leaves fewer to read. -/
theorem unread_lt {cursor next : Cursor} {item : Nat × Token}
    (h : cursor.advance = (some item, next)) : next.unread < cursor.unread := by
  unfold advance at h
  split at h
  · simp at h
  · rename_i token hget
    simp only [Prod.mk.injEq] at h
    obtain ⟨-, rfl⟩ := h
    obtain ⟨hlt, -⟩ := Array.getElem?_eq_some_iff.mp hget
    dsimp only [unread]
    omega

/-- What a reader does with a cursor and one copy of it. -/
inductive Move where
  | advance
  /-- Copy the cursor. -/
  | save
  /-- Return to the copy. -/
  | restore
  deriving DecidableEq

/-- What a move shows. -/
inductive Sight where
  | read (item : Option (Nat × Token))
  | saved
  | restored
  deriving DecidableEq

/-- A cursor and its copy. -/
structure Reader where
  current : Cursor
  copy : Cursor
  deriving DecidableEq

namespace Reader

/-- At first both places are before the first token. -/
def start (tokens : List Token) : Reader :=
  ⟨.start tokens, .start tokens⟩

/-- One move. Advancing past the last token shows nothing and does not move. -/
def move (reader : Reader) : Move → Sight × Reader
  | .advance =>
    let (item, next) := reader.current.advance
    (.read item, { reader with current := next })
  | .save => (.saved, { reader with copy := reader.current })
  | .restore => (.restored, { reader with current := reader.copy })

/-- What a sequence of moves shows. -/
def run (reader : Reader) : List Move → List Sight
  | [] => []
  | first :: moves =>
    let (sight, next) := reader.move first
    sight :: next.run moves

end Reader

end Cursor

end NibbleAsm
