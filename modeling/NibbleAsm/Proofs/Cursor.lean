import NibbleAsm.Token
import Mathlib.Data.List.DropRight

/-!
# Reading with a cursor and a copy of it

A reader advances, copies its cursor and returns to the copy, in any order and also behind the last
token. Wherever it has been, each of its two cursors stands among the tokens that it began with. So
the position alone says what is read next, and between two returns it counts the advances, up to the
number of tokens. A return makes the reader what it was right after the copy was made.
-/
namespace NibbleAsm.Cursor

/-- The cursor stands in front of one of the tokens or behind the last one. -/
structure Within (tokens : List Token) (cursor : Cursor) : Prop where
  tokens_eq : cursor.tokens = tokens.toArray
  position_le : cursor.position ≤ tokens.length

theorem within_start (tokens : List Token) : (start tokens).Within tokens := by
  constructor <;> simp [start]

namespace Within

variable {tokens : List Token} {cursor : Cursor}

theorem advance_of_lt (h : cursor.Within tokens) (hlt : cursor.position < tokens.length) :
    cursor.advance = (some (cursor.position, tokens[cursor.position]),
      { cursor with position := cursor.position + 1 }) := by
  have hget : cursor.tokens[cursor.position]? = some tokens[cursor.position] := by
    rw [h.tokens_eq, List.getElem?_toArray, List.getElem?_eq_getElem hlt]
  rw [advance, hget]

theorem advance_of_le (h : cursor.Within tokens) (hle : tokens.length ≤ cursor.position) :
    cursor.advance = (none, cursor) := by
  have hget : cursor.tokens[cursor.position]? = none := by
    rw [h.tokens_eq, List.getElem?_toArray, List.getElem?_eq_none hle]
  rw [advance, hget]

end Within

namespace Reader

/-- The reader after a sequence of moves. -/
def after (reader : Reader) (moves : List Move) : Reader :=
  moves.foldl (fun reader move => (reader.move move).2) reader

@[simp] theorem after_nil (reader : Reader) : reader.after [] = reader := rfl

@[simp] theorem after_cons (reader : Reader) (move : Move) (moves : List Move) :
    reader.after (move :: moves) = (reader.move move).2.after moves := rfl

theorem after_append (reader : Reader) (first second : List Move) :
    reader.after (first ++ second) = (reader.after first).after second := by
  simp [after]

theorem after_take_succ (reader : Reader) {moves : List Move} {i : ℕ} {move : Move}
    (h : moves[i]? = some move) :
    reader.after (moves.take (i + 1)) = ((reader.after (moves.take i)).move move).2 := by
  rw [List.take_add_one, h, Option.toList_some, after_append, after_cons, after_nil]

/-- What a move in a sequence shows is what it shows to the reader after the moves before it. -/
theorem getElem?_run (reader : Reader) (moves : List Move) (i : ℕ) :
    (reader.run moves)[i]? =
      moves[i]?.map (fun move => ((reader.after (moves.take i)).move move).1) := by
  induction moves generalizing reader i with
  | nil => simp [run]
  | cons first moves ih =>
    cases i with
    | zero => simp [run]
    | succ i => simp [run, ih]

/-- Both cursors stand among the tokens. -/
structure Within (tokens : List Token) (reader : Reader) : Prop where
  current : reader.current.Within tokens
  copy : reader.copy.Within tokens

theorem within_start (tokens : List Token) : (start tokens).Within tokens :=
  ⟨Cursor.within_start tokens, Cursor.within_start tokens⟩

namespace Within

variable {tokens : List Token} {reader : Reader}

/-- The step at an advance in front of a token. -/
theorem move_advance_of_lt (h : reader.Within tokens)
    (hlt : reader.current.position < tokens.length) :
    reader.move .advance =
      (.read (some (reader.current.position, tokens[reader.current.position])),
        { reader with
          current := { reader.current with position := reader.current.position + 1 } }) := by
  simp only [move, h.current.advance_of_lt hlt]

/-- The step at an advance behind the last token. -/
theorem move_advance_of_le (h : reader.Within tokens)
    (hle : tokens.length ≤ reader.current.position) :
    reader.move .advance = (.read none, reader) := by
  simp only [move, h.current.advance_of_le hle]

/-- Every move keeps both cursors among the tokens. -/
theorem move (h : reader.Within tokens) (move : Move) : (reader.move move).2.Within tokens := by
  cases move with
  | advance =>
    by_cases hlt : reader.current.position < tokens.length
    · rw [h.move_advance_of_lt hlt]
      exact ⟨⟨h.current.tokens_eq, hlt⟩, h.copy⟩
    · rw [h.move_advance_of_le (by omega)]
      exact h
  | save => exact ⟨h.current, h.current⟩
  | restore => exact ⟨h.copy, h.copy⟩

theorem after (h : reader.Within tokens) (moves : List Move) :
    (reader.after moves).Within tokens := by
  induction moves generalizing reader with
  | nil => exact h
  | cons first moves ih => exact ih (h.move first)

/-- A move that is no return counts if it is an advance, up to the number of tokens. -/
theorem position_move (h : reader.Within tokens) {move : Move} (hmove : move ≠ .restore) :
    (reader.move move).2.current.position =
      min tokens.length (reader.current.position + [move].count .advance) := by
  have hle := h.current.position_le
  cases move with
  | advance =>
    rw [List.count_singleton_self]
    by_cases hlt : reader.current.position < tokens.length
    · simp only [h.move_advance_of_lt hlt]
      omega
    · simp only [h.move_advance_of_le (Nat.le_of_not_lt hlt)]
      omega
  | save =>
    have hcount : [Move.save].count .advance = 0 := by decide
    simp only [Reader.move, hcount]
    omega
  | restore => exact absurd rfl hmove

/-- As long as there is no return, the position counts the advances. -/
theorem position_after (h : reader.Within tokens) {moves : List Move}
    (hmoves : Move.restore ∉ moves) :
    (reader.after moves).current.position =
      min tokens.length (reader.current.position + moves.count .advance) := by
  induction moves generalizing reader with
  | nil =>
    have hle := h.current.position_le
    rw [after_nil, List.count_nil]
    omega
  | cons first moves ih =>
    rw [List.mem_cons, not_or] at hmoves
    have hfirst := h.position_move (Ne.symm hmoves.1)
    have hcount : ([first] ++ moves).count Move.advance =
        [first].count Move.advance + moves.count Move.advance := List.count_append
    rw [List.singleton_append] at hcount
    rw [after_cons, ih (h.move first) hmoves.2, hfirst, hcount]
    omega

end Within

/-- Only saving changes the copy. -/
theorem copy_move (reader : Reader) {move : Move} (hmove : move ≠ .save) :
    (reader.move move).2.copy = reader.copy := by
  cases move with
  | advance => rfl
  | save => exact absurd rfl hmove
  | restore => rfl

/-- The moves up to and with the last one of a kind, or none if no move is of that kind. -/
def throughLast (kind : Move) (moves : List Move) : List Move :=
  moves.rdropWhile (· ≠ kind)

/-- The moves behind the last one of a kind, or all if no move is of that kind. -/
def sinceLast (kind : Move) (moves : List Move) : List Move :=
  moves.rtakeWhile (· ≠ kind)

theorem throughLast_append_sinceLast (kind : Move) (moves : List Move) :
    throughLast kind moves ++ sinceLast kind moves = moves :=
  List.rdropWhile_append_rtakeWhile

theorem not_mem_sinceLast (kind : Move) (moves : List Move) : kind ∉ sinceLast kind moves := by
  intro hmem
  simpa using List.mem_rtakeWhile_imp hmem

/-- A return makes the reader what it was right after the last save, or at the start. -/
theorem after_restore (tokens : List Token) (moves : List Move) :
    (start tokens).after (moves ++ [.restore]) =
      (start tokens).after (throughLast .save moves) := by
  induction moves using List.reverseRecOn with
  | nil => rfl
  | append_singleton moves last ih =>
    -- A save makes both cursors equal. Any other move leaves the copy alone, so a return undoes it.
    rw [throughLast, List.rdropWhile_concat]
    by_cases hlast : last = .save
    · subst last
      simp [after_append, Reader.move]
    · have hcopy := copy_move ((start tokens).after moves) hlast
      simp only [hlast, ne_eq, not_false_eq_true, decide_true, if_true]
      rw [← throughLast, ← ih]
      simp only [after_append, after_cons, after_nil, Reader.move] at hcopy ⊢
      rw [hcopy]

/-- A return at some place of a sequence leads back to an earlier place. -/
theorem after_take_restore (tokens : List Token) {moves : List Move} {i : ℕ}
    (h : moves[i]? = some .restore) :
    (start tokens).after (moves.take (i + 1)) =
      (start tokens).after (moves.take (throughLast .save (moves.take i)).length) := by
  have hthrough : throughLast .save (moves.take i) <+: moves.take i := List.rdropWhile_prefix _ _
  have htake := List.take_prefix i moves
  rw [← List.prefix_iff_eq_take.mp (hthrough.trans htake), ← after_restore, List.take_add_one, h,
    Option.toList_some]

/-- From one and the same reader the same moves lead to the same reader. -/
theorem after_take_add_congr (reader : Reader) {moves : List Move} {i j count : ℕ}
    (hsame : reader.after (moves.take i) = reader.after (moves.take j))
    (hmoves : ∀ k < count, moves[i + k]? = moves[j + k]?) :
    reader.after (moves.take (i + count)) = reader.after (moves.take (j + count)) := by
  induction count with
  | zero => exact hsame
  | succ count ih =>
    have hbefore := ih (fun k hk => hmoves k (by omega))
    have hlast := hmoves count (by omega)
    rw [← Nat.add_assoc, ← Nat.add_assoc, List.take_add_one, List.take_add_one, hlast,
      after_append, after_append, hbefore]

/-- The position after a sequence of moves over some tokens. -/
def positionAfter (tokens : List Token) (moves : List Move) : ℕ :=
  ((start tokens).after moves).current.position

/-- The position counts the advances since the last return, or since the start. -/
theorem positionAfter_eq_min (tokens : List Token) (moves : List Move) :
    positionAfter tokens moves = min tokens.length
      (positionAfter tokens (throughLast .restore moves) +
        (sinceLast .restore moves).count .advance) := by
  have hthrough := (within_start tokens).after (throughLast .restore moves)
  have hsince := hthrough.position_after (not_mem_sinceLast .restore moves)
  rwa [← after_append, throughLast_append_sinceLast] at hsince

/-- In every sequence of moves the position counts the advances since the last return and stops at
the number of tokens. An advance shows the token at the position and moves past it, or shows nothing
and does not move. A return leads back to the place right after the last save, or else to the start,
and the moves made there show the same again. -/
theorem run_keeps_place (tokens : List Token) (moves : List Move) :
    positionAfter tokens moves ≤ tokens.length ∧
    positionAfter tokens moves = min tokens.length
      (positionAfter tokens (throughLast .restore moves) +
        (sinceLast .restore moves).count .advance) ∧
    (∀ i position : ℕ, moves[i]? = some .advance →
      positionAfter tokens (moves.take i) = position →
      (∀ hlt : position < tokens.length,
        ((start tokens).run moves)[i]? = some (.read (some (position, tokens[position]))) ∧
        positionAfter tokens (moves.take (i + 1)) = position + 1) ∧
      (tokens.length ≤ position →
        ((start tokens).run moves)[i]? = some (.read none) ∧
        (start tokens).after (moves.take (i + 1)) = (start tokens).after (moves.take i))) ∧
    ∀ i mark : ℕ, moves[i]? = some .restore →
      (throughLast .save (moves.take i)).length = mark →
      (start tokens).after (moves.take (i + 1)) = (start tokens).after (moves.take mark) ∧
      ∀ count : ℕ, (∀ k < count, moves[i + 1 + k]? = moves[mark + k]?) →
        ∀ k < count, ((start tokens).run moves)[i + 1 + k]? =
          ((start tokens).run moves)[mark + k]? := by
  refine ⟨((within_start tokens).after moves).current.position_le,
    positionAfter_eq_min tokens moves, ?_, ?_⟩
  · rintro i _ hmove rfl
    have hwithin := (within_start tokens).after (moves.take i)
    rw [getElem?_run, hmove, Option.map_some, positionAfter, positionAfter,
      after_take_succ _ hmove]
    constructor
    · intro hlt
      simp only [hwithin.move_advance_of_lt hlt, and_self]
    · intro hle
      simp only [hwithin.move_advance_of_le hle, and_self]
  · rintro i _ hmove rfl
    have hreturn := after_take_restore tokens hmove
    refine ⟨hreturn, ?_⟩
    intro count hmoves k hk
    have hplace := after_take_add_congr (start tokens) hreturn
      (fun l hl => hmoves l (Nat.lt_trans hl hk))
    rw [getElem?_run, getElem?_run, hmoves k hk, hplace]

/-- Of four advances over two tokens two count. After the return the second token and then nothing
is read, as right after the save. -/
theorem run_keeps_place_past_end :
    positionAfter [⟨"KA", 1⟩, ⟨"AO", 2⟩] [.advance, .save, .advance, .advance, .advance] =
      min 2 (0 + 4) ∧
    ((start [⟨"KA", 1⟩, ⟨"AO", 2⟩]).run [.advance, .save, .advance, .advance, .advance, .restore,
      .advance, .advance])[6]? = some (.read (some (1, ⟨"AO", 2⟩))) ∧
    ((start [⟨"KA", 1⟩, ⟨"AO", 2⟩]).run [.advance, .save, .advance, .advance, .advance, .restore,
      .advance, .advance])[7]? =
    ((start [⟨"KA", 1⟩, ⟨"AO", 2⟩]).run [.advance, .save, .advance, .advance, .advance, .restore,
      .advance, .advance])[3]? := by
  obtain ⟨-, hposition, -, -⟩ := run_keeps_place [⟨"KA", 1⟩, ⟨"AO", 2⟩]
    [.advance, .save, .advance, .advance, .advance]
  obtain ⟨-, -, hadvance, hrestore⟩ := run_keeps_place [⟨"KA", 1⟩, ⟨"AO", 2⟩]
    [.advance, .save, .advance, .advance, .advance, .restore, .advance, .advance]
  have hread := ((hadvance 6 1 rfl rfl).1 (by decide)).1
  have hagain := (hrestore 5 2 rfl rfl).2 2 (by decide) 1 (by decide)
  exact ⟨hposition, hread, hagain⟩

end Reader

end NibbleAsm.Cursor
