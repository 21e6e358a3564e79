namespace TextTemplate

/-- How many bytes stand before a place, and its line and column, both counted from one. Columns count
characters. -/
@[ext] structure Place where
  offset : Nat
  line : Nat
  column : Nat
deriving DecidableEq, Repr

namespace Place

def start : Place := ⟨0, 1, 1⟩

/-- The place behind a character. Only a line feed ends a line. -/
def step (p : Place) (c : Char) : Place :=
  if c = '\n' then ⟨p.offset + c.utf8Size, p.line + 1, 1⟩
  else ⟨p.offset + c.utf8Size, p.line, p.column + 1⟩

def after (p : Place) (cs : List Char) : Place :=
  cs.foldl step p

theorem after_append (p : Place) (cs ds : List Char) :
    p.after (cs ++ ds) = (p.after cs).after ds := by
  simp [after]

/-- The place of byte `offset` in the text that begins here. An offset inside a character counts as the
place behind it. -/
def within (p : Place) (cs : List Char) (offset : Nat) : Place :=
  match cs with
  | [] => p
  | c :: rest => if offset = 0 then p else (p.step c).within rest (offset - c.utf8Size)

end Place

end TextTemplate
