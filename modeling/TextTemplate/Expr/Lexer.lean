import TextTemplate.Expr.Token
import TextTemplate.Text.Blank
import TextTemplate.Text.Word

namespace TextTemplate

/-- Why a content is no sequence of tokens. -/
inductive LexFault where
  | unexpectedCharacter (c : Char)
  | invalidNumber (text : String)
  | unterminatedString
deriving DecidableEq, Repr

namespace LexFault

def message : LexFault → String
  | unexpectedCharacter c => "Unexpected character: '" ++ String.singleton c ++ "'"
  | invalidNumber text => "Invalid number: '" ++ text ++ "'"
  | unterminatedString => "Unterminated string"

end LexFault

/-- A fault and the bytes that it concerns. -/
structure LexError where
  fault : LexFault
  span : Span
deriving DecidableEq, Repr

namespace LexError

def message (e : LexError) : String :=
  "Expression lexer error at position " ++ toString e.span.start ++ ": " ++ e.fault.message

end LexError

/-- The tokens of a content and the byte offset of its end. -/
structure Tokens where
  toList : List Token
  stop : Nat
deriving DecidableEq

namespace Token

def byteSize : List Char → Nat
  | [] => 0
  | c :: rest => c.utf8Size + byteSize rest

/-- The lexeme at the beginning of a text and the characters it takes; or the fault there and the characters
that it concerns. -/
inductive Cut where
  | lexeme (l : Lexeme) (taken : List Char)
  | fault (f : LexFault) (taken : List Char)

/-- A number: digits and points after an optional minus. At most one point makes it a number. -/
def cutNumber (cs : List Char) : Cut :=
  let body := match cs with
    | '-' :: rest => '-' :: rest.takeWhile fun c => c.isDigit || c == '.'
    | _ => cs.takeWhile fun c => c.isDigit || c == '.'
  match Decimal.read? body with
  | some d => .lexeme (.number (Number.ofDecimal d)) body
  | none => .fault (.invalidNumber (String.ofList body)) body

/-- A string up to the quote it began with; there are no escapes. -/
def cutString (quote : Char) (cs : List Char) : Cut :=
  let body := cs.takeWhile (· != quote)
  if body.length < cs.length then .lexeme (.string (String.ofList body)) (quote :: body ++ [quote])
  else .fault .unterminatedString (quote :: body)

/-- The lexeme that a name stands for: four words are literals. -/
def ofName : String → Lexeme
  | "true" => .boolean true
  | "false" => .boolean false
  | "nil" => .nil
  | "null" => .nil
  | name => .identifier name

def cutName (cs : List Char) : Cut :=
  let body := cs.takeWhile Text.continuesName
  .lexeme (ofName (String.ofList body)) body

/-- Operators and marks, the longer ones first. -/
def cutMark (c : Char) (rest : List Char) : Cut :=
  match c, rest with
  | '=', '=' :: _ => .lexeme (.comparison .eq) ['=', '=']
  | '!', '=' :: _ => .lexeme (.comparison .ne) ['!', '=']
  | '<', '=' :: _ => .lexeme (.comparison .le) ['<', '=']
  | '>', '=' :: _ => .lexeme (.comparison .ge) ['>', '=']
  | '<', _ => .lexeme (.comparison .lt) ['<']
  | '>', _ => .lexeme (.comparison .gt) ['>']
  | '=', _ => .lexeme .assign ['=']
  | '.', _ => .lexeme .dot ['.']
  | ',', _ => .lexeme .comma [',']
  | ':', _ => .lexeme .colon [':']
  | '|', _ => .lexeme .pipe ['|']
  | '[', _ => .lexeme .leftBracket ['[']
  | ']', _ => .lexeme .rightBracket [']']
  | c, _ => .fault (.unexpectedCharacter c) [c]

/-- A number begins with a digit, or with a minus right before one. -/
def startsNumber (c : Char) (rest : List Char) : Bool :=
  c.isDigit || (c == '-' && (rest.head?.map Char.isDigit).getD false)

/-- The token at the beginning of a text that does not begin with white space. -/
def cut (c : Char) (rest : List Char) : Cut :=
  if startsNumber c rest then cutNumber (c :: rest)
  else if c == '\x22' || c == '\x27' then cutString c rest
  else if Text.startsName c then cutName (c :: rest)
  else cutMark c rest

theorem length_pos_of_cut {c : Char} {rest taken : List Char} {l : Lexeme}
    (h : cut c rest = .lexeme l taken) : 0 < taken.length := by
  unfold cut at h
  split at h
  · rename_i hs
    unfold cutNumber at h
    simp only at h
    split at h
    · rename_i hd
      simp only [Cut.lexeme.injEq] at h
      rw [← h.2]
      split
      · simp
      · rename_i hm
        have hc : c.isDigit = true := by
          simp only [startsNumber, Bool.or_eq_true, Bool.and_eq_true, beq_iff_eq] at hs
          rcases hs with hs | ⟨rfl, -⟩
          · exact hs
          · exact absurd rfl (hm rest)
        simp [hc]
    · exact absurd h (by simp)
  · split at h
    · unfold cutString at h
      simp only at h
      split at h
      · simp only [Cut.lexeme.injEq] at h
        rw [← h.2]
        simp
      · exact absurd h (by simp)
    · split at h
      · rename_i hn
        unfold cutName at h
        simp only [Cut.lexeme.injEq] at h
        rw [← h.2]
        simp [Text.continuesName_of_startsName c hn]
      · unfold cutMark at h
        split at h <;> simp only [Cut.lexeme.injEq, reduceCtorEq] at h <;> simp [← h.2]

set_option linter.unusedVariables false in
/-- Reads tokens from byte `offset` on. -/
def lexFrom (offset : Nat) (cs : List Char) : Except LexError Tokens :=
  match cs with
  | [] => .ok ⟨[], offset⟩
  | c :: rest =>
    if Text.isBlank c then lexFrom (offset + c.utf8Size) rest
    else
      match h : cut c rest with
      | .fault f taken => .error ⟨f, ⟨offset, offset + byteSize taken⟩⟩
      | .lexeme l taken =>
        let next := offset + byteSize taken
        (lexFrom next ((c :: rest).drop taken.length)).map fun ts =>
          ⟨⟨l, ⟨offset, next⟩⟩ :: ts.toList, ts.stop⟩
termination_by cs.length
decreasing_by
  · simp
  · have := length_pos_of_cut h
    simp only [List.length_drop, List.length_cons]
    omega

def lex (content : List Char) : Except LexError Tokens :=
  lexFrom 0 content

end Token

namespace Tokens

def endToken (ts : Tokens) : Token :=
  ⟨.endOfTag, ⟨ts.stop, ts.stop⟩⟩

end Tokens

end TextTemplate
