/-
# Forms

Expressions are read from tokens: an atom from one token, a list from its forms between
parentheses. The reader walks along the tokens with the lists that are still open; how many may be
open at once is limited.

Key definitions: `Form.Fault`, `Form.parse`, `Form.parseAll`, `Form.read`.
Key lemmas: `Form.length_parse_lt`.
-/
import SmallLisp.Atom
import SmallLisp.Failure

namespace SmallLisp
namespace Form

/-- Why tokens do not begin with a form. -/
inductive Fault where
  | noToken
  | strayClose
  | unclosed
  | tooDeep
  deriving DecidableEq

def Fault.toFailure : Fault → Failure
  | .noToken => .error .noToken
  | .strayClose => .error .strayClose
  | .unclosed => .error .unclosedList
  | .tooDeep => .stackExhausted

/-- How far reading has come: a form is complete, or lists are open, innermost first, each with
the forms read in it so far, last first. -/
inductive Progress where
  | complete (form : Value)
  | within (stack : List (List Value))

/-- A form that is just complete: the answer if no list is open, and otherwise the next form of the
innermost one. -/
def place (form : Value) : List (List Value) → Progress
  | [] => .complete form
  | items :: stack => .within ((form :: items) :: stack)

/-- One token more. -/
def advance (nesting : Nat) (stack : List (List Value)) (t : Token) : Except Fault Progress :=
  if t = "(" then
    if stack.length < nesting then .ok (.within ([] :: stack)) else .error .tooDeep
  else if t = ")" then
    match stack with
    | [] => .error .strayClose
    | items :: stack => .ok (place (.list items.reverse) stack)
  else .ok (place (.ofToken t) stack)

/-- Reads on to the end of the first form. The answer is the form and the tokens after it. -/
def parseIn (nesting : Nat) : List (List Value) → List Token → Except Fault (Value × List Token)
  | stack, [] => .error (if stack.isEmpty then .noToken else .unclosed)
  | stack, t :: ts =>
    match advance nesting stack t with
    | .error fault => .error fault
    | .ok (.complete form) => .ok (form, ts)
    | .ok (.within stack) => parseIn nesting stack ts

/-- The first form of a row of tokens, and the tokens after it. -/
def parse (nesting : Nat) (tokens : List Token) : Except Fault (Value × List Token) :=
  parseIn nesting [] tokens

theorem length_parseIn_lt (nesting : Nat) :
    ∀ (tokens : List Token) (stack : List (List Value)) (form : Value) (rest : List Token),
      parseIn nesting stack tokens = .ok (form, rest) → rest.length < tokens.length
  | [], _, _, _, h => by simp [parseIn] at h
  | t :: ts, stack, form, rest, h => by
    rw [parseIn] at h
    split at h
    · cases h
    · cases h
      exact Nat.lt_succ_self _
    · exact Nat.lt_succ_of_lt (length_parseIn_lt nesting ts _ _ _ h)

/-- Reading a form uses up at least one token. -/
theorem length_parse_lt {nesting : Nat} {tokens rest : List Token} {form : Value}
    (h : parse nesting tokens = .ok (form, rest)) : rest.length < tokens.length :=
  length_parseIn_lt nesting tokens [] form rest h

/-- All forms of a row of tokens in order, up to its end or to the first fault. -/
def parseAll (nesting : Nat) (tokens : List Token) : List Value × Option Fault :=
  match tokens with
  | [] => ([], none)
  | t :: ts =>
    match _h : parse nesting (t :: ts) with
    | .error fault => ([], some fault)
    | .ok (form, rest) =>
      let (forms, fault) := parseAll nesting rest
      (form :: forms, fault)
termination_by tokens.length
decreasing_by exact length_parse_lt _h

/-- The forms of a text, if all of it can be read. -/
def read (nesting : Nat) (text : String) : Except Fault (List Value) :=
  match parseAll nesting (tokenize text) with
  | (forms, none) => .ok forms
  | (_, some fault) => .error fault

end Form
end SmallLisp
