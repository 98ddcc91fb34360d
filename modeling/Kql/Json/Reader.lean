import Kql.Json.Basic
import Kql.Json.Number

/-!
Reading JSON texts. Each reader takes characters and returns what it read with the characters that
are left, which are fewer than a given bound; the bound is what makes the readers end. A fault says
whether the text stopped too early or no continuation could have helped.
-/

namespace Kql.Json

/-- Why a text is not JSON. Where the fault stands is not kept, and in which words it is told is left to
whoever tells it. -/
inductive Fault where
  /-- The text ends before the value does. -/
  | endOfInput
  /-- The text is wrong whatever follows. -/
  | malformed
deriving DecidableEq

/-- What was read, and fewer than `bound` characters that are left. -/
structure Read (α : Type) (bound : Nat) where
  value : α
  rest : List Char
  shorter : rest.length < bound

def Read.map {α β : Type} {bound : Nat} (f : α → β) (r : Read α bound) : Read β bound :=
  ⟨f r.value, r.rest, r.shorter⟩

def Read.widen {α : Type} {bound bound' : Nat} (r : Read α bound) (h : bound ≤ bound') :
    Read α bound' :=
  ⟨r.value, r.rest, Nat.lt_of_lt_of_le r.shorter h⟩

/-- A reader's result: a fault, or a value with a rest that is shorter than `bound`. -/
abbrev Result (α : Type) (bound : Nat) := Except Fault (Read α bound)

/-- Blank, tab, line feed and carriage return, the only white space of JSON. -/
def isGap (c : Char) : Bool := c == ' ' || c == '\t' || c == '\n' || c == '\r'

def skipGap (cs : List Char) : List Char := cs.dropWhile isGap

theorem length_lt_of_skipGap_eq_cons {c : Char} {cs rest : List Char} (h : skipGap cs = c :: rest) :
    rest.length < cs.length := by
  have := (List.dropWhile_suffix isGap (l := cs)).length_le
  rw [show cs.dropWhile isGap = c :: rest from h, List.length_cons] at this
  exact this

/-- The next character that is not a gap. The text stops too early when there is none. -/
def symbol (cs : List Char) : Result Char cs.length :=
  match h : skipGap cs with
  | [] => .error .endOfInput
  | c :: rest => .ok ⟨c, rest, length_lt_of_skipGap_eq_cons h⟩

/-! ## Strings -/

def hexDigit? (c : Char) : Option Nat :=
  if c.isDigit then some (c.toNat - '0'.toNat)
  else if 'a' ≤ c ∧ c ≤ 'f' then some (c.toNat - 'a'.toNat + 10)
  else if 'A' ≤ c ∧ c ≤ 'F' then some (c.toNat - 'A'.toNat + 10)
  else none

def utf8Size (cs : List Char) : Nat := cs.foldr (fun c size => c.utf8Size + size) 0

/-- Four hexadecimal digits. The text stops too early when fewer than four bytes are left. -/
def fourHexDigits (cs : List Char) : Result Nat (cs.length + 1) :=
  match cs with
  | a :: b :: c :: d :: rest =>
    match hexDigit? a, hexDigit? b, hexDigit? c, hexDigit? d with
    | some a, some b, some c, some d =>
      .ok ⟨((a * 16 + b) * 16 + c) * 16 + d, rest, by simp only [List.length_cons]; omega⟩
    | _, _, _, _ => .error .malformed
  | short => .error (if utf8Size short < 4 then .endOfInput else .malformed)

/-- The second half of a character beyond the sixteen-bit range, whose first half `high` was read:
a backslash, a `u` and four digits. -/
def lowSurrogate (high : Nat) (cs : List Char) : Result Char (cs.length + 1) :=
  match cs with
  | [] => .error .endOfInput
  | '\\' :: [] => .error .endOfInput
  | '\\' :: 'u' :: rest => do
    let low ← fourHexDigits rest
    if 0xDC00 ≤ low.value ∧ low.value ≤ 0xDFFF then
      let code := 0x10000 + (high - 0xD800) * 0x400 + (low.value - 0xDC00)
      .ok ((low.map fun _ => Char.ofNat code).widen (by simp only [List.length_cons]; omega))
    else .error .malformed
  | _ => .error .malformed

def shortEscape? : Char → Option Char
  | '"' => some '"'
  | '\\' => some '\\'
  | '/' => some '/'
  | 'b' => some '\x08'
  | 'f' => some '\x0c'
  | 'n' => some '\n'
  | 'r' => some '\r'
  | 't' => some '\t'
  | _ => none

/-- The character that an escape stands for, read from behind its backslash. -/
def escaped (cs : List Char) : Result Char (cs.length + 1) :=
  match cs with
  | [] => .error .endOfInput
  | 'u' :: rest => do
    let unit ← fourHexDigits rest
    if 0xDC00 ≤ unit.value ∧ unit.value ≤ 0xDFFF then .error .malformed
    else if 0xD800 ≤ unit.value ∧ unit.value ≤ 0xDBFF then do
      let c ← lowSurrogate unit.value unit.rest
      .ok (c.widen (by have := unit.shorter; simp only [List.length_cons]; omega))
    else
      .ok ((unit.map Char.ofNat).widen (by simp only [List.length_cons]; omega))
  | c :: rest =>
    match shortEscape? c with
    | some d => .ok ⟨d, rest, by simp only [List.length_cons]; omega⟩
    | none => .error .malformed

/-- The rest of a string up to its closing quote; `done` are the characters read so far, the last
one first. -/
def stringRest (bound : Nat) (done cs : List Char) (h : cs.length ≤ bound) : Result String bound :=
  match cs, h with
  | [], _ => .error .endOfInput
  | '"' :: rest, h => .ok ⟨String.ofList done.reverse, rest, h⟩
  | '\\' :: rest, h =>
    match escaped rest with
    | .error fault => .error fault
    | .ok r => stringRest bound (r.value :: done) r.rest
        (by have := r.shorter; simp only [List.length_cons] at h; omega)
  | c :: rest, h =>
    if c.toNat < 0x20 then .error .malformed
    else stringRest bound (c :: done) rest (by simp only [List.length_cons] at h; omega)
termination_by cs.length
decreasing_by
  · have := r.shorter; simp only [List.length_cons]; omega
  · simp only [List.length_cons]; omega

/-! ## Numbers -/

/-- At least one digit must follow. The text stops too early when nothing does. -/
def digits (cs : List Char) : Result (List Char) cs.length :=
  match cs with
  | [] => .error .endOfInput
  | c :: rest =>
    if c.isDigit then
      .ok ⟨c :: rest.takeWhile Char.isDigit, rest.dropWhile Char.isDigit,
        Nat.lt_succ_of_le (List.dropWhile_suffix Char.isDigit).length_le⟩
    else .error .malformed

/-- Digits without a leading zero, or one zero alone. -/
def wholePart (cs : List Char) : Result (List Char) cs.length := do
  let r ← digits cs
  match r.value with
  | '0' :: _ :: _ => .error .malformed
  | _ => .ok r

/-- A point and digits, if a point comes next. -/
def fractionPart (cs : List Char) : Result (Option (List Char)) (cs.length + 1) :=
  match cs with
  | '.' :: rest => do
    let r ← digits rest
    .ok ((r.map some).widen (by simp only [List.length_cons]; omega))
  | rest => .ok ⟨none, rest, Nat.lt_succ_self _⟩

/-- The sign of an exponent, `true` for minus, and what follows it. -/
def exponentSign : List Char → Bool × List Char
  | '+' :: rest => (false, rest)
  | '-' :: rest => (true, rest)
  | rest => (false, rest)

theorem length_exponentSign_le (cs : List Char) : (exponentSign cs).2.length ≤ cs.length := by
  unfold exponentSign
  split <;> simp

/-- An exponent with its sign, if an `e` comes next. -/
def exponentPart (cs : List Char) : Result (Option (Bool × List Char)) (cs.length + 1) :=
  match cs with
  | [] => .ok ⟨none, [], Nat.lt_succ_self _⟩
  | c :: rest =>
    if c = 'e' ∨ c = 'E' then do
      let r ← digits (exponentSign rest).2
      have := length_exponentSign_le rest
      .ok ((r.map fun ds => some ((exponentSign rest).1, ds)).widen
        (by simp only [List.length_cons]; omega))
    else .ok ⟨none, c :: rest, Nat.lt_succ_self _⟩

def number (negative : Bool) (cs : List Char) : Result Json cs.length := do
  let whole ← wholePart cs
  let fraction ← fractionPart whole.rest
  let exponent ← exponentPart fraction.rest
  let numeral : Numeral := ⟨negative, whole.value, fraction.value, exponent.value⟩
  have shorter : exponent.rest.length < cs.length := by
    have := whole.shorter; have := fraction.shorter; have := exponent.shorter; omega
  match numeral.integer? with
  | some n => .ok ⟨.integer n, exponent.rest, shorter⟩
  | none =>
    match numeral.real? with
    | some x => .ok ⟨.real x, exponent.rest, shorter⟩
    | none => .error .malformed

/-! ## Values -/

/-- The rest of a word whose first letter was read. -/
def word (letters : List Char) (value : Json) (cs : List Char) : Result Json (cs.length + 1) :=
  match letters, cs with
  | [], cs => .ok ⟨value, cs, Nat.lt_succ_self _⟩
  | _ :: _, [] => .error .endOfInput
  | l :: letters, c :: cs =>
    if c = l then (word letters value cs).map (·.widen (by simp only [List.length_cons]; omega))
    else .error .malformed

/-- Arrays and objects may stand in each other this many levels deep. -/
def depthBound : Nat := 127

mutual

/-- A value in which `depth` further levels of arrays and objects may stand. -/
def value (depth : Nat) (cs : List Char) : Result Json cs.length :=
  match symbol cs with
  | .error fault => .error fault
  | .ok ⟨c, rest, shorter⟩ =>
    match c, depth with
    | '"', _ => (stringRest cs.length [] rest (Nat.le_of_lt shorter)).map (·.map Json.string)
    | '[', 0 | '{', 0 => .error .malformed
    | '[', depth + 1 =>
      match symbol rest with
      | .ok ⟨']', rest', closed⟩ => .ok ⟨.array [], rest', Nat.lt_trans closed shorter⟩
      | _ => (elements depth [] cs.length rest shorter).map (·.map Json.array)
    | '{', depth + 1 =>
      match symbol rest with
      | .ok ⟨'}', rest', closed⟩ => .ok ⟨.ofFields [], rest', Nat.lt_trans closed shorter⟩
      | _ => (members depth [] cs.length rest shorter).map (·.map Json.ofFields)
    | 't', _ => (word ['r', 'u', 'e'] (.bool true) rest).map (·.widen shorter)
    | 'f', _ => (word ['a', 'l', 's', 'e'] (.bool false) rest).map (·.widen shorter)
    | 'n', _ => (word ['u', 'l', 'l'] .null rest).map (·.widen shorter)
    | '-', _ => (number true rest).map (·.widen (Nat.le_of_lt shorter))
    | c, _ =>
      if c.isDigit then (number false (c :: rest)).map (·.widen shorter) else .error .malformed
termination_by (cs.length, 0)

/-- The elements of an array up to its closing bracket; `done` are those read so far, the last one
first. -/
def elements (depth : Nat) (done : List Json) (bound : Nat) (cs : List Char)
    (h : cs.length < bound) : Result (List Json) bound :=
  match value depth cs with
  | .error fault => .error fault
  | .ok item =>
    match symbol item.rest with
    | .error fault => .error fault
    | .ok ⟨c, rest, behindItem⟩ =>
      have shorter := Nat.lt_trans behindItem item.shorter
      match c with
      | ']' => .ok ⟨(item.value :: done).reverse, rest, Nat.lt_trans shorter h⟩
      | ',' => elements depth (item.value :: done) bound rest (Nat.lt_trans shorter h)
      | _ => .error .malformed
termination_by (cs.length, 1)

/-- The fields of an object up to its closing brace; `done` are those read so far, the last one
first. -/
def members (depth : Nat) (done : List (String × Json)) (bound : Nat) (cs : List Char)
    (h : cs.length < bound) : Result (List (String × Json)) bound :=
  match symbol cs with
  | .error fault => .error fault
  | .ok ⟨quote, behindQuote, shorter₁⟩ =>
    if quote ≠ '"' then .error .malformed
    else match stringRest cs.length [] behindQuote (Nat.le_of_lt shorter₁) with
    | .error fault => .error fault
    | .ok name =>
      match symbol name.rest with
      | .error fault => .error fault
      | .ok ⟨colon, behindColon, shorter₂⟩ =>
        have shorter₃ := Nat.lt_trans shorter₂ name.shorter
        if colon ≠ ':' then .error .malformed
        else match value depth behindColon with
        | .error fault => .error fault
        | .ok item =>
          match symbol item.rest with
          | .error fault => .error fault
          | .ok ⟨c, rest, shorter₄⟩ =>
            have shorter := Nat.lt_trans (Nat.lt_trans shorter₄ item.shorter) shorter₃
            let done := (name.value, item.value) :: done
            match c with
            | '}' => .ok ⟨done.reverse, rest, Nat.lt_trans shorter h⟩
            | ',' => members depth done bound rest (Nat.lt_trans shorter h)
            | _ => .error .malformed
termination_by (cs.length, 1)

end

/-- Reads a whole text, which holds one value and no more. -/
def read (text : String) : Except Fault Json :=
  match value depthBound text.toList with
  | .error fault => .error fault
  | .ok r => if skipGap r.rest = [] then .ok r.value else .error .malformed

end Kql.Json
