/-
# Reading JSON text

How the unit files of the specification (section 6) become document trees.

The reader is an automaton over the characters of the text.  A text that is not JSON fails in one of
two ways: some character cannot follow what came before it (`malformed`), or every character may
stand where it stands but the value is not finished at the end (`unfinished`).

Beyond the grammar: containers nest at most 127 deep, a member that comes again replaces the earlier
one, control characters and lone surrogates are refused, and a number too large for a floating-point
number is malformed.
-/
import UnitBake.Bytes.Utf8
import UnitBake.Json.Numeral
import UnitBake.Text.Hex

namespace UnitBake

/-- Why a text is not JSON. -/
inductive TextError where
  | unfinished
  | malformed
deriving DecidableEq, Repr

/-- The class of the failure; which words describe it is left to the reader of the class. -/
def TextError.message : TextError → String
  | .unfinished => "<json eof>"
  | .malformed => "<json syntax>"

namespace Json.Reader

/-! ## 1. States -/

/-- A container that waits for a value: a list with its items so far, last first, or an object with
its other members and the key of the value. -/
inductive Frame where
  | list (items : List Json)
  | member (members : List (String × Json)) (key : String)

/-- Where the reading of a text in quotes stands.  In an escape by code unit, `lead` is the leading
surrogate that came before, and `seen` what has been read of the four digits, last first. -/
inductive Escape where
  | plain
  | backslash
  | unit (lead : Option Nat) (seen : List Char)
  | trailBackslash (lead : Nat)
  | trailMark (lead : Nat)

/-- What is being read. -/
inductive Mode where
  | value
  | firstItem
  | afterItem (items : List Json)
  | firstKey
  | nextKey (members : List (String × Json))
  | colon (members : List (String × Json)) (key : String)
  | afterMember (members : List (String × Json))
  | word (rest : List Char) (value : Json)
  | numeral (n : Numeral)
  | text (chars : List Char) (escape : Escape)
  | key (members : List (String × Json)) (chars : List Char) (escape : Escape)
  | finished (value : Json)

/-- The containers that wait for a value, innermost first, and what is being read. -/
structure State where
  frames : List Frame
  mode : Mode

/-- The deepest nesting of containers. -/
def maxNesting : Nat := 127

/-- Before the first character. -/
def State.start : State := ⟨[], .value⟩

/-! ## 2. Values -/

/-- Gives a finished value to the container that waits for it. -/
def complete (frames : List Frame) (v : Json) : State :=
  match frames with
  | [] => ⟨[], .finished v⟩
  | .list items :: rest => ⟨rest, .afterItem (v :: items)⟩
  | .member members key :: rest => ⟨rest, .afterMember (Entries.put key v members)⟩

/-- Begins a value with its first character. -/
def begin (frames : List Frame) (c : Char) : Except TextError State :=
  if c = 'n' then .ok ⟨frames, .word ['u', 'l', 'l'] .null⟩
  else if c = 't' then .ok ⟨frames, .word ['r', 'u', 'e'] (.bool true)⟩
  else if c = 'f' then .ok ⟨frames, .word ['a', 'l', 's', 'e'] (.bool false)⟩
  else if c = '"' then .ok ⟨frames, .text [] .plain⟩
  else if c = '[' ∨ c = '{' then
    if frames.length < maxNesting then .ok ⟨frames, if c = '[' then .firstItem else .firstKey⟩
    else .error .malformed
  else
    match Numeral.start? c with
    | some n => .ok ⟨frames, .numeral n⟩
    | none => .error .malformed

/-- Begins a key, for which only a quote will do. -/
def beginKey (frames : List Frame) (members : List (String × Json)) (c : Char) :
    Except TextError State :=
  if c = '"' then .ok ⟨frames, .key members [] .plain⟩ else .error .malformed

/-! ## 3. Texts in quotes -/

/-- What a character inside quotes leads to. -/
inductive TextStep where
  | more (chars : List Char) (escape : Escape)
  | closed (value : String)
  | malformed

/-- The character a letter behind a backslash stands for. -/
def escaped? (c : Char) : Option Char :=
  if c = '"' ∨ c = '\\' ∨ c = '/' then some c
  else if c = 'b' then some '\x08'
  else if c = 'f' then some '\x0c'
  else if c = 'n' then some '\n'
  else if c = 'r' then some '\r'
  else if c = 't' then some '\t'
  else none

/-- The code unit given by four hexadecimal digits, last first. -/
def unitOf? (seen : List Char) : Option Nat :=
  if seen.length = 4 then
    seen.foldr (fun c acc => acc.bind fun n => (Hex.digit? c).map fun d => 16 * n + d.val) (some 0)
  else none

/-- Whether a code unit is a leading surrogate. -/
def isLead (n : Nat) : Bool := decide (0xD800 ≤ n) && decide (n ≤ 0xDBFF)

/-- Whether a code unit is a trailing surrogate. -/
def isTrail (n : Nat) : Bool := decide (0xDC00 ≤ n) && decide (n ≤ 0xDFFF)

/-- Takes up a finished code unit.  Surrogates come in pairs, the leading one first. -/
def takeUnit (chars : List Char) (lead : Option Nat) (n : Nat) : TextStep :=
  match lead with
  | none =>
    if isTrail n then .malformed
    else if isLead n then .more chars (.trailBackslash n)
    else .more (Char.ofNat n :: chars) .plain
  | some hi =>
    if isTrail n then
      .more (Char.ofNat (0x10000 + (hi - 0xD800) * 0x400 + (n - 0xDC00)) :: chars) .plain
    else .malformed

/-- Reads one character inside quotes.  The digits of a code unit are judged once four bytes are
there. -/
def textStep (chars : List Char) (escape : Escape) (c : Char) : TextStep :=
  match escape with
  | .plain =>
    if c = '"' then .closed (String.ofList chars.reverse)
    else if c = '\\' then .more chars .backslash
    else if c.toNat < 0x20 then .malformed
    else .more (c :: chars) .plain
  | .backslash =>
    if c = 'u' then .more chars (.unit none [])
    else
      match escaped? c with
      | some e => .more (e :: chars) .plain
      | none => .malformed
  | .unit lead seen =>
    let seen := c :: seen
    if utf8Sizes seen < 4 then .more chars (.unit lead seen)
    else
      match unitOf? seen with
      | some n => takeUnit chars lead n
      | none => .malformed
  | .trailBackslash lead => if c = '\\' then .more chars (.trailMark lead) else .malformed
  | .trailMark lead => if c = 'u' then .more chars (.unit (some lead) []) else .malformed

/-! ## 4. Steps -/

/-- The four characters that may stand between the parts of a value. -/
def isBlank (c : Char) : Bool := c = ' ' || c = '\t' || c = '\n' || c = '\r'

/-- Reads a character that is not blank between the parts of a value. -/
def between (frames : List Frame) (mode : Mode) (c : Char) : Except TextError State :=
  match mode with
  | .value => begin frames c
  | .firstItem =>
    if c = ']' then .ok (complete frames (.list [])) else begin (.list [] :: frames) c
  | .afterItem items =>
    if c = ',' then .ok ⟨.list items :: frames, .value⟩
    else if c = ']' then .ok (complete frames (.list items.reverse))
    else .error .malformed
  | .firstKey =>
    if c = '}' then .ok (complete frames (.object [])) else beginKey frames [] c
  | .nextKey members => beginKey frames members c
  | .colon members key =>
    if c = ':' then .ok ⟨.member members key :: frames, .value⟩ else .error .malformed
  | .afterMember members =>
    if c = ',' then .ok ⟨frames, .nextKey members⟩
    else if c = '}' then .ok (complete frames (.object members))
    else .error .malformed
  | _ => .error .malformed

/-- Reads a character in a state that is not inside a word, numeral or text. -/
def spaced (s : State) (c : Char) : Except TextError State :=
  if isBlank c then .ok s else between s.frames s.mode c

/-- Reads one character. -/
def step (s : State) (c : Char) : Except TextError State :=
  match s.mode with
  | .word rest v =>
    match rest with
    | [] => .error .malformed
    | [d] => if c = d then .ok (complete s.frames v) else .error .malformed
    | d :: rest => if c = d then .ok ⟨s.frames, .word rest v⟩ else .error .malformed
  | .numeral n =>
    match n.step c with
    | .more n => .ok ⟨s.frames, .numeral n⟩
    | .malformed => .error .malformed
    | .ended =>
      match n.value? with
      | some v => spaced (complete s.frames (.number v)) c
      | none => .error .malformed
  | .text chars escape =>
    match textStep chars escape c with
    | .more chars escape => .ok ⟨s.frames, .text chars escape⟩
    | .closed t => .ok (complete s.frames (.text t))
    | .malformed => .error .malformed
  | .key members chars escape =>
    match textStep chars escape c with
    | .more chars escape => .ok ⟨s.frames, .key members chars escape⟩
    | .closed t => .ok ⟨s.frames, .colon members t⟩
    | .malformed => .error .malformed
  | _ => spaced s c

/-- What the end of the text makes of a state. -/
def finish (s : State) : Except TextError Json :=
  match s.mode with
  | .finished v => .ok v
  | .numeral n =>
    if n.complete then
      match n.value? with
      | some v => if s.frames.isEmpty then .ok (.number v) else .error .unfinished
      | none => .error .malformed
    else .error .unfinished
  | _ => .error .unfinished

end Json.Reader

/-- The tree that a JSON text stands for. -/
def Json.read (s : String) : Except TextError Json := do
  Json.Reader.finish (← s.toList.foldlM Json.Reader.step Json.Reader.State.start)

end UnitBake
