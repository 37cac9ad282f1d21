/-
# Component ids in unit documents

The ids of component fragments in the specification (section 3), which override keys repeat (section
4.3).

A `Guid` is 128 bits, kept as the 32 hexadecimal digits of its text.  It is written in lower case in
five groups joined by hyphens.  Four spellings are read, with digits in either case: the digits
alone, the five groups, the groups in braces, and the groups after `urn:uuid:`.

A text in none of these spellings is refused with the first fault of its characters, of the number of
its groups, or of their lengths.
-/
import UnitBake.Bytes.Utf8
import UnitBake.Text.Hex

namespace UnitBake

/-- A 128-bit identifier, most significant digit first. -/
structure Guid where
  digits : List (Fin 16)
  length_digits : digits.length = 32
deriving DecidableEq

/-- Why a text is not an identifier.  Lengths and indices count bytes. -/
inductive GuidError where
  | length (found : Nat)
  | character (c : Char) (index : Nat)
  | groupCount (found : Nat)
  | groupLength (group expected found : Nat)
deriving DecidableEq, Repr

/-- The text of the error. -/
def GuidError.message : GuidError → String
  | .length n => "invalid length: found " ++ toString n
  | .character c i => "invalid character: found `" ++ c.toString ++ "` at " ++ toString i
  | .groupCount n => "invalid group count: expected 5, found " ++ toString n
  | .groupLength g e n =>
    "invalid group length in group " ++ toString g ++ ": expected " ++ toString e ++ ", found " ++
      toString n

namespace Guid

instance : Repr Guid where
  reprPrec g _ := repr (String.ofList (g.digits.map Hex.digit))

instance : Inhabited Guid := ⟨⟨List.replicate 32 0, by simp⟩⟩

/-! ## 1. Writing -/

/-- The lengths of the five groups. -/
def groupLengths : List Nat := [8, 4, 4, 4, 12]

/-- Cuts a text into groups and joins them by hyphens. -/
def hyphenate : List Nat → List Char → List Char
  | [], _ => []
  | [n], cs => cs.take n
  | n :: ns, cs => cs.take n ++ '-' :: hyphenate ns (cs.drop n)

/-- The five groups of lower-case digits. -/
def chars (g : Guid) : List Char := hyphenate groupLengths (g.digits.map Hex.digit)

/-- The identifier as text. -/
def text (g : Guid) : String := String.ofList g.chars

/-! ## 2. The spellings -/

/-- The identifier whose 32 digits are given. -/
def ofDigits? (cs : List Char) : Option Guid :=
  match cs.mapM Hex.digit? with
  | none => none
  | some ds => if h : ds.length = 32 then some ⟨ds, h⟩ else none

/-- Takes the hyphens out of a text that consists of groups of the given lengths. -/
def unhyphenate? : List Nat → List Char → Option (List Char)
  | [], cs => if cs.isEmpty then some [] else none
  | [n], cs => if cs.length = n then some cs else none
  | n :: ns, cs =>
    match cs.drop n with
    | '-' :: rest => (unhyphenate? ns rest).map (cs.take n ++ ·)
    | _ => none

/-- The identifier whose five groups are given. -/
def ofGroups? (cs : List Char) : Option Guid :=
  (unhyphenate? groupLengths cs).bind ofDigits?

/-- The letters before an identifier in its spelling as a resource name. -/
def urnMark : List Char := ['u', 'r', 'n', ':', 'u', 'u', 'i', 'd', ':']

/-- The text behind `urn:uuid:`, in any case. -/
def afterUrn? (cs : List Char) : Option (List Char) :=
  if (cs.take 9).map Char.toLower = urnMark then some (cs.drop 9) else none

/-- The text between braces. -/
def inBraces? (cs : List Char) : Option (List Char) :=
  match cs with
  | '\x7b' :: rest => if rest.getLast? = some '\x7d' then some rest.dropLast else none
  | _ => none

/-- The five groups of a text that has the size, in bytes, of one of the spellings with groups. -/
def groupsOf? (size : Nat) (cs : List Char) : Option (List Char) :=
  if size = 36 then some cs
  else if size = 38 then inBraces? cs
  else if size = 45 then afterUrn? cs
  else none

/-! ## 3. What is wrong with a text -/

/-- The positions of the hyphens in a text of digits and hyphens; the character that is neither,
with its position counted from `offset`, if there is one. -/
def hyphens (offset : Nat) : Nat → List Char → Except GuidError (List Nat)
  | _, [] => .ok []
  | i, c :: rest =>
    if (Hex.digit? c).isSome then hyphens offset (i + 1) rest
    else if c = '-' then (hyphens offset (i + 1) rest).map (i :: ·)
    else .error (.character c (offset + i))

/-- The first group that does not end where it should, given the positions of the four hyphens, the
group's number and the place where it starts. -/
def badGroup? : List Nat → List Nat → Nat → Nat → Option GuidError
  | hyphen :: hs, n :: ns, group, start =>
    if hyphen = start + n then badGroup? hs ns (group + 1) (start + n + 1)
    else some (.groupLength group n (hyphen - start))
  | _, _, _, _ => none

/-- The fault of a body that stands behind `offset` bytes of a text of `size` bytes.  A body without
hyphens is refused for its length if the text has neither braces nor `urn:uuid:` around it. -/
def diagnoseBody (isBare : Bool) (size offset : Nat) (body : List Char) : GuidError :=
  match hyphens offset 0 body with
  | .error e => e
  | .ok hs =>
    if isBare ∧ hs = [] then .length size
    else if hs.length ≠ 4 then .groupCount (hs.length + 1)
    else (badGroup? hs groupLengths 0 0).getD (.groupLength 4 12 (size - 24))

/-- The fault of a text that has the size of no spelling with groups. -/
def diagnose (size : Nat) (cs : List Char) : GuidError :=
  if size = 0 ∨ 45 < size then .length size
  else
    match inBraces? cs, afterUrn? cs with
    | some body, _ => diagnoseBody false size 1 body
    | none, some body => diagnoseBody false size 9 body
    | none, none => diagnoseBody true size 0 cs

/-- Reads an identifier.  A text that has the size of a spelling with groups is judged by its groups
alone, and positions in them count from their start. -/
def read (s : String) : Except GuidError Guid :=
  match groupsOf? (utf8Size s) s.toList with
  | some groups =>
    match ofGroups? groups with
    | some g => .ok g
    | none => .error (diagnoseBody false 36 0 groups)
  | none =>
    match ofDigits? s.toList with
    | some g => .ok g
    | none => .error (diagnose (utf8Size s) s.toList)

end Guid

end UnitBake
