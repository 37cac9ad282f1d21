/-
# Paths and their segments

Cutting a path at its slashes loses nothing (`segments_injective`), and it goes along with what is
appended: a slash ends a segment (`segments_slash`), and a text without slashes goes to the last one
(`segments_append`).

A *plain* path is one whose segments are all names of entries: none is empty, `.` or `..`.  It keeps to
the directory that it is joined to, and a file name extension keeps it plain (`PlainPath.dotted`).  The
extension can be told from the name, which may hold dots of its own (`dotted_inj`).
-/
import Mathlib.Data.List.Basic
import UnitBake.Source.Path

namespace UnitBake

/-! ## 1. Cutting at slashes -/

/-- What cutting at slashes is in general. -/
theorem cutAtSlashes_eq_splitOn (cs : List Char) : cutAtSlashes cs = cs.splitOn '/' := by
  induction cs with
  | nil => rfl
  | cons c rest ih =>
    rw [cutAtSlashes, ih, List.splitOn_cons_eq_if_modifyHead]
    cases hrest : rest.splitOn '/' with
    | nil => exact absurd hrest (List.splitOn_ne_nil '/' rest)
    | cons s more => simp only [List.modifyHead_cons, beq_iff_eq]

/-- The pieces of a list tell the list. -/
theorem splitOn_injective {α : Type} [BEq α] [LawfulBEq α] (a : α) :
    Function.Injective (List.splitOn a) :=
  Function.LeftInverse.injective fun _ => List.intercalate_splitOn a

theorem segments_injective : Function.Injective segments := by
  intro a b h
  simp only [segments, cutAtSlashes_eq_splitOn] at h
  have hpieces := List.map_injective_iff.mpr (fun _ _ => String.ofList_injective) h
  exact String.toList_inj.mp (splitOn_injective '/' hpieces)

/-- A slash ends a segment. -/
theorem segments_slash (a b : String) : segments (a ++ "/" ++ b) = segments a ++ segments b := by
  have hlist : (a ++ "/" ++ b).toList = a.toList ++ '/' :: b.toList := by simp
  rw [segments, segments, segments, hlist, cutAtSlashes_eq_splitOn, cutAtSlashes_eq_splitOn,
    cutAtSlashes_eq_splitOn, List.splitOn_append_cons_self, List.map_append]

/-- Behind a slash at the end stands an empty segment. -/
theorem segments_append_slash (a : String) : segments (a ++ "/") = segments a ++ [""] := by
  have h := segments_slash a ""
  rwa [String.append_empty] at h

theorem segments_of_no_slash {name : String} (h : '/' ∉ name.toList) : segments name = [name] := by
  rw [segments, cutAtSlashes_eq_splitOn, List.splitOn_eq_singleton h]
  simp

/-- A path is cut before its last segment, in which there is no slash. -/
theorem eq_append_last (path : String) :
    '/' ∉ path.toList ∨ ∃ front last, path = front ++ "/" ++ last ∧ '/' ∉ last.toList := by
  by_cases h : '/' ∈ path.toList
  · obtain ⟨back, front, hsplit, hback⟩ := List.eq_append_cons_of_mem (List.mem_reverse.mpr h)
    refine .inr ⟨.ofList front.reverse, .ofList back.reverse, ?_, by simpa using hback⟩
    rw [← String.toList_inj]
    simpa using congrArg List.reverse hsplit
  · exact .inl h

/-- What has no slash goes to the last segment. -/
theorem segments_append (path : String) {t : String} (ht : '/' ∉ t.toList) :
    ∃ front last, segments path = front ++ [last] ∧ segments (path ++ t) = front ++ [last ++ t] := by
  rcases eq_append_last path with h | ⟨front, last, rfl, hlast⟩
  · refine ⟨[], path, segments_of_no_slash h, segments_of_no_slash ?_⟩
    simp [h, ht]
  · refine ⟨segments front, last, ?_, ?_⟩
    · rw [segments_slash, segments_of_no_slash hlast]
    · have hboth : '/' ∉ (last ++ t).toList := by simp [hlast, ht]
      rw [show front ++ "/" ++ last ++ t = front ++ "/" ++ (last ++ t) from String.append_assoc,
        segments_slash, segments_of_no_slash hboth]

/-- What is appended does not make a path absolute. -/
theorem isAbsolute_append {a : String} (h : a ≠ "") (b : String) :
    isAbsolute (a ++ b) = isAbsolute a := by
  have hne : a.toList ≠ [] := fun hnil => h (String.toList_inj.mp hnil)
  rw [isAbsolute, isAbsolute, String.toList_append, List.head?_append_of_ne_nil _ hne]

/-- A path that ends in a slash is a path before that slash. -/
theorem exists_of_endsInSlash {path : String} (h : endsInSlash path = true) :
    ∃ front, path = front ++ "/" := by
  obtain ⟨front, hfront⟩ := List.getLast?_eq_some_iff.mp (eq_of_beq h)
  exact ⟨.ofList front, String.toList_inj.mp (by simpa using hfront)⟩

/-! ## 2. Plain paths -/

/-- Every segment is the name of an entry. -/
def PlainPath (path : String) : Prop := ∀ s ∈ segments path, s ≠ "" ∧ s ≠ "." ∧ s ≠ ".."

instance (path : String) : Decidable (PlainPath path) :=
  inferInstanceAs (Decidable (∀ s ∈ segments path, s ≠ "" ∧ s ≠ "." ∧ s ≠ ".."))

/-- A kind whose resources can be kept in files that have it for an extension. -/
def PlainKind (kind : String) : Prop := '.' ∉ kind.toList ∧ '/' ∉ kind.toList

instance (kind : String) : Decidable (PlainKind kind) :=
  inferInstanceAs (Decidable ('.' ∉ kind.toList ∧ '/' ∉ kind.toList))

/-- A plain path starts from the directory that it is looked up in. -/
theorem PlainPath.not_isAbsolute {path : String} (h : PlainPath path) : isAbsolute path = false := by
  rw [Bool.eq_false_iff]
  intro habsolute
  obtain ⟨rest, hrest⟩ := List.head?_eq_some_iff.mp (eq_of_beq habsolute)
  have hpath : path = "" ++ "/" ++ .ofList rest := String.toList_inj.mp (by simpa using hrest)
  refine (h "" ?_).1 rfl
  rw [hpath, segments_slash]
  exact List.mem_append_left _ (List.mem_singleton_self _)

/-- **An extension keeps a path plain.** -/
theorem PlainPath.dotted {name kind : String} (hname : PlainPath name) (hkind : PlainKind kind) :
    PlainPath (name ++ "." ++ kind) := by
  have hslash : '/' ∉ ("." ++ kind).toList := by simpa using hkind.2
  obtain ⟨front, last, hsegments, hdotted⟩ := segments_append name hslash
  rw [← String.append_assoc] at hdotted
  rw [PlainPath, hsegments, List.forall_mem_append] at hname
  rw [PlainPath, hdotted, List.forall_mem_append]
  refine ⟨hname.1, List.forall_mem_singleton.mpr ?_⟩
  obtain ⟨hempty, hdot, -⟩ := hname.2 last (List.mem_singleton_self _)
  simp only [ne_eq, ← String.toList_inj, String.toList_append] at hempty hdot ⊢
  -- with nothing more than a dot before the extension, the name would end in an empty segment or `.`
  cases hlast : last.toList with
  | nil => exact absurd hlast hempty
  | cons c rest => cases rest <;> simp_all

/-- **The extension is what stands behind the last dot.** -/
theorem dotted_inj {name name' kind kind' : String} (hkind : PlainKind kind)
    (hkind' : PlainKind kind') (h : name ++ "." ++ kind = name' ++ "." ++ kind') :
    name = name' ∧ kind = kind' := by
  have hlist : name.toList ++ '.' :: kind.toList = name'.toList ++ '.' :: kind'.toList := by
    simpa using congrArg String.toList h
  have hpieces := congrArg (List.splitOn '.') hlist
  rw [List.splitOn_append_cons_self, List.splitOn_append_cons_self,
    List.splitOn_eq_singleton hkind.1, List.splitOn_eq_singleton hkind'.1] at hpieces
  obtain ⟨hfront, hlast⟩ := List.append_inj' hpieces rfl
  exact ⟨String.toList_inj.mp (splitOn_injective '.' hfront),
    String.toList_inj.mp (List.singleton_inj.mp hlast)⟩

end UnitBake
