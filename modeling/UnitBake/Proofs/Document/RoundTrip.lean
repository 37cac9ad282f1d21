/-
# Documents survive writing and reading

A document leaves out what it does not have: a parent, overrides, the id of a component.  What is left
out is read as not there, and what is written reads back, so `Document.read` undoes `Document.toJson`
(`Document.read_toJson`).

It rests on its parts.  An id is written in groups, which are taken apart as they were joined, and its
text has the 36 bytes of this spelling (`Guid.read_text`).  Lists and tables read back if their
items do (`Shape.items_map`, `Shape.table_map_entries`), a table because it is that of its own entries.
The data of a component is any tree, and is taken as it is.
-/
import Mathlib.Algebra.Ring.Nat
import UnitBake.Document
import UnitBake.Proofs.Shape.Fields

namespace UnitBake

namespace Guid

/-! ## 1. Ids -/

/-- Written digits read back. -/
theorem mapM_digit? : ∀ ds : List (Fin 16), (ds.map Hex.digit).mapM Hex.digit? = some ds
  | [] => rfl
  | d :: ds => by
    rw [List.map_cons, List.mapM_cons, Hex.digit?_digit, mapM_digit? ds]
    rfl

theorem length_map_digit (g : Guid) : (g.digits.map Hex.digit).length = groupLengths.sum := by
  rw [List.length_map, g.length_digits]
  rfl

theorem ofDigits?_map_digit (g : Guid) : ofDigits? (g.digits.map Hex.digit) = some g := by
  simp only [ofDigits?, mapM_digit?, g.length_digits]
  rfl

theorem hyphenate_cons (n m : Nat) (ns : List Nat) (cs : List Char) :
    hyphenate (n :: m :: ns) cs = cs.take n ++ '-' :: hyphenate (m :: ns) (cs.drop n) := rfl

/-- A group in front is taken out, if a hyphen follows it. -/
theorem unhyphenate?_cons {n : Nat} {front : List Char} (h : front.length = n) (m : Nat)
    (ns : List Nat) (rest : List Char) :
    unhyphenate? (n :: m :: ns) (front ++ '-' :: rest) =
      (unhyphenate? (m :: ns) rest).map (front ++ ·) := by
  rw [unhyphenate?, List.drop_left' h, List.take_left' h]
  · rfl
  · exact List.cons_ne_nil m ns

/-- A text as long as all groups has a first group and the others behind it. -/
theorem lengths_of_sum {n : Nat} {ns : List Nat} {cs : List Char}
    (h : cs.length = (n :: ns).sum) : (cs.take n).length = n ∧ (cs.drop n).length = ns.sum := by
  rw [List.sum_cons] at h
  rw [List.length_take, List.length_drop]
  omega

/-- **Groups are taken out as they were cut.** -/
theorem unhyphenate?_hyphenate : ∀ {ns : List Nat} {cs : List Char}, ns ≠ [] →
    cs.length = ns.sum → unhyphenate? ns (hyphenate ns cs) = some cs
  | [], _, hne, _ => absurd rfl hne
  | [n], cs, _, hlength => by
    have hn : cs.length = n := by simpa using hlength
    rw [hyphenate, unhyphenate?, List.take_of_length_le (Nat.le_of_eq hn), if_pos hn]
  | n :: m :: ns, cs, _, hlength => by
    obtain ⟨hfirst, hothers⟩ := lengths_of_sum hlength
    have hrest := unhyphenate?_hyphenate (List.cons_ne_nil m ns) hothers
    rw [hyphenate_cons, unhyphenate?_cons hfirst, hrest, Option.map_some, List.take_append_drop]

/-- Between two groups stands one hyphen. -/
theorem length_hyphenate : ∀ {ns : List Nat} {cs : List Char},
    cs.length = ns.sum → (hyphenate ns cs).length = ns.sum + (ns.length - 1)
  | [], _, _ => rfl
  | [n], cs, h => by
    have hn : cs.length = n := by simpa using h
    rw [hyphenate, List.length_take, hn, Nat.min_self]
    rfl
  | n :: m :: ns, cs, h => by
    obtain ⟨hfirst, hothers⟩ := lengths_of_sum h
    have hrest := length_hyphenate hothers
    simp only [hyphenate_cons, List.length_append, List.length_cons, List.sum_cons, hfirst, hrest]
    omega

theorem mem_hyphenate {c : Char} : ∀ {ns : List Nat} {cs : List Char},
    c ∈ hyphenate ns cs → c = '-' ∨ c ∈ cs
  | [], _, h => by cases h
  | [n], cs, h => Or.inr (List.mem_of_mem_take h)
  | n :: m :: ns, cs, h => by
    rcases List.mem_append.mp h with h | h
    · exact Or.inr (List.mem_of_mem_take h)
    · rcases List.mem_cons.mp h with h | h
      · exact Or.inl h
      · exact (mem_hyphenate h).imp_right List.mem_of_mem_drop

theorem utf8Size_digit (d : Fin 16) : (Hex.digit d).utf8Size = 1 := by
  revert d
  decide

/-- Characters of one byte each have as many bytes as there are. -/
theorem utf8Sizes_of_forall : ∀ {cs : List Char}, (∀ c ∈ cs, c.utf8Size = 1) →
    utf8Sizes cs = cs.length
  | [], _ => rfl
  | c :: cs, h => by
    obtain ⟨hc, hcs⟩ := List.forall_mem_cons.mp h
    rw [utf8Sizes, hc, utf8Sizes_of_forall hcs, List.length_cons, Nat.add_comm]

/-- A written id has 36 bytes. -/
theorem utf8Size_text (g : Guid) : utf8Size g.text = 36 := by
  have hbytes : ∀ c ∈ g.chars, c.utf8Size = 1 := by
    intro c hc
    rcases mem_hyphenate hc with rfl | hc
    · rfl
    · obtain ⟨d, -, rfl⟩ := List.mem_map.mp hc
      exact utf8Size_digit d
  rw [utf8Size, text, String.toList_ofList, utf8Sizes_of_forall hbytes, chars,
    length_hyphenate g.length_map_digit]
  rfl

/-- **A written id reads back.** -/
theorem read_text (g : Guid) : read g.text = .ok g := by
  have hgroups : ofGroups? g.chars = some g := by
    rw [ofGroups?, chars, unhyphenate?_hyphenate (by decide) g.length_map_digit]
    exact ofDigits?_map_digit g
  rw [read, utf8Size_text, text, String.toList_ofList]
  simp only [groupsOf?, if_true, hgroups]

end Guid

namespace Shape

/-! ## 2. Lists and tables -/

variable {α : Type} {read : Json → Except ShapeError α} {write : α → Json}

theorem items_map (h : ∀ x, read (write x) = .ok x) : ∀ xs : List α,
    items read (xs.map write) = .ok xs
  | [] => rfl
  | x :: xs => by
    rw [List.map_cons, items, h x, items_map h xs]
    rfl

theorem members_map (h : ∀ x, read (write x) = .ok x) :
    ∀ (es : List (String × α)) (t : Table String α),
      members read t (es.map fun e => (e.1, write e.2)) =
        .ok (es.foldl (fun t e => t.insert e.1 e.2) t)
  | [], _ => rfl
  | e :: es, t => by
    rw [List.map_cons, members, h e.2, List.foldl_cons, ← members_map h es]
    rfl

/-- A table reads back from its entries. -/
theorem table_map_entries (h : ∀ x, read (write x) = .ok x) (t : Table String α) :
    table read (.object (t.entries.map fun e => (e.1, write e.2))) = .ok t := by
  rw [table, members_map h]
  exact congrArg Except.ok t.ofList_entries

theorem guid_text (g : Guid) : guid (.text g.text) = .ok g := by
  rw [guid, Guid.read_text]
  rfl

end Shape

/-! ## 3. Components and documents -/

/-- **A written component reads back.** -/
theorem Component.read_toJson (c : Component) : read c.toJson = .ok c := by
  obtain ⟨id, typeName, data⟩ := c
  have hvalues : Shape.values "ComponentFragment" fields (toJson ⟨id, typeName, data⟩) =
      .ok (id, typeName, data, ()) := by
    cases id with
    | none => exact Shape.values_of_reads (by decide) (by simp) ⟨rfl, rfl, rfl, trivial⟩
    | some g =>
      have hid : Shape.optional Shape.guid (.text g.text) = .ok (some g) := by
        change (Shape.guid (.text g.text)).map some = .ok (some g)
        rw [Shape.guid_text]
        rfl
      exact Shape.values_of_reads (by decide) (by simp) ⟨hid, rfl, rfl, trivial⟩
  rw [read, hvalues]

/-- **A written document reads back.** -/
theorem Document.read_toJson (d : Document) : read d.toJson = .ok d := by
  obtain ⟨parent, overrides, components⟩ := d
  have hcomponents : Shape.list Component.read (.list (components.map Component.toJson)) =
      .ok components :=
    Shape.items_map Component.read_toJson components
  have hoverrides := Shape.table_map_entries Component.read_toJson overrides
  have hvalues : Shape.values "UnitDocument" fields (toJson ⟨parent, overrides, components⟩) =
      .ok (parent, overrides, components, ()) := by
    cases hentries : overrides.entries with
    | nil =>
      -- overrides are not written, and the default stands for them
      obtain rfl : overrides = .empty := Table.ext hentries
      cases parent with
      | none => exact Shape.values_of_reads (by decide) (by simp) ⟨rfl, rfl, hcomponents, trivial⟩
      | some p => exact Shape.values_of_reads (by decide) (by simp) ⟨rfl, rfl, hcomponents, trivial⟩
    | cons e es =>
      rw [hentries] at hoverrides
      rw [toJson, hentries]
      cases parent with
      | none =>
        exact Shape.values_of_reads (by decide) (by simp) ⟨rfl, hoverrides, hcomponents, trivial⟩
      | some p =>
        exact Shape.values_of_reads (by decide) (by simp) ⟨rfl, hoverrides, hcomponents, trivial⟩
  rw [read, hvalues]

end UnitBake
