/-
# What was written is found

A file that is written under a path is found under that path (`FileSystem.files_write`).  The path is
followed twice, once to write and once to look up, and the second time in another tree.  It leads to
the same place because writing a file loses no directory and no entry of one
(`FileTree.exists_descend?_put`): the entry that is replaced is not a directory, so the path cannot
have gone through it, not even up again by `..`.
-/
import UnitBake.Proofs.Source.Paths
import UnitBake.Source.FileSystem

namespace UnitBake

namespace FileTree

/-! ## 1. Trees -/

/-- Every other entry stays. -/
theorem lookup_putEntry_of_ne {name other : String} (h : other ≠ name) (t : FileTree)
    (entries : List (String × FileTree)) :
    (putEntry name t entries).lookup other = entries.lookup other := by
  induction entries with
  | nil =>
    rw [putEntry, List.lookup_cons, beq_eq_false_iff_ne.mpr h]
  | cons e rest ih =>
    rw [putEntry]
    split
    · next heq =>
      rw [List.lookup_cons, List.lookup_cons, heq, beq_eq_false_iff_ne.mpr h]
    · rw [List.lookup_cons, List.lookup_cons, ih]

/-- An entry that was there is there. -/
theorem isSome_lookup_putEntry {name other : String} {t : FileTree}
    {entries : List (String × FileTree)} (h : (entries.lookup other).isSome = true) :
    ((putEntry name t entries).lookup other).isSome = true := by
  by_cases heq : other = name
  · rw [heq, lookup_putEntry]
    rfl
  · rwa [lookup_putEntry_of_ne heq]

/-- One list of names after the other. -/
theorem descend?_append (here : FileTree) (a b : List String) :
    here.descend? (a ++ b) = (here.descend? a).bind fun there => there.descend? b := by
  induction a generalizing here with
  | nil => rfl
  | cons name rest ih =>
    cases here with
    | file content => rfl
    | directory entries =>
      rw [List.cons_append, descend?, descend?]
      cases entries.lookup name with
      | none => rfl
      | some t => exact ih t

/-- What is behind one more name is an entry of a directory. -/
theorem descend?_concat_eq_some {here t : FileTree} {names : List String} {name : String} :
    here.descend? (names ++ [name]) = some t ↔
      ∃ entries, here.descend? names = some (.directory entries) ∧ entries.lookup name = some t := by
  rw [descend?_append, Option.bind_eq_some_iff]
  constructor
  · rintro ⟨there, hthere, ht⟩
    cases there with
    | file content => cases ht
    | directory entries =>
      refine ⟨entries, hthere, ?_⟩
      rw [descend?] at ht
      cases hlookup : entries.lookup name with
      | none => rw [hlookup] at ht; cases ht
      | some found => rw [hlookup] at ht; exact ht
  · rintro ⟨entries, hentries, hlookup⟩
    refine ⟨.directory entries, hentries, ?_⟩
    rw [descend?, hlookup]
    rfl

/-- **Putting a file where no directory is keeps all directories and their entries.** -/
theorem exists_descend?_put {content : FileContent} : ∀ {names place : List String}
    {here : FileTree} {entries : List (String × FileTree)},
    (∀ gone, here.descend? names ≠ some (.directory gone)) →
    here.descend? place = some (.directory entries) →
      ∃ kept, (put (.file content) names here).descend? place = some (.directory kept) ∧
        ∀ name, (entries.lookup name).isSome = true → (kept.lookup name).isSome = true
  | [], place, here, entries, hnames, hplace => by
    cases here with
    | directory gone => exact absurd rfl (hnames gone)
    | file other => cases place <;> cases hplace
  | name :: rest, place, here, entries, hnames, hplace => by
    cases here with
    | file other => cases place <;> cases hplace
    | directory around =>
      cases place with
      | nil =>
        cases hplace
        exact ⟨_, rfl, fun _ h => isSome_lookup_putEntry h⟩
      | cons first further =>
        rw [put, descend?]
        rw [descend?] at hplace
        by_cases heq : first = name
        · -- into the entry that is put
          subst heq
          rw [lookup_putEntry]
          cases hfirst : around.lookup first with
          | none => simp [hfirst] at hplace
          | some t =>
            rw [hfirst] at hplace
            refine exists_descend?_put (fun gone hgone => hnames gone ?_) hplace
            rw [descend?, hfirst]
            exact hgone
        · rw [lookup_putEntry_of_ne heq]
          exact ⟨entries, hplace, fun _ h => h⟩

end FileTree

namespace FileSystem

variable {fs after : FileSystem} {place : List String}

/-! ## 2. Places -/

/-- Whatever is a directory stays one, with all its entries. -/
def Preserves (fs after : FileSystem) : Prop :=
  ∀ place entries, fs.entriesAt place = .ok entries →
    ∃ kept, after.entriesAt place = .ok kept ∧
      ∀ name, (entries.lookup name).isSome = true → (kept.lookup name).isSome = true

theorem entriesAt_eq_ok {entries : List (String × FileTree)} :
    fs.entriesAt place = .ok entries ↔
      fs.top.descend? place.reverse = some (.directory entries) := by
  rw [entriesAt]
  split <;> simp_all

/-- A segment leads where it led. -/
theorem Preserves.step (h : fs.Preserves after) {segment : String} {reached : List String}
    (hstep : fs.step place segment = .ok reached) : after.step place segment = .ok reached := by
  rw [FileSystem.step] at hstep ⊢
  cases hentries : fs.entriesAt place with
  | error e => rw [hentries] at hstep; cases hstep
  | ok entries =>
    obtain ⟨kept, hkept, hlookup⟩ := h place entries hentries
    rw [hentries] at hstep
    rw [hkept]
    simp only at hstep ⊢
    split at hstep
    · next hstay => rwa [if_pos hstay]
    next hstay =>
    rw [if_neg hstay]
    split at hstep
    · next hup => rwa [if_pos hup]
    next hup =>
    rw [if_neg hup]
    split at hstep
    · cases hstep
    next hlength =>
    rw [if_neg hlength]
    split at hstep
    · next hsome => rwa [if_pos (hlookup segment hsome)]
    · cases hstep

/-- **Segments lead where they led.** -/
theorem Preserves.follow (h : fs.Preserves after) : ∀ {segments place reached : List String},
    fs.follow place segments = .ok reached → after.follow place segments = .ok reached
  | [], _, _, hfollow => hfollow
  | s :: rest, place, reached, hfollow => by
    rw [FileSystem.follow] at hfollow ⊢
    cases hstep : fs.step place s with
    | error e => rw [hstep] at hfollow; cases hfollow
    | ok next =>
      rw [hstep] at hfollow
      rw [h.step hstep]
      exact h.follow hfollow

/-! ## 3. Writing -/

/-- A file can be written where no directory has its name. -/
theorem writeAt_eq_ok {name : String} {content : List UInt8}
    (h : fs.writeAt place name content = .ok after) :
    utf8Size name ≤ nameLimit ∧
      after = { fs with top := .put (.file (.bytes content)) (place.reverse ++ [name]) fs.top } ∧
      ∀ gone, fs.top.descend? (place.reverse ++ [name]) ≠ some (.directory gone) := by
  unfold writeAt at h
  split at h
  · cases h
  next entries hentries =>
  split at h
  · cases h
  next hlength =>
  split at h
  · cases h
  · cases h
  next hfree _ =>
  refine ⟨Nat.le_of_not_lt hlength, (Except.ok.inj h).symm, ?_⟩
  intro gone hgone
  obtain ⟨around, haround, hlookup⟩ := FileTree.descend?_concat_eq_some.mp hgone
  obtain rfl := Except.ok.inj (hentries.symm.trans (entriesAt_eq_ok.mpr haround))
  exact hfree gone hlookup

theorem preserves_of_writeAt {name : String} {content : List UInt8}
    (h : fs.writeAt place name content = .ok after) : fs.Preserves after := by
  obtain ⟨-, rfl, hgone⟩ := writeAt_eq_ok h
  intro other around haround
  obtain ⟨kept, hkept, hlookup⟩ := FileTree.exists_descend?_put hgone (entriesAt_eq_ok.mp haround)
  exact ⟨kept, entriesAt_eq_ok.mpr hkept, hlookup⟩

/-- The name of a file leads from its directory to the file. -/
theorem step_of_descend? {name : String} {content : FileContent} (hempty : name ≠ "")
    (hdot : name ≠ ".") (hup : name ≠ "..") (hlength : utf8Size name ≤ nameLimit)
    (hfile : fs.top.descend? (place.reverse ++ [name]) = some (.file content)) :
    fs.step place name = .ok (name :: place) := by
  obtain ⟨entries, hentries, hlookup⟩ := FileTree.descend?_concat_eq_some.mp hfile
  have hsome : (entries.lookup name).isSome = true := by rw [hlookup]; rfl
  rw [FileSystem.step, entriesAt_eq_ok.mpr hentries]
  simp only
  rw [if_neg (not_or.mpr ⟨hempty, hdot⟩), if_neg hup, if_neg (Nat.not_lt.mpr hlength), if_pos hsome]

/-- A path that a file can be written to is the way to a directory and the name of the file. -/
theorem segments_of_not_endsInSlash {path name : String} {before : List String}
    (hslash : endsInSlash path = false)
    (h : (segments path).reverse.dropWhile (· = "") = name :: before) :
    segments path = before.reverse ++ [name] ∧ name ≠ "" := by
  obtain ⟨front, last, hsegments, hlast⟩ : ∃ front last,
      segments path = front ++ [last] ∧ (last = "" → front = []) := by
    rcases eq_append_last path with hnone | ⟨front, last, rfl, hnone⟩
    · exact ⟨[], path, segments_of_no_slash hnone, fun _ => rfl⟩
    · refine ⟨segments front, last, ?_, ?_⟩
      · rw [segments_slash, segments_of_no_slash hnone]
      · rintro rfl
        simp [endsInSlash] at hslash
  rw [hsegments, List.reverse_append, List.reverse_singleton, List.singleton_append] at h
  by_cases hempty : last = ""
  · rw [hlast hempty, hempty] at h
    cases h
  · rw [List.dropWhile_cons_of_neg (by simpa using hempty)] at h
    obtain ⟨rfl, rfl⟩ := List.cons.inj h
    rw [List.reverse_reverse]
    exact ⟨hsegments, hempty⟩

/-- **A file that was written is found.** -/
theorem files_write {path : String} {content : List UInt8}
    (h : fs.write path content = .ok after) : after.files path = some (.bytes content) := by
  unfold write at h
  split at h
  · cases h
  next hlength =>
  split at h
  · cases h
  next name before hname =>
  split at h
  · cases h
  next place hplace =>
  split at h
  · cases h
  next entries hentries =>
  split at h
  · cases h
  next hregular =>
  obtain ⟨hslash, hdot, hup⟩ : endsInSlash path = false ∧ name ≠ "." ∧ name ≠ ".." := by
    simpa [not_or] using hregular
  obtain ⟨hsegments, hempty⟩ := segments_of_not_endsInSlash hslash hname
  have hpath : path ≠ "" := by
    rintro rfl
    simp [segments, cutAtSlashes] at hname
  have hfile := descend?_of_writeAt h
  -- the same way leads to the directory, and the name from there to the file
  have hway : after.follow (fs.start path) before.reverse = .ok place :=
    (preserves_of_writeAt h).follow hplace
  obtain ⟨hfits, rfl, -⟩ := writeAt_eq_ok h
  have hstep := step_of_descend? hempty hdot hup hfits hfile
  have hstart : start { fs with
      top := .put (.file (.bytes content)) (place.reverse ++ [name]) fs.top } path =
        fs.start path := rfl
  rw [files, find?, if_neg (not_or.mpr ⟨hpath, hlength⟩), hstart, hsegments, follow_append, hway]
  simp only [bind, Except.bind, follow, hstep, List.reverse_cons, hfile]

end FileSystem

end UnitBake
