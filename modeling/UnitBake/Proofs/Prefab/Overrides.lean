/-
# What overrides do to a list of components

`Prefab.apply` goes through all overrides of a chain and writes each to the first place of the root
that has its id.  What stands at a place in the end is therefore decided by the last override for the
id of that place:

* an override never moves, adds or removes a component (`length_of_apply`);
* a place that no override is for is left as it was (`getElem?_of_apply_kept`);
* a place gets the last of the overrides that are for it (`getElem?_of_apply_last`).

The ids that overrides bring with them are written but never looked for (`content_of_apply`).
-/
import UnitBake.Proofs.Prefab.Chain

namespace UnitBake

/-- What a component is, its id apart. -/
def Component.content (c : Component) : String × Json := (c.typeName, c.data)

/-- An override as it is put in the place of the component with the given id: it keeps its own id if
it has one. -/
def Component.inPlaceOf (c : Component) (g : Guid) : Component := { c with id := some (c.id.getD g) }

@[simp] theorem Component.content_inPlaceOf (c : Component) (g : Guid) :
    (c.inPlaceOf g).content = c.content := rfl

namespace Prefab

/-! ## 1. The place of an id -/

/-- The first component with the id `g` stands at place `i`. -/
def FirstPlace (root : List Component) (g : Guid) (i : Nat) : Prop :=
  (∃ c, root[i]? = some c ∧ c.id = some g) ∧
    ∀ j < i, ∀ c, root[j]? = some c → c.id ≠ some g

theorem findIdx?_eq_some_iff (root : List Component) (g : Guid) (i : Nat) :
    (root.findIdx? fun c => c.id == some g) = some i ↔ FirstPlace root g i := by
  rw [List.findIdx?_eq_some_iff_getElem]
  constructor
  · rintro ⟨hi, hid, hbefore⟩
    refine ⟨⟨root[i], List.getElem?_eq_getElem hi, by simpa using hid⟩, ?_⟩
    intro j hj c hc
    obtain ⟨hlt, rfl⟩ := List.getElem?_eq_some_iff.mp hc
    simpa using hbefore j hj
  · rintro ⟨⟨c, hc, hid⟩, hbefore⟩
    obtain ⟨hi, rfl⟩ := List.getElem?_eq_some_iff.mp hc
    refine ⟨hi, by simpa using hid, ?_⟩
    intro j hj
    have hne := hbefore j hj root[j] (List.getElem?_eq_getElem (Nat.lt_trans hj hi))
    simpa using hne

/-- One id is looked for at one place only. -/
theorem FirstPlace.id_unique {root : List Component} {g g' : Guid} {i : Nat}
    (h : FirstPlace root g i) (h' : FirstPlace root g' i) : g = g' := by
  obtain ⟨⟨c, hc, hid⟩, -⟩ := h
  obtain ⟨⟨c', hc', hid'⟩, -⟩ := h'
  have hcc : c = c' := Option.some.inj (hc.symm.trans hc')
  rw [hcc, hid'] at hid
  exact (Option.some.inj hid).symm

theorem FirstPlace.lt_length {root : List Component} {g : Guid} {i : Nat}
    (h : FirstPlace root g i) : i < root.length := by
  obtain ⟨⟨c, hc, -⟩, -⟩ := h
  exact (List.getElem?_eq_some_iff.mp hc).1

/-- An id has a place if some component has it. -/
theorem exists_firstPlace_iff (root : List Component) (g : Guid) :
    (∃ i, FirstPlace root g i) ↔ ∃ c ∈ root, c.id = some g := by
  simp only [← findIdx?_eq_some_iff, ← Option.isSome_iff_exists, List.findIdx?_isSome,
    List.any_eq_true, beq_iff_eq]

/-! ## 2. Applying overrides -/

variable {unit : String} {root : List Component}

/-- Wherever an override leads, its key is read first, and at most one event tells of it. -/
theorem apply_step (unit : String) (root : List Component) (key : String) (c : Component)
    (rest : List (String × Component)) (working : List Component) :
    (∃ e, Document.overrideId key = .error e ∧
        apply unit root ((key, c) :: rest) working = ⟨.error e, []⟩) ∨
      ∃ g working' told, Document.overrideId key = .ok g ∧
        (told = [] ∨ told = [.overrideUnmatched unit g]) ∧
        apply unit root ((key, c) :: rest) working =
          ⟨(apply unit root rest working').result, told ++ (apply unit root rest working').events⟩ := by
  rw [apply]
  cases Document.overrideId key with
  | error e => exact Or.inl ⟨e, rfl, rfl⟩
  | ok g =>
    right
    simp only []
    cases root.findIdx? fun c => c.id == some g with
    | some place => exact ⟨g, _, [], rfl, Or.inl rfl, rfl⟩
    | none => exact ⟨g, working, _, rfl, Or.inr rfl, rfl⟩

/-- An override is written to the first place of its id. -/
theorem apply_placed {key : String} {g : Guid} {i : Nat}
    (hkey : Document.overrideId key = .ok g) (hplace : FirstPlace root g i) (c : Component)
    (rest : List (String × Component)) (working : List Component) :
    apply unit root ((key, c) :: rest) working =
      apply unit root rest (working.set i (c.inPlaceOf g)) := by
  have hfind := (findIdx?_eq_some_iff root g i).mpr hplace
  rw [apply, hkey]
  simp only [hfind]
  rfl

/-- An override that finds no place is passed over, and told as an event. -/
theorem apply_unplaced {key : String} {g : Guid} (hkey : Document.overrideId key = .ok g)
    (hnone : ∀ i, ¬ FirstPlace root g i) (c : Component) (rest : List (String × Component))
    (working : List Component) :
    apply unit root ((key, c) :: rest) working =
      ⟨(apply unit root rest working).result,
        .overrideUnmatched unit g :: (apply unit root rest working).events⟩ := by
  have hfind : (root.findIdx? fun c => c.id == some g) = none :=
    Option.eq_none_iff_forall_ne_some.mpr fun i hi =>
      hnone i ((findIdx?_eq_some_iff root g i).mp hi)
  rw [apply, hkey]
  simp only [hfind]

/-- Everything one override can do: its key is read, and it is written to the first place of its id if
there is one. -/
theorem apply_cons_cases {key : String} {c : Component} {rest : List (String × Component)}
    {working resolved : List Component}
    (h : (apply unit root ((key, c) :: rest) working).result = .ok resolved) :
    ∃ g, Document.overrideId key = .ok g ∧
      ((∃ i, FirstPlace root g i ∧
          (apply unit root rest (working.set i (c.inPlaceOf g))).result = .ok resolved) ∨
        (∀ i, ¬ FirstPlace root g i) ∧ (apply unit root rest working).result = .ok resolved) := by
  rw [apply] at h
  cases hkey : Document.overrideId key with
  | error e =>
    rw [hkey] at h
    cases h
  | ok g =>
    rw [hkey] at h
    refine ⟨g, rfl, ?_⟩
    cases hplace : root.findIdx? fun c => c.id == some g with
    | some i =>
      simp only [hplace] at h
      exact Or.inl ⟨i, (findIdx?_eq_some_iff root g i).mp hplace, h⟩
    | none =>
      simp only [hplace] at h
      refine Or.inr ⟨fun i hi => ?_, h⟩
      rw [(findIdx?_eq_some_iff root g i).mpr hi] at hplace
      cases hplace

/-- Overrides are applied one after the other. -/
theorem result_apply_append : ∀ (before after : List (String × Component))
    (working : List Component),
    (apply unit root (before ++ after) working).result =
      (apply unit root before working).result >>= fun w => (apply unit root after w).result
  | [], _, _ => rfl
  | (key, c) :: rest, after, working => by
    rw [List.cons_append, apply, apply]
    cases Document.overrideId key with
    | error e => rfl
    | ok g =>
      simp only []
      cases root.findIdx? fun c => c.id == some g with
      | some i => exact result_apply_append rest after _
      | none => exact result_apply_append rest after working

/-- **Overrides never move, add or remove a component.** -/
theorem length_of_apply {overrides : List (String × Component)} {working resolved : List Component}
    (h : (apply unit root overrides working).result = .ok resolved) :
    resolved.length = working.length := by
  induction overrides generalizing working with
  | nil => rw [Except.ok.inj h]
  | cons o rest ih =>
    obtain ⟨g, -, ⟨i, -, hrest⟩ | ⟨-, hrest⟩⟩ := apply_cons_cases h
    · rw [ih hrest, List.length_set]
    · exact ih hrest

/-- **A place that no override is for is left as it was.** -/
theorem getElem?_of_apply_kept {i : Nat} {overrides : List (String × Component)}
    {working resolved : List Component}
    (h : (apply unit root overrides working).result = .ok resolved)
    (hnot : ∀ o ∈ overrides, ∀ g, Document.overrideId o.1 = .ok g → ¬ FirstPlace root g i) :
    resolved[i]? = working[i]? := by
  induction overrides generalizing working with
  | nil => rw [Except.ok.inj h]
  | cons o rest ih =>
    have hrestNot := fun o ho => hnot o (List.mem_cons_of_mem _ ho)
    obtain ⟨g, hkey, ⟨j, hj, hrest⟩ | ⟨-, hrest⟩⟩ := apply_cons_cases h
    · have hji : j ≠ i := by
        rintro rfl
        exact hnot o List.mem_cons_self g hkey hj
      rw [ih hrest hrestNot, List.getElem?_set_ne hji]
    · exact ih hrest hrestNot

/-- **A place gets the last override that is for it.** -/
theorem getElem?_of_apply_last {key : String} {c : Component} {g : Guid} {i : Nat}
    {before after : List (String × Component)} {working resolved : List Component}
    (h : (apply unit root (before ++ (key, c) :: after) working).result = .ok resolved)
    (hlength : working.length = root.length) (hplace : FirstPlace root g i)
    (hkey : Document.overrideId key = .ok g)
    (hlast : ∀ o ∈ after, Document.overrideId o.1 ≠ .ok g) :
    resolved[i]? = some (c.inPlaceOf g) := by
  rw [result_apply_append] at h
  obtain ⟨w, hbefore, hrest⟩ := bind_eq_ok.mp h
  have hwlength : w.length = root.length := (length_of_apply hbefore).trans hlength
  have hi : i < w.length := hwlength ▸ hplace.lt_length
  rw [apply_placed hkey hplace] at hrest
  -- nothing after writes the place again
  rw [getElem?_of_apply_kept hrest, List.getElem?_set_self hi]
  intro o ho g' hg' hplace'
  obtain rfl := hplace.id_unique hplace'
  exact hlast o ho hg'

/-- **The ids that overrides bring are never looked for.**  Overrides with other ids give components
that differ in their ids at most. -/
theorem content_of_apply {overrides overrides' : List (String × Component)}
    {working working' resolved : List Component}
    (hsame : overrides'.map (fun o => (o.1, o.2.content)) =
      overrides.map (fun o => (o.1, o.2.content)))
    (hworking : working'.map Component.content = working.map Component.content)
    (h : (apply unit root overrides working).result = .ok resolved) :
    ∃ resolved', (apply unit root overrides' working').result = .ok resolved' ∧
      resolved'.map Component.content = resolved.map Component.content := by
  induction overrides generalizing overrides' working working' with
  | nil =>
    obtain rfl := List.map_eq_nil_iff.mp hsame
    exact ⟨working', rfl, by rw [hworking, Except.ok.inj h]⟩
  | cons o rest ih =>
    obtain ⟨o', rest', rfl, hhead, hrestSame⟩ := List.map_eq_cons_iff.mp hsame
    obtain ⟨key, c⟩ := o
    obtain ⟨key', c'⟩ := o'
    obtain ⟨rfl, hcontent⟩ := Prod.mk.inj hhead
    obtain ⟨g, hkey, ⟨i, hi, hrest⟩ | ⟨hnone, hrest⟩⟩ := apply_cons_cases h
    · have hset : (working'.set i (c'.inPlaceOf g)).map Component.content =
          (working.set i (c.inPlaceOf g)).map Component.content := by
        rw [List.map_set, List.map_set, hworking, Component.content_inPlaceOf,
          Component.content_inPlaceOf]
        exact congrArg _ hcontent
      obtain ⟨resolved', hresolved', hsame'⟩ := ih hrestSame hset hrest
      refine ⟨resolved', ?_, hsame'⟩
      rw [apply_placed hkey hi]
      exact hresolved'
    · obtain ⟨resolved', hresolved', hsame'⟩ := ih hrestSame hworking hrest
      refine ⟨resolved', ?_, hsame'⟩
      rw [apply_unplaced hkey hnone]
      exact hresolved'

end Prefab

end UnitBake
