/-
# No override is lost silently

An override of a chain finds its place in the root or it does not.  In the one case it is written
there, in the other it is told as an event, which is the only sign that an author gets of a mistyped id.
Here the overrides of a chain are booked: each has one `Outcome`, in the order of application, by what
the root holds alone (`Settles`).

* The components of a chain are what the outcomes that write make of the root, and the events are those
  of the others (`exists_outcomes`).  One step of `Prefab.apply` is one outcome.
* An outcome is told just if no component of the root has the id of its override
  (`Settles.lost?_eq`), so the events can be read off the documents.

Ids that overrides bring with them play no part: they stand in the working copy, and places are looked
for in the root.  `every_override_accounted_for` says this of a whole resolution.
-/
import Mathlib.Data.List.Forall2
import UnitBake.Proofs.Prefab.Resolution

namespace UnitBake.Prefab

/-! ## 1. Outcomes -/

/-- What becomes of an override. -/
inductive Outcome where
  /-- The component is written to a place. -/
  | written (place : Nat) (c : Component)
  /-- No place has the id. -/
  | lost (id : Guid)

namespace Outcome

/-- The place that is written, and what is written there. -/
def write? : Outcome → Option (Nat × Component)
  | written place c => some (place, c)
  | lost _ => none

/-- The id that finds no place. -/
def lost? : Outcome → Option Guid
  | written _ _ => none
  | lost id => some id

/-- Every outcome is one of the two. -/
theorem length_lost_add_length_writes (outcomes : List Outcome) :
    (outcomes.filterMap lost?).length + (outcomes.filterMap write?).length = outcomes.length := by
  induction outcomes with
  | nil => rfl
  | cons outcome rest ih =>
    cases outcome <;> simp only [List.filterMap_cons, lost?, write?, List.length_cons] <;> omega

end Outcome

/-- A list of components with some of its places written, one after the other. -/
def putAll (working : List Component) (writes : List (Nat × Component)) : List Component :=
  writes.foldl (fun working w => working.set w.1 w.2) working

/-- An override comes to an outcome.  It is written to the first place of its id, with this id if it
brings none, or lost if no component of the root has the id. -/
inductive Settles (root : List Component) : String × Component → Outcome → Prop where
  | written {key : String} {c : Component} {g : Guid} {i : Nat}
      (hkey : Document.overrideId key = .ok g) (hplace : FirstPlace root g i) :
      Settles root (key, c) (.written i (c.inPlaceOf g))
  | lost {key : String} {c : Component} {g : Guid} (hkey : Document.overrideId key = .ok g)
      (hnone : ∀ c' ∈ root, c'.id ≠ some g) : Settles root (key, c) (.lost g)

/-- The id of an override, if no component of the root has it. -/
def lostId? (root : List Component) (override : String × Component) : Option Guid :=
  match Document.overrideId override.1 with
  | .ok g => if ∃ c ∈ root, c.id = some g then none else some g
  | .error _ => none

/-- **An override is lost just if no component of the root has its id.** -/
theorem Settles.lost?_eq {root : List Component} {override : String × Component}
    {outcome : Outcome} (h : Settles root override outcome) :
    outcome.lost? = lostId? root override := by
  cases h with
  | written hkey hplace =>
    have hexists := (exists_firstPlace_iff root _).mp ⟨_, hplace⟩
    simp only [lostId?, hkey, if_pos hexists, Outcome.lost?]
  | lost hkey hnone =>
    have hnot : ¬ ∃ c ∈ root, c.id = some _ := fun ⟨c, hc, hid⟩ => hnone c hc hid
    simp only [lostId?, hkey, if_neg hnot, Outcome.lost?]

theorem lost_of_settles {root : List Component} {overrides : List (String × Component)}
    {outcomes : List Outcome} (h : List.Forall₂ (Settles root) overrides outcomes) :
    outcomes.filterMap Outcome.lost? = overrides.filterMap (lostId? root) := by
  induction h with
  | nil => rfl
  | cons hsettles _ ih => rw [List.filterMap_cons, List.filterMap_cons, hsettles.lost?_eq, ih]

/-! ## 2. A chain -/

/-- **Every override comes to one outcome**, in the order of application.  The outcomes that write make
the result, and the others make the events. -/
theorem exists_outcomes {unit : String} {root : List Component}
    {overrides : List (String × Component)} {working resolved : List Component}
    (h : (apply unit root overrides working).result = .ok resolved) :
    ∃ outcomes, List.Forall₂ (Settles root) overrides outcomes ∧
      putAll working (outcomes.filterMap Outcome.write?) = resolved ∧
      (apply unit root overrides working).events =
        (outcomes.filterMap Outcome.lost?).map (.overrideUnmatched unit) := by
  induction overrides generalizing working with
  | nil => exact ⟨[], .nil, Except.ok.inj h, rfl⟩
  | cons override rest ih =>
    obtain ⟨key, c⟩ := override
    obtain ⟨g, hkey, ⟨i, hplace, hrest⟩ | ⟨hnone, hrest⟩⟩ := apply_cons_cases h
    · obtain ⟨outcomes, hsettles, hresult, hevents⟩ := ih hrest
      refine ⟨.written i (c.inPlaceOf g) :: outcomes, .cons (.written hkey hplace) hsettles,
        hresult, ?_⟩
      rw [apply_placed hkey hplace, hevents]
      rfl
    · obtain ⟨outcomes, hsettles, hresult, hevents⟩ := ih hrest
      have hlost : ∀ c' ∈ root, c'.id ≠ some g := by
        intro c' hc' hid
        obtain ⟨i, hplace⟩ := (exists_firstPlace_iff root g).mpr ⟨c', hc', hid⟩
        exact hnone i hplace
      refine ⟨.lost g :: outcomes, .cons (.lost hkey hlost) hsettles, hresult, ?_⟩
      rw [apply_unplaced hkey hnone, hevents]
      rfl

/-- The overrides of a document stand in the order of the bytes of their keys. -/
theorem overrides_sorted (d : Document) :
    d.overrides.entries.Pairwise fun o o' => utf8 o.1 < utf8 o'.1 :=
  d.overrides.sorted.imp utf8_lt_iff.mpr

/-- What is told of a unit is told of its chain. -/
theorem resolve_of_chain {source : Source} {limit : Nat} {tree : Json} {unit : String}
    {documents : List Document}
    (h : Document.ofJson tree unit >>= chain source limit unit = .ok documents) :
    resolve source limit tree unit = resolveChain unit documents := by
  rw [resolve, h]

/-- **No override is lost silently.**  If a unit with a parent is resolved, the events are one for each
override of a document of its chain whose id no component of the root has, with the name of the unit and
this id: from the root to the unit, and within a document by the bytes of the keys.  Each override of the
chain comes to one outcome, in the same order.  It is told by one of the events, or written to the first
place of its id; the components of the unit are those of the root with these places written, and events
and writes together are as many as the overrides.  A unit without a parent tells nothing. -/
theorem every_override_accounted_for {source : Source} {limit : Nat} {tree : Json} {unit : String}
    {resolved : List Component} (h : (resolve source limit tree unit).result = .ok resolved) :
    ∃ leaf ancestors root, Document.ofJson tree unit = .ok leaf ∧
      chain source limit unit leaf = .ok (leaf :: ancestors) ∧ Ancestry source leaf ancestors ∧
      (leaf :: ancestors).getLast? = some root ∧
      (∀ d ∈ leaf :: ancestors,
        d.overrides.entries.Pairwise fun o o' => utf8 o.1 < utf8 o'.1) ∧
      (ancestors ≠ [] →
        (resolve source limit tree unit).events =
            ((leaf :: ancestors).reverse.flatMap fun d =>
              d.overrides.entries.filterMap (lostId? root.components)).map
                (.overrideUnmatched unit) ∧
          ∃ outcomes,
            List.Forall₂ (Settles root.components) (overrides (leaf :: ancestors)) outcomes ∧
            (resolve source limit tree unit).events =
              (outcomes.filterMap Outcome.lost?).map (.overrideUnmatched unit) ∧
            resolved = putAll root.components (outcomes.filterMap Outcome.write?) ∧
            (resolve source limit tree unit).events.length +
                (outcomes.filterMap Outcome.write?).length =
              (overrides (leaf :: ancestors)).length) ∧
      (ancestors = [] → (resolve source limit tree unit).events = []) := by
  have hresult := h
  rw [result_resolve] at hresult
  obtain ⟨documents, hdocuments, hresolved⟩ := bind_eq_ok.mp hresult
  obtain ⟨leaf, hleaf, hchain⟩ := bind_eq_ok.mp hdocuments
  obtain ⟨ancestors, rfl, hancestry, -⟩ := ancestry_of_chain hchain
  obtain ⟨root, hroot⟩ : ∃ root, (leaf :: ancestors).getLast? = some root :=
    ⟨_, List.getLast?_eq_some_getLast (List.cons_ne_nil leaf ancestors)⟩
  rw [resolve_of_chain hdocuments]
  refine ⟨leaf, ancestors, root, hleaf, hchain, hancestry, hroot, fun d _ => overrides_sorted d,
    ?_, ?_⟩
  · intro hne
    have hmany : 1 < (leaf :: ancestors).length := by
      simpa using List.length_pos_iff.mpr hne
    rw [resolveChain_of_many hmany hroot] at hresolved ⊢
    obtain ⟨outcomes, hsettles, hwritten, hevents⟩ := exists_outcomes hresolved
    refine ⟨?_, outcomes, hsettles, hevents, hwritten.symm, ?_⟩
    · rw [hevents, lost_of_settles hsettles, overrides, List.filterMap_flatMap]
    · rw [hevents, List.length_map, Outcome.length_lost_add_length_writes, hsettles.length_eq]
  · rintro rfl
    rfl

/-- A desk lamp whose first part gets a new id, which two further overrides are for, under two spellings
of it. -/
def strayLamp : Json :=
  .object [
    ("modified_components", .object [
      ("#00000000-0000-0000-0000-00000000000a",
        lampPart "00000000-0000-0000-0000-00000000000c" "red bulb"),
      ("-00000000-0000-0000-0000-00000000000c", lampPart "" "green bulb"),
      ("-0000000000000000000000000000000C", lampPart "" "blue bulb")]),
    ("prefab", .text "desk lamp")]

/-- What is told of an override that is for the new id. -/
def strayLine : String :=
  "TRACE override matches no prefab component unit=stray lamp " ++
    "id=00000000-0000-0000-0000-00000000000c"

/-- The chain has five overrides.  Three are written, two of them to the first part; the new id is that of
no part of the root, and both overrides for it are told. -/
theorem every_override_accounted_for_strayLamp :
    (resolve lampSource 3 strayLamp "stray lamp").events.map Event.line = [strayLine, strayLine] ∧
      ∃ resolved leaf ancestors outcomes, ∃ root : Document,
        (resolve lampSource 3 strayLamp "stray lamp").result = .ok resolved ∧
          List.Forall₂ (Settles root.components) (overrides (leaf :: ancestors)) outcomes ∧
          resolved = putAll root.components (outcomes.filterMap Outcome.write?) ∧
          (overrides (leaf :: ancestors)).length = 5 ∧
          (outcomes.filterMap Outcome.write?).length = 3 := by
  have hrun : (resolve lampSource 3 strayLamp "stray lamp").result.toOption.isSome = true ∧
      (resolve lampSource 3 strayLamp "stray lamp").events.map Event.line =
        [strayLine, strayLine] := by
    decide +kernel
  have hchain : (Document.ofJson strayLamp "stray lamp" >>=
      chain lampSource 3 "stray lamp").toOption.map (fun documents =>
        (documents.length, (overrides documents).length)) = some (3, 5) := by
    decide +kernel
  obtain ⟨hsome, hlines⟩ := hrun
  obtain ⟨resolved, hresolved⟩ := Option.isSome_iff_exists.mp hsome
  have hok := eq_ok_of_toOption hresolved
  obtain ⟨leaf, ancestors, root, hleaf, hdocuments, -, -, -, hmany, -⟩ :=
    every_override_accounted_for hok
  rw [hleaf] at hchain
  simp only [bind, Except.bind, hdocuments] at hchain
  obtain ⟨hlength, hoverrides⟩ := Prod.mk.inj (Option.some.inj hchain)
  have hne : ancestors ≠ [] := by
    rintro rfl
    cases hlength
  obtain ⟨-, outcomes, hsettles, -, hwritten, htotal⟩ := hmany hne
  have htold : (resolve lampSource 3 strayLamp "stray lamp").events.length = 2 := by
    have hlength := congrArg List.length hlines
    rwa [List.length_map] at hlength
  refine ⟨hlines, resolved, leaf, ancestors, outcomes, root, hok, hsettles, hwritten, hoverrides,
    ?_⟩
  omega

end UnitBake.Prefab
