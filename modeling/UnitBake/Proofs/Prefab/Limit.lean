/-
# The limit on inheritance

Names of parents can lead in a circle.  The walk ends because it counts: with a limit of `n` documents
it reads `n - 1` units at most, wherever they lead.

* **What is read.**  `resolveAsking` is `resolve` with a record of the units that are read; it comes
  to the same, and the record is short (`run_resolveAsking`).
* **What the limit refuses.**  The walk is stopped exactly where there are as many documents as allowed
  and each of them names a parent (`LeadsOn`).  In a circle of parents that is so at any limit
  (`leadsOn_of_circle`).
* **What the limit leaves alone.**  Any other outcome, good or bad, is the same under every greater
  limit (`resolve_of_le`).

`walk_limited` collects this for `resolve`.  It holds of every source; but a source that itself refuses
a unit with the fault of the limit is seen in what is told, so the equivalence names that case.
-/
import Mathlib.Logic.Relation
import UnitBake.Proofs.Prefab.Refusal
import UnitBake.Source.Directory
import UnitBake.Source.Memory

namespace UnitBake

/-- The source refuses no unit with the fault of the limit on inheritance. -/
def Source.NeverTooDeep (source : Source) : Prop :=
  ∀ name path limit, source.readUnit name ≠ .error (.prefabTooDeep path limit)

theorem MemorySource.neverTooDeep (m : MemorySource) : m.source.NeverTooDeep := by
  intro name path limit h
  change m.readUnit name = _ at h
  rw [MemorySource.readUnit] at h
  cases hget : m.units.get? name <;> simp [hget] at h

theorem DirectorySource.neverTooDeep (d : DirectorySource) : d.source.NeverTooDeep := by
  intro name path limit h
  change d.readUnit name = _ at h
  simp only [readUnit] at h
  split at h
  · cases h
  · cases h
  · split at h
    · cases h
    · obtain ⟨e, -, hfault⟩ := mapError_eq_error.mp h
      cases hfault

namespace Prefab

/-! ## 1. What is read -/

/-- A computation that keeps the names of the units it has read, also when it fails. -/
abbrev Asking (α : Type) : Type := ExceptT Fault (StateM (List String)) α

/-- Reads a unit. -/
def askUnit (source : Source) (name : String) : Asking Json :=
  fun asked => (source.readUnit name, asked ++ [name])

/-- `ancestors` with a record of the units that are read. -/
def ancestorsAsking (source : Source) (tooDeep : Fault) : Nat → Document → Asking (List Document)
  | allowed, d =>
    match d.parent with
    | none => pure []
    | some parent =>
      match allowed with
      | 0 => throw tooDeep
      | allowed + 1 => do
        let tree ← askUnit source parent
        let document ← liftExcept (Document.ofJson tree parent)
        let rest ← ancestorsAsking source tooDeep allowed document
        return document :: rest

/-- The chain of a unit given by its tree, with a record of the units that are read. -/
def chainAsking (source : Source) (limit : Nat) (tree : Json) (unit : String) :
    Asking (List Document) := do
  let leaf ← liftExcept (Document.ofJson tree unit)
  let above ← ancestorsAsking source (.prefabTooDeep unit limit) (limit - 1) leaf
  return leaf :: above

/-- `resolve` with a record of the units that are read. -/
def resolveAsking (source : Source) (limit : Nat) (tree : Json) (unit : String) :
    StateM (List String) (Traced (Except Fault (List Component))) := do
  let found ← (chainAsking source limit tree unit).run
  return match found with
    | .error e => ⟨.error e, []⟩
    | .ok documents => resolveChain unit documents

/-- The computation comes to the result, and reads so many units at most. -/
def Asks {α : Type} (x : Asking α) (result : Except Fault α) (most : Nat) : Prop :=
  ∀ asked, ∃ more, x asked = (result, asked ++ more) ∧ more.length ≤ most

namespace Asks

variable {α β : Type}

theorem pure (a : α) : Asks (pure a) (.ok a) 0 :=
  fun asked => ⟨[], by rw [List.append_nil]; rfl, Nat.le_refl 0⟩

theorem throw (e : Fault) : Asks (throw e : Asking α) (.error e) 0 :=
  fun asked => ⟨[], by rw [List.append_nil]; rfl, Nat.le_refl 0⟩

theorem mono {x : Asking α} {result : Except Fault α} {most most' : Nat} (hx : Asks x result most)
    (hle : most ≤ most') : Asks x result most' := by
  intro asked
  obtain ⟨more, hrun, hmore⟩ := hx asked
  exact ⟨more, hrun, Nat.le_trans hmore hle⟩

/-- What needs no source reads nothing. -/
theorem lift (x : Except Fault α) : Asks (liftExcept x) x 0 := by
  cases x with
  | error e => exact throw e
  | ok a => exact pure a

theorem unit (source : Source) (name : String) :
    Asks (askUnit source name) (source.readUnit name) 1 :=
  fun _ => ⟨[name], rfl, Nat.le_refl 1⟩

/-- One computation after another reads what both read. -/
theorem bind {x : Asking α} {f : α → Asking β} {result : Except Fault α}
    {next : α → Except Fault β} {most further : Nat} (hx : Asks x result most)
    (hf : ∀ a, Asks (f a) (next a) further) : Asks (x >>= f) (result >>= next) (most + further) := by
  intro asked
  obtain ⟨more, hrun, hmore⟩ := hx asked
  cases result with
  | error e =>
    refine ⟨more, ?_, Nat.le_add_right_of_le hmore⟩
    change (match x asked with | (r, s) => ExceptT.bindCont f r s) = _
    rw [hrun]
    rfl
  | ok a =>
    obtain ⟨more', hrun', hmore'⟩ := hf a (asked ++ more)
    refine ⟨more ++ more', ?_, ?_⟩
    · change (match x asked with | (r, s) => ExceptT.bindCont f r s) = _
      rw [hrun, ← List.append_assoc]
      exact hrun'
    · rw [List.length_append]
      exact Nat.add_le_add hmore hmore'

end Asks

/-- The walk reads one unit for each document above, and no more than are allowed. -/
theorem asks_ancestorsAsking (source : Source) (tooDeep : Fault) : ∀ (allowed : Nat) (d : Document),
    Asks (ancestorsAsking source tooDeep allowed d) (ancestors source tooDeep allowed d) allowed
  | allowed, d => by
    rw [ancestorsAsking, ancestors]
    cases d.parent with
    | none => exact (Asks.pure []).mono (Nat.zero_le allowed)
    | some parent =>
      cases allowed with
      | zero => exact .throw tooDeep
      | succ allowed =>
        have hrest : ∀ document, Asks
            (ancestorsAsking source tooDeep allowed document >>= fun rest => pure (document :: rest))
            (ancestors source tooDeep allowed document >>= fun rest => .ok (document :: rest))
            allowed :=
          fun document => (asks_ancestorsAsking source tooDeep allowed document).bind
            fun rest => .pure _
        have hread := (Asks.unit source parent).bind fun tree =>
          (Asks.lift (Document.ofJson tree parent)).bind hrest
        exact hread.mono (by omega)

/-- **Reading with a record comes to the same**, and the record holds fewer units than the limit. -/
theorem asks_chainAsking (source : Source) (limit : Nat) (tree : Json) (unit : String) :
    Asks (chainAsking source limit tree unit)
      (Document.ofJson tree unit >>= chain source limit unit) (limit - 1) := by
  have hchain : ∀ leaf, Asks
      (ancestorsAsking source (.prefabTooDeep unit limit) (limit - 1) leaf >>= fun above =>
        pure (leaf :: above))
      (chain source limit unit leaf) (limit - 1) := by
    intro leaf
    have hwalk := (asks_ancestorsAsking source (.prefabTooDeep unit limit) (limit - 1) leaf).bind
      fun above => Asks.pure (leaf :: above)
    rw [chain]
    cases hresult : ancestors source (.prefabTooDeep unit limit) (limit - 1) leaf with
    | error e => rwa [hresult] at hwalk
    | ok above => rwa [hresult] at hwalk
  exact ((Asks.lift (Document.ofJson tree unit)).bind hchain).mono (by omega)

theorem run_resolveAsking (source : Source) (limit : Nat) (tree : Json) (unit : String) :
    ∃ asked, (resolveAsking source limit tree unit).run [] =
        (resolve source limit tree unit, asked) ∧
      asked.length ≤ limit - 1 := by
  obtain ⟨asked, hrun, hmost⟩ := asks_chainAsking source limit tree unit []
  have hresult : (resolveAsking source limit tree unit).run [] =
      (match (chainAsking source limit tree unit []).1 with
        | .error e => ⟨.error e, []⟩
        | .ok documents => resolveChain unit documents,
        (chainAsking source limit tree unit []).2) := rfl
  rw [hrun, List.nil_append] at hresult
  exact ⟨asked, hresult, hmost⟩

/-! ## 2. What the limit refuses -/

/-- So many documents can be passed on the way up from a document, and all of them as well as itself
name a parent. -/
def LeadsOn (source : Source) (n : Nat) (d : Document) : Prop :=
  ∃ above top, Climb source d above top ∧ above.length = n ∧ ∀ e ∈ d :: above, e.parent ≠ none

/-- The walk up from a document comes to a parent, with fewer documents above than are allowed, that the
source does not give but the fault. -/
def Denied (source : Source) (allowed : Nat) (d : Document) (fault : Fault) : Prop :=
  ∃ above top parent, Climb source d above top ∧ above.length < allowed ∧
    top.parent = some parent ∧ source.readUnit parent = .error fault

variable {source : Source}

/-- **A circle of parents leads on without end**, and so does every document that leads to it. -/
theorem leadsOn_of_circle {d : Document} (hcircle : Relation.TransGen (Inherits source) d d) :
    ∀ (n : Nat) {leaf : Document}, Relation.TransGen (Inherits source) leaf d →
      LeadsOn source n leaf
  | 0, leaf, h => by
    obtain ⟨next, hstep, -⟩ := Relation.TransGen.head'_iff.mp h
    exact ⟨[], leaf, .here leaf, rfl, by simpa using hstep.parent_ne_none⟩
  | n + 1, leaf, h => by
    obtain ⟨next, hstep, hnext⟩ := Relation.TransGen.head'_iff.mp h
    -- having come to `d`, it goes round once more
    obtain ⟨above, top, hclimb, hlength, hparents⟩ :=
      leadsOn_of_circle hcircle n (Relation.TransGen.trans_right hnext hcircle)
    exact ⟨next :: above, top, .up hstep hclimb, congrArg Nat.succ hlength,
      List.forall_mem_cons.mpr ⟨hstep.parent_ne_none, hparents⟩⟩

/-- The walk ends with the fault of a limit where it may go no further and is to, or where the source
gives that fault. -/
theorem ancestors_eq_tooDeep_iff {unit path : String} {limit max allowed : Nat} {d : Document} :
    ancestors source (.prefabTooDeep unit limit) allowed d = .error (.prefabTooDeep path max) ↔
      (path = unit ∧ max = limit ∧ LeadsOn source allowed d) ∨
        Denied source allowed d (.prefabTooDeep path max) := by
  rw [ancestors_eq_error_iff]
  constructor
  · rintro ⟨above, top, left, hclimb, rfl, hheld⟩
    cases hheld with
    | limit hparent =>
      exact Or.inl ⟨rfl, rfl, above, top, hclimb, rfl, hclimb.parent_ne_none hparent⟩
    | unread hparent hread =>
      exact Or.inr ⟨above, top, _, hclimb, by omega, hparent, hread⟩
  · rintro (⟨rfl, rfl, above, top, hclimb, rfl, hparents⟩ |
      ⟨above, top, parent, hclimb, hlt, hparent, hread⟩)
    · exact ⟨above, top, 0, hclimb, rfl, .limit (hparents top hclimb.top_mem)⟩
    · obtain ⟨left, rfl⟩ := Nat.exists_eq_add_of_lt hlt
      exact ⟨above, top, left + 1, hclimb, rfl, .unread hparent hread⟩

/-! ## 3. What the limit leaves alone -/

/-- What holds the walk other than the limit holds it also where it may go further. -/
theorem Held.mono {tooDeep tooDeep' fault : Fault} {left : Nat} {d : Document}
    (h : Held source tooDeep left d fault) (hne : fault ≠ tooDeep) (more : Nat) :
    Held source tooDeep' (left + more) d fault := by
  cases h with
  | limit hparent => exact absurd rfl hne
  | unread hparent hread =>
    rw [Nat.add_right_comm]
    exact .unread hparent hread
  | misshapen hparent hread hshape =>
    rw [Nat.add_right_comm]
    exact .misshapen hparent hread hshape

/-- A walk that the limit does not stop ends the same under a greater one. -/
theorem ancestors_of_le {tooDeep tooDeep' : Fault} {allowed allowed' : Nat} {d : Document}
    (hle : allowed ≤ allowed') (h : ancestors source tooDeep allowed d ≠ .error tooDeep) :
    ancestors source tooDeep' allowed' d = ancestors source tooDeep allowed d := by
  cases hwalk : ancestors source tooDeep allowed d with
  | ok above =>
    obtain ⟨hancestry, hlength⟩ := ancestors_eq_ok_iff.mp hwalk
    exact ancestors_eq_ok_iff.mpr ⟨hancestry, Nat.le_trans hlength hle⟩
  | error fault =>
    have hne : fault ≠ tooDeep := fun heq => h (by rw [hwalk, heq])
    obtain ⟨above, top, left, hclimb, rfl, hheld⟩ := ancestors_eq_error_iff.mp hwalk
    obtain ⟨more, rfl⟩ := Nat.exists_eq_add_of_le hle
    exact ancestors_eq_error_iff.mpr
      ⟨above, top, left + more, hclimb, Nat.add_assoc _ _ _, hheld.mono hne more⟩

/-- **Any other outcome is the same under a greater limit.** -/
theorem resolve_of_le {limit limit' : Nat} {tree : Json} {unit : String} (hle : limit ≤ limit')
    (h : (resolve source limit tree unit).result ≠ .error (.prefabTooDeep unit limit)) :
    resolve source limit' tree unit = resolve source limit tree unit := by
  rw [resolve, resolve]
  cases hleaf : Document.ofJson tree unit with
  | error e => rfl
  | ok leaf =>
    have hwalk : ancestors source (.prefabTooDeep unit limit) (limit - 1) leaf ≠
        .error (.prefabTooDeep unit limit) := by
      intro hwalk
      refine h ?_
      simp only [resolve, hleaf, bind, Except.bind, chain, hwalk, Except.map]
    have hle' : limit - 1 ≤ limit' - 1 := Nat.sub_le_sub_right hle 1
    simp only [bind, Except.bind, chain]
    rw [ancestors_of_le hle' hwalk]

/-! ## 4. Resolution under a limit -/

/-- The fault of a limit comes from the walk, or from the source. -/
theorem result_resolve_eq_tooDeep_iff {limit max : Nat} {tree : Json} {unit path : String} :
    (resolve source limit tree unit).result = .error (.prefabTooDeep path max) ↔
      ∃ leaf, Document.read tree = .ok leaf ∧
        ((path = unit ∧ max = limit ∧ LeadsOn source (limit - 1) leaf) ∨
          Denied source (limit - 1) leaf (.prefabTooDeep path max)) := by
  rw [result_resolve_eq_error_iff]
  constructor
  · intro h
    cases h with
    | held hread hclimb hleft hheld =>
      exact ⟨_, hread, ancestors_eq_tooDeep_iff.mp
        (ancestors_eq_error_iff.mpr ⟨_, _, _, hclimb, hleft, hheld⟩)⟩
    | key hloads hparent hkey =>
      obtain ⟨d, -, key, c, e, -, -, hfault, -⟩ := hkey.exists_mem
      cases hfault
  · rintro ⟨leaf, hread, h⟩
    obtain ⟨above, top, left, hclimb, hleft, hheld⟩ :=
      ancestors_eq_error_iff.mp (ancestors_eq_tooDeep_iff.mpr h)
    exact .held hread hclimb hleft hheld

/-- **The walk ends, within the limit, and the limit does nothing but stop it.**  It reads fewer units
than the limit and uses no chain of more documents.  It ends with the fault of the limit exactly where
the unit and as many parents as make up the limit all load and name a parent, which is always so in a
circle; a source that gives that fault itself is the only other cause.  Any other outcome is the same
under every greater limit. -/
theorem walk_limited (source : Source) (limit : Nat) (tree : Json) (unit : String) :
    (∃ asked,
      (resolveAsking source limit tree unit).run [] = (resolve source limit tree unit, asked) ∧
        asked.length ≤ limit - 1) ∧
      ((∃ fault, resolve source limit tree unit = ⟨.error fault, []⟩) ∨
        ∃ leaf above, Loads source limit tree leaf above ∧ (leaf :: above).length ≤ max limit 1 ∧
          resolve source limit tree unit = resolveChain unit (leaf :: above)) ∧
      (∀ path most, (resolve source limit tree unit).result = .error (.prefabTooDeep path most) ↔
        ∃ leaf, Document.read tree = .ok leaf ∧
          ((path = unit ∧ most = limit ∧ LeadsOn source (limit - 1) leaf) ∨
            Denied source (limit - 1) leaf (.prefabTooDeep path most))) ∧
      (source.NeverTooDeep → ∀ path most,
        (resolve source limit tree unit).result = .error (.prefabTooDeep path most) ↔
          path = unit ∧ most = limit ∧
            ∃ leaf, Document.read tree = .ok leaf ∧ LeadsOn source (limit - 1) leaf) ∧
      (∀ leaf d, Document.read tree = .ok leaf → Relation.ReflTransGen (Inherits source) leaf d →
        Relation.TransGen (Inherits source) d d →
          (resolve source limit tree unit).result = .error (.prefabTooDeep unit limit)) ∧
      ((resolve source limit tree unit).result ≠ .error (.prefabTooDeep unit limit) →
        ∀ limit', limit ≤ limit' →
          resolve source limit' tree unit = resolve source limit tree unit) := by
  refine ⟨run_resolveAsking source limit tree unit, ?_, fun path most =>
    result_resolve_eq_tooDeep_iff, ?_, ?_, fun h limit' hle => resolve_of_le hle h⟩
  · cases hloads : Document.ofJson tree unit >>= chain source limit unit with
    | error e => exact Or.inl ⟨e, by rw [resolve, hloads]⟩
    | ok documents =>
      obtain ⟨leaf, above, rfl, h⟩ := loads_iff.mp hloads
      have hlength : (leaf :: above).length ≤ max limit 1 := by
        have hallowed := h.allowed
        rw [List.length_cons]
        omega
      exact Or.inr ⟨leaf, above, h, hlength, by rw [resolve, hloads]⟩
  · intro hsource path most
    rw [result_resolve_eq_tooDeep_iff]
    constructor
    · rintro ⟨leaf, hread, ⟨rfl, rfl, hleads⟩ | ⟨_, _, parent, _, _, _, hdenied⟩⟩
      · exact ⟨rfl, rfl, leaf, hread, hleads⟩
      · exact absurd hdenied (hsource parent path most)
    · rintro ⟨rfl, rfl, leaf, hread, hleads⟩
      exact ⟨leaf, hread, .inl ⟨rfl, rfl, hleads⟩⟩
  · intro leaf d hread hleads hcircle
    have hround := leadsOn_of_circle hcircle (limit - 1) (.trans_right hleads hcircle)
    exact result_resolve_eq_tooDeep_iff.mpr ⟨leaf, hread, .inl ⟨rfl, rfl, hround⟩⟩

/-- A unit that has nothing of its own but a parent. -/
def heir (parent : String) : Json := .object [("prefab", .text parent)]

theorem read_heir (parent : String) :
    Document.read (heir parent) = .ok ⟨some parent, .empty, []⟩ := rfl

/-- Two units that inherit from each other, and one without a parent. -/
def henAndEgg : MemorySource :=
  ((MemorySource.empty.insertUnit "egg" (heir "hen")).insertUnit "hen" (heir "egg")).insertUnit
    "adam" (.object [])

/-- What inherits from a circle is refused under any limit.  What inherits from a unit without a parent
is refused under the limit one, and under all others it is what it is under two. -/
theorem walk_limited_henAndEgg :
    henAndEgg.source.NeverTooDeep ∧
      (∀ limit, (resolve henAndEgg.source limit (heir "hen") "chick").result =
        .error (.prefabTooDeep "chick" limit)) ∧
      (resolve henAndEgg.source 1 (heir "adam") "abel").result = .error (.prefabTooDeep "abel" 1) ∧
      (resolve henAndEgg.source 2 (heir "adam") "abel").result.toOption.isSome = true ∧
      ∀ limit, 2 ≤ limit →
        resolve henAndEgg.source limit (heir "adam") "abel" =
          resolve henAndEgg.source 2 (heir "adam") "abel" := by
  have hsource := henAndEgg.neverTooDeep
  have hresolved :
      (resolve henAndEgg.source 2 (heir "adam") "abel").result.toOption.isSome = true := by
    decide +kernel
  refine ⟨hsource, ?_, ?_, hresolved, ?_⟩
  · intro limit
    obtain ⟨-, -, -, -, hcircle, -⟩ := walk_limited henAndEgg.source limit (heir "hen") "chick"
    have hegg : Inherits henAndEgg.source ⟨some "hen", .empty, []⟩ ⟨some "egg", .empty, []⟩ :=
      ⟨"hen", heir "egg", rfl, rfl, ofJson_eq_ok_iff.mpr (read_heir "egg")⟩
    have hhen : Inherits henAndEgg.source ⟨some "egg", .empty, []⟩ ⟨some "hen", .empty, []⟩ :=
      ⟨"egg", heir "hen", rfl, rfl, ofJson_eq_ok_iff.mpr (read_heir "hen")⟩
    exact hcircle _ _ (read_heir "hen") .refl (.tail (.single hegg) hhen)
  · obtain ⟨-, -, -, hexact, -, -⟩ := walk_limited henAndEgg.source 1 (heir "adam") "abel"
    exact (hexact hsource "abel" 1).mpr
      ⟨rfl, rfl, _, read_heir "adam", [], _, .here _, rfl, by simp⟩
  · obtain ⟨-, -, -, -, -, hsame⟩ := walk_limited henAndEgg.source 2 (heir "adam") "abel"
    refine hsame ?_
    intro h
    rw [h] at hresolved
    cases hresolved

end Prefab

end UnitBake
