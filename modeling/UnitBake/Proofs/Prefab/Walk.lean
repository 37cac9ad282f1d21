/-
# The walk to the root

Parents are followed by name, and names can lead anywhere.  How the walk ends is told by the documents
on the way alone: at a root (`Ancestry`), or at a document that it cannot go on from (`Held`), since
the limit is reached, the parent cannot be read, or it has the wrong shape.  Both are equivalences
(`ancestors_eq_ok_iff`, `ancestors_eq_error_iff`), so nothing below opens the walk again.
-/
import UnitBake.Proofs.Prefab.Chain

namespace UnitBake.Prefab

/-! ## 1. Going up -/

/-- A document inherits from another one: that is read under the name the document gives. -/
def Inherits (source : Source) (d e : Document) : Prop :=
  ∃ parent tree, d.parent = some parent ∧ source.readUnit parent = .ok tree ∧
    Document.ofJson tree parent = .ok e

/-- The walk up from `d` passes the documents `above`, of which `top` is the last. -/
inductive Climb (source : Source) : Document → List Document → Document → Prop where
  | here (d : Document) : Climb source d [] d
  | up {d e top : Document} {above : List Document} (hstep : Inherits source d e)
      (hrest : Climb source e above top) : Climb source d (e :: above) top

/-- Why a walk that may still go up so many documents cannot go on from a document. -/
inductive Held (source : Source) (tooDeep : Fault) : Nat → Document → Fault → Prop where
  /-- It may go no further, and the document names a parent. -/
  | limit {d : Document} (hparent : d.parent ≠ none) : Held source tooDeep 0 d tooDeep
  /-- The parent cannot be read. -/
  | unread {left : Nat} {d : Document} {parent : String} {fault : Fault}
      (hparent : d.parent = some parent) (hread : source.readUnit parent = .error fault) :
      Held source tooDeep (left + 1) d fault
  /-- The parent has the wrong shape, which is told under its own name. -/
  | misshapen {left : Nat} {d : Document} {parent : String} {tree : Json} {e : ShapeError}
      (hparent : d.parent = some parent) (hread : source.readUnit parent = .ok tree)
      (hshape : Document.read tree = .error e) :
      Held source tooDeep (left + 1) d (.document parent (.shape e))

theorem Inherits.parent_ne_none {source : Source} {d e : Document} (h : Inherits source d e) :
    d.parent ≠ none := by
  obtain ⟨parent, tree, hparent, -, -⟩ := h
  rw [hparent]
  exact Option.some_ne_none parent

/-- All documents of a climb but the last name a parent. -/
theorem Climb.parent_ne_none {source : Source} {d top : Document} {above : List Document}
    (h : Climb source d above top) (htop : top.parent ≠ none) :
    ∀ e ∈ d :: above, e.parent ≠ none := by
  induction h with
  | here d => simpa using htop
  | up hstep hrest ih => exact List.forall_mem_cons.mpr ⟨hstep.parent_ne_none, ih htop⟩

theorem Climb.top_mem {source : Source} {d top : Document} {above : List Document}
    (h : Climb source d above top) : top ∈ d :: above := by
  induction h with
  | here d => exact List.mem_cons_self
  | up hstep hrest ih => exact List.mem_cons_of_mem _ ih

/-! ## 2. How the walk ends -/

theorem ofJson_eq_ok_iff {tree : Json} {path : String} {d : Document} :
    Document.ofJson tree path = .ok d ↔ Document.read tree = .ok d :=
  mapError_eq_ok

theorem ofJson_eq_error_iff {tree : Json} {path : String} {fault : Fault} :
    Document.ofJson tree path = .error fault ↔
      ∃ e, Document.read tree = .error e ∧ fault = .document path (.shape e) :=
  mapError_eq_error

section

variable {source : Source} {tooDeep : Fault}

/-- **The walk comes to a root** if there is one within reach, and passes just its ancestors. -/
theorem ancestors_eq_ok_iff {allowed : Nat} {d : Document} {above : List Document} :
    ancestors source tooDeep allowed d = .ok above ↔
      Ancestry source d above ∧ above.length ≤ allowed := by
  refine ⟨ancestry_of_ancestors, ?_⟩
  rintro ⟨hancestry, hlength⟩
  induction hancestry generalizing allowed with
  | root h => rw [ancestors, h]
  | child hparent hread hdocument hrest ih =>
    cases allowed with
    | zero => cases hlength
    | succ allowed =>
      have hwalk := ih (Nat.le_of_succ_le_succ hlength)
      simp only [ancestors, hparent, hread, bind, Except.bind, hdocument, hwalk]
      rfl

/-- **The walk fails** where it is held, after going up as far as it could. -/
theorem ancestors_eq_error_iff {allowed : Nat} {d : Document} {fault : Fault} :
    ancestors source tooDeep allowed d = .error fault ↔
      ∃ above top left, Climb source d above top ∧ allowed = above.length + left ∧
        Held source tooDeep left top fault := by
  constructor
  · intro h
    induction allowed generalizing d with
    | zero =>
      rw [ancestors] at h
      cases hparent : d.parent with
      | none => simp [hparent] at h
      | some parent =>
        simp only [hparent] at h
        obtain rfl := Except.error.inj h
        exact ⟨[], d, 0, .here d, rfl, .limit (by simp [hparent])⟩
    | succ allowed ih =>
      rw [ancestors] at h
      cases hparent : d.parent with
      | none => simp [hparent] at h
      | some parent =>
        simp only [hparent] at h
        rcases bind_eq_error.mp h with hread | ⟨tree, hread, h⟩
        · exact ⟨[], d, allowed + 1, .here d, by simp, .unread hparent hread⟩
        rcases bind_eq_error.mp h with hshape | ⟨document, hdocument, h⟩
        · obtain ⟨e, hread', rfl⟩ := ofJson_eq_error_iff.mp hshape
          exact ⟨[], d, allowed + 1, .here d, by simp, .misshapen hparent hread hread'⟩
        rcases bind_eq_error.mp h with hrest | ⟨rest, -, h⟩
        · obtain ⟨above, top, left, hclimb, hallowed, hheld⟩ := ih hrest
          refine ⟨document :: above, top, left, .up ⟨_, _, hparent, hread, hdocument⟩ hclimb, ?_,
            hheld⟩
          rw [List.length_cons]
          omega
        · cases h
  · rintro ⟨above, top, left, hclimb, rfl, hheld⟩
    induction hclimb with
    | here d =>
      rw [List.length_nil, Nat.zero_add, ancestors]
      cases hheld with
      | limit hparent =>
        obtain ⟨parent, hparent⟩ := Option.ne_none_iff_exists'.mp hparent
        simp only [hparent]
      | unread hparent hread => simp [hparent, hread, bind, Except.bind]
      | @misshapen left d parent tree e hparent hread hshape =>
        have hdocument : Document.ofJson tree parent = .error (.document parent (.shape e)) :=
          ofJson_eq_error_iff.mpr ⟨e, hshape, rfl⟩
        simp only [hparent, hread, bind, Except.bind, hdocument]
    | @up d e top above hstep hrest ih =>
      obtain ⟨parent, tree, hparent, hread, hdocument⟩ := hstep
      have hwalk := ih hheld
      have hallowed : (e :: above).length + left = above.length + left + 1 := by
        rw [List.length_cons]
        omega
      rw [hallowed, ancestors]
      simp only [hparent, hread, bind, Except.bind, hdocument, hwalk]

end

end UnitBake.Prefab
