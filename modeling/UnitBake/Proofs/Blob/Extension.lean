/-
# Bytes behind the end

What does a reader make of a byte string when more bytes are put behind it?  A reader of blobs goes
forward and looks at no byte twice, so there are three cases (`ReadsForward`): a result stays, since the
new bytes are not looked at; a refusal stays for the same reason; and where the bytes ran out, the
reader goes on in the new ones, and if there are too few of them it misses just so many less.

The three are kept by doing one reading after another (`ReadsForward.bind`), and so they hold of every
reader that is put together from `Cursor.take`: of sections (`readsForward_readSection`), of any number
of them (`readsForward_readSections`) and of blobs (`readsForward_readBlob`).

A written blob is read to its last byte.  So what is left of one that was cut short can neither be read
nor be refused for another reason, and the reader runs out of bytes (`truncated_of_prefix`).
-/
import UnitBake.Proofs.Blob.Rewriting

namespace UnitBake.Blob

/-- A part of a blob is read at a cursor, and the cursor behind it returned. -/
abbrev Reading (α : Type) : Type := Cursor → Except Error (α × Cursor)

/-! ## 1. Readings that go forward -/

namespace Cursor

/-- The cursor at the same place before more bytes. -/
def extend (c : Cursor) (more : List UInt8) : Cursor := ⟨c.offset, c.rest ++ more⟩

/-- The offset behind the last byte. -/
def limit (c : Cursor) : Nat := c.offset + c.rest.length

end Cursor

section

variable {α β : Type}

/-- A reading came past an offset: it stopped behind it, was refused, or ran out of bytes behind it. -/
def Passes (offset : Nat) : Except Error (α × Cursor) → Prop
  | .ok (_, c) => offset < c.offset
  | .error (.truncated stop _) => offset < stop
  | .error _ => True

/-- A reading goes forward to the end of its bytes at most, and more bytes behind them matter to it
only where it ran out of bytes. -/
structure ReadsForward (read : Reading α) : Prop where
  /-- A result does not change. -/
  ok {c c' : Cursor} {a : α} (h : read c = .ok (a, c')) :
    c.offset ≤ c'.offset ∧ c'.limit = c.limit ∧
      ∀ more, read (c.extend more) = .ok (a, c'.extend more)
  /-- Where bytes are missing, fewer bytes are missed, or the reading comes past this place. -/
  truncated {c : Cursor} {offset needed : Nat} (h : read c = .error (.truncated offset needed)) :
    c.offset ≤ offset ∧ offset ≤ c.limit ∧ 0 < needed ∧
      ∀ more,
        (more.length < needed →
          read (c.extend more) = .error (.truncated offset (needed - more.length))) ∧
        (needed ≤ more.length → Passes offset (read (c.extend more)))
  /-- A refusal does not change. -/
  refused {c : Cursor} {e : Error} (h : read c = .error e)
    (hother : ∀ offset needed, e ≠ .truncated offset needed) :
    ∀ more, read (c.extend more) = .error e

namespace ReadsForward

/-- Returning a value moves nothing. -/
theorem pure (a : α) : ReadsForward fun c => .ok (a, c) where
  ok {c c' b} h := by
    obtain ⟨rfl, rfl⟩ := Prod.mk.inj (Except.ok.inj h)
    exact ⟨Nat.le_refl _, rfl, fun _ => rfl⟩
  truncated h := by cases h
  refused h := by cases h

/-- Refusing looks at nothing. -/
theorem refuse {e : Error} (he : ∀ offset needed, e ≠ .truncated offset needed) :
    ReadsForward fun _ => (.error e : Except Error (α × Cursor)) where
  ok h := by cases h
  truncated h := absurd (Except.error.inj h) (he _ _)
  refused h _ _ := h

/-- Taking bytes goes forward, also when their number depends on the place. -/
theorem take (size : Nat → Nat) : ReadsForward fun c => c.take (size c.offset) where
  ok {c c' front} h := by
    rw [Cursor.take] at h
    split at h
    · cases h
    next hlength =>
    obtain ⟨rfl, rfl⟩ := Prod.mk.inj (Except.ok.inj h)
    have hle : size c.offset ≤ c.rest.length := Nat.le_of_not_lt hlength
    refine ⟨Nat.le_add_right _ _, ?_, ?_⟩
    · simp only [Cursor.limit, List.length_drop]
      omega
    · intro more
      have hroom : ¬ (c.rest ++ more).length < size c.offset := by
        rw [List.length_append]
        omega
      simp only [Cursor.take, Cursor.extend, if_neg hroom, List.take_append_of_le_length hle,
        List.drop_append_of_le_length hle]
  truncated {c offset needed} h := by
    rw [Cursor.take] at h
    split at h
    next hlength =>
      obtain ⟨rfl, rfl⟩ := Error.truncated.inj (Except.error.inj h)
      refine ⟨Nat.le_refl _, Nat.le_add_right _ _, by omega, ?_⟩
      intro more
      constructor
      · intro hfew
        have hshort : c.rest.length + more.length < size c.offset := by omega
        simp only [Cursor.take, Cursor.extend, List.length_append, if_pos hshort, Nat.sub_sub]
      · intro hmany
        have hroom : ¬ c.rest.length + more.length < size c.offset := by omega
        have hstep : 0 < size c.offset := by omega
        simp only [Cursor.take, Cursor.extend, List.length_append, if_neg hroom, Passes]
        omega
    · cases h
  refused {c e} h hother := by
    rw [Cursor.take] at h
    split at h
    · exact absurd (Except.error.inj h).symm (hother _ _)
    · cases h

/-- A choice that does not depend on the cursor. -/
theorem ite {p : Prop} [Decidable p] {first second : Reading α} (hfirst : ReadsForward first)
    (hsecond : ReadsForward second) : ReadsForward fun c => if p then first c else second c := by
  by_cases hp : p
  · simp only [if_pos hp]
    exact hfirst
  · simp only [if_neg hp]
    exact hsecond

/-- What comes behind an offset stays behind it. -/
theorem passes_bind {next : α → Reading β} (hnext : ∀ a, ReadsForward (next a)) {offset : Nat}
    {first : Except Error (α × Cursor)} (h : Passes offset first) :
    Passes offset (first >>= fun p => next p.1 p.2) := by
  cases first with
  | error e => cases e <;> exact h
  | ok p =>
    obtain ⟨a, c⟩ := p
    have hlt : offset < c.offset := h
    have hbind : ((Except.ok (a, c) : Except Error (α × Cursor)) >>= fun p => next p.1 p.2) =
        next a c := rfl
    rw [hbind]
    cases hresult : next a c with
    | ok q => exact Nat.lt_of_lt_of_le hlt ((hnext a).ok hresult).1
    | error e =>
      cases e with
      | truncated stop needed =>
        exact Nat.lt_of_lt_of_le hlt ((hnext a).truncated hresult).1
      | version expected found => trivial
      | sectionSize typeId size => trivial

/-- **One reading after another goes forward.** -/
theorem bind {first : Reading α} {next : α → Reading β} (hfirst : ReadsForward first)
    (hnext : ∀ a, ReadsForward (next a)) :
    ReadsForward fun c => first c >>= fun p => next p.1 p.2 where
  ok {c c'' b} h := by
    obtain ⟨⟨a, c'⟩, ha, hb⟩ := bind_eq_ok.mp h
    obtain ⟨hle, hlimit, hmore⟩ := hfirst.ok ha
    obtain ⟨hle', hlimit', hmore'⟩ := (hnext a).ok hb
    refine ⟨Nat.le_trans hle hle', hlimit'.trans hlimit, ?_⟩
    intro more
    rw [hmore more]
    exact hmore' more
  truncated {c offset needed} h := by
    cases ha : first c with
    | error e =>
      rw [ha] at h
      obtain rfl := Except.error.inj h
      obtain ⟨hle, hlimit, hneeded, hmore⟩ := hfirst.truncated ha
      refine ⟨hle, hlimit, hneeded, ?_⟩
      intro more
      obtain ⟨hfew, hmany⟩ := hmore more
      constructor
      · intro hlt
        rw [hfew hlt]
        rfl
      · intro hge
        exact passes_bind hnext (hmany hge)
    | ok p =>
      obtain ⟨a, c'⟩ := p
      rw [ha] at h
      obtain ⟨hle, hlimit, hmore⟩ := hfirst.ok ha
      obtain ⟨hle', hlimit', hneeded, hmore'⟩ := (hnext a).truncated h
      refine ⟨Nat.le_trans hle hle', hlimit ▸ hlimit', hneeded, ?_⟩
      intro more
      rw [hmore more]
      exact hmore' more
  refused {c e} h hother := by
    intro more
    cases ha : first c with
    | error e' =>
      rw [ha] at h
      obtain rfl := Except.error.inj h
      rw [hfirst.refused ha hother more]
      rfl
    | ok p =>
      obtain ⟨a, c'⟩ := p
      rw [ha] at h
      rw [(hfirst.ok ha).2.2 more]
      exact (hnext a).refused h hother more

end ReadsForward

end

/-! ## 2. The readers of blobs -/

/-- Reads what stands behind the header of a section. -/
def readParts (header : SectionHeader) : Reading Section := fun c => do
  let (ownerBytes, c) ← c.take (4 * header.instances.toNat)
  let (payload, c) ← c.take (header.size.toNat - 4 * header.instances.toNat)
  let (_, c) ← c.take (padding c.offset)
  return (⟨header, ownerBytes, payload⟩, c)

theorem readsForward_readParts (header : SectionHeader) : ReadsForward (readParts header) := by
  have hpadding : ∀ ownerBytes payload,
      ReadsForward fun c => c.take (padding c.offset) >>= fun p =>
        .ok (Section.mk header ownerBytes payload, p.2) :=
    fun _ _ => (ReadsForward.take padding).bind fun _ => ReadsForward.pure _
  have hpayload : ∀ ownerBytes,
      ReadsForward fun c => c.take (header.size.toNat - 4 * header.instances.toNat) >>= fun p =>
        p.2.take (padding p.2.offset) >>= fun q => .ok (Section.mk header ownerBytes p.1, q.2) :=
    fun ownerBytes => (ReadsForward.take fun _ => _).bind fun payload => hpadding ownerBytes payload
  exact (ReadsForward.take fun _ => _).bind hpayload

theorem readsForward_readSection : ReadsForward readSection := by
  have hchecked : ∀ header : SectionHeader,
      ReadsForward fun c =>
        if header.size.toNat < 4 * header.instances.toNat then
          .error (.sectionSize header.typeId header.size)
        else readParts header c :=
    fun header => (ReadsForward.refuse (by simp)).ite (readsForward_readParts header)
  exact (ReadsForward.take fun _ => headerSize).bind fun bytes => hchecked (.ofBytes bytes)

theorem readsForward_readSections : ∀ n, ReadsForward (readSections n)
  | 0 => ReadsForward.pure []
  | n + 1 => by
    have hrest : ∀ s, ReadsForward fun c =>
        readSections n c >>= fun p => .ok (s :: p.1, p.2) :=
      fun s => (readsForward_readSections n).bind fun rest => ReadsForward.pure (s :: rest)
    exact readsForward_readSection.bind hrest

/-- Reads a blob and stops behind its last section. -/
def readBlob : Reading Parsed := fun c => do
  let (headerBytes, c) ← c.take headerSize
  let header := Header.ofBytes headerBytes
  if header.version ≠ currentVersion then .error (.version currentVersion header.version)
  else
    let (sections, c) ← readSections header.sections.toNat c
    return (⟨header, sections⟩, c)

/-- Reading forgets where the blob ends. -/
theorem read_eq (bytes : List UInt8) : read bytes = (readBlob ⟨0, bytes⟩).map Prod.fst := by
  unfold read readBlob
  cases (Cursor.mk 0 bytes).take headerSize with
  | error e => rfl
  | ok p =>
    simp only [bind, Except.bind]
    split
    · rfl
    · cases readSections (Header.ofBytes p.1).sections.toNat p.2 <;> rfl

theorem readsForward_readBlob : ReadsForward readBlob := by
  have hchecked : ∀ header : Header,
      ReadsForward fun c =>
        if header.version ≠ currentVersion then
          .error (.version currentVersion header.version)
        else readSections header.sections.toNat c >>= fun p => .ok (Parsed.mk header p.1, p.2) :=
    fun header => (ReadsForward.refuse (by simp)).ite
      ((readsForward_readSections _).bind fun _ => ReadsForward.pure _)
  exact (ReadsForward.take fun _ => headerSize).bind fun bytes => hchecked (.ofBytes bytes)

/-! ## 3. Blobs with bytes behind them -/

theorem read_eq_error_iff {bytes : List UInt8} {e : Error} :
    read bytes = .error e ↔ readBlob ⟨0, bytes⟩ = .error e := by
  rw [read_eq]
  cases readBlob ⟨0, bytes⟩ with
  | error e' =>
    constructor
    · intro h
      rw [Except.error.inj h]
    · intro h
      rw [Except.error.inj h]
      rfl
  | ok p =>
    constructor
    · intro h
      cases h
    · intro h
      cases h

/-- **A blob that is read is read with any bytes behind it.** -/
theorem read_append_of_ok {bytes : List UInt8} {r : Parsed} (h : read bytes = .ok r)
    (more : List UInt8) : read (bytes ++ more) = .ok r := by
  rw [read_eq] at h
  cases hblob : readBlob ⟨0, bytes⟩ with
  | error e =>
    rw [hblob] at h
    cases h
  | ok p =>
    obtain ⟨r', c⟩ := p
    rw [hblob] at h
    obtain rfl := Except.ok.inj h
    rw [read_eq]
    exact congrArg (Except.map Prod.fst) ((readsForward_readBlob.ok hblob).2.2 more)

/-- **What is refused for another reason than missing bytes** is refused with any bytes behind it. -/
theorem read_append_of_refused {bytes : List UInt8} {e : Error} (h : read bytes = .error e)
    (hother : ∀ offset needed, e ≠ .truncated offset needed) (more : List UInt8) :
    read (bytes ++ more) = .error e := by
  rw [read_eq_error_iff] at h ⊢
  exact readsForward_readBlob.refused h hother more

section

variable {bytes : List UInt8} {offset needed : Nat}

/-- Bytes are missing at a place within the blob or at its end, and at least one is. -/
theorem bounds_of_truncated (h : read bytes = .error (.truncated offset needed)) :
    offset ≤ bytes.length ∧ 1 ≤ needed := by
  rw [read_eq_error_iff] at h
  obtain ⟨-, hlimit, hneeded, -⟩ := readsForward_readBlob.truncated h
  have hend : (Cursor.mk 0 bytes).limit = bytes.length := Nat.zero_add _
  rw [hend] at hlimit
  exact ⟨hlimit, hneeded⟩

/-- **With fewer bytes behind it than are missing**, a blob is still too short by the others. -/
theorem read_append_of_few (h : read bytes = .error (.truncated offset needed))
    {more : List UInt8} (hfew : more.length < needed) :
    read (bytes ++ more) = .error (.truncated offset (needed - more.length)) := by
  rw [read_eq_error_iff] at h ⊢
  exact ((readsForward_readBlob.truncated h).2.2.2 more).1 hfew

/-- **With as many bytes behind it as are missing**, the reader comes past the place where they
were. -/
theorem read_append_of_enough (h : read bytes = .error (.truncated offset needed))
    {more : List UInt8} (henough : needed ≤ more.length) (needed' : Nat) :
    read (bytes ++ more) ≠ .error (.truncated offset needed') := by
  intro hstill
  rw [read_eq_error_iff] at h hstill
  have hpasses := ((readsForward_readBlob.truncated h).2.2.2 more).2 henough
  have hcursor : (Cursor.mk 0 bytes).extend more = ⟨0, bytes ++ more⟩ := rfl
  rw [hcursor, hstill] at hpasses
  exact absurd hpasses (Nat.lt_irrefl offset)

end

/-! ## 4. Blobs cut short -/

/-- A written blob is read to its last byte: writing again what was read takes as many. -/
theorem exists_read_write (units : UInt32) {contents : List Content}
    (hfit : ∀ c ∈ contents, c.Fits) (hcount : contents.length < 2 ^ 32) :
    ∃ r, read (write units contents) = .ok r ∧ r.bytes = write units contents := by
  have hread := read_write units [] hfit
  rw [List.append_nil, take_sections units hcount] at hread
  refine ⟨_, hread, ?_⟩
  rw [(readFrom_of_read hread).bytes_eq_write, Parsed.contents, map_content_section]
  rfl

/-- **A written blob that was cut short** is too short. -/
theorem truncated_of_prefix {units : UInt32} {contents : List Content}
    (hfit : ∀ c ∈ contents, c.Fits) (hcount : contents.length < 2 ^ 32) {front : List UInt8}
    (hlost : front <+: write units contents) (hne : front ≠ write units contents) :
    ∃ offset needed, read front = .error (.truncated offset needed) := by
  obtain ⟨r, hread, hbytes⟩ := exists_read_write units hfit hcount
  obtain ⟨more, hmore⟩ := hlost
  rw [← hmore] at hread hbytes hne
  cases hfront : read front with
  | ok r' =>
    -- what is read takes all bytes of the blob, and these are fewer
    have hsame := (read_append_of_ok hfront more).symm.trans hread
    obtain rfl := Except.ok.inj hsame
    have hle := (readFrom_of_read hfront).length_bytes_le
    rw [hbytes, List.length_append] at hle
    have hnil : more = [] := List.length_eq_zero_iff.mp (by omega)
    rw [hnil, List.append_nil] at hne
    exact absurd rfl hne
  | error e =>
    cases e with
    | truncated offset needed => exact ⟨offset, needed, rfl⟩
    | version expected found =>
      rw [read_append_of_refused hfront (by simp) more] at hread
      cases hread
    | sectionSize typeId size =>
      rw [read_append_of_refused hfront (by simp) more] at hread
      cases hread

end UnitBake.Blob
